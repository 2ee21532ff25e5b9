import Mathlib.Data.List.SplitBy

/-!
# Chunks by position

A list is cut where two neighbours are not related.  The cuts are found first, as positions, and the
list is sliced at them afterwards; with the end of the list as the last position the slices are the
groups of `List.splitBy`.
-/

namespace List

variable {α : Type} {r : α → α → Bool}

/-- The positions of the elements that are not related to the one before. -/
def breaks (r : α → α → Bool) (l : List α) : List Nat :=
  (l.zip l.tail).zipIdx.filterMap fun neighbours =>
    if r neighbours.1.1 neighbours.1.2 then none else some (neighbours.2 + 1)

/-- The slices from `prev` to the first position, and between successive positions. -/
def slices (l : List α) : (prev : Nat) → List Nat → List (List α)
  | _, [] => []
  | prev, ind :: inds => (l.drop prev).take (ind - prev) :: slices l ind inds

theorem breaks_cons_cons (a b : α) (l : List α) :
    breaks r (a :: b :: l) =
      if r a b then (breaks r (b :: l)).map (· + 1) else 1 :: (breaks r (b :: l)).map (· + 1) := by
  have hshift (neighbours : List (α × α)) :
      (neighbours.zipIdx 1).filterMap (fun neighbours =>
          if r neighbours.1.1 neighbours.1.2 then none else some (neighbours.2 + 1)) =
        (neighbours.zipIdx.filterMap fun neighbours =>
          if r neighbours.1.1 neighbours.1.2 then none else some (neighbours.2 + 1)).map (· + 1) := by
    rw [zipIdx_succ, filterMap_map, map_filterMap]
    apply filterMap_congr
    intro neighbours _
    simp only [Function.comp_apply]
    split_ifs <;> rfl
  simp only [breaks, tail_cons, zip_cons_cons, zipIdx_cons, filterMap_cons]
  split_ifs
  · exact hshift _
  · exact congrArg (1 :: ·) (hshift _)

theorem slices_map_succ (a : α) (l : List α) (prev : Nat) (inds : List Nat) :
    slices (a :: l) (prev + 1) (inds.map (· + 1)) = slices l prev inds := by
  induction inds generalizing prev with
  | nil => rfl
  | cons ind inds ih => simp only [map_cons, slices, drop_succ_cons, Nat.add_sub_add_right, ih]

theorem splitBy_cons_of_rel {a b : α} {l run : List α} {rest : List (List α)} (h : r a b)
    (hrun : (b :: l).splitBy r = run :: rest) : (a :: b :: l).splitBy r = (a :: run) :: rest := by
  obtain ⟨hflatten, hnil, hchains, hbreaks⟩ := splitBy_eq_iff.mp hrun
  obtain ⟨first, run, rfl⟩ := exists_cons_of_ne_nil fun hempty => hnil (hempty ▸ mem_cons_self)
  simp only [flatten_cons, cons_append, cons.injEq] at hflatten
  obtain ⟨rfl, rfl⟩ := hflatten
  refine splitBy_eq_iff.mpr ⟨rfl, ?_, ?_, ?_⟩
  · simpa using hnil
  · intro m hm
    rcases mem_cons.mp hm with rfl | hm
    · exact isChain_cons_cons.mpr ⟨h, hchains _ mem_cons_self⟩
    · exact hchains m (mem_cons_of_mem _ hm)
  · cases rest with
    | nil => exact isChain_singleton _
    | cons next rest =>
        obtain ⟨⟨ha, hb, hbreak⟩, hrest⟩ := isChain_cons_cons.mp hbreaks
        refine isChain_cons_cons.mpr ⟨⟨cons_ne_nil _ _, hb, ?_⟩, hrest⟩
        rw [getLast_cons ha]
        exact hbreak

/-- Sliced at the cuts and at its end, a list falls into its groups. -/
theorem slices_breaks {l : List α} (hl : l ≠ []) :
    slices l 0 (breaks r l ++ [l.length]) = l.splitBy r := by
  induction l with
  | nil => exact absurd rfl hl
  | cons a l ih =>
      cases l with
      | nil =>
          rw [splitBy_of_isChain hl (isChain_singleton a)]
          rfl
      | cons b l =>
          have hrest := ih (cons_ne_nil _ _)
          have hend : [(a :: b :: l).length] = [(b :: l).length].map (· + 1) := rfl
          rw [breaks_cons_cons, hend]
          split_ifs with hrel
          · rw [← map_append]
            obtain ⟨ind, inds, hinds⟩ : ∃ ind inds, breaks r (b :: l) ++ [(b :: l).length] = ind :: inds :=
              exists_cons_of_ne_nil (by simp)
            rw [hinds] at hrest ⊢
            simp only [slices, map_cons, slices_map_succ] at hrest ⊢
            rw [splitBy_cons_of_rel hrel hrest.symm]
            rfl
          · rw [cons_append, ← map_append]
            have hsplit : (a :: b :: l).splitBy r = [[a]] ++ (b :: l).splitBy r := by
              have hlast : ∀ x ∈ [a].getLast?, r x b = false := by
                intro x hx
                cases hx
                exact Bool.eq_false_iff.mpr hrel
              rw [← splitBy_of_isChain (cons_ne_nil a []) (isChain_singleton (R := fun x y => r x y) a)]
              exact splitBy_append_cons l hlast
            rw [hsplit, ← hrest]
            exact congrArg ([a] :: ·) (slices_map_succ a (b :: l) 0 _)

/-- Without the end of the list the last group is missing. -/
theorem slices_breaks_dropLast {l : List α} (hl : l ≠ []) :
    slices l 0 (breaks r l) = (l.splitBy r).dropLast := by
  have happend (prev ind : Nat) (inds : List Nat) :
      (slices l prev (inds ++ [ind])).dropLast = slices l prev inds := by
    induction inds generalizing prev with
    | nil => rfl
    | cons first inds ih =>
        rw [cons_append, slices, dropLast_cons_of_ne_nil, ih]
        · rfl
        · cases inds <;> exact cons_ne_nil _ _
  rw [← slices_breaks hl, happend]

end List
