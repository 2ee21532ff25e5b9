import Mathlib.Data.List.Induction
import Mathlib.Data.List.Nodup

/-!
# Insertion-ordered maps

A map that iterates in insertion order, except that `swapRemove` moves the last entry into the
place of the removed one.  The entries carry the proof that no key occurs twice, so that a lookup is
determined by membership in the entry list.
-/

/-- An insertion-ordered map with pairwise distinct keys. -/
structure IndexMap (K V : Type) where
  entries : List (K × V)
  nodup : (entries.map Prod.fst).Nodup

namespace IndexMap

variable {K V : Type} [DecidableEq K]

def lookupEntries (k : K) (es : List (K × V)) : Option V :=
  (es.find? fun e => e.1 = k).map Prod.snd

/-- The entries after `insert`: a present key keeps its place. -/
def insertEntries (k : K) (v : V) : List (K × V) → List (K × V)
  | [] => [(k, v)]
  | e :: es => if e.1 = k then (k, v) :: es else e :: insertEntries k v es

/-- The entries after `swap_remove`: the last entry takes the freed place. -/
def swapRemoveEntries (k : K) : List (K × V) → List (K × V)
  | [] => []
  | e :: es =>
      if e.1 = k then
        match es.getLast? with
        | none => []
        | some last => last :: es.dropLast
      else e :: swapRemoveEntries k es

def modifyEntries (k : K) (f : V → V) (es : List (K × V)) : List (K × V) :=
  es.map fun e => if e.1 = k then (e.1, f e.2) else e

omit [DecidableEq K] in
private theorem getLast_cons_dropLast_perm (es : List (K × V)) :
    (match es.getLast? with
      | none => []
      | some last => last :: es.dropLast).Perm es := by
  cases es using List.reverseRecOn with
  | nil => simp
  | append_singleton es e => simpa using (List.perm_append_singleton e es).symm

/-- Apart from the order, the first entry of the key is taken out. -/
theorem swapRemoveEntries_perm (k : K) (es : List (K × V)) :
    (swapRemoveEntries k es).Perm (es.eraseP fun e => e.1 = k) := by
  induction es with
  | nil => exact .nil
  | cons e es ih =>
      rw [swapRemoveEntries, List.eraseP_cons]
      by_cases h : e.1 = k
      · simp only [h, if_true, decide_true, cond_true]
        exact getLast_cons_dropLast_perm es
      · simp only [h, if_false, decide_false, cond_false]
        exact ih.cons e

private theorem keys_insertEntries (k : K) (v : V) (es : List (K × V)) :
    (insertEntries k v es).map Prod.fst =
      if k ∈ es.map Prod.fst then es.map Prod.fst else es.map Prod.fst ++ [k] := by
  induction es with
  | nil => simp [insertEntries]
  | cons e es ih =>
      by_cases h : e.1 = k
      · simp [insertEntries, h]
      · have hk : k ≠ e.1 := fun he => h he.symm
        simp only [insertEntries, h, if_false, List.map_cons, ih, List.mem_cons, hk, false_or]
        split <;> simp

private theorem keys_modifyEntries (k : K) (f : V → V) (es : List (K × V)) :
    (modifyEntries k f es).map Prod.fst = es.map Prod.fst := by
  induction es with
  | nil => rfl
  | cons e es ih =>
      have hkey : (if e.1 = k then (e.1, f e.2) else e).1 = e.1 := by split <;> rfl
      simp only [modifyEntries, List.map_cons, hkey] at ih ⊢
      rw [ih]

theorem mem_swapRemoveEntries {k : K} {es : List (K × V)} (h : (es.map Prod.fst).Nodup)
    (e : K × V) : e ∈ swapRemoveEntries k es ↔ e ∈ es ∧ e.1 ≠ k := by
  induction es with
  | nil => simp [swapRemoveEntries]
  | cons a es ih =>
      simp only [List.map_cons, List.nodup_cons, List.mem_map, not_exists, not_and] at h
      by_cases ha : a.1 = k
      · have hne : ∀ b ∈ es, b.1 ≠ k := fun b hb hbk => h.1 b hb (hbk.trans ha.symm)
        simp only [swapRemoveEntries, ha, if_true, (getLast_cons_dropLast_perm es).mem_iff,
          List.mem_cons]
        constructor
        · exact fun he => ⟨Or.inr he, hne e he⟩
        · rintro ⟨rfl | he, hk⟩
          · exact absurd ha hk
          · exact he
      · simp only [swapRemoveEntries, ha, if_false, List.mem_cons, ih h.2]
        constructor
        · rintro (rfl | he)
          · exact ⟨Or.inl rfl, ha⟩
          · exact ⟨Or.inr he.1, he.2⟩
        · rintro ⟨rfl | he, hk⟩
          · exact Or.inl rfl
          · exact Or.inr ⟨he, hk⟩

theorem nodup_keys_swapRemoveEntries {k : K} {es : List (K × V)}
    (h : (es.map Prod.fst).Nodup) : ((swapRemoveEntries k es).map Prod.fst).Nodup := by
  induction es with
  | nil => simp [swapRemoveEntries]
  | cons a es ih =>
      have h' := h
      simp only [List.map_cons, List.nodup_cons, List.mem_map, not_exists, not_and] at h'
      by_cases ha : a.1 = k
      · simp only [swapRemoveEntries, ha, if_true]
        exact ((getLast_cons_dropLast_perm es).map Prod.fst).nodup_iff.mpr h'.2
      · simp only [swapRemoveEntries, ha, if_false, List.map_cons, List.nodup_cons, List.mem_map,
          not_exists, not_and]
        refine ⟨fun b hb hba => ?_, ih h'.2⟩
        exact h'.1 b ((mem_swapRemoveEntries h'.2 b).mp hb).1 hba

def empty : IndexMap K V := ⟨[], by simp⟩

instance : Inhabited (IndexMap K V) := ⟨empty⟩

def get (m : IndexMap K V) (k : K) : Option V :=
  lookupEntries k m.entries

def insert (m : IndexMap K V) (k : K) (v : V) : IndexMap K V where
  entries := insertEntries k v m.entries
  nodup := by
    rw [keys_insertEntries]
    split
    · exact m.nodup
    · rename_i h
      exact List.Nodup.append m.nodup (by simp) (by simpa using h)

/-- Remove the entry of a key; its value is `m.get k`. -/
def swapRemove (m : IndexMap K V) (k : K) : IndexMap K V where
  entries := swapRemoveEntries k m.entries
  nodup := nodup_keys_swapRemoveEntries m.nodup

/-- Update the value of a key in place (`get_mut`). -/
def modify (m : IndexMap K V) (k : K) (f : V → V) : IndexMap K V where
  entries := modifyEntries k f m.entries
  nodup := by
    rw [keys_modifyEntries]
    exact m.nodup

@[simp] theorem get_empty (k : K) : (empty : IndexMap K V).get k = none := rfl

private theorem lookupEntries_eq_some_iff {es : List (K × V)} (h : (es.map Prod.fst).Nodup) (k : K)
    (v : V) : lookupEntries k es = some v ↔ (k, v) ∈ es := by
  unfold lookupEntries
  induction es with
  | nil => simp
  | cons a es ih =>
      simp only [List.map_cons, List.nodup_cons, List.mem_map, not_exists, not_and] at h
      by_cases ha : a.1 = k
      · have hnot : (k, v) ∉ es := fun hmem => h.1 (k, v) hmem ha.symm
        have hhead : a.2 = v ↔ (k, v) = a := by
          rw [Prod.ext_iff]
          simp [ha, eq_comm]
        simp [ha, hnot, hhead]
      · have hne : (k, v) ≠ a := fun he => ha (by rw [← he])
        simp [ha, hne, ih h.2]

theorem get_eq_some_iff (m : IndexMap K V) (k : K) (v : V) :
    m.get k = some v ↔ (k, v) ∈ m.entries :=
  lookupEntries_eq_some_iff m.nodup k v

private theorem get_congr {m m' : IndexMap K V} {k : K}
    (h : ∀ v, (k, v) ∈ m'.entries ↔ (k, v) ∈ m.entries) : m'.get k = m.get k := by
  ext v
  rw [get_eq_some_iff, get_eq_some_iff, h]

private theorem lookupEntries_insertEntries (k k' : K) (v : V) (es : List (K × V)) :
    lookupEntries k' (insertEntries k v es) = if k' = k then some v else lookupEntries k' es := by
  unfold lookupEntries
  induction es with
  | nil => by_cases h : k' = k <;> simp [insertEntries, h, eq_comm]
  | cons a es ih =>
      by_cases ha : a.1 = k
      · by_cases hk : k' = k
        · simp [insertEntries, ha, hk]
        · have hne : k ≠ k' := fun he => hk he.symm
          simp [insertEntries, ha, hk, hne]
      · by_cases hk' : a.1 = k'
        · have hne : k' ≠ k := fun he => ha (hk'.trans he)
          simp [insertEntries, hk', hne]
        · simpa [insertEntries, ha, hk'] using ih

theorem get_insert (m : IndexMap K V) (k k' : K) (v : V) :
    (m.insert k v).get k' = if k' = k then some v else m.get k' :=
  lookupEntries_insertEntries k k' v m.entries

theorem get_swapRemove (m : IndexMap K V) (k k' : K) :
    (m.swapRemove k).get k' = if k' = k then none else m.get k' := by
  by_cases hk : k' = k
  · rw [if_pos hk]
    rw [Option.eq_none_iff_forall_ne_some]
    intro v hv
    rw [get_eq_some_iff] at hv
    exact ((mem_swapRemoveEntries m.nodup _).mp hv).2 hk
  · rw [if_neg hk]
    refine get_congr fun v => ?_
    simp [swapRemove, mem_swapRemoveEntries m.nodup, hk]

private theorem swapRemoveEntries_of_lookupEntries {k : K} {es : List (K × V)}
    (h : lookupEntries k es = none) : swapRemoveEntries k es = es := by
  induction es with
  | nil => rfl
  | cons e es ih =>
      by_cases he : e.1 = k
      · simp [lookupEntries, he] at h
      · have hrest : lookupEntries k es = none := by simpa [lookupEntries, he] using h
        rw [swapRemoveEntries, if_neg he, ih hrest]

/-- Removing an absent key changes nothing. -/
theorem swapRemove_of_get_eq_none {m : IndexMap K V} {k : K} (h : m.get k = none) :
    m.swapRemove k = m := by
  obtain ⟨entries, hnodup⟩ := m
  simp only [swapRemove, mk.injEq]
  exact swapRemoveEntries_of_lookupEntries h

private theorem lookupEntries_modifyEntries (k k' : K) (f : V → V) (es : List (K × V)) :
    lookupEntries k' (modifyEntries k f es) =
      if k' = k then (lookupEntries k es).map f else lookupEntries k' es := by
  unfold lookupEntries modifyEntries
  induction es with
  | nil => simp
  | cons a es ih =>
      by_cases ha : a.1 = k
      · by_cases hk : k' = k
        · simp [ha, hk]
        · have hne : k ≠ k' := fun he => hk he.symm
          simpa [ha, hk, hne] using ih
      · by_cases hk' : a.1 = k'
        · have hne : k' ≠ k := fun he => ha (hk'.trans he)
          simp [hk', hne]
        · simpa [ha, hk'] using ih

theorem get_modify (m : IndexMap K V) (k k' : K) (f : V → V) :
    (m.modify k f).get k' = if k' = k then (m.get k).map f else m.get k' :=
  lookupEntries_modifyEntries k k' f m.entries

end IndexMap
