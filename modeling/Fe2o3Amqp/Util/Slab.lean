import Mathlib.Data.List.Nodup

/-!
# Slabs

A table that hands out the keys of its entries itself.  Removed keys are reused, the most recently
removed one first, so that a key may name one entry after another.
-/

/-- `Slab<T>`: removed keys are reused, the most recently removed one first. -/
structure Slab (T : Type) where
  entries : List (Option T)
  free : List Nat

namespace Slab

variable {T : Type}

def empty : Slab T := ⟨[], []⟩

def get (slab : Slab T) (key : Nat) : Option T := (slab.entries[key]?).join

def vacantKey (slab : Slab T) : Nat :=
  match slab.free with
  | key :: _ => key
  | [] => slab.entries.length

def insert (slab : Slab T) (value : T) : Slab T :=
  match slab.free with
  | key :: free => ⟨slab.entries.set key (some value), free⟩
  | [] => ⟨slab.entries ++ [some value], []⟩

def tryRemove (slab : Slab T) (key : Nat) : Option T × Slab T :=
  match slab.get key with
  | some value => (some value, ⟨slab.entries.set key none, key :: slab.free⟩)
  | none => (none, slab)

/-- The free list holds vacant keys of the table, none of them twice. -/
structure WellFormed (slab : Slab T) : Prop where
  lt : ∀ key ∈ slab.free, key < slab.entries.length
  vacant : ∀ key ∈ slab.free, slab.get key = none
  nodup : slab.free.Nodup

variable {slab : Slab T}

theorem empty_wellFormed : (empty : Slab T).WellFormed where
  lt := by simp [empty]
  vacant := by simp [empty]
  nodup := List.nodup_nil

@[simp] theorem get_empty (key : Nat) : (empty : Slab T).get key = none := rfl

private theorem get_set (entries : List (Option T)) (free : List Nat) (key key' : Nat)
    (value : Option T) (h : key < entries.length) :
    (Slab.mk (entries.set key value) free).get key' =
      if key' = key then value else (entries[key']?).join := by
  by_cases hkey : key' = key
  · subst hkey
    simp [get, h]
  · simp [get, hkey, Ne.symm hkey]

theorem lt_of_get {key : Nat} {value : T} (h : slab.get key = some value) :
    key < slab.entries.length := by
  by_contra hlt
  have hnone : slab.entries[key]? = none := List.getElem?_eq_none (by omega)
  simp [get, hnone] at h

theorem get_vacantKey (h : slab.WellFormed) : slab.get slab.vacantKey = none := by
  cases hfree : slab.free with
  | nil => simp [vacantKey, hfree, get]
  | cons key free =>
      have hvacant := h.vacant key (by simp [hfree])
      simpa [vacantKey, hfree] using hvacant

/-- The vacant key is where an insertion puts its value. -/
theorem get_insert (h : slab.WellFormed) (value : T) (key : Nat) :
    (slab.insert value).get key = if key = slab.vacantKey then some value else slab.get key := by
  cases hfree : slab.free with
  | nil =>
      simp only [insert, vacantKey, hfree]
      by_cases hkey : key = slab.entries.length
      · subst hkey
        simp [get]
      · rw [if_neg hkey]
        rcases Nat.lt_or_gt_of_ne hkey with hlt | hgt
        · simp [get, List.getElem?_append_left hlt]
        · have hout : (slab.entries ++ [some value])[key]? = none :=
            List.getElem?_eq_none (by simp; omega)
          have hnone : slab.entries[key]? = none := List.getElem?_eq_none (by omega)
          simp [get, hout, hnone]
  | cons k free =>
      simp only [insert, vacantKey, hfree]
      rw [get_set _ _ _ _ _ (h.lt k (by simp [hfree]))]
      rfl

theorem insert_wellFormed (h : slab.WellFormed) (value : T) : (slab.insert value).WellFormed := by
  have hget := get_insert h value
  cases hfree : slab.free with
  | nil => constructor <;> simp [insert, hfree]
  | cons k free =>
      have hnodup := h.nodup
      rw [hfree, List.nodup_cons] at hnodup
      refine ⟨?_, ?_, ?_⟩
      · intro key hkey
        have hlt := h.lt key (by simp_all [insert])
        simpa [insert, hfree] using hlt
      · intro key hkey
        have hmem : key ∈ free := by simpa [insert, hfree] using hkey
        have hne : key ≠ slab.vacantKey := by
          rintro rfl
          simp [vacantKey, hfree, hnodup.1] at hmem
        rw [hget key, if_neg hne]
        exact h.vacant key (by simp [hfree, hmem])
      · simpa [insert, hfree] using hnodup.2

@[simp] theorem tryRemove_fst (slab : Slab T) (key : Nat) : (slab.tryRemove key).1 = slab.get key := by
  unfold tryRemove
  split <;> simp_all

theorem get_tryRemove (slab : Slab T) (key key' : Nat) :
    (slab.tryRemove key).2.get key' = if key' = key then none else slab.get key' := by
  cases hkey : slab.get key with
  | none =>
      simp only [tryRemove, hkey]
      split
      · next h => rw [h, hkey]
      · rfl
  | some value =>
      simp only [tryRemove, hkey]
      rw [get_set _ _ _ _ _ (lt_of_get hkey)]
      rfl

theorem tryRemove_wellFormed (h : slab.WellFormed) (key : Nat) :
    (slab.tryRemove key).2.WellFormed := by
  have hget := get_tryRemove slab key
  cases hkey : slab.get key with
  | none =>
      simp only [tryRemove, hkey]
      exact h
  | some value =>
      simp only [tryRemove, hkey] at hget ⊢
      have hfresh : key ∉ slab.free := by
        intro hmem
        rw [h.vacant key hmem] at hkey
        cases hkey
      refine ⟨?_, ?_, ?_⟩
      · intro key' hkey'
        rw [List.length_set]
        rcases List.mem_cons.mp hkey' with rfl | hmem
        · exact lt_of_get hkey
        · exact h.lt key' hmem
      · intro key' hkey'
        rw [hget key']
        split
        · rfl
        · next hne =>
            rcases List.mem_cons.mp hkey' with rfl | hmem
            · exact absurd rfl hne
            · exact h.vacant key' hmem
      · exact List.nodup_cons.mpr ⟨hfresh, h.nodup⟩

end Slab
