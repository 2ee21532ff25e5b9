import Mathlib.Data.List.Induction

/-!
# Segments of a list

A list is cut behind every element that ends a segment.  What comes after the last such element is
the segment that is still open.
-/

/-- The closed segments of a list and the one that is open. -/
structure Segments (α : Type*) where
  closed : List (List α)
  opened : List α
deriving DecidableEq

namespace Segments

variable {α β : Type*} (ends : α → Bool)

def empty : Segments α := ⟨[], []⟩

def feed (s : Segments α) (a : α) : Segments α :=
  if ends a then ⟨s.closed ++ [s.opened ++ [a]], []⟩ else ⟨s.closed, s.opened ++ [a]⟩

def of (as : List α) : Segments α := as.foldl (feed ends) empty

/-- The closed segments and then the open one, if it has elements. -/
def toList (s : Segments α) : List (List α) := s.closed ++ (if s.opened = [] then [] else [s.opened])

variable {ends}

@[simp] theorem of_nil : of ends ([] : List α) = empty := rfl

theorem of_snoc (as : List α) (a : α) : of ends (as ++ [a]) = (of ends as).feed ends a := by
  simp [of]

/-- One segment: its last element, and no other, ends it. -/
def IsClosed (ends : α → Bool) (segment : List α) : Prop :=
  ∃ front last, segment = front ++ [last] ∧ (∀ a ∈ front, ends a = false) ∧ ends last = true

theorem opened_of (as : List α) : ∀ a ∈ (of ends as).opened, ends a = false := by
  induction as using List.reverseRecOn with
  | nil => simp [empty]
  | append_singleton as a ih =>
      rw [of_snoc, feed]
      split_ifs with ha
      · simp
      · intro b hb
        rcases List.mem_append.mp hb with hb | hb
        · exact ih b hb
        · rw [List.mem_singleton.mp hb]
          simpa using ha

theorem closed_of (as : List α) : ∀ segment ∈ (of ends as).closed, IsClosed ends segment := by
  induction as using List.reverseRecOn with
  | nil => simp [empty]
  | append_singleton as a ih =>
      rw [of_snoc, feed]
      split_ifs with ha
      · intro segment hsegment
        rcases List.mem_append.mp hsegment with hsegment | hsegment
        · exact ih segment hsegment
        · rw [List.mem_singleton.mp hsegment]
          exact ⟨_, a, rfl, opened_of as, ha⟩
      · exact ih

/-- Elements that end nothing stay in the open segment. -/
theorem foldl_feed_open (s : Segments α) {as : List α} (h : ∀ a ∈ as, ends a = false) :
    as.foldl (feed ends) s = ⟨s.closed, s.opened ++ as⟩ := by
  induction as generalizing s with
  | nil => simp
  | cons a as ih =>
      have ha : ends a = false := h a List.mem_cons_self
      rw [List.foldl_cons, ih _ fun b hb => h b (List.mem_cons_of_mem a hb)]
      simp [feed, ha]

theorem foldl_feed_closed (s : Segments α) {segment : List α} (hopened : s.opened = [])
    (h : IsClosed ends segment) : segment.foldl (feed ends) s = ⟨s.closed ++ [segment], []⟩ := by
  obtain ⟨front, last, rfl, hfront, hlast⟩ := h
  rw [List.foldl_append, foldl_feed_open s hfront]
  simp [feed, hlast, hopened]

/-- A list that is put together from segments is cut into them again. -/
theorem of_flatten {segments : List (List α)} {tail : List α}
    (hclosed : ∀ segment ∈ segments, IsClosed ends segment) (htail : ∀ a ∈ tail, ends a = false) :
    of ends (segments.flatten ++ tail) = ⟨segments, tail⟩ := by
  have hflatten : of ends segments.flatten = ⟨segments, []⟩ := by
    induction segments using List.reverseRecOn with
    | nil => rfl
    | append_singleton segments segment ih =>
        have hbefore := ih fun segment' hmem => hclosed segment' (by simp [hmem])
        rw [of] at hbefore ⊢
        rw [List.flatten_append, List.flatten_singleton, List.foldl_append, hbefore]
        exact foldl_feed_closed _ rfl (hclosed segment (by simp))
  rw [of] at hflatten ⊢
  rw [List.foldl_append, hflatten]
  exact foldl_feed_open _ htail

/-- The segments of the images of the elements are the images of the segments. -/
theorem of_map {f : α → β} {ends' : β → Bool} (hends : ∀ a, ends' (f a) = ends a) (as : List α) :
    of ends' (as.map f) = ⟨(of ends as).closed.map (List.map f), (of ends as).opened.map f⟩ := by
  induction as using List.reverseRecOn with
  | nil => rfl
  | append_singleton as a ih =>
      rw [List.map_append, List.map_singleton, of_snoc, of_snoc, ih, feed, feed, hends]
      split_ifs <;> simp

end Segments
