import Mathlib.Data.List.Induction
import Mathlib.Logic.Relation

/-!
# Runs of an event-driven machine

A machine is a step function that takes an event, moves to a new state and emits a list of outputs.
A run folds the step over a list of events and concatenates the outputs.  The rules of this file
turn a step lemma into a statement about every run.
-/

namespace Run

variable {State Event Output : Type*}

/-- The state and the outputs after a list of events. -/
def run (step : State → Event → State × List Output) (s : State) :
    List Event → State × List Output
  | [] => (s, [])
  | e :: es =>
      let next := step s e
      let rest := run step next.1 es
      (rest.1, next.2 ++ rest.2)

variable {step : State → Event → State × List Output}

@[simp] theorem run_nil (s : State) : run step s [] = (s, []) := rfl

theorem run_append (s : State) (es fs : List Event) :
    run step s (es ++ fs) =
      ((run step (run step s es).1 fs).1, (run step s es).2 ++ (run step (run step s es).1 fs).2) := by
  induction es generalizing s with
  | nil => simp [run]
  | cons e es ih => simp [run, ih]

theorem run_snoc (s : State) (es : List Event) (e : Event) :
    run step s (es ++ [e]) =
      ((step (run step s es).1 e).1, (run step s es).2 ++ (step (run step s es).1 e).2) := by
  rw [run_append]
  simp [run]

/-- A relation between the events so far, the state and the outputs so far that one admissible
event preserves holds at the end of every run of admissible events. -/
theorem run_invariant (admissible : Event → Prop) (P : List Event → State → List Output → Prop)
    (preserved : ∀ es s os e, P es s os → admissible e →
      P (es ++ [e]) (step s e).1 (os ++ (step s e).2))
    {s : State} (start : P [] s []) (es : List Event) (hes : ∀ e ∈ es, admissible e) :
    P es (run step s es).1 (run step s es).2 := by
  induction es using List.reverseRecOn with
  | nil => exact start
  | append_singleton es e ih =>
      have hprev := ih fun e' he' => hes e' (by simp [he'])
      rw [run_snoc]
      exact preserved es _ _ e hprev (hes e (by simp))

/-- Every event of the list meets `P` in the state in which the run takes it. -/
def Along (step : State → Event → State × List Output) (P : State → Event → Prop) (s : State) :
    List Event → Prop
  | [] => True
  | e :: es => P s e ∧ Along step P (step s e).1 es

instance decidableAlong (P : State → Event → Prop) [∀ s e, Decidable (P s e)] (s : State) :
    (es : List Event) → Decidable (Along step P s es)
  | [] => .isTrue trivial
  | e :: es =>
      have := decidableAlong P (step s e).1 es
      inferInstanceAs (Decidable (P s e ∧ Along step P (step s e).1 es))

theorem along_append {P : State → Event → Prop} {s : State} {es fs : List Event} :
    Along step P s (es ++ fs) ↔ Along step P s es ∧ Along step P (run step s es).1 fs := by
  induction es generalizing s with
  | nil => simp [Along, run]
  | cons e es ih => simp [Along, run, ih, and_assoc]

theorem along_congr {P Q : State → Event → Prop} (h : ∀ s e, P s e ↔ Q s e) {s : State}
    {es : List Event} : Along step P s es ↔ Along step Q s es := by
  induction es generalizing s with
  | nil => exact Iff.rfl
  | cons e es ih => exact and_congr (h s e) ih

theorem along_and {P Q : State → Event → Prop} {s : State} {es : List Event} :
    Along step (fun s e => P s e ∧ Q s e) s es ↔ Along step P s es ∧ Along step Q s es := by
  induction es generalizing s with
  | nil => simp [Along]
  | cons e es ih =>
      simp only [Along, ih]
      exact and_and_and_comm

/-- Along a run that keeps an invariant one property of the events may be traded for another. -/
theorem Along.imp {P Q : State → Event → Prop} {I : State → Prop}
    (preserved : ∀ s e, I s → I (step s e).1) (h : ∀ s e, I s → P s e → Q s e) {s : State}
    (start : I s) {es : List Event} (hes : Along step P s es) : Along step Q s es := by
  induction es generalizing s with
  | nil => trivial
  | cons e es ih => exact ⟨h s e start hes.1, ih (preserved s e start) hes.2⟩

theorem along_true (s : State) (es : List Event) : Along step (fun _ _ => True) s es := by
  induction es generalizing s with
  | nil => trivial
  | cons e es ih => exact ⟨trivial, ih _⟩

/-- Every output of a run has a property exactly when those of each event have it. -/
theorem forall_output_iff_along {Q : Output → Prop} {s : State} {es : List Event} :
    (∀ o ∈ (run step s es).2, Q o) ↔ Along step (fun s e => ∀ o ∈ (step s e).2, Q o) s es := by
  induction es generalizing s with
  | nil => simp [Along]
  | cons e es ih =>
      simp only [run, List.forall_mem_append, Along]
      exact and_congr Iff.rfl ih

/-- A property that every event meeting `P` preserves holds at the end of a run of such events. -/
theorem invariant_of_along {P : State → Event → Prop} {I : State → Prop}
    (preserved : ∀ s e, I s → P s e → I (step s e).1) {s : State} (start : I s) {es : List Event}
    (hes : Along step P s es) : I (run step s es).1 := by
  induction es generalizing s with
  | nil => exact start
  | cons e es ih => exact ih (preserved s e start hes.1) hes.2

/-- `e` was taken after `before`, and no event since then met `P`. -/
def Since (step : State → Event → State × List Output) (P : State → Event → Prop) (s : State)
    (es before : List Event) (e : Event) : Prop :=
  ∃ later, es = before ++ e :: later ∧
    Along step (fun s e => ¬P s e) (run step s (before ++ [e])).1 later

theorem since_snoc (P : State → Event → Prop) (s : State) (before : List Event) (e : Event) :
    Since step P s (before ++ [e]) before e :=
  ⟨[], rfl, trivial⟩

/-- An event that does not meet `P` may follow. -/
theorem Since.snoc {P : State → Event → Prop} {s : State} {es before : List Event} {e e' : Event}
    (h : Since step P s es before e) (he' : ¬P (run step s es).1 e') :
    Since step P s (es ++ [e']) before e := by
  obtain ⟨later, rfl, hlater⟩ := h
  have hassoc : before ++ e :: later = (before ++ [e]) ++ later := by simp
  rw [hassoc, run_append] at he'
  refine ⟨later ++ [e'], by simp, ?_⟩
  exact along_append.mpr ⟨hlater, he', trivial⟩

/-- Only the last of the outputs may be a closing one, and then `closed` holds. -/
def EndsAt (closing : Output → Prop) (closed : Prop) (outputs : List Output) : Prop :=
  (∀ o ∈ outputs, ¬closing o) ∨
    ∃ before o, outputs = before ++ [o] ∧ (∀ o' ∈ before, ¬closing o') ∧ closed

section EndsAt

variable {closing : Output → Prop} {closed : Prop} {outputs outputs' : List Output}

theorem endsAt_singleton (o : Output) (h : closed) : EndsAt closing closed [o] :=
  .inr ⟨[], o, rfl, by simp, h⟩

theorem EndsAt.imp {closed' : Prop} (h : EndsAt closing closed outputs) (hclosed : closed → closed') :
    EndsAt closing closed' outputs := by
  rcases h with h | ⟨before, o, hsplit, h, hc⟩
  · exact .inl h
  · exact .inr ⟨before, o, hsplit, h, hclosed hc⟩

theorem EndsAt.append (h : ∀ o ∈ outputs, ¬closing o) (h' : EndsAt closing closed outputs') :
    EndsAt closing closed (outputs ++ outputs') := by
  rcases h' with h' | ⟨before, o, rfl, h', hclosed⟩
  · refine .inl fun o ho => ?_
    rcases List.mem_append.mp ho with ho | ho
    · exact h o ho
    · exact h' o ho
  · refine .inr ⟨outputs ++ before, o, (List.append_assoc ..).symm, fun o' ho' => ?_, hclosed⟩
    rcases List.mem_append.mp ho' with ho' | ho'
    · exact h o' ho'
    · exact h' o' ho'

/-- Nothing follows a closing output. -/
theorem EndsAt.eq_nil (h : EndsAt closing closed outputs) {before after : List Output} {o : Output}
    (hsplit : outputs = before ++ o :: after) (ho : closing o) : after = [] := by
  rcases h with h | ⟨before', o', hsplit', h, -⟩
  · exact absurd ho (h o (by simp [hsplit]))
  · by_contra hafter
    -- the last output is that of `after`, so `o` is one of the others
    have hmem : o ∈ outputs.dropLast := by
      rw [hsplit, List.dropLast_append_of_ne_nil (by simp), List.dropLast_cons_of_ne_nil hafter]
      simp
    rw [hsplit', List.dropLast_concat] at hmem
    exact h o hmem ho

/-- In a run whose closed states are silent and whose closing outputs lead to closed states, nothing
follows a closing output; `I` is an invariant of the run. -/
theorem run_endsAt {P : State → Event → Prop} {Closed I : State → Prop}
    (preserved : ∀ s e, I s → P s e → I (step s e).1)
    (silent : ∀ s e, I s → P s e → Closed s → (step s e).2 = [] ∧ Closed (step s e).1)
    (ends : ∀ s e, I s → P s e → EndsAt closing (Closed (step s e).1) (step s e).2)
    {s : State} (start : I s) {es : List Event} (hes : Along step P s es) :
    EndsAt closing (Closed (run step s es).1) (run step s es).2 := by
  have hsilent : ∀ (es : List Event) (s : State), I s → Along step P s es → Closed s →
      (run step s es).2 = [] ∧ Closed (run step s es).1 := by
    intro es
    induction es with
    | nil => exact fun s _ _ hs => ⟨rfl, hs⟩
    | cons e es ih =>
        intro s hi hes hs
        obtain ⟨hfirst, hnext⟩ := silent s e hi hes.1 hs
        obtain ⟨hrest, hlast⟩ := ih _ (preserved s e hi hes.1) hes.2 hnext
        exact ⟨by simp [run, hfirst, hrest], hlast⟩
  induction es generalizing s with
  | nil => exact .inl (by simp)
  | cons e es ih =>
      have hnext := preserved s e start hes.1
      rcases ends s e start hes.1 with hnone | ⟨before, o, hfirst, hbefore, hclosed⟩
      · exact (ih hnext hes.2).append hnone
      · obtain ⟨hrest, hlast⟩ := hsilent es _ hnext hes.2 hclosed
        refine .inr ⟨before, o, ?_, hbefore, hlast⟩
        simp only [run, hfirst, hrest, List.append_nil]

end EndsAt

/-- A property that a step relation preserves holds in every state reachable from one that has it. -/
theorem invariant_of_reflTransGen {r : State → State → Prop} {P : State → Prop} {s t : State}
    (preserved : ∀ s t, r s t → P s → P t) (start : P s) (h : Relation.ReflTransGen r s t) : P t := by
  induction h with
  | refl => exact start
  | tail _ hstep ih => exact preserved _ _ hstep ih

end Run
