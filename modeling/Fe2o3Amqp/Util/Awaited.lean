import Mathlib.Data.Set.Basic

/-!
# Outcomes that are awaited

A board says on which channel the outcome of a key is awaited and what each channel has been told.  A
decision gives one outcome to many keys at once.  Of several decisions about a key the first one
counts, since nobody awaits a second outcome.
-/

namespace Awaited

variable {Key Channel Outcome : Type*}

@[ext]
structure Board (Key Channel Outcome : Type*) where
  awaiting : Key → Option Channel
  outcomes : Channel → Option Outcome

namespace Board

/-- No two keys await their outcome on one channel. -/
def Distinct (b : Board Key Channel Outcome) : Prop :=
  ∀ k k' c, b.awaiting k = some c → b.awaiting k' = some c → k = k'

/-- Every key that is covered gets the outcome. -/
noncomputable def decide (b : Board Key Channel Outcome) (covers : Key → Bool) (outcome : Outcome) :
    Board Key Channel Outcome where
  awaiting k := if covers k then none else b.awaiting k
  outcomes c :=
    open Classical in if ∃ k, covers k = true ∧ b.awaiting k = some c then some outcome else b.outcomes c

variable {b : Board Key Channel Outcome} {covers covers' : Key → Bool} {outcome : Outcome}

@[simp] theorem awaiting_decide (k : Key) :
    (b.decide covers outcome).awaiting k = if covers k then none else b.awaiting k := rfl

theorem outcomes_decide_of_covers (covers : Key → Bool) {k : Key} {c : Channel}
    (hk : covers k = true) (hc : b.awaiting k = some c) :
    (b.decide covers outcome).outcomes c = some outcome :=
  if_pos ⟨k, hk, hc⟩

theorem outcomes_decide_of_forall_ne {c : Channel}
    (h : ∀ k, covers k = true → b.awaiting k ≠ some c) :
    (b.decide covers outcome).outcomes c = b.outcomes c := by
  apply if_neg
  rintro ⟨k, hk, hc⟩
  exact h k hk hc

/-- A key that is not awaited need not be decided. -/
theorem decide_eq_self (h : ∀ k, covers k = true → b.awaiting k = none) :
    b.decide covers outcome = b := by
  ext1
  · funext k
    rw [awaiting_decide]
    split
    · next hk => exact (h k hk).symm
    · rfl
  · funext c
    apply outcomes_decide_of_forall_ne
    intro k hk
    rw [h k hk]
    exact Option.some_ne_none c |>.symm

theorem decide_decide (b : Board Key Channel Outcome) (covers covers' : Key → Bool)
    (outcome : Outcome) :
    (b.decide covers outcome).decide covers' outcome =
      b.decide (fun k => covers k || covers' k) outcome := by
  ext1
  · funext k
    cases hk : covers k <;> cases hk' : covers' k <;> simp [hk, hk']
  · funext c
    by_cases hboth : ∃ k, (covers k || covers' k) = true ∧ b.awaiting k = some c
    · obtain ⟨k, hk, hc⟩ := hboth
      rw [outcomes_decide_of_covers (fun k => covers k || covers' k) hk hc]
      by_cases hlater : ∃ k, covers' k = true ∧ (b.decide covers outcome).awaiting k = some c
      · obtain ⟨k', hk', hc'⟩ := hlater
        exact outcomes_decide_of_covers _ hk' hc'
      · -- the key is covered by the first decision
        have hfirst : covers k = true := by
          cases hcovers : covers k with
          | true => rfl
          | false => exact absurd ⟨k, by simpa [hcovers] using hk, by simp [hcovers, hc]⟩ hlater
        rw [outcomes_decide_of_forall_ne fun k' hk' hc' => hlater ⟨k', hk', hc'⟩]
        exact outcomes_decide_of_covers _ hfirst hc
    · have hnot : ∀ k, (covers k || covers' k) = true → b.awaiting k ≠ some c :=
        fun k hk hc => hboth ⟨k, hk, hc⟩
      rw [outcomes_decide_of_forall_ne hnot, outcomes_decide_of_forall_ne,
        outcomes_decide_of_forall_ne fun k hk => hnot k (by simp [hk])]
      intro k hk hc
      rw [awaiting_decide] at hc
      split at hc
      · cases hc
      · exact hnot k (by simp [hk]) hc

theorem Distinct.decide (h : b.Distinct) : (b.decide covers outcome).Distinct := by
  intro k k' c hk hk'
  rw [awaiting_decide] at hk hk'
  split at hk
  · cases hk
  · split at hk'
    · cases hk'
    · exact h k k' c hk hk'

/-- The decisions are taken one after the other. -/
noncomputable def decideAll {Decision : Type*} (covers : Decision → Key → Bool)
    (outcome : Decision → Outcome) (b : Board Key Channel Outcome) (decisions : List Decision) :
    Board Key Channel Outcome :=
  decisions.foldl (fun b decision => b.decide (covers decision) (outcome decision)) b

section Decisions

variable {Decision : Type*} {covers : Decision → Key → Bool} (outcome : Decision → Outcome)

/-- A channel on which nothing is awaited is told nothing. -/
theorem decideAll_unawaited {c : Channel} (h : ∀ k, b.awaiting k ≠ some c)
    (decisions : List Decision) :
    (b.decideAll covers outcome decisions).outcomes c = b.outcomes c := by
  induction decisions generalizing b with
  | nil => rfl
  | cons decision decisions ih =>
      refine (ih fun k hk => ?_).trans (outcomes_decide_of_forall_ne fun k _ => h k)
      rw [awaiting_decide] at hk
      split at hk
      · cases hk
      · exact h k hk

/-- What is not awaited stays so. -/
theorem awaiting_decideAll {k : Key} (h : b.awaiting k = none) (decisions : List Decision) :
    (b.decideAll covers outcome decisions).awaiting k = none := by
  induction decisions generalizing b with
  | nil => exact h
  | cons decision decisions ih => exact ih (by simp [h])

/-- The first decision about a key is its outcome. -/
theorem decideAll_first (h : b.Distinct) {k : Key} {c : Channel} (hk : b.awaiting k = some c)
    {decisions : List Decision} {decision : Decision}
    (hfirst : decisions.find? (covers · k) = some decision) :
    (b.decideAll covers outcome decisions).outcomes c = some (outcome decision) ∧
      (b.decideAll covers outcome decisions).awaiting k = none := by
  induction decisions generalizing b with
  | nil => cases hfirst
  | cons head decisions ih =>
      rw [List.find?_cons] at hfirst
      cases hcovers : covers head k with
      | false =>
          rw [hcovers] at hfirst
          have hnext : (b.decide (covers head) (outcome head)).awaiting k = some c := by
            simp [hcovers, hk]
          exact ih h.decide hnext hfirst
      | true =>
          rw [hcovers] at hfirst
          cases hfirst
          -- nobody awaits anything on the channel after that
          have hdecided : ∀ k', (b.decide (covers decision) (outcome decision)).awaiting k' ≠ some c := by
            intro k' hk'
            rw [awaiting_decide] at hk'
            split at hk'
            · cases hk'
            · next hnot => exact hnot (h k' k c hk' hk ▸ hcovers)
          exact ⟨(decideAll_unawaited outcome hdecided decisions).trans (outcomes_decide_of_covers _ hcovers hk),
            awaiting_decideAll outcome (by simp [hcovers]) decisions⟩

theorem decideAll_none (h : b.Distinct) {k : Key} {c : Channel} (hk : b.awaiting k = some c)
    {decisions : List Decision} (hnone : decisions.find? (covers · k) = none) :
    (b.decideAll covers outcome decisions).outcomes c = b.outcomes c ∧
      (b.decideAll covers outcome decisions).awaiting k = some c := by
  induction decisions generalizing b with
  | nil => exact ⟨rfl, hk⟩
  | cons head decisions ih =>
      rw [List.find?_cons] at hnone
      cases hcovers : covers head k with
      | true => simp [hcovers] at hnone
      | false =>
          rw [hcovers] at hnone
          have hnext : (b.decide (covers head) (outcome head)).awaiting k = some c := by
            simp [hcovers, hk]
          obtain ⟨houtcome, hawaiting⟩ := ih h.decide hnext hnone
          refine ⟨houtcome.trans (outcomes_decide_of_forall_ne fun k' hk' hc => ?_), hawaiting⟩
          rw [h k' k c hc hk, hcovers] at hk'
          cases hk'

end Decisions

end Board

end Awaited
