import Mathlib.Logic.Basic

/-!
# Programs that run alike

Relational rules for two programs that fail or return in states of different types: started in related
states, they return the same value in states that are related again, or both fail.
-/

namespace Fe2o3Amqp

variable {ε σ τ α β : Type}

/-- Two outcomes with the same value, or two failures. -/
inductive Outcomes (Q : α → σ → τ → Prop) : EStateM.Result ε σ α → EStateM.Result ε τ α → Prop
  | ok {a : α} {s : σ} {t : τ} (h : Q a s t) : Outcomes Q (.ok a s) (.ok a t)
  | error {e e' : ε} {s : σ} {t : τ} : Outcomes Q (.error e s) (.error e' t)

theorem Outcomes.mono {Q Q' : α → σ → τ → Prop} (hle : ∀ a s t, Q a s t → Q' a s t)
    {x : EStateM.Result ε σ α} {y : EStateM.Result ε τ α} (h : Outcomes Q x y) : Outcomes Q' x y := by
  cases h with
  | ok h => exact .ok (hle _ _ _ h)
  | error => exact .error

/-- `p` and `q` run alike from states related by `P`, and end in states related by `Q`. -/
def RunsAlike (P : σ → τ → Prop) (p : EStateM ε σ α) (q : EStateM ε τ α) (Q : α → σ → τ → Prop) :
    Prop :=
  ∀ s t, P s t → Outcomes Q (p s) (q t)

namespace RunsAlike

variable {P P' : σ → τ → Prop} {Q Q' : α → σ → τ → Prop} {S : β → σ → τ → Prop}
  {p : EStateM ε σ α} {q : EStateM ε τ α}

theorem mono (h : RunsAlike P' p q Q') (hpre : ∀ s t, P s t → P' s t)
    (hpost : ∀ a s t, Q' a s t → Q a s t) : RunsAlike P p q Q :=
  fun s t hP => (h s t (hpre s t hP)).mono hpost

theorem pure (a : α) (h : ∀ s t, P s t → Q a s t) :
    RunsAlike P (Pure.pure a : EStateM ε σ α) (Pure.pure a : EStateM ε τ α) Q :=
  fun s t hP => .ok (h s t hP)

theorem throw (e e' : ε) :
    RunsAlike P (MonadExcept.throw e : EStateM ε σ α) (MonadExcept.throw e' : EStateM ε τ α) Q :=
  fun _ _ _ => .error

theorem bind {f : α → EStateM ε σ β} {g : α → EStateM ε τ β} (h : RunsAlike P p q Q)
    (hrest : ∀ a, RunsAlike (Q a) (f a) (g a) S) : RunsAlike P (p >>= f) (q >>= g) S := by
  intro s t hP
  have hfirst := h s t hP
  change Outcomes S (EStateM.bind p f s) (EStateM.bind q g t)
  simp only [EStateM.bind]
  generalize p s = x, q t = y at hfirst
  cases hfirst with
  | ok hQ => exact hrest _ _ _ hQ
  | error => exact .error

/-- A program that reads its state first. -/
theorem get {f : σ → EStateM ε σ α} {g : τ → EStateM ε τ α}
    (h : ∀ s t, P s t → RunsAlike (fun s' t' => s' = s ∧ t' = t) (f s) (g t) Q) :
    RunsAlike P (MonadState.get >>= f) (MonadState.get >>= g) Q :=
  fun s t hP => h s t hP s t ⟨rfl, rfl⟩

theorem modify {f : σ → σ} {g : τ → τ} {Q : Unit → σ → τ → Prop}
    (h : ∀ s t, P s t → Q () (f s) (g t)) :
    RunsAlike P (modifyThe σ f : EStateM ε σ Unit) (modifyThe τ g : EStateM ε τ Unit) Q :=
  fun s t hP => .ok (h s t hP)

/-- What is shown for every pair of start states. -/
theorem of_forall (h : ∀ s t, P s t → RunsAlike (fun s' t' => s' = s ∧ t' = t) p q Q) :
    RunsAlike P p q Q :=
  fun s t hP => h s t hP s t ⟨rfl, rfl⟩

end RunsAlike

end Fe2o3Amqp
