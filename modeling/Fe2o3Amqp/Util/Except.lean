import Mathlib.Init

/-!
# Inversion of computations that may fail
-/

namespace Except

variable {ε α β : Type}

/-- A sequence of two computations succeeds when both do. -/
theorem bind_eq_ok {x : Except ε α} {f : α → Except ε β} {b : β} :
    x >>= f = .ok b ↔ ∃ a, x = .ok a ∧ f a = .ok b := by
  constructor
  · intro h
    cases x with
    | error e => cases h
    | ok a => exact ⟨a, rfl, h⟩
  · rintro ⟨a, rfl, h⟩
    exact h

theorem ok_bind (a : α) (f : α → Except ε β) : (.ok a : Except ε α) >>= f = f a := rfl

theorem error_bind (e : ε) (f : α → Except ε β) : (.error e : Except ε α) >>= f = .error e := rfl

theorem pure_eq_ok {a b : α} : (pure a : Except ε α) = .ok b ↔ a = b := by
  simp [pure, Except.pure]

theorem toOption_bind (x : Except ε α) (f : α → Except ε β) :
    (x >>= f).toOption = x.toOption.bind fun a => (f a).toOption := by
  cases x <;> rfl

theorem toOption_eq_some {x : Except ε α} {a : α} : x.toOption = some a ↔ x = .ok a := by
  cases x <;> simp [Except.toOption]

/-! ## Computations that succeed alike -/

/-- Both computations succeed, with related results, or both fail. -/
inductive Alike {δ : Type} (R : α → β → Prop) : Except ε α → Except δ β → Prop
  | ok {a : α} {b : β} (h : R a b) : Alike R (.ok a) (.ok b)
  | error (e : ε) (e' : δ) : Alike R (.error e) (.error e')

namespace Alike

variable {δ α' β' : Type} {R : α → β → Prop} {S : α' → β' → Prop}

theorem mono {Q : α → β → Prop} (hle : ∀ a b, R a b → Q a b) {x : Except ε α} {y : Except δ β}
    (h : Alike R x y) : Alike Q x y := by
  cases h with
  | ok h => exact .ok (hle _ _ h)
  | error e e' => exact .error e e'

theorem bind {x : Except ε α} {y : Except δ β} {f : α → Except ε α'} {g : β → Except δ β'}
    (h : Alike R x y) (hrest : ∀ a b, R a b → Alike S (f a) (g b)) : Alike S (x >>= f) (y >>= g) := by
  cases h with
  | ok h => exact hrest _ _ h
  | error e e' => exact .error e e'

theorem pure {a : α} {b : β} (h : R a b) :
    Alike R (Pure.pure a : Except ε α) (Pure.pure b : Except δ β) := .ok h

end Alike

end Except
