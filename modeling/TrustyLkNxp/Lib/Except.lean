import Mathlib.Tactic

/-!
# Computations that stop with a reason

Inversion of `Except` computations: a sequence succeeds when its first part does and the
rest does on what the first part returned, and it stops when one of the two stops.
-/

namespace Except

universe u

variable {χ : Type*} {α β : Type u}

@[simp] lemma bind_ok (a : α) (f : α → Except χ β) : (Except.ok a >>= f) = f a := rfl

@[simp] lemma bind_error (e : χ) (f : α → Except χ β) :
    ((Except.error e : Except χ α) >>= f) = .error e := rfl

@[simp] lemma pure_eq_ok (a : α) : (pure a : Except χ α) = .ok a := rfl

@[simp] lemma throw_eq_error (e : χ) : (throw e : Except χ α) = .error e := rfl

lemma bind_eq_ok {x : Except χ α} {f : α → Except χ β} {b : β} :
    (x >>= f) = .ok b ↔ ∃ a, x = .ok a ∧ f a = .ok b := by
  cases x with
  | error e => simp [bind, Except.bind]
  | ok a => simp [bind, Except.bind]

lemma bind_eq_error {x : Except χ α} {f : α → Except χ β} {e : χ} :
    (x >>= f) = .error e ↔ x = .error e ∨ ∃ a, x = .ok a ∧ f a = .error e := by
  cases x with
  | error e' => simp [bind, Except.bind]
  | ok a => simp [bind, Except.bind]

end Except
