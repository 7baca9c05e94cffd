import Mathlib.Tactic

/-!
# Programs that may stop

A program works on a state.  It returns a value, or it stops with a reason; either way the
state it leaves behind can be looked at.  Facts about a program are relations between the
state it starts in and the state it leaves behind; a relation that is reflexive and
transitive holds of a program when it holds of its parts.
-/

/-- A program on states `σ` that may stop for a reason in `χ`. -/
def Prog (χ σ α : Type) : Type := σ → Except χ α × σ

namespace Prog

variable {χ σ α β : Type}

instance : Monad (Prog χ σ) where
  pure a := fun s => (.ok a, s)
  bind x f := fun s =>
    match x s with
    | (.ok a, t) => f a t
    | (.error e, t) => (.error e, t)

/-- The current state. -/
def get : Prog χ σ σ := fun s => (.ok s, s)

/-- Change the state. -/
def modify (f : σ → σ) : Prog χ σ Unit := fun s => (.ok (), f s)

/-- Stop. -/
def stop (e : χ) : Prog χ σ α := fun s => (.error e, s)

/-- Go on only when `c` holds. -/
def check (c : Prop) [Decidable c] (e : χ) : Prog χ σ Unit := if c then pure () else stop e

variable {x : Prog χ σ α} {f : α → Prog χ σ β} {s t u : σ} {a : α} {b : β} {e : χ}

@[simp] lemma pure_apply (a : α) (s : σ) : (pure a : Prog χ σ α) s = (.ok a, s) := rfl

@[simp] lemma get_apply (s : σ) : (get : Prog χ σ σ) s = (.ok s, s) := rfl

@[simp] lemma modify_apply (g : σ → σ) (s : σ) : (modify g : Prog χ σ Unit) s = (.ok (), g s) := rfl

@[simp] lemma stop_apply (e : χ) (s : σ) : (stop e : Prog χ σ α) s = (.error e, s) := rfl

lemma bind_apply (x : Prog χ σ α) (f : α → Prog χ σ β) (s : σ) :
    (x >>= f) s = match x s with
      | (.ok a, t) => f a t
      | (.error e, t) => (.error e, t) := rfl

lemma bind_of_ok (h : x s = (.ok a, t)) : (x >>= f) s = f a t := by rw [bind_apply, h]

lemma bind_of_error (h : x s = (.error e, t)) : (x >>= f) s = (.error e, t) := by
  rw [bind_apply, h]

lemma check_bind_of_pos {c : Prop} [Decidable c] {f : Unit → Prog χ σ β} (h : c) :
    (check c e >>= f) s = f () s := by
  rw [check, if_pos h]
  rfl

lemma check_bind_of_neg {c : Prop} [Decidable c] {f : Unit → Prog χ σ β} (h : ¬ c) :
    (check c e >>= f) s = (.error e, s) := by
  rw [check, if_neg h]
  rfl

/-- What returns behind a check has passed it. -/
lemma check_bind_eq_ok {c : Prop} [Decidable c] {x : Prog χ σ β}
    (h : (check c e >>= fun _ => x) s = (.ok b, t)) : c ∧ x s = (.ok b, t) := by
  by_cases hc : c
  · rw [check_bind_of_pos hc] at h
    exact ⟨hc, h⟩
  · rw [check_bind_of_neg hc] at h
    exact absurd h (by simp)

/-- A sequence returns when its parts do. -/
lemma bind_eq_ok : (x >>= f) s = (.ok b, u) ↔ ∃ a t, x s = (.ok a, t) ∧ f a t = (.ok b, u) := by
  rw [bind_apply]
  rcases hx : x s with ⟨_ | a, t⟩
  · simp
  · constructor
    · intro h
      exact ⟨a, t, rfl, h⟩
    · rintro ⟨a', t', heq, h⟩
      obtain ⟨rfl, rfl⟩ : a = a' ∧ t = t' := by simpa using heq
      exact h

/-- A sequence stops where one of its parts does. -/
lemma bind_eq_error : (x >>= f) s = (.error e, u) ↔
    x s = (.error e, u) ∨ ∃ a t, x s = (.ok a, t) ∧ f a t = (.error e, u) := by
  rw [bind_apply]
  rcases hx : x s with ⟨_ | a, t⟩
  · simp
  · constructor
    · intro h
      exact Or.inr ⟨a, t, rfl, h⟩
    · rintro (h | ⟨a', t', heq, h⟩)
      · exact absurd h (by simp)
      · obtain ⟨rfl, rfl⟩ : a = a' ∧ t = t' := by simpa using heq
        exact h

lemma check_eq_error {c : Prop} [Decidable c] {e' : χ}
    (h : (check c e : Prog χ σ Unit) s = (.error e', t)) : ¬ c ∧ e' = e := by
  rw [check] at h
  split at h
  · exact absurd h (by simp)
  · rename_i hc
    exact ⟨hc, (Except.error.inj (congrArg Prod.fst h)).symm⟩

/-- The state a program leaves behind is related to the one it starts in. -/
def Relates (R : σ → σ → Prop) (x : Prog χ σ α) : Prop := ∀ s, R s (x s).2

/-- A check that fails leaves the state as it is; behind it its condition holds. -/
lemma relates_check {R : σ → σ → Prop} [Std.Refl R] {c : Prop} [Decidable c] {e : χ}
    {x : Prog χ σ β} (hx : c → R s (x s).2) : R s ((check c e >>= fun _ => x) s).2 := by
  by_cases hc : c
  · rw [check_bind_of_pos hc]
    exact hx hc
  · rw [check_bind_of_neg hc]
    exact Std.Refl.refl s

namespace Relates

variable {R : σ → σ → Prop}

lemma of_pure [Std.Refl R] (a : α) : Relates R (pure a : Prog χ σ α) := fun s => Std.Refl.refl s

lemma of_stop [Std.Refl R] (e : χ) : Relates R (stop e : Prog χ σ α) := fun s => Std.Refl.refl s

lemma of_check [Std.Refl R] (c : Prop) [Decidable c] (e : χ) :
    Relates R (check c e : Prog χ σ Unit) := by
  rw [check]
  split
  · exact of_pure ()
  · exact of_stop e

lemma bind [IsTrans σ R] (hx : Relates R x) (hf : ∀ a, Relates R (f a)) :
    Relates R (x >>= f) := by
  intro s
  have hs := hx s
  rw [bind_apply]
  rcases h : x s with ⟨_ | a, t⟩
  · rwa [h] at hs
  · rw [h] at hs
    exact IsTrans.trans _ _ _ hs (hf a t)

lemma ite {c : Prop} [Decidable c] {x y : Prog χ σ α} (hx : Relates R x) (hy : Relates R y) :
    Relates R (if c then x else y) := by
  split
  · exact hx
  · exact hy

end Relates

end Prog
