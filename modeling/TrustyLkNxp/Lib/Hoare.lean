import TrustyLkNxp.Lib.Prog

/-!
# Triples

A triple says where a program ends that starts where its precondition holds.  It has two
postconditions: one for a program that returns, which may depend on the value, and one for a
program that stops.
-/

namespace Prog

variable {χ σ α β : Type}

/-- From every state in `P` the program returns in `Q`, or stops in `S`. -/
def Triple (P : σ → Prop) (x : Prog χ σ α) (Q : α → σ → Prop) (S : σ → Prop) : Prop :=
  ∀ s, P s → match x s with
    | (.ok a, t) => Q a t
    | (.error _, t) => S t

namespace Triple

variable {P P' : σ → Prop} {x y : Prog χ σ α} {f : α → Prog χ σ β} {Q Q' : α → σ → Prop}
  {T : β → σ → Prop} {S : σ → Prop} {s t : σ} {a : α} {e : χ}

lemma of_ok (h : Triple P x Q S) (hs : P s) (hx : x s = (.ok a, t)) : Q a t := by
  have hrun := h s hs
  rwa [hx] at hrun

lemma of_error (h : Triple P x Q S) (hs : P s) (hx : x s = (.error e, t)) : S t := by
  have hrun := h s hs
  rwa [hx] at hrun

/-- The rule of consequence. -/
lemma mono (h : Triple P x Q S) (hpre : ∀ s, P' s → P s) (hpost : ∀ a s, Q a s → Q' a s) :
    Triple P' x Q' S := by
  intro s hs
  have hrun := h s (hpre s hs)
  rcases hx : x s with ⟨_ | a, t⟩
  · rwa [hx] at hrun
  · rw [hx] at hrun
    exact hpost a t hrun

lemma of_pure (h : ∀ s, P s → Q a s) : Triple P (pure a : Prog χ σ α) Q S := h

lemma of_stop (h : ∀ s, P s → S s) : Triple P (stop e : Prog χ σ α) Q S := h

lemma of_get {Q : σ → σ → Prop} (h : ∀ s, P s → Q s s) :
    Triple P (Prog.get : Prog χ σ σ) Q S := h

lemma of_modify {g : σ → σ} {Q : Unit → σ → Prop} (h : ∀ s, P s → Q () (g s)) :
    Triple P (modify g : Prog χ σ Unit) Q S := h

/-- What comes behind a check may rely on its condition. -/
lemma of_check {c : Prop} [Decidable c] {Q : Unit → σ → Prop} (hpos : ∀ s, P s → c → Q () s)
    (hneg : ∀ s, P s → S s) : Triple P (check c e : Prog χ σ Unit) Q S := by
  intro s hs
  rw [check]
  by_cases hc : c
  · rw [if_pos hc]
    exact hpos s hs hc
  · rw [if_neg hc]
    exact hneg s hs

lemma bind (hx : Triple P x Q S) (hf : ∀ a, Triple (Q a) (f a) T S) :
    Triple P (x >>= f) T S := by
  intro s hs
  have hrun := hx s hs
  rw [bind_apply]
  rcases h : x s with ⟨_ | a, t⟩
  · rwa [h] at hrun
  · rw [h] at hrun
    exact hf a t hrun

lemma ite {c : Prop} [Decidable c] (hx : c → Triple P x Q S) (hy : ¬ c → Triple P y Q S) :
    Triple P (if c then x else y) Q S := by
  split
  · exact hx ‹_›
  · exact hy ‹_›

end Triple

end Prog
