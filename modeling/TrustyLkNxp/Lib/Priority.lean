import Mathlib.Tactic

/-!
# Overlapping regions with a priority

A protection unit holds numbered regions that may overlap, and the region with the highest
number decides.  `highest f n` is the answer of the highest-numbered of the first `n`
regions that has one, where `f i` is what region `i` says, or `none` when it is silent.
-/

namespace Priority

variable {α : Type*}

/-- The answer of the highest-numbered region below `n` that gives one. -/
def highest (f : ℕ → Option α) : ℕ → Option α
  | 0 => none
  | n + 1 => (f n).or (highest f n)

@[simp] lemma highest_zero (f : ℕ → Option α) : highest f 0 = none := rfl

lemma highest_succ (f : ℕ → Option α) (n : ℕ) :
    highest f (n + 1) = (f n).or (highest f n) := rfl

lemma highest_congr {f g : ℕ → Option α} {n : ℕ} (h : ∀ i < n, f i = g i) :
    highest f n = highest g n := by
  induction n with
  | zero => rfl
  | succ n ih =>
    rw [highest_succ, highest_succ, h n (by omega), ih fun i hi => h i (by omega)]

/-- The regions from `m` on are asked before the first `m`. -/
lemma highest_add (f : ℕ → Option α) (m n : ℕ) :
    highest f (m + n) = (highest (fun i => f (m + i)) n).or (highest f m) := by
  induction n with
  | zero => rfl
  | succ n ih => rw [← Nat.add_assoc, highest_succ, ih, highest_succ, Option.or_assoc]

lemma highest_eq_none_iff {f : ℕ → Option α} {n : ℕ} :
    highest f n = none ↔ ∀ i < n, f i = none := by
  induction n with
  | zero => simp
  | succ n ih =>
    rw [highest_succ, Option.or_eq_none_iff, ih]
    constructor
    · rintro ⟨hn, hlt⟩ i hi
      rcases Nat.lt_succ_iff_lt_or_eq.mp hi with hi | rfl
      · exact hlt i hi
      · exact hn
    · exact fun h => ⟨h n (by omega), fun i hi => h i (by omega)⟩

/-- The answer `a` is given by some region, and every region above that one is silent. -/
lemma highest_eq_some_iff {f : ℕ → Option α} {n : ℕ} {a : α} :
    highest f n = some a ↔ ∃ i < n, f i = some a ∧ ∀ j < n, i < j → f j = none := by
  induction n with
  | zero => simp
  | succ n ih =>
    rw [highest_succ]
    cases hn : f n with
    | some b =>
      simp only [Option.some_or, Option.some.injEq]
      constructor
      · rintro rfl
        exact ⟨n, by omega, hn, fun j hj hnj => by omega⟩
      · rintro ⟨i, hi, hfi, habove⟩
        rcases Nat.lt_succ_iff_lt_or_eq.mp hi with hlt | rfl
        · rw [habove n (by omega) hlt] at hn
          exact absurd hn (by simp)
        · exact Option.some.inj (hn.symm.trans hfi)
    | none =>
      rw [Option.none_or, ih]
      constructor
      · rintro ⟨i, hi, hfi, habove⟩
        refine ⟨i, by omega, hfi, fun j hj hij => ?_⟩
        rcases Nat.lt_succ_iff_lt_or_eq.mp hj with hlt | rfl
        · exact habove j hlt hij
        · exact hn
      · rintro ⟨i, hi, hfi, habove⟩
        rcases Nat.lt_succ_iff_lt_or_eq.mp hi with hlt | rfl
        · exact ⟨i, hlt, hfi, fun j hj => habove j (by omega)⟩
        · rw [hn] at hfi
          exact absurd hfi (by simp)

end Priority
