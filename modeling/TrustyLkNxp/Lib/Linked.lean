import Mathlib.Tactic

/-!
# Two tables that point at each other

Entries of a table `f` may carry the key of an entry of a second table `g`, and every entry
of `g` carries the key of an entry of `f`.  `Linked` says that the two kinds of pointers are
inverse to each other, so that the entries of `g` correspond one to one to the entries of
`f` that carry a key.  The lemmas are the changes of the tables that keep them linked.
-/

universe u

variable {A B X Y : Type u}

/-- The entries of `f` that carry a key and the entries of `g` point at each other: `key`
reads the key an entry of `f` carries, `owner` the one an entry of `g` carries. -/
structure Linked (key : X → Option B) (owner : Y → A) (f : A → Option X) (g : B → Option Y) :
    Prop where
  forth : ∀ a x b, f a = some x → key x = some b → ∃ y, g b = some y ∧ owner y = a
  back : ∀ b y, g b = some y → ∃ x, f (owner y) = some x ∧ key x = some b

namespace Linked

variable {key : X → Option B} {owner : Y → A} {f : A → Option X} {g : B → Option Y}

/-- Distinct entries of `g` belong to distinct entries of `f`. -/
lemma owner_injective (h : Linked key owner f g) {b b' : B} {y y' : Y} (hb : g b = some y)
    (hb' : g b' = some y') (heq : owner y = owner y') : b = b' := by
  obtain ⟨x, hx, hk⟩ := h.back b y hb
  obtain ⟨x', hx', hk'⟩ := h.back b' y' hb'
  rw [heq, hx'] at hx
  obtain rfl : x' = x := Option.some.inj hx
  exact Option.some.inj (hk.symm.trans hk')

lemma empty : Linked key owner (fun _ => none) (fun _ => none) where
  forth := by simp
  back := by simp

variable [DecidableEq A] [DecidableEq B]

/-- Add an entry to each table, pointing at each other. -/
lemma insert (h : Linked key owner f g) {a : A} {b : B} {x : X} {y : Y} (ha : f a = none)
    (hb : g b = none) (hx : key x = some b) (hy : owner y = a) :
    Linked key owner (Function.update f a (some x)) (Function.update g b (some y)) where
  forth := by
    intro a' x' b' ha' hk
    rcases eq_or_ne a' a with rfl | hne
    · rw [Function.update_self, Option.some.injEq] at ha'
      subst ha'
      obtain rfl : b = b' := Option.some.inj (hx.symm.trans hk)
      exact ⟨y, Function.update_self _ _ _, hy⟩
    · rw [Function.update_of_ne hne] at ha'
      obtain ⟨y', hy', ho⟩ := h.forth a' x' b' ha' hk
      have hbne : b' ≠ b := by
        rintro rfl
        rw [hb] at hy'
        exact absurd hy' (by simp)
      exact ⟨y', by rwa [Function.update_of_ne hbne], ho⟩
  back := by
    intro b' y' hy'
    rcases eq_or_ne b' b with rfl | hne
    · rw [Function.update_self, Option.some.injEq] at hy'
      subst hy'
      exact ⟨x, by rw [hy, Function.update_self], hx⟩
    · rw [Function.update_of_ne hne] at hy'
      obtain ⟨x', hx', hk⟩ := h.back b' y' hy'
      have hane : owner y' ≠ a := by
        intro heq
        rw [heq, ha] at hx'
        exact absurd hx' (by simp)
      exact ⟨x', by rwa [Function.update_of_ne hane], hk⟩

/-- Remove two entries that point at each other. -/
lemma remove (h : Linked key owner f g) {b : B} {y : Y} (hb : g b = some y) :
    Linked key owner (Function.update f (owner y) none) (Function.update g b none) where
  forth := by
    intro a' x' b' ha' hk
    rcases eq_or_ne a' (owner y) with rfl | hne
    · rw [Function.update_self] at ha'
      exact absurd ha' (by simp)
    · rw [Function.update_of_ne hne] at ha'
      obtain ⟨y', hy', ho⟩ := h.forth a' x' b' ha' hk
      have hbne : b' ≠ b := by
        rintro rfl
        rw [hb, Option.some.injEq] at hy'
        exact hne (by rw [← ho, hy'])
      exact ⟨y', by rwa [Function.update_of_ne hbne], ho⟩
  back := by
    intro b' y' hy'
    rcases eq_or_ne b' b with rfl | hne
    · rw [Function.update_self] at hy'
      exact absurd hy' (by simp)
    · rw [Function.update_of_ne hne] at hy'
      obtain ⟨x', hx', hk⟩ := h.back b' y' hy'
      have hane : owner y' ≠ owner y := fun heq => hne (h.owner_injective hy' hb heq)
      exact ⟨x', by rwa [Function.update_of_ne hane], hk⟩

omit [DecidableEq B] in
/-- Change an entry of `f`, keeping the key it carries. -/
lemma update_left (h : Linked key owner f g) {a : A} {x x' : X} (ha : f a = some x)
    (hk : key x' = key x) : Linked key owner (Function.update f a (some x')) g where
  forth := by
    intro a' x'' b ha' hkb
    rcases eq_or_ne a' a with rfl | hne
    · rw [Function.update_self, Option.some.injEq] at ha'
      subst ha'
      exact h.forth a' x b ha (hk ▸ hkb)
    · rw [Function.update_of_ne hne] at ha'
      exact h.forth a' x'' b ha' hkb
  back := by
    intro b y hy
    obtain ⟨x'', hx'', hkb⟩ := h.back b y hy
    rcases eq_or_ne (owner y) a with heq | hne
    · rw [heq, ha, Option.some.injEq] at hx''
      subst hx''
      exact ⟨x', by rw [heq, Function.update_self], hk ▸ hkb⟩
    · exact ⟨x'', by rwa [Function.update_of_ne hne], hkb⟩

omit [DecidableEq A] in
/-- Change an entry of `g`, keeping its owner. -/
lemma update_right (h : Linked key owner f g) {b : B} {y y' : Y} (hb : g b = some y)
    (ho : owner y' = owner y) : Linked key owner f (Function.update g b (some y')) where
  forth := by
    intro a x b' ha hk
    obtain ⟨y'', hy'', hown⟩ := h.forth a x b' ha hk
    rcases eq_or_ne b' b with rfl | hne
    · rw [hb, Option.some.injEq] at hy''
      subst hy''
      exact ⟨y', Function.update_self _ _ _, ho.trans hown⟩
    · exact ⟨y'', by rwa [Function.update_of_ne hne], hown⟩
  back := by
    intro b' y'' hy''
    rcases eq_or_ne b' b with rfl | hne
    · rw [Function.update_self, Option.some.injEq] at hy''
      subst hy''
      rw [ho]
      exact h.back b' y hb
    · rw [Function.update_of_ne hne] at hy''
      exact h.back b' y'' hy''

omit [DecidableEq B] in
/-- Remove an entry of `f` that carries no key. -/
lemma remove_left (h : Linked key owner f g) {a : A} {x : X} (ha : f a = some x)
    (hk : key x = none) : Linked key owner (Function.update f a none) g where
  forth := by
    intro a' x' b ha' hkb
    rcases eq_or_ne a' a with rfl | hne
    · rw [Function.update_self] at ha'
      exact absurd ha' (by simp)
    · rw [Function.update_of_ne hne] at ha'
      exact h.forth a' x' b ha' hkb
  back := by
    intro b y hy
    obtain ⟨x', hx', hkb⟩ := h.back b y hy
    have hne : owner y ≠ a := by
      intro heq
      rw [heq, ha, Option.some.injEq] at hx'
      subst hx'
      rw [hk] at hkb
      exact absurd hkb (by simp)
    exact ⟨x', by rwa [Function.update_of_ne hne], hkb⟩

omit [DecidableEq B] in
/-- Add an entry of `f` that carries no key. -/
lemma insert_left (h : Linked key owner f g) {a : A} {x : X} (ha : f a = none)
    (hk : key x = none) : Linked key owner (Function.update f a (some x)) g where
  forth := by
    intro a' x' b ha' hkb
    rcases eq_or_ne a' a with rfl | hne
    · rw [Function.update_self, Option.some.injEq] at ha'
      subst ha'
      rw [hk] at hkb
      exact absurd hkb (by simp)
    · rw [Function.update_of_ne hne] at ha'
      exact h.forth a' x' b ha' hkb
  back := by
    intro b y hy
    obtain ⟨x', hx', hkb⟩ := h.back b y hy
    have hne : owner y ≠ a := by
      intro heq
      rw [heq, ha] at hx'
      exact absurd hx' (by simp)
    exact ⟨x', by rwa [Function.update_of_ne hne], hkb⟩

end Linked
