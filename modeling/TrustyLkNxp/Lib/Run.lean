import Mathlib.Tactic
import Mathlib.Data.List.Forall2

/-!
# Runs of a system driven by events

A system is a set of initial states, a set of events the environment may deliver in a
state, and a step function that either yields the next state or stops with a reason.
This file fixes the notion of a run and packages the three inductions that are used
over and over: an invariant holds in every reachable state, two runs fed related events
stay related, and a run can be replayed on a sublist of its events in another system.
-/

namespace EventSystem

/-- A deterministic system driven by events: `χ` is the type of reasons to stop. -/
structure System (σ ε χ : Type*) where
  /-- The states a run may start in. -/
  init : σ → Prop
  /-- The events the environment may deliver in a state. -/
  admits : σ → ε → Prop
  /-- What the system does with an event. -/
  step : σ → ε → Except χ σ

namespace System

variable {σ ε χ τ φ : Type*}

/-- `T.Run s es t`: fed the events `es`, one after the other, the system goes from `s`
to `t` without stopping, and the environment was allowed to deliver each of them. -/
inductive Run (T : System σ ε χ) (s : σ) : List ε → σ → Prop
  | nil : Run T s [] s
  | snoc {es : List ε} {t u : σ} {e : ε} :
      Run T s es t → T.admits t e → T.step t e = .ok u → Run T s (es ++ [e]) u

/-- The states some run from an initial state ends in. -/
def Reachable (T : System σ ε χ) (s : σ) : Prop :=
  ∃ s₀ es, T.init s₀ ∧ T.Run s₀ es s

/-- `P` holds of every step taken while the events `es` are served from `s₀`: of the state
before it, the event, and the state after it. -/
def Along (T : System σ ε χ) (s₀ : σ) (es : List ε) (P : σ → ε → σ → Prop) : Prop :=
  ∀ before e after, es = before ++ e :: after →
    ∀ t u, T.Run s₀ before t → T.admits t e → T.step t e = .ok u → P t e u

variable {T : System σ ε χ} {U : System τ φ χ}

lemma run_snoc_iff {s u : σ} {es : List ε} {e : ε} :
    T.Run s (es ++ [e]) u ↔ ∃ t, T.Run s es t ∧ T.admits t e ∧ T.step t e = .ok u := by
  constructor
  · intro h
    generalize hl : es ++ [e] = l at h
    cases h with
    | nil => simp at hl
    | snoc hr ha hs =>
      obtain ⟨rfl, hee⟩ := List.append_inj' hl rfl
      obtain rfl : e = _ := by simpa using hee
      exact ⟨_, hr, ha, hs⟩
  · rintro ⟨t, hr, ha, hs⟩
    exact .snoc hr ha hs

lemma Run.one {s u : σ} {e : ε} (ha : T.admits s e) (hs : T.step s e = .ok u) :
    T.Run s [e] u := by
  simpa using Run.snoc .nil ha hs

lemma Run.trans {s t u : σ} {es fs : List ε} (h : T.Run s es t) (h' : T.Run t fs u) :
    T.Run s (es ++ fs) u := by
  induction h' with
  | nil => simpa using h
  | snoc _ ha hs ih => rw [← List.append_assoc]; exact ih.snoc ha hs

/-- A run stays one when the environment may do more. -/
lemma Run.mono {T U : System σ ε χ} (hadmits : ∀ s e, T.admits s e → U.admits s e)
    (hstep : ∀ s e, U.step s e = T.step s e) {s t : σ} {es : List ε} (h : T.Run s es t) :
    U.Run s es t := by
  induction h with
  | nil => exact .nil
  | snoc _ ha hs ih => exact ih.snoc (hadmits _ _ ha) ((hstep _ _).trans hs)

/-! ## Invariants -/

/-- What every step preserves, every run preserves. -/
lemma Run.invariant (I : σ → Prop)
    (hstep : ∀ s e t, I s → T.admits s e → T.step s e = .ok t → I t)
    {s t : σ} {es : List ε} (h : T.Run s es t) (hs : I s) : I t := by
  induction h with
  | nil => exact hs
  | snoc _ ha hst ih => exact hstep _ _ _ ih ha hst

/-- What holds initially and is preserved by every step holds in every reachable state. -/
lemma Reachable.invariant (I : σ → Prop) (hinit : ∀ s, T.init s → I s)
    (hstep : ∀ s e t, I s → T.admits s e → T.step s e = .ok t → I t)
    {s : σ} (h : T.Reachable s) : I s := by
  obtain ⟨s₀, es, h₀, hr⟩ := h
  exact hr.invariant I hstep (hinit s₀ h₀)

/-! ## Every step of a run -/

lemma Along.iff_of_forall {P Q : σ → ε → σ → Prop} {s₀ : σ} (h₀ : T.init s₀) {es : List ε}
    (h : ∀ t e u, T.Reachable t → T.admits t e → T.step t e = .ok u → (P t e u ↔ Q t e u)) :
    T.Along s₀ es P ↔ T.Along s₀ es Q := by
  refine forall₄_congr fun before e after _ => forall₂_congr fun t u => ?_
  exact forall₃_congr fun hr ha hs => h t e u ⟨s₀, before, h₀, hr⟩ ha hs

/-- What holds along a run holds along every start of it. -/
lemma Along.of_append {P : σ → ε → σ → Prop} {s₀ : σ} {es fs : List ε}
    (h : T.Along s₀ (es ++ fs) P) : T.Along s₀ es P := by
  intro before e after hes
  exact h before e (after ++ fs) (by simp [hes])

/-- A run has one end. -/
lemma Run.unique {s t t' : σ} {es : List ε} (h : T.Run s es t) (h' : T.Run s es t') : t = t' := by
  induction h generalizing t' with
  | nil =>
    generalize hl : ([] : List ε) = l at h'
    cases h' with
    | nil => rfl
    | snoc => simp at hl
  | snoc _ _ hs ih =>
    obtain ⟨r, hr, -, hs'⟩ := run_snoc_iff.mp h'
    obtain rfl := ih hr
    exact Except.ok.inj (hs.symm.trans hs')

lemma Along.nil {P : σ → ε → σ → Prop} {s₀ : σ} : T.Along s₀ [] P := by
  intro before e after h
  simp at h

/-- What holds of every step of a run and of the step after it holds along the longer run. -/
lemma Along.snoc {P : σ → ε → σ → Prop} {s₀ t u : σ} {es : List ε} {e : ε} (h : T.Along s₀ es P)
    (hr : T.Run s₀ es t) (hs : T.step t e = .ok u) (hP : P t e u) : T.Along s₀ (es ++ [e]) P := by
  intro before d after heq t' u' hr' ha' hs'
  obtain rfl | ⟨after, d', rfl⟩ := after.eq_nil_or_concat
  · obtain ⟨rfl, hd⟩ := List.append_inj' heq rfl
    obtain rfl : e = d := by simpa using hd
    obtain rfl := hr.unique hr'
    obtain rfl : u = u' := Except.ok.inj (hs.symm.trans hs')
    exact hP
  · rw [List.concat_eq_append, ← List.cons_append, ← List.append_assoc] at heq
    obtain ⟨rfl, -⟩ := List.append_inj' heq rfl
    exact h before d after rfl t' u' hr' ha' hs'

/-- What a step keeps exactly if it satisfies `P` holds all along a run exactly if all of its steps
satisfy `P`. -/
lemma Along.iff_of_step {I : σ → Prop} {P : σ → ε → Prop} {s₀ : σ} (h₀ : I s₀) {es : List ε}
    (hstep : ∀ before t e u, T.Run s₀ before t → I t → T.admits t e → T.step t e = .ok u →
      (I u ↔ P t e)) :
    T.Along s₀ es (fun _ _ u => I u) ↔ T.Along s₀ es (fun t e _ => P t e) := by
  constructor
  · intro h before e after hes t u hr ha hs
    refine (hstep before t e u hr ?_ ha hs).mp (h before e after hes t u hr ha hs)
    -- the step before has kept it
    obtain rfl | ⟨before, d, rfl⟩ := before.eq_nil_or_concat
    · generalize hl : ([] : List ε) = l at hr
      cases hr with
      | nil => exact h₀
      | snoc => simp at hl
    · rw [List.concat_eq_append] at hr
      obtain ⟨r, hr', ha', hs'⟩ := run_snoc_iff.mp hr
      exact h before d (e :: after) (by simp [hes]) r t hr' ha' hs'
  · intro h before e after hes t u hr ha hs
    refine (hstep before t e u hr ?_ ha hs).mpr (h before e after hes t u hr ha hs)
    clear ha hs
    induction hr generalizing e after with
    | nil => exact h₀
    | @snoc before r t d hr ha hs ih =>
      have hd : es = before ++ d :: e :: after := by simp [hes]
      exact (hstep before r d t hr (ih d (e :: after) hd) ha hs).mpr
        (h before d (e :: after) hd r t hr ha hs)

/-- An invariant that every step satisfying `P` preserves holds at the end of a run all of
whose steps satisfy `P`. -/
lemma Run.invariant_of_along {P : σ → ε → σ → Prop} (I : σ → Prop) {s₀ t : σ} {es : List ε}
    (hr : T.Run s₀ es t) (hP : T.Along s₀ es P) (hs : I s₀)
    (hstep : ∀ s e u, I s → T.admits s e → T.step s e = .ok u → P s e u → I u) : I t := by
  induction hr with
  | nil => exact hs
  | @snoc es t u e hr ha hst ih =>
    exact hstep t e u (ih hP.of_append) ha hst (hP es e [] rfl t u hr ha hst)

/-! ## Two runs -/

/-- Two runs fed related events, one event each at a time, end in related states. -/
lemma Run.lockstep (R : σ → τ → Prop) (E : ε → φ → Prop)
    (hstep : ∀ s t e f s' t', R s t → E e f → T.admits s e → U.admits t f →
      T.step s e = .ok s' → U.step t f = .ok t' → R s' t')
    {s s' : σ} {t t' : τ} {es : List ε} {fs : List φ}
    (h : T.Run s es s') (h' : U.Run t fs t') (hE : List.Forall₂ E es fs) (hR : R s t) :
    R s' t' := by
  induction h generalizing fs t' with
  | nil =>
    cases hE
    generalize hl : ([] : List φ) = l at h'
    cases h' with
    | nil => exact hR
    | snoc _ _ _ => simp at hl
  | @snoc es _ _ e _ ha hs ih =>
    have hE₁ : List.Forall₂ E es (fs.take es.length) := by
      simpa using List.forall₂_take es.length hE
    have hE₂ : List.Forall₂ E [e] (fs.drop es.length) := by
      simpa using List.forall₂_drop es.length hE
    obtain ⟨f, gs, hef, hnil, hdrop⟩ := List.forall₂_cons_left_iff.mp hE₂
    obtain rfl : gs = [] := List.forall₂_nil_left_iff.mp hnil
    rw [← List.take_append_drop es.length fs, hdrop] at h'
    obtain ⟨t₁, hr, ha', hs'⟩ := run_snoc_iff.mp h'
    exact hstep _ _ _ _ _ _ (ih hr hE₁) hef ha ha' hs hs'

/-- Replay of a run: each event is passed on to the other system or dropped, as `f` says.
When passing it on keeps the states related and dropping it keeps them related too, the
other system can be run on the events passed on, and ends in a related state. -/
lemma Run.replay (R : σ → τ → Prop) (f : ε → Option φ)
    (hpass : ∀ s t e g s', R s t → T.admits s e → T.step s e = .ok s' → f e = some g →
      ∃ t', U.admits t g ∧ U.step t g = .ok t' ∧ R s' t')
    (hdrop : ∀ s t e s', R s t → T.admits s e → T.step s e = .ok s' → f e = none → R s' t)
    {s s' : σ} {t : τ} {es : List ε} (h : T.Run s es s') (hR : R s t) :
    ∃ t', U.Run t (es.filterMap f) t' ∧ R s' t' := by
  induction h with
  | nil => exact ⟨t, .nil, hR⟩
  | @snoc es _ _ e _ ha hs ih =>
    obtain ⟨t₁, hr, hR₁⟩ := ih
    cases hf : f e with
    | none => exact ⟨t₁, by simpa [hf] using hr, hdrop _ _ _ _ hR₁ ha hs hf⟩
    | some g =>
      obtain ⟨t', ha', hs', hR'⟩ := hpass _ _ _ _ _ hR₁ ha hs hf
      exact ⟨t', by simpa [hf] using hr.snoc ha' hs', hR'⟩

end System

end EventSystem
