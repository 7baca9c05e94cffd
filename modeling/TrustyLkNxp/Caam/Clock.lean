import TrustyLkNxp.Caam.Trace

/-!
# The clocks of the engine

The clock gates of the engine are three fields of a register that the rest of the system
uses too.  On i.MX6 `caam_clk_get` sets bits in what it reads there: bit 0, and two of the
three fields.
-/

namespace TrustyLkNxp.Caam

variable {E : Platform}

/-- What an action writes to the register. -/
def Act.gates : Act → Option Word
  | .writel .ccgr val => some val
  | _ => none

lemma Act.gates_eq_some {a : Act} {val : Word} : a.gates = some val ↔ a = .writel .ccgr val := by
  constructor
  · intro h
    unfold Act.gates at h
    split at h
    · rw [Option.some.inj h]
    · exact absurd h (by simp)
  · rintro rfl
    rfl

/-- The value of the register after some actions, the latest first, when it was `v` before. -/
def ccgrAfter (v : Word) (acts : List Act) : Word := (acts.findSome? Act.gates).getD v

/-- Bits 8 to 13 are all on when a job is started, and no other bit ever changes. -/
structure ClocksOn (v : Word) (acts : List Act) : Prop where
  on : ∀ after dsc used before, acts = after ++ .start dsc used :: before →
    ∀ i, 8 ≤ i → i < 14 → (ccgrAfter v before).getLsbD i = true
  kept : ∀ after before, acts = after ++ before →
    ∀ i, i < 8 ∨ 14 ≤ i → (ccgrAfter v before).getLsbD i = v.getLsbD i

/-! ## The bits that are set -/

/-- `(3 << 8) | (3 < 10) | (3 << 12)`. -/
def clkBits : Word := 3 <<< 8 ||| (if 3 < 10 then 1 else 0) ||| 3 <<< 12

lemma getLsbD_clkBits (i : ℕ) : clkBits.getLsbD i = decide (i ∈ [0, 8, 9, 12, 13]) := by
  by_cases hi : i < 32
  · have hall : ∀ j : Fin 32, clkBits.getLsbD j = decide ((j : ℕ) ∈ [0, 8, 9, 12, 13]) := by decide
    exact hall ⟨i, hi⟩
  · rw [BitVec.getLsbD_of_ge _ _ (by omega), eq_comm, decide_eq_false_iff_not]
    simp only [List.mem_cons, List.not_mem_nil, or_false]
    omega

/-- One of the three fields is not among the bits that are set. -/
lemma fields_on_iff (v : Word) :
    (∀ i, 8 ≤ i → i < 14 → (v ||| clkBits).getLsbD i = true) ↔
      v.getLsbD 10 = true ∧ v.getLsbD 11 = true := by
  simp only [BitVec.getLsbD_or, getLsbD_clkBits, Bool.or_eq_true, decide_eq_true_eq, List.mem_cons,
    List.not_mem_nil, or_false]
  constructor
  · intro h
    exact ⟨(h 10 (by decide) (by decide)).resolve_right (by decide),
      (h 11 (by decide) (by decide)).resolve_right (by decide)⟩
  · rintro ⟨h10, h11⟩ i hlow hhigh
    rcases (by omega : i = 8 ∨ i = 9 ∨ i = 10 ∨ i = 11 ∨ i = 12 ∨ i = 13) with
      rfl | rfl | rfl | rfl | rfl | rfl
    · exact Or.inr (by decide)
    · exact Or.inr (by decide)
    · exact Or.inl h10
    · exact Or.inl h11
    · exact Or.inr (by decide)
    · exact Or.inr (by decide)

/-- Bit 0, which is among them, is in none of the fields. -/
lemma others_kept_iff (v : Word) :
    (∀ i, i < 8 ∨ 14 ≤ i → (v ||| clkBits).getLsbD i = v.getLsbD i) ↔ v.getLsbD 0 = true := by
  simp only [BitVec.getLsbD_or, getLsbD_clkBits, Bool.or_eq_left_iff_imp, decide_eq_true_eq,
    List.mem_cons, List.not_mem_nil, or_false]
  constructor
  · intro h
    exact h 0 (Or.inl (by decide)) (Or.inl rfl)
  · rintro h0 i hi (rfl | hbit)
    · exact h0
    · omega

lemma caamClkGet_imx6 (hmach : E.mach = .imx6) (m : Machine) :
    caamClkGet E m = (.ok (), { m with
      ccgr := m.ccgr ||| clkBits
      trace := .writel .ccgr (m.ccgr ||| clkBits) :: m.trace }) := by
  rw [caamClkGet, hmach]
  rfl

/-! ## What the register is given -/

/-- The register only ever gets the value `w`, and it has got it when a job is started. -/
structure Clocks (w : Word) (acts : List Act) : Prop where
  written : ∀ val, .writel .ccgr val ∈ acts → val = w
  started : ∀ after dsc used before, acts = after ++ .start dsc used :: before →
    .writel .ccgr w ∈ before

namespace Clocks

variable {v w : Word} {acts new : List Act}

lemma of_noStart (hno : NoStart acts) (hwritten : ∀ val, .writel .ccgr val ∈ acts → val = w) :
    Clocks w acts where
  written := hwritten
  started _ dsc used _ h :=
    absurd (h ▸ List.mem_append_right _ List.mem_cons_self) (hno dsc used)

lemma start (h : Clocks w acts) (hon : .writel .ccgr w ∈ acts) (dsc : List Word) (used : Word) :
    Clocks w (.start dsc used :: acts) where
  written val hmem := h.written val ((List.mem_cons.mp hmem).resolve_left (by simp))
  started after dsc' used' before heq := by
    rcases after with _ | ⟨a, after⟩
    · rw [← (List.cons.inj heq).2]
      exact hon
    · exact h.started after dsc' used' before (List.cons.inj heq).2

lemma append (hnew : Clocks w new) (h : Clocks w acts) : Clocks w (new ++ acts) where
  written val hmem := (List.mem_append.mp hmem).elim (hnew.written val) (h.written val)
  started after dsc used before heq := by
    rcases List.append_eq_append_iff.mp heq with ⟨mid, -, hacts⟩ | ⟨mid, hmid, hacts⟩
    · exact h.started mid dsc used before hacts
    · rcases mid with _ | ⟨a, mid⟩
      · exact h.started [] dsc used before hacts.symm
      · obtain ⟨rfl, rfl⟩ := List.cons.inj hacts
        exact List.mem_append_left _ (hnew.started after dsc used mid hmid)

/-- A part of what was done, up to some point. -/
lemma before {after acts' : List Act} (h : Clocks w acts) (heq : acts = after ++ acts') :
    Clocks w acts' where
  written val hmem := h.written val (heq ▸ List.mem_append_right _ hmem)
  started after' dsc used before heq' :=
    h.started (after ++ after') dsc used before (by rw [heq, heq', List.append_assoc])

lemma started_of_not (h : Clocks w acts) (hstart : ¬ NoStart acts) : ∃ after dsc used before,
    acts = after ++ .start dsc used :: before ∧ .writel .ccgr w ∈ before := by
  simp only [NoStart, not_forall, not_not] at hstart
  obtain ⟨dsc, used, hmem⟩ := hstart
  obtain ⟨after, before, heq⟩ := List.append_of_mem hmem
  exact ⟨after, dsc, used, before, heq, h.started after dsc used before heq⟩

lemma ccgrAfter_eq (h : Clocks w acts) :
    (∃ val, .writel .ccgr val ∈ acts) ∧ ccgrAfter v acts = w ∨
      (∀ val, .writel .ccgr val ∉ acts) ∧ ccgrAfter v acts = v := by
  rw [ccgrAfter]
  rcases hgates : acts.findSome? Act.gates with _ | val
  · refine Or.inr ⟨fun val hmem => ?_, rfl⟩
    exact absurd (List.findSome?_eq_none_iff.mp hgates _ hmem) (by simp [Act.gates])
  · obtain ⟨a, hmem, ha⟩ := List.exists_of_findSome?_eq_some hgates
    rw [Act.gates_eq_some.mp ha] at hmem
    exact Or.inl ⟨⟨val, hmem⟩, h.written val hmem⟩

/-- Bit 0 has to be set already when the register is written to, and the field that is missed
has to be on already when a job is started. -/
lemma clocksOn_iff (h : Clocks (v ||| clkBits) acts) :
    ClocksOn v acts ↔ ((∃ val, .writel .ccgr val ∈ acts) → v.getLsbD 0 = true) ∧
      (¬ NoStart acts → v.getLsbD 10 = true ∧ v.getLsbD 11 = true) := by
  -- a job is started with the bits set
  have hon : ∀ after dsc used before, acts = after ++ .start dsc used :: before →
      ccgrAfter v before = v ||| clkBits := by
    intro after dsc used before heq
    have hbefore := h.before (heq.trans (List.append_cons ..))
    rcases hbefore.ccgrAfter_eq (v := v) with ⟨-, hafter⟩ | ⟨hnone, -⟩
    · exact hafter
    · exact absurd (h.started after dsc used before heq) (hnone _)
  constructor
  · intro hclk
    constructor
    · rintro ⟨val, hmem⟩
      rcases h.ccgrAfter_eq (v := v) with ⟨-, hafter⟩ | ⟨hnone, -⟩
      · refine (others_kept_iff v).mp fun i hi => ?_
        rw [← hafter]
        exact hclk.kept [] acts rfl i hi
      · exact absurd hmem (hnone val)
    · intro hstart
      obtain ⟨after, dsc, used, before, heq, -⟩ := h.started_of_not hstart
      refine (fields_on_iff v).mp ?_
      rw [← hon after dsc used before heq]
      exact hclk.on after dsc used before heq
  · rintro ⟨hwrite, hstart⟩
    constructor
    · intro after dsc used before heq
      rw [hon after dsc used before heq]
      refine (fields_on_iff v).mpr (hstart fun hno => hno dsc used ?_)
      exact heq ▸ List.mem_append_right _ List.mem_cons_self
    · intro after before heq
      rcases (h.before heq).ccgrAfter_eq (v := v) with ⟨⟨val, hmem⟩, hafter⟩ | ⟨-, hafter⟩
      · rw [hafter]
        exact (others_kept_iff v).mpr (hwrite ⟨val, heq ▸ List.mem_append_right _ hmem⟩)
      · intro i _
        rw [hafter]

end Clocks

/-! ## The calls -/

/-- The bits stay set to what they are, or will be with the next job. -/
def Keeps (w : Word) (m m' : Machine) : Prop :=
  m.ccgr ||| clkBits = w →
    m'.ccgr ||| clkBits = w ∧ ∃ acts, m'.trace = acts ++ m.trace ∧ Clocks w acts

namespace Keeps

variable {w : Word}

instance : Std.Refl (Keeps w) where
  refl m hw := ⟨hw, [], rfl, .of_noStart (by simp [NoStart]) (by simp)⟩

instance : IsTrans Machine (Keeps w) where
  trans m m' m'' h h' hw := by
    obtain ⟨hw', acts, htrace, hacts⟩ := h hw
    obtain ⟨hw'', acts', htrace', hacts'⟩ := h' hw'
    exact ⟨hw'', acts' ++ acts, by rw [htrace', htrace, List.append_assoc], hacts'.append hacts⟩

lemma of_still {acts : List Act} {m m' : Machine} (h : Still acts m m') : Keeps w m m' := by
  intro hw
  rw [h.ccgr]
  exact ⟨hw, acts, h.trace, .of_noStart h.noStart fun val hmem => absurd hmem (h.noClk val)⟩

end Keeps

lemma or_clkBits_self (v : Word) : v ||| clkBits ||| clkBits = v ||| clkBits := by
  rw [BitVec.or_assoc, BitVec.or_self]

lemma fired_ccgr (E : Platform) (m : Machine) : (fired E m).ccgr = m.ccgr := by
  rw [fired, engine]
  dsimp only
  split <;> rfl

/-- The clocks are switched on, and the engine is started. -/
lemma keeps_start (w : Word) (m : Machine) : Keeps w m (fired E { m with
    ccgr := m.ccgr ||| clkBits
    trace := .writel .irjar0 1 :: .writel .ccgr (m.ccgr ||| clkBits) :: m.trace }) := by
  intro hw
  rw [fired_ccgr, fired_trace, hw]
  refine ⟨by rw [← hw, or_clkBits_self],
    [.start m.dsc m.dscUsed, .writel .irjar0 1, .writel .ccgr w], rfl, ?_⟩
  exact .start (.of_noStart (by simp [NoStart]) (by simp)) (by simp) _ _

section

variable (hmach : E.mach = .imx6) (w : Word)
include hmach

lemma beside_keeps : Beside E (Keeps w) where
  still _ _ _ h := .of_still h
  clk m := by
    intro hw
    rw [caamClkGet_imx6 hmach, hw]
    refine ⟨by rw [← hw, or_clkBits_self], [.writel .ccgr w], rfl, ?_⟩
    exact .of_noStart (by simp [NoStart]) (by simp)

lemma keeps_submit (words : List Word) : Prog.Relates (Keeps w) (submit E words) := by
  have hbeside := beside_keeps hmach w
  have hrun : Prog.Relates (Keeps w) (runJob E) := by
    refine .bind (relates_linkJob hbeside) fun jobPa m => ?_
    rw [Prog.bind_of_ok (caamClkGet_imx6 hmach m)]
    have hcollect := relates_collectJob hbeside m.nJob jobPa
    exact IsTrans.trans _ _ _ (keeps_start w m) (hcollect _)
  refine .bind (relates_setJob hbeside words) fun _ => .bind hrun fun _ => ?_
  exact .bind (fun m => Std.Refl.refl m) fun _ => .of_pure _

lemma clocks_runOps (ops : List Op) (m : Machine) :
    Clocks (m.ccgr ||| clkBits) (m.actsTo (runOps E ops m).2) := by
  obtain ⟨-, acts, htrace, hacts⟩ :=
    relates_runOps (beside_keeps hmach _) (keeps_submit hmach _) ops m rfl
  rwa [Machine.actsTo_eq htrace]

end

namespace Demo

/-- The same machine with an i.MX6, whose random number generator is instantiated. -/
def imx6 : Platform := { platform with mach := .imx6, read := fun _ _ => rdstaIf0 }

/-- The machine of the example with a value in the register. -/
def machineWith (v : Word) : Machine := { machine with ccgr := v }

/-- The driver is opened, and a root key is generated. -/
def openAndGen : List Op := [.caamOpen, .genKdfv1RootKey 0x7000 32]

lemma caamOpen_imx6 (m : Machine) : ∃ m', caamOpen imx6 m = (.ok (), m') := by
  obtain ⟨m₁, hclk⟩ : ∃ m₁, caamClkGet imx6 m = (.ok (), m₁) := ⟨_, rfl⟩
  obtain ⟨m₂, hrings⟩ : ∃ m₂, setupJobRings imx6 m₁ = (.ok (), m₂) := ⟨_, rfl⟩
  have hrng : ¬ (rdstaIf0 &&& rdstaIf0 ≠ rdstaIf0) := by decide
  rw [caamOpen, Prog.bind_of_ok hclk, Prog.bind_of_ok hrings]
  exact ⟨_, congrFun (if_neg hrng) _⟩

lemma openAndGen_starts (m : Machine) : ¬ NoStart (m.actsTo (runOps imx6 openAndGen m).2) := by
  obtain ⟨m₁, hopen⟩ := caamOpen_imx6 m
  have hop : Op.caamOpen.run imx6 m = (.ok caamSuccess, m₁) := Prog.bind_of_ok hopen
  let op : Op := .genKdfv1RootKey 0x7000 32
  have hrun : (runOps imx6 openAndGen m).2 = (op.run imx6 m₁).2 := by
    rw [openAndGen, runOps, Prog.bind_of_ok hop, runOps, Prog.bind_apply]
    rcases op.run imx6 m₁ with ⟨_ | _, _⟩ <;> rfl
  have hext : ∀ (op : Op) (m : Machine), ∃ acts, (op.run imx6 m).2.trace = acts ++ m.trace := by
    intro op m
    have hmach : imx6.mach = .imx6 := rfl
    obtain ⟨-, acts, htrace, -⟩ := op.relates (beside_keeps hmach _) (keeps_submit hmach _) m rfl
    exact ⟨acts, htrace⟩
  obtain ⟨acts, htrace⟩ := hext .caamOpen m
  obtain ⟨acts', htrace'⟩ := hext op m₁
  have hprepares : imx6.PreparesAll := preparesAll_platform
  have hstarts : ¬ NoStart (m₁.actsTo (op.run imx6 m₁).2) :=
    hprepares.genKdfv1RootKey_starts (by decide) (by decide) (by decide) m₁
  rw [hop] at htrace
  rw [Machine.actsTo_eq htrace'] at hstarts
  rw [hrun, Machine.actsTo_eq (htrace'.trans (by rw [htrace, List.append_assoc]))]
  exact fun hno => hstarts fun dsc used hmem => hno dsc used (List.mem_append_left _ hmem)

end Demo

/-- Starting from `v`, all runs switch the clocks on for their jobs and leave the rest of the
register as it is if and only if the bit that is set by mistake and the field that is missed are
set in `v`. -/
theorem clocks_on_iff (v : Word) :
    (∀ (E : Platform) (m : Machine) (ops : List Op), E.mach = .imx6 → m.ccgr = v →
        ClocksOn v (m.actsTo (runOps E ops m).2)) ↔
      v.getLsbD 0 = true ∧ v.getLsbD 10 = true ∧ v.getLsbD 11 = true := by
  constructor
  · intro h
    let m := Demo.machineWith v
    have hstarts := Demo.openAndGen_starts m
    have hclk : Clocks (v ||| clkBits) (m.actsTo (runOps Demo.imx6 Demo.openAndGen m).2) :=
      clocks_runOps rfl _ m
    obtain ⟨hwrite, hfield⟩ := hclk.clocksOn_iff.mp (h Demo.imx6 m Demo.openAndGen rfl rfl)
    obtain ⟨after, dsc, used, before, heq, hmem⟩ := hclk.started_of_not hstarts
    refine ⟨hwrite ⟨v ||| clkBits, ?_⟩, hfield hstarts⟩
    rw [heq]
    exact List.mem_append_right _ (List.mem_cons_of_mem _ hmem)
  · rintro ⟨h0, hfield⟩ E m ops hmach rfl
    exact (clocks_runOps hmach ops m).clocksOn_iff.mpr ⟨fun _ => h0, fun _ => hfield⟩

/-- From a register that is zero, a job is started with the second field off. -/
theorem not_clocksOn_of_zero :
    ¬ ClocksOn 0 (Demo.machine.actsTo (runOps Demo.imx6 Demo.openAndGen Demo.machine).2) := by
  intro h
  have hclk := clocks_runOps (E := Demo.imx6) rfl Demo.openAndGen Demo.machine
  have hbits := (hclk.clocksOn_iff.mp h).2 (Demo.openAndGen_starts Demo.machine)
  exact absurd hbits (by decide)

end TrustyLkNxp.Caam
