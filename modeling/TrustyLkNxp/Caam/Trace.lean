import TrustyLkNxp.Caam.Steps

/-!
# What the driver does, action by action

A property of actions holds of everything an operation does when it holds of each of the
calls the operation makes.  One lemma a function says which calls these are.
-/

namespace TrustyLkNxp.Caam

variable {E : Platform} {P : Act → Prop}

/-- Everything the driver did from `m` to `m'` satisfies `P`. -/
def Does (P : Act → Prop) (m m' : Machine) : Prop :=
  ∃ acts, m'.trace = acts ++ m.trace ∧ ∀ a ∈ acts, P a

namespace Does

instance : Std.Refl (Does P) where
  refl _ := ⟨[], rfl, by simp⟩

instance : IsTrans Machine (Does P) where
  trans m m' m'' := by
    rintro ⟨acts, htrace, hacts⟩ ⟨acts', htrace', hacts'⟩
    refine ⟨acts' ++ acts, by rw [htrace', htrace, List.append_assoc], fun a ha => ?_⟩
    exact (List.mem_append.mp ha).elim (hacts' a) (hacts a)

lemma actsTo {m m' : Machine} (h : Does P m m') : ∀ a ∈ m.actsTo m', P a := by
  obtain ⟨acts, htrace, hacts⟩ := h
  rwa [Machine.actsTo_eq htrace]

lemma of_trace {m m' : Machine} (h : m'.trace = m.trace) : Does P m m' := ⟨[], h, by simp⟩

lemma of_cons {m m' : Machine} {a : Act} (h : m'.trace = a :: m.trace) (ha : P a) :
    Does P m m' := ⟨[a], h, by simpa using ha⟩

end Does

/-- The same, and the job in `g_job` is left as it is. -/
def DoesBeside (P : Act → Prop) (m m' : Machine) : Prop :=
  Does P m m' ∧ m'.dsc = m.dsc ∧ m'.dscUsed = m.dscUsed

instance : Std.Refl (DoesBeside P) where
  refl m := ⟨Std.Refl.refl m, rfl, rfl⟩

instance : IsTrans Machine (DoesBeside P) where
  trans _ _ _ h h' :=
    ⟨IsTrans.trans _ _ _ h.1 h'.1, h'.2.1.trans h.2.1, h'.2.2.trans h.2.2⟩

/-! ## Single calls -/

lemma doesBeside_act {a : Act} (ha : P a) : Prog.Relates (DoesBeside P) (act a) :=
  fun _ => ⟨.of_cons rfl ha, rfl, rfl⟩

lemma does_act {a : Act} (ha : P a) : Prog.Relates (Does P) (act a) := fun _ => .of_cons rfl ha

lemma does_readl (reg : Reg) : Prog.Relates (Does P) (readl E reg) := fun _ => .of_trace rfl

lemma doesBeside_prepareDma {va : ℕ} {len : Word} {dir : Dir} {allowPartial : Bool}
    (h : ∀ n, P (.prepare va len dir allowPartial (E.prep n va len dir allowPartial))) :
    Prog.Relates (DoesBeside P) (prepareDma E va len dir allowPartial) :=
  fun m => ⟨.of_cons rfl (h m.nPrep), rfl, rfl⟩

lemma does_prepareDma {va : ℕ} {len : Word} {dir : Dir} {allowPartial : Bool}
    (h : ∀ n, P (.prepare va len dir allowPartial (E.prep n va len dir allowPartial))) :
    Prog.Relates (Does P) (prepareDma E va len dir allowPartial) :=
  fun m => (doesBeside_prepareDma h m).1

/-! ## Jobs -/

/-- Everything that submitting a job takes satisfies `P`. -/
structure JobDoes (P : Act → Prop) (E : Platform) (words : List Word) : Prop where
  writel : ∀ reg val, P (.writel reg val)
  writeJob : P (.write E.gJobDsc (4 * words.length))
  prepareJob : ∀ n, P (.prepare E.gJobDsc (BitVec.ofNat 32 words.length * 4) .toDevice false
    (E.prep n E.gJobDsc (BitVec.ofNat 32 words.length * 4) .toDevice false))
  writeRings : P (.write E.gRings 12)
  prepareRings : ∀ n, P (.prepare E.gRings sizeofGRings .toDevice false
    (E.prep n E.gRings sizeofGRings .toDevice false))
  start : ∀ rest, P (.start (words ++ rest) (BitVec.ofNat 32 words.length))
  polled : ∀ slots, P (.polled slots)
  finishRings : P (.finish (E.gRings + 4) 8 .fromDevice)

namespace JobDoes

variable {words : List Word} (h : JobDoes P E words)
include h

lemma linkJob {m : Machine} (hused : m.dscUsed = BitVec.ofNat 32 words.length) :
    DoesBeside P m (linkJob E m).2 := by
  have hprep := h.prepareJob
  rw [← hused] at hprep
  have hrel : Prog.Relates (DoesBeside P) (do
      let pmem ← prepareDma E E.gJobDsc (m.dscUsed * 4) .toDevice false
      Prog.check (pmem.ret = 1) .abort
      let jobPa := BitVec.ofNat 32 pmem.paddr
      Prog.modify fun m => { m with ringOut0 := 0, ringOut1 := 0, ringIn := jobPa }
      act (.write E.gRings 12)
      let pmem ← prepareDma E E.gRings sizeofGRings .toDevice false
      Prog.check (pmem.ret = 1) .abort
      return jobPa : Drv Word) := by
    refine .bind (doesBeside_prepareDma hprep) fun pmem => .bind (.of_check _ _) fun _ => ?_
    refine .bind (fun n => ⟨.of_trace rfl, rfl, rfl⟩) fun _ => ?_
    refine .bind (doesBeside_act h.writeRings) fun _ => ?_
    refine .bind (doesBeside_prepareDma h.prepareRings) fun pmem => ?_
    exact .bind (.of_check _ _) fun _ => .of_pure _
  exact hrel m

lemma collectJob (job : ℕ) (jobPa : Word) : Prog.Relates (Does P) (collectJob E job jobPa) := by
  have hout : ∀ m : Machine, Prog.Relates (Does P) (do
      Prog.check (m.ringOut0 = jobPa) .abort
      Prog.modify fun m => { m with status := m.ringOut1 }
      Caam.writel .orjrr0 1 : Drv Unit) := by
    intro m
    refine .bind (.of_check _ _) fun _ => .bind (fun n => .of_trace rfl) fun _ => ?_
    exact does_act (h.writel _ _)
  have hwait : Prog.Relates (Does P) (waitJob E job) :=
    .bind (does_act (h.polled _)) fun _ => .of_check _ _
  refine .bind hwait fun _ => .bind (does_act h.finishRings) fun _ => ?_
  exact .bind (fun n => .of_trace rfl) hout

lemma runJob {m : Machine} {rest : List Word} (hdsc : m.dsc = words ++ rest)
    (hused : m.dscUsed = BitVec.ofNat 32 words.length) : Does P m (runJob E m).2 := by
  obtain ⟨hlink, hdsc', hused'⟩ := h.linkJob hused
  rw [Caam.runJob, Prog.bind_apply]
  rcases hrun : Caam.linkJob E m with ⟨e | jobPa, m₁⟩
  · rwa [hrun] at hlink
  rw [hrun] at hlink hdsc' hused'
  obtain ⟨val, m₂, hclk, hquiet, hdsc₂, hused₂⟩ := caamClkGet_spec E m₁
  have hclk₂ : Does P m₁ m₂ := .of_cons hquiet.trace (h.writel _ _)
  -- the words that were written are the words the engine is started on
  have hstart : Does P m₂ (fired E { m₂ with trace := .writel .irjar0 1 :: m₂.trace }) := by
    refine ⟨[.start (words ++ rest) (BitVec.ofNat 32 words.length), .writel .irjar0 1], ?_, ?_⟩
    · rw [fired_trace, ← hdsc, ← hdsc', ← hused, ← hused', ← hdsc₂, ← hused₂]
      rfl
    · simpa using ⟨h.start rest, h.writel _ _⟩
  dsimp only
  rw [Prog.bind_of_ok hclk]
  have hcollect := h.collectJob m₂.nJob jobPa
    (fired E { m₂ with trace := .writel .irjar0 1 :: m₂.trace })
  exact IsTrans.trans _ _ _ hlink (IsTrans.trans _ _ _ hclk₂ (IsTrans.trans _ _ _ hstart hcollect))

lemma submit : Prog.Relates (Does P) (submit E words) := by
  intro m
  let m₀ : Machine :=
    { m with
      dsc := words ++ m.dsc.drop words.length
      dscUsed := BitVec.ofNat 32 words.length
      trace := .write E.gJobDsc (4 * words.length) :: m.trace }
  have hset : Does P m m₀ := .of_cons rfl h.writeJob
  have hjob : Does P m₀ (Caam.runJob E m₀).2 := h.runJob rfl rfl
  have hrest : (Caam.submit E words m).2 = (Caam.runJob E m₀).2 := by
    change ((do
      Caam.runJob E
      let n ← Prog.get
      return decide (n.status &&& jobRingSts = 0) : Drv Bool) m₀).2 = _
    rw [Prog.bind_apply]
    rcases Caam.runJob E m₀ with ⟨_ | _, m'⟩ <;> rfl
  rw [hrest]
  exact IsTrans.trans _ _ _ hset hjob

lemma setupJobRings : Prog.Relates (Does P) (setupJobRings E) := by
  refine .bind (fun m => .of_trace rfl) fun _ => .bind (does_act h.writeRings) fun _ => ?_
  refine .bind (does_prepareDma h.prepareRings) fun pmem => .bind (.of_check _ _) fun _ => ?_
  refine .bind (does_act (h.writel _ _)) fun _ => .bind (does_act (h.writel _ _)) fun _ => ?_
  exact .bind (does_act (h.writel _ _)) fun _ => does_act (h.writel _ _)

lemma caamOpen (hwords : words = rngInstDsc) : Prog.Relates (Does P) (caamOpen E) := by
  refine relates_caamOpen_of_parts (fun m => .of_cons rfl (h.writel _ _)) h.setupJobRings does_readl
    (fun _ val => does_act (h.writel _ val)) ?_
  rw [← hwords]
  exact h.submit

end JobDoes

/-! ## Operations -/

/-- An operation on whole buffers prepares them, runs a job and hands the output back. -/
lemma does_dataOp {bufs : List Buf} {dsc : (ℕ → Word) → List Word} {out : ℕ} {outLen : Word}
    (hprep : ∀ b ∈ bufs, ∀ n, P (.prepare b.va b.len b.dir false (E.prep n b.va b.len b.dir false)))
    (hjob : ∀ pa, JobDoes P E (dsc pa)) (hfinish : P (.finish out outLen .fromDevice)) :
    Prog.Relates (Does P) (dataOp E bufs dsc out outLen) := by
  have hall : Prog.Relates (Does P) (prepareAll E bufs) := by
    clear hjob
    induction bufs with
    | nil => exact .of_pure _
    | cons b bs ih =>
      refine .bind (does_prepareDma (hprep b List.mem_cons_self)) fun pmem => .ite (.of_pure _) ?_
      exact .bind (ih fun c hc => hprep c (List.mem_cons_of_mem _ hc)) fun _ => .of_pure _
  refine .bind hall fun pas => ?_
  cases pas with
  | none => exact .of_pure _
  | some pas =>
    refine .bind (hjob _).submit fun ok => .ite ?_ (.of_pure _)
    exact .bind (does_act hfinish) fun _ => .of_pure _

/-! ## Operations no call of which fails -/

/-- Every buffer of an operation is prepared when no call fails. -/
lemma DataRun.prepares {bufs : List Buf} {dsc : (ℕ → Word) → List Word} {m m' : Machine}
    {r : Except Halt Word} (h : DataRun E bufs dsc m r m')
    (hsucc : ∀ a ∈ m.actsTo m', ¬ a.Failed) {b : Buf} (hb : b ∈ bufs) :
    ∃ res, .prepare b.va b.len b.dir false res ∈ m.actsTo m' := by
  cases h with
  | unprepared hquiet hfailed =>
    rw [Machine.actsTo_eq hquiet.trace] at hsucc
    obtain ⟨a, ha, hfail⟩ := hfailed
    exact absurd hfail (hsucc a ha)
  | @ran acts post pas val res₁ res₂ _ m₁ _ hprep hpre hret hdsc hpost =>
    have hmem : ∃ res, .prepare b.va b.len b.dir false res ∈ acts := by
      clear hpre hdsc
      induction hprep with
      | nil => exact absurd hb List.not_mem_nil
      | @cons c bs acts pas n _ _ ih =>
        rcases List.mem_cons.mp hb with rfl | hb
        · exact ⟨_, List.mem_append_right _ (List.mem_singleton_self _)⟩
        · obtain ⟨res, hres⟩ := ih hb
          exact ⟨res, List.mem_append_left _ hres⟩
    obtain ⟨res, hres⟩ := hmem
    refine ⟨res, ?_⟩
    rw [Machine.actsTo_eq (hpre.trace_fired hpost)]
    exact List.mem_append_right _ (List.mem_cons_of_mem _ (List.mem_append_right _ hres))

/-- When no call fails the engine is started. -/
lemma DataRun.starts {bufs : List Buf} {dsc : (ℕ → Word) → List Word} {m m' : Machine}
    {r : Except Halt Word} (h : DataRun E bufs dsc m r m')
    (hsucc : ∀ a ∈ m.actsTo m', ¬ a.Failed) : ¬ NoStart (m.actsTo m') := by
  cases h with
  | unprepared hquiet hfailed =>
    rw [Machine.actsTo_eq hquiet.trace] at hsucc
    obtain ⟨a, ha, hfail⟩ := hfailed
    exact absurd hfail (hsucc a ha)
  | @ran acts post pas val res₁ res₂ _ m₁ _ hprep hpre hret hdsc hpost =>
    rw [Machine.actsTo_eq (hpre.trace_fired hpost)]
    intro hno
    exact hno m₁.dsc m₁.dscUsed (List.mem_append_right _ List.mem_cons_self)

/-- Every range below 4 GiB is prepared. -/
def Platform.PreparesAll (E : Platform) : Prop :=
  ∀ n va len dir allowPartial, va + len.toNat ≤ 2 ^ 32 → (E.prep n va len dir allowPartial).ret = 1

lemma Demo.preparesAll_platform : platform.PreparesAll := by
  intro n va len dir allowPartial h
  have hprep : platform.prep n va len dir allowPartial =
      ⟨1, va, if allowPartial then (if len ≤ 4096 then len else 4096) else len⟩ := if_pos h
  rw [hprep]

/-- No call fails on buffers below 4 GiB. -/
lemma Platform.PreparesAll.not_failed (h : E.PreparesAll) (hjob : E.gJobDsc + 256 ≤ 2 ^ 32)
    (hrings : E.gRings + 4 ≤ 2 ^ 32) {bufs : List Buf} {dsc : (ℕ → Word) → List Word} {out : ℕ}
    {outLen : Word} (hbufs : ∀ b ∈ bufs, b.va + b.len.toNat ≤ 2 ^ 32)
    (hdsc : ∀ pa, (dsc pa).length ≤ 64) (m : Machine) :
    ∀ a ∈ m.actsTo (dataOp E bufs dsc out outLen m).2, ¬ a.Failed := by
  have hnot : ∀ {n va : ℕ} {len : Word} {dir : Dir} {allowPartial : Bool},
      va + len.toNat ≤ 2 ^ 32 →
      ¬ (Act.prepare va len dir allowPartial (E.prep n va len dir allowPartial)).Failed :=
    fun hfits => not_not.mpr (h _ _ _ _ _ hfits)
  refine (does_dataOp (fun b hb n => hnot (hbufs b hb)) (fun pa => ?_) id m).actsTo
  have hlen := hdsc pa
  exact {
    writel := fun _ _ => id
    writeJob := id
    prepareJob := fun n => hnot (by
      have hwords : (BitVec.ofNat 32 (dsc pa).length * 4).toNat = (dsc pa).length * 4 := by
        rw [BitVec.toNat_mul, BitVec.toNat_ofNat]
        have hfour : (4 : Word).toNat = 4 := rfl
        rw [hfour]
        omega
      omega)
    writeRings := id
    prepareRings := fun n => hnot hrings
    start := fun _ => id
    polled := fun _ => id
    finishRings := id }

/-- Then generating a root key starts a job. -/
lemma Platform.PreparesAll.genKdfv1RootKey_starts (h : E.PreparesAll)
    (hjob : E.gJobDsc + 256 ≤ 2 ^ 32) (hrings : E.gRings + 4 ≤ 2 ^ 32) {out : ℕ}
    (hout : out + 32 ≤ 2 ^ 32) (m : Machine) :
    ¬ NoStart (m.actsTo (caamGenKdfv1RootKey E out 32 m).2) := by
  let bufs : List Buf := [⟨out, 32, .fromDevice⟩]
  let dsc : (ℕ → Word) → List Word := fun pa =>
    [0xB080000B, 0x14C00010, 0x7083A393, 0x2CC0C9F7, 0xFC5D2FC0, 0x2C4B04E7,
      0xF0000000, 0, 0xF8000030, pa 0, 0x870D0002]
  have hsucc : ∀ a ∈ m.actsTo (dataOp E bufs dsc out 32 m).2, ¬ a.Failed :=
    h.not_failed hjob hrings (by simpa [bufs] using hout) (fun pa => by simp [dsc]) m
  rw [caamGenKdfv1RootKey, Prog.check_bind_of_pos rfl]
  exact (dataOp_spec E bufs dsc out 32 m).starts hsucc

end TrustyLkNxp.Caam
