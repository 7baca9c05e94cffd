import TrustyLkNxp.Caam.Driver

/-!
# What the operations do

Every operation is inverted once.  Either something could not be prepared and the engine is
not started, or a job was run; the facts about all operations are read off these two cases.
-/

namespace TrustyLkNxp.Caam

open Memory

variable {E : Platform}

/-! ## Actions -/

/-- What a successful call of `prepare_dma` covers. -/
def Act.prepared : Act → Option Grant
  | .prepare _ _ dir _ res => if res.ret = 1 then some ⟨dir, res.paddr, res.size.toNat⟩ else none
  | _ => none

/-- A call of `prepare_dma` that fails. -/
def Act.Failed : Act → Prop
  | .prepare _ _ _ _ res => res.ret ≠ 1
  | _ => False

instance : DecidablePred Act.Failed
  | .prepare _ _ _ _ res => inferInstanceAs (Decidable (res.ret ≠ 1))
  | .finish _ _ _ => isFalse id
  | .write _ _ => isFalse id
  | .writel _ _ => isFalse id
  | .polled _ => isFalse id
  | .start _ _ => isFalse id

/-- The engine is not started. -/
def NoStart (acts : List Act) : Prop := ∀ dsc used, .start dsc used ∉ acts

lemma NoStart.append {acts acts' : List Act} (h : NoStart acts) (h' : NoStart acts') :
    NoStart (acts ++ acts') := by
  intro dsc used hmem
  rcases List.mem_append.mp hmem with hmem | hmem
  · exact h dsc used hmem
  · exact h' dsc used hmem

/-- From `m` to `m'` the driver did `acts` and the engine did nothing. -/
structure Quiet (acts : List Act) (m m' : Machine) : Prop where
  trace : m'.trace = acts ++ m.trace
  mem : m'.mem = m.mem
  drawn : m'.drawn = m.drawn
  nJob : m'.nJob = m.nJob
  noStart : NoStart acts

lemma Quiet.trans {acts acts' : List Act} {m m' m'' : Machine} (h : Quiet acts m m')
    (h' : Quiet acts' m' m'') : Quiet (acts' ++ acts) m m'' where
  trace := by rw [h'.trace, h.trace, List.append_assoc]
  mem := h'.mem.trans h.mem
  drawn := h'.drawn.trans h.drawn
  nJob := h'.nJob.trans h.nJob
  noStart := h'.noStart.append h.noStart

/-- What the driver did from `m` on. -/
def Machine.actsTo (m m' : Machine) : List Act :=
  m'.trace.take (m'.trace.length - m.trace.length)

lemma Machine.actsTo_eq {m m' : Machine} {acts : List Act} (h : m'.trace = acts ++ m.trace) :
    m.actsTo m' = acts := by
  simp [Machine.actsTo, h]

/-! ## The engine -/

/-- The machine with the engine started. -/
def fired (E : Platform) (m : Machine) : Machine :=
  engine E { m with trace := .start m.dsc m.dscUsed :: m.trace }

lemma fired_trace (E : Platform) (m : Machine) :
    (fired E m).trace = .start m.dsc m.dscUsed :: m.trace := by
  rw [fired, engine]
  dsimp only
  split <;> rfl

/-- What was done when the engine is started in between. -/
lemma Quiet.trace_fired {pre post : List Act} {m m₁ m' : Machine} (hpre : Quiet pre m m₁)
    (hpost : Quiet post (fired E m₁) m') :
    m'.trace = (post ++ .start m₁.dsc m₁.dscUsed :: pre) ++ m.trace := by
  rw [hpost.trace, fired_trace, hpre.trace, List.append_assoc, List.cons_append]

/-- A job changes memory only where its descriptor allows it to, whether it succeeds or not. -/
lemma fired_frame (E : Platform) (m : Machine) :
    SameOutside (writable m.dsc) m.mem (fired E m).mem := by
  rw [fired, engine]
  dsimp only
  split
  · rename_i mem drawn hdone
    split at hdone
    · exact execDescriptor_frame hdone
    · exact absurd hdone (by simp)
  · intro a ha
    exact if_neg ha

lemma error_status (w : Word) : (w ||| 0x40000000) &&& jobRingSts ≠ 0 := by
  intro h
  have hbit := congrArg (fun x : Word => x.getLsbD 30) h
  simp [jobRingSts] at hbit

/-- A status without an error means that the engine executed the descriptor. -/
lemma fired_of_status {m : Machine} (h : (fired E m).ringOut1 &&& jobRingSts = 0) :
    execDescriptor E.core m.nJob m.dsc m.mem m.drawn =
      some ((fired E m).mem, (fired E m).drawn) := by
  rw [fired, engine] at h ⊢
  dsimp only at h ⊢
  split at h
  · rename_i mem drawn hdone
    split at hdone
    · exact hdone
    · exact absurd hdone (by simp)
  · exact absurd h (error_status _)

/-! ## Jobs -/

/-- What adding a job to the ring takes, the latest first. -/
def linkActs (E : Platform) (used : Word) (res₁ res₂ : Prepared) : List Act :=
  [.prepare E.gRings sizeofGRings .toDevice false res₂, .write E.gRings 12,
    .prepare E.gJobDsc (used * 4) .toDevice false res₁]

lemma linkJob_spec (E : Platform) (m : Machine) :
    (∃ acts m', linkJob E m = (.error .abort, m') ∧ Quiet acts m m' ∧ ∃ a ∈ acts, a.Failed) ∨
      ∃ res₁ res₂ m', linkJob E m = (.ok (BitVec.ofNat 32 res₁.paddr), m') ∧
        Quiet (linkActs E m.dscUsed res₁ res₂) m m' ∧ (res₁.ret = 1 ∧ res₂.ret = 1) ∧
        m'.dsc = m.dsc ∧ m'.dscUsed = m.dscUsed := by
  let res₁ := E.prep m.nPrep E.gJobDsc (m.dscUsed * 4) .toDevice false
  let res₂ := E.prep (m.nPrep + 1) E.gRings sizeofGRings .toDevice false
  by_cases h₁ : res₁.ret = 1
  · by_cases h₂ : res₂.ret = 1
    · right
      refine ⟨res₁, res₂, _, (Prog.check_bind_of_pos h₁).trans (Prog.check_bind_of_pos h₂),
        ⟨rfl, rfl, rfl, rfl, ?_⟩, ⟨h₁, h₂⟩, rfl, rfl⟩
      simp [NoStart, linkActs]
    · left
      refine ⟨linkActs E m.dscUsed res₁ res₂, _,
        (Prog.check_bind_of_pos h₁).trans (Prog.check_bind_of_neg h₂), ⟨rfl, rfl, rfl, rfl, ?_⟩,
        _, List.mem_cons_self, h₂⟩
      simp [NoStart, linkActs]
  · left
    refine ⟨[.prepare E.gJobDsc (m.dscUsed * 4) .toDevice false res₁], _,
      Prog.check_bind_of_neg h₁, ⟨rfl, rfl, rfl, rfl, ?_⟩, _, List.mem_cons_self, h₁⟩
    simp [NoStart]

lemma waitJob_ok {job : ℕ} (hdone : (E.job job).completes = true) (m : Machine) :
    waitJob E job m = (.ok (), { m with trace := .polled 1 :: m.trace }) := by
  rw [waitJob, if_pos hdone]
  rfl

/-- A job that never completes is waited for forever. -/
lemma waitJob_hang {job : ℕ} (hdone : (E.job job).completes = false) (m : Machine) :
    waitJob E job m = (.error .hang, { m with trace := .polled 0 :: m.trace }) := by
  rw [waitJob, if_neg (by rw [hdone]; decide)]
  rfl

lemma collectJob_spec (E : Platform) (job : ℕ) (jobPa : Word) (m : Machine) :
    ∃ acts r m', collectJob E job jobPa m = (r, m') ∧ Quiet acts m m' ∧
      (r = .ok () → m'.status = m.ringOut1) := by
  cases hdone : (E.job job).completes with
  | true =>
    by_cases hout : m.ringOut0 = jobPa
    · refine ⟨[.writel .orjrr0 1, .finish (E.gRings + 4) 8 .fromDevice, .polled 1], .ok (), _,
        (Prog.bind_of_ok (waitJob_ok hdone m)).trans (Prog.check_bind_of_pos hout),
        ⟨rfl, rfl, rfl, rfl, ?_⟩, fun _ => rfl⟩
      simp [NoStart]
    · refine ⟨[.finish (E.gRings + 4) 8 .fromDevice, .polled 1], .error .abort, _,
        (Prog.bind_of_ok (waitJob_ok hdone m)).trans (Prog.check_bind_of_neg hout),
        ⟨rfl, rfl, rfl, rfl, ?_⟩, fun h => absurd h (by simp)⟩
      simp [NoStart]
  | false =>
    refine ⟨[.polled 0], .error .hang, _, Prog.bind_of_error (waitJob_hang hdone m),
      ⟨rfl, rfl, rfl, rfl, ?_⟩, fun h => absurd h (by simp)⟩
    simp [NoStart]

/-- What `run_job` does: a part of the job cannot be prepared, or the engine is started. -/
inductive JobRun (E : Platform) (m : Machine) : Except Halt Unit → Machine → Prop
  | unlinked {acts : List Act} {m' : Machine} (hquiet : Quiet acts m m')
      (hfailed : ∃ a ∈ acts, a.Failed) : JobRun E m (.error .abort) m'
  | ran {val : Word} {res₁ res₂ : Prepared} {post : List Act} {r : Except Halt Unit}
      {m₁ m' : Machine}
      (hpre : Quiet (.writel .irjar0 1 :: .writel .ccgr val :: linkActs E m.dscUsed res₁ res₂) m m₁)
      (hret : res₁.ret = 1 ∧ res₂.ret = 1) (hdsc : m₁.dsc = m.dsc ∧ m₁.dscUsed = m.dscUsed)
      (hpost : Quiet post (fired E m₁) m')
      (hstatus : r = .ok () → m'.status = (fired E m₁).ringOut1) : JobRun E m r m'

lemma caamClkGet_spec (E : Platform) (m : Machine) :
    ∃ val m', caamClkGet E m = (.ok (), m') ∧ Quiet [.writel .ccgr val] m m' ∧ m'.dsc = m.dsc ∧
      m'.dscUsed = m.dscUsed :=
  ⟨_, _, rfl, ⟨rfl, rfl, rfl, rfl, by simp [NoStart]⟩, rfl, rfl⟩

lemma runJob_spec (E : Platform) (m : Machine) : JobRun E m (runJob E m).1 (runJob E m).2 := by
  obtain ⟨acts, m', herr, hquiet, hfailed⟩ | ⟨res₁, res₂, m', hok, hquiet, hret, hdsc⟩ :=
    linkJob_spec E m
  · rw [runJob, Prog.bind_of_error herr]
    exact .unlinked hquiet hfailed
  · obtain ⟨val, m₀, hclk, hquiet₀, hdsc₀⟩ := caamClkGet_spec E m'
    let m₁ : Machine := { m₀ with trace := .writel .irjar0 1 :: m₀.trace }
    have hkick : Quiet [.writel .irjar0 1] m₀ m₁ := ⟨rfl, rfl, rfl, rfl, by simp [NoStart]⟩
    obtain ⟨post, r, m₂, hcollect, hpost, hstatus⟩ :=
      collectJob_spec E m₀.nJob (BitVec.ofNat 32 res₁.paddr) (fired E m₁)
    have hrun : runJob E m = (r, m₂) := by
      rw [runJob, Prog.bind_of_ok hok, Prog.bind_of_ok hclk]
      exact hcollect
    rw [hrun]
    exact .ran ((hquiet.trans hquiet₀).trans hkick) hret
      ⟨hdsc₀.1.trans hdsc.1, hdsc₀.2.trans hdsc.2⟩ hpost hstatus

/-! ## Submitting a job -/

/-- What `submit` does before the engine is started, the latest first. -/
def submitActs (E : Platform) (words : List Word) (val : Word) (res₁ res₂ : Prepared) : List Act :=
  .writel .irjar0 1 :: .writel .ccgr val ::
    (linkActs E (BitVec.ofNat 32 words.length) res₁ res₂ ++ [.write E.gJobDsc (4 * words.length)])

/-- What `submit` does. When the job is reported to be free of errors, the engine executed the
words that were written, whatever an earlier job left behind them. -/
inductive Submitted (E : Platform) (words : List Word) (m : Machine) :
    Except Halt Bool → Machine → Prop
  | unlinked {acts : List Act} {m' : Machine} (hquiet : Quiet acts m m')
      (hfailed : ∃ a ∈ acts, a.Failed) : Submitted E words m (.error .abort) m'
  | ran {val : Word} {res₁ res₂ : Prepared} {post : List Act} {r : Except Halt Bool}
      {m₁ m' : Machine} (hpre : Quiet (submitActs E words val res₁ res₂) m m₁)
      (hret : res₁.ret = 1 ∧ res₂.ret = 1) (hdsc : m₁.dsc = words ++ m.dsc.drop words.length)
      (hpost : Quiet post (fired E m₁) m')
      (hdone : r = .ok true →
        execDescriptor E.core m.nJob m₁.dsc m.mem m.drawn = some (m'.mem, m'.drawn))
      (hused : m₁.dscUsed = BitVec.ofNat 32 words.length) : Submitted E words m r m'

lemma submit_spec (E : Platform) (words : List Word) (m : Machine) :
    Submitted E words m (submit E words m).1 (submit E words m).2 := by
  let m₀ : Machine :=
    { m with
      dsc := words ++ m.dsc.drop words.length
      dscUsed := BitVec.ofNat 32 words.length
      trace := .write E.gJobDsc (4 * words.length) :: m.trace }
  have hset : Quiet [.write E.gJobDsc (4 * words.length)] m m₀ :=
    ⟨rfl, rfl, rfl, rfl, by simp [NoStart]⟩
  have hjob := runJob_spec E m₀
  have hsubmit : submit E words m = (do
      runJob E
      let n ← Prog.get
      return decide (n.status &&& jobRingSts = 0) : Drv Bool) m₀ := rfl
  rcases hrun : runJob E m₀ with ⟨r, m'⟩
  rw [hrun] at hjob
  cases r with
  | error e =>
    rw [hsubmit, Prog.bind_of_error hrun]
    cases hjob with
    | unlinked hquiet hfailed =>
      obtain ⟨a, ha, hfail⟩ := hfailed
      exact .unlinked (hset.trans hquiet) ⟨a, List.mem_append_left _ ha, hfail⟩
    | ran hpre hret hdsc hpost =>
      exact .ran (hset.trans hpre) hret hdsc.1 hpost (by simp) hdsc.2
  | ok _ =>
    rw [hsubmit, Prog.bind_of_ok hrun]
    cases hjob with
    | ran hpre hret hdsc hpost hstatus =>
      refine .ran (hset.trans hpre) hret hdsc.1 hpost (fun hok => ?_) hdsc.2
      have hok : (.ok (decide (m'.status &&& jobRingSts = 0)) : Except Halt Bool) = .ok true := hok
      have hsts : m'.status &&& jobRingSts = 0 := by simpa using hok
      rw [hstatus rfl] at hsts
      have hexec := fired_of_status hsts
      rw [hpre.nJob, hpre.mem, hpre.drawn, ← hpost.mem, ← hpost.drawn] at hexec
      exact hexec

/-- Submitting a job keeps a relation that holds whenever the engine does nothing, and when it is
started on the job. -/
lemma relates_submit {R : Machine → Machine → Prop} [IsTrans Machine R] {words : List Word}
    (hquiet : ∀ acts m m', Quiet acts m m' → R m m')
    (hfired : ∀ m m₁ val res₁ res₂, Quiet (submitActs E words val res₁ res₂) m m₁ →
      m₁.dsc = words ++ m.dsc.drop words.length → m₁.dscUsed = BitVec.ofNat 32 words.length →
      R m₁ (fired E m₁)) : Prog.Relates R (submit E words) := by
  intro m
  have hsub := submit_spec E words m
  rcases hrun : submit E words m with ⟨r, m'⟩
  rw [hrun] at hsub
  cases hsub with
  | unlinked hunlinked => exact hquiet _ m m' hunlinked
  | @ran val res₁ res₂ post _ m₁ _ hpre _ hdsc hpost _ hused =>
    have hstart := hfired m m₁ val res₁ res₂ hpre hdsc hused
    exact IsTrans.trans _ _ _ (hquiet _ m m₁ hpre)
      (IsTrans.trans _ _ _ hstart (hquiet _ _ m' hpost))

/-! ## Operations on whole buffers -/

/-- The buffers were all prepared, with these calls and these physical addresses. -/
inductive PreparedAll (E : Platform) : List Buf → List Act → List Word → Prop
  | nil : PreparedAll E [] [] []
  | cons {b : Buf} {bs : List Buf} {acts : List Act} {pas : List Word} {n : ℕ}
      (hret : (E.prep n b.va b.len b.dir false).ret = 1) (hbs : PreparedAll E bs acts pas) :
      PreparedAll E (b :: bs)
        (acts ++ [.prepare b.va b.len b.dir false (E.prep n b.va b.len b.dir false)])
        (BitVec.ofNat 32 (E.prep n b.va b.len b.dir false).paddr :: pas)

lemma prepareAll_spec (E : Platform) (bufs : List Buf) (m : Machine) :
    ∃ acts m', Quiet acts m m' ∧ m'.dsc = m.dsc ∧
      ((prepareAll E bufs m = (.ok none, m') ∧ ∃ a ∈ acts, a.Failed) ∨
        ∃ pas, prepareAll E bufs m = (.ok (some pas), m') ∧ PreparedAll E bufs acts pas) := by
  induction bufs generalizing m with
  | nil => exact ⟨[], m, ⟨rfl, rfl, rfl, rfl, by simp [NoStart]⟩, rfl, Or.inr ⟨[], rfl, .nil⟩⟩
  | cons b bs ih =>
    let res := E.prep m.nPrep b.va b.len b.dir false
    let a : Act := .prepare b.va b.len b.dir false res
    let m₁ : Machine := { m with nPrep := m.nPrep + 1, trace := a :: m.trace }
    have hfirst : Quiet [a] m m₁ := ⟨rfl, rfl, rfl, rfl, by simp [NoStart, a]⟩
    by_cases hret : res.ret = 1
    · have hrest : prepareAll E (b :: bs) m = (do
          let pas ← prepareAll E bs
          return pas.map (BitVec.ofNat 32 res.paddr :: ·) : Drv (Option (List Word))) m₁ :=
        congrFun (if_neg (not_not.mpr hret)) m₁
      obtain ⟨acts, m', hquiet, hdsc, ⟨hnone, a', ha', hfail⟩ | ⟨pas, hsome, hpas⟩⟩ := ih m₁
      · refine ⟨acts ++ [a], m', hfirst.trans hquiet, hdsc, Or.inl ⟨?_, a',
          List.mem_append_left _ ha', hfail⟩⟩
        rw [hrest, Prog.bind_of_ok hnone]
        rfl
      · refine ⟨acts ++ [a], m', hfirst.trans hquiet, hdsc, Or.inr ⟨_, ?_, .cons hret hpas⟩⟩
        rw [hrest, Prog.bind_of_ok hsome]
        rfl
    · exact ⟨[a], m₁, hfirst, rfl, Or.inl ⟨congrFun (if_pos hret) m₁, a,
        List.mem_singleton_self a, hret⟩⟩

/-- What an operation on whole buffers does. -/
inductive DataRun (E : Platform) (bufs : List Buf) (dsc : (ℕ → Word) → List Word) (m : Machine) :
    Except Halt Word → Machine → Prop
  | unprepared {acts : List Act} {r : Except Halt Word} {m' : Machine} (hquiet : Quiet acts m m')
      (hfailed : ∃ a ∈ acts, a.Failed) (hr : r ≠ .ok caamSuccess) : DataRun E bufs dsc m r m'
  | ran {acts post : List Act} {pas : List Word} {val : Word} {res₁ res₂ : Prepared}
      {r : Except Halt Word} {m₁ m' : Machine} (hprep : PreparedAll E bufs acts pas)
      (hpre : Quiet (submitActs E (dsc (pas.getD · 0)) val res₁ res₂ ++ acts) m m₁)
      (hret : res₁.ret = 1 ∧ res₂.ret = 1)
      (hdsc : m₁.dsc = dsc (pas.getD · 0) ++ m.dsc.drop (dsc (pas.getD · 0)).length)
      (hpost : Quiet post (fired E m₁) m')
      (hdone : r = .ok caamSuccess →
        execDescriptor E.core m.nJob m₁.dsc m.mem m.drawn = some (m'.mem, m'.drawn)) :
      DataRun E bufs dsc m r m'

lemma dataOp_spec (E : Platform) (bufs : List Buf) (dsc : (ℕ → Word) → List Word) (out : ℕ)
    (outLen : Word) (m : Machine) :
    DataRun E bufs dsc m (dataOp E bufs dsc out outLen m).1 (dataOp E bufs dsc out outLen m).2 := by
  obtain ⟨acts, m', hquiet, hsame, ⟨hnone, hfailed⟩ | ⟨pas, hsome, hpas⟩⟩ :=
    prepareAll_spec E bufs m
  · rw [dataOp, Prog.bind_of_ok hnone]
    exact .unprepared hquiet hfailed (by simp [caamFailure, caamSuccess])
  · rw [dataOp, Prog.bind_of_ok hsome]
    have hsub := submit_spec E (dsc (pas.getD · 0)) m'
    rcases hrun : submit E (dsc (pas.getD · 0)) m' with ⟨e | ok, m''⟩
    · rw [hrun] at hsub
      simp only [Prog.bind_of_error hrun]
      cases hsub with
      | unlinked hquiet' hfailed =>
        obtain ⟨a, ha, hfail⟩ := hfailed
        exact .unprepared (hquiet.trans hquiet') ⟨a, List.mem_append_left _ ha, hfail⟩ (by simp)
      | ran hpre hret hdsc hpost =>
        exact .ran hpas (hquiet.trans hpre) hret (hsame ▸ hdsc) hpost (by simp)
    · rw [hrun] at hsub
      simp only [Prog.bind_of_ok hrun]
      cases hsub with
      | @ran val res₁ res₂ post _ m₁ _ hpre hret hdsc hpost hdone =>
        cases ok with
        | false =>
          exact .ran hpas (hquiet.trans hpre) hret (hsame ▸ hdsc) hpost
            (by simp [caamFailure, caamSuccess])
        | true =>
          have hfinish : Quiet [.finish out outLen .fromDevice] m''
              { m'' with trace := .finish out outLen .fromDevice :: m''.trace } :=
            ⟨rfl, rfl, rfl, rfl, by simp [NoStart]⟩
          refine .ran hpas (hquiet.trans hpre) hret (hsame ▸ hdsc) (hpost.trans hfinish) fun _ => ?_
          have hexec := hdone rfl
          rw [hquiet.nJob, hquiet.mem, hquiet.drawn] at hexec
          exact hexec

/-! ## The loop of `caam_hwrng` -/

/-- What a round of the loop does with a prepared segment. -/
def hwrngRound (E : Platform) (rounds out : ℕ) (len : Word) (pmem : Prepared) : Drv Word := do
  if ← submit E
      [0xB0800004, 0x82500000, 0x60340000 ||| (0x0000ffff &&& pmem.size),
        BitVec.ofNat 32 pmem.paddr] then
    finishDma out pmem.size .fromDevice
    hwrngLoop E rounds (out + pmem.size.toNat) (len - pmem.size)
  else
    return caamFailure

lemma hwrngLoop_of_zero (rounds out : ℕ) : hwrngLoop E rounds out 0 = return caamSuccess := by
  cases rounds <;> rfl

/-- A round ends the loop when its segment cannot be prepared. -/
lemma hwrngLoop_succ (rounds out : ℕ) {len : Word} (hlen : len ≠ 0) (m : Machine) :
    ∃ (res : Prepared) (m₁ : Machine), res = E.prep m.nPrep out len .fromDevice true ∧
      Quiet [.prepare out len .fromDevice true res] m m₁ ∧ m₁.dsc = m.dsc ∧
      ((res.ret ≠ 1 ∧ hwrngLoop E (rounds + 1) out len m = (.ok caamFailure, m₁)) ∨
        (res.ret = 1 ∧
          hwrngLoop E (rounds + 1) out len m = hwrngRound E rounds out len res m₁)) := by
  refine ⟨_, { m with nPrep := m.nPrep + 1, trace := _ :: m.trace }, rfl,
    ⟨rfl, rfl, rfl, rfl, by simp [NoStart]⟩, rfl, ?_⟩
  rw [hwrngLoop, if_neg hlen]
  by_cases hret : (E.prep m.nPrep out len .fromDevice true).ret = 1
  · exact Or.inr ⟨hret, congrFun (if_neg (not_not.mpr hret)) _⟩
  · exact Or.inl ⟨hret, congrFun (if_pos hret) _⟩

/-! ## The descriptors -/

section

variable (pa : ℕ → Word) (rest : List Word)

lemma grants_of_parse {dsc : List Word} {cs : List Command} (h : parseDescriptor dsc = some cs) :
    grants dsc = cs.filterMap Command.grant := by
  rw [grants, h]
  rfl

/-- Both directions of the blob protocol. -/
lemma parse_blob (inLen outLen op : Word) (hop : parseCommand op [] = some (.operation op, [])) :
    parseDescriptor ([0xB0800008, 0x14400010, pa 0, 0xF0000000 ||| (0x0000ffff &&& inLen), pa 1,
        0xF8000000 ||| (0x0000ffff &&& outLen), pa 2, op] ++ rest) =
      some [.load 0x40 (pa 0) 16, .seqIn (pa 1) (inLen.toNat % 65536),
        .seqOut (pa 2) (outLen.toNat % 65536), .operation op] := by
  refine parseDescriptor_append rfl rfl rfl ?_ rest
  exact parseCommands_cons rfl <| parseCommands_cons parseCommand_seqIn <|
    parseCommands_cons parseCommand_seqOut <| parseCommands_cons hop <| parseCommands_nil _

lemma parse_aes (len : Word) (enc : Bool) :
    parseDescriptor ([0xb0800008, 0x02000010, pa 0, if enc then 0x8210020D else 0x8210020C,
        0x22120000 ||| (0x0000ffff &&& len), pa 1, 0x60300000 ||| (0x0000ffff &&& len), pa 2] ++
          rest) =
      some [.key (pa 0) 16, .operation (if enc then 0x8210020D else 0x8210020C),
        .fifoLoad (pa 1) (len.toNat % 65536), .fifoStore 0x30 (pa 2) (len.toNat % 65536)] := by
  refine parseDescriptor_append rfl rfl rfl ?_ rest
  have hop : ∀ words, parseCommand (if enc then 0x8210020D else 0x8210020C) words =
      some (.operation (if enc then 0x8210020D else 0x8210020C), words) := by
    intro words
    cases enc <;> rfl
  exact parseCommands_cons rfl <| parseCommands_cons (hop _) <|
    parseCommands_cons (parseCommand_fifoLoad rfl rfl rfl (by decide)) <|
    parseCommands_cons (parseCommand_fifoStore rfl rfl rfl (by decide)) <| parseCommands_nil _

lemma parse_hwrng (size ptr : Word) :
    parseDescriptor ([0xB0800004, 0x82500000, 0x60340000 ||| (0x0000ffff &&& size), ptr] ++ rest) =
      some [.operation 0x82500000, .fifoStore 0x34 ptr (size.toNat % 65536)] := by
  refine parseDescriptor_append rfl rfl rfl ?_ rest
  exact parseCommands_cons rfl <|
    parseCommands_cons (parseCommand_fifoStore rfl rfl rfl (by decide)) <| parseCommands_nil _

lemma parse_hash (len : Word) :
    parseDescriptor ([0xB0800006, 0x8441000D, 0x24140000 ||| (0x0000ffff &&& len), pa 0,
        0x54200000 ||| 20, pa 1] ++ rest) =
      some [.operation 0x8441000D, .fifoLoad (pa 0) (len.toNat % 65536), .store 0x20 (pa 1) 20] := by
  refine parseDescriptor_append rfl rfl rfl ?_ rest
  exact parseCommands_cons rfl <|
    parseCommands_cons (parseCommand_fifoLoad rfl rfl rfl (by decide)) <|
    parseCommands_cons rfl <| parseCommands_nil _

lemma parse_kdfv1 :
    parseDescriptor ([0xB080000B, 0x14C00010, 0x7083A393, 0x2CC0C9F7, 0xFC5D2FC0, 0x2C4B04E7,
        0xF0000000, 0, 0xF8000030, pa 0, 0x870D0002] ++ rest) =
      some [.loadImm 0x40 [0x7083A393, 0x2CC0C9F7, 0xFC5D2FC0, 0x2C4B04E7], .seqIn 0 0,
        .seqOut (pa 0) 48, .operation 0x870D0002] := by
  exact parseDescriptor_append rfl rfl rfl rfl rest

lemma parse_rngInst :
    parseDescriptor (rngInstDsc ++ rest) =
      some [.loadImm 0x20 [0x01020304, 0x05060708], .operation 0x82500404, .jump 0xA2000001,
        .loadImm 0x08 [0x00000001], .operation 0x82501000] :=
  parseDescriptor_append rfl rfl rfl rfl rest

end

/-! ## Whole programs -/

/-- `caam_open` consists of accesses to registers, the set-up of the rings, and one job. -/
lemma relates_caamOpen_of_parts {R : Machine → Machine → Prop} [Std.Refl R] [IsTrans Machine R]
    (hclk : Prog.Relates R (caamClkGet E)) (hrings : Prog.Relates R (setupJobRings E))
    (hreadl : ∀ reg, Prog.Relates R (readl E reg))
    (hwritel : ∀ {reg}, .ccgr ≠ reg → ∀ val, Prog.Relates R (writel reg val))
    (hinst : Prog.Relates R (submit E rngInstDsc)) : Prog.Relates R (caamOpen E) := by
  have hupdate : ∀ reg (f : Word → Word) (k : Unit → Drv Unit), .ccgr ≠ reg →
      (∀ u, Prog.Relates R (k u)) →
      Prog.Relates R (do let val ← readl E reg; let u ← writel reg (f val); k u) := by
    intro reg f k hreg hk
    exact .bind (hreadl reg) fun val => .bind (hwritel hreg _) hk
  refine .bind hclk fun _ => .bind hrings fun _ => ?_
  refine hupdate .jrcfgr0Ls _ _ (by decide) fun _ => ?_
  refine .bind (hreadl _) fun rdsta => .ite ?_ (.of_pure _)
  refine .bind (hwritel (by decide) _) fun _ => ?_
  refine hupdate .rtmctl _ _ (by decide) fun _ => ?_
  refine .bind (hwritel (by decide) _) fun _ => ?_
  refine .bind (hwritel (by decide) _) fun _ => ?_
  refine .bind (hwritel (by decide) _) fun _ => ?_
  refine hupdate .rtmctl _ _ (by decide) fun _ => ?_
  refine hupdate .rtmctl _ _ (by decide) fun _ => ?_
  refine .bind hinst fun ok => ?_
  refine .bind (.of_check _ _) fun _ => ?_
  exact .bind (hreadl _) fun _ => .of_check _ _

/-- The clocks are left alone as well. -/
structure Still (acts : List Act) (m m' : Machine) : Prop extends Quiet acts m m' where
  ccgr : m'.ccgr = m.ccgr
  noClk : ∀ val, .writel .ccgr val ∉ acts

/-- Everything the driver does besides running jobs keeps the relation. -/
structure Beside (E : Platform) (R : Machine → Machine → Prop) : Prop where
  still : ∀ acts m m', Still acts m m' → R m m'
  clk : Prog.Relates R (caamClkGet E)

/-- It does when whatever leaves the engine alone does. -/
lemma Beside.of_quiet {R : Machine → Machine → Prop}
    (h : ∀ acts m m', Quiet acts m m' → R m m') : Beside E R where
  still acts m m' hstill := h acts m m' hstill.toQuiet
  clk m := h [.writel .ccgr _] m _ ⟨rfl, rfl, rfl, rfl, by simp [NoStart]⟩

section

variable {R : Machine → Machine → Prop} (h : Beside E R)
include h

lemma relates_act {a : Act} (ha : ∀ dsc used, .start dsc used ≠ a)
    (hclk : ∀ val, .writel .ccgr val ≠ a) : Prog.Relates R (act a) :=
  fun m => h.still [a] m _ {
    trace := rfl
    mem := rfl
    drawn := rfl
    nJob := rfl
    noStart := fun dsc used hmem => ha dsc used (List.mem_singleton.mp hmem)
    ccgr := rfl
    noClk := fun val hmem => hclk val (List.mem_singleton.mp hmem) }

lemma relates_writel {reg : Reg} (hreg : .ccgr ≠ reg) (val : Word) :
    Prog.Relates R (writel reg val) :=
  relates_act h (by simp) fun _ heq => hreg (Act.writel.inj heq).1

lemma relates_finishDma (va : ℕ) (len : Word) (dir : Dir) :
    Prog.Relates R (finishDma va len dir) := relates_act h (by simp) (by simp)

lemma relates_readl (reg : Reg) : Prog.Relates R (readl E reg) :=
  fun m => h.still [] m _ ⟨⟨rfl, rfl, rfl, rfl, by simp [NoStart]⟩, rfl, by simp⟩

lemma relates_prepareDma (va : ℕ) (len : Word) (dir : Dir) (allowPartial : Bool) :
    Prog.Relates R (prepareDma E va len dir allowPartial) :=
  fun m => h.still [.prepare va len dir allowPartial (E.prep m.nPrep va len dir allowPartial)] m _
    ⟨⟨rfl, rfl, rfl, rfl, by simp [NoStart]⟩, rfl, by simp⟩

lemma relates_setJob [IsTrans Machine R] (words : List Word) : Prog.Relates R (setJob E words) := by
  refine .bind (fun m => h.still [] m _ ⟨⟨rfl, rfl, rfl, rfl, by simp [NoStart]⟩, rfl, by simp⟩)
    fun _ => ?_
  exact relates_act h (by simp) (by simp)

variable [Std.Refl R] [IsTrans Machine R]

lemma relates_prepareAll (bufs : List Buf) : Prog.Relates R (prepareAll E bufs) := by
  induction bufs with
  | nil => exact .of_pure _
  | cons b bs ih =>
    refine .bind (relates_prepareDma h _ _ _ _) fun pmem => .ite (.of_pure _) ?_
    exact .bind ih fun _ => .of_pure _

lemma relates_setupJobRings : Prog.Relates R (setupJobRings E) := by
  refine .bind (fun m => h.still [] m _ ⟨⟨rfl, rfl, rfl, rfl, by simp [NoStart]⟩, rfl, by simp⟩)
    fun _ => ?_
  refine .bind (relates_act h (by simp) (by simp)) fun _ => ?_
  refine .bind (relates_prepareDma h _ _ _ _) fun pmem => ?_
  refine .bind (.of_check _ _) fun _ => ?_
  refine .bind (relates_writel h (by decide) _) fun _ => ?_
  refine .bind (relates_writel h (by decide) _) fun _ => ?_
  refine .bind (relates_writel h (by decide) _) fun _ => ?_
  exact relates_writel h (by decide) _

lemma relates_linkJob : Prog.Relates R (linkJob E) := by
  intro m
  have hlink : Prog.Relates R (do
      let pmem ← prepareDma E E.gJobDsc (m.dscUsed * 4) .toDevice false
      Prog.check (pmem.ret = 1) .abort
      let jobPa := BitVec.ofNat 32 pmem.paddr
      Prog.modify fun m => { m with ringOut0 := 0, ringOut1 := 0, ringIn := jobPa }
      act (.write E.gRings 12)
      let pmem ← prepareDma E E.gRings sizeofGRings .toDevice false
      Prog.check (pmem.ret = 1) .abort
      return jobPa : Drv Word) := by
    refine .bind (relates_prepareDma h _ _ _ _) fun pmem => .bind (.of_check _ _) fun _ => ?_
    refine .bind (fun m => h.still [] m _ ⟨⟨rfl, rfl, rfl, rfl, by simp [NoStart]⟩, rfl, by simp⟩)
      fun _ => ?_
    refine .bind (relates_act h (by simp) (by simp)) fun _ => ?_
    refine .bind (relates_prepareDma h _ _ _ _) fun pmem => ?_
    exact .bind (.of_check _ _) fun _ => .of_pure _
  exact hlink m

lemma relates_collectJob (job : ℕ) (jobPa : Word) : Prog.Relates R (collectJob E job jobPa) := by
  have hout : ∀ m : Machine, Prog.Relates R (do
      Prog.check (m.ringOut0 = jobPa) .abort
      Prog.modify fun m => { m with status := m.ringOut1 }
      writel .orjrr0 1 : Drv Unit) := by
    intro m
    refine .bind (.of_check _ _) fun _ => ?_
    refine .bind (fun m => h.still [] m _ ⟨⟨rfl, rfl, rfl, rfl, by simp [NoStart]⟩, rfl, by simp⟩)
      fun _ => ?_
    exact relates_writel h (by decide) _
  have hwait : Prog.Relates R (waitJob E job) :=
    .bind (relates_act h (by simp) (by simp)) fun _ => .of_check _ _
  refine .bind hwait fun _ => .bind (relates_finishDma h _ _ _) fun _ => ?_
  exact .bind (fun m => Std.Refl.refl m) hout

/-- `caam_open` is harmless when its only job is. -/
lemma relates_caamOpen (hinst : Prog.Relates R (submit E rngInstDsc)) :
    Prog.Relates R (caamOpen E) :=
  relates_caamOpen_of_parts h.clk (relates_setupJobRings h) (relates_readl h) (relates_writel h)
    hinst

variable (hsubmit : ∀ words, Prog.Relates R (submit E words))
include hsubmit

lemma relates_dataOp (bufs : List Buf) (dsc : (ℕ → Word) → List Word) (out : ℕ) (outLen : Word) :
    Prog.Relates R (dataOp E bufs dsc out outLen) := by
  refine .bind (relates_prepareAll h bufs) fun pas => ?_
  cases pas with
  | none => exact .of_pure _
  | some pas =>
    refine .bind (hsubmit _) fun ok => .ite ?_ (.of_pure _)
    exact .bind (relates_finishDma h _ _ _) fun _ => .of_pure _

lemma relates_hwrngLoop (rounds out : ℕ) (len : Word) :
    Prog.Relates R (hwrngLoop E rounds out len) := by
  induction rounds generalizing out len with
  | zero => exact .ite (.of_pure _) (.of_stop _)
  | succ rounds ih =>
    refine .ite (.of_pure _) (.bind (relates_prepareDma h _ _ _ _) fun pmem => ?_)
    refine .ite (.of_pure _) (.bind (hsubmit _) fun ok => .ite ?_ (.of_pure _))
    exact .bind (relates_finishDma h _ _ _) fun _ => ih _ _

/-- An operation is made of steps in which the engine is idle and of jobs. -/
lemma Op.relates (op : Op) : Prog.Relates R (op.run E) := by
  cases op with
  | caamOpen => exact .bind (relates_caamOpen h (hsubmit _)) fun _ => .of_pure _
  | decapBlob =>
    exact .bind (.of_check _ _) fun _ => .bind (.of_check _ _) fun _ =>
      relates_dataOp h hsubmit _ _ _ _
  | genBlob =>
    exact .bind (.of_check _ _) fun _ => .bind (.of_check _ _) fun _ =>
      relates_dataOp h hsubmit _ _ _ _
  | aesOp =>
    exact .bind (.of_check _ _) fun _ => .bind (.of_check _ _) fun _ =>
      .bind (.of_check _ _) fun _ => relates_dataOp h hsubmit _ _ _ _
  | hwrng out len => exact relates_hwrngLoop h hsubmit _ _ _
  | hash =>
    exact .bind (.of_check _ _) fun _ => relates_dataOp h hsubmit _ _ _ _
  | genKdfv1RootKey =>
    exact .bind (.of_check _ _) fun _ => relates_dataOp h hsubmit _ _ _ _

lemma relates_runOps (ops : List Op) : Prog.Relates R (runOps E ops) := by
  induction ops with
  | nil => exact .of_pure _
  | cons op ops ih => exact .bind (op.relates h hsubmit) fun _ => ih

end

end TrustyLkNxp.Caam
