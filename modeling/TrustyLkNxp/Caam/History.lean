import TrustyLkNxp.Caam.Steps

/-!
# Jobs do not depend on earlier jobs

All operations write their descriptors into the same words, over what an earlier one has left
there.  The words the engine is started on are those of the current call nevertheless: a
complete descriptor, made from the arguments of the call and what the kernel answered to it.
-/

namespace TrustyLkNxp.Caam

variable {E : Platform}

/-! ## The job of a call -/

/-- What a call of `prepare_dma` returned. -/
def Act.result : Act → Option Prepared
  | .prepare _ _ _ _ res => some res
  | _ => none

/-- What the calls of `prepare_dma` among some actions returned, the latest first. -/
def results (acts : List Act) : List Prepared := acts.filterMap Act.result

/-- The physical addresses of the buffers, in the order in which they were prepared. -/
def paddrs (res : List Prepared) (i : ℕ) : Word :=
  (res.reverse.map fun r => BitVec.ofNat 32 r.paddr).getD i 0

/-- The words of the job an operation runs once `prepare_dma` has returned `res`. -/
def Op.job : Op → List Prepared → List Word
  | .caamOpen, _ => rngInstDsc
  | .decapBlob _ _ _ _ size, res =>
    [0xB0800008, 0x14400010, paddrs res 0,
      0xF0000000 ||| (0x0000ffff &&& (size + caamKbHeaderLen)), paddrs res 1,
      0xF8000000 ||| (0x0000ffff &&& size), paddrs res 2, 0x860D0000]
  | .genBlob _ _ _ _ size, res =>
    [0xB0800008, 0x14400010, paddrs res 0,
      0xF0000000 ||| (0x0000ffff &&& size), paddrs res 1,
      0xF8000000 ||| (0x0000ffff &&& (size + caamKbHeaderLen)), paddrs res 2, 0x870D0000]
  | .aesOp _ _ _ _ len enc, res =>
    [0xb0800008, 0x02000010, paddrs res 0, if enc then 0x8210020D else 0x8210020C,
      0x22120000 ||| (0x0000ffff &&& len), paddrs res 1,
      0x60300000 ||| (0x0000ffff &&& len), paddrs res 2]
  | .hwrng _ _, res =>
    let pmem := res.headD ⟨0, 0, 0⟩
    [0xB0800004, 0x82500000, 0x60340000 ||| (0x0000ffff &&& pmem.size),
      BitVec.ofNat 32 pmem.paddr]
  | .hash _ _ len, res =>
    [0xB0800006, 0x8441000D, 0x24140000 ||| (0x0000ffff &&& len), paddrs res 0,
      0x54200000 ||| 20, paddrs res 1]
  | .genKdfv1RootKey _ _, res =>
    [0xB080000B, 0x14C00010, 0x7083A393, 0x2CC0C9F7, 0xFC5D2FC0, 0x2C4B04E7,
      0xF0000000, 0, 0xF8000030, paddrs res 0, 0x870D0002]

/-- The header of a job says how many words it has. -/
lemma Op.job_header (op : Op) (res : List Prepared) :
    field ((op.job res).headD 0) 0 7 = (op.job res).length := by
  have hblob : field 0xB0800008 0 7 = 8 := by decide
  cases op with
  | caamOpen => exact (by decide : field 0xB0800009 0 7 = 9)
  | decapBlob => exact hblob
  | genBlob => exact hblob
  | aesOp => exact hblob
  | hwrng => exact (by decide : field 0xB0800004 0 7 = 4)
  | hash => exact (by decide : field 0xB0800006 0 7 = 6)
  | genKdfv1RootKey => exact (by decide : field 0xB080000B 0 7 = 11)

/-- The words of a job are a complete descriptor. -/
lemma Op.job_parses (op : Op) (res : List Prepared) (rest : List Word) :
    ∃ cs, parseDescriptor (op.job res ++ rest) = some cs := by
  cases op with
  | caamOpen => exact ⟨_, parse_rngInst rest⟩
  | decapBlob => exact ⟨_, parse_blob (paddrs res) rest _ _ _ rfl⟩
  | genBlob => exact ⟨_, parse_blob (paddrs res) rest _ _ _ rfl⟩
  | aesOp _ _ _ _ len enc => exact ⟨_, parse_aes (paddrs res) rest len enc⟩
  | hwrng => exact ⟨_, parse_hwrng rest _ _⟩
  | hash _ _ len => exact ⟨_, parse_hash (paddrs res) rest len⟩
  | genKdfv1RootKey => exact ⟨_, parse_kdfv1 (paddrs res) rest⟩

lemma Op.job_length (op : Op) (res : List Prepared) :
    (BitVec.ofNat 32 (op.job res).length).toNat = (op.job res).length := by
  cases op <;> rfl

/-- The engine is started on a job of the call whose earlier actions are `acts`, the latest
first. -/
structure JobOf (E : Platform) (op : Op) (acts : List Act) (dsc : List Word) (used : Word) :
    Prop where
  /-- The words from the first to the one the header counts to are a complete descriptor. -/
  header : field (dsc.headD 0) 0 7 = used.toNat
  parses : ∃ cs, parseDescriptor dsc = some cs
  /-- The call has written all of them, and then prepared them for the engine. They are made
  from its arguments and what it had been returned when it wrote them. -/
  written : ∃ link earlier len res, acts = link ++ .write E.gJobDsc (4 * used.toNat) :: earlier ∧
    NoStart link ∧ .prepare E.gJobDsc len .toDevice false res ∈ link ∧ res.ret = 1 ∧
    len.toNat = 4 * used.toNat ∧ dsc.take used.toNat = op.job (results earlier)

/-- Every job among the actions of a call, the latest first, is one of the call. -/
def JobsOf (E : Platform) (op : Op) (acts : List Act) : Prop :=
  ∀ after dsc used before, acts = after ++ .start dsc used :: before → JobOf E op before dsc used

section

variable {op : Op} {acts new : List Act} {dsc : List Word} {used : Word}

lemma JobsOf.nil : JobsOf E op [] := by
  intro after dsc used before h
  exact absurd h (by simp)

lemma JobsOf.cons {a : Act} (ha : ∀ dsc used, a = .start dsc used → JobOf E op acts dsc used)
    (h : JobsOf E op acts) : JobsOf E op (a :: acts) := by
  intro after dsc used before heq
  rcases after with _ | ⟨b, after⟩
  · obtain ⟨rfl, rfl⟩ := List.cons.inj heq
    exact ha dsc used rfl
  · obtain ⟨rfl, rfl⟩ := List.cons.inj heq
    exact h after dsc used before rfl

lemma JobsOf.append (hnew : NoStart new) (h : JobsOf E op acts) : JobsOf E op (new ++ acts) := by
  induction new with
  | nil => exact h
  | cons a new ih =>
    have hrest : NoStart new := fun dsc used hmem => hnew dsc used (List.mem_cons_of_mem _ hmem)
    refine .cons ?_ (ih hrest)
    rintro dsc used rfl
    exact absurd List.mem_cons_self (hnew dsc used)

lemma JobsOf.of_noStart (h : NoStart acts) : JobsOf E op acts := by
  rw [← List.append_nil acts]
  exact .append h .nil

end

/-! ## The calls -/

/-- From `m₀`, where the call began, to `m` every job was one of the call. -/
def Since (E : Platform) (op : Op) (m₀ m : Machine) : Prop :=
  ∃ acts, m.trace = acts ++ m₀.trace ∧ JobsOf E op acts

/-- The jobs stay those of the call. -/
def StaysSince (E : Platform) (op : Op) (m₀ m m' : Machine) : Prop :=
  Since E op m₀ m → Since E op m₀ m'

section

variable {op : Op} {m₀ m m' : Machine} {acts : List Act}

instance : Std.Refl (StaysSince E op m₀) := ⟨fun _ h => h⟩

instance : IsTrans Machine (StaysSince E op m₀) := ⟨fun _ _ _ h h' hs => h' (h hs)⟩

lemma staysSince_quiet (hquiet : Quiet acts m m') : StaysSince E op m₀ m m' := by
  rintro ⟨before, htrace, hjobs⟩
  refine ⟨acts ++ before, ?_, hjobs.append hquiet.noStart⟩
  rw [hquiet.trace, htrace, List.append_assoc]

instance : Std.Refl (Since E op) := ⟨fun _ => ⟨[], rfl, .nil⟩⟩

/-- The words of a call, written and linked, are a job of the call. -/
lemma jobOf_submit {words rest : List Word} {dsc : List Word} {used val : Word}
    {res₁ res₂ : Prepared} (hret : res₁.ret = 1) (hwords : words = op.job (results acts))
    (hdsc : dsc = words ++ rest) (hused : used = BitVec.ofNat 32 words.length) :
    JobOf E op (submitActs E words val res₁ res₂ ++ acts) dsc used := by
  have hlen : used.toNat = words.length := by rw [hused, hwords, op.job_length]
  constructor
  · have hhead : dsc.headD 0 = words.headD 0 := by
      rw [hdsc, hwords]
      cases op <;> rfl
    rw [hhead, hlen, hwords, op.job_header]
  · rw [hdsc, hwords]
    exact op.job_parses _ rest
  · refine ⟨.writel .irjar0 1 :: .writel .ccgr val :: linkActs E used res₁ res₂, acts, used * 4,
      res₁, ?_, by simp [NoStart, linkActs], by simp [linkActs], hret, ?_, ?_⟩
    · rw [submitActs, hlen, hused]
      simp
    · rw [hlen, hused, hwords]
      cases op <;> rfl
    · rw [hdsc, hlen, List.take_left, hwords]

lemma since_submit {words : List Word} (htrace : m.trace = acts ++ m₀.trace)
    (hjobs : JobsOf E op acts) (hwords : words = op.job (results acts)) :
    Since E op m₀ (submit E words m).2 := by
  have hsub := submit_spec E words m
  rcases hrun : submit E words m with ⟨r, m'⟩
  rw [hrun] at hsub
  cases hsub with
  | unlinked hquiet => exact staysSince_quiet hquiet ⟨acts, htrace, hjobs⟩
  | @ran val res₁ res₂ post _ m₁ _ hpre hret hdsc hpost _ hused =>
    refine staysSince_quiet hpost ⟨.start m₁.dsc m₁.dscUsed ::
      (submitActs E words val res₁ res₂ ++ acts), ?_, ?_⟩
    · rw [fired_trace, hpre.trace, htrace]
      simp
    · refine .cons ?_ (hjobs.append hpre.noStart)
      rintro dsc used heq
      obtain ⟨rfl, rfl⟩ := Act.start.inj heq
      exact jobOf_submit hret.1 hwords hdsc hused

end

/-- The addresses an operation on whole buffers goes on with are those it was returned. -/
lemma PreparedAll.paddrs {bufs : List Buf} {acts : List Act} {pas : List Word}
    (h : PreparedAll E bufs acts pas) : paddrs (results acts) = (pas.getD · 0) := by
  have hpas : (results acts).reverse.map (fun r => BitVec.ofNat 32 r.paddr) = pas := by
    induction h with
    | nil => rfl
    | cons _ _ ih =>
      rw [results, List.filterMap_append, List.reverse_append, List.map_append]
      exact congrArg (_ :: ·) ih
  funext i
  rw [Caam.paddrs, hpas]

lemma since_dataOp {op : Op} {bufs : List Buf} {dsc : (ℕ → Word) → List Word} {out : ℕ}
    {outLen : Word} (hdsc : ∀ res, op.job res = dsc (paddrs res)) (m : Machine) :
    Since E op m (dataOp E bufs dsc out outLen m).2 := by
  obtain ⟨acts, m', hquiet, -, ⟨hnone, -⟩ | ⟨pas, hsome, hpas⟩⟩ := prepareAll_spec E bufs m
  · rw [dataOp, Prog.bind_of_ok hnone]
    exact staysSince_quiet hquiet (Std.Refl.refl m)
  · rw [dataOp, Prog.bind_of_ok hsome]
    have hsub : Since E op m (submit E (dsc (pas.getD · 0)) m').2 :=
      since_submit hquiet.trace (.of_noStart hquiet.noStart) (by rw [hdsc, hpas.paddrs])
    dsimp only
    rw [Prog.bind_apply]
    rcases hrun : submit E (dsc (pas.getD · 0)) m' with ⟨e | ok, m''⟩
    · rwa [hrun] at hsub
    · rw [hrun] at hsub
      have hrest : Prog.Relates (StaysSince E op m) (if ok = true then do
          finishDma out outLen .fromDevice
          return caamSuccess
        else return caamFailure : Drv Word) := by
        refine .ite (.bind ?_ fun _ => .of_pure _) (.of_pure _)
        exact relates_finishDma (E := E) (.of_quiet fun _ _ _ => staysSince_quiet) _ _ _
      exact hrest m'' hsub

lemma since_hwrngLoop {out₀ : ℕ} {len₀ : Word} {m₀ : Machine} (rounds out : ℕ) (len : Word)
    {m : Machine} (h : Since E (.hwrng out₀ len₀) m₀ m) :
    Since E (.hwrng out₀ len₀) m₀ (hwrngLoop E rounds out len m).2 := by
  induction rounds generalizing out len m with
  | zero =>
    rw [hwrngLoop]
    split <;> exact h
  | succ rounds ih =>
    by_cases hlen : len = 0
    · rw [hlen, hwrngLoop_of_zero]
      exact h
    obtain ⟨res, m₁, hres, hfirst, -, ⟨-, hloop⟩ | ⟨-, hloop⟩⟩ := hwrngLoop_succ rounds out hlen m
    · rw [hloop]
      exact staysSince_quiet hfirst h
    · obtain ⟨acts, htrace, hjobs⟩ := h
      have htrace₁ : m₁.trace = .prepare out len .fromDevice true res :: acts ++ m₀.trace := by
        rw [hfirst.trace, htrace]
        rfl
      have hsub : Since E (.hwrng out₀ len₀) m₀ (submit E [0xB0800004, 0x82500000,
          0x60340000 ||| (0x0000ffff &&& res.size), BitVec.ofNat 32 res.paddr] m₁).2 :=
        since_submit htrace₁ (hjobs.append hfirst.noStart) rfl
      rw [hloop, hwrngRound, Prog.bind_apply]
      rcases hrun : submit E [0xB0800004, 0x82500000, 0x60340000 ||| (0x0000ffff &&& res.size),
        BitVec.ofNat 32 res.paddr] m₁ with ⟨e | _ | _, m₂⟩
      · rwa [hrun] at hsub
      · rwa [hrun] at hsub
      · rw [hrun] at hsub
        have hfinish := relates_finishDma (R := StaysSince E (.hwrng out₀ len₀) m₀)
          (.of_quiet fun _ _ _ => staysSince_quiet : Beside E _) out res.size .fromDevice
        exact ih _ _ (hfinish m₂ hsub)

/-- Every job of a call is a job of its operation, whatever the call finds. -/
lemma Op.since (op : Op) (m : Machine) : Since E op m (op.run E m).2 := by
  cases op with
  | caamOpen =>
    have hinst : Prog.Relates (StaysSince E .caamOpen m) (submit E rngInstDsc) := by
      rintro m' ⟨acts, htrace, hjobs⟩
      exact since_submit htrace hjobs rfl
    have hopen := relates_caamOpen (.of_quiet fun _ _ _ => staysSince_quiet) hinst
    exact (hopen.bind fun _ => .of_pure caamSuccess) m (Std.Refl.refl m)
  | decapBlob =>
    refine Prog.relates_check fun _ => Prog.relates_check fun _ => ?_
    exact since_dataOp (fun _ => rfl) m
  | genBlob =>
    refine Prog.relates_check fun _ => Prog.relates_check fun _ => ?_
    exact since_dataOp (fun _ => rfl) m
  | aesOp =>
    refine Prog.relates_check fun _ => Prog.relates_check fun _ => Prog.relates_check fun _ => ?_
    exact since_dataOp (fun _ => rfl) m
  | hwrng out len => exact since_hwrngLoop _ _ _ (Std.Refl.refl m)
  | hash => exact Prog.relates_check fun _ => since_dataOp (fun _ => rfl) m
  | genKdfv1RootKey => exact Prog.relates_check fun _ => since_dataOp (fun _ => rfl) m

/-- The calls of a run, each with what the driver did during it, the latest action first. -/
def calls (E : Platform) : List Op → Machine → List (Op × List Act)
  | [], _ => []
  | op :: ops, m =>
    match op.run E m with
    | (.ok _, m') => (op, m.actsTo m') :: calls E ops m'
    | (.error _, m') => [(op, m.actsTo m')]

/-- The driver does nothing between the calls. -/
lemma runOps_trace (ops : List Op) (m : Machine) :
    (runOps E ops m).2.trace = ((calls E ops m).map Prod.snd).reverse.flatten ++ m.trace := by
  induction ops generalizing m with
  | nil => rfl
  | cons op ops ih =>
    obtain ⟨acts, htrace, -⟩ := op.since (E := E) m
    have hacts := Machine.actsTo_eq htrace
    rw [runOps, Prog.bind_apply, calls]
    rcases hrun : op.run E m with ⟨e | w, m'⟩
    · rw [hrun] at hacts htrace
      simpa [hacts] using htrace
    · rw [hrun] at hacts htrace
      simpa [hacts, ih m'] using htrace

/-- In every sequence of calls, from whatever the machine is like, every job the engine is
started on is one of the call that is running. -/
theorem jobs_independent (E : Platform) (ops : List Op) (m : Machine) :
    (runOps E ops m).2.trace = ((calls E ops m).map Prod.snd).reverse.flatten ++ m.trace ∧
      ∀ c ∈ calls E ops m, JobsOf E c.1 c.2 := by
  refine ⟨runOps_trace ops m, ?_⟩
  induction ops generalizing m with
  | nil => simp [calls]
  | cons op ops ih =>
    have hjobs : JobsOf E op (m.actsTo (op.run E m).2) := by
      obtain ⟨acts, htrace, hjobs⟩ := op.since (E := E) m
      rwa [Machine.actsTo_eq htrace]
    rw [calls]
    rcases hrun : op.run E m with ⟨e | w, m'⟩
    · rw [hrun] at hjobs
      exact List.forall_mem_singleton.mpr hjobs
    · rw [hrun] at hjobs
      exact List.forall_mem_cons.mpr ⟨hjobs, ih m'⟩

end TrustyLkNxp.Caam
