import TrustyLkNxp.Lib.Hoare
import TrustyLkNxp.Caam.Steps

/-!
# The protocol of the job ring

The driver and the engine share a ring of one entry.  The hardware asks of the driver that it
sets the ring up while no job is in it, adds a job only to a ring that is set up and has room,
leaves the memory it shares with the engine alone until it has seen the job complete, and removes
no more results than it has seen.  Here this is an automaton that reads what the driver did, and
every run of the driver is accepted by it.
-/

namespace TrustyLkNxp.Caam

variable {E : Platform}

/-! ## The automaton -/

/-- What the engine was told about its job ring. -/
structure Ring where
  irbar : Option Word
  orbar : Option Word
  irsr : Option Word
  orsr : Option Word
  /-- Jobs that were added, and whose results were not removed. -/
  jobs : ℕ
  /-- How many of them the driver has seen complete. -/
  done : ℕ
deriving DecidableEq, Repr

namespace Ring

/-- After a reset nothing is set up. -/
def reset : Ring := ⟨none, none, none, none, 0, 0⟩

/-- Each of the two rings has room for one entry, and they lie behind each other as in
`struct caam_job_rings`. -/
def Ready (r : Ring) : Prop :=
  r.irsr = some 1 ∧ r.orsr = some 1 ∧ r.irbar.isSome ∧ r.orbar = r.irbar.map (· + 4)

instance : DecidablePred Ready := fun _ => inferInstanceAs (Decidable (_ ∧ _ ∧ _ ∧ _))

/-- Go on to `r` only when `c` holds. -/
def guarded (c : Prop) [Decidable c] (r : Ring) : Option Ring := if c then some r else none

/-- What the protocol allows, and what it leads to. The CPU hands memory over while no job is in
the ring, and takes it back when every job in the ring was seen complete. -/
def step (r : Ring) : Act → Option Ring
  | .writel .irbar0 val => guarded (r.jobs = 0) { r with irbar := some val }
  | .writel .orbar0 val => guarded (r.jobs = 0) { r with orbar := some val }
  | .writel .irsr0 val => guarded (r.jobs = 0) { r with irsr := some val }
  | .writel .orsr0 val => guarded (r.jobs = 0) { r with orsr := some val }
  | .writel .irjar0 val =>
    guarded (r.Ready ∧ r.jobs + val.toNat ≤ 1) { r with jobs := r.jobs + val.toNat }
  | .writel .orjrr0 val =>
    guarded (val.toNat ≤ r.done)
      { r with jobs := r.jobs - val.toNat, done := r.done - val.toNat }
  | .writel _ _ => some r
  | .start _ _ => guarded (r.jobs = 1 ∧ r.done = 0) r
  | .polled slots => some { r with done := slots.toNat }
  | .write _ _ => guarded (r.jobs = 0) r
  | .prepare _ _ _ _ _ => guarded (r.jobs = 0) r
  | .finish _ _ _ => guarded (r.jobs = r.done) r

/-- The ring after what was done, the latest first, if all of it was allowed. -/
def after : List Act → Option Ring
  | [] => some reset
  | a :: acts => (after acts).bind (·.step a)

/-- What is accepted was accepted at every point before. -/
lemma after_of_suffix {acts acts' : List Act} (h : acts <:+ acts') (hsome : (after acts').isSome) :
    (after acts).isSome := by
  obtain ⟨post, rfl⟩ := h
  induction post with
  | nil => exact hsome
  | cons a post ih =>
    obtain ⟨r, hr⟩ := Option.isSome_iff_exists.mp hsome
    obtain ⟨r', hr', -⟩ := Option.bind_eq_some_iff.mp hr
    exact ih (Option.isSome_iff_exists.mpr ⟨r', hr'⟩)

/-- No job is in the ring. -/
structure Empty (r : Ring) : Prop where
  jobs : r.jobs = 0
  done : r.done = 0

/-- It is set up, and no job is in it. -/
structure Idle (r : Ring) : Prop extends Empty r where
  ready : r.Ready

/-- A job is in it, and the driver has not seen it complete. -/
structure Busy (r : Ring) : Prop where
  jobs : r.jobs = 1
  done : r.done = 0
  ready : r.Ready

/-- A job is in it, and the driver has seen it complete. -/
structure Complete (r : Ring) : Prop where
  jobs : r.jobs = 1
  done : r.done = 1
  ready : r.Ready

end Ring

/-- What was done so far was allowed, and the ring is in `P`. -/
def InRing (P : Ring → Prop) (m : Machine) : Prop := ∃ r, Ring.after m.trace = some r ∧ P r

/-- Where the driver may stop. -/
abbrev AtMostOne : Machine → Prop := InRing (·.jobs ≤ 1)

/-- A program goes from `P` to `Q`, and where it stops there is at most one job in the ring. -/
abbrev Leads {α : Type} (P : Ring → Prop) (x : Drv α) (Q : Ring → Prop) : Prop :=
  Prog.Triple (InRing P) x (fun _ => InRing Q) AtMostOne

open Prog

/-! ## The parts of the driver -/

section

variable {P Q : Ring → Prop}

lemma leads_act {a : Act} (h : ∀ r, P r → ∃ r', r.step a = some r' ∧ Q r') : Leads P (act a) Q := by
  rintro m ⟨r, hr, hP⟩
  obtain ⟨r', hstep, hQ⟩ := h r hP
  refine ⟨r', ?_, hQ⟩
  change (Ring.after m.trace).bind (·.step a) = some r'
  rw [hr, Option.bind_some, hstep]

/-- What leaves no trace does not change the ring. -/
lemma leads_modify {g : Machine → Machine} (h : ∀ m, (g m).trace = m.trace) :
    Leads P (modify g) P := by
  refine .of_modify ?_
  rintro m ⟨r, hr, hP⟩
  exact ⟨r, by rw [h m, hr], hP⟩

lemma leads_get : Leads P (Prog.get : Drv Machine) P := .of_get fun _ h => h

lemma leads_pure {α : Type} (a : α) : Leads P (pure a : Drv α) P := .of_pure fun _ h => h

lemma InRing.mono {m : Machine} (h : InRing P m) (hPQ : ∀ r, P r → Q r) : InRing Q m := by
  obtain ⟨r, hr, hP⟩ := h
  exact ⟨r, hr, hPQ r hP⟩

lemma leads_check (h : ∀ r, P r → r.jobs ≤ 1) (c : Prop) [Decidable c] (e : Halt) :
    Leads P (check c e) P :=
  .of_check (fun _ hm _ => hm) fun _ hm => hm.mono h

lemma leads_readl (E : Platform) (reg : Reg) : Leads P (readl E reg) P :=
  .bind leads_get fun _ => .bind (leads_modify fun _ => rfl) fun _ => leads_pure _

/-- Memory may be handed over while no job is in the ring. -/
lemma leads_prepareDma (E : Platform) (h : ∀ r, P r → r.jobs = 0) (va : ℕ) (len : Word) (dir : Dir)
    (allowPartial : Bool) : Leads P (prepareDma E va len dir allowPartial) P := by
  refine .bind leads_get fun _ => .bind (leads_modify fun _ => rfl) fun _ => ?_
  exact .bind (leads_act fun r hr => ⟨r, if_pos (h r hr), hr⟩) fun _ => leads_pure _

lemma leads_write (h : ∀ r, P r → r.jobs = 0) (va len : ℕ) : Leads P (act (.write va len)) P :=
  leads_act fun r hr => ⟨r, if_pos (h r hr), hr⟩

/-- Memory is taken back when every job in the ring was seen complete. -/
lemma leads_finishDma (h : ∀ r, P r → r.jobs = r.done) (va : ℕ) (len : Word) (dir : Dir) :
    Leads P (finishDma va len dir) P :=
  leads_act fun r hr => ⟨r, if_pos (h r hr), hr⟩

lemma leads_caamClkGet (E : Platform) : Leads P (caamClkGet E) P :=
  .bind leads_get fun _ => .bind (leads_modify fun _ => rfl) fun _ =>
    leads_act fun r hr => ⟨r, rfl, hr⟩

end

lemma Ring.Empty.le {r : Ring} (h : r.Empty) : r.jobs ≤ 1 := h.jobs.trans_le zero_le_one

lemma Ring.Empty.eq {r : Ring} (h : r.Empty) : r.jobs = r.done := h.jobs.trans h.done.symm

lemma Ring.Idle.no_jobs {r : Ring} (h : r.Idle) : r.jobs = 0 := h.jobs

lemma Ring.Idle.le {r : Ring} (h : r.Idle) : r.jobs ≤ 1 := h.toEmpty.le

lemma Ring.Idle.eq {r : Ring} (h : r.Idle) : r.jobs = r.done := h.toEmpty.eq

/-! ## A job goes through the ring -/

variable (E)

lemma leads_linkJob : Leads Ring.Idle (linkJob E) Ring.Idle := by
  refine .bind leads_get fun _ => ?_
  refine .bind (leads_prepareDma E (fun _ => Ring.Idle.no_jobs) _ _ _ _) fun _ => ?_
  refine .bind (leads_check (fun _ => Ring.Idle.le) _ _) fun _ => ?_
  refine .bind (leads_modify fun _ => rfl) fun _ => ?_
  refine .bind (leads_write (fun _ => Ring.Idle.no_jobs) _ _) fun _ => ?_
  refine .bind (leads_prepareDma E (fun _ => Ring.Idle.no_jobs) _ _ _ _) fun _ => ?_
  exact .bind (leads_check (fun _ => Ring.Idle.le) _ _) fun _ => leads_pure _

lemma engine_trace (m : Machine) : (engine E m).trace = m.trace := by
  rw [engine]
  dsimp only
  split <;> rfl

/-- The job is added to an idle ring. -/
lemma leads_startEngine : Leads Ring.Idle (startEngine E) Ring.Busy := by
  have hadd : Leads Ring.Idle (writel .irjar0 1) Ring.Busy := by
    refine leads_act fun r hr => ⟨{ r with jobs := r.jobs + 1 }, ?_, ?_, hr.done, hr.ready⟩
    · exact if_pos ⟨hr.ready, by rw [hr.jobs]; decide⟩
    · exact congrArg (· + 1) hr.jobs
  refine .bind hadd fun _ => .bind leads_get fun _ => ?_
  refine .bind (leads_act fun r hr => ⟨r, if_pos ⟨hr.jobs, hr.done⟩, hr⟩) fun _ => ?_
  exact leads_modify (engine_trace E)

/-- The driver goes on only once it has seen the job complete. -/
lemma leads_waitJob (job : ℕ) : Leads Ring.Busy (waitJob E job) Ring.Complete := by
  let slots : Word := if (E.job job).completes then 1 else 0
  have hread : Leads Ring.Busy (act (.polled slots))
      fun r => r.jobs = 1 ∧ r.done = slots.toNat ∧ r.Ready :=
    leads_act fun r hr => ⟨{ r with done := slots.toNat }, rfl, hr.jobs, rfl, hr.ready⟩
  refine .bind hread fun _ => .of_check ?_ ?_
  · rintro m ⟨r, hr, hjobs, hdone, hready⟩ hone
    exact ⟨r, hr, hjobs, hdone.trans (congrArg BitVec.toNat hone), hready⟩
  · rintro m ⟨r, hr, hjobs, -⟩
    exact ⟨r, hr, hjobs.le⟩

/-- Then its result is removed. -/
lemma leads_collectJob (job : ℕ) (jobPa : Word) :
    Leads Ring.Busy (collectJob E job jobPa) Ring.Idle := by
  have heq : ∀ r : Ring, r.Complete → r.jobs = r.done := fun r hr => hr.jobs.trans hr.done.symm
  refine .bind (leads_waitJob E job) fun _ => .bind (leads_finishDma heq _ _ _) fun _ => ?_
  refine .bind leads_get fun _ => .bind (leads_check (fun _ hr => hr.jobs.le) _ _) fun _ => ?_
  refine .bind (leads_modify fun _ => rfl) fun _ => leads_act fun r hr => ?_
  refine ⟨{ r with jobs := r.jobs - 1, done := r.done - 1 }, if_pos hr.done.ge, ⟨?_, ?_⟩, hr.ready⟩
  · exact congrArg (· - 1) hr.jobs
  · exact congrArg (· - 1) hr.done

lemma leads_runJob : Leads Ring.Idle (runJob E) Ring.Idle := by
  refine .bind (leads_linkJob E) fun pa => .bind (leads_caamClkGet E) fun _ => ?_
  refine .bind leads_get fun _ => .bind (leads_startEngine E) fun _ => ?_
  exact leads_collectJob E _ _

lemma leads_submit (words : List Word) : Leads Ring.Idle (submit E words) Ring.Idle := by
  have hset : Leads Ring.Idle (setJob E words) Ring.Idle :=
    .bind (leads_modify fun _ => rfl) fun _ => leads_write (fun _ => Ring.Idle.no_jobs) _ _
  refine .bind hset fun _ => .bind (leads_runJob E) fun _ => ?_
  exact .bind leads_get fun _ => leads_pure _

/-! ## The operations -/

lemma leads_prepareAll (bufs : List Buf) : Leads Ring.Idle (prepareAll E bufs) Ring.Idle := by
  induction bufs with
  | nil => exact leads_pure _
  | cons b bs ih =>
    refine .bind (leads_prepareDma E (fun _ => Ring.Idle.no_jobs) _ _ _ _) fun _ => ?_
    exact .ite (fun _ => leads_pure _) fun _ => .bind ih fun _ => leads_pure _

lemma leads_dataOp (bufs : List Buf) (dsc : (ℕ → Word) → List Word) (out : ℕ) (outLen : Word) :
    Leads Ring.Idle (dataOp E bufs dsc out outLen) Ring.Idle := by
  refine .bind (leads_prepareAll E bufs) fun pas => ?_
  cases pas with
  | none => exact leads_pure _
  | some pas =>
    refine .bind (leads_submit E _) fun _ => .ite (fun _ => ?_) fun _ => leads_pure _
    exact .bind (leads_finishDma (fun _ => Ring.Idle.eq) _ _ _) fun _ => leads_pure _

lemma leads_hwrngLoop (rounds out : ℕ) (len : Word) :
    Leads Ring.Idle (hwrngLoop E rounds out len) Ring.Idle := by
  induction rounds generalizing out len with
  | zero =>
    refine .ite (fun _ => leads_pure _) fun _ => .of_stop fun _ h => ?_
    exact h.mono fun _ => Ring.Idle.le
  | succ rounds ih =>
    refine .ite (fun _ => leads_pure _) fun _ => ?_
    refine .bind (leads_prepareDma E (fun _ => Ring.Idle.no_jobs) _ _ _ _) fun _ => ?_
    refine .ite (fun _ => leads_pure _) fun _ => .bind (leads_submit E _) fun _ => ?_
    refine .ite (fun _ => ?_) fun _ => leads_pure _
    exact .bind (leads_finishDma (fun _ => Ring.Idle.eq) _ _ _) fun _ => ih _ _

/-- The rings are set up while no job is in them. -/
lemma leads_setupJobRings : Leads Ring.Empty (setupJobRings E) Ring.Idle := by
  refine .bind (leads_modify fun _ => rfl) fun _ => ?_
  refine .bind (leads_write (fun _ => Ring.Empty.jobs) _ _) fun _ => ?_
  refine .bind (leads_prepareDma E (fun _ => Ring.Empty.jobs) _ _ _ _) fun pmem => ?_
  refine .bind (leads_check (fun _ => Ring.Empty.le) _ _) fun _ => ?_
  let pa := BitVec.ofNat 32 pmem.paddr
  have hin : Leads Ring.Empty (writel .irbar0 (pa + 0))
      fun r => r.Empty ∧ r.irbar = some pa :=
    leads_act fun r hr => ⟨_, if_pos hr.jobs, ⟨hr.jobs, hr.done⟩, by simp⟩
  have hout : Leads (fun r => r.Empty ∧ r.irbar = some pa) (writel .orbar0 (pa + 4))
      fun r => r.Empty ∧ r.irbar = some pa ∧ r.orbar = some (pa + 4) :=
    leads_act fun r hr => ⟨_, if_pos hr.1.jobs, ⟨hr.1.jobs, hr.1.done⟩, hr.2, rfl⟩
  have hinSize : Leads (fun r => r.Empty ∧ r.irbar = some pa ∧ r.orbar = some (pa + 4))
      (writel .irsr0 1)
      fun r => r.Empty ∧ r.irbar = some pa ∧ r.orbar = some (pa + 4) ∧ r.irsr = some 1 :=
    leads_act fun r hr => ⟨_, if_pos hr.1.jobs, ⟨hr.1.jobs, hr.1.done⟩, hr.2.1, hr.2.2, rfl⟩
  refine .bind hin fun _ => .bind hout fun _ => .bind hinSize fun _ => leads_act ?_
  rintro r ⟨hempty, hirbar, horbar, hirsr⟩
  refine ⟨{ r with orsr := some 1 }, if_pos hempty.jobs, ⟨hempty.jobs, hempty.done⟩, hirsr, rfl,
    ?_, ?_⟩
  · simp [hirbar]
  · simp [hirbar, horbar]

lemma leads_caamOpen : Leads Ring.Empty (caamOpen E) Ring.Idle := by
  have hwritel : ∀ reg val, (∀ r : Ring, r.step (.writel reg val) = some r) →
      Leads Ring.Idle (writel reg val) Ring.Idle :=
    fun reg val h => leads_act fun r hr => ⟨r, h r, hr⟩
  have hupdate : ∀ reg (f : Word → Word) (k : Unit → Drv Unit),
      (∀ (r : Ring) val, r.step (.writel reg val) = some r) →
      (∀ u, Leads Ring.Idle (k u) Ring.Idle) →
      Leads Ring.Idle (do let val ← readl E reg; let u ← writel reg (f val); k u) Ring.Idle := by
    intro reg f k hreg hk
    exact .bind (leads_readl E reg) fun val => .bind (hwritel _ _ fun r => hreg r _) hk
  refine .bind (leads_caamClkGet E) fun _ => .bind (leads_setupJobRings E) fun _ => ?_
  refine hupdate .jrcfgr0Ls _ _ (fun _ _ => rfl) fun _ => ?_
  refine .bind (leads_readl E _) fun rdsta => .ite (fun _ => ?_) fun _ => leads_pure _
  refine .bind (hwritel _ _ fun _ => rfl) fun _ => ?_
  refine hupdate .rtmctl _ _ (fun _ _ => rfl) fun _ => ?_
  refine .bind (hwritel _ _ fun _ => rfl) fun _ => ?_
  refine .bind (hwritel _ _ fun _ => rfl) fun _ => ?_
  refine .bind (hwritel _ _ fun _ => rfl) fun _ => ?_
  refine hupdate .rtmctl _ _ (fun _ _ => rfl) fun _ => ?_
  refine hupdate .rtmctl _ _ (fun _ _ => rfl) fun _ => ?_
  refine .bind (leads_submit E _) fun ok => ?_
  refine .bind (leads_check (fun _ => Ring.Idle.le) _ _) fun _ => ?_
  exact .bind (leads_readl E _) fun _ => leads_check (fun _ => Ring.Idle.le) _ _

lemma Op.leads (op : Op) : Leads Ring.Idle (op.run E) Ring.Idle := by
  have hcheck : ∀ (c : Prop) [Decidable c] (e : Halt), Leads Ring.Idle (check c e) Ring.Idle :=
    fun c _ e => leads_check (fun _ => Ring.Idle.le) c e
  cases op with
  | caamOpen =>
    have hopen : Leads Ring.Idle (Caam.caamOpen E) Ring.Idle :=
      (leads_caamOpen E).mono (fun _ h => h.mono fun _ => Ring.Idle.toEmpty) fun _ _ h => h
    exact .bind hopen fun _ => leads_pure _
  | decapBlob =>
    refine .bind (hcheck _ _) fun _ => .bind (hcheck _ _) fun _ => ?_
    exact leads_dataOp E _ _ _ _
  | genBlob =>
    refine .bind (hcheck _ _) fun _ => .bind (hcheck _ _) fun _ => ?_
    exact leads_dataOp E _ _ _ _
  | aesOp =>
    refine .bind (hcheck _ _) fun _ => .bind (hcheck _ _) fun _ => .bind (hcheck _ _) fun _ => ?_
    exact leads_dataOp E _ _ _ _
  | hwrng => exact leads_hwrngLoop E _ _ _
  | hash => exact .bind (hcheck _ _) fun _ => leads_dataOp E _ _ _ _
  | genKdfv1RootKey => exact .bind (hcheck _ _) fun _ => leads_dataOp E _ _ _ _

lemma leads_runOps (ops : List Op) : Leads Ring.Idle (runOps E ops) Ring.Idle := by
  induction ops with
  | nil => exact leads_pure _
  | cons op ops ih => exact .bind (op.leads E) fun _ => ih

variable {E}

/-- Started on an engine in whose ring there is no job, whatever was done to it before, the driver
keeps the protocol of the ring at every point of every run, whether it returns or stops: when
it stops at most one job is left in the ring, and when it returns none. -/
theorem ring_protocol {m m' : Machine} {r : Ring} (hr : Ring.after m.trace = some r)
    (hempty : r.Empty) {ops : List Op} {res : Except Halt Unit}
    (h : runOps E (.caamOpen :: ops) m = (res, m')) :
    (∀ acts, acts <:+ m'.trace → (Ring.after acts).isSome) ∧
      ∃ r', Ring.after m'.trace = some r' ∧ r'.jobs ≤ 1 ∧ (res = .ok () → r'.Idle) := by
  have hrun : Leads Ring.Empty (runOps E (.caamOpen :: ops)) Ring.Idle :=
    .bind (.bind (leads_caamOpen E) fun _ => leads_pure _) fun _ => leads_runOps E ops
  have hm : InRing Ring.Empty m := ⟨r, hr, hempty⟩
  have hend : ∃ r', Ring.after m'.trace = some r' ∧ r'.jobs ≤ 1 ∧ (res = .ok () → r'.Idle) := by
    cases res with
    | error e =>
      obtain ⟨r', hr', hle⟩ := hrun.of_error hm h
      exact ⟨r', hr', hle, fun hok => absurd hok (by simp)⟩
    | ok _ =>
      obtain ⟨r', hr', hidle⟩ := hrun.of_ok hm h
      exact ⟨r', hr', hidle.le, fun _ => hidle⟩
  refine ⟨fun acts hacts => Ring.after_of_suffix hacts ?_, hend⟩
  obtain ⟨r', hr', -⟩ := hend
  rw [hr', Option.isSome_some]

namespace Demo

/-- The random number generator is ready only once it has been instantiated. -/
def waking : Platform :=
  { platform with
    read := fun n reg => if reg = .rdsta ∧ 2 ≤ n then rdstaIf0 ||| rdstaSkvn else 0 }

/-- The driver is opened, and eight random bytes are drawn. -/
def openAndDraw : List Op := [.caamOpen, .hwrng 0x4000 8]

end Demo

/-- The random number generator is instantiated and drawn from, and the driver returns: its jobs
were seen complete, and none of them is left in the ring. -/
theorem ring_protocol_openAndDraw : ∃ m' r',
    runOps Demo.waking Demo.openAndDraw Demo.machine = (.ok (), m') ∧
      Ring.after m'.trace = some r' ∧ r'.Idle ∧ m'.nJob = 2 ∧
        ∃ acts, acts <:+ m'.trace ∧ (Ring.after acts).map Ring.done = some 1 := by
  rcases hrun : runOps Demo.waking Demo.openAndDraw Demo.machine with ⟨res, m'⟩
  have hok : (runOps Demo.waking Demo.openAndDraw Demo.machine).1 = .ok () := by decide +kernel
  have hjobs : (runOps Demo.waking Demo.openAndDraw Demo.machine).2.nJob = 2 := by decide +kernel
  -- the second job is complete before its result is removed and its buffer handed back
  have hdone : (Ring.after ((runOps Demo.waking Demo.openAndDraw Demo.machine).2.trace.drop 2)).map
      Ring.done = some 1 := by decide +kernel
  rw [hrun] at hok hjobs hdone
  subst hok
  obtain ⟨-, r', hr', -, hidle⟩ := ring_protocol (r := .reset) rfl ⟨rfl, rfl⟩ hrun
  exact ⟨m', r', rfl, hr', hidle rfl, hjobs, _, List.drop_suffix 2 _, hdone⟩

end TrustyLkNxp.Caam
