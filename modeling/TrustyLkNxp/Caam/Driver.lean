import TrustyLkNxp.Caam.Engine
import TrustyLkNxp.Lib.Prog

/-!
# The CAAM driver (`caam.c`)

Every operation prepares its buffers for DMA, writes a descriptor into the one job the driver
has, runs it and looks at its status.  The kernel (`prepare_dma`) and the engine are the
environment; what the driver does to them and to the memory they share is recorded.
-/

namespace TrustyLkNxp.Caam

open Memory

/-- What `prepare_dma` returns, and the `struct dma_pmem` it fills in. -/
structure Prepared where
  ret : ℤ
  paddr : ℕ
  size : Word

/-- The registers the driver uses. -/
inductive Reg
  | irbar0 | orbar0 | irsr0 | orsr0 | irjar0 | orsfr0 | orjrr0 | jrcfgr0Ls
  | rdsta | rtmctl | rtsdctl | rtfrqmin | rtfrqmax
  | ccgr
deriving DecidableEq, Repr

/-- What the driver does, as seen from outside. -/
inductive Act
  | prepare (va : ℕ) (len : Word) (dir : Dir) (allowPartial : Bool) (res : Prepared)
  | finish (va : ℕ) (len : Word) (dir : Dir)
  /-- The CPU writes to memory that the engine reads or writes. -/
  | write (va len : ℕ)
  | writel (reg : Reg) (val : Word)
  /-- The last reading of `CAAM_ORSFR0`: how many results are in the output ring. -/
  | polled (slots : Word)
  /-- The engine is started on the words in `g_job->dsc`, of which `used` are filled. -/
  | start (dsc : List Word) (used : Word)

/-- How a job ends. -/
structure JobEnd where
  /-- Whether the job ring ever reports that it is complete. -/
  completes : Bool
  status : Word
  /-- The address the engine puts into the output ring. -/
  outDesc : Word → Word
  /-- What a job that fails leaves in the memory it may write to. -/
  junk : ℕ → UInt8

/-- The machines the driver is built for. -/
inductive Mach
  | imx6
  | imx7
deriving DecidableEq, Repr

/-- The build, the kernel and the engine. Calls to `prepare_dma`, reads of registers and jobs
are numbered. Whatever the kernel answers, a loop of the driver is followed for as many rounds as
it should take and for `patience` rounds more. -/
structure Platform where
  mach : Mach
  core : Core
  /-- The physical address of a byte of the application. -/
  mmu : ℕ → ℕ
  prep : ℕ → ℕ → Word → Dir → Bool → Prepared
  read : ℕ → Reg → Word
  job : ℕ → JobEnd
  /-- The addresses of `g_job->dsc` and `g_rings`. -/
  gJobDsc : ℕ
  gRings : ℕ
  patience : ℕ

/-- Memory, the static data of the driver and the registers it writes back. The trace is the
history of what it did, the latest first. -/
structure Machine where
  mem : Mem
  /-- `g_job`. -/
  dsc : List Word
  dscUsed : Word
  status : Word
  /-- `g_rings`. -/
  ringIn : Word
  ringOut0 : Word
  ringOut1 : Word
  ccgr : Word
  /-- How many bytes the random number generator has yielded. -/
  drawn : ℕ
  nPrep : ℕ
  nRead : ℕ
  nJob : ℕ
  trace : List Act

/-- Why the driver does not return. -/
inductive Halt
  | abort
  | hang
deriving DecidableEq, Repr

/-- A part of the driver. -/
abbrev Drv := Prog Halt Machine

/-- `CAAM_KB_HEADER_LEN`. -/
def caamKbHeaderLen : Word := 48

/-- `CAAM_SUCCESS`. -/
def caamSuccess : Word := 0

/-- `CAAM_FAILURE`. -/
def caamFailure : Word := 1

/-- `JOB_RING_STS`. -/
def jobRingSts : Word := 0xF0000000

variable (E : Platform)

/-- Something is done that is seen from outside. -/
def act (a : Act) : Drv Unit := Prog.modify fun m => { m with trace := a :: m.trace }

/-- `writel`. -/
def writel (reg : Reg) (val : Word) : Drv Unit := act (.writel reg val)

/-- `readl`. -/
def readl (reg : Reg) : Drv Word := do
  let m ← Prog.get
  Prog.modify fun m => { m with nRead := m.nRead + 1 }
  return E.read m.nRead reg

/-- `prepare_dma`. -/
def prepareDma (va : ℕ) (len : Word) (dir : Dir) (allowPartial : Bool) : Drv Prepared := do
  let m ← Prog.get
  let res := E.prep m.nPrep va len dir allowPartial
  Prog.modify fun m => { m with nPrep := m.nPrep + 1 }
  act (.prepare va len dir allowPartial res)
  return res

/-- `finish_dma`. -/
def finishDma (va : ℕ) (len : Word) (dir : Dir) : Drv Unit := act (.finish va len dir)

/-! ## Jobs -/

instance (dsc : List Word) (a : ℕ) : Decidable (a ∈ writable dsc) :=
  decidable_of_iff (∃ g ∈ grants dsc, g.dir = .fromDevice ∧ g.addr ≤ a ∧ a < g.addr + g.len)
    (by simp [writable, Grant.range])

/-- The engine executes the job in the input ring. When it cannot, the status carries an error,
and there is junk where the descriptor allowed it to write. -/
def engine (m : Machine) : Machine :=
  let out := E.job m.nJob
  let done :=
    if out.completes ∧ out.status &&& jobRingSts = 0 then
      execDescriptor E.core m.nJob m.dsc m.mem m.drawn
    else none
  let m := { m with nJob := m.nJob + 1, ringOut0 := out.outDesc m.ringIn }
  match done with
  | some (mem, drawn) => { m with mem := mem, drawn := drawn, ringOut1 := out.status }
  | none =>
    { m with
      mem := fun a => if a ∈ writable m.dsc then out.junk a else m.mem a
      ringOut1 := out.status ||| 0x40000000 }

/-- `writel(1, CAAM_IRJAR0)`. -/
def startEngine : Drv Unit := do
  writel .irjar0 1
  let m ← Prog.get
  act (.start m.dsc m.dscUsed)
  Prog.modify (engine E)

/-- `caam_clk_get`. -/
def caamClkGet : Drv Unit := do
  let m ← Prog.get
  let val :=
    match E.mach with
    | .imx6 => m.ccgr ||| (3 <<< 8 ||| (if 3 < 10 then 1 else 0) ||| 3 <<< 12)
    | .imx7 => 3 <<< 0
  Prog.modify fun m => { m with ccgr := val }
  writel .ccgr val

/-- `sizeof(g_rings)`: the size of the pointer. -/
def sizeofGRings : Word := 4

/-- The first part of `run_job`: the job is prepared and added to the input ring. -/
def linkJob : Drv Word := do
  let m ← Prog.get
  let pmem ← prepareDma E E.gJobDsc (m.dscUsed * 4) .toDevice false
  Prog.check (pmem.ret = 1) .abort
  let jobPa := BitVec.ofNat 32 pmem.paddr
  Prog.modify fun m => { m with ringOut0 := 0, ringOut1 := 0, ringIn := jobPa }
  act (.write E.gRings 12)
  let pmem ← prepareDma E E.gRings sizeofGRings .toDevice false
  Prog.check (pmem.ret = 1) .abort
  return jobPa

/-- The loop of `run_job`: `CAAM_ORSFR0` is read until it is 1. -/
def waitJob (job : ℕ) : Drv Unit := do
  let slots : Word := if (E.job job).completes then 1 else 0
  act (.polled slots)
  Prog.check (slots = 1) .hang

/-- The last part of `run_job`: job number `job` is waited for and removed from the ring. -/
def collectJob (job : ℕ) (jobPa : Word) : Drv Unit := do
  waitJob E job
  finishDma (E.gRings + 4) 8 .fromDevice
  -- check that the descriptor address is the one expected in the out ring
  let m ← Prog.get
  Prog.check (m.ringOut0 = jobPa) .abort
  Prog.modify fun m => { m with status := m.ringOut1 }
  writel .orjrr0 1

/-- `run_job(g_job)`. -/
def runJob : Drv Unit := do
  let jobPa ← linkJob E
  caamClkGet E
  let m ← Prog.get
  startEngine E
  collectJob E m.nJob jobPa

/-- The assignments to `g_job->dsc` and `g_job->dsc_used`. Words behind the last one keep what an
earlier job left in them. -/
def setJob (words : List Word) : Drv Unit := do
  Prog.modify fun m =>
    { m with
      dsc := words ++ m.dsc.drop words.length
      dscUsed := BitVec.ofNat 32 words.length }
  act (.write E.gJobDsc (4 * words.length))

/-- Write and run a job; the result is whether its status is free of errors. -/
def submit (words : List Word) : Drv Bool := do
  setJob E words
  runJob E
  let m ← Prog.get
  return m.status &&& jobRingSts = 0

/-! ## Data operations -/

/-- A buffer of an operation. -/
structure Buf where
  va : ℕ
  len : Word
  dir : Dir

/-- Prepare the buffers, one after the other, and collect their physical addresses, until one
cannot be prepared. -/
def prepareAll : List Buf → Drv (Option (List Word))
  | [] => return some []
  | b :: bs => do
    let pmem ← prepareDma E b.va b.len b.dir false
    if pmem.ret ≠ 1 then
      return none
    let pas ← prepareAll bs
    return pas.map (BitVec.ofNat 32 pmem.paddr :: ·)

/-- The common shape of the operations on whole buffers: prepare them, run the descriptor made
from their physical addresses, hand the output back to the CPU. -/
def dataOp (bufs : List Buf) (dsc : (ℕ → Word) → List Word) (out : ℕ) (outLen : Word) :
    Drv Word := do
  match ← prepareAll E bufs with
  | none => return caamFailure
  | some pas =>
    if ← submit E (dsc (pas.getD · 0)) then
      finishDma out outLen .fromDevice
      return caamSuccess
    else
      return caamFailure

/-- `caam_decap_blob`. -/
def caamDecapBlob (kmod : ℕ) (kmodSize : Word) (plain blob : ℕ) (size : Word) : Drv Word := do
  Prog.check (size + caamKbHeaderLen < 0xFFFF) .abort
  Prog.check (kmodSize = 16) .abort
  dataOp E
    [⟨kmod, kmodSize, .toDevice⟩, ⟨blob, size + caamKbHeaderLen, .toDevice⟩,
      ⟨plain, size, .fromDevice⟩]
    (fun pa =>
      [0xB0800008, 0x14400010, pa 0,
        0xF0000000 ||| (0x0000ffff &&& (size + caamKbHeaderLen)), pa 1,
        0xF8000000 ||| (0x0000ffff &&& size), pa 2,
        0x860D0000])
    plain size

/-- `caam_gen_blob`. -/
def caamGenBlob (kmod : ℕ) (kmodSize : Word) (plain blob : ℕ) (size : Word) : Drv Word := do
  Prog.check (size + caamKbHeaderLen < 0xFFFF) .abort
  Prog.check (kmodSize = 16) .abort
  dataOp E
    [⟨kmod, kmodSize, .toDevice⟩, ⟨plain, size, .toDevice⟩,
      ⟨blob, size + caamKbHeaderLen, .fromDevice⟩]
    (fun pa =>
      [0xB0800008, 0x14400010, pa 0,
        0xF0000000 ||| (0x0000ffff &&& size), pa 1,
        0xF8000000 ||| (0x0000ffff &&& (size + caamKbHeaderLen)), pa 2,
        0x870D0000])
    blob (size + caamKbHeaderLen)

/-- `caam_aes_op`. -/
def caamAesOp (key : ℕ) (keySize : Word) (input output : ℕ) (len : Word) (enc : Bool) :
    Drv Word := do
  Prog.check (keySize = 16) .abort
  Prog.check (len ≤ 0xFFFF) .abort
  Prog.check (len % 16 = 0) .abort
  dataOp E
    [⟨key, keySize, .toDevice⟩, ⟨input, len, .toDevice⟩, ⟨output, len, .fromDevice⟩]
    (fun pa =>
      [0xb0800008, 0x02000010, pa 0,
        if enc then 0x8210020D else 0x8210020C,
        0x22120000 ||| (0x0000ffff &&& len), pa 1,
        0x60300000 ||| (0x0000ffff &&& len), pa 2])
    output len

/-- The loop of `caam_hwrng`, for a number of rounds. -/
def hwrngLoop : ℕ → ℕ → Word → Drv Word
  | 0, _, len => if len = 0 then return caamSuccess else Prog.stop .hang
  | rounds + 1, out, len =>
    if len = 0 then return caamSuccess
    else do
      let pmem ← prepareDma E out len .fromDevice true
      if pmem.ret ≠ 1 then
        return caamFailure
      if ← submit E
          [0xB0800004, 0x82500000, 0x60340000 ||| (0x0000ffff &&& pmem.size),
            BitVec.ofNat 32 pmem.paddr] then
        finishDma out pmem.size .fromDevice
        hwrngLoop rounds (out + pmem.size.toNat) (len - pmem.size)
      else
        return caamFailure

/-- `caam_hwrng`. Where every segment has a byte or more and none is longer than what is left,
there are at most as many rounds as bytes. -/
def caamHwrng (out : ℕ) (len : Word) : Drv Word := hwrngLoop E (len.toNat + E.patience) out len

/-- `caam_hash`. -/
def caamHash (input output : ℕ) (len : Word) : Drv Word := do
  Prog.check (len ≤ 0xFFFF) .abort
  dataOp E
    [⟨input, len, .toDevice⟩, ⟨output, len, .fromDevice⟩]
    (fun pa =>
      [0xB0800006, 0x8441000D,
        0x24140000 ||| (0x0000ffff &&& len), pa 0,
        0x54200000 ||| 20, pa 1])
    output len

/-- `caam_gen_kdfv1_root_key`. -/
def caamGenKdfv1RootKey (out : ℕ) (size : Word) : Drv Word := do
  Prog.check (size = 32) .abort
  dataOp E
    [⟨out, size, .fromDevice⟩]
    (fun pa =>
      [0xB080000B, 0x14C00010,
        -- salt
        0x7083A393, 0x2CC0C9F7, 0xFC5D2FC0, 0x2C4B04E7,
        0xF0000000, 0,
        0xF8000030, pa 0,
        0x870D0002])
    out size

/-! ## Start-up -/

/-- `setup_job_rings`. -/
def setupJobRings : Drv Unit := do
  Prog.modify fun m => { m with ringIn := 0, ringOut0 := 0, ringOut1 := 0 }
  act (.write E.gRings 12)
  let pmem ← prepareDma E E.gRings sizeofGRings .toDevice false
  Prog.check (pmem.ret = 1) .abort
  writel .irbar0 (BitVec.ofNat 32 pmem.paddr + 0)
  writel .orbar0 (BitVec.ofNat 32 pmem.paddr + 4)
  writel .irsr0 1
  writel .orsr0 1

/-- `rng_inst_dsc`. -/
def rngInstDsc : List Word :=
  [0xB0800009, 0x12A00008, 0x01020304, 0x05060708, 0x82500404, 0xA2000001, 0x10880004, 0x00000001,
    0x82501000]

/-- `RNG_TRIM_ENT_DLY`. -/
def rngTrimEntDly : Word := 3200

/-- `RTMCTL_PGM`. -/
def rtmctlPgm : Word := 1 <<< 16

/-- `RTMCTL_ERR`. -/
def rtmctlErr : Word := 1 <<< 12

/-- `RDSTA_IF0`. -/
def rdstaIf0 : Word := 1

/-- `RDSTA_SKVN`. -/
def rdstaSkvn : Word := 1 <<< 30

/-- `caam_open`. -/
def caamOpen : Drv Unit := do
  caamClkGet E
  setupJobRings E
  -- HAB disables interrupts for JR0 so do the same here
  writel .jrcfgr0Ls ((← readl E .jrcfgr0Ls) ||| 1)
  -- if RNG already instantiated then skip it
  if (← readl E .rdsta) &&& rdstaIf0 ≠ rdstaIf0 then
    writel .rtmctl rtmctlPgm
    writel .rtmctl ((← readl E .rtmctl) ||| (0 <<< 2))
    writel .rtsdctl (rngTrimEntDly <<< 16 ||| 0x09C4)
    writel .rtfrqmin (rngTrimEntDly >>> 1)
    writel .rtfrqmax (rngTrimEntDly <<< 4)
    writel .rtmctl ((← readl E .rtmctl) ^^^ rtmctlPgm)
    writel .rtmctl ((← readl E .rtmctl) ||| rtmctlErr)
    -- init rng job
    let ok ← submit E rngInstDsc
    Prog.check (ok = true) .abort
    -- ensure that the RNG was correctly instantiated
    Prog.check ((← readl E .rdsta) = rdstaIf0 ||| rdstaSkvn) .abort

/-! ## What the kernel promises -/

/-- A range that was prepared in one segment: it is contiguous, lies below 4 GiB like all
physical memory of the platform, and is as long as was asked for, unless a part may do. -/
structure PrepareOk (E : Platform) (va : ℕ) (len : Word) (allowPartial : Bool) (res : Prepared) :
    Prop where
  fits : res.paddr + res.size.toNat ≤ 2 ^ 32
  size_eq : allowPartial = false → res.size = len
  size_le : res.size ≤ len
  size_pos : len ≠ 0 → 1 ≤ res.size
  size_page : allowPartial = true → res.size ≤ 4096
  maps : ∀ i < res.size.toNat, E.mmu (va + i) = res.paddr + i

/-- `prepare_dma` keeps its promises whenever it returns 1. -/
def Platform.Sound (E : Platform) : Prop :=
  ∀ n va len dir allowPartial, (E.prep n va len dir allowPartial).ret = 1 →
    PrepareOk E va len allowPartial (E.prep n va len dir allowPartial)

/-! ## The driver as a whole -/

/-- A call of the driver. -/
inductive Op
  | caamOpen
  | decapBlob (kmod : ℕ) (kmodSize : Word) (plain blob : ℕ) (size : Word)
  | genBlob (kmod : ℕ) (kmodSize : Word) (plain blob : ℕ) (size : Word)
  | aesOp (key : ℕ) (keySize : Word) (input output : ℕ) (len : Word) (enc : Bool)
  | hwrng (out : ℕ) (len : Word)
  | hash (input output : ℕ) (len : Word)
  | genKdfv1RootKey (out : ℕ) (size : Word)
deriving DecidableEq, Repr

/-- The result of `caam_open`, which has none, is success. -/
def Op.run : Op → Drv Word
  | .caamOpen => do
    Caam.caamOpen E
    return caamSuccess
  | .decapBlob kmod kmodSize plain blob size => caamDecapBlob E kmod kmodSize plain blob size
  | .genBlob kmod kmodSize plain blob size => caamGenBlob E kmod kmodSize plain blob size
  | .aesOp key keySize input output len enc => caamAesOp E key keySize input output len enc
  | .hwrng out len => caamHwrng E out len
  | .hash input output len => caamHash E input output len
  | .genKdfv1RootKey out size => caamGenKdfv1RootKey E out size

/-- Calls one after the other; an abort ends the application. -/
def runOps : List Op → Drv Unit
  | [] => return ()
  | op :: ops => do
    let _ ← op.run E
    runOps ops

/-! ## A platform to run it on -/

namespace Demo

/-- A blob is its plaintext behind a header of zeros, and encryption reverses the data. -/
def core : Core where
  encap _ _ plain := List.replicate 48 0 ++ plain
  decap _ blob := some (blob.drop 48)
  masterKey _ := List.replicate 32 1
  aes _ _ data := data.reverse
  sha1 _ := List.replicate 20 2
  random n := UInt8.ofNat n
  decap_encap _ _ plain := congrArg some (List.drop_left' List.length_replicate)
  encap_length _ _ plain := by
    rw [List.length_append, List.length_replicate, Nat.add_comm]
  aes_length _ _ data := List.length_reverse
  aes_inv _ data _ := List.reverse_reverse data

/-- Memory is mapped as it is, below 4 GiB, and every job succeeds. -/
def platform : Platform where
  mach := .imx7
  core := core
  mmu := id
  prep _ va len _ allowPartial :=
    if va + len.toNat ≤ 2 ^ 32 then
      ⟨1, va, if allowPartial then (if len ≤ 4096 then len else 4096) else len⟩
    else ⟨-9, 0, 0⟩
  read _ _ := 0
  job _ := ⟨true, 0, id, fun _ => 0⟩
  gJobDsc := 0x1000
  gRings := 0x2000
  patience := 0

/-- Nothing has happened yet. -/
def machine : Machine where
  mem _ := 0
  dsc := List.replicate 64 0
  dscUsed := 0
  status := 0
  ringIn := 0
  ringOut0 := 0
  ringOut1 := 0
  ccgr := 0
  drawn := 0
  nPrep := 0
  nRead := 0
  nJob := 0
  trace := []

lemma sound_platform : platform.Sound := by
  intro n va len dir allowPartial hret
  by_cases hfits : va + len.toNat ≤ 2 ^ 32
  · have hprep : platform.prep n va len dir allowPartial =
        ⟨1, va, if allowPartial then (if len ≤ 4096 then len else 4096) else len⟩ := if_pos hfits
    rw [hprep]
    cases allowPartial with
    | false =>
      exact {
        fits := hfits
        size_eq := fun _ => rfl
        size_le := BitVec.le_refl _
        size_pos := fun hne => by
          simp only [Bool.false_eq_true, if_false]
          bv_omega
        size_page := fun h => absurd h (by simp)
        maps := fun _ _ => rfl }
    | true =>
      have hle : (if len ≤ 4096 then len else 4096) ≤ len := by
        split
        · exact BitVec.le_refl _
        · bv_omega
      exact {
        fits := by
          have hlen := BitVec.le_def.mp hle
          simp only [if_true]
          omega
        size_eq := fun h => absurd h (by simp)
        size_le := hle
        size_pos := fun hne => by
          simp only [if_true]
          split
          · bv_omega
          · decide
        size_page := fun _ => by
          simp only [if_true]
          split
          · assumption
          · exact BitVec.le_refl _
        maps := fun _ _ => rfl }
  · have hprep : platform.prep n va len dir allowPartial = ⟨-9, 0, 0⟩ := if_neg hfits
    rw [hprep] at hret
    exact absurd hret (by decide)

end Demo

end TrustyLkNxp.Caam
