import TrustyLkNxp.Hwkey.Provisioning
import TrustyLkNxp.Caam.SelfTest

/-!
# Start-up, and the keys of one device

`main` sets up the CAAM, and the HWKEY provider unpacks the key box, before any event is served.
The root key of the key derivation is generated anew at every boot, and nothing of it is stored.
Still a client gets the same keys after every boot, because the CAAM generates the same root key
and nothing overwrites it.
-/

namespace TrustyLkNxp

open Ipc EventSystem Memory

namespace Hwkey

open Caam hiding caamKbHeaderLen

variable {E : Platform} {L : Layout}

/-! ## The root key -/

/-- A root key that was generated is the one of the salt in the descriptor. -/
lemma caamGenKdfv1RootKey_put (hE : E.Sound) (hkey : ∀ key, (E.core.masterKey key).length = 32)
    {out : ℕ} {m m' : Machine} (h : caamGenKdfv1RootKey E out 32 m = (.ok caamSuccess, m')) :
    m'.mem = E.put m.mem out (E.core.masterKey kdfv1Salt) := by
  obtain ⟨-, h⟩ := Prog.check_bind_eq_ok h
  obtain ⟨acts, pas, rest, hprep, hexec⟩ := dataOp_success h
  rw [exec_kdfv1_eq hkey (parse_kdfv1 (pas.getD · 0) rest), Option.some.injEq, Prod.mk.injEq]
    at hexec
  rw [hprep.put_eq hE 0 rfl (hkey _).le (Nat.succ_pos _)]
  exact hexec.1.symm

/-- What start-up writes to. -/
def Layout.provisioned (E : Platform) (L : Layout) : Set ℕ :=
  E.cells L.sramBase sizeofKeyslotPackage ∪ E.cells L.rpmbKeyblob rpmbkeyLen ∪
    E.cells L.kdfv1Key 32

/-- What `unpack_kbox` leaves when it returns, the root key included. -/
structure Provisioned (E : Platform) (L : Layout) (m m' : Machine) (len : Word) : Prop
    extends Unpacked E L m m' len where
  root : E.bytes m'.mem L.kdfv1Key 32 = E.core.masterKey kdfv1Salt

/-- What the part of `unpack_kbox` after the blob has been copied does to memory. -/
lemma finishUnpack_put (hE : E.Sound) (hkey : ∀ key, (E.core.masterKey key).length = 32)
    (hL : L.Apart E) {m m₁ : Machine} {mem' : Mem}
    (hroot : caamGenKdfv1RootKey E L.kdfv1Key 32 m = (.ok caamSuccess, m₁))
    (hmem : mem' = E.put m₁.mem L.sramBase (List.replicate sizeofKeyslotPackage 0)) :
    E.bytes mem' L.kdfv1Key 32 = E.core.masterKey kdfv1Salt ∧
      SameOutside (L.provisioned E) m.mem mem' := by
  have hput := caamGenKdfv1RootKey_put hE hkey hroot
  have hlen := hkey kdfv1Salt
  have hzero := List.length_replicate (n := sizeofKeyslotPackage) (a := (0 : UInt8))
  have hdisj := hL.disjoint
  simp only [Layout.buffers, List.map_cons, List.pairwise_cons, List.mem_cons, forall_eq_or_imp]
    at hdisj
  obtain ⟨⟨-, -, hsk, -⟩, -⟩ := hdisj
  have hinj := hL.inj (L.kdfv1Key, 32) (by simp [Layout.buffers])
  constructor
  · rw [hmem, E.bytes_put_of_disjoint hsk hzero.le, hput, E.bytes_put hlen hinj]
  · have hkeyed := E.put_frame m.mem L.kdfv1Key (E.core.masterKey kdfv1Salt)
    have hwiped := E.put_frame m₁.mem L.sramBase (List.replicate sizeofKeyslotPackage 0)
    rw [hlen, ← hput] at hkeyed
    rw [hzero, ← hmem] at hwiped
    exact (hkeyed.mono Set.subset_union_right).trans
      (hwiped.mono (Set.subset_union_left.trans Set.subset_union_left))

/-- `unpack_kbox`, when it returns. -/
lemma unpackKbox_provisions (hE : E.Sound) (hkey : ∀ key, (E.core.masterKey key).length = 32)
    (hL : L.Apart E) {m m' : Machine} {len : Word} (h : unpackKbox E L 0 m = (.ok len, m')) :
    Provisioned E L m m' len ∧ SameOutside (L.provisioned E) m.mem m'.mem := by
  have hun := unpackKbox_spec hE (fun key => (hkey key).le) hL h
  obtain ⟨m₀, m₁, hget, h⟩ := Prog.bind_eq_ok.mp h
  obtain ⟨rfl, rfl⟩ : m = m₀ ∧ m = m₁ := by simpa using hget
  obtain ⟨-, h⟩ := Prog.check_bind_eq_ok h
  obtain ⟨-, h⟩ := Prog.check_bind_eq_ok h
  by_cases hlen : le32 (E.bytes m.mem (L.sramBase + offsetofRpmbKeyblobLen) 4) ≠
      BitVec.ofNat 32 rpmbkeyLen
  · simp only [if_pos hlen] at h
    obtain ⟨-, m₂, hroot, hmem⟩ := finishUnpack h
    obtain ⟨hkdf, hframe⟩ := finishUnpack_put hE hkey hL hroot hmem
    exact ⟨⟨hun, hkdf⟩, hframe⟩
  · -- the blob is copied first
    simp only [if_neg hlen] at h
    rw [ne_eq, not_not] at hlen
    have hn : (BitVec.ofNat 32 rpmbkeyLen).toNat = rpmbkeyLen := rfl
    let blob := E.bytes m.mem (L.sramBase + offsetofRpmbKeyblob) rpmbkeyLen
    have hblob : blob.length = rpmbkeyLen := E.length_bytes _ _ _
    let m₂ : Machine :=
      { m with
        mem := E.put m.mem L.rpmbKeyblob blob
        trace := .write L.rpmbKeyblob blob.length :: m.trace }
    rw [hlen, hn] at h
    obtain ⟨-, m₃, hroot, hmem⟩ := finishUnpack (m := m₂) h
    obtain ⟨hkdf, hframe⟩ := finishUnpack_put hE hkey hL hroot hmem
    have hcopied := E.put_frame m.mem L.rpmbKeyblob blob
    rw [hblob] at hcopied
    refine ⟨⟨hun, hkdf⟩, (hcopied.mono ?_).trans hframe⟩
    exact Set.subset_union_right.trans Set.subset_union_left

/-- Start-up leaves the root key of the device. -/
lemma startUp_root (hE : E.Sound) (hkey : ∀ key, (E.core.masterKey key).length = 32)
    (hL : L.Apart E) {m m' : Machine} {len : Word} (h : startUp E L m = (.ok len, m')) :
    E.bytes m'.mem L.kdfv1Key 32 = E.core.masterKey kdfv1Salt := by
  obtain ⟨_, m₁, -, h⟩ := Prog.bind_eq_ok.mp h
  exact (unpackKbox_provisions hE hkey hL h).1.root

/-! ## Start-up, from beginning to end -/

/-- A board on which start-up can succeed. -/
structure Board (E : Platform) (L : Layout) : Prop where
  works : E.Works
  rng : Op.caamOpen.Feasible E
  kdfv1Key : E.Prepared false L.kdfv1Key 32
  apart : L.Apart E

/-- What the kernel and the allocator say to `init_caam_env`: whether the registers, the secure RAM
and the clock controller are mapped, and the rings and the job allocated. -/
structure EnvAnswers where
  caamBase : Bool
  sramBase : Bool
  ccmBase : Bool
  gRings : Bool
  gJob : Bool

/-- The error codes of `init_caam_env`. -/
structure EnvErrors where
  errGeneric : ℤ
  errNoMemory : ℤ
  errGeneric_ne : errGeneric ≠ 0
  errNoMemory_ne : errNoMemory ≠ 0

variable {U : EnvErrors} {a : EnvAnswers} {test : Option TestStack}

/-- `caam_test`, if it is built in. Its verdicts are logged. -/
def selfTest (E : Platform) : Option TestStack → Drv Unit
  | none => return ()
  | some st => do
    let _ ← caamTest E st
    return ()

/-- `init_caam_env`. -/
def initCaamEnv (U : EnvErrors) (E : Platform) (a : EnvAnswers) (test : Option TestStack) :
    Drv ℤ := do
  if !a.caamBase then
    return U.errGeneric
  if !a.sramBase then
    return U.errGeneric
  if !a.ccmBase then
    return U.errGeneric
  -- allocate rings
  if !a.gRings then
    return U.errNoMemory
  -- allocate jobs
  if !a.gJob then
    return U.errNoMemory
  caamOpen E
  selfTest E test
  return 0

/-- `main`, up to where the HWKEY provider installs the slots: what `main` returns, or
`rpmb_keyblob_len`. -/
def mainStart (U : EnvErrors) (E : Platform) (L : Layout) (a : EnvAnswers)
    (test : Option TestStack) : Drv (Except ℤ Word) := do
  let rc ← initCaamEnv U E a test
  if rc ≠ 0 then
    return .error rc
  let rpmbKeyblobLen ← unpackKbox E L 0
  return .ok rpmbKeyblobLen

/-- Everything is mapped. -/
def EnvAnswers.Mapped (a : EnvAnswers) : Prop := a.caamBase ∧ a.sramBase ∧ a.ccmBase

instance (a : EnvAnswers) : Decidable a.Mapped :=
  inferInstanceAs (Decidable (a.caamBase ∧ a.sramBase ∧ a.ccmBase))

/-- The memory of the self-test, if there is one. -/
def testCells (E : Platform) : Option TestStack → Set ℕ
  | none => ∅
  | some st => E.cellsOf st.buffers

/-- The self-test can be run, and its stack is apart from the static buffers. -/
structure Testable (E : Platform) (L : Layout) (st : TestStack) : Prop where
  frames : E.Frames st
  apart : ∀ b ∈ L.buffers, Disjoint (E.cellsOf st.buffers) (E.cells b.1 b.2)

/-- What start-up comes to, by what it finds. -/
inductive Started (U : EnvErrors) (E : Platform) (L : Layout) (a : EnvAnswers)
    (test : Option TestStack) (m : Machine) : Except Halt (Except ℤ Word) → Machine → Prop
  /-- The hardware is not touched. -/
  | unmapped (hmapped : ¬ a.Mapped) : Started U E L a test m (.ok (.error U.errGeneric)) m
  | noMemory (hmapped : a.Mapped) (hmem : ¬ (a.gRings ∧ a.gJob)) :
      Started U E L a test m (.ok (.error U.errNoMemory)) m
  /-- There is no package, and what is there instead stays. -/
  | noPackage {m' : Machine} (hmapped : a.Mapped) (hmem : a.gRings ∧ a.gJob)
      (hmagic : E.bytes m.mem L.sramBase 4 ≠ keypackMagic)
      (hframe : SameOutside (testCells E test) m.mem m'.mem) :
      Started U E L a test m (.error .abort) m'
  | provisioned {m' : Machine} {len : Word} (hmapped : a.Mapped) (hmem : a.gRings ∧ a.gJob)
      (hprov : Provisioned E L m m' len)
      (hframe : SameOutside (testCells E test ∪ L.provisioned E) m.mem m'.mem) :
      Started U E L a test m (.ok (.ok len)) m'

/-- Without the package nothing happens, and with it `unpack_kbox` returns. -/
lemma unpackKbox_outcome (hB : Board E L) (m : Machine) :
    (E.bytes m.mem L.sramBase 4 ≠ keypackMagic ∧ unpackKbox E L 0 m = (.error .abort, m)) ∨
      ∃ len m', unpackKbox E L 0 m = (.ok len, m') := by
  have hget : (Prog.get : Drv Machine) m = (.ok m, m) := rfl
  have hmagic := strncmp_keypackMagic (E.length_bytes m.mem L.sramBase 4)
  by_cases h : E.bytes m.mem L.sramBase 4 = keypackMagic
  · right
    have hfeasible : (Op.genKdfv1RootKey L.kdfv1Key 32).Feasible E := ⟨rfl, hB.kdfv1Key⟩
    have hfinish : ∀ (m₁ : Machine) (len : Word), ∃ m', (do
        let res ← caamGenKdfv1RootKey E L.kdfv1Key 32
        Prog.check (res = caamSuccess) .abort
        Prog.modify fun m =>
          { m with mem := E.put m.mem L.sramBase (List.replicate sizeofKeyslotPackage 0) }
        return len : Drv Word) m₁ = (.ok len, m') := by
      intro m₁ len
      obtain ⟨m₂, hroot, -⟩ := genKdfv1RootKey_call hB.works m₁ hfeasible
      exact ⟨_, (Prog.bind_of_ok hroot).trans (Prog.check_bind_of_pos rfl)⟩
    rw [unpackKbox, Prog.bind_of_ok hget, Prog.check_bind_of_pos (hmagic.mpr h),
      Prog.check_bind_of_pos rfl]
    by_cases hlen : le32 (E.bytes m.mem (L.sramBase + offsetofRpmbKeyblobLen) 4) ≠
        BitVec.ofNat 32 rpmbkeyLen
    · simp only [if_pos hlen]
      exact ⟨_, hfinish m _⟩
    · simp only [if_neg hlen]
      exact ⟨_, hfinish _ _⟩
  · left
    refine ⟨h, ?_⟩
    rw [unpackKbox, Prog.bind_of_ok hget, Prog.check_bind_of_neg (mt hmagic.mp h)]

lemma selfTest_ok (hE : E.Works) (htest : ∀ st, test = some st → Testable E L st) (m : Machine) :
    ∃ m', selfTest E test m = (.ok (), m') ∧ SameOutside (testCells E test) m.mem m'.mem := by
  cases test with
  | none => exact ⟨m, rfl, .refl _ _⟩
  | some st =>
    obtain ⟨m', hrun, hframe⟩ := caamTest_verdicts hE (htest st rfl).frames m
    exact ⟨m', Prog.bind_of_ok hrun, hframe⟩

/-- `init_caam_env`, when nothing is missing. -/
lemma initCaamEnv_ok (hB : Board E L) (htest : ∀ st, test = some st → Testable E L st)
    (hmapped : a.Mapped) (hmem : a.gRings ∧ a.gJob) (m : Machine) :
    ∃ m₁, initCaamEnv U E a test m = (.ok 0, m₁) ∧
      SameOutside (testCells E test) m.mem m₁.mem := by
  obtain ⟨hcaam, hsram, hccm⟩ := hmapped
  obtain ⟨hrings, hjob⟩ := hmem
  obtain ⟨_, m₁, hopened, -⟩ := hB.rng.success hB.works m (by simp [Op.effect])
  obtain ⟨_, m₂, hopen, -⟩ := Prog.bind_eq_ok.mp hopened
  have hsame := caamOpen_mem E m
  rw [hopen] at hsame
  obtain ⟨m₃, htested, hframe⟩ := selfTest_ok hB.works htest m₂
  refine ⟨m₃, ?_, ?_⟩
  · simp only [initCaamEnv, hcaam, hsram, hccm, hrings, hjob, Bool.not_true, Bool.false_eq_true,
      if_false]
    exact (Prog.bind_of_ok hopen).trans (Prog.bind_of_ok htested)
  · rwa [← show m₂.mem = m.mem from hsame]

lemma initCaamEnv_unmapped (hmapped : ¬ a.Mapped) (m : Machine) :
    initCaamEnv U E a test m = (.ok U.errGeneric, m) := by
  rw [EnvAnswers.Mapped] at hmapped
  cases hcaam : a.caamBase with
  | false =>
    simp only [initCaamEnv, hcaam]
    rfl
  | true =>
    cases hsram : a.sramBase with
    | false =>
      simp only [initCaamEnv, hcaam, hsram]
      rfl
    | true =>
      have hccm : a.ccmBase = false := by simpa [hcaam, hsram] using hmapped
      simp only [initCaamEnv, hcaam, hsram, hccm]
      rfl

lemma initCaamEnv_noMemory (hmapped : a.Mapped) (hmem : ¬ (a.gRings ∧ a.gJob)) (m : Machine) :
    initCaamEnv U E a test m = (.ok U.errNoMemory, m) := by
  obtain ⟨hcaam, hsram, hccm⟩ := hmapped
  cases hrings : a.gRings with
  | false =>
    simp only [initCaamEnv, hcaam, hsram, hccm, hrings]
    rfl
  | true =>
    have hjob : a.gJob = false := by simpa [hrings] using hmem
    simp only [initCaamEnv, hcaam, hsram, hccm, hrings, hjob]
    rfl

/-- What is in the buffers of the provider is all that `unpack_kbox` looks at. -/
lemma Provisioned.of_sameOutside {W : Set ℕ} {m m₁ m' : Machine} {len : Word}
    (h : Provisioned E L m₁ m' len) (hsame : SameOutside W m.mem m₁.mem)
    (hapart : ∀ b ∈ L.buffers, Disjoint W (E.cells b.1 b.2)) : Provisioned E L m m' len := by
  have hpackage : ∀ k n, k + n ≤ sizeofKeyslotPackage →
      E.bytes m₁.mem (L.sramBase + k) n = E.bytes m.mem (L.sramBase + k) n := by
    intro k n hle
    have hdisj : Disjoint W (E.cells L.sramBase sizeofKeyslotPackage) :=
      hapart (L.sramBase, sizeofKeyslotPackage) List.mem_cons_self
    refine E.bytes_of_sameOutside hsame (hdisj.mono_right ?_)
    rintro _ ⟨i, hi, rfl⟩
    exact ⟨k + i, by omega, by rw [Nat.add_assoc]⟩
  have hmagic := hpackage 0 4 (by decide)
  have hlen := hpackage offsetofRpmbKeyblobLen 4 (by decide)
  have hblob := hpackage offsetofRpmbKeyblob rpmbkeyLen (by decide)
  have hskeymod := E.bytes_of_sameOutside hsame
    (hapart (L.skeymod, 16) (by simp [Layout.buffers]))
  have hkeyblob := E.bytes_of_sameOutside hsame
    (hapart (L.rpmbKeyblob, rpmbkeyLen) (by simp [Layout.buffers]))
  obtain ⟨⟨hm, hw, hs, ha, hp⟩, hroot⟩ := h
  rw [Nat.add_zero] at hmagic
  rw [hmagic] at hm
  rw [hskeymod] at hs
  rw [hlen] at ha hp
  rw [hkeyblob] at ha
  rw [hblob] at hp
  exact ⟨⟨hm, hw, hs, ha, hp⟩, hroot⟩

/-- On a board where it can succeed, start-up ends in one of four ways, as the kernel, the
allocator and the package in secure RAM have it, with or without the self-test. -/
theorem mainStart_outcome (hB : Board E L) (htest : ∀ st, test = some st → Testable E L st)
    (m : Machine) :
    Started U E L a test m (mainStart U E L a test m).1 (mainStart U E L a test m).2 := by
  by_cases hmapped : a.Mapped
  swap
  · have hrun : mainStart U E L a test m = (.ok (.error U.errGeneric), m) := by
      rw [mainStart, Prog.bind_of_ok (initCaamEnv_unmapped hmapped m), if_pos U.errGeneric_ne]
      rfl
    rw [hrun]
    exact .unmapped hmapped
  by_cases hmem : a.gRings ∧ a.gJob
  swap
  · have hrun : mainStart U E L a test m = (.ok (.error U.errNoMemory), m) := by
      rw [mainStart, Prog.bind_of_ok (initCaamEnv_noMemory hmapped hmem m),
        if_pos U.errNoMemory_ne]
      rfl
    rw [hrun]
    exact .noMemory hmapped hmem
  obtain ⟨m₁, henv, hsame⟩ := initCaamEnv_ok (U := U) hB htest hmapped hmem m
  have hapart : ∀ b ∈ L.buffers, Disjoint (testCells E test) (E.cells b.1 b.2) := by
    cases test with
    | none => exact fun _ _ => Set.empty_disjoint _
    | some st => exact (htest st rfl).apart
  have hrun : mainStart U E L a test m = (do
      let rpmbKeyblobLen ← unpackKbox E L 0
      return .ok rpmbKeyblobLen : Drv (Except ℤ Word)) m₁ := by
    rw [mainStart, Prog.bind_of_ok henv, if_neg (not_not.mpr rfl)]
  rw [hrun]
  obtain ⟨hmagic, hok⟩ | ⟨len, m', hok⟩ := unpackKbox_outcome hB m₁
  · rw [Prog.bind_of_error hok]
    have hsram : E.bytes m₁.mem L.sramBase 4 = E.bytes m.mem L.sramBase 4 :=
      E.bytes_of_sameOutside hsame
        ((hapart (L.sramBase, sizeofKeyslotPackage) List.mem_cons_self).mono_right
          (E.cells_mono _ (show 4 ≤ sizeofKeyslotPackage by decide)))
    exact .noPackage hmapped hmem (hsram ▸ hmagic) hsame
  · rw [Prog.bind_of_ok hok]
    obtain ⟨hprov, hframe⟩ :=
      unpackKbox_provisions hB.works.sound hB.works.masterKey_length hB.apart hok
    exact .provisioned hmapped hmem (hprov.of_sameOutside hsame hapart)
      ((hsame.mono Set.subset_union_left).trans (hframe.mono Set.subset_union_right))

end Hwkey

variable {E E' : Caam.Platform} {L L' : Hwkey.Layout} {K : Config}

/-! ## The static data of the provider -/

/-- What is in the memory of the provider between any two events. -/
structure StaticData (E : Caam.Platform) (L : Hwkey.Layout) (m₀ : Caam.Machine)
    (s : App (Caam.caamDev E L.rngData)) : Prop where
  /-- The data of the provider is what start-up left. -/
  prov : ∃ len m, Hwkey.startUp E L m₀ = (.ok len, m) ∧ s.hwkey.prov = L.provision E len m
  wiped : E.bytes (s.dev : Caam.Machine).mem L.sramBase Hwkey.sizeofKeyslotPackage =
    List.replicate Hwkey.sizeofKeyslotPackage 0
  skeymod : E.bytes (s.dev : Caam.Machine).mem L.skeymod 16 = E.bytes m₀.mem L.skeymod 16
  rpmbKeyblob : E.bytes (s.dev : Caam.Machine).mem L.rpmbKeyblob Hwkey.rpmbkeyLen =
    s.hwkey.prov.rpmbKeyblob
  kdfv1Key : E.bytes (s.dev : Caam.Machine).mem L.kdfv1Key 32 = s.hwkey.prov.kdfv1Key
  root : s.hwkey.prov.kdfv1Key = E.core.masterKey Caam.kdfv1Salt

/-- Start-up has returned before any event is served. -/
lemma exists_kept (hE : E.Sound) (hL : L.Apart E) {m₀ : Caam.Machine}
    {s : App (Caam.caamDev E L.rngData)} (hs : (appOnCaam E L K m₀).Reachable s) :
    ∃ len m, Hwkey.startUp E L m₀ = (.ok len, m) ∧ Kept E L K len m s := by
  obtain ⟨len, m, hstart⟩ : ∃ len m, Hwkey.startUp E L m₀ = (.ok len, m) := by
    obtain ⟨_, _, ⟨len, m, _, hstart, -⟩, -⟩ := hs
    exact ⟨len, m, hstart⟩
  exact ⟨len, m, hstart, kept_of_reachable hE hL hstart hs⟩

/-- The root key is the one of the device. -/
lemma Kept.root (hE : E.Sound) (hkey : ∀ key, (E.core.masterKey key).length = 32) (hL : L.Apart E)
    {m₀ m : Caam.Machine} {len : Word} (hstart : Hwkey.startUp E L m₀ = (.ok len, m))
    {s : App (Caam.caamDev E L.rngData)} (h : Kept E L K len m s) :
    s.hwkey.prov.kdfv1Key = E.core.masterKey Caam.kdfv1Salt :=
  (congrArg Hwkey.Provision.kdfv1Key h.prov).trans (Hwkey.startUp_root hE hkey hL hstart)

/-- Whatever the application is asked, the package stays wiped, and the key modifier, the blob of
the RPMB key and the root key stay where start-up put them. -/
theorem staticData_of_reachable (hE : E.Sound)
    (hkey : ∀ key, (E.core.masterKey key).length = 32) (hL : L.Apart E) {m₀ : Caam.Machine}
    {s : App (Caam.caamDev E L.rngData)} (hs : (appOnCaam E L K m₀).Reachable s) :
    StaticData E L m₀ s := by
  obtain ⟨len, m, hstart, hkept⟩ := exists_kept hE hL hs
  have hun := Hwkey.startUp_spec hE (fun key => (hkey key).le) hL hstart
  have hbytes : ∀ {va n : ℕ}, (va, n) ∈ L.buffers.take 4 →
      E.bytes (s.dev : Caam.Machine).mem va n = E.bytes m.mem va n := hkept.bytes hL
  exact {
    prov := ⟨len, m, hstart, hkept.prov⟩
    wiped := (hbytes (by simp [Hwkey.Layout.buffers])).trans hun.wiped
    skeymod := (hbytes (by simp [Hwkey.Layout.buffers])).trans hun.skeymod
    rpmbKeyblob := (hbytes (by simp [Hwkey.Layout.buffers])).trans
      (congrArg Hwkey.Provision.rpmbKeyblob hkept.prov).symm
    kdfv1Key := (hbytes (by simp [Hwkey.Layout.buffers])).trans
      (congrArg Hwkey.Provision.kdfv1Key hkept.prov).symm
    root := hkept.root hE hkey hL hstart }

/-! ## The same keys after every boot -/

/-- A client asks for a key to be derived. -/
structure AsksKey (K : Config) {D : Hwrng.RngDev} (s : App D) (e : Event D) (uuid : Uuid)
    (ikmData : List UInt8) : Prop where
  client : ∃ p c o, e.cookie = some (.ctx p) ∧ s.sys.heap p = some (.hwkey c) ∧
    s.sys.objs e.handle = some o ∧ o.peer = uuid
  errors : chanErrors e.flags = false
  hup : e.flags.hup = false
  msg : e.flags.msg = true
  readable : ¬ Hwkey.Unreadable K.proto e.inbound
  cmd : (Hwkey.received K.proto e.inbound).hdr.cmd = K.proto.derive
  version : (Hwkey.received K.proto e.inbound).hdr.arg1 = K.proto.kdfVersionBest ∨
    (Hwkey.received K.proto e.inbound).hdr.arg1 = K.proto.kdfVersion1
  data : (Hwkey.received K.proto e.inbound).data = ikmData

/-- The key of a client, as a function of the root key. -/
def derivedKey (P : Hwkey.HwkeyProto) (C : Hwkey.Crypto) (root : List UInt8) (uuid : Uuid)
    (ikmData : List UInt8) : Word × List UInt8 :=
  if ikmData = [] then (P.errBadLen, [])
  else match C.hkdf ikmData.length root uuid ikmData with
    | .ok key => (P.noError, key)
    | .fail _ => (P.errGeneric, [])

lemma AsksKey.answer {D : Hwrng.RngDev} {s : App D} {e : Event D} {uuid : Uuid}
    {ikmData : List UInt8} (h : AsksKey K s e uuid ikmData) (prov : Hwkey.Provision) :
    ∃ hdr : Hwkey.HwkeyMsg,
      Hwkey.answer K.proto K.unittest prov e.crypto uuid (Hwkey.received K.proto e.inbound) =
      some ({ hdr with status := (derivedKey K.proto e.crypto prov.kdfv1Key uuid ikmData).1 },
        (derivedKey K.proto e.crypto prov.kdfv1Key uuid ikmData).2) := by
  have hcmd : (Hwkey.received K.proto e.inbound).hdr.cmd ≠ K.proto.getKeyslot := by
    rw [h.cmd]
    exact K.proto.getKeyslot_ne_derive.symm
  have hversion : (Hwkey.resolveKdf K.proto (Hwkey.received K.proto e.inbound).hdr).arg1 =
      K.proto.kdfVersion1 := by
    rw [Hwkey.resolveKdf]
    split
    · rfl
    · rename_i hbest
      exact h.version.resolve_left hbest
  have hderive : Hwkey.deriveAnswer K.proto prov e.crypto uuid K.proto.kdfVersion1 ikmData =
      derivedKey K.proto e.crypto prov.kdfv1Key uuid ikmData := by
    cases hkdf : e.crypto.hkdf ikmData.length prov.kdfv1Key uuid ikmData with
    | ok key => simp [Hwkey.deriveAnswer, derivedKey, hkdf, List.length_eq_zero_iff]
    | fail written => simp [Hwkey.deriveAnswer, derivedKey, hkdf, List.length_eq_zero_iff]
  refine ⟨Hwkey.resolveKdf K.proto (Hwkey.received K.proto e.inbound).hdr, ?_⟩
  rw [Hwkey.answer, if_neg hcmd, if_pos h.cmd, h.data]
  simp only [hversion, hderive]

/-- The request is answered with the key. -/
lemma AsksKey.responds {D : Hwrng.RngDev} {s : App D} (hs : Serving K s) {e : Event D}
    (he : EventOk s e) {uuid : Uuid} {ikmData : List UInt8} (h : AsksKey K s e uuid ikmData) :
    Responds K s e (derivedKey K.proto e.crypto s.hwkey.prov.kdfv1Key uuid ikmData).1
      (derivedKey K.proto e.crypto s.hwkey.prov.kdfv1Key uuid ikmData).2 := by
  obtain ⟨p, c, o, hcookie, hc, ho, hpeer⟩ := h.client
  have hflags : e.flags ≠ {} := by
    intro hempty
    have hmsg := h.msg
    rw [hempty] at hmsg
    exact absurd hmsg (by decide)
  have hchan := he.chan_eq hs.wf hcookie hc
  have huuid : c.uuid = uuid := by
    obtain ⟨o', ho', hctx⟩ := hs.wf.lifecycle.chan_open hc
    have ho' : s.sys.objs e.handle = some o' := hchan ▸ ho'
    obtain rfl := Option.some.inj (ho.symm.trans ho')
    exact (hs.wf.lifecycle.ctx_uuid e.handle o p c ho hctx hc).symm.trans hpeer
  obtain ⟨hdr, hans⟩ := h.answer s.hwkey.prov
  rw [← huuid] at hans
  obtain ⟨r, reqData, heq, -, hok⟩ :=
    step_of_request hs he hflags hcookie hc h.errors h.hup h.msg h.readable hans
  rw [huuid] at heq
  obtain ⟨hhdr, hdata⟩ := Prod.mk.inj heq
  have hlog : (s.deliver e).hwkey.log = s.hwkey.log := congrArg Hwkey.Data.log (s.deliver_hwkey e)
  exact ⟨_, _, hok, congrArg (_ :: ·) hlog, hchan, congrArg Hwkey.HwkeyMsg.status hhdr, hdata⟩

/-- In whatever states the application is after two boots of one device, however memory is laid
out, and whatever was asked before, a client that asks for the same key gets the same answer. -/
theorem derived_across_boots (hE : E.Sound) (hE' : E'.Sound)
    (hkey : ∀ key, (E.core.masterKey key).length = 32)
    (hdevice : E'.core.masterKey = E.core.masterKey) (hL : L.Apart E) (hL' : L'.Apart E')
    {m₀ m₀' : Caam.Machine} {s : App (Caam.caamDev E L.rngData)}
    {s' : App (Caam.caamDev E' L'.rngData)} (hs : (appOnCaam E L K m₀).Reachable s)
    (hs' : (appOnCaam E' L' K m₀').Reachable s') {e : Event (Caam.caamDev E L.rngData)}
    {e' : Event (Caam.caamDev E' L'.rngData)} (he : EventOk s e) (he' : EventOk s' e')
    (hhkdf : e'.crypto.hkdf = e.crypto.hkdf) {uuid : Uuid} {ikmData : List UInt8}
    (hask : AsksKey K s e uuid ikmData) (hask' : AsksKey K s' e' uuid ikmData) :
    ∃ status data, derivedKey K.proto e.crypto (E.core.masterKey Caam.kdfv1Salt) uuid ikmData =
      (status, data) ∧ Responds K s e status data ∧ Responds K s' e' status data := by
  have hkey' : ∀ key, (E'.core.masterKey key).length = 32 := fun key => hdevice ▸ hkey key
  obtain ⟨_, _, hstart, hkept⟩ := exists_kept hE hL hs
  obtain ⟨_, _, hstart', hkept'⟩ := exists_kept hE' hL' hs'
  have hroot := hkept.root hE hkey hL hstart
  have hroot' := hkept'.root hE' hkey' hL' hstart'
  have hresponds := hask.responds hkept.serving he
  have hresponds' := hask'.responds hkept'.serving he'
  have hsame : derivedKey K.proto e'.crypto s'.hwkey.prov.kdfv1Key uuid ikmData =
      derivedKey K.proto e.crypto s.hwkey.prov.kdfv1Key uuid ikmData := by
    rw [hroot', hroot, hdevice, derivedKey, derivedKey, hhkdf]
  rw [hsame] at hresponds'
  rw [← hroot]
  exact ⟨_, _, rfl, hresponds, hresponds'⟩

namespace Demo

lemma works_board : board.Works := Caam.Demo.works_reading

lemma board_layout : Hwkey.Board board layout where
  works := works_board
  rng _ := Or.inl (show (0x40000001 : Word) &&& Caam.rdstaIf0 = Caam.rdstaIf0 by decide)
  kdfv1Key := Caam.Demo.prepared_reading (by decide)
  apart := apart_layout

/-- The stack of the self-test is behind `rng_data`. -/
lemma testable_board : Hwkey.Testable board layout (Caam.Demo.stack 0x9000) where
  frames := Caam.Demo.frames_stack (by decide)
  apart := by
    intro b hb
    refine Set.disjoint_left.mpr ?_
    rintro _ ⟨c, hc, i, hi, rfl⟩ ⟨j, hj, heq⟩
    have hstack : ∀ c ∈ (Caam.Demo.stack 0x9000).buffers, 0x9000 ≤ c.1 ∧ c.1 + c.2 ≤ 0x10000 := by
      decide
    have hbufs : ∀ b ∈ layout.buffers, b.1 + b.2 ≤ 0x9000 ∨ 0x10000 ≤ b.1 := by decide
    have hc := hstack c hc
    have hb := hbufs b hb
    have heq : b.1 + j = c.1 + i := heq
    omega

/-- The error codes. -/
def envErrors : Hwkey.EnvErrors := ⟨-1, -5, by decide, by decide⟩

/-- Nothing is missing. -/
def complete : Hwkey.EnvAnswers := ⟨true, true, true, true, true⟩

/-- The secure storage server asks for a key to be derived from `AB`. -/
def askDerivedAB {D : Hwrng.RngDev} (b : Option UInt8) : Event D :=
  request b (2 :: List.replicate 19 0 ++ [65, 66])

lemma asks_askDerivedAB {D : Hwrng.RngDev} {s : App D} {o : Obj} {b : Option UInt8}
    (ho : s.sys.objs 5 = some o) (hpeer : o.peer = Hwkey.ssUuid)
    (hc : s.sys.heap 0 = some (.hwkey ⟨5, Hwkey.ssUuid⟩)) :
    AsksKey config s (askDerivedAB b) Hwkey.ssUuid [65, 66] where
  client := ⟨0, _, o, rfl, hc, ho, hpeer⟩
  errors := rfl
  hup := rfl
  msg := rfl
  readable := (by decide : ¬ Hwkey.Unreadable proto (askDerivedAB (D := caamDev) none).inbound)
  cmd := rfl
  version := (by decide :
    (Hwkey.received proto (askDerivedAB (D := caamDev) none).inbound).hdr.arg1 =
        proto.kdfVersionBest ∨
      (Hwkey.received proto (askDerivedAB (D := caamDev) none).inbound).hdr.arg1 =
        proto.kdfVersion1)
  data := (by decide :
    (Hwkey.received proto (askDerivedAB (D := caamDev) none).inbound).data = [65, 66])

/-- Another build of the application, with the buffers elsewhere. -/
def moved : Hwkey.Layout := ⟨0x30000, 0x13000, 0x13100, 0x13200, 0x14000, 0x18000⟩

/-- It is started on a package with a key of sevens, and memory is full of something else. -/
def reloaded : Caam.Machine := loadedAt moved 0xff 7

/-- Start-up has returned. -/
def reunpacked : Caam.Machine := Caam.Demo.after (Hwkey.startUp board moved reloaded)

/-- Another client has connected after the secure storage server. -/
def shared : App (Caam.caamDev board moved.rngData) :=
  booted board moved 80 reunpacked (storageSys.connect 6 7 1 (.hwkey ⟨6, 7⟩))

lemma apart_moved : moved.Apart board :=
  apart_of_le (by decide) (by decide) (by decide) (by decide) (by decide)

lemma startUp_reloaded : Hwkey.startUp board moved reloaded = (.ok 80, reunpacked) :=
  Caam.Demo.eq_after (by decide +kernel)

lemma onCaam_reloaded (sys : Sys) {e : Event (Caam.caamDev board moved.rngData)}
    (hcrypto : e.crypto = unwrapping (some 7)) (hjobs : e.jobs = id) :
    OnCaam board moved (booted board moved 80 reunpacked sys) e := by
  have hprep : RpmbPrepares board moved := by
    simp only [RpmbPrepares, List.forall_mem_cons]
    exact ⟨fun _ => rfl, fun _ => rfl, fun _ => rfl, fun _ => rfl, fun _ => rfl, by simp⟩
  exact onCaam_board apart_moved (by decide +kernel) startUp_reloaded (by decide +kernel)
    (by decide +kernel) hprep hcrypto hjobs

lemma reachable_shared : (appOnCaam board moved config reloaded).Reachable shared := by
  obtain ⟨s₀, es, hinit, hrun⟩ :=
    reachable_booted (b := some 7) startUp_reloaded fun sys _ => onCaam_reloaded sys
  refine ⟨s₀, _, hinit, hrun.snoc (e := connectKey (some 7) 6 7 1)
    ⟨?_, onCaam_reloaded _ rfl rfl⟩ ?_⟩
  · exact ⟨⟨_, rfl, rfl, rfl⟩, fun _ => rfl, fun _ hp => Option.some.inj hp ▸ rfl, fun _ => le_rfl⟩
  · have hsys := Sys.accept_store_setCookie storageSys 6 7 1 (.hwkey ⟨6, 7⟩)
      (rfl : (⟨0, le_rfl⟩ : Rc).1 = 0)
    exact congrArg (fun sys => (.ok (booted board moved 80 reunpacked sys) :
      Except Stop (App (Caam.caamDev board moved.rngData)))) hsys

end Demo

/-- The package of the demo is unpacked, after the self-test. -/
theorem mainStart_outcome_loaded : ∃ len m', Hwkey.mainStart Demo.envErrors Demo.board Demo.layout
      Demo.complete (some (Caam.Demo.stack 0x9000)) Demo.loaded = (.ok (.ok len), m') ∧
    Hwkey.Provisioned Demo.board Demo.layout Demo.loaded m' len := by
  have hout := Hwkey.mainStart_outcome (U := Demo.envErrors) (a := Demo.complete)
    Demo.board_layout (fun st hst => Option.some.inj hst ▸ Demo.testable_board) Demo.loaded
  rcases hrun : Hwkey.mainStart Demo.envErrors Demo.board Demo.layout Demo.complete
    (some (Caam.Demo.stack 0x9000)) Demo.loaded with ⟨r, m'⟩
  rw [hrun] at hout
  cases hout with
  | unmapped hmapped => exact absurd (show Demo.complete.Mapped by decide) hmapped
  | noMemory _ hmem => exact absurd ⟨rfl, rfl⟩ hmem
  | noPackage _ _ hmagic => exact absurd (by decide +kernel) hmagic
  | provisioned _ _ hprov => exact ⟨_, _, rfl, hprov⟩

theorem staticData_of_reachable_storage :
    StaticData Demo.board Demo.layout Demo.loaded Demo.storage :=
  staticData_of_reachable Demo.sound_board (fun _ => rfl) Demo.apart_layout
    Demo.reachable_storage

/-- The secure storage server gets the same key after both boots, in the second with its buffers
elsewhere, on another package, and with another client connected. -/
theorem derived_across_boots_moved : ∃ status data,
    derivedKey Demo.proto (Demo.unwrapping (some 9)) (Demo.board.core.masterKey Caam.kdfv1Salt)
        Hwkey.ssUuid [65, 66] = (status, data) ∧
      Responds Demo.config Demo.storage (Demo.askDerivedAB (some 9)) status data ∧
      Responds Demo.config Demo.shared (Demo.askDerivedAB (some 7)) status data := by
  have he : EventOk Demo.storage (Demo.askDerivedAB (some 9)) :=
    Demo.eventOk_request rfl rfl rfl _
  have he' : EventOk Demo.shared (Demo.askDerivedAB (some 7)) :=
    Demo.eventOk_request rfl rfl rfl _
  have hask : AsksKey Demo.config Demo.storage (Demo.askDerivedAB (some 9)) Hwkey.ssUuid [65, 66] :=
    Demo.asks_askDerivedAB rfl rfl rfl
  have hask' : AsksKey Demo.config Demo.shared (Demo.askDerivedAB (some 7)) Hwkey.ssUuid [65, 66] :=
    Demo.asks_askDerivedAB rfl rfl rfl
  exact derived_across_boots Demo.sound_board Demo.sound_board (fun _ => rfl) rfl
    Demo.apart_layout Demo.apart_moved Demo.reachable_storage Demo.reachable_shared he he' rfl
    hask hask'

end TrustyLkNxp
