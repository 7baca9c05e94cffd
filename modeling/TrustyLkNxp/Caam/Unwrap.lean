import TrustyLkNxp.Caam.Lengths
import TrustyLkNxp.Caam.Rng

/-!
# Unwrapping a blob, however it ends

What the operations of the HWKEY provider leave alone, whether they succeed or not, and when
unwrapping a blob succeeds.
-/

namespace TrustyLkNxp.Caam

open Memory

variable {E : Platform}

lemma Platform.cells_mono (E : Platform) (va : ℕ) {n k : ℕ} (h : n ≤ k) :
    E.cells va n ⊆ E.cells va k := by
  rintro _ ⟨i, hi, rfl⟩
  exact ⟨i, by omega, rfl⟩

/-! ## What is left alone -/

/-- The blob protocol changes nothing but its output buffer. -/
lemma blobOp_frame (hE : E.Sound) {kmod input output : ℕ} {inLen outLen op : Word}
    (hop : parseCommand op [] = some (.operation op, [])) (hlen : outLen.toNat < 65536)
    (m : Machine) :
    SameOutside (E.cells output outLen.toNat) m.mem
      (blobOp E kmod input output inLen outLen op m).2.mem := by
  refine dataOp_frame hE (i := 2) (b := ⟨output, outLen, .fromDevice⟩) rfl (fun pa rest => ?_) m
  rintro a ⟨g, hg, hdir, ha⟩
  rw [grants_of_parse (parse_blobDsc inLen outLen op pa rest hop)] at hg
  simp only [Command.grant, List.filterMap_cons, List.filterMap_nil, List.mem_cons,
    List.not_mem_nil, or_false] at hg
  rcases hg with rfl | rfl | rfl
  · exact absurd hdir (by simp)
  · exact absurd hdir (by simp)
  · rwa [Grant.range, Nat.mod_eq_of_lt hlen] at ha

/-- `caam_decap_blob` changes nothing but the plaintext buffer. -/
lemma caamDecapBlob_frame (hE : E.Sound) {kmod plain blob : ℕ} {size : Word}
    (hsize : BlobSize size) (m : Machine) :
    SameOutside (E.cells plain size.toNat) m.mem
      (caamDecapBlob E kmod 16 plain blob size m).2.mem := by
  have hbound := hsize.bound
  rw [caamDecapBlob_eq E _ _ _ (assertion_iff.mpr (Or.inl hbound))]
  exact blobOp_frame hE rfl (by omega) m

/-- The job of `caam_open` does not touch memory. -/
lemma caamOpen_mem (E : Platform) (m : Machine) : (caamOpen E m).2.mem = m.mem := by
  let R : Machine → Machine → Prop := fun m m' => m'.mem = m.mem
  have hrefl : Std.Refl R := ⟨fun _ => rfl⟩
  have htrans : IsTrans Machine R := ⟨fun _ _ _ h h' => h'.trans h⟩
  have hinst : Prog.Relates R (submit E rngInstDsc) := by
    refine relates_submit (fun _ _ _ h => h.mem) fun m m₁ _ _ _ _ hdsc _ => ?_
    funext a
    refine fired_frame E m₁ a ?_
    rintro ⟨g, hg, -, -⟩
    rw [hdsc, grants_of_parse (parse_rngInst _)] at hg
    exact absurd hg (by simp [Command.grant])
  exact relates_caamOpen (.of_quiet fun _ _ _ h => h.mem) hinst m

/-- The descriptor of `caam_gen_kdfv1_root_key`, executed. -/
lemma exec_kdfv1 {core : Core} {nonce : ℕ} {mem mem' : Mem} {drawn drawn' : ℕ} {dsc : List Word}
    {ptr : Word} {salt : List Word}
    (hparse : parseDescriptor dsc = some [.loadImm 0x40 salt, .seqIn 0 0, .seqOut ptr 48,
      .operation 0x870D0002])
    (h : execDescriptor core nonce dsc mem drawn = some (mem', drawn')) :
    ∃ key, mem' = store mem ptr.toNat (core.masterKey key) := by
  have halg : algorithm 0x870D0002 = some .masterKey := rfl
  simp only [execDescriptor, hparse, execCommands, execCommand, Option.bind_eq_bind,
    Option.bind_some, if_true, halg, Deco.start, Deco.output] at h
  split at h
  · simp only [Option.bind_some, Option.pure_def, Option.some.injEq, Prod.mk.injEq] at h
    exact ⟨_, h.1.symm⟩
  · exact absurd h (by simp)

/-- A root key that was generated has changed nothing but its buffer, when the engine's key is
not longer than the buffer. -/
lemma caamGenKdfv1RootKey_frame (hE : E.Sound) (hkey : ∀ key, (E.core.masterKey key).length ≤ 32)
    {out : ℕ} {m m' : Machine}
    (h : caamGenKdfv1RootKey E out 32 m = (.ok caamSuccess, m')) :
    SameOutside (E.cells out 32) m.mem m'.mem := by
  obtain ⟨-, h⟩ := Prog.check_bind_eq_ok h
  obtain ⟨acts, pas, rest, hprep, hexec⟩ := dataOp_success h
  obtain ⟨-, hcells⟩ := hprep.physical hE 0 rfl (show _ = 32 from rfl) (by decide)
  obtain ⟨key, hmem⟩ := exec_kdfv1 (parse_kdfv1 (pas.getD · 0) rest) hexec
  rw [hcells, hmem]
  exact sameOutside_store (hkey key) Set.Subset.rfl

/-! ## When a job succeeds -/

/-- A job that the engine completes, with no error to report, for the descriptor it was given. -/
structure JobEnd.Good (j : JobEnd) : Prop where
  completes : j.completes = true
  status : j.status &&& jobRingSts = 0
  outDesc : ∀ w, j.outDesc w = w

lemma fired_ringOut0 (E : Platform) (m : Machine) :
    (fired E m).ringOut0 = (E.job m.nJob).outDesc m.ringIn := by
  rw [fired, engine]
  dsimp only
  split <;> rfl

/-- A good job whose descriptor can be executed reports no error. -/
lemma fired_of_good {m : Machine} (hgood : (E.job m.nJob).Good) {res : Mem × ℕ}
    (hexec : execDescriptor E.core m.nJob m.dsc m.mem m.drawn = some res) :
    (fired E m).ringOut1 &&& jobRingSts = 0 := by
  have hdone : (if (E.job m.nJob).completes = true ∧ (E.job m.nJob).status &&& jobRingSts = 0 then
      execDescriptor E.core m.nJob m.dsc m.mem m.drawn else none) = some res := by
    rw [if_pos ⟨hgood.completes, hgood.status⟩, hexec]
  rw [fired, engine]
  dsimp only
  rw [hdone]
  exact hgood.status

/-- The calls with which a buffer is prepared succeed. -/
def Platform.Prepares (E : Platform) (b : Buf) : Prop :=
  ∀ n, (E.prep n b.va b.len b.dir false).ret = 1

lemma linkJob_ok {m : Machine} (hjob : E.Prepares ⟨E.gJobDsc, m.dscUsed * 4, .toDevice⟩)
    (hrings : E.Prepares ⟨E.gRings, sizeofGRings, .toDevice⟩) :
    ∃ pa m', linkJob E m = (.ok pa, m') ∧ m'.ringIn = pa ∧ m'.dsc = m.dsc ∧ m'.mem = m.mem ∧
      m'.drawn = m.drawn ∧ m'.nJob = m.nJob :=
  ⟨_, _, (Prog.check_bind_of_pos (hjob m.nPrep)).trans
    (Prog.check_bind_of_pos (hrings (m.nPrep + 1))), rfl, rfl, rfl, rfl, rfl⟩

/-- A job that can be prepared, executed and completed succeeds. -/
lemma submit_ok {words : List Word} {m : Machine}
    (hjob : E.Prepares ⟨E.gJobDsc, BitVec.ofNat 32 words.length * 4, .toDevice⟩)
    (hrings : E.Prepares ⟨E.gRings, sizeofGRings, .toDevice⟩) (hgood : (E.job m.nJob).Good)
    {res : Mem × ℕ} (hexec : execDescriptor E.core m.nJob (words ++ m.dsc.drop words.length) m.mem
      m.drawn = some res) :
    ∃ m', submit E words m = (.ok true, m') := by
  let m₀ : Machine :=
    { m with
      dsc := words ++ m.dsc.drop words.length
      dscUsed := BitVec.ofNat 32 words.length
      trace := .write E.gJobDsc (4 * words.length) :: m.trace }
  obtain ⟨pa, m₁, hlink, hring, hdsc, hmem, hdrawn, hnJob⟩ := linkJob_ok (m := m₀) hjob hrings
  let m₂ : Machine := (caamClkGet E m₁).2
  let m₃ : Machine := fired E { m₂ with trace := .writel .irjar0 1 :: m₂.trace }
  have hgood₂ : (E.job m₂.nJob).Good := by
    change (E.job m₁.nJob).Good
    rwa [hnJob]
  have hout : m₃.ringOut0 = pa := by
    rw [fired_ringOut0]
    exact (hgood₂.outDesc _).trans hring
  have hstatus : m₃.ringOut1 &&& jobRingSts = 0 := by
    have hexec₁ : execDescriptor E.core m₁.nJob m₁.dsc m₁.mem m₁.drawn = some res := by
      rw [hdsc, hmem, hdrawn, hnJob]
      exact hexec
    exact fired_of_good hgood₂ hexec₁
  have hcollect : ∃ m', collectJob E m₂.nJob pa m₃ = (.ok (), m') ∧ m'.status = m₃.ringOut1 :=
    ⟨_, (Prog.bind_of_ok (waitJob_ok hgood₂.completes m₃)).trans (Prog.check_bind_of_pos hout),
      rfl⟩
  obtain ⟨m', hcollect, hsts⟩ := hcollect
  have hrun : runJob E m₀ = (.ok (), m') := by
    rw [runJob, Prog.bind_of_ok hlink]
    exact hcollect
  refine ⟨m', ?_⟩
  have hsubmit : submit E words m = (do
      runJob E
      let n ← Prog.get
      return decide (n.status &&& jobRingSts = 0) : Drv Bool) m₀ := rfl
  rw [hsubmit, Prog.bind_of_ok hrun]
  change (Except.ok (decide (m'.status &&& jobRingSts = 0)), m') = _
  rw [hsts, hstatus]
  rfl

lemma prepareAll_ok {bufs : List Buf} (hbufs : ∀ b ∈ bufs, E.Prepares b) (m : Machine) :
    ∃ acts pas m', prepareAll E bufs m = (.ok (some pas), m') ∧ PreparedAll E bufs acts pas ∧
      Quiet acts m m' ∧ m'.dsc = m.dsc := by
  have hok : ∃ pas m', prepareAll E bufs m = (.ok (some pas), m') := by
    induction bufs generalizing m with
    | nil => exact ⟨[], m, rfl⟩
    | cons b bs ih =>
      let res := E.prep m.nPrep b.va b.len b.dir false
      have hret : res.ret = 1 := hbufs b List.mem_cons_self m.nPrep
      let m₁ : Machine :=
        { m with
          nPrep := m.nPrep + 1
          trace := .prepare b.va b.len b.dir false res :: m.trace }
      have hrest : prepareAll E (b :: bs) m = (do
          let pas ← prepareAll E bs
          return pas.map (BitVec.ofNat 32 res.paddr :: ·) : Drv (Option (List Word))) m₁ :=
        congrFun (if_neg (not_not.mpr hret)) m₁
      obtain ⟨pas, m', hpas⟩ := ih (fun c hc => hbufs c (List.mem_cons_of_mem _ hc)) m₁
      exact ⟨_, m', by rw [hrest, Prog.bind_of_ok hpas]; rfl⟩
  obtain ⟨pas, m', hok⟩ := hok
  obtain ⟨acts, m'', hquiet, hdsc, ⟨hnone, -⟩ | ⟨pas', hsome, hpas⟩⟩ := prepareAll_spec E bufs m
  · exact absurd (hok.symm.trans hnone) (by simp)
  · obtain ⟨rfl, rfl⟩ : pas = pas' ∧ m' = m'' := by simpa using hok.symm.trans hsome
    exact ⟨acts, pas, m', hok, hpas, hquiet, hdsc⟩

/-- Unwrapping succeeds when the buffers can be prepared, the job is good, and the blob is the
encapsulation of a plaintext of the right size. -/
lemma caamDecapBlob_ok (hE : E.Sound) {kmod plain blob : ℕ} {size : Word} (hsize : BlobSize size)
    (hkmod : E.Prepares ⟨kmod, 16, .toDevice⟩)
    (hblob : E.Prepares ⟨blob, size + caamKbHeaderLen, .toDevice⟩)
    (hplain : E.Prepares ⟨plain, size, .fromDevice⟩)
    (hjob : E.Prepares ⟨E.gJobDsc, 32, .toDevice⟩)
    (hrings : E.Prepares ⟨E.gRings, sizeofGRings, .toDevice⟩) {m : Machine}
    (hgood : (E.job m.nJob).Good) {p : List UInt8}
    (hp : E.core.decap (E.bytes m.mem kmod 16) (E.bytes m.mem blob (size.toNat + 48)) = some p)
    (hlen : p.length = size.toNat) :
    ∃ m', caamDecapBlob E kmod 16 plain blob size m = (.ok caamSuccess, m') := by
  have hbound := hsize.bound
  have hpos := hsize.pos
  have hbufs : ∀ b ∈ [⟨kmod, 16, .toDevice⟩, ⟨blob, size + caamKbHeaderLen, .toDevice⟩,
      ⟨plain, size, .fromDevice⟩], E.Prepares b := by
    intro b hb
    simp only [List.mem_cons, List.not_mem_nil, or_false] at hb
    rcases hb with rfl | rfl | rfl
    · exact hkmod
    · exact hblob
    · exact hplain
  obtain ⟨acts, pas, m₁, hall, hprep, hquiet, -⟩ := prepareAll_ok hbufs m
  obtain ⟨hkmod', -⟩ := hprep.physical hE 0 rfl (show _ = 16 from rfl) (by decide)
  obtain ⟨hblob', -⟩ := hprep.physical hE 1 rfl hsize.blob_eq (by omega)
  have hparse := parse_blobDsc (size + caamKbHeaderLen) size 0x860D0000 (pas.getD · 0)
    (m₁.dsc.drop 8) rfl
  rw [hsize.blob_eq, Nat.mod_eq_of_lt (by omega), Nat.mod_eq_of_lt (by omega)] at hparse
  have hexec : ∃ res, execDescriptor E.core m₁.nJob
      (blobDsc (size + caamKbHeaderLen) size 0x860D0000 (pas.getD · 0) ++ m₁.dsc.drop 8) m₁.mem
      m₁.drawn = some res := by
    have halg : algorithm 0x860D0000 = some .decapBlob := rfl
    rw [hkmod', hblob'] at hp
    simp only [execDescriptor, hparse, execCommands, execCommand, Option.bind_eq_bind,
      Option.bind_some, if_true, halg, Deco.input, Deco.start, hquiet.mem, hp, Deco.output,
      hlen, le_refl]
    exact ⟨_, rfl⟩
  obtain ⟨res, hexec⟩ := hexec
  have hgood₁ : (E.job m₁.nJob).Good := by rwa [hquiet.nJob]
  obtain ⟨m₂, hsub⟩ := submit_ok hjob hrings hgood₁ hexec
  refine ⟨{ m₂ with trace := .finish plain size .fromDevice :: m₂.trace }, ?_⟩
  rw [caamDecapBlob_eq E _ _ _ (assertion_iff.mpr (Or.inl hbound)), blobOp, dataOp,
    Prog.bind_of_ok hall]
  dsimp only
  rw [Prog.bind_of_ok hsub]
  rfl

end TrustyLkNxp.Caam
