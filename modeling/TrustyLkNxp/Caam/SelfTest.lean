import TrustyLkNxp.Caam.Calls

/-!
# The self-test of the driver (`WITH_CAAM_SELF_TEST`)

The tests ignore the status of the calls they make and look at the buffers only.  On a platform
that works they pass, except that the test of the random number generator asks for two
different results and gets what the generator yields.
-/

namespace TrustyLkNxp.Caam

open Memory

variable {E : Platform}

/-! ## The tests -/

/-- The CPU writes to a buffer, in a loop or with `memset`. -/
def cpuWrite (E : Platform) (va : ℕ) (bytes : List UInt8) : Drv Unit := do
  Prog.modify fun m => { m with mem := E.put m.mem va bytes }
  act (.write va bytes.length)

/-- `memcmp` finds no difference. -/
def cpuEqual (E : Platform) (va va' n : ℕ) : Drv Bool := do
  let m ← Prog.get
  return E.bytes m.mem va n = E.bytes m.mem va' n

/-- The bytes `'0'`, `'1'`, and so on, from the one given. -/
def countFrom (c : ℕ) (n : ℕ) : List UInt8 := (List.range n).map fun i => UInt8.ofNat (c + i)

/-- `caam_hwrng_test`. -/
def caamHwrngTest (E : Platform) (out1 out2 : ℕ) : Drv Bool := do
  let _ ← caamHwrng E out1 32
  let _ ← caamHwrng E out2 32
  return !(← cpuEqual E out1 out2 32)

/-- `caam_blob_test`. -/
def caamBlobTest (E : Platform) (keymd plain plainBak blob : ℕ) : Drv Bool := do
  -- generate random key mod
  let _ ← caamHwrng E keymd 16
  -- build known input
  cpuWrite E plain (countFrom 0x30 32)
  cpuWrite E plainBak (countFrom 0x30 32)
  -- encap blob
  let _ ← caamGenBlob E keymd 16 plain blob 32
  cpuWrite E plain (List.replicate 32 0xff)
  -- decap blob
  let _ ← caamDecapBlob E keymd 16 plain blob 32
  cpuEqual E plain plainBak 32

/-- `caam_kdfv1_root_key_test`. -/
def caamKdfv1RootKeyTest (E : Platform) (out1 out2 : ℕ) : Drv Bool := do
  let _ ← caamGenKdfv1RootKey E out1 32
  let _ ← caamGenKdfv1RootKey E out2 32
  cpuEqual E out1 out2 32

/-- `caam_aes_test`, which has two verdicts. -/
def caamAesTest (E : Platform) (key buf1 buf2 buf3 : ℕ) : Drv (Bool × Bool) := do
  -- generate random key
  let _ ← caamHwrng E key 16
  -- create input
  cpuWrite E buf1 (countFrom 0x30 32)
  -- reset output
  cpuWrite E buf2 (List.replicate 32 0x55)
  cpuWrite E buf3 (List.replicate 32 0xAA)
  -- encrypt same data twice
  let _ ← caamAesOp E key 16 buf1 buf2 32 true
  let _ ← caamAesOp E key 16 buf1 buf3 32 true
  let same ← cpuEqual E buf2 buf3 32
  -- decrypt res
  let _ ← caamAesOp E key 16 buf3 buf2 32 false
  let back ← cpuEqual E buf1 buf2 32
  return (same, back)

/-- `caam_hash_test`. -/
def caamHashTest (E : Platform) (input hash1 hash2 : ℕ) : Drv Bool := do
  -- generate input
  cpuWrite E input (countFrom 0x31 32)
  -- reset output
  cpuWrite E hash1 (List.replicate 32 0x55)
  cpuWrite E hash2 (List.replicate 32 0xAA)
  -- invoke hash twice
  let _ ← caamHash E input hash1 32
  let _ ← caamHash E input hash2 32
  cpuEqual E hash1 hash2 20

/-- The buffers of the tests, which are on the stack. -/
structure TestStack where
  rngOut1 : ℕ
  rngOut2 : ℕ
  keymd : ℕ
  plain : ℕ
  plainBak : ℕ
  blob : ℕ
  kdfOut1 : ℕ
  kdfOut2 : ℕ
  key : ℕ
  buf1 : ℕ
  buf2 : ℕ
  buf3 : ℕ
  hashIn : ℕ
  hash1 : ℕ
  hash2 : ℕ

/-- `caam_test`: the verdicts, in the order in which they are logged. -/
def caamTest (E : Platform) (st : TestStack) : Drv (List Bool) := do
  let rng ← caamHwrngTest E st.rngOut1 st.rngOut2
  let blob ← caamBlobTest E st.keymd st.plain st.plainBak st.blob
  let kdf ← caamKdfv1RootKeyTest E st.kdfOut1 st.kdfOut2
  let aes ← caamAesTest E st.key st.buf1 st.buf2 st.buf3
  let hash ← caamHashTest E st.hashIn st.hash1 st.hash2
  return [rng, blob, kdf, aes.1, aes.2, hash]

/-! ## Buffers that do not share memory -/

/-- The buffers of a test, with their sizes: they can be prepared, and no byte of memory is in two
places. -/
structure Platform.Frame (E : Platform) (bufs : List (ℕ × ℕ)) : Prop where
  apart : bufs.Pairwise fun a b => Disjoint (E.cells a.1 a.2) (E.cells b.1 b.2)
  prepared : ∀ b ∈ bufs, ∀ allowPartial, E.Prepared allowPartial b.1 b.2
  injOn : ∀ b ∈ bufs, Set.InjOn E.mmu (range b.1 b.2)

/-- The buffers of each of the five tests are apart. -/
structure Platform.Frames (E : Platform) (st : TestStack) : Prop where
  rng : E.Frame [(st.rngOut1, 32), (st.rngOut2, 32)]
  blob : E.Frame [(st.keymd, 16), (st.plain, 32), (st.plainBak, 32), (st.blob, 128)]
  kdf : E.Frame [(st.kdfOut1, 32), (st.kdfOut2, 32)]
  aes : E.Frame [(st.key, 16), (st.buf1, 32), (st.buf2, 32), (st.buf3, 32)]
  hash : E.Frame [(st.hashIn, 32), (st.hash1, 32), (st.hash2, 32)]

/-- The buffers of all tests. -/
def TestStack.buffers (st : TestStack) : List (ℕ × ℕ) :=
  [(st.rngOut1, 32), (st.rngOut2, 32)] ++
  [(st.keymd, 16), (st.plain, 32), (st.plainBak, 32), (st.blob, 128)] ++
  [(st.kdfOut1, 32), (st.kdfOut2, 32)] ++
  [(st.key, 16), (st.buf1, 32), (st.buf2, 32), (st.buf3, 32)] ++
  [(st.hashIn, 32), (st.hash1, 32), (st.hash2, 32)]

/-- The memory of some buffers. -/
def Platform.cellsOf (E : Platform) (bufs : List (ℕ × ℕ)) : Set ℕ :=
  {a | ∃ b ∈ bufs, a ∈ E.cells b.1 b.2}

lemma Platform.cellsOf_mono {bufs bufs' : List (ℕ × ℕ)} (h : bufs ⊆ bufs') :
    E.cellsOf bufs ⊆ E.cellsOf bufs' := fun _ ⟨b, hb, ha⟩ => ⟨b, h hb, ha⟩

lemma Platform.frame_cons {b : ℕ × ℕ} {bufs : List (ℕ × ℕ)} :
    E.Frame (b :: bufs) ↔ ((∀ allowPartial, E.Prepared allowPartial b.1 b.2) ∧
      Set.InjOn E.mmu (range b.1 b.2) ∧
      ∀ b' ∈ bufs, Disjoint (E.cells b.1 b.2) (E.cells b'.1 b'.2)) ∧ E.Frame bufs := by
  constructor
  · rintro ⟨hapart, hprepared, hinj⟩
    obtain ⟨hb, hbufs⟩ := List.pairwise_cons.mp hapart
    exact ⟨⟨hprepared b List.mem_cons_self, hinj b List.mem_cons_self, hb⟩, hbufs,
      fun b' hb' => hprepared b' (List.mem_cons_of_mem _ hb'),
      fun b' hb' => hinj b' (List.mem_cons_of_mem _ hb')⟩
  · rintro ⟨⟨hprepared, hinj, hb⟩, hbufs⟩
    exact ⟨List.pairwise_cons.mpr ⟨hb, hbufs.apart⟩,
      List.forall_mem_cons.mpr ⟨hprepared, hbufs.prepared⟩,
      List.forall_mem_cons.mpr ⟨hinj, hbufs.injOn⟩⟩

/-- A test writes to one of its buffers. -/
lemma Platform.sameOutside_put {bufs : List (ℕ × ℕ)} {mem mem₁ mem₂ : Mem}
    (h : SameOutside (E.cellsOf bufs) mem mem₁) {va n : ℕ} {bytes : List UInt8}
    (hmem : mem₂ = E.put mem₁ va bytes) (hb : (va, n) ∈ bufs) (hlen : bytes.length ≤ n) :
    SameOutside (E.cellsOf bufs) mem mem₂ := by
  rw [hmem]
  exact h.trans ((E.put_frame mem₁ va bytes).mono
    ((E.cells_mono va hlen).trans fun a ha => ⟨_, hb, ha⟩))

lemma cpuWrite_call (E : Platform) (va : ℕ) (bytes : List UInt8) (m : Machine) :
    ∃ m', cpuWrite E va bytes m = (.ok (), m') ∧ m'.mem = E.put m.mem va bytes := ⟨_, rfl, rfl⟩

lemma cpuEqual_call (E : Platform) (va va' n : ℕ) (m : Machine) :
    cpuEqual E va va' n m = (.ok (decide (E.bytes m.mem va n = E.bytes m.mem va' n)), m) := rfl

/-! ## The verdicts -/

section

variable (hE : E.Works) (m : Machine)
include hE

lemma caamHwrngTest_verdict {out1 out2 : ℕ} (h : E.Frame [(out1, 32), (out2, 32)]) :
    ∃ m', caamHwrngTest E out1 out2 m =
      (.ok (!decide (E.core.draw m.drawn 32 = E.core.draw (m.drawn + 32) 32)), m') ∧
        SameOutside (E.cellsOf [(out1, 32), (out2, 32)]) m.mem m'.mem := by
  simp only [Platform.frame_cons, List.forall_mem_cons, List.not_mem_nil, false_implies,
    implies_true, and_true] at h
  have hframe := SameOutside.refl (E.cellsOf [(out1, 32), (out2, 32)]) m.mem
  obtain ⟨⟨hp1, hi1, h12⟩, ⟨hp2, hi2⟩, -⟩ := h
  obtain ⟨m₁, hrun₁, hmem₁, hdrawn₁⟩ := hwrng_call hE m
    (show (Op.hwrng out1 32).Feasible E from ⟨hp1 true, hi1⟩)
  obtain ⟨m₂, hrun₂, hmem₂, -⟩ := hwrng_call hE m₁
    (show (Op.hwrng out2 32).Feasible E from ⟨hp2 true, hi2⟩)
  have hlen : ∀ k, (E.core.draw k (32 : Word).toNat).length = 32 := fun k => E.core.length_draw k 32
  have hfirst : E.bytes m₂.mem out1 32 = E.core.draw m.drawn 32 := by
    rw [hmem₂, E.bytes_put_of_disjoint h12.symm (hlen _).le, hmem₁, E.bytes_put (hlen _) hi1]
    rfl
  have hsecond : E.bytes m₂.mem out2 32 = E.core.draw (m.drawn + 32) 32 := by
    rw [hmem₂, E.bytes_put (hlen _) hi2, hdrawn₁]
    rfl
  have hframe := E.sameOutside_put hframe hmem₁ List.mem_cons_self (hlen _).le
  refine ⟨m₂, ?_, E.sameOutside_put hframe hmem₂ (by simp) (hlen _).le⟩
  rw [caamHwrngTest, Prog.bind_of_ok hrun₁, Prog.bind_of_ok hrun₂,
    Prog.bind_of_ok (cpuEqual_call E out1 out2 32 m₂), hfirst, hsecond]
  rfl

lemma caamBlobTest_verdict {keymd plain plainBak blob : ℕ}
    (h : E.Frame [(keymd, 16), (plain, 32), (plainBak, 32), (blob, 128)]) :
    ∃ m', caamBlobTest E keymd plain plainBak blob m = (.ok true, m') ∧
      SameOutside (E.cellsOf [(keymd, 16), (plain, 32), (plainBak, 32), (blob, 128)])
        m.mem m'.mem := by
  simp only [Platform.frame_cons, List.forall_mem_cons, List.not_mem_nil, false_implies,
    implies_true, and_true] at h
  have hframe :=
    SameOutside.refl (E.cellsOf [(keymd, 16), (plain, 32), (plainBak, 32), (blob, 128)]) m.mem
  obtain ⟨⟨hpk, hik, hkp, -, hkb⟩, ⟨hpp, hip, hpb', hpbl⟩, ⟨-, hib', hb'b⟩, ⟨hpb, hib⟩, -⟩ := h
  have hsize : BlobSize 32 := ⟨by decide, by decide⟩
  have hblob : E.Prepared false blob ((32 : Word).toNat + 48) :=
    fun i k len dir hpos hle => hpb false i k len dir hpos (hle.trans (by decide))
  have hinjb : Set.InjOn E.mmu (range blob 80) := hib.mono (range_subset le_rfl (by omega))
  have hsub : E.cells blob 80 ⊆ E.cells blob 128 := E.cells_mono blob (by decide)
  obtain ⟨m₁, hrun₁, hmem₁, -⟩ := hwrng_call hE m
    (show (Op.hwrng keymd 16).Feasible E from ⟨hpk true, hik⟩)
  have hframe := E.sameOutside_put hframe hmem₁ List.mem_cons_self
    (E.core.length_draw _ _).le
  -- the plaintext is written twice
  let P := countFrom 0x30 32
  have hP : P.length = 32 := by decide
  obtain ⟨m₂, hrun₂, hmem₂⟩ := cpuWrite_call E plain P m₁
  obtain ⟨m₃, hrun₃, hmem₃⟩ := cpuWrite_call E plainBak P m₂
  have hplain : E.bytes m₃.mem plain 32 = P := by
    rw [hmem₃, E.bytes_put_of_disjoint hpb'.symm hP.le, hmem₂, E.bytes_put hP hip]
  obtain ⟨nonce, m₄, hrun₄, hmem₄⟩ := genBlob_call hE m₃
    (show (Op.genBlob keymd 16 plain blob 32).Feasible E from
      ⟨rfl, hsize, hpk false, hpp false, hblob⟩)
  let K := E.bytes m₃.mem keymd 16
  have hmem₄ : m₄.mem = E.put m₃.mem blob (E.core.encap nonce K P) := by
    rw [hmem₄]
    exact congrArg (fun p => E.put m₃.mem blob (E.core.encap nonce K p)) hplain
  have hlen : (E.core.encap nonce K P).length = 80 := by rw [E.core.encap_length, hP]
  obtain ⟨m₅, hrun₅, hmem₅⟩ := cpuWrite_call E plain (List.replicate 32 0xff) m₄
  have hff : (List.replicate 32 (0xff : UInt8)).length ≤ 32 := List.length_replicate.le
  have hkey : E.bytes m₅.mem keymd 16 = K := by
    rw [hmem₅, E.bytes_put_of_disjoint hkp.symm hff, hmem₄,
      E.bytes_put_of_disjoint (hkb.symm.mono_left hsub) hlen.le]
  have hwrapped : E.bytes m₅.mem blob 80 = E.core.encap nonce K P := by
    rw [hmem₅, E.bytes_put_of_disjoint (hpbl.mono_right hsub) hff, hmem₄, E.bytes_put hlen hinjb]
  obtain ⟨m₆, hrun₆, hmem₆⟩ := decapBlob_call hE m₅
    (show (Op.decapBlob keymd 16 plain blob 32).Feasible E from
      ⟨rfl, hsize, hpk false, hpp false, hblob⟩)
    (show E.core.decap (E.bytes m₅.mem keymd 16) (E.bytes m₅.mem blob 80) = some P by
      rw [hkey, hwrapped, E.core.decap_encap]) hP.le
  have hback : E.bytes m₆.mem plain 32 = P := by rw [hmem₆, E.bytes_put hP hip]
  have hbak : E.bytes m₆.mem plainBak 32 = P := by
    rw [hmem₆, E.bytes_put_of_disjoint hpb' hP.le, hmem₅, E.bytes_put_of_disjoint hpb' hff, hmem₄,
      E.bytes_put_of_disjoint (hb'b.symm.mono_left hsub) hlen.le, hmem₃, E.bytes_put hP hib']
  have hframe := E.sameOutside_put hframe hmem₂ (by simp) hP.le
  have hframe := E.sameOutside_put hframe hmem₃ (by simp) hP.le
  have hframe := E.sameOutside_put hframe hmem₄ (by simp) (hlen.trans_le (show 80 ≤ 128 by decide))
  have hframe := E.sameOutside_put hframe hmem₅ (by simp) hff
  refine ⟨m₆, ?_, E.sameOutside_put hframe hmem₆ (by simp) hP.le⟩
  rw [caamBlobTest, Prog.bind_of_ok hrun₁, Prog.bind_of_ok hrun₂, Prog.bind_of_ok hrun₃,
    Prog.bind_of_ok hrun₄, Prog.bind_of_ok hrun₅, Prog.bind_of_ok hrun₆, cpuEqual_call, hback, hbak,
    decide_eq_true rfl]

lemma caamKdfv1RootKeyTest_verdict {out1 out2 : ℕ} (h : E.Frame [(out1, 32), (out2, 32)]) :
    ∃ m', caamKdfv1RootKeyTest E out1 out2 m = (.ok true, m') ∧
      SameOutside (E.cellsOf [(out1, 32), (out2, 32)]) m.mem m'.mem := by
  simp only [Platform.frame_cons, List.forall_mem_cons, List.not_mem_nil, false_implies,
    implies_true, and_true] at h
  have hframe := SameOutside.refl (E.cellsOf [(out1, 32), (out2, 32)]) m.mem
  obtain ⟨⟨hp1, hi1, h12⟩, ⟨hp2, hi2⟩, -⟩ := h
  have hlen := hE.masterKey_length kdfv1Salt
  obtain ⟨m₁, hrun₁, hmem₁⟩ := genKdfv1RootKey_call hE m
    (show (Op.genKdfv1RootKey out1 32).Feasible E from ⟨rfl, hp1 false⟩)
  obtain ⟨m₂, hrun₂, hmem₂⟩ := genKdfv1RootKey_call hE m₁
    (show (Op.genKdfv1RootKey out2 32).Feasible E from ⟨rfl, hp2 false⟩)
  have hfirst : E.bytes m₂.mem out1 32 = E.core.masterKey kdfv1Salt := by
    rw [hmem₂, E.bytes_put_of_disjoint h12.symm hlen.le, hmem₁, E.bytes_put hlen hi1]
  have hsecond : E.bytes m₂.mem out2 32 = E.core.masterKey kdfv1Salt := by
    rw [hmem₂, E.bytes_put hlen hi2]
  have hframe := E.sameOutside_put hframe hmem₁ List.mem_cons_self hlen.le
  refine ⟨m₂, ?_, E.sameOutside_put hframe hmem₂ (by simp) hlen.le⟩
  rw [caamKdfv1RootKeyTest, Prog.bind_of_ok hrun₁, Prog.bind_of_ok hrun₂, cpuEqual_call, hfirst,
    hsecond, decide_eq_true rfl]

lemma caamAesTest_verdict {key buf1 buf2 buf3 : ℕ}
    (h : E.Frame [(key, 16), (buf1, 32), (buf2, 32), (buf3, 32)]) :
    ∃ m', caamAesTest E key buf1 buf2 buf3 m = (.ok (true, true), m') ∧
      SameOutside (E.cellsOf [(key, 16), (buf1, 32), (buf2, 32), (buf3, 32)]) m.mem m'.mem := by
  simp only [Platform.frame_cons, List.forall_mem_cons, List.not_mem_nil, false_implies,
    implies_true, and_true] at h
  have hframe := SameOutside.refl (E.cellsOf [(key, 16), (buf1, 32), (buf2, 32), (buf3, 32)]) m.mem
  obtain ⟨⟨hpk, hik, -, hk2, hk3⟩, ⟨hp1, hi1, h12, h13⟩, ⟨hp2, hi2, h23⟩, ⟨hp3, hi3⟩, -⟩ := h
  have hfeasible : ∀ enc {input output : ℕ}, E.Prepared false input 32 →
      E.Prepared false output 32 → (Op.aesOp key 16 input output 32 enc).Feasible E :=
    fun _ _ _ hin hout => ⟨rfl, by decide, by decide, by decide, hpk false, hin, hout⟩
  obtain ⟨m₁, hrun₁, hmem₁, -⟩ := hwrng_call hE m
    (show (Op.hwrng key 16).Feasible E from ⟨hpk true, hik⟩)
  have hframe := E.sameOutside_put hframe hmem₁ List.mem_cons_self
    (E.core.length_draw _ _).le
  let P := countFrom 0x30 32
  have hP : P.length = 32 := by decide
  obtain ⟨m₂, hrun₂, hmem₂⟩ := cpuWrite_call E buf1 P m₁
  obtain ⟨m₃, hrun₃, hmem₃⟩ := cpuWrite_call E buf2 (List.replicate 32 0x55) m₂
  obtain ⟨m₄, hrun₄, hmem₄⟩ := cpuWrite_call E buf3 (List.replicate 32 0xAA) m₃
  have h55 : (List.replicate 32 (0x55 : UInt8)).length ≤ 32 := List.length_replicate.le
  have haa : (List.replicate 32 (0xAA : UInt8)).length ≤ 32 := List.length_replicate.le
  have hplain₄ : E.bytes m₄.mem buf1 32 = P := by
    rw [hmem₄, E.bytes_put_of_disjoint h13.symm haa, hmem₃,
      E.bytes_put_of_disjoint h12.symm h55, hmem₂, E.bytes_put hP hi1]
  let K := E.bytes m₄.mem key 16
  let X := E.core.aes true K P
  have hX : X.length = 32 := by rw [E.core.aes_length, hP]
  -- the first encryption
  obtain ⟨m₅, hrun₅, hmem₅⟩ := aesOp_call hE m₄ (hfeasible true (hp1 false) (hp2 false))
  have hmem₅ : m₅.mem = E.put m₄.mem buf2 X := by
    rw [hmem₅]
    exact congrArg (fun p => E.put m₄.mem buf2 (E.core.aes true K p)) hplain₄
  have hkey₅ : E.bytes m₅.mem key 16 = K := by
    rw [hmem₅, E.bytes_put_of_disjoint hk2.symm hX.le]
  have hplain₅ : E.bytes m₅.mem buf1 32 = P := by
    rw [hmem₅, E.bytes_put_of_disjoint h12.symm hX.le, hplain₄]
  -- the second one
  obtain ⟨m₆, hrun₆, hmem₆⟩ := aesOp_call hE m₅ (hfeasible true (hp1 false) (hp3 false))
  have hmem₆ : m₆.mem = E.put m₅.mem buf3 X := by
    rw [hmem₆, hkey₅]
    exact congrArg (fun p => E.put m₅.mem buf3 (E.core.aes true K p)) hplain₅
  have hsame : E.bytes m₆.mem buf2 32 = X ∧ E.bytes m₆.mem buf3 32 = X := by
    rw [hmem₆, E.bytes_put_of_disjoint h23.symm hX.le, hmem₅]
    exact ⟨E.bytes_put hX hi2, E.bytes_put hX hi3⟩
  have hkey₆ : E.bytes m₆.mem key 16 = K := by
    rw [hmem₆, E.bytes_put_of_disjoint hk3.symm hX.le, hkey₅]
  have hplain₆ : E.bytes m₆.mem buf1 32 = P := by
    rw [hmem₆, E.bytes_put_of_disjoint h13.symm hX.le, hplain₅]
  -- and the decryption
  obtain ⟨m₇, hrun₇, hmem₇⟩ := aesOp_call hE m₆ (hfeasible false (hp3 false) (hp2 false))
  have hmem₇ : m₇.mem = E.put m₆.mem buf2 P := by
    rw [hmem₇, hkey₆, show E.bytes m₆.mem buf3 (32 : Word).toNat = X from hsame.2,
      E.core.aes_inv K P (by rw [hP])]
  have hback : E.bytes m₇.mem buf2 32 = P := by rw [hmem₇, E.bytes_put hP hi2]
  have hplain₇ : E.bytes m₇.mem buf1 32 = P := by
    rw [hmem₇, E.bytes_put_of_disjoint h12.symm hP.le, hplain₆]
  have hframe := E.sameOutside_put hframe hmem₂ (by simp) hP.le
  have hframe := E.sameOutside_put hframe hmem₃ (by simp) h55
  have hframe := E.sameOutside_put hframe hmem₄ (by simp) haa
  have hframe := E.sameOutside_put hframe hmem₅ (by simp) hX.le
  have hframe := E.sameOutside_put hframe hmem₆ (by simp) hX.le
  refine ⟨m₇, ?_, E.sameOutside_put hframe hmem₇ (by simp) hP.le⟩
  have hcmp : cpuEqual E buf2 buf3 32 m₆ = (.ok true, m₆) := by
    rw [cpuEqual_call, hsame.1, hsame.2, decide_eq_true rfl]
  have hcmp' : cpuEqual E buf1 buf2 32 m₇ = (.ok true, m₇) := by
    rw [cpuEqual_call, hback, hplain₇, decide_eq_true rfl]
  rw [caamAesTest, Prog.bind_of_ok hrun₁, Prog.bind_of_ok hrun₂, Prog.bind_of_ok hrun₃,
    Prog.bind_of_ok hrun₄, Prog.bind_of_ok hrun₅, Prog.bind_of_ok hrun₆, Prog.bind_of_ok hcmp,
    Prog.bind_of_ok hrun₇, Prog.bind_of_ok hcmp']
  rfl

lemma caamHashTest_verdict {input hash1 hash2 : ℕ}
    (h : E.Frame [(input, 32), (hash1, 32), (hash2, 32)]) :
    ∃ m', caamHashTest E input hash1 hash2 m = (.ok true, m') ∧
      SameOutside (E.cellsOf [(input, 32), (hash1, 32), (hash2, 32)]) m.mem m'.mem := by
  simp only [Platform.frame_cons, List.forall_mem_cons, List.not_mem_nil, false_implies,
    implies_true, and_true] at h
  have hframe := SameOutside.refl (E.cellsOf [(input, 32), (hash1, 32), (hash2, 32)]) m.mem
  obtain ⟨⟨hpi, hii, hin1, hin2⟩, ⟨hp1, hi1, h12⟩, ⟨hp2, hi2⟩, -⟩ := h
  let P := countFrom 0x31 32
  have hP : P.length = 32 := by decide
  have h55 : (List.replicate 32 (0x55 : UInt8)).length ≤ 32 := List.length_replicate.le
  have haa : (List.replicate 32 (0xAA : UInt8)).length ≤ 32 := List.length_replicate.le
  obtain ⟨m₁, hrun₁, hmem₁⟩ := cpuWrite_call E input P m
  obtain ⟨m₂, hrun₂, hmem₂⟩ := cpuWrite_call E hash1 (List.replicate 32 0x55) m₁
  obtain ⟨m₃, hrun₃, hmem₃⟩ := cpuWrite_call E hash2 (List.replicate 32 0xAA) m₂
  have hin₃ : E.bytes m₃.mem input 32 = P := by
    rw [hmem₃, E.bytes_put_of_disjoint hin2.symm haa, hmem₂,
      E.bytes_put_of_disjoint hin1.symm h55, hmem₁, E.bytes_put hP hii]
  have hlen := hE.sha1_length P
  have hfit : (E.core.sha1 P).length ≤ 32 := hlen.trans_le (by decide)
  obtain ⟨m₄, hrun₄, hmem₄⟩ := hash_call hE m₃
    (show (Op.hash input hash1 32).Feasible E from ⟨by decide, by decide, hpi false, hp1 false⟩)
  rw [show E.bytes m₃.mem input (32 : Word).toNat = P from hin₃] at hmem₄
  have hin₄ : E.bytes m₄.mem input 32 = P := by
    rw [hmem₄, E.bytes_put_of_disjoint hin1.symm hfit, hin₃]
  obtain ⟨m₅, hrun₅, hmem₅⟩ := hash_call hE m₄
    (show (Op.hash input hash2 32).Feasible E from ⟨by decide, by decide, hpi false, hp2 false⟩)
  rw [show E.bytes m₄.mem input (32 : Word).toNat = P from hin₄] at hmem₅
  -- the digests take up the first twenty bytes of their buffers
  have hsub : ∀ va, E.cells va 20 ⊆ E.cells va 32 := fun va => E.cells_mono va (by decide)
  have hinj₂₀ : ∀ {va}, Set.InjOn E.mmu (range va 32) → Set.InjOn E.mmu (range va 20) :=
    fun hva => hva.mono (range_subset le_rfl (by omega))
  have hfirst : E.bytes m₅.mem hash1 20 = E.core.sha1 P := by
    rw [hmem₅, E.bytes_put_of_disjoint (h12.symm.mono_right (hsub hash1)) hfit, hmem₄,
      E.bytes_put hlen (hinj₂₀ hi1)]
  have hsecond : E.bytes m₅.mem hash2 20 = E.core.sha1 P := by
    rw [hmem₅, E.bytes_put hlen (hinj₂₀ hi2)]
  have hframe := E.sameOutside_put hframe hmem₁ List.mem_cons_self hP.le
  have hframe := E.sameOutside_put hframe hmem₂ (by simp) h55
  have hframe := E.sameOutside_put hframe hmem₃ (by simp) haa
  have hframe := E.sameOutside_put hframe hmem₄ (by simp) hfit
  refine ⟨m₅, ?_, E.sameOutside_put hframe hmem₅ (by simp) hfit⟩
  rw [caamHashTest, Prog.bind_of_ok hrun₁, Prog.bind_of_ok hrun₂, Prog.bind_of_ok hrun₃,
    Prog.bind_of_ok hrun₄, Prog.bind_of_ok hrun₅, cpuEqual_call, hfirst, hsecond,
    decide_eq_true rfl]

end

/-- On a platform that works the self-test returns, whatever the driver did before.  All of its
verdicts are PASS, except that the first one says whether two results of 32 random bytes each
that follow on each other are different.  Memory changes in the buffers of the tests only. -/
theorem caamTest_verdicts (hE : E.Works) {st : TestStack} (h : E.Frames st) (m : Machine) :
    ∃ m', caamTest E st m = (.ok [!decide (E.core.draw m.drawn 32 = E.core.draw (m.drawn + 32) 32),
      true, true, true, true, true], m') ∧ SameOutside (E.cellsOf st.buffers) m.mem m'.mem := by
  obtain ⟨m₁, hrng, hmem₁⟩ := caamHwrngTest_verdict hE m h.rng
  obtain ⟨m₂, hblob, hmem₂⟩ := caamBlobTest_verdict hE m₁ h.blob
  obtain ⟨m₃, hkdf, hmem₃⟩ := caamKdfv1RootKeyTest_verdict hE m₂ h.kdf
  obtain ⟨m₄, haes, hmem₄⟩ := caamAesTest_verdict hE m₃ h.aes
  obtain ⟨m₅, hhash, hmem₅⟩ := caamHashTest_verdict hE m₄ h.hash
  refine ⟨m₅, ?_, ?_⟩
  · rw [caamTest, Prog.bind_of_ok hrng, Prog.bind_of_ok hblob, Prog.bind_of_ok hkdf,
      Prog.bind_of_ok haes, Prog.bind_of_ok hhash]
    rfl
  · have hsub : ∀ bufs, bufs ⊆ st.buffers → E.cellsOf bufs ⊆ E.cellsOf st.buffers :=
      fun _ => E.cellsOf_mono
    refine ((((hmem₁.mono (hsub _ ?_)).trans (hmem₂.mono (hsub _ ?_))).trans
      (hmem₃.mono (hsub _ ?_))).trans (hmem₄.mono (hsub _ ?_))).trans (hmem₅.mono (hsub _ ?_)) <;>
    simp [TestStack.buffers]

namespace Demo

/-- The buffers of the tests, one behind the other. -/
def stack (base : ℕ) : TestStack where
  rngOut1 := base
  rngOut2 := base + 0x20
  keymd := base + 0x40
  plain := base + 0x60
  plainBak := base + 0x80
  blob := base + 0x100
  kdfOut1 := base + 0x180
  kdfOut2 := base + 0x1a0
  key := base + 0x1c0
  buf1 := base + 0x1e0
  buf2 := base + 0x200
  buf3 := base + 0x220
  hashIn := base + 0x240
  hash1 := base + 0x260
  hash2 := base + 0x280

lemma frame_reading {read : ℕ → Reg → Word} {bufs : List (ℕ × ℕ)}
    (hapart : bufs.Pairwise fun a b => a.1 + a.2 ≤ b.1) (hfits : ∀ b ∈ bufs, b.1 + b.2 ≤ 2 ^ 32) :
    (reading read).Frame bufs where
  apart := hapart.imp fun h => disjoint_cells _ h
  prepared b hb _ := prepared_reading (hfits b hb)
  injOn _ _ := Function.injective_id.injOn

lemma frames_stack {read : ℕ → Reg → Word} {base : ℕ} (hbase : base + 0x2a0 ≤ 2 ^ 32) :
    (reading read).Frames (stack base) := by
  constructor <;> refine frame_reading ?_ ?_ <;> simp [stack] <;> omega

end Demo

theorem caamTest_verdicts_stack : ∃ m', caamTest Demo.working (Demo.stack 0x3000) Demo.used =
    (.ok [true, true, true, true, true, true], m') ∧
      SameOutside (Demo.working.cellsOf (Demo.stack 0x3000).buffers) Demo.used.mem m'.mem :=
  caamTest_verdicts Demo.works_reading (Demo.frames_stack (by decide)) Demo.used

end TrustyLkNxp.Caam
