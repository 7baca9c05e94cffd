import TrustyLkNxp.Hwkey.Keybox
import TrustyLkNxp.Caam.Aes

/-!
# The driver as a library

To its callers the driver is a library of functions on buffers: a call reads the buffers it is
given, computes, and writes one buffer.  This file states those functions, with no descriptors,
rings or physical addresses in them, and shows that on a platform that works every call whose
arguments the hardware can serve returns, with the status and the memory they prescribe.
-/

namespace TrustyLkNxp.Caam

open Memory

variable {E : Platform}

/-! ## What a call is for -/

/-- The salt in the descriptor of `caam_gen_kdfv1_root_key`. -/
def kdfv1Salt : List UInt8 :=
  [0x7083A393, 0x2CC0C9F7, 0xFC5D2FC0, 0x2C4B04E7].flatMap wordBytes

/-- What a call makes of memory and of the number of random bytes that were drawn, if it can. The
nonce makes two encapsulations of the same plaintext different. -/
def Op.effect (E : Platform) (nonce : ℕ) : Op → Mem × ℕ → Option (Mem × ℕ)
  | .caamOpen, s => some s
  | .decapBlob kmod _ plain blob size, (mem, n) =>
    match E.core.decap (E.bytes mem kmod 16) (E.bytes mem blob (size.toNat + 48)) with
    | some p => if p.length ≤ size.toNat then some (E.put mem plain p, n) else none
    | none => none
  | .genBlob kmod _ plain blob size, (mem, n) =>
    some (E.put mem blob
      (E.core.encap nonce (E.bytes mem kmod 16) (E.bytes mem plain size.toNat)), n)
  | .aesOp key _ input output len enc, (mem, n) =>
    some (E.put mem output (E.core.aes enc (E.bytes mem key 16) (E.bytes mem input len.toNat)), n)
  | .hwrng out len, (mem, n) => some (E.put mem out (E.core.draw n len.toNat), n + len.toNat)
  | .hash input output len, (mem, n) =>
    some (E.put mem output (E.core.sha1 (E.bytes mem input len.toNat)), n)
  | .genKdfv1RootKey out _, (mem, n) => some (E.put mem out (E.core.masterKey kdfv1Salt), n)

/-- The memory a call writes to. -/
def Op.output (E : Platform) : Op → Set ℕ
  | .caamOpen => ∅
  | .decapBlob _ _ plain _ size => E.cells plain size.toNat
  | .genBlob _ _ _ blob size => E.cells blob (size.toNat + 48)
  | .aesOp _ _ _ output len _ => E.cells output len.toNat
  | .hwrng out len => E.cells out len.toNat
  | .hash _ output _ => E.cells output 20
  | .genKdfv1RootKey out _ => E.cells out 32

/-- A call returns the status `r` and leads from `s` to `s'`. One that cannot be served fails, and
what it leaves in its output is undefined. -/
inductive Op.Does (E : Platform) (op : Op) : Word → Mem × ℕ → Mem × ℕ → Prop
  | success {nonce : ℕ} {s s' : Mem × ℕ} (h : op.effect E nonce s = some s') :
      Op.Does E op caamSuccess s s'
  | failure {s : Mem × ℕ} {mem : Mem} (h : ∀ nonce, op.effect E nonce s = none)
      (hsame : SameOutside (op.output E) s.1 mem) : Op.Does E op caamFailure s (mem, s.2)

/-- Calls one after the other, each with its status. -/
inductive DoesAll (E : Platform) : List Op → List Word → Mem × ℕ → Mem × ℕ → Prop
  | nil {s : Mem × ℕ} : DoesAll E [] [] s s
  | cons {op : Op} {ops : List Op} {r : Word} {rs : List Word} {s s' s'' : Mem × ℕ}
      (h : op.Does E r s s') (hrest : DoesAll E ops rs s' s'') :
      DoesAll E (op :: ops) (r :: rs) s s''

/-- The driver is called several times. -/
def callAll (E : Platform) : List Op → Drv (List Word)
  | [] => return []
  | op :: ops => do
    let r ← op.run E
    let rs ← callAll E ops
    return r :: rs

/-! ## A platform that works -/

/-- The kernel prepares every part of the buffer. -/
def Platform.Prepared (E : Platform) (allowPartial : Bool) (va n : ℕ) : Prop :=
  ∀ i k len dir, 0 < len.toNat → k + len.toNat ≤ n →
    (E.prep i (va + k) len dir allowPartial).ret = 1

/-- The hardware completes every job, the kernel prepares the memory of the driver, and the
functions of the engine have results of the documented lengths. -/
structure Platform.Works (E : Platform) : Prop where
  sound : E.Sound
  jobs : ∀ n, (E.job n).Good
  job_prepared : E.Prepared false E.gJobDsc 256
  rings_prepared : E.Prepared false E.gRings 4
  sha1_length : ∀ data, (E.core.sha1 data).length = 20
  masterKey_length : ∀ key, (E.core.masterKey key).length = 32

/-- The hardware can serve the call. -/
def Op.Feasible (E : Platform) : Op → Prop
  -- the random number generator is instantiated, or can be
  | .caamOpen => ∀ n, E.read n .rdsta &&& rdstaIf0 = rdstaIf0 ∨
      E.read (n + 4) .rdsta = rdstaIf0 ||| rdstaSkvn
  | .decapBlob kmod kmodSize plain blob size =>
    kmodSize = 16 ∧ BlobSize size ∧ E.Prepared false kmod 16 ∧ E.Prepared false plain size.toNat ∧
      E.Prepared false blob (size.toNat + 48)
  | .genBlob kmod kmodSize plain blob size =>
    kmodSize = 16 ∧ BlobSize size ∧ E.Prepared false kmod 16 ∧ E.Prepared false plain size.toNat ∧
      E.Prepared false blob (size.toNat + 48)
  | .aesOp key keySize input output len _ =>
    keySize = 16 ∧ 0 < len.toNat ∧ len ≤ 0xFFFF ∧ len % 16 = 0 ∧ E.Prepared false key 16 ∧
      E.Prepared false input len.toNat ∧ E.Prepared false output len.toNat
  | .hwrng out len => E.Prepared true out len.toNat ∧ Set.InjOn E.mmu (range out len.toNat)
  -- the digest is written whatever the length of the input
  | .hash input output len =>
    20 ≤ len.toNat ∧ len ≤ 0xFFFF ∧ E.Prepared false input len.toNat ∧
      E.Prepared false output len.toNat
  | .genKdfv1RootKey out size => size = 32 ∧ E.Prepared false out 32

lemma Platform.Prepared.buf {va n : ℕ} (h : E.Prepared false va n) {len : Word}
    (hpos : 0 < len.toNat) (hle : len.toNat ≤ n) (dir : Dir) : E.Prepares ⟨va, len, dir⟩ :=
  fun i => h i 0 len dir hpos (by omega)

/-! ## The engine writes where the CPU does -/

lemma store_cons (mem : Mem) (a : ℕ) (b : UInt8) (bytes : List UInt8) :
    store mem a (b :: bytes) = Function.update (store mem (a + 1) bytes) a b := by
  funext i
  rcases lt_trichotomy i a with hlt | rfl | hgt
  · simp [store, Function.update_of_ne hlt.ne, show ¬ a ≤ i by omega, show ¬ a + 1 ≤ i by omega]
  · simp [store]
  · obtain ⟨d, rfl⟩ := Nat.exists_eq_add_of_lt hgt
    rw [Function.update_of_ne (by omega)]
    have hle : a ≤ a + d + 1 ∧ a + 1 ≤ a + d + 1 := by omega
    have hsub : a + d + 1 - a = d + 1 ∧ a + d + 1 - (a + 1) = d := by omega
    simp only [store, if_pos hle.1, if_pos hle.2, hsub.1, hsub.2, List.getElem?_cons_succ]

/-- Where a buffer is contiguous, writing to it is writing to a range of physical memory. -/
lemma Platform.put_eq_store {va pa : ℕ} {bytes : List UInt8}
    (h : ∀ i < bytes.length, E.mmu (va + i) = pa + i) (mem : Mem) :
    E.put mem va bytes = store mem pa bytes := by
  induction bytes generalizing va pa with
  | nil =>
    funext i
    simp [Platform.put, store]
  | cons b bs ih =>
    have hrest : ∀ i < bs.length, E.mmu (va + 1 + i) = pa + 1 + i := by
      intro i hi
      have hi := h (i + 1) (by rw [List.length_cons]; omega)
      rw [show va + 1 + i = va + (i + 1) by omega, hi]
      omega
    have hfirst : E.mmu va = pa := h 0 (by rw [List.length_cons]; omega)
    rw [Platform.put, ih hrest, store_cons, hfirst]

lemma PrepareOk.put_eq {va : ℕ} {len : Word} {allowPartial : Bool} {res : Prepared}
    (h : PrepareOk E va len allowPartial res) {bytes : List UInt8}
    (hn : bytes.length ≤ res.size.toNat) (mem : Mem) :
    E.put mem va bytes = store mem res.paddr bytes :=
  E.put_eq_store (fun i hi => h.maps i (by omega)) mem

/-- Writing to a buffer that was prepared is writing to where the descriptor points. -/
lemma PreparedAll.put_eq (hE : E.Sound) {bufs : List Buf} {acts : List Act} {pas : List Word}
    (h : PreparedAll E bufs acts pas) (i : ℕ) {b : Buf} (hb : bufs[i]? = some b)
    {bytes : List UInt8} (hn : bytes.length ≤ b.len.toNat) (hpos : 0 < b.len.toNat) (mem : Mem) :
    E.put mem b.va bytes = store mem (pas.getD i 0).toNat bytes := by
  induction h generalizing i with
  | nil => simp at hb
  | @cons c bs acts pas k hret _ ih =>
    cases i with
    | zero =>
      obtain rfl : c = b := by simpa using hb
      have hok := hE k c.va c.len c.dir false hret
      have hsize := congrArg BitVec.toNat (hok.size_eq rfl)
      rw [List.getD_cons_zero, hok.toNat_paddr (by omega)]
      exact hok.put_eq (by omega) mem
    | succ i =>
      rw [List.getD_cons_succ]
      exact ih i (by simpa using hb)

/-- Writing to one buffer does not change another. -/
lemma Platform.bytes_put_of_disjoint {va va' n n' : ℕ} {bytes : List UInt8}
    (hdisj : Disjoint (E.cells va n) (E.cells va' n')) (hlen : bytes.length ≤ n) (mem : Mem) :
    E.bytes (E.put mem va bytes) va' n' = E.bytes mem va' n' :=
  E.bytes_of_sameOutside (E.put_frame mem va bytes) (hdisj.mono_left (E.cells_mono va hlen))

/-- A call writes to its output only. -/
lemma Op.Does.frame {op : Op} {r : Word} {s s' : Mem × ℕ} (hE : E.Works) (h : op.Does E r s s') :
    SameOutside (op.output E) s.1 s'.1 := by
  cases h with
  | failure _ hsame => exact hsame
  | @success nonce _ _ h =>
    have hput : ∀ {va n bytes}, bytes.length ≤ n →
        SameOutside (E.cells va n) s.1 (E.put s.1 va bytes) :=
      fun hlen => (E.put_frame _ _ _).mono (E.cells_mono _ hlen)
    cases op with
    | caamOpen =>
      rw [Op.effect, Option.some.injEq] at h
      rw [h]
      exact .refl _ _
    | decapBlob kmod kmodSize plain blob size =>
      simp only [Op.effect] at h
      split at h
      · split at h
        · rename_i hlen
          rw [← Option.some.inj h]
          exact hput hlen
        · exact absurd h (by simp)
      · exact absurd h (by simp)
    | genBlob =>
      rw [← Option.some.inj h]
      exact hput (by rw [E.core.encap_length, E.length_bytes])
    | aesOp =>
      rw [← Option.some.inj h]
      exact hput (by rw [E.core.aes_length, E.length_bytes])
    | hwrng =>
      rw [← Option.some.inj h]
      exact hput (E.core.length_draw _ _).le
    | hash =>
      rw [← Option.some.inj h]
      exact hput (hE.sha1_length _).le
    | genKdfv1RootKey =>
      rw [← Option.some.inj h]
      exact hput (hE.masterKey_length _).le

/-! ## The descriptors, executed -/

section

variable {core : Core} {nonce : ℕ} {mem : Mem} {drawn : ℕ} {dsc : List Word}
  {kmodPa inPa outPa : Word} {n k : ℕ}

lemma exec_gen_eq (hparse : parseDescriptor dsc = some [.load 0x40 kmodPa 16, .seqIn inPa n,
      .seqOut outPa (n + 48), .operation 0x870D0000]) :
    execDescriptor core nonce dsc mem drawn = some (store mem outPa.toNat
      (core.encap nonce (load mem kmodPa.toNat 16) (load mem inPa.toNat n)), drawn) := by
  have halg : algorithm 0x870D0000 = some .encapBlob := rfl
  simp only [execDescriptor, hparse, execCommands, execCommand, Option.bind_eq_bind,
    Option.bind_some, if_true, halg, Deco.output, Deco.input, Deco.start, core.encap_length,
    length_load, le_refl, Option.pure_def]

lemma exec_decap_eq (hparse : parseDescriptor dsc = some [.load 0x40 kmodPa 16, .seqIn inPa k,
      .seqOut outPa n, .operation 0x860D0000]) :
    execDescriptor core nonce dsc mem drawn =
      match core.decap (load mem kmodPa.toNat 16) (load mem inPa.toNat k) with
      | some p => if p.length ≤ n then some (store mem outPa.toNat p, drawn) else none
      | none => none := by
  have halg : algorithm 0x860D0000 = some .decapBlob := rfl
  simp only [execDescriptor, hparse, execCommands, execCommand, Option.bind_eq_bind,
    Option.bind_some, if_true, halg, Deco.input, Deco.start]
  cases core.decap (load mem kmodPa.toNat 16) (load mem inPa.toNat k) with
  | none => rfl
  | some p => by_cases hlen : p.length ≤ n <;> simp [Deco.output, hlen]

lemma exec_aes_eq {enc : Bool} (hparse : parseDescriptor dsc = some [.key kmodPa 16,
      .operation (if enc then 0x8210020D else 0x8210020C), .fifoLoad inPa n,
      .fifoStore 0x30 outPa n]) :
    execDescriptor core nonce dsc mem drawn = some (store mem outPa.toNat
      (core.aes enc (load mem kmodPa.toNat 16) (load mem inPa.toNat n)), drawn) := by
  have hlen := (core.aes_length enc (load mem kmodPa.toNat 16) (load mem inPa.toNat n)).trans
    length_load
  simp only [execDescriptor, hparse, execCommands, execCommand, Option.bind_eq_bind,
    Option.bind_some, algorithm_aes, Deco.start, true_and, if_pos hlen.ge, Option.pure_def,
    List.take_of_length_le hlen.le]

lemma exec_hwrng_eq (hparse : parseDescriptor dsc =
      some [.operation 0x82500000, .fifoStore 0x34 outPa n]) :
    execDescriptor core nonce dsc mem drawn =
      some (store mem outPa.toNat (core.draw drawn n), drawn + n) := by
  have halg : algorithm 0x82500000 = some .rng := rfl
  simp only [execDescriptor, hparse, execCommands, execCommand, Option.bind_eq_bind, halg,
    Deco.start, Option.bind_some]
  simp

lemma exec_hash_eq (hlen : ∀ data, (core.sha1 data).length = 20) (hparse : parseDescriptor dsc =
      some [.operation 0x8441000D, .fifoLoad inPa n, .store 0x20 outPa 20]) :
    execDescriptor core nonce dsc mem drawn =
      some (store mem outPa.toNat (core.sha1 (load mem inPa.toNat n)), drawn) := by
  have halg : algorithm 0x8441000D = some .sha1 := rfl
  simp only [execDescriptor, hparse, execCommands, execCommand, Option.bind_eq_bind, halg,
    Deco.start, Option.bind_some, hlen, le_refl, and_self, if_true, Option.pure_def,
    List.take_of_length_le (hlen _).le]

lemma exec_kdfv1_eq (hlen : ∀ key, (core.masterKey key).length = 32)
    (hparse : parseDescriptor dsc =
      some [.loadImm 0x40 [0x7083A393, 0x2CC0C9F7, 0xFC5D2FC0, 0x2C4B04E7], .seqIn 0 0,
        .seqOut outPa 48, .operation 0x870D0002]) :
    execDescriptor core nonce dsc mem drawn =
      some (store mem outPa.toNat (core.masterKey kdfv1Salt), drawn) := by
  have halg : algorithm 0x870D0002 = some .masterKey := rfl
  simp only [execDescriptor, hparse, execCommands, execCommand, Option.bind_eq_bind,
    Option.bind_some, if_true, halg, Deco.start, Deco.output, hlen, kdfv1Salt]
  rfl

lemma exec_rngInst_eq (hparse : parseDescriptor dsc = some [.loadImm 0x20 [0x01020304, 0x05060708],
      .operation 0x82500404, .jump 0xA2000001, .loadImm 0x08 [0x00000001],
      .operation 0x82501000]) :
    execDescriptor core nonce dsc mem drawn = some (mem, drawn) := by
  have halg : algorithm 0x82500404 = some .rngInst := rfl
  have halg' : algorithm 0x82501000 = some .rngInst := rfl
  simp only [execDescriptor, hparse, execCommands, execCommand, Option.bind_eq_bind, halg, halg',
    Deco.start, Option.bind_some]
  rfl

end

/-! ## A job is run -/

/-- The number of reads of registers does not change while a job is run. -/
lemma submit_nRead (E : Platform) (words : List Word) (m : Machine) :
    (submit E words m).2.nRead = m.nRead := by
  let R : Machine → Machine → Prop := fun m m' => m'.nRead = m.nRead
  have hrefl : Std.Refl R := ⟨fun _ => rfl⟩
  have htrans : IsTrans Machine R := ⟨fun _ _ _ h h' => h'.trans h⟩
  have hprepare : ∀ va len, Prog.Relates R (prepareDma E va len .toDevice false) :=
    fun va len m => rfl
  have hlink : Prog.Relates R (linkJob E) := by
    refine .bind (fun _ => rfl) fun m => .bind (hprepare _ _) fun pmem => ?_
    refine .bind (.of_check _ _) fun _ => .bind (fun _ => rfl) fun _ => ?_
    refine .bind (fun _ => rfl) fun _ => .bind (hprepare _ _) fun pmem => ?_
    exact .bind (.of_check _ _) fun _ => .of_pure _
  have hengine : ∀ m, R m (engine E m) := by
    intro m
    change (engine E m).nRead = m.nRead
    rw [engine]
    dsimp only
    split <;> rfl
  have hcollect : ∀ job pa, Prog.Relates R (collectJob E job pa) := by
    intro job pa
    have hwait : Prog.Relates R (waitJob E job) := .bind (fun _ => rfl) fun _ => .of_check _ _
    refine .bind hwait fun _ => .bind (fun _ => rfl) fun _ => ?_
    refine .bind (fun _ => rfl) fun _ => .bind (.of_check _ _) fun _ => ?_
    exact .bind (fun _ => rfl) fun _ => fun _ => rfl
  have hrun : Prog.Relates R (runJob E) := by
    refine .bind hlink fun pa => .bind (fun _ => rfl) fun _ => .bind (fun _ => rfl) fun m => ?_
    refine .bind ?_ fun _ => hcollect _ _
    exact .bind (fun _ => rfl) fun _ => .bind (fun _ => rfl) fun _ =>
      .bind (fun _ => rfl) fun _ => hengine
  have hsubmit : Prog.Relates R (submit E words) := by
    refine .bind (fun _ => rfl) fun _ => .bind hrun fun _ => ?_
    exact .bind (fun _ => rfl) fun _ => .of_pure _
  exact hsubmit m

/-- A job the engine cannot execute draws no random bytes. -/
lemma fired_drawn_of_none {m : Machine}
    (h : execDescriptor E.core m.nJob m.dsc m.mem m.drawn = none) :
    (fired E m).drawn = m.drawn := by
  rw [fired, engine]
  dsimp only
  rw [h, ite_self]

/-- Whatever the descriptor, a good job returns. -/
lemma runJob_returns {m : Machine} (hjob : E.Prepares ⟨E.gJobDsc, m.dscUsed * 4, .toDevice⟩)
    (hrings : E.Prepares ⟨E.gRings, sizeofGRings, .toDevice⟩) (hgood : (E.job m.nJob).Good) :
    ∃ m', runJob E m = (.ok (), m') := by
  obtain ⟨pa, m₁, hlink, hring, -, -, -, hnJob⟩ := linkJob_ok hjob hrings
  let m₂ : Machine := (caamClkGet E m₁).2
  let m₃ : Machine := fired E { m₂ with trace := .writel .irjar0 1 :: m₂.trace }
  have hgood₂ : (E.job m₂.nJob).Good := by
    change (E.job m₁.nJob).Good
    rwa [hnJob]
  have hout : m₃.ringOut0 = pa := by
    rw [fired_ringOut0]
    exact (hgood₂.outDesc _).trans hring
  have hcollect : ∃ m', collectJob E m₂.nJob pa m₃ = (.ok (), m') :=
    ⟨_, (Prog.bind_of_ok (waitJob_ok hgood₂.completes m₃)).trans (Prog.check_bind_of_pos hout)⟩
  obtain ⟨m', hcollect⟩ := hcollect
  refine ⟨m', ?_⟩
  rw [runJob, Prog.bind_of_ok hlink]
  exact hcollect

/-- On a platform that works a job succeeds exactly if its descriptor can be executed. -/
lemma submit_works (hE : E.Works) (words : List Word) (hpos : 0 < words.length)
    (hlen : words.length ≤ 64) (m : Machine) :
    ∃ m', match execDescriptor E.core m.nJob (words ++ m.dsc.drop words.length) m.mem m.drawn with
      | some r => submit E words m = (.ok true, m') ∧ (m'.mem, m'.drawn) = r
      | none => submit E words m = (.ok false, m') ∧ m'.drawn = m.drawn ∧
          SameOutside (writable (words ++ m.dsc.drop words.length)) m.mem m'.mem := by
  have hused : (BitVec.ofNat 32 words.length * 4 : Word).toNat = words.length * 4 := by
    have h4 : (4 : Word).toNat = 4 := rfl
    rw [BitVec.toNat_mul, BitVec.toNat_ofNat, h4, Nat.mod_eq_of_lt (a := words.length) (by omega),
      Nat.mod_eq_of_lt (by omega)]
  have hjob : E.Prepares ⟨E.gJobDsc, BitVec.ofNat 32 words.length * 4, .toDevice⟩ :=
    hE.job_prepared.buf (by omega) (by omega) _
  have hrings : E.Prepares ⟨E.gRings, sizeofGRings, .toDevice⟩ :=
    hE.rings_prepared.buf (by decide) (by decide) _
  have hsub := submit_spec E words m
  cases hexec : execDescriptor E.core m.nJob (words ++ m.dsc.drop words.length) m.mem m.drawn with
  | some r =>
    obtain ⟨m', hok⟩ := submit_ok hjob hrings (hE.jobs m.nJob) hexec
    rw [hok] at hsub
    cases hsub with
    | ran _ _ hdsc _ hdone =>
      have hdone := hdone rfl
      rw [hdsc, hexec] at hdone
      exact ⟨m', hok, (Option.some.inj hdone).symm⟩
  | none =>
    let m₀ : Machine :=
      { m with
        dsc := words ++ m.dsc.drop words.length
        dscUsed := BitVec.ofNat 32 words.length
        trace := .write E.gJobDsc (4 * words.length) :: m.trace }
    obtain ⟨m', hrun⟩ := runJob_returns (m := m₀) hjob hrings (hE.jobs m.nJob)
    have hret : submit E words m = (.ok (decide (m'.status &&& jobRingSts = 0)), m') := by
      have hsubmit : submit E words m = (do
          runJob E
          let n ← Prog.get
          return decide (n.status &&& jobRingSts = 0) : Drv Bool) m₀ := rfl
      rw [hsubmit, Prog.bind_of_ok hrun]
      rfl
    rw [hret] at hsub
    cases hsub with
    | @ran val res₁ res₂ post _ m₁ _ hpre _ hdsc hpost hdone =>
      have hfalse : decide (m'.status &&& jobRingSts = 0) = false := by
        by_contra htrue
        have hdone := hdone (congrArg _ (eq_true_of_ne_false htrue))
        rw [hdsc, hexec] at hdone
        exact absurd hdone (by simp)
      have hnone : execDescriptor E.core m₁.nJob m₁.dsc m₁.mem m₁.drawn = none := by
        rw [hdsc, hpre.nJob, hpre.mem, hpre.drawn, hexec]
      refine ⟨m', hfalse ▸ hret, ?_, ?_⟩
      · rw [hpost.drawn, fired_drawn_of_none hnone, hpre.drawn]
      · have hframe := fired_frame E m₁
        rwa [hdsc, hpre.mem, ← hpost.mem] at hframe

/-- A call returns, whatever the kernel says of its buffers. -/
lemma dataOp_returns (hE : E.Works) {bufs : List Buf} {dsc : (ℕ → Word) → List Word}
    (hdsc : ∀ pa, 0 < (dsc pa).length ∧ (dsc pa).length ≤ 64) (out : ℕ) (outLen : Word)
    (m : Machine) : ∃ rc m', dataOp E bufs dsc out outLen m = (.ok rc, m') := by
  obtain ⟨acts, m₁, -, -, ⟨hnone, -⟩ | ⟨pas, hsome, -⟩⟩ := prepareAll_spec E bufs m
  · exact ⟨caamFailure, m₁, Prog.bind_of_ok hnone⟩
  · obtain ⟨hpos, hlen⟩ := hdsc (pas.getD · 0)
    obtain ⟨m₂, hsub⟩ := submit_works hE (dsc (pas.getD · 0)) hpos hlen m₁
    rw [dataOp, Prog.bind_of_ok hsome]
    split at hsub
    · exact ⟨_, _, Prog.bind_of_ok hsub.1⟩
    · exact ⟨_, _, Prog.bind_of_ok hsub.1⟩

lemma caamDecapBlob_returns (hE : E.Works) (kmod plain blob : ℕ) {size : Word}
    (hsize : BlobSize size) (m : Machine) :
    ∃ rc m', caamDecapBlob E kmod 16 plain blob size m = (.ok rc, m') := by
  rw [caamDecapBlob_eq E _ _ _ (assertion_iff.mpr (Or.inl hsize.bound))]
  exact dataOp_returns hE (fun _ => ⟨by simp [blobDsc], by simp [blobDsc]⟩) _ _ m

/-! ## A call is served -/

/-- The call returns, and does what it is for. -/
def Op.Served (E : Platform) (op : Op) (m : Machine) : Prop :=
  ∃ r m', op.run E m = (.ok r, m') ∧ op.Does E r (m.mem, m.drawn) (m'.mem, m'.drawn)

/-- Whether a call can be served does not depend on the nonce. -/
lemma Op.effect_eq_none {op : Op} {nonce : ℕ} {s : Mem × ℕ} (h : op.effect E nonce s = none)
    (nonce' : ℕ) : op.effect E nonce' s = none := by
  cases op with
  | decapBlob => exact h
  | _ => exact absurd h (by simp [Op.effect])

/-- An operation on whole buffers is served when its descriptor, executed, is its effect. -/
lemma dataOp_does (hE : E.Works) {op : Op} {bufs : List Buf} {dsc : (ℕ → Word) → List Word}
    {out : ℕ} {outLen : Word} {m : Machine} (hrun : op.run E m = dataOp E bufs dsc out outLen m)
    (hbufs : ∀ b ∈ bufs, E.Prepares b) (n : ℕ) (hdsc : ∀ pa, (dsc pa).length = n) (hpos : 0 < n)
    (hlen : n ≤ 64)
    (heffect : ∀ acts pas rest, PreparedAll E bufs acts pas →
      execDescriptor E.core m.nJob (dsc (pas.getD · 0) ++ rest) m.mem m.drawn =
        op.effect E m.nJob (m.mem, m.drawn))
    (hframe : op.effect E m.nJob (m.mem, m.drawn) = none →
      SameOutside (op.output E) m.mem (dataOp E bufs dsc out outLen m).2.mem) :
    op.Served E m := by
  obtain ⟨acts, pas, m₁, hall, hprep, hquiet, -⟩ := prepareAll_ok hbufs m
  have hwords := hdsc (pas.getD · 0)
  obtain ⟨m₂, hsub⟩ := submit_works hE _ (hwords ▸ hpos) (hwords ▸ hlen) m₁
  rw [hquiet.nJob, hquiet.mem, hquiet.drawn, heffect acts pas _ hprep] at hsub
  have hdata : dataOp E bufs dsc out outLen m = (do
      if ← submit E (dsc (pas.getD · 0)) then
        finishDma out outLen .fromDevice
        return caamSuccess
      else
        return caamFailure : Drv Word) m₁ := by
    rw [dataOp, Prog.bind_of_ok hall]
  rw [Op.Served, hrun]
  cases hexec : op.effect E m.nJob (m.mem, m.drawn) with
  | some s =>
    rw [hexec] at hsub
    refine ⟨caamSuccess, { m₂ with trace := .finish out outLen .fromDevice :: m₂.trace }, ?_, ?_⟩
    · rw [hdata, Prog.bind_of_ok hsub.1]
      rfl
    · exact .success (hexec.trans (congrArg some hsub.2.symm))
  | none =>
    rw [hexec] at hsub
    have hfail : dataOp E bufs dsc out outLen m = (.ok caamFailure, m₂) := by
      rw [hdata, Prog.bind_of_ok hsub.1]
      rfl
    have hsame := hframe hexec
    rw [hfail] at hsame
    refine ⟨caamFailure, m₂, hfail, ?_⟩
    rw [hsub.2.1]
    exact .failure (Op.effect_eq_none hexec) hsame

section

variable (hE : E.Works) (m : Machine)
include hE

lemma genBlob_does {kmod plain blob : ℕ} {size : Word}
    (h : (Op.genBlob kmod 16 plain blob size).Feasible E) :
    (Op.genBlob kmod 16 plain blob size).Served E m := by
  obtain ⟨-, hsize, hkmod, hplain, hblob⟩ := h
  have hbound := hsize.bound
  have hpos := hsize.pos
  have hlen := hsize.blob_eq
  refine dataOp_does hE (caamGenBlob_eq E kmod plain blob (assertion_iff.mpr (Or.inl hbound)) m)
    ?_ 8 (fun _ => rfl) (by decide) (by decide) ?_ fun hnone => absurd hnone (by simp [Op.effect])
  · intro b hb
    simp only [List.mem_cons, List.not_mem_nil, or_false] at hb
    rcases hb with rfl | rfl | rfl
    · exact hkmod.buf (by decide) (by decide) _
    · exact hplain.buf (by omega) le_rfl _
    · exact hblob.buf (by omega) (by omega) _
  · intro acts pas rest hprep
    have hparse := parse_blobDsc size (size + caamKbHeaderLen) 0x870D0000 (pas.getD · 0) rest rfl
    rw [hlen, Nat.mod_eq_of_lt (by omega), Nat.mod_eq_of_lt (by omega)] at hparse
    obtain ⟨hkmod', -⟩ := hprep.physical hE.sound 0 rfl (show _ = 16 from rfl) (by decide)
    obtain ⟨hplain', -⟩ := hprep.physical hE.sound 1 rfl rfl hpos
    have hfit : (E.core.encap m.nJob (E.bytes m.mem kmod 16)
        (E.bytes m.mem plain size.toNat)).length ≤ (size + caamKbHeaderLen).toNat := by
      rw [E.core.encap_length, E.length_bytes, hlen]
    rw [exec_gen_eq hparse, Op.effect, ← hkmod', ← hplain',
      ← hprep.put_eq hE.sound 2 rfl hfit (hlen ▸ Nat.succ_pos _)]

lemma decapBlob_does {kmod plain blob : ℕ} {size : Word}
    (h : (Op.decapBlob kmod 16 plain blob size).Feasible E) :
    (Op.decapBlob kmod 16 plain blob size).Served E m := by
  obtain ⟨-, hsize, hkmod, hplain, hblob⟩ := h
  have hbound := hsize.bound
  have hpos := hsize.pos
  have hlen := hsize.blob_eq
  refine dataOp_does hE (caamDecapBlob_eq E kmod plain blob (assertion_iff.mpr (Or.inl hbound)) m)
    ?_ 8 (fun _ => rfl) (by decide) (by decide) ?_ fun _ => ?_
  · intro b hb
    simp only [List.mem_cons, List.not_mem_nil, or_false] at hb
    rcases hb with rfl | rfl | rfl
    · exact hkmod.buf (by decide) (by decide) _
    · exact hblob.buf (by omega) (by omega) _
    · exact hplain.buf (by omega) le_rfl _
  · intro acts pas rest hprep
    have hparse := parse_blobDsc (size + caamKbHeaderLen) size 0x860D0000 (pas.getD · 0) rest rfl
    rw [hlen, Nat.mod_eq_of_lt (by omega), Nat.mod_eq_of_lt (by omega)] at hparse
    obtain ⟨hkmod', -⟩ := hprep.physical hE.sound 0 rfl (show _ = 16 from rfl) (by decide)
    obtain ⟨hblob', -⟩ := hprep.physical hE.sound 1 rfl hlen (by omega)
    rw [exec_decap_eq hparse, Op.effect, ← hkmod', ← hblob']
    cases E.core.decap (E.bytes m.mem kmod 16) (E.bytes m.mem blob (size.toNat + 48)) with
    | none => rfl
    | some p =>
      by_cases hp : p.length ≤ size.toNat
      · simp only [if_pos hp, hprep.put_eq hE.sound 2 rfl hp hpos]
      · simp only [if_neg hp]
  · exact blobOp_frame hE.sound rfl (by omega) m

lemma aesOp_does {key input output : ℕ} {len : Word} {enc : Bool}
    (h : (Op.aesOp key 16 input output len enc).Feasible E) :
    (Op.aesOp key 16 input output len enc).Served E m := by
  obtain ⟨-, hpos, hmax, hblocks, hkey, hinput, houtput⟩ := h
  have hle : len.toNat ≤ 65535 := BitVec.le_def.mp hmax
  refine dataOp_does hE ((Prog.check_bind_of_pos rfl).trans
      ((Prog.check_bind_of_pos hmax).trans (Prog.check_bind_of_pos hblocks))) ?_ 8
    (fun _ => rfl) (by decide) (by decide) ?_ fun hnone => absurd hnone (by simp [Op.effect])
  · intro b hb
    simp only [List.mem_cons, List.not_mem_nil, or_false] at hb
    rcases hb with rfl | rfl | rfl
    · exact hkey.buf (by decide) (by decide) _
    · exact hinput.buf hpos le_rfl _
    · exact houtput.buf hpos le_rfl _
  · intro acts pas rest hprep
    have hparse := parse_aes (pas.getD · 0) rest len enc
    rw [Nat.mod_eq_of_lt (by omega)] at hparse
    obtain ⟨hkey', -⟩ := hprep.physical hE.sound 0 rfl (show _ = 16 from rfl) (by decide)
    obtain ⟨hinput', -⟩ := hprep.physical hE.sound 1 rfl rfl hpos
    have hfit : (E.core.aes enc (E.bytes m.mem key 16) (E.bytes m.mem input len.toNat)).length ≤
        len.toNat := by
      rw [E.core.aes_length, E.length_bytes]
    rw [exec_aes_eq hparse, Op.effect, ← hkey', ← hinput',
      ← hprep.put_eq hE.sound 2 rfl hfit hpos]

lemma hash_does {input output : ℕ} {len : Word} (h : (Op.hash input output len).Feasible E) :
    (Op.hash input output len).Served E m := by
  obtain ⟨hmin, hmax, hinput, houtput⟩ := h
  have hpos : 0 < len.toNat := by omega
  have hle : len.toNat ≤ 65535 := BitVec.le_def.mp hmax
  refine dataOp_does hE (Prog.check_bind_of_pos hmax) ?_ 6
    (fun _ => rfl) (by decide) (by decide) ?_ fun hnone => absurd hnone (by simp [Op.effect])
  · intro b hb
    simp only [List.mem_cons, List.not_mem_nil, or_false] at hb
    rcases hb with rfl | rfl
    · exact hinput.buf hpos le_rfl _
    · exact houtput.buf hpos le_rfl _
  · intro acts pas rest hprep
    have hparse := parse_hash (pas.getD · 0) rest len
    rw [Nat.mod_eq_of_lt (by omega)] at hparse
    obtain ⟨hinput', -⟩ := hprep.physical hE.sound 0 rfl rfl hpos
    have hfit : (E.core.sha1 (E.bytes m.mem input len.toNat)).length ≤ len.toNat := by
      rwa [hE.sha1_length]
    rw [exec_hash_eq hE.sha1_length hparse, Op.effect, ← hinput',
      ← hprep.put_eq hE.sound 1 rfl hfit hpos]

lemma genKdfv1RootKey_does {out : ℕ} (h : (Op.genKdfv1RootKey out 32).Feasible E) :
    (Op.genKdfv1RootKey out 32).Served E m := by
  obtain ⟨-, hout⟩ := h
  refine dataOp_does hE (Prog.check_bind_of_pos rfl) ?_ 11
    (fun _ => rfl) (by decide) (by decide) ?_ fun hnone => absurd hnone (by simp [Op.effect])
  · intro b hb
    obtain rfl := List.mem_singleton.mp hb
    exact hout.buf (by decide) (by decide) _
  · intro acts pas rest hprep
    have hparse := parse_kdfv1 (pas.getD · 0) rest
    rw [exec_kdfv1_eq hE.masterKey_length hparse, Op.effect,
      ← hprep.put_eq hE.sound 0 rfl (hE.masterKey_length _).le (Nat.succ_pos _)]

/-! ## Random bytes -/

omit hE in
lemma Platform.Prepared.drop {allowPartial : Bool} {va n k : ℕ}
    (h : E.Prepared allowPartial va (k + n)) : E.Prepared allowPartial (va + k) n := by
  intro i j len dir hpos hle
  rw [Nat.add_assoc]
  exact h i (k + j) len dir hpos (by omega)

/-- The loop ends before it runs out of rounds: every round fills at least a byte. -/
lemma hwrngLoop_works {rounds out : ℕ} {len : Word} (hrounds : len.toNat ≤ rounds)
    (hout : E.Prepared true out len.toNat) :
    ∃ m', hwrngLoop E rounds out len m = (.ok caamSuccess, m') := by
  induction rounds generalizing out len m with
  | zero =>
    obtain rfl : len = 0 := BitVec.eq_of_toNat_eq (Nat.le_zero.mp hrounds)
    exact ⟨m, by rw [hwrngLoop_of_zero]; rfl⟩
  | succ rounds ih =>
    by_cases hlen : len = 0
    · subst hlen
      exact ⟨m, by rw [hwrngLoop_of_zero]; rfl⟩
    have hpos : 0 < len.toNat := Nat.pos_of_ne_zero fun h => hlen (BitVec.eq_of_toNat_eq h)
    obtain ⟨res, m₁, hres, -, -, ⟨hret, -⟩ | ⟨hret, hloop⟩⟩ := hwrngLoop_succ rounds out hlen m
    · exact absurd (hout m.nPrep 0 len .fromDevice hpos (by omega)) (hres ▸ hret)
    have hok := hE.sound m.nPrep out len .fromDevice true (hres ▸ hret)
    rw [← hres] at hok
    have hle : res.size.toNat ≤ len.toNat := BitVec.le_def.mp hok.size_le
    have hone : 1 ≤ res.size.toNat := BitVec.le_def.mp (hok.size_pos hlen)
    have hrest : (len - res.size).toNat = len.toNat - res.size.toNat :=
      BitVec.toNat_sub_of_le hok.size_le
    obtain ⟨m₂, hsub⟩ := submit_works hE [0xB0800004, 0x82500000,
      0x60340000 ||| (0x0000ffff &&& res.size), BitVec.ofNat 32 res.paddr] (Nat.succ_pos _)
      (by simp) m₁
    rw [exec_hwrng_eq (parse_hwrng _ _ _)] at hsub
    obtain ⟨m', hm'⟩ := ih { m₂ with trace := .finish out res.size .fromDevice :: m₂.trace }
      (show (len - res.size).toNat ≤ rounds by omega)
      (Platform.Prepared.drop (k := res.size.toNat) (by rwa [hrest, Nat.add_sub_cancel' hle]))
    refine ⟨m', ?_⟩
    rw [hloop, hwrngRound, Prog.bind_of_ok hsub.1]
    exact hm'

omit hE in
/-- A buffer that holds some bytes, with everything else as before, is one they were written to. -/
lemma Platform.eq_put {va n : ℕ} {mem mem' : Mem} {bytes : List UInt8} (hn : bytes.length = n)
    (hinj : Set.InjOn E.mmu (range va n)) (hsame : SameOutside (E.cells va n) mem mem')
    (hbytes : E.bytes mem' va n = bytes) : E.put mem va bytes = mem' := by
  have hput := E.put_frame mem va bytes
  rw [hn] at hput
  funext a
  by_cases ha : a ∈ E.cells va n
  · obtain ⟨i, hi, rfl⟩ := ha
    have hread : E.bytes (E.put mem va bytes) va n = bytes := E.bytes_put hn hinj
    have heq := hread.trans hbytes.symm
    exact List.map_inj_left.mp heq i (List.mem_range.mpr hi)
  · rw [hput a ha, hsame a ha]

lemma hwrng_does {out : ℕ} {len : Word} (h : (Op.hwrng out len).Feasible E) :
    (Op.hwrng out len).Served E m := by
  obtain ⟨hout, hinj⟩ := h
  obtain ⟨m', hok⟩ := hwrngLoop_works hE m (Nat.le_add_right _ E.patience) hout
  have hfilled := caamHwrng_success hE.sound hinj hok
  have heffect : (Op.hwrng out len).effect E 0 (m.mem, m.drawn) = some (m'.mem, m'.drawn) := by
    rw [Op.effect, hfilled.drawn,
      E.eq_put (E.core.length_draw _ _) hinj hfilled.same hfilled.bytes]
  exact ⟨caamSuccess, m', hok, .success heffect⟩

/-! ## Start-up -/

/-- `caam_open` instantiates the random number generator, if that has not been done, and leaves
memory as it is. -/
lemma caamOpen_does (h : Op.caamOpen.Feasible E) : Op.caamOpen.Served E m := by
  have hrings : (E.prep m.nPrep E.gRings sizeofGRings .toDevice false).ret = 1 :=
    hE.rings_prepared.buf (by decide) (by decide) .toDevice _
  let m₀ : Machine := (caamClkGet E m).2
  obtain ⟨m₁, hsetup, hdrawn₁⟩ : ∃ m₁, setupJobRings E m₀ = (.ok (), m₁) ∧ m₁.drawn = m.drawn :=
    ⟨_, Prog.check_bind_of_pos hrings, rfl⟩
  have hclk : caamClkGet E m = (.ok (), m₀) := rfl
  have hopen : ∃ m', caamOpen E m = (.ok (), m') ∧ m'.drawn = m.drawn := by
    rw [caamOpen, Prog.bind_of_ok hclk, Prog.bind_of_ok hsetup]
    by_cases hinst : E.read (m₁.nRead + 1) .rdsta &&& rdstaIf0 = rdstaIf0
    · exact ⟨_, congrFun (if_neg (not_not.mpr hinst)) _, hdrawn₁⟩
    -- the registers are set up, and the job is run
    obtain ⟨m₂, hprog, hnRead, hdrawn₂⟩ : ∃ m₂, caamOpen E m = (do
          let ok ← submit E rngInstDsc
          Prog.check (ok = true) .abort
          let rdsta ← readl E .rdsta
          Prog.check (rdsta = rdstaIf0 ||| rdstaSkvn) .abort : Drv Unit) m₂ ∧
        m₂.nRead = m₁.nRead + 1 + 4 ∧ m₂.drawn = m₁.drawn := by
      rw [caamOpen, Prog.bind_of_ok hclk, Prog.bind_of_ok hsetup]
      exact ⟨_, congrFun (if_pos hinst) _, rfl, rfl⟩
    rw [caamOpen, Prog.bind_of_ok hclk, Prog.bind_of_ok hsetup] at hprog
    rw [hprog]
    obtain ⟨m₃, hsub⟩ := submit_works hE rngInstDsc (by decide) (by decide) m₂
    rw [exec_rngInst_eq (parse_rngInst _)] at hsub
    have hnRead₃ := submit_nRead E rngInstDsc m₂
    rw [hsub.1, hnRead] at hnRead₃
    have hdone : E.read m₃.nRead .rdsta = rdstaIf0 ||| rdstaSkvn := by
      rw [show m₃.nRead = m₁.nRead + 1 + 4 from hnRead₃]
      exact (h (m₁.nRead + 1)).resolve_left hinst
    refine ⟨{ m₃ with nRead := m₃.nRead + 1 }, ?_, ?_⟩
    · rw [Prog.bind_of_ok hsub.1, Prog.check_bind_of_pos rfl]
      exact congrFun (if_pos hdone) _
    · exact (congrArg Prod.snd hsub.2).trans (hdrawn₂.trans hdrawn₁)
  obtain ⟨m', hok, hdrawn⟩ := hopen
  have hmem := caamOpen_mem E m
  rw [hok] at hmem
  have hrun : Op.caamOpen.run E m = (.ok caamSuccess, m') := by
    rw [Op.run, Prog.bind_of_ok hok]
    rfl
  have heffect : Op.caamOpen.effect E 0 (m.mem, m.drawn) = some (m'.mem, m'.drawn) := by
    rw [Op.effect, hmem, hdrawn]
  exact ⟨caamSuccess, m', hrun, .success heffect⟩

/-! ## All calls -/

lemma Op.Feasible.served {op : Op} (h : op.Feasible E) : op.Served E m := by
  cases op with
  | caamOpen => exact caamOpen_does hE m h
  | decapBlob =>
    obtain rfl := h.1
    exact decapBlob_does hE m h
  | genBlob =>
    obtain rfl := h.1
    exact genBlob_does hE m h
  | aesOp =>
    obtain rfl := h.1
    exact aesOp_does hE m h
  | hwrng => exact hwrng_does hE m h
  | hash => exact hash_does hE m h
  | genKdfv1RootKey =>
    obtain rfl := h.1
    exact genKdfv1RootKey_does hE m h

/-! ## One call each -/

/-- A call that can be served, and is not an attempt to unwrap what is no blob, succeeds. -/
lemma Op.Feasible.success {op : Op} (h : op.Feasible E)
    (heffect : op.effect E 0 (m.mem, m.drawn) ≠ none) :
    ∃ nonce m', op.run E m = (.ok caamSuccess, m') ∧
      op.effect E nonce (m.mem, m.drawn) = some (m'.mem, m'.drawn) := by
  obtain ⟨r, m', hrun, hdoes⟩ := h.served hE m
  generalize hs' : (m'.mem, m'.drawn) = s' at hdoes
  cases hdoes with
  | success hnonce => exact ⟨_, m', hrun, hs' ▸ hnonce⟩
  | failure hnone => exact absurd (hnone 0) heffect

lemma hwrng_call {out : ℕ} {len : Word} (h : (Op.hwrng out len).Feasible E) :
    ∃ m', caamHwrng E out len m = (.ok caamSuccess, m') ∧
      m'.mem = E.put m.mem out (E.core.draw m.drawn len.toNat) ∧
      m'.drawn = m.drawn + len.toNat := by
  obtain ⟨_, m', hrun, heffect⟩ := h.success hE m (by simp [Op.effect])
  obtain ⟨hmem, hdrawn⟩ := Prod.mk.inj (Option.some.inj heffect)
  exact ⟨m', hrun, hmem.symm, hdrawn.symm⟩

lemma genBlob_call {kmod plain blob : ℕ} {size : Word}
    (h : (Op.genBlob kmod 16 plain blob size).Feasible E) :
    ∃ nonce m', caamGenBlob E kmod 16 plain blob size m = (.ok caamSuccess, m') ∧
      m'.mem = E.put m.mem blob
        (E.core.encap nonce (E.bytes m.mem kmod 16) (E.bytes m.mem plain size.toNat)) := by
  obtain ⟨nonce, m', hrun, heffect⟩ := h.success hE m (by simp [Op.effect])
  exact ⟨nonce, m', hrun, (congrArg Prod.fst (Option.some.inj heffect)).symm⟩

lemma decapBlob_call {kmod plain blob : ℕ} {size : Word} {p : List UInt8}
    (h : (Op.decapBlob kmod 16 plain blob size).Feasible E)
    (hp : E.core.decap (E.bytes m.mem kmod 16) (E.bytes m.mem blob (size.toNat + 48)) = some p)
    (hlen : p.length ≤ size.toNat) :
    ∃ m', caamDecapBlob E kmod 16 plain blob size m = (.ok caamSuccess, m') ∧
      m'.mem = E.put m.mem plain p := by
  obtain ⟨_, m', hrun, heffect⟩ := h.success hE m (by simp [Op.effect, hp, hlen])
  simp only [Op.effect, hp, if_pos hlen] at heffect
  exact ⟨m', hrun, (congrArg Prod.fst (Option.some.inj heffect)).symm⟩

lemma aesOp_call {key input output : ℕ} {len : Word} {enc : Bool}
    (h : (Op.aesOp key 16 input output len enc).Feasible E) :
    ∃ m', caamAesOp E key 16 input output len enc m = (.ok caamSuccess, m') ∧
      m'.mem = E.put m.mem output
        (E.core.aes enc (E.bytes m.mem key 16) (E.bytes m.mem input len.toNat)) := by
  obtain ⟨_, m', hrun, heffect⟩ := h.success hE m (by simp [Op.effect])
  exact ⟨m', hrun, (congrArg Prod.fst (Option.some.inj heffect)).symm⟩

lemma hash_call {input output : ℕ} {len : Word} (h : (Op.hash input output len).Feasible E) :
    ∃ m', caamHash E input output len m = (.ok caamSuccess, m') ∧
      m'.mem = E.put m.mem output (E.core.sha1 (E.bytes m.mem input len.toNat)) := by
  obtain ⟨_, m', hrun, heffect⟩ := h.success hE m (by simp [Op.effect])
  exact ⟨m', hrun, (congrArg Prod.fst (Option.some.inj heffect)).symm⟩

lemma genKdfv1RootKey_call {out : ℕ} (h : (Op.genKdfv1RootKey out 32).Feasible E) :
    ∃ m', caamGenKdfv1RootKey E out 32 m = (.ok caamSuccess, m') ∧
      m'.mem = E.put m.mem out (E.core.masterKey kdfv1Salt) := by
  obtain ⟨_, m', hrun, heffect⟩ := h.success hE m (by simp [Op.effect])
  exact ⟨m', hrun, (congrArg Prod.fst (Option.some.inj heffect)).symm⟩

end

/-- On a platform that works, calls the hardware can serve all return, whatever the driver did
before.  Each does to memory what its function prescribes: a blob is refused exactly if it does
not unwrap to a plaintext that fits, and nothing else ever fails. -/
theorem calls_served (hE : E.Works) {ops : List Op} (hops : ∀ op ∈ ops, op.Feasible E)
    (m : Machine) :
    ∃ rs m', callAll E ops m = (.ok rs, m') ∧
      DoesAll E ops rs (m.mem, m.drawn) (m'.mem, m'.drawn) := by
  induction ops generalizing m with
  | nil => exact ⟨[], m, rfl, .nil⟩
  | cons op ops ih =>
    obtain ⟨r, m₁, hrun, hdoes⟩ := (hops op List.mem_cons_self).served hE m
    obtain ⟨rs, m', hrest, hall⟩ := ih (fun op' hop' => hops op' (List.mem_cons_of_mem _ hop')) m₁
    refine ⟨r :: rs, m', ?_, .cons hdoes hall⟩
    rw [callAll, Prog.bind_of_ok hrun, Prog.bind_of_ok hrest]
    rfl

namespace Demo

/-- The registers read as given. -/
def reading (read : ℕ → Reg → Word) : Platform := { platform with read := read }

section

variable {read : ℕ → Reg → Word}

lemma sound_reading : (reading read).Sound := fun n va len dir allowPartial h =>
  have hok := sound_platform n va len dir allowPartial h
  ⟨hok.fits, hok.size_eq, hok.size_le, hok.size_pos, hok.size_page, hok.maps⟩

lemma prepared_reading {allowPartial : Bool} {va n : ℕ} (h : va + n ≤ 2 ^ 32) :
    (reading read).Prepared allowPartial va n := by
  intro i k len dir _ hle
  change (if va + k + len.toNat ≤ 2 ^ 32 then _ else _ : Prepared).ret = 1
  rw [if_pos (by omega)]

lemma works_reading : (reading read).Works where
  sound := sound_reading
  jobs _ := ⟨rfl, show (0 : Word) &&& jobRingSts = 0 by decide, fun _ => rfl⟩
  job_prepared := prepared_reading (show platform.gJobDsc + 256 ≤ 2 ^ 32 by decide)
  rings_prepared := prepared_reading (show platform.gRings + 4 ≤ 2 ^ 32 by decide)
  sha1_length _ := rfl
  masterKey_length _ := rfl

end

/-- The random number generator is ready. -/
def working : Platform := reading fun _ _ => rdstaIf0 ||| rdstaSkvn

/-- All that the driver can do. -/
def everything : List Op :=
  [.caamOpen, .hwrng 0x3000 16, .genBlob 0x3000 16 0x4000 0x5000 32,
    .decapBlob 0x3000 16 0x6000 0x5000 32, .aesOp 0x3000 16 0x4000 0x7000 32 true,
    .hash 0x4000 0x8000 32, .genKdfv1RootKey 0x9000 32]

lemma feasible_everything : ∀ op ∈ everything, op.Feasible working := by
  have hsize : BlobSize 32 := ⟨by decide, by decide⟩
  simp only [everything, List.forall_mem_cons, List.not_mem_nil, false_implies, implies_true,
    and_true]
  have hready : (rdstaIf0 ||| rdstaSkvn) &&& rdstaIf0 = rdstaIf0 := by decide
  refine ⟨fun _ => Or.inl hready, ⟨prepared_reading (by decide), Function.injective_id.injOn⟩,
    ⟨rfl, hsize, ?_, ?_, ?_⟩, ⟨rfl, hsize, ?_, ?_, ?_⟩,
    ⟨rfl, by decide, by decide, by decide, ?_, ?_, ?_⟩, ⟨by decide, by decide, ?_, ?_⟩,
    ⟨rfl, ?_⟩⟩ <;>
  exact prepared_reading (by decide)

end Demo

theorem calls_served_everything : ∃ rs m', callAll Demo.working Demo.everything Demo.used =
      (.ok rs, m') ∧
    DoesAll Demo.working Demo.everything rs (Demo.used.mem, 0) (m'.mem, m'.drawn) :=
  calls_served Demo.works_reading Demo.feasible_everything Demo.used

end TrustyLkNxp.Caam
