import TrustyLkNxp.Caam.Trace

/-!
# The lengths of a blob and its plaintext

Wrapping and unwrapping compute the length of the blob from the length of the plaintext in
32-bit arithmetic, and so does the assertion that guards them.
-/

namespace TrustyLkNxp.Caam

variable {E : Platform}

/-- The lengths that go with an action are exact: of the input `inLen` bytes are read and of
the output `outLen` bytes are written. -/
def Act.Exact (E : Platform) (kmod input output inLen outLen : ℕ) : Act → Prop
  | .prepare va len _ _ _ =>
    (va, len.toNat) ∈ [(kmod, 16), (input, inLen), (output, outLen), (E.gJobDsc, 32), (E.gRings, 4)]
  | .finish va len _ => (va, len.toNat) ∈ [(output, outLen), (E.gRings + 4, 8)]
  | .start dsc _ =>
    dsc[3]?.map (field · 0 16) = some inLen ∧ dsc[5]?.map (field · 0 16) = some outLen
  | .write _ _ => True
  | .writel _ _ => True
  | .polled _ => True

instance (kmod input output inLen outLen : ℕ) :
    DecidablePred (Act.Exact E kmod input output inLen outLen)
  | .prepare va len _ _ _ => inferInstanceAs (Decidable ((va, len.toNat) ∈ _))
  | .finish va len _ => inferInstanceAs (Decidable ((va, len.toNat) ∈ _))
  | .start _ _ => inferInstanceAs (Decidable (_ ∧ _))
  | .write _ _ => isTrue trivial
  | .writel _ _ => isTrue trivial
  | .polled _ => isTrue trivial

/-! ## The blob protocol -/

/-- The descriptor of both directions of the blob protocol. -/
def blobDsc (inLen outLen op : Word) (pa : ℕ → Word) : List Word :=
  [0xB0800008, 0x14400010, pa 0,
    0xF0000000 ||| (0x0000ffff &&& inLen), pa 1,
    0xF8000000 ||| (0x0000ffff &&& outLen), pa 2,
    op]

lemma parse_blobDsc (inLen outLen op : Word) (pa : ℕ → Word) (rest : List Word)
    (hop : parseCommand op [] = some (.operation op, [])) :
    parseDescriptor (blobDsc inLen outLen op pa ++ rest) =
      some [.load 0x40 (pa 0) 16, .seqIn (pa 1) (inLen.toNat % 65536),
        .seqOut (pa 2) (outLen.toNat % 65536), .operation op] :=
  parse_blob pa rest inLen outLen op hop

/-- Both directions of the blob protocol, once the assertions have passed. -/
def blobOp (E : Platform) (kmod input output : ℕ) (inLen outLen op : Word) : Drv Word :=
  dataOp E
    [⟨kmod, 16, .toDevice⟩, ⟨input, inLen, .toDevice⟩, ⟨output, outLen, .fromDevice⟩]
    (blobDsc inLen outLen op) output outLen

lemma caamGenBlob_eq (E : Platform) (kmod plain blob : ℕ) {size : Word}
    (hassert : size + caamKbHeaderLen < 0xFFFF) (m : Machine) :
    caamGenBlob E kmod 16 plain blob size m =
      blobOp E kmod plain blob size (size + caamKbHeaderLen) 0x870D0000 m :=
  (Prog.check_bind_of_pos hassert).trans (Prog.check_bind_of_pos rfl)

lemma caamDecapBlob_eq (E : Platform) (kmod plain blob : ℕ) {size : Word}
    (hassert : size + caamKbHeaderLen < 0xFFFF) (m : Machine) :
    caamDecapBlob E kmod 16 plain blob size m =
      blobOp E kmod blob plain (size + caamKbHeaderLen) size 0x860D0000 m :=
  (Prog.check_bind_of_pos hassert).trans (Prog.check_bind_of_pos rfl)

/-- Lengths that fit into the length fields are exact. -/
lemma blobOp_exact (E : Platform) (kmod input output : ℕ) {inLen outLen : Word} (op : Word)
    (hin : inLen.toNat < 65536) (hout : outLen.toNat < 65536) :
    Prog.Relates (Does (Act.Exact E kmod input output inLen.toNat outLen.toNat))
      (blobOp E kmod input output inLen outLen op) := by
  refine does_dataOp ?_ (fun pa => ?_) ?_
  · intro b hb n
    simp only [List.mem_cons, List.not_mem_nil, or_false] at hb
    rcases hb with rfl | rfl | rfl <;> simp [Act.Exact]
  · have hzero : (0xF0000000 : Word).extractLsb' 0 16 = 0#16 := by decide
    have hzero' : (0xF8000000 : Word).extractLsb' 0 16 = 0#16 := by decide
    exact {
      writel := fun _ _ => trivial
      writeJob := trivial
      prepareJob := fun n => by simp [Act.Exact, blobDsc]
      writeRings := trivial
      prepareRings := fun n => by simp [Act.Exact, sizeofGRings]
      start := fun rest =>
        ⟨congrArg some ((field_masked_low _ _ hzero).trans (Nat.mod_eq_of_lt hin)),
          congrArg some ((field_masked_low _ _ hzero').trans (Nat.mod_eq_of_lt hout))⟩
      polled := fun _ => trivial
      finishRings := by simp [Act.Exact] }
  · simp [Act.Exact]

/-! ## Lengths that wrap -/

lemma toNat_blobLen (size : Word) :
    (size + caamKbHeaderLen).toNat = (size.toNat + 48) % 2 ^ 32 := by
  rw [BitVec.toNat_add]
  rfl

/-- The entry assertion lets through sizes up to 65486, and those whose sum wraps. -/
lemma assertion_iff {size : Word} : size + caamKbHeaderLen < 0xFFFF ↔
    size.toNat + 48 < 65535 ∨ 2 ^ 32 ≤ size.toNat + 48 := by
  have hlt := size.isLt
  have hmax : (0xFFFF : Word).toNat = 65535 := rfl
  rw [BitVec.lt_def, toNat_blobLen, hmax]
  omega

/-- On the platform of the example, every buffer below 4 GiB is prepared. -/
lemma Demo.blobOp_prepares {input output : ℕ} {inLen outLen : Word} (op : Word)
    (hin : input + inLen.toNat ≤ 2 ^ 32) (hout : output + outLen.toNat ≤ 2 ^ 32) :
    (∃ res, .prepare input inLen .toDevice false res ∈
        machine.actsTo (blobOp platform 0x3000 input output inLen outLen op machine).2) ∧
      ∃ res, .prepare output outLen .fromDevice false res ∈
        machine.actsTo (blobOp platform 0x3000 input output inLen outLen op machine).2 := by
  have hkmod : 0x3000 + (16 : Word).toNat ≤ 2 ^ 32 := by decide
  have hsucc : ∀ a ∈ machine.actsTo
      (blobOp platform 0x3000 input output inLen outLen op machine).2, ¬ a.Failed := by
    refine preparesAll_platform.not_failed (by decide) (by decide) ?_ (fun pa => ?_) machine
    · intro b hb
      simp only [List.mem_cons, List.not_mem_nil, or_false] at hb
      rcases hb with rfl | rfl | rfl
      · exact hkmod
      · exact hin
      · exact hout
    · simp [blobDsc]
  have hrun := dataOp_spec platform
    [⟨0x3000, 16, .toDevice⟩, ⟨input, inLen, .toDevice⟩, ⟨output, outLen, .fromDevice⟩]
    (blobDsc inLen outLen op) output outLen machine
  exact ⟨hrun.prepares hsucc (b := ⟨input, inLen, .toDevice⟩) (by simp),
    hrun.prepares hsucc (b := ⟨output, outLen, .fromDevice⟩) (by simp)⟩

/-- On sizes that the entry assertions let through, all lengths a call passes on are exact if
and only if the length of the blob does not wrap. -/
theorem exact_lengths_iff {size : Word} (hassert : size + caamKbHeaderLen < 0xFFFF) :
    ((∀ (E : Platform) (kmod plain blob : ℕ) (m : Machine),
        ∀ a ∈ m.actsTo (caamGenBlob E kmod 16 plain blob size m).2,
          a.Exact E kmod plain blob size.toNat (size.toNat + 48)) ↔ size.toNat + 48 < 2 ^ 32) ∧
      ((∀ (E : Platform) (kmod plain blob : ℕ) (m : Machine),
        ∀ a ∈ m.actsTo (caamDecapBlob E kmod 16 plain blob size m).2,
          a.Exact E kmod blob plain (size.toNat + 48) size.toNat) ↔ size.toNat + 48 < 2 ^ 32) := by
  have hlt := size.isLt
  have hsum := toNat_blobLen size
  have hfits := assertion_iff.mp hassert
  have hjob : Demo.platform.gJobDsc = 0x1000 := rfl
  have hrings : Demo.platform.gRings = 0x2000 := rfl
  -- the plaintext may be as long as memory, and the blob lies behind it
  have hplain : 0 + size.toNat ≤ 2 ^ 32 := by omega
  refine ⟨⟨fun h => ?_, fun h E kmod plain blob m => ?_⟩,
    ⟨fun h => ?_, fun h E kmod plain blob m => ?_⟩⟩
  · by_contra hwrap
    have h := h Demo.platform 0x3000 0 0x5000 Demo.machine
    rw [caamGenBlob_eq Demo.platform _ _ _ hassert] at h
    obtain ⟨-, res, hres⟩ := Demo.blobOp_prepares 0x870D0000 hplain
      (show 0x5000 + (size + caamKbHeaderLen).toNat ≤ 2 ^ 32 by omega)
    have hexact := h _ hres
    simp only [Act.Exact, List.mem_cons, Prod.mk.injEq, List.not_mem_nil, or_false, hjob, hrings]
      at hexact
    omega
  · have heq : (size + caamKbHeaderLen).toNat = size.toNat + 48 := by omega
    rw [caamGenBlob_eq E _ _ _ hassert, ← heq]
    exact (blobOp_exact E _ _ _ _ (by omega) (by omega) m).actsTo
  · by_contra hwrap
    have h := h Demo.platform 0x3000 0 0x5000 Demo.machine
    rw [caamDecapBlob_eq Demo.platform _ _ _ hassert] at h
    obtain ⟨⟨res, hres⟩, -⟩ := Demo.blobOp_prepares 0x860D0000
      (show 0x5000 + (size + caamKbHeaderLen).toNat ≤ 2 ^ 32 by omega) hplain
    have hexact := h _ hres
    simp only [Act.Exact, List.mem_cons, Prod.mk.injEq, List.not_mem_nil, or_false, hjob, hrings]
      at hexact
    omega
  · have heq : (size + caamKbHeaderLen).toNat = size.toNat + 48 := by omega
    rw [caamDecapBlob_eq E _ _ _ hassert, ← heq]
    exact (blobOp_exact E _ _ _ _ (by omega) (by omega) m).actsTo

theorem exact_lengths_of_32 : (32 : Word) + caamKbHeaderLen < 0xFFFF ∧
    ∀ a ∈ Demo.machine.actsTo
        (caamDecapBlob Demo.platform 0x3000 16 0x4000 0x5000 32 Demo.machine).2,
      a.Exact Demo.platform 0x3000 0x5000 0x4000 80 32 := by
  have hassert : (32 : Word) + caamKbHeaderLen < 0xFFFF := by decide
  have hexact := (exact_lengths_iff hassert).2.mpr (by decide)
  exact ⟨hassert, hexact Demo.platform 0x3000 0x4000 0x5000 Demo.machine⟩

/-- The assertion lets a plaintext of 48 bytes less than 4 GiB through, whose blob is taken to
be empty. -/
theorem not_exact_of_wrap :
    (0xFFFFFFD0 : Word) + caamKbHeaderLen < 0xFFFF ∧
      ∃ a ∈ Demo.machine.actsTo
          (caamDecapBlob Demo.platform 0x3000 16 0 0x5000 0xFFFFFFD0 Demo.machine).2,
        ¬ a.Exact Demo.platform 0x3000 0x5000 0 (0xFFFFFFD0 + 48) 0xFFFFFFD0 := by
  refine ⟨by decide, ?_⟩
  decide +kernel

end TrustyLkNxp.Caam
