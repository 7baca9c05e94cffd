import TrustyLkNxp.Caam.Unwrap
import TrustyLkNxp.Hwkey.Provider

/-!
# The key box (`hwkey_srv_provider.c`, `hwkey_keyslots.h`)

The boot loader leaves a package of wrapped keys in secure RAM.  At start-up the application
copies the blob of the RPMB key out of it, generates the root key of the key derivation, and
wipes the package.
-/

namespace TrustyLkNxp

open Memory

namespace Caam

variable {E : Platform}

/-! ## The CPU writes to memory -/

/-- Memory once the CPU has written bytes from an address on. -/
def Platform.put (E : Platform) (mem : Mem) (va : ℕ) : List UInt8 → Mem
  | [] => mem
  | b :: bs => Function.update (E.put mem (va + 1) bs) (E.mmu va) b

lemma Platform.cells_succ (E : Platform) (va n : ℕ) :
    E.cells va (n + 1) = insert (E.mmu va) (E.cells (va + 1) n) := by
  ext a
  constructor
  · rintro ⟨i, hi, rfl⟩
    rcases i with _ | i
    · exact Set.mem_insert _ _
    · exact Set.mem_insert_of_mem _ ⟨i, by omega, by rw [Nat.add_assoc, Nat.add_comm 1 i]⟩
  · rintro (rfl | ⟨i, hi, rfl⟩)
    · exact ⟨0, by omega, rfl⟩
    · exact ⟨i + 1, by omega, by rw [Nat.add_assoc, Nat.add_comm 1 i]⟩

lemma Platform.bytes_succ (E : Platform) (mem : Mem) (va n : ℕ) :
    E.bytes mem va (n + 1) = mem (E.mmu va) :: E.bytes mem (va + 1) n := by
  rw [Nat.add_comm n 1, E.bytes_add]
  rfl

/-- Nothing else changes. -/
lemma Platform.put_frame (E : Platform) (mem : Mem) (va : ℕ) (bytes : List UInt8) :
    SameOutside (E.cells va bytes.length) mem (E.put mem va bytes) := by
  induction bytes generalizing va with
  | nil => exact .refl _ _
  | cons b bs ih =>
    intro a ha
    rw [List.length_cons, E.cells_succ, Set.mem_insert_iff, not_or] at ha
    rw [Platform.put, Function.update_of_ne ha.1]
    exact ih (va + 1) a ha.2

/-- What was written is what is read back. -/
lemma Platform.bytes_put {mem : Mem} {va n : ℕ} {bytes : List UInt8} (hn : bytes.length = n)
    (hinj : Set.InjOn E.mmu (range va n)) : E.bytes (E.put mem va bytes) va n = bytes := by
  subst hn
  induction bytes generalizing va with
  | nil => rfl
  | cons b bs ih =>
    have hinj' : Set.InjOn E.mmu (range (va + 1) bs.length) :=
      hinj.mono (range_subset (by omega) (by rw [List.length_cons]; omega))
    have hrest : E.bytes (Function.update (E.put mem (va + 1) bs) (E.mmu va) b) (va + 1) bs.length =
        E.bytes (E.put mem (va + 1) bs) (va + 1) bs.length := by
      refine E.bytes_congr ?_
      rintro _ ⟨i, hi, rfl⟩
      refine Function.update_of_ne (fun heq => ?_) _ _
      have hsame := hinj (mem_range.mpr ⟨by omega, by rw [List.length_cons]; omega⟩)
        (mem_range.mpr ⟨by omega, by rw [List.length_cons]; omega⟩) heq
      omega
    rw [List.length_cons, E.bytes_succ, Platform.put, Function.update_self, hrest, ih hinj']

end Caam

namespace Hwkey

open Caam hiding caamKbHeaderLen

variable {E : Platform}

/-! ## The package -/

/-- `PUBKEY_LEN`. -/
def pubkeyLen : ℕ := 1032 + caamKbHeaderLen

/-- `offsetof(struct keyslot_package, rpmb_keyblob_len)`. -/
def offsetofRpmbKeyblobLen : ℕ := 4

/-- `offsetof(struct keyslot_package, rpmb_keyblob)`. -/
def offsetofRpmbKeyblob : ℕ := offsetofRpmbKeyblobLen + 4

/-- `sizeof(struct keyslot_package)`: the two blobs, each behind its length, behind the magic. -/
def sizeofKeyslotPackage : ℕ := offsetofRpmbKeyblob + rpmbkeyLen + 4 + pubkeyLen

/-- `KEYPACK_MAGIC`, with its terminator. -/
def keypackMagic : List UInt8 := Buffer.ascii "!KS" ++ [0]

/-- Whether `strncmp` finds no difference: it looks at no more than `n` characters, and at none
behind a terminator. -/
def strncmp : ℕ → List UInt8 → List UInt8 → Bool
  | n + 1, a :: as, b :: bs => a == b && (a == 0 || strncmp n as bs)
  | _, _, _ => true

/-- The magic is compared as a whole. -/
lemma strncmp_keypackMagic {magic : List UInt8} (hlen : magic.length = 4) :
    strncmp 4 magic keypackMagic = true ↔ magic = keypackMagic := by
  obtain ⟨a, b, c, d, rfl⟩ : ∃ a b c d, magic = [a, b, c, d] := List.length_eq_four.mp hlen
  have hmagic : keypackMagic = [0x21, 0x4b, 0x53, 0] := by decide
  simp only [hmagic, strncmp, Bool.and_eq_true, Bool.or_eq_true, beq_iff_eq, or_true, and_true,
    List.cons.injEq]
  constructor
  · rintro ⟨rfl, h⟩
    obtain ⟨rfl, h⟩ := h.resolve_left (by decide)
    obtain ⟨rfl, h⟩ := h.resolve_left (by decide)
    exact ⟨rfl, rfl, rfl, h.resolve_left (by decide)⟩
  · rintro ⟨rfl, rfl, rfl, rfl⟩
    exact ⟨rfl, Or.inr ⟨rfl, Or.inr ⟨rfl, Or.inr rfl⟩⟩⟩

/-! ## Start-up -/

/-- Where secure RAM and the static buffers are. -/
structure Layout where
  /-- `sram_base`. -/
  sramBase : ℕ
  skeymod : ℕ
  rpmbKeyblob : ℕ
  kdfv1Key : ℕ
  keyData : ℕ
  rngData : ℕ

/-- `unpack_kbox`. It is called with the value of `rpmb_keyblob_len` and returns the new one. -/
def unpackKbox (E : Platform) (L : Layout) (rpmbKeyblobLen : Word) : Drv Word := do
  let m ← Prog.get
  Prog.check (strncmp 4 (E.bytes m.mem L.sramBase 4) keypackMagic = true) .abort
  -- key should be unset
  Prog.check (rpmbKeyblobLen = 0) .abort
  let len := le32 (E.bytes m.mem (L.sramBase + offsetofRpmbKeyblobLen) 4)
  let rpmbKeyblobLen ←
    if len ≠ BitVec.ofNat 32 rpmbkeyLen then
      pure rpmbKeyblobLen
    else do
      -- copy RPMB blob
      let blob := E.bytes m.mem (L.sramBase + offsetofRpmbKeyblob) len.toNat
      Prog.modify fun m => { m with mem := E.put m.mem L.rpmbKeyblob blob }
      act (.write L.rpmbKeyblob blob.length)
      pure len
  let res ← caamGenKdfv1RootKey E L.kdfv1Key 32
  Prog.check (res = caamSuccess) .abort
  -- wipe kbox in sram
  Prog.modify fun m =>
    { m with mem := E.put m.mem L.sramBase (List.replicate sizeofKeyslotPackage 0) }
  return rpmbKeyblobLen

/-- What `main` does with the hardware before it enters the event loop: `init_caam_env`, and
`hwkey_init_srv_provider` up to where it installs the slots. The result is
`rpmb_keyblob_len`. -/
def startUp (E : Platform) (L : Layout) : Drv Word := do
  caamOpen E
  unpackKbox E L 0

/-! ## What start-up leaves -/

/-- The buffers, with their sizes. -/
def Layout.buffers (L : Layout) : List (ℕ × ℕ) :=
  [(L.sramBase, sizeofKeyslotPackage), (L.skeymod, 16), (L.rpmbKeyblob, rpmbkeyLen),
    (L.kdfv1Key, 32), (L.keyData, 2048), (L.rngData, 4096)]

/-- The buffers do not share memory. -/
structure Layout.Apart (E : Platform) (L : Layout) : Prop where
  disjoint : (L.buffers.map fun b => E.cells b.1 b.2).Pairwise Disjoint
  inj : ∀ b ∈ L.buffers, Set.InjOn E.mmu (range b.1 b.2)

/-- What `unpack_kbox` does when it returns. -/
structure Unpacked (E : Platform) (L : Layout) (m m' : Machine) (len : Word) : Prop where
  magic : E.bytes m.mem L.sramBase 4 = keypackMagic
  wiped : E.bytes m'.mem L.sramBase sizeofKeyslotPackage = List.replicate sizeofKeyslotPackage 0
  skeymod : E.bytes m'.mem L.skeymod 16 = E.bytes m.mem L.skeymod 16
  absent : le32 (E.bytes m.mem (L.sramBase + offsetofRpmbKeyblobLen) 4) ≠
      BitVec.ofNat 32 rpmbkeyLen →
    len = 0 ∧ E.bytes m'.mem L.rpmbKeyblob rpmbkeyLen = E.bytes m.mem L.rpmbKeyblob rpmbkeyLen
  present : le32 (E.bytes m.mem (L.sramBase + offsetofRpmbKeyblobLen) 4) =
      BitVec.ofNat 32 rpmbkeyLen →
    len = BitVec.ofNat 32 rpmbkeyLen ∧ E.bytes m'.mem L.rpmbKeyblob rpmbkeyLen =
      E.bytes m.mem (L.sramBase + offsetofRpmbKeyblob) rpmbkeyLen

/-- The part of `unpack_kbox` after the blob has been copied. -/
lemma finishUnpack {L : Layout} {m m' : Machine} {len len' : Word}
    (h : (do
      let res ← caamGenKdfv1RootKey E L.kdfv1Key 32
      Prog.check (res = caamSuccess) .abort
      Prog.modify fun m =>
        { m with mem := E.put m.mem L.sramBase (List.replicate sizeofKeyslotPackage 0) }
      return len : Drv Word) m = (.ok len', m')) :
    len' = len ∧ ∃ m₁, caamGenKdfv1RootKey E L.kdfv1Key 32 m = (.ok caamSuccess, m₁) ∧
      m'.mem = E.put m₁.mem L.sramBase (List.replicate sizeofKeyslotPackage 0) := by
  obtain ⟨res, m₁, hres, h⟩ := Prog.bind_eq_ok.mp h
  obtain ⟨rfl, h⟩ := Prog.check_bind_eq_ok h
  obtain ⟨hlen, rfl⟩ := Prod.mk.inj h
  exact ⟨(Except.ok.inj hlen).symm, m₁, hres, rfl⟩

/-- What generating the root key and wiping the package do to memory. -/
lemma finishUnpack_frame (hE : E.Sound) (hkey : ∀ key, (E.core.masterKey key).length ≤ 32)
    {L : Layout} (hL : L.Apart E) {m m₁ : Machine} {mem' : Mem}
    (hroot : caamGenKdfv1RootKey E L.kdfv1Key 32 m = (.ok caamSuccess, m₁))
    (hmem : mem' = E.put m₁.mem L.sramBase (List.replicate sizeofKeyslotPackage 0)) :
    E.bytes mem' L.sramBase sizeofKeyslotPackage = List.replicate sizeofKeyslotPackage 0 ∧
      E.bytes mem' L.skeymod 16 = E.bytes m.mem L.skeymod 16 ∧
      E.bytes mem' L.rpmbKeyblob rpmbkeyLen = E.bytes m.mem L.rpmbKeyblob rpmbkeyLen := by
  have hdisj := hL.disjoint
  simp only [Layout.buffers, List.map_cons, List.pairwise_cons, List.mem_cons, forall_eq_or_imp]
    at hdisj
  obtain ⟨⟨hsk, hsb, -⟩, ⟨-, hkk, -⟩, ⟨hbk, -⟩, -⟩ := hdisj
  have hsame := caamGenKdfv1RootKey_frame hE hkey hroot
  have hzero := List.length_replicate (n := sizeofKeyslotPackage) (a := (0 : UInt8))
  have hwipe := E.put_frame m₁.mem L.sramBase (List.replicate sizeofKeyslotPackage 0)
  rw [hzero, ← hmem] at hwipe
  refine ⟨?_, ?_, ?_⟩
  · have hinj := hL.inj (L.sramBase, sizeofKeyslotPackage) List.mem_cons_self
    rw [hmem]
    exact E.bytes_put hzero hinj
  · rw [E.bytes_of_sameOutside hwipe hsk, E.bytes_of_sameOutside hsame hkk.symm]
  · rw [E.bytes_of_sameOutside hwipe hsb, E.bytes_of_sameOutside hsame hbk.symm]

lemma unpackKbox_spec (hE : E.Sound) (hkey : ∀ key, (E.core.masterKey key).length ≤ 32)
    {L : Layout} (hL : L.Apart E) {m m' : Machine} {len : Word}
    (h : unpackKbox E L 0 m = (.ok len, m')) : Unpacked E L m m' len := by
  obtain ⟨m₀, m₁, hget, h⟩ := Prog.bind_eq_ok.mp h
  obtain ⟨rfl, rfl⟩ : m = m₀ ∧ m = m₁ := by simpa using hget
  obtain ⟨hmagic, h⟩ := Prog.check_bind_eq_ok h
  obtain ⟨-, h⟩ := Prog.check_bind_eq_ok h
  have hmagic := (strncmp_keypackMagic (E.length_bytes _ _ _)).mp hmagic
  by_cases hlen : le32 (E.bytes m.mem (L.sramBase + offsetofRpmbKeyblobLen) 4) ≠
      BitVec.ofNat 32 rpmbkeyLen
  · -- the length is not that of a blob: nothing is copied
    simp only [if_pos hlen] at h
    obtain ⟨hlen', m₁, hroot, hmem⟩ := finishUnpack h
    obtain ⟨hwiped, hskeymod, hkept⟩ := finishUnpack_frame hE hkey hL hroot hmem
    exact ⟨hmagic, hwiped, hskeymod, fun _ => ⟨hlen', hkept⟩, fun h => absurd h hlen⟩
  · simp only [if_neg hlen] at h
    rw [ne_eq, not_not] at hlen
    have hn : (BitVec.ofNat 32 rpmbkeyLen).toNat = rpmbkeyLen := rfl
    let blob := E.bytes m.mem (L.sramBase + offsetofRpmbKeyblob) rpmbkeyLen
    have hblob : blob.length = rpmbkeyLen := E.length_bytes _ _ _
    let m₂ : Machine :=
      { m with
        mem := E.put m.mem L.rpmbKeyblob blob
        trace := .write L.rpmbKeyblob blob.length :: m.trace }
    rw [hlen, hn] at h
    obtain ⟨hlen', m₁, hroot, hmem⟩ := finishUnpack (m := m₂) h
    obtain ⟨hwiped, hskeymod, hkept⟩ := finishUnpack_frame hE hkey hL hroot hmem
    -- the copy is what was in the package, and does not touch the key modifier
    have hdisj := hL.disjoint
    simp only [Layout.buffers, List.map_cons, List.pairwise_cons, List.mem_cons, forall_eq_or_imp]
      at hdisj
    obtain ⟨-, ⟨hkb, -⟩, -⟩ := hdisj
    have hframe := E.put_frame m.mem L.rpmbKeyblob blob
    have hinj := hL.inj (L.rpmbKeyblob, rpmbkeyLen) (by simp [Layout.buffers])
    have hread : E.bytes (E.put m.mem L.rpmbKeyblob blob) L.rpmbKeyblob rpmbkeyLen = blob :=
      E.bytes_put hblob hinj
    rw [hblob] at hframe
    refine ⟨hmagic, hwiped, ?_, fun h => absurd hlen h, fun _ => ⟨hlen', hkept.trans hread⟩⟩
    exact hskeymod.trans (E.bytes_of_sameOutside hframe hkb.symm)

/-- What start-up does when it returns. -/
lemma startUp_spec (hE : E.Sound) (hkey : ∀ key, (E.core.masterKey key).length ≤ 32)
    {L : Layout} (hL : L.Apart E) {m m' : Machine} {len : Word}
    (h : startUp E L m = (.ok len, m')) : Unpacked E L m m' len := by
  obtain ⟨_, m₁, hopen, h⟩ := Prog.bind_eq_ok.mp h
  have hspec := unpackKbox_spec hE hkey hL h
  have hmem : m₁.mem = m.mem := by
    have hmem := caamOpen_mem E m
    rwa [hopen] at hmem
  obtain ⟨hmagic, hwiped, hskeymod, habsent, hpresent⟩ := hspec
  rw [hmem] at hmagic hskeymod habsent hpresent
  exact ⟨hmagic, hwiped, hskeymod, habsent, hpresent⟩

end Hwkey

end TrustyLkNxp
