import TrustyLkNxp.Caam.RoundTrip

/-!
# What AES encrypts it decrypts

`caam_aes_op` runs one descriptor for both directions.  The engine loads the key, enciphers or
deciphers the input, and stores as many bytes as it took in; nothing but the output buffer is
written.
-/

namespace TrustyLkNxp.Caam

open Memory

variable {E : Platform}

/-- The two operation words are those of AES in the two directions. -/
lemma algorithm_aes (enc : Bool) :
    algorithm (if enc then 0x8210020D else 0x8210020C) = some (.aes enc) := by
  cases enc <;> rfl

/-- The descriptor of `caam_aes_op`, executed. -/
lemma exec_aes {core : Core} {nonce : ℕ} {mem mem' : Mem} {drawn drawn' : ℕ} {dsc : List Word}
    {keyPa inPa outPa : Word} {n : ℕ} {enc : Bool}
    (hparse : parseDescriptor dsc = some [.key keyPa 16,
      .operation (if enc then 0x8210020D else 0x8210020C), .fifoLoad inPa n,
      .fifoStore 0x30 outPa n])
    (h : execDescriptor core nonce dsc mem drawn = some (mem', drawn')) :
    mem' = store mem outPa.toNat
      (core.aes enc (load mem keyPa.toNat 16) (load mem inPa.toNat n)) := by
  have hlen := (core.aes_length enc (load mem keyPa.toNat 16) (load mem inPa.toNat n)).trans
    length_load
  simp only [execDescriptor, hparse, execCommands, execCommand, Option.bind_eq_bind,
    Option.bind_some, algorithm_aes, Deco.start, true_and, if_pos hlen.ge, Option.pure_def,
    Option.some.injEq, Prod.mk.injEq, List.take_of_length_le hlen.le] at h
  exact h.1.symm

section

variable {key input output : ℕ} {len : Word} {enc : Bool}

/-- `caam_aes_op` leaves the result of the cipher in the output buffer. -/
lemma caamAesOp_success (hE : E.Sound) {m m' : Machine} (hpos : 0 < len.toNat)
    (h : caamAesOp E key 16 input output len enc m = (.ok caamSuccess, m')) :
    len.toNat % 16 = 0 ∧ E.bytes m'.mem output len.toNat =
      E.core.aes enc (E.bytes m.mem key 16) (E.bytes m.mem input len.toNat) := by
  obtain ⟨-, h⟩ := Prog.check_bind_eq_ok h
  obtain ⟨hle, h⟩ := Prog.check_bind_eq_ok h
  obtain ⟨hblocks, h⟩ := Prog.check_bind_eq_ok h
  obtain ⟨acts, pas, rest, hprep, hexec⟩ := dataOp_success h
  obtain ⟨hkey, -⟩ := hprep.physical hE 0 rfl (show _ = 16 from rfl) (by decide)
  obtain ⟨hinput, -⟩ := hprep.physical hE 1 rfl rfl hpos
  obtain ⟨houtput, -⟩ := hprep.physical hE 2 rfl rfl hpos
  -- the length fits into the sixteen bits the commands have for it
  have hle : len.toNat ≤ 65535 := BitVec.le_def.mp hle
  have hparse := parse_aes (pas.getD · 0) rest len enc
  rw [Nat.mod_eq_of_lt (by omega)] at hparse
  have hmem := exec_aes hparse hexec
  rw [← hkey, ← hinput] at hmem
  refine ⟨congrArg BitVec.toNat hblocks, ?_⟩
  rw [houtput, hmem, load_store]
  rw [E.core.aes_length, E.length_bytes]

/-- However `caam_aes_op` ends, it has changed nothing but its output buffer. -/
lemma caamAesOp_frame (hE : E.Sound) {keySize : Word} {m m' : Machine} {r : Except Halt Word}
    (h : caamAesOp E key keySize input output len enc m = (r, m')) :
    SameOutside (E.cells output len.toNat) m.mem m'.mem := by
  let R : Machine → Machine → Prop := fun m m' =>
    SameOutside (E.cells output len.toNat) m.mem m'.mem
  have hrefl : Std.Refl R := ⟨fun _ => .refl _ _⟩
  have htrans : IsTrans Machine R := ⟨fun _ _ _ h h' => h.trans h'⟩
  have hrel : Prog.Relates R (caamAesOp E key keySize input output len enc) := by
    refine .bind (.of_check _ _) fun _ => .bind (.of_check _ _) fun _ => ?_
    refine .bind (.of_check _ _) fun _ => ?_
    refine dataOp_frame hE (i := 2) (b := ⟨output, len, .fromDevice⟩) rfl fun pa rest => ?_
    rintro a ⟨g, hg, hdir, ha⟩
    rw [grants_of_parse (parse_aes pa rest len enc)] at hg
    simp only [Command.grant, List.filterMap_cons, List.filterMap_nil, List.mem_cons,
      List.not_mem_nil, or_false] at hg
    rcases hg with rfl | rfl | rfl
    · exact absurd hdir (by simp)
    · exact absurd hdir (by simp)
    · exact range_subset le_rfl (Nat.add_le_add_left (Nat.mod_le _ _) _) ha
  have hrun := hrel m
  rwa [h] at hrun

end

/-- What `caam_aes_op` encrypts it decrypts again with the same key, and neither of the two calls
changes anything but its output buffer. -/
theorem aes_round_trip (hE : E.Sound) {key input mid output : ℕ} {len : Word}
    (hdisj : [E.cells key 16, E.cells input len.toNat, E.cells mid len.toNat,
      E.cells output len.toNat].Pairwise Disjoint) {m₀ m₁ m₂ : Machine}
    (henc : caamAesOp E key 16 input mid len true m₀ = (.ok caamSuccess, m₁))
    (hdec : caamAesOp E key 16 mid output len false m₁ = (.ok caamSuccess, m₂)) :
    E.bytes m₂.mem output len.toNat = E.bytes m₀.mem input len.toNat ∧
      E.bytes m₂.mem input len.toNat = E.bytes m₀.mem input len.toNat ∧
      SameOutside (E.cells mid len.toNat) m₀.mem m₁.mem ∧
      SameOutside (E.cells output len.toNat) m₁.mem m₂.mem := by
  simp only [List.pairwise_cons, List.mem_cons, List.not_mem_nil, or_false, forall_eq_or_imp,
    forall_eq] at hdisj
  obtain ⟨⟨-, hkm, -⟩, ⟨him, hio⟩, -, -⟩ := hdisj
  have hsame₁ := caamAesOp_frame hE henc
  have hsame₂ := caamAesOp_frame hE hdec
  have hinput : E.bytes m₂.mem input len.toNat = E.bytes m₀.mem input len.toNat :=
    (E.bytes_of_sameOutside hsame₂ hio.symm).trans (E.bytes_of_sameOutside hsame₁ him.symm)
  refine ⟨?_, hinput, hsame₁, hsame₂⟩
  rcases Nat.eq_zero_or_pos len.toNat with hzero | hpos
  · rw [hzero]
    rfl
  obtain ⟨hblocks, hmid⟩ := caamAesOp_success hE hpos henc
  obtain ⟨-, hout⟩ := caamAesOp_success hE hpos hdec
  -- the first call leaves the key as it is
  have hkey : E.bytes m₁.mem key 16 = E.bytes m₀.mem key 16 :=
    E.bytes_of_sameOutside hsame₁ hkm.symm
  calc E.bytes m₂.mem output len.toNat
      = E.core.aes false (E.bytes m₁.mem key 16) (E.bytes m₁.mem mid len.toNat) := hout
    _ = E.core.aes false (E.bytes m₀.mem key 16)
          (E.core.aes true (E.bytes m₀.mem key 16) (E.bytes m₀.mem input len.toNat)) := by
        rw [hkey, hmid]
    _ = E.bytes m₀.mem input len.toNat := E.core.aes_inv _ _ (by rwa [E.length_bytes])

namespace Demo

/-- The bytes 0 to 15. -/
def aesKey : List UInt8 := (List.range 16).map UInt8.ofNat

/-- The message of `caam_aes_test`. -/
def aesPlain : List UInt8 := (List.range' 0x30 32).map UInt8.ofNat

/-- Its two blocks under that key. -/
def aesCipher : List UInt8 :=
  [0x03, 0xf2, 0xc3, 0xbd, 0xca, 0x82, 0x6b, 0xf0, 0x82, 0xd7, 0xcf, 0xb0, 0x35, 0xcd, 0xb8, 0xc1,
    0xd5, 0x33, 0xe5, 0x9b, 0x45, 0xa1, 0x53, 0xed, 0x7e, 0x5e, 0x9c, 0x5d, 0xfc, 0xfd, 0x4a, 0xaa]

/-- An engine that knows AES for this key and this message. -/
def aesCore : Core where
  __ := core
  aes _ key data := if key = aesKey then Equiv.swap aesPlain aesCipher data else data
  aes_length _ key data := by
    have hplain : aesPlain.length = 32 := by decide
    have hcipher : aesCipher.length = 32 := by decide
    rw [Equiv.swap_apply_def]
    split_ifs with _ h h
    · rw [h, hplain, hcipher]
    · rw [h, hplain, hcipher]
    · rfl
    · rfl
  aes_inv key data _ := by
    split_ifs
    · exact Equiv.swap_apply_self _ _ _
    · rfl

/-- The platform with a cipher that depends on the key. -/
def aesPlatform : Platform := { platform with core := aesCore }

lemma sound_aesPlatform : aesPlatform.Sound := fun n va len dir allowPartial h =>
  have hok := sound_platform n va len dir allowPartial h
  ⟨hok.fits, hok.size_eq, hok.size_le, hok.size_pos, hok.size_page, hok.maps⟩

/-- The message at `0x4030` is encrypted to `0x5000`. -/
def encrypted : Machine := after (caamAesOp aesPlatform 0x3000 16 0x4030 0x5000 32 true used)

/-- And decrypted to `0x6000`. -/
def decrypted : Machine := after (caamAesOp aesPlatform 0x3000 16 0x5000 0x6000 32 false encrypted)

end Demo

theorem aes_round_trip_message :
    Demo.aesPlatform.bytes Demo.decrypted.mem 0x6000 32 =
        Demo.aesPlatform.bytes Demo.used.mem 0x4030 32 ∧
      Demo.aesPlatform.bytes Demo.decrypted.mem 0x4030 32 =
        Demo.aesPlatform.bytes Demo.used.mem 0x4030 32 ∧
      SameOutside (Demo.aesPlatform.cells 0x5000 32) Demo.used.mem Demo.encrypted.mem ∧
      SameOutside (Demo.aesPlatform.cells 0x6000 32) Demo.encrypted.mem Demo.decrypted.mem := by
  have henc : caamAesOp Demo.aesPlatform 0x3000 16 0x4030 0x5000 32 true Demo.used =
      (.ok caamSuccess, Demo.encrypted) := Demo.eq_after (by decide +kernel)
  have hdec : caamAesOp Demo.aesPlatform 0x3000 16 0x5000 0x6000 32 false Demo.encrypted =
      (.ok caamSuccess, Demo.decrypted) := Demo.eq_after (by decide +kernel)
  refine aes_round_trip Demo.sound_aesPlatform ?_ henc hdec
  simp only [List.pairwise_cons, List.mem_cons, List.not_mem_nil, or_false, forall_eq_or_imp,
    forall_eq, false_implies, implies_true, List.Pairwise.nil, and_true]
  refine ⟨⟨?_, ?_, ?_⟩, ⟨?_, ?_⟩, ?_⟩ <;> exact Demo.disjoint_cells _ (by decide)

/-- The message really is enciphered. -/
example : Demo.aesPlatform.bytes Demo.encrypted.mem 0x5000 32 = Demo.aesCipher := by
  decide +kernel

end TrustyLkNxp.Caam
