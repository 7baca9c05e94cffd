import TrustyLkNxp.Ipc.Kernel
import TrustyLkNxp.Lib.Buffer
import TrustyLkNxp.Lib.Except

/-!
# Keys (`hwkey_srv_provider.c`)

Key derivation, the RPMB key slot and the table of slots.  The cryptography itself is a
parameter: `HKDF` and `caam_decap_blob` are functions that either produce their output or
fail, possibly after having written some of it.  `caam_decap_blob` may also not return.
-/

namespace TrustyLkNxp.Hwkey

open Ipc

/-- `struct hwkey_msg`: the fields the service reads or writes, and the other bytes of the
header, which it passes back. -/
structure HwkeyMsg where
  cmd : Word
  status : Word
  arg1 : Word
  rest : List UInt8
deriving DecidableEq

/-- The protocol of `interface/hwkey/hwkey.h`. -/
structure HwkeyProto where
  /-- `sizeof(struct hwkey_msg)`. -/
  sizeofHdr : ℕ
  /-- The header laid out in the first bytes of a message. -/
  decode : List UInt8 → HwkeyMsg
  respBit : Word
  getKeyslot : Word
  derive : Word
  kdfVersionBest : Word
  kdfVersion1 : Word
  noError : Word
  errGeneric : Word
  errBadLen : Word
  errNotImplemented : Word
  errNotFound : Word
  /-- The two commands are labels of one `switch`. -/
  getKeyslot_ne_derive : getKeyslot ≠ derive

/-- The outcome of a cryptographic operation on a buffer: its output, or what it had written
when it failed. -/
inductive CryptoOut
  | ok (out : List UInt8)
  | fail (written : List UInt8)
deriving DecidableEq

/-- `HKDF` and `caam_decap_blob`, as functions of what they are given. -/
structure Crypto where
  /-- Output length, secret, salt and info. -/
  hkdf : ℕ → List UInt8 → Uuid → List UInt8 → CryptoOut
  /-- Key modifier, blob and size of the plaintext. There is no outcome when the driver aborts
  or waits for its job forever. -/
  decap : List UInt8 → List UInt8 → ℕ → Option CryptoOut
  hkdf_ok : ∀ n k s i out, hkdf n k s i = .ok out → out.length = n
  hkdf_fail : ∀ n k s i w, hkdf n k s i = .fail w → w.length ≤ n
  decap_ok : ∀ k b n out, decap k b n = some (.ok out) → out.length = n
  decap_fail : ∀ k b n w, decap k b n = some (.fail w) → w.length ≤ n

/-- The static data of the provider after start-up. -/
structure Provision where
  kdfv1Key : List UInt8
  rpmbKeyblobLen : Word
  rpmbKeyblob : List UInt8
deriving DecidableEq

/-- An access to a static buffer, which faults out of bounds. -/
def within (b : Option (List UInt8)) : Except Stop (List UInt8) :=
  match b with
  | some buf => .ok buf
  | none => .error (.fault .outOfBounds)

/-- A call of the CAAM driver, which stops the application when it does not return. -/
def returned {α : Type} (r : Option α) : Except Stop α :=
  match r with
  | some a => .ok a
  | none => .error .driver

/-! ## Key derivation -/

/-- What `derive_key_v1` returns: its result, the key buffer and `*key_len`. -/
structure DeriveOut where
  status : Word
  keyBuf : List UInt8
  keyLen : ℕ
deriving DecidableEq

/-- `derive_key_v1`. -/
def deriveKeyV1 (P : HwkeyProto) (C : Crypto) (prov : Provision) (uuid : Uuid)
    (ikmData : List UInt8) (keyBuf : List UInt8) : Except Stop DeriveOut := do
  if ikmData.length = 0 then
    return ⟨P.errBadLen, keyBuf, 0⟩
  -- the output is as long as the input
  if keyBuf.length < ikmData.length then
    throw (.fault .outOfBounds)
  match C.hkdf ikmData.length prov.kdfv1Key uuid ikmData with
  | .fail w =>
    let keyBuf ← within (Buffer.put keyBuf w)
    let keyBuf ← within (Buffer.fill keyBuf 0 ikmData.length)
    return ⟨P.errGeneric, keyBuf, 0⟩
  | .ok out =>
    let keyBuf ← within (Buffer.put keyBuf out)
    return ⟨P.noError, keyBuf, ikmData.length⟩

/-! ## Key slots -/

/-- What a slot handler returns: its result, the key buffer and `*klen`. -/
structure SlotOut where
  status : Word
  kbuf : List UInt8
  klen : ℕ
deriving DecidableEq

/-- A slot handler. It is called with the data of the provider, the key buffer, whose length
is `kbuf_len`, and the value `*klen` has; it stays inside the buffer it is given. -/
structure SlotHandler where
  run : Provision → Crypto → List UInt8 → ℕ → Except Stop SlotOut
  keeps : ∀ prov C kbuf klen o, run prov C kbuf klen = .ok o → o.kbuf.length = kbuf.length
  bounded : ∀ prov C kbuf klen o, run prov C kbuf klen = .ok o → klen ≤ kbuf.length →
    o.klen ≤ kbuf.length
  safe : ∀ prov C kbuf klen f, 2048 ≤ kbuf.length → run prov C kbuf klen ≠ .error (.fault f)

/-- `struct hwkey_keyslot`; the key id is a C string, without its terminator. -/
structure HwkeyKeyslot where
  keyId : List UInt8
  uuid : Uuid
  handler : Option SlotHandler

/-- `skeymod`, the key modifier of every blob. -/
def skeymod : List UInt8 :=
  [0x0f, 0x0e, 0x0d, 0x0c, 0x0b, 0x0a, 0x09, 0x08,
   0x07, 0x06, 0x05, 0x04, 0x03, 0x02, 0x01, 0x00]

/-- `CAAM_KB_HEADER_LEN`. -/
def caamKbHeaderLen : ℕ := 48

/-- `RPMB_SS_AUTH_KEY_SIZE`. -/
def rpmbSsAuthKeySize : ℕ := 32

/-- `RPMBKEY_LEN`, the size of `rpmb_keyblob`. -/
def rpmbkeyLen : ℕ := 32 + caamKbHeaderLen

/-- `RPMB_SS_AUTH_KEY_ID`. -/
def rpmbSsAuthKeyId : List UInt8 := Buffer.ascii "com.android.trusty.storage_auth.rpmb"

/-- `SECURE_STORAGE_SERVER_APP_UUID`. -/
def ssUuid : Uuid := 0xcea8706d6cb449f3b99429e0e478bd29

/-- `get_rpmb_ss_auth_key`. -/
def getRpmbSsAuthKeyRun (P : HwkeyProto) (prov : Provision) (C : Crypto) (kbuf : List UInt8)
    (klen : ℕ) : Except Stop SlotOut := do
  if kbuf.length < rpmbSsAuthKeySize then
    throw .abort
  if prov.rpmbKeyblobLen ≠ BitVec.ofNat 32 rpmbkeyLen then
    return ⟨P.errNotFound, kbuf, klen⟩
  match ← returned (C.decap skeymod prov.rpmbKeyblob rpmbSsAuthKeySize) with
  | .ok out =>
    let kbuf ← within (Buffer.put kbuf out)
    return ⟨P.noError, kbuf, rpmbSsAuthKeySize⟩
  | .fail w =>
    let kbuf ← within (Buffer.put kbuf w)
    -- wipe target buffer
    let kbuf ← within (Buffer.fill kbuf 0 rpmbSsAuthKeySize)
    return ⟨P.errGeneric, kbuf, klen⟩

/-! ## The handler stays inside its buffer -/

lemma within_some (buf : List UInt8) : within (some buf) = .ok buf := rfl

section

variable {α : Type}

lemma returned_some (a : α) : returned (some a) = .ok a := rfl

lemma returned_eq_ok {r : Option α} {a : α} : returned r = .ok a ↔ r = some a := by
  cases r <;> simp [returned]

lemma returned_ne_fault (r : Option α) (f : Fault) : returned r ≠ .error (.fault f) := by
  cases r <;> simp [returned]

end

/-- What `get_rpmb_ss_auth_key` does with a buffer that is large enough. -/
lemma getRpmbSsAuthKeyRun_eq (P : HwkeyProto) (prov : Provision) (C : Crypto)
    {kbuf : List UInt8} (klen : ℕ) (h : rpmbSsAuthKeySize ≤ kbuf.length) :
    getRpmbSsAuthKeyRun P prov C kbuf klen = returned
      (if prov.rpmbKeyblobLen ≠ BitVec.ofNat 32 rpmbkeyLen then some ⟨P.errNotFound, kbuf, klen⟩
      else match C.decap skeymod prov.rpmbKeyblob rpmbSsAuthKeySize with
        | none => none
        | some (.ok out) =>
          some ⟨P.noError, out ++ kbuf.drop rpmbSsAuthKeySize, rpmbSsAuthKeySize⟩
        | some (.fail _) =>
          some ⟨P.errGeneric, List.replicate rpmbSsAuthKeySize 0 ++ kbuf.drop rpmbSsAuthKeySize,
            klen⟩) := by
  rw [getRpmbSsAuthKeyRun, if_neg (by omega)]
  by_cases hlen : prov.rpmbKeyblobLen ≠ BitVec.ofNat 32 rpmbkeyLen
  · simp only [if_pos hlen]
    rfl
  · simp only [if_neg hlen]
    rcases hd : C.decap skeymod prov.rpmbKeyblob rpmbSsAuthKeySize with _ | out | w
    · rfl
    · have hout := C.decap_ok _ _ _ _ hd
      simp only [returned_some, Except.bind_ok,
        Buffer.put_eq_some (show out.length ≤ kbuf.length by omega), hout]
      rfl
    · have hw := C.decap_fail _ _ _ _ hd
      have hput := Buffer.put_eq_some (show w.length ≤ kbuf.length by omega)
      simp only [returned_some, hput, within_some, Except.bind_ok, Buffer.fill_put hput hw,
        Buffer.fill_eq_some h]
      rfl

/-- `get_rpmb_ss_auth_key`, with the bounds it keeps. -/
def getRpmbSsAuthKey (P : HwkeyProto) : SlotHandler where
  run := getRpmbSsAuthKeyRun P
  keeps := by
    intro prov C kbuf klen o h
    by_cases hk : rpmbSsAuthKeySize ≤ kbuf.length
    · rw [getRpmbSsAuthKeyRun_eq P prov C klen hk, returned_eq_ok] at h
      split at h
      · rw [← Option.some.inj h]
      · split at h
        · exact absurd h (by simp)
        · rename_i hd
          have hout := C.decap_ok _ _ _ _ hd
          rw [← Option.some.inj h]
          simp only [List.length_append, List.length_drop]
          omega
        · rw [← Option.some.inj h]
          simp only [List.length_append, List.length_drop, List.length_replicate]
          omega
    · rw [getRpmbSsAuthKeyRun, if_pos (by omega)] at h
      exact absurd h (by simp)
  bounded := by
    intro prov C kbuf klen o h hle
    by_cases hk : rpmbSsAuthKeySize ≤ kbuf.length
    · rw [getRpmbSsAuthKeyRun_eq P prov C klen hk, returned_eq_ok] at h
      split at h
      · rwa [← Option.some.inj h]
      · split at h
        · exact absurd h (by simp)
        · rwa [← Option.some.inj h]
        · rwa [← Option.some.inj h]
    · rw [getRpmbSsAuthKeyRun, if_pos (by omega)] at h
      exact absurd h (by simp)
  safe := by
    intro prov C kbuf klen f h
    rw [getRpmbSsAuthKeyRun_eq P prov C klen (by rw [rpmbSsAuthKeySize]; omega)]
    exact returned_ne_fault _ f

/-- `_keys`, the table `hwkey_init_srv_provider` installs. -/
def keys (P : HwkeyProto) : List HwkeyKeyslot :=
  [{ keyId := rpmbSsAuthKeyId, uuid := ssUuid, handler := some (getRpmbSsAuthKey P) }]

/-- What `derive_key_v1` does when the output fits into the key buffer. -/
lemma deriveKeyV1_eq (P : HwkeyProto) (C : Crypto) (prov : Provision) (uuid : Uuid)
    {ikmData keyBuf : List UInt8} (h : ikmData.length ≤ keyBuf.length) :
    deriveKeyV1 P C prov uuid ikmData keyBuf = .ok
      (if ikmData.length = 0 then ⟨P.errBadLen, keyBuf, 0⟩
      else match C.hkdf ikmData.length prov.kdfv1Key uuid ikmData with
        | .ok out => ⟨P.noError, out ++ keyBuf.drop ikmData.length, ikmData.length⟩
        | .fail _ => ⟨P.errGeneric, List.replicate ikmData.length 0 ++
            keyBuf.drop ikmData.length, 0⟩) := by
  rw [deriveKeyV1]
  by_cases hzero : ikmData.length = 0
  · simp only [if_pos hzero]
    rfl
  · rw [if_neg hzero, if_neg hzero, if_neg (by omega)]
    cases hd : C.hkdf ikmData.length prov.kdfv1Key uuid ikmData with
    | ok out =>
      have hout := C.hkdf_ok _ _ _ _ _ hd
      simp only [Buffer.put_eq_some (show out.length ≤ keyBuf.length by omega), hout]
      rfl
    | fail w =>
      have hw := C.hkdf_fail _ _ _ _ _ hd
      have hput := Buffer.put_eq_some (show w.length ≤ keyBuf.length by omega)
      simp only [hput, within_some, Except.bind_ok, Buffer.fill_put hput hw,
        Buffer.fill_eq_some h]
      rfl

end TrustyLkNxp.Hwkey
