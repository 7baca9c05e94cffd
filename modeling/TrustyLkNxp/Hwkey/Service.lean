import TrustyLkNxp.Ipc.Tipc
import TrustyLkNxp.Hwkey.Provider

/-!
# The HWKEY service (`hwkey_srv.c`)

A client sends one request at a time: for the key in a named slot, or for a key derived from
the bytes it sends.  Requests and keys pass through two static buffers that all channels
share, `req_data` and `key_data`.
-/

namespace TrustyLkNxp.Hwkey

open Ipc

/-- `HWKEY_MAX_PAYLOAD_SIZE`. -/
def hwkeyMaxPayloadSize : ℕ := 2048

/-- One request and the response to it, as seen from outside. -/
structure Exchange where
  chan : Handle
  /-- The identity the kernel accepted the channel with. -/
  peer : Option Uuid
  /-- The header and the payload of the request. -/
  req : HwkeyMsg
  reqData : List UInt8
  /-- The outcomes of the cryptographic operations while it was served. -/
  crypto : Crypto
  /-- The header and the payload of the response, and the result of `send_msg`. -/
  rsp : HwkeyMsg
  rspData : List UInt8
  rc : ℤ

/-- The static data of the service and its provider. The log is the history of its
responses, the latest first, and `retired` counts the messages it has retired. -/
structure Data where
  keyData : List UInt8
  reqData : List UInt8
  keySlots : List HwkeyKeyslot
  prov : Provision
  retired : ℕ
  log : List Exchange

/-- The part of the application the service works on. -/
structure World where
  sys : Sys
  data : Data

/-- The answers of the kernel and of the cryptography to the calls the service makes while
it handles one event. -/
structure Answers where
  accept : ℤ
  peer : Uuid
  calloc : Option Ptr
  setCookie : Rc
  inbound : Inbound
  send : Handle → ℤ
  crypto : Crypto

/-! ## The slots of the unit test (`WITH_HWCRYPTO_UNITTEST`) -/

/-- `HWCRYPTO_UNITTEST_APP_UUID`. -/
def hwcryptoUnittestUuid : Uuid := 0xab742471d6e6480685f60555b024f4da

/-- `_unittest_key32`. -/
def unittestKey32 : List UInt8 := Buffer.ascii "unittestkeyslotunittestkeyslotun"

/-- `get_unittest_key32`. -/
def getUnittestKey32Run (P : HwkeyProto) (_prov : Provision) (_C : Crypto) (kbuf : List UInt8)
    (_klen : ℕ) : Except Stop SlotOut := do
  if kbuf.length < unittestKey32.length then
    throw .abort
  let kbuf ← within (Buffer.put kbuf unittestKey32)
  return ⟨P.noError, kbuf, unittestKey32.length⟩

lemma getUnittestKey32Run_eq (P : HwkeyProto) (prov : Provision) (C : Crypto)
    (kbuf : List UInt8) (klen : ℕ) :
    getUnittestKey32Run P prov C kbuf klen =
      if kbuf.length < unittestKey32.length then .error .abort
      else .ok ⟨P.noError, unittestKey32 ++ kbuf.drop unittestKey32.length,
        unittestKey32.length⟩ := by
  rw [getUnittestKey32Run]
  split
  · rfl
  · rw [Buffer.put_eq_some (by omega)]
    rfl

/-- `get_unittest_key32`, with the bounds it keeps. -/
def getUnittestKey32 (P : HwkeyProto) : SlotHandler where
  run := getUnittestKey32Run P
  keeps := by
    intro prov C kbuf klen o h
    rw [getUnittestKey32Run_eq] at h
    split at h
    · exact absurd h (by simp)
    · rw [← Except.ok.inj h]
      simp only [List.length_append, List.length_drop]
      omega
  bounded := by
    intro prov C kbuf klen o h _
    rw [getUnittestKey32Run_eq] at h
    split at h
    · exact absurd h (by simp)
    · rw [← Except.ok.inj h]
      simp only
      omega
  safe := by
    intro prov C kbuf klen f _
    rw [getUnittestKey32Run_eq]
    split <;> simp

/-- The `key_id` of the slot of the unit test. -/
def unittestKeyId : List UInt8 := Buffer.ascii "com.android.trusty.hwcrypto.unittest.key32"

/-- `test_key_slots`. -/
def testKeySlots (P : HwkeyProto) : List HwkeyKeyslot :=
  [{ keyId := unittestKeyId
     uuid := hwcryptoUnittestUuid
     handler := some (getUnittestKey32 P) }]

/-! ## Requests -/

/-- `hwkey_ctx_close`. -/
def hwkeyCtxClose (w : World) (p : Ptr) : Except Stop World := do
  let c ← w.sys.hwkeyCtx p
  let sys ← w.sys.close c.chan
  let sys ← sys.free p
  return { w with sys := sys }

/-- `_handle_slots`: the loop over the table. The result, the key buffer and `*klen` are
those the handler left, when one was called. -/
def handleSlots (P : HwkeyProto) (prov : Provision) (C : Crypto) (uuid : Uuid)
    (slotId : List UInt8) : List HwkeyKeyslot → List UInt8 → ℕ → Except Stop SlotOut
  | [], kbuf, klen => .ok ⟨P.errNotFound, kbuf, klen⟩
  | slot :: slots, kbuf, klen =>
    if slot.keyId ≠ slotId then
      handleSlots P prov C uuid slotId slots kbuf klen
    else if uuid = slot.uuid then
      match slot.handler with
      | some handler => handler.run prov C kbuf klen
      | none => handleSlots P prov C uuid slotId slots kbuf klen
    else
      handleSlots P prov C uuid slotId slots kbuf klen

/-- The searches of `hwkey_handle_get_keyslot_cmd`: the installed table, and, in a build with
the unit test, the test table when the first search ended with `HWKEY_ERR_NOT_FOUND`. -/
def searchSlots (P : HwkeyProto) (unittest : Bool) (d : Data) (C : Crypto) (uuid : Uuid)
    (slotId : List UInt8) : Except Stop SlotOut := do
  let o ← handleSlots P d.prov C uuid slotId d.keySlots d.keyData 0
  if unittest = true ∧ o.status = P.errNotFound then
    handleSlots P d.prov C uuid slotId (testKeySlots P) o.kbuf o.klen
  else
    return o

/-- A request as it is handed to the command handlers: its header and payload. -/
structure Request where
  hdr : HwkeyMsg
  data : List UInt8

/-- The record of a response. -/
def exchange (P : HwkeyProto) (a : Answers) (w : World) (c : HwkeyChanCtx) (req : Request)
    (hdr : HwkeyMsg) (rspData : List UInt8) : Exchange where
  chan := c.chan
  peer := (w.sys.objs c.chan).map Obj.peer
  req := req.hdr
  reqData := req.data
  crypto := a.crypto
  rsp := { hdr with cmd := hdr.cmd ||| P.respBit }
  rspData := rspData
  rc := a.send c.chan

/-- `hwkey_send_rsp`: the response is recorded with the request it answers. -/
def hwkeySendRsp (P : HwkeyProto) (a : Answers) (w : World) (c : HwkeyChanCtx) (req : Request)
    (hdr : HwkeyMsg) (rspData : List UInt8) : ℤ × World :=
  let x := exchange P a w c req hdr rspData
  (x.rc, { w with data := { w.data with log := x :: w.data.log } })

/-- Wipe the first `n` bytes of `key_data`, unless there are none to wipe. -/
def wipeKeyData (w : World) (n : ℕ) : Except Stop World := do
  if n ≠ 0 then
    let keyData ← within (Buffer.fill w.data.keyData 0 n)
    return { w with data := { w.data with keyData := keyData } }
  else
    return w

/-- `hwkey_handle_get_keyslot_cmd`. -/
def hwkeyHandleGetKeyslotCmd (P : HwkeyProto) (unittest : Bool) (a : Answers) (w : World)
    (c : HwkeyChanCtx) (req : Request) (slotId : List UInt8) : Except Stop (ℤ × World) := do
  let o ← searchSlots P unittest w.data a.crypto c.uuid slotId
  let w := { w with data := { w.data with keyData := o.kbuf } }
  let hdr := { req.hdr with status := o.status }
  let (rc, w) := hwkeySendRsp P a w c req hdr (w.data.keyData.take o.klen)
  let w ← wipeKeyData w o.klen
  return (rc, w)

/-- The header of a derivation request, with the best version resolved to the only one. -/
def resolveKdf (P : HwkeyProto) (hdr : HwkeyMsg) : HwkeyMsg :=
  if hdr.arg1 = P.kdfVersionBest then { hdr with arg1 := P.kdfVersion1 } else hdr

/-- The `switch` over the key derivation function. -/
def kdfSwitch (P : HwkeyProto) (C : Crypto) (d : Data) (uuid : Uuid) (arg1 : Word)
    (ikmData : List UInt8) : Except Stop DeriveOut :=
  if arg1 = P.kdfVersion1 then deriveKeyV1 P C d.prov uuid ikmData d.keyData
  else .ok ⟨P.errNotImplemented, d.keyData, 0⟩

/-- `hwkey_handle_derive_key_cmd`. -/
def hwkeyHandleDeriveKeyCmd (P : HwkeyProto) (a : Answers) (w : World) (c : HwkeyChanCtx)
    (req : Request) (ikmData : List UInt8) : Except Stop (ℤ × World) := do
  let hdr := resolveKdf P req.hdr
  let o ← kdfSwitch P a.crypto w.data c.uuid hdr.arg1 ikmData
  let w := { w with data := { w.data with keyData := o.keyBuf } }
  let hdr := { hdr with status := o.status }
  let (rc, w) := hwkeySendRsp P a w c req hdr (w.data.keyData.take o.keyLen)
  let w ← wipeKeyData w o.keyLen
  return (rc, w)

/-- `hwkey_chan_handle_msg`. -/
def hwkeyChanHandleMsg (P : HwkeyProto) (U : Uapi) (unittest : Bool) (a : Answers) (w : World)
    (p : Ptr) : Except Stop (ℤ × World) := do
  let c ← w.sys.hwkeyCtx p
  let r := tipcRecvTwoSegments U a.inbound P.sizeofHdr hwkeyMaxPayloadSize
  let w := { w with data := { w.data with retired := w.data.retired + r.puts } }
  if r.rc < 0 then
    return (r.rc, w)
  let hdr := P.decode (r.data.take P.sizeofHdr)
  let payload := r.data.drop P.sizeofHdr
  let reqData ← within (Buffer.put w.data.reqData payload)
  let w := { w with data := { w.data with reqData := reqData } }
  -- calculate payload length
  if r.rc < P.sizeofHdr then
    throw (.fault .outOfBounds)
  let reqDataLen := r.rc.toNat - P.sizeofHdr
  let req : Request := ⟨hdr, payload⟩
  if hdr.cmd = P.getKeyslot then
    -- force zero termination
    let reqData ← within (Buffer.setAt w.data.reqData reqDataLen 0)
    let w := { w with data := { w.data with reqData := reqData } }
    hwkeyHandleGetKeyslotCmd P unittest a w c req (Buffer.cstr reqData)
  else if hdr.cmd = P.derive then
    let (rc, w) ← hwkeyHandleDeriveKeyCmd P a w c req (w.data.reqData.take reqDataLen)
    -- sanitize request buffer
    let reqData ← within (Buffer.fill w.data.reqData 0 reqDataLen)
    return (rc, { w with data := { w.data with reqData := reqData } })
  else
    return hwkeySendRsp P a w c req { hdr with status := P.errNotImplemented } []

/-- `hwkey_chan_handler` for an event on `handle` whose cookie leads to the context `p`. -/
def hwkeyChanHandler (P : HwkeyProto) (U : Uapi) (unittest : Bool) (handle : Handle) (f : Flags)
    (a : Answers) (w : World) (p : Ptr) : Except Stop World := do
  let c ← w.sys.hwkeyCtx p
  if handle ≠ c.chan then
    throw (.fault .wrongChan)
  if chanErrors f then
    throw .abort
  if f.hup then
    hwkeyCtxClose w p
  else if f.msg then
    let (rc, w) ← hwkeyChanHandleMsg P U unittest a w p
    if rc < 0 then hwkeyCtxClose w p else return w
  else
    return w

/-- `hwkey_port_handler`. -/
def hwkeyPortHandler (f : Flags) (a : Answers) (w : World) : Except Stop World := do
  if portErrors f then
    throw .abort
  if f.ready then
    if a.accept < 0 then
      return w
    let chan : Handle := a.accept
    let w := { w with sys := w.sys.accept chan .hwkey a.peer }
    match a.calloc with
    | none =>
      let sys ← w.sys.close chan
      return { w with sys := sys }
    | some p =>
      let w := { w with sys := w.sys.store p (.hwkey { chan := chan, uuid := a.peer }) }
      let w := { w with sys := w.sys.setCookie chan (.ctx p) a.setCookie }
      if a.setCookie.1 < 0 then
        hwkeyCtxClose w p
      else
        return w
  else
    return w

/-- `hwkey_start_service`: `rc` is the result of `port_create` and `cookieRc` that of
`set_cookie`. -/
def hwkeyStartService (s : Sys) (rc : ℤ) (cookieRc : Rc) : Except Stop Sys :=
  if rc < 0 then .ok s
  else
    let s := { s with objs := Function.update s.objs rc (some ⟨false, .hwkey, 0, none, false⟩) }
    let s := s.setCookie rc (.port .hwkey) cookieRc
    if cookieRc.1 ≠ 0 then s.close rc else .ok s

end TrustyLkNxp.Hwkey
