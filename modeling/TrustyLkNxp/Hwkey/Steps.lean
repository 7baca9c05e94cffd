import TrustyLkNxp.Ipc.Lifecycle
import TrustyLkNxp.Hwkey.Service

/-!
# What the HWKEY service can do

As for the HWRNG service, each function is inverted once.  The heart is `reply`: the reply to
a request as a function of the request, the identity of the client and the key buffer.  The
service sends exactly that reply, wipes what it has put into the key buffer, and never leaves
the bounds of its two buffers.
-/

namespace TrustyLkNxp.Hwkey

open Ipc

/-- The two static buffers have their sizes. -/
structure Data.Sized (d : Data) : Prop where
  keyData : d.keyData.length = hwkeyMaxPayloadSize
  reqData : d.reqData.length = hwkeyMaxPayloadSize + 1

/-- A buffer whose first `n` bytes have been wiped. -/
def wipe (buf : List UInt8) (n : ℕ) : List UInt8 := List.replicate n 0 ++ buf.drop n

lemma length_wipe {buf : List UInt8} {n : ℕ} (h : n ≤ buf.length) :
    (wipe buf n).length = buf.length := by
  rw [wipe, List.length_append, List.length_replicate, List.length_drop]
  omega

lemma wipeKeyData_eq {w : World} {n : ℕ} (h : n ≤ w.data.keyData.length) :
    wipeKeyData w n =
      .ok { w with data := { w.data with keyData := wipe w.data.keyData n } } := by
  rw [wipeKeyData]
  split
  · rw [Buffer.fill_eq_some h]
    rfl
  · rename_i hn
    simp only [ne_eq, not_not] at hn
    subst hn
    rfl

/-! ## The search for a slot -/

/-- A search that succeeds ends with the answer of a handler whose slot has the requested
name and belongs to the client, or finds nothing and touches nothing. -/
lemma handleSlots_cases {P : HwkeyProto} {prov : Provision} {C : Crypto} {uuid : Uuid}
    {slotId : List UInt8} {slots : List HwkeyKeyslot} {kbuf : List UInt8} {klen : ℕ} {o : SlotOut}
    (h : handleSlots P prov C uuid slotId slots kbuf klen = .ok o) :
    o = ⟨P.errNotFound, kbuf, klen⟩ ∨
      ∃ slot ∈ slots, slot.keyId = slotId ∧ slot.uuid = uuid ∧
        ∃ handler, slot.handler = some handler ∧ handler.run prov C kbuf klen = .ok o := by
  induction slots with
  | nil => exact Or.inl (Except.ok.inj h).symm
  | cons slot slots ih =>
    have hskip : handleSlots P prov C uuid slotId slots kbuf klen = .ok o →
        o = ⟨P.errNotFound, kbuf, klen⟩ ∨
          ∃ slot' ∈ slot :: slots, slot'.keyId = slotId ∧ slot'.uuid = uuid ∧
            ∃ handler, slot'.handler = some handler ∧ handler.run prov C kbuf klen = .ok o := by
      intro h
      obtain hnone | ⟨slot', hmem, hslot⟩ := ih h
      · exact Or.inl hnone
      · exact Or.inr ⟨slot', List.mem_cons_of_mem _ hmem, hslot⟩
    rw [handleSlots] at h
    by_cases hid : slot.keyId = slotId
    · rw [if_neg (by simpa using hid)] at h
      by_cases huuid : uuid = slot.uuid
      · rw [if_pos huuid] at h
        cases hh : slot.handler with
        | none => exact hskip (by simpa [hh] using h)
        | some handler =>
          exact Or.inr ⟨slot, List.mem_cons_self .., hid, huuid.symm, handler, hh,
            by simpa [hh] using h⟩
      · exact hskip (by rwa [if_neg huuid] at h)
    · exact hskip (by rwa [if_pos hid] at h)

/-- No search leaves the key buffer. -/
lemma handleSlots_safe {P : HwkeyProto} {prov : Provision} {C : Crypto} {uuid : Uuid}
    {slotId : List UInt8} {slots : List HwkeyKeyslot} {kbuf : List UInt8} {klen : ℕ} {f : Fault}
    (hlen : kbuf.length = hwkeyMaxPayloadSize) :
    handleSlots P prov C uuid slotId slots kbuf klen ≠ .error (.fault f) := by
  induction slots with
  | nil => simp [handleSlots]
  | cons slot slots ih =>
    rw [handleSlots]
    split
    · exact ih
    · split
      · split
        · rename_i handler _
          exact handler.safe prov C kbuf klen f hlen.ge
        · exact ih
      · exact ih

lemma handleSlots_bounded {P : HwkeyProto} {prov : Provision} {C : Crypto} {uuid : Uuid}
    {slotId : List UInt8} {slots : List HwkeyKeyslot} {kbuf : List UInt8} {klen : ℕ} {o : SlotOut}
    (h : handleSlots P prov C uuid slotId slots kbuf klen = .ok o) (hklen : klen ≤ kbuf.length) :
    o.kbuf.length = kbuf.length ∧ o.klen ≤ kbuf.length := by
  obtain rfl | ⟨-, -, -, -, handler, -, hrun⟩ := handleSlots_cases h
  · exact ⟨rfl, hklen⟩
  · exact ⟨handler.keeps _ _ _ _ _ hrun, handler.bounded _ _ _ _ _ hrun hklen⟩

/-- The slots a request is looked up in. -/
def installedSlots (P : HwkeyProto) (unittest : Bool) (d : Data) : List HwkeyKeyslot :=
  d.keySlots ++ if unittest then testKeySlots P else []

/-- The two searches yield no key, or the key in the buffer was produced by the handler of a
slot that has the requested name and belongs to the client. -/
lemma searchSlots_cases {P : HwkeyProto} {unittest : Bool} {d : Data} {C : Crypto} {uuid : Uuid}
    {slotId : List UInt8} {o : SlotOut}
    (h : searchSlots P unittest d C uuid slotId = .ok o) :
    o.klen = 0 ∨
      ∃ slot ∈ installedSlots P unittest d, slot.keyId = slotId ∧ slot.uuid = uuid ∧
        ∃ handler, slot.handler = some handler ∧
          ∃ kbuf, kbuf.length = d.keyData.length ∧
            ∃ o', handler.run d.prov C kbuf 0 = .ok o' ∧
              o'.kbuf = o.kbuf ∧ o'.klen = o.klen := by
  obtain ⟨o₁, h₁, h⟩ := Except.bind_eq_ok.mp h
  -- what the first search produced stands when the second one finds nothing
  have hfirst : o₁.klen = 0 ∨
      ∃ slot ∈ installedSlots P unittest d, slot.keyId = slotId ∧ slot.uuid = uuid ∧
        ∃ handler, slot.handler = some handler ∧ handler.run d.prov C d.keyData 0 = .ok o₁ := by
    obtain rfl | ⟨slot, hmem, hslot⟩ := handleSlots_cases h₁
    · exact Or.inl rfl
    · exact Or.inr ⟨slot, List.mem_append_left _ hmem, hslot⟩
  have hkeep : ∀ status, o = ⟨status, o₁.kbuf, o₁.klen⟩ → o.klen = 0 ∨
      ∃ slot ∈ installedSlots P unittest d, slot.keyId = slotId ∧ slot.uuid = uuid ∧
        ∃ handler, slot.handler = some handler ∧
          ∃ kbuf, kbuf.length = d.keyData.length ∧
            ∃ o', handler.run d.prov C kbuf 0 = .ok o' ∧
              o'.kbuf = o.kbuf ∧ o'.klen = o.klen := by
    rintro status rfl
    obtain hzero | ⟨slot, hmem, hid, huuid, handler, hh, hrun⟩ := hfirst
    · exact Or.inl hzero
    · exact Or.inr ⟨slot, hmem, hid, huuid, handler, hh, _, rfl, o₁, hrun, rfl, rfl⟩
  split at h
  · rename_i hcond
    obtain hnone | ⟨slot, hmem, hid, huuid, handler, hh, hrun⟩ := handleSlots_cases h
    · exact hkeep _ hnone
    · -- the handler of the test slot does not look at the length it finds
      have hrun₀ : handler.run d.prov C o₁.kbuf 0 = .ok o := by
        obtain rfl := List.mem_singleton.mp hmem
        obtain rfl := Option.some.inj hh
        exact hrun
      refine Or.inr ⟨slot, ?_, hid, huuid, handler, hh, _,
        (handleSlots_bounded h₁ (Nat.zero_le _)).1, o, hrun₀, rfl, rfl⟩
      rw [installedSlots, if_pos hcond.1]
      exact List.mem_append_right _ hmem
  · obtain rfl : o₁ = o := Except.ok.inj h
    exact hkeep o₁.status rfl

lemma searchSlots_safe {P : HwkeyProto} {unittest : Bool} {d : Data} {C : Crypto} {uuid : Uuid}
    {slotId : List UInt8} {f : Fault} (hlen : d.keyData.length = hwkeyMaxPayloadSize) :
    searchSlots P unittest d C uuid slotId ≠ .error (.fault f) := by
  intro h
  obtain h | ⟨o₁, h₁, h⟩ := Except.bind_eq_error.mp h
  · exact handleSlots_safe hlen h
  · split at h
    · exact handleSlots_safe ((handleSlots_bounded h₁ (Nat.zero_le _)).1.trans hlen) h
    · exact absurd h (by simp)

lemma searchSlots_bounded {P : HwkeyProto} {unittest : Bool} {d : Data} {C : Crypto} {uuid : Uuid}
    {slotId : List UInt8} {o : SlotOut} (h : searchSlots P unittest d C uuid slotId = .ok o) :
    o.kbuf.length = d.keyData.length ∧ o.klen ≤ d.keyData.length := by
  obtain ⟨o₁, h₁, h⟩ := Except.bind_eq_ok.mp h
  have hb := handleSlots_bounded h₁ (Nat.zero_le _)
  split at h
  · have hb' := handleSlots_bounded h (hb.2.trans_eq hb.1.symm)
    rwa [hb.1] at hb'
  · obtain rfl : o₁ = o := Except.ok.inj h
    exact hb

/-! ## The reply to a request -/

/-- A reply, before the response bit is set, and the key buffer once it has been wiped. -/
structure Reply where
  hdr : HwkeyMsg
  data : List UInt8
  keyData : List UInt8
deriving DecidableEq

/-- The reply to a request. -/
def reply (P : HwkeyProto) (unittest : Bool) (d : Data) (C : Crypto) (uuid : Uuid)
    (req : Request) : Except Stop Reply :=
  if req.hdr.cmd = P.getKeyslot then do
    let o ← searchSlots P unittest d C uuid (Buffer.cstr req.data)
    return ⟨{ req.hdr with status := o.status }, o.kbuf.take o.klen, wipe o.kbuf o.klen⟩
  else if req.hdr.cmd = P.derive then do
    let hdr := resolveKdf P req.hdr
    let o ← kdfSwitch P C d uuid hdr.arg1 req.data
    return ⟨{ hdr with status := o.status }, o.keyBuf.take o.keyLen,
      wipe o.keyBuf o.keyLen⟩
  else
    .ok ⟨{ req.hdr with status := P.errNotImplemented }, [], d.keyData⟩

/-- What a derivation leaves in the key buffer. -/
lemma kdfSwitch_eq (P : HwkeyProto) {d : Data} (C : Crypto) (uuid : Uuid) (arg1 : Word)
    {ikmData : List UInt8} (hlen : d.keyData.length = hwkeyMaxPayloadSize)
    (hreq : ikmData.length ≤ hwkeyMaxPayloadSize) :
    ∃ o, kdfSwitch P C d uuid arg1 ikmData = .ok o ∧ o.keyBuf.length = d.keyData.length ∧
      o.keyLen ≤ d.keyData.length := by
  have hfit : ikmData.length ≤ d.keyData.length := hreq.trans_eq hlen.symm
  rw [kdfSwitch]
  split
  · rw [deriveKeyV1_eq P C d.prov uuid hfit]
    refine ⟨_, rfl, ?_, ?_⟩
    · split
      · rfl
      · split
        · rename_i hd
          have hout := C.hkdf_ok _ _ _ _ _ hd
          simp only [List.length_append, List.length_drop]
          omega
        · simp only [List.length_append, List.length_replicate, List.length_drop]
          omega
    · split
      · exact Nat.zero_le _
      · split
        · exact hfit
        · exact Nat.zero_le _
  · exact ⟨_, rfl, rfl, Nat.zero_le _⟩

lemma reply_keyData {P : HwkeyProto} {unittest : Bool} {d : Data} {C : Crypto} {uuid : Uuid}
    {req : Request} {r : Reply} (hlen : d.keyData.length = hwkeyMaxPayloadSize)
    (hreq : req.data.length ≤ hwkeyMaxPayloadSize)
    (h : reply P unittest d C uuid req = .ok r) : r.keyData.length = hwkeyMaxPayloadSize := by
  rw [reply] at h
  split at h
  · obtain ⟨o, ho, hr⟩ := Except.bind_eq_ok.mp h
    obtain ⟨hkbuf, hklen⟩ := searchSlots_bounded ho
    rw [← Except.ok.inj hr]
    exact (length_wipe (hklen.trans_eq hkbuf.symm)).trans (hkbuf.trans hlen)
  · split at h
    · obtain ⟨o, ho, hbuf, hkl⟩ :=
        kdfSwitch_eq P C uuid (resolveKdf P req.hdr).arg1 hlen hreq
      simp only [ho, Except.bind_ok] at h
      rw [← Except.ok.inj h]
      exact (length_wipe (hkl.trans_eq hbuf.symm)).trans (hbuf.trans hlen)
    · rw [← Except.ok.inj h]
      exact hlen

/-! ## The message -/

/-- The request in a message: none when receiving it fails. A payload that does not fit is
cut off. -/
def requestOf (P : HwkeyProto) (U : Uapi) (m : Inbound) : Option Request :=
  let r := tipcRecvTwoSegments U m P.sizeofHdr hwkeyMaxPayloadSize
  if r.rc < 0 then none else some ⟨P.decode (r.data.take P.sizeofHdr), r.data.drop P.sizeofHdr⟩

lemma requestOf_length {P : HwkeyProto} {U : Uapi} {m : Inbound} {req : Request}
    (h : requestOf P U m = some req) : req.data.length ≤ hwkeyMaxPayloadSize := by
  have hget := m.getMsg.2
  simp only [requestOf] at h
  obtain ⟨hne, heq⟩ | ⟨-, rc, hneg, heq, -⟩ | ⟨-, -, -, heq⟩ :=
    tipcRecvTwoSegments_cases U m P.sizeofHdr hwkeyMaxPayloadSize
  · rw [heq, if_pos (by simp only; omega)] at h
    exact absurd h (by simp)
  · rw [heq, if_pos hneg] at h
    exact absurd h (by simp)
  · rw [heq, if_neg (by simp only; omega)] at h
    rw [← Option.some.inj h]
    simp only [List.length_drop, List.length_take]
    omega

/-- The state once a reply has been sent. -/
def World.replied (w : World) (r : Reply) (reqData : List UInt8) (x : Exchange) : World :=
  { w with data := { w.data with
      keyData := r.keyData
      reqData := reqData
      retired := w.data.retired + 1
      log := x :: w.data.log } }

/-- A message that cannot be received changes nothing; it is retired when there is one. -/
lemma hwkeyChanHandleMsg_of_none {P : HwkeyProto} {U : Uapi} (unittest : Bool) {a : Answers}
    {w : World} {p : Ptr} {c : HwkeyChanCtx} (hc : w.sys.heap p = some (.hwkey c))
    (hreq : requestOf P U a.inbound = none) :
    ∃ rc, rc < 0 ∧ hwkeyChanHandleMsg P U unittest a w p =
      .ok (rc, { w with data := { w.data with
        retired := w.data.retired + if a.inbound.getMsg.1 = 0 then 1 else 0 } }) := by
  have hneg : (tipcRecvTwoSegments U a.inbound P.sizeofHdr hwkeyMaxPayloadSize).rc < 0 := by
    by_contra hnonneg
    simp [requestOf, hnonneg] at hreq
  have hputs : (tipcRecvTwoSegments U a.inbound P.sizeofHdr hwkeyMaxPayloadSize).puts =
      if a.inbound.getMsg.1 = 0 then 1 else 0 := tipcRecvTwoSegments_puts ..
  refine ⟨_, hneg, ?_⟩
  simp only [hwkeyChanHandleMsg, Sys.hwkeyCtx_eq hc, Except.bind_ok, if_pos hneg, hputs]
  rfl

/-- A reception that succeeded, in terms of the request it brought. -/
lemma recv_of_request {P : HwkeyProto} {U : Uapi} {m : Inbound} {req : Request}
    (h : requestOf P U m = some req) :
    ∃ hdr, tipcRecvTwoSegments U m P.sizeofHdr hwkeyMaxPayloadSize =
        ⟨P.sizeofHdr + req.data.length, hdr ++ req.data, 1⟩ ∧ hdr.length = P.sizeofHdr ∧
      req.hdr = P.decode hdr := by
  have hget := m.getMsg.2
  simp only [requestOf] at h
  obtain ⟨hne, heq⟩ | ⟨-, rc, hneg, heq, -⟩ | ⟨-, -, hhdr, heq⟩ :=
    tipcRecvTwoSegments_cases U m P.sizeofHdr hwkeyMaxPayloadSize
  · rw [heq, if_pos (by simp only; omega)] at h
    exact absurd h (by simp)
  · rw [heq, if_pos hneg] at h
    exact absurd h (by simp)
  · rw [heq, if_neg (by simp only; omega)] at h
    rw [← Option.some.inj h, heq]
    refine ⟨(m.bytes.take (P.sizeofHdr + hwkeyMaxPayloadSize)).take P.sizeofHdr, ?_, ?_, rfl⟩
    · simp only [List.take_append_drop, List.length_drop, List.length_take, Recv.mk.injEq,
        and_true]
      omega
    · simp only [List.length_take]
      omega

/-- The response to a command, once the key buffer has been wiped. -/
def World.responded (w : World) (keyData : List UInt8) (x : Exchange) : World :=
  { w with data := { w.data with keyData := keyData, log := x :: w.data.log } }

lemma hwkeyHandleGetKeyslotCmd_eq {P : HwkeyProto} {unittest : Bool} {a : Answers} {w : World}
    {c : HwkeyChanCtx} {req : Request} {slotId : List UInt8} {o : SlotOut}
    (ho : searchSlots P unittest w.data a.crypto c.uuid slotId = .ok o) :
    hwkeyHandleGetKeyslotCmd P unittest a w c req slotId = .ok (a.send c.chan,
      w.responded (wipe o.kbuf o.klen)
        (exchange P a w c req { req.hdr with status := o.status } (o.kbuf.take o.klen))) := by
  obtain ⟨hkbuf, hklen⟩ := searchSlots_bounded ho
  let w₁ : World := w.responded o.kbuf
    (exchange P a w c req { req.hdr with status := o.status } (o.kbuf.take o.klen))
  have hwipe : wipeKeyData w₁ o.klen = _ := wipeKeyData_eq (hklen.trans_eq hkbuf.symm)
  rw [hwkeyHandleGetKeyslotCmd, ho, Except.bind_ok]
  change (wipeKeyData w₁ o.klen >>= _) = _
  rw [hwipe]
  rfl

lemma hwkeyHandleDeriveKeyCmd_eq {P : HwkeyProto} {a : Answers} {w : World} {c : HwkeyChanCtx}
    {req : Request} (hlen : w.data.keyData.length = hwkeyMaxPayloadSize)
    (hreq : req.data.length ≤ hwkeyMaxPayloadSize) {o : DeriveOut}
    (ho : kdfSwitch P a.crypto w.data c.uuid (resolveKdf P req.hdr).arg1 req.data = .ok o) :
    hwkeyHandleDeriveKeyCmd P a w c req req.data = .ok (a.send c.chan,
      w.responded (wipe o.keyBuf o.keyLen)
        (exchange P a w c req { resolveKdf P req.hdr with status := o.status }
          (o.keyBuf.take o.keyLen))) := by
  have hbounds : o.keyLen ≤ o.keyBuf.length := by
    obtain ⟨o', ho', hbuf, hkl⟩ :=
      kdfSwitch_eq P a.crypto c.uuid (resolveKdf P req.hdr).arg1 hlen hreq
    obtain rfl : o' = o := Except.ok.inj (ho'.symm.trans ho)
    exact hkl.trans_eq hbuf.symm
  let w₁ : World := w.responded o.keyBuf
    (exchange P a w c req { resolveKdf P req.hdr with status := o.status }
      (o.keyBuf.take o.keyLen))
  have hwipe : wipeKeyData w₁ o.keyLen = _ := wipeKeyData_eq hbounds
  simp only [hwkeyHandleDeriveKeyCmd, ho, Except.bind_ok]
  change (wipeKeyData w₁ o.keyLen >>= _) = _
  rw [hwipe]
  rfl

/-- A request is answered with its reply, and the key buffer is wiped afterwards; so is the
keying material of a derivation. -/
lemma hwkeyChanHandleMsg_of_request {P : HwkeyProto} {U : Uapi} (unittest : Bool) {a : Answers}
    {w : World} {p : Ptr} {c : HwkeyChanCtx} {req : Request} (hw : w.data.Sized)
    (hc : w.sys.heap p = some (.hwkey c)) (hreq : requestOf P U a.inbound = some req) :
    (∃ stop, (∀ f, stop ≠ .fault f) ∧ reply P unittest w.data a.crypto c.uuid req = .error stop ∧
      hwkeyChanHandleMsg P U unittest a w p = .error stop) ∨
      ∃ r reqData, reply P unittest w.data a.crypto c.uuid req = .ok r ∧
        reqData.length = hwkeyMaxPayloadSize + 1 ∧
        (req.hdr.cmd = P.derive → reqData.take req.data.length = List.replicate req.data.length 0) ∧
        hwkeyChanHandleMsg P U unittest a w p = .ok (a.send c.chan,
          w.replied r reqData (exchange P a w c req r.hdr r.data)) := by
  have hlen := requestOf_length hreq
  obtain ⟨hdr, hrecv, hhdr, hdec⟩ := recv_of_request hreq
  have hdrop : (hdr ++ req.data).drop P.sizeofHdr = req.data := List.drop_left' hhdr
  have htake : (hdr ++ req.data).take P.sizeofHdr = hdr := List.take_left' hhdr
  have hsub : ((P.sizeofHdr + req.data.length : ℤ)).toNat - P.sizeofHdr = req.data.length := by
    omega
  have hrc : ¬ ((P.sizeofHdr + req.data.length : ℤ) < 0) := by omega
  have hrc' : ¬ ((P.sizeofHdr + req.data.length : ℤ) < P.sizeofHdr) := by omega
  -- the request buffer holds the payload, and then whatever it held before
  obtain ⟨buf, hput⟩ : ∃ buf, Buffer.put w.data.reqData req.data = some buf :=
    ⟨_, Buffer.put_eq_some (by rw [hw.reqData]; omega)⟩
  have hbuf : buf.length = hwkeyMaxPayloadSize + 1 := (Buffer.length_put hput).trans hw.reqData
  let w₁ : World :=
    { w with data := { w.data with retired := w.data.retired + 1, reqData := buf } }
  simp only [hwkeyChanHandleMsg, Sys.hwkeyCtx_eq hc, Except.bind_ok, hrecv, hdrop, htake, hput,
    within_some, ← hdec, if_neg hrc, if_neg hrc', hsub]
  by_cases hget : req.hdr.cmd = P.getKeyslot
  · obtain ⟨buf', hset⟩ : ∃ buf', Buffer.setAt buf req.data.length 0 = some buf' :=
      ⟨_, Buffer.setAt_eq_some (by omega)⟩
    have hbuf' := (Buffer.length_setAt hset).trans hbuf
    let w₂ : World := { w₁ with data := { w₁.data with reqData := buf' } }
    simp only [reply, if_pos hget, hset, within_some, Except.bind_ok,
      Buffer.cstr_put_setAt hput hset]
    rcases ho : searchSlots P unittest w.data a.crypto c.uuid (Buffer.cstr req.data) with stop | o
    · left
      have ho' : searchSlots P unittest w₂.data a.crypto c.uuid (Buffer.cstr req.data) = _ := ho
      refine ⟨stop, ?_, rfl, ?_⟩
      · rintro f rfl
        exact searchSlots_safe hw.keyData ho
      · simp only [hwkeyHandleGetKeyslotCmd]
        rw [ho']
        rfl
    · have hcmd : hwkeyHandleGetKeyslotCmd P unittest a w₂ c req (Buffer.cstr req.data) = _ :=
        hwkeyHandleGetKeyslotCmd_eq ho
      exact Or.inr ⟨_, buf', rfl, hbuf', fun h => absurd (hget.symm.trans h) P.getKeyslot_ne_derive,
        hcmd⟩
  · obtain ⟨buf', hfill⟩ : ∃ buf', Buffer.fill buf 0 req.data.length = some buf' :=
      ⟨_, Buffer.fill_eq_some (by omega)⟩
    have hbuf' := (Buffer.length_fill hfill).trans hbuf
    simp only [reply, if_neg hget]
    by_cases hder : req.hdr.cmd = P.derive
    · obtain ⟨o, ho, -⟩ :=
        kdfSwitch_eq P a.crypto c.uuid (resolveKdf P req.hdr).arg1 hw.keyData hlen
      have hkey : w₁.data.keyData.length = hwkeyMaxPayloadSize := hw.keyData
      have ho₁ : kdfSwitch P a.crypto w₁.data c.uuid (resolveKdf P req.hdr).arg1 req.data = .ok o :=
        ho
      have hcmd : hwkeyHandleDeriveKeyCmd P a w₁ c req req.data = _ :=
        hwkeyHandleDeriveKeyCmd_eq hkey hlen ho₁
      simp only [if_pos hder, Buffer.take_put hput, ho, Except.bind_ok]
      refine Or.inr ⟨_, buf', rfl, hbuf', fun _ => Buffer.take_fill hfill, ?_⟩
      change (hwkeyHandleDeriveKeyCmd P a w₁ c req req.data >>= _) = _
      rw [hcmd]
      change (within (Buffer.fill buf 0 req.data.length) >>= _) = _
      rw [hfill]
      rfl
    · simp only [if_neg hder]
      exact Or.inr ⟨_, buf, rfl, hbuf, fun h => absurd h hder, rfl⟩

/-! ## The handlers -/

lemma hwkeyCtxClose_eq {w : World} {p : Ptr} {c : HwkeyChanCtx} {o : Obj}
    (hc : w.sys.heap p = some (.hwkey c)) (ho : w.sys.objs c.chan = some o) :
    hwkeyCtxClose w p = .ok { w with sys := w.sys.drop c.chan p } := by
  have hfree : ({ w.sys with objs := Function.update w.sys.objs c.chan none } : Sys).free p =
      .ok (w.sys.drop c.chan p) := Sys.free_eq hc
  simp only [hwkeyCtxClose, Sys.hwkeyCtx_eq hc, Sys.close_eq ho, Except.bind_ok, hfree]
  rfl

/-- What an event on a channel does to the state. -/
inductive Handled (P : HwkeyProto) (U : Uapi) (unittest : Bool) (a : Answers) (p : Ptr)
    (c : HwkeyChanCtx) (f : Flags) (w : World) : World → Prop
  | quiet (hhup : f.hup = false) (hmsg : f.msg = false) : Handled P U unittest a p c f w w
  | hungUp (hhup : f.hup = true) :
      Handled P U unittest a p c f w { w with sys := w.sys.drop c.chan p }
  | unreadable (puts : ℕ) (hhup : f.hup = false) (hmsg : f.msg = true)
      (hreq : requestOf P U a.inbound = none) :
      Handled P U unittest a p c f w
        { sys := w.sys.drop c.chan p
          data := { w.data with retired := w.data.retired + puts } }
  | replied {req : Request} {r : Reply} {reqData : List UInt8} (hhup : f.hup = false)
      (hmsg : f.msg = true) (hreq : requestOf P U a.inbound = some req)
      (hr : reply P unittest w.data a.crypto c.uuid req = .ok r)
      (hlen : reqData.length = hwkeyMaxPayloadSize + 1) (hsend : 0 ≤ a.send c.chan) :
      Handled P U unittest a p c f w
        (w.replied r reqData (exchange P a w c req r.hdr r.data))
  | unsent {req : Request} {r : Reply} {reqData : List UInt8} (hhup : f.hup = false)
      (hmsg : f.msg = true) (hreq : requestOf P U a.inbound = some req)
      (hr : reply P unittest w.data a.crypto c.uuid req = .ok r)
      (hlen : reqData.length = hwkeyMaxPayloadSize + 1) (hsend : a.send c.chan < 0) :
      Handled P U unittest a p c f w
        { w.replied r reqData (exchange P a w c req r.hdr r.data) with
          sys := w.sys.drop c.chan p }

lemma hwkeyChanHandler_spec (P : HwkeyProto) (U : Uapi) (unittest : Bool) {handle : Handle}
    (f : Flags) (a : Answers) (w : World) {l : List Ptr} {p : Ptr} {c : HwkeyChanCtx}
    (hL : Lifecycle w.sys l) (hw : w.data.Sized) (hc : w.sys.heap p = some (.hwkey c))
    (hchan : c.chan = handle) :
    (chanErrors f = true ∧ hwkeyChanHandler P U unittest handle f a w p = .error .abort) ∨
    (∃ req stop, (∀ f, stop ≠ .fault f) ∧ f.hup = false ∧ f.msg = true ∧
      requestOf P U a.inbound = some req ∧
      reply P unittest w.data a.crypto c.uuid req = .error stop ∧
      hwkeyChanHandler P U unittest handle f a w p = .error stop) ∨
    ∃ w', chanErrors f = false ∧ hwkeyChanHandler P U unittest handle f a w p = .ok w' ∧
      Handled P U unittest a p c f w w' := by
  obtain ⟨o, ho, -⟩ := hL.chan_open hc
  have ho : w.sys.objs c.chan = some o := ho
  rw [hwkeyChanHandler, Sys.hwkeyCtx_eq hc, Except.bind_ok, if_neg (by simp [hchan])]
  cases chanErrors f with
  | true => exact Or.inl ⟨rfl, rfl⟩
  | false =>
    right
    simp only [Bool.false_eq_true, if_false, true_and]
    cases hhup : f.hup with
    | true =>
      simp only [if_true]
      exact Or.inr ⟨_, hwkeyCtxClose_eq hc ho, .hungUp hhup⟩
    | false =>
      cases hmsg : f.msg with
      | false => exact Or.inr ⟨w, rfl, .quiet hhup hmsg⟩
      | true =>
        simp only [Bool.false_eq_true, if_false, if_true]
        cases hreq : requestOf P U a.inbound with
        | none =>
          right
          obtain ⟨rc, hneg, hok⟩ := hwkeyChanHandleMsg_of_none unittest hc hreq
          refine ⟨_, ?_, .unreadable (if a.inbound.getMsg.1 = 0 then 1 else 0) hhup hmsg hreq⟩
          rw [hok, Except.bind_ok]
          exact (if_pos hneg).trans (hwkeyCtxClose_eq hc ho)
        | some req =>
          obtain ⟨stop, hclean, hr, herr⟩ | ⟨r, reqData, hr, hlen, -, hok⟩ :=
            hwkeyChanHandleMsg_of_request unittest hw hc hreq
          · exact Or.inl ⟨req, stop, hclean, trivial, trivial, rfl, hr, by rw [herr]; rfl⟩
          right
          rw [hok, Except.bind_ok]
          by_cases hsend : a.send c.chan < 0
          · refine ⟨_, ?_, .unsent hhup hmsg hreq hr hlen hsend⟩
            exact (if_pos hsend).trans (hwkeyCtxClose_eq hc ho)
          · exact ⟨_, if_neg hsend, .replied hhup hmsg hreq hr hlen (by omega)⟩

namespace Handled

variable {P : HwkeyProto} {U : Uapi} {unittest : Bool} {a : Answers} {p : Ptr}
  {c : HwkeyChanCtx} {f : Flags} {w w' : World}

/-- A HWKEY context is not on the list of the HWRNG service, so it is not missed there. -/
lemma lifecycle (h : Handled P U unittest a p c f w w') {l : List Ptr} (hL : Lifecycle w.sys l)
    (hc : w.sys.heap p = some (.hwkey c)) : Lifecycle w'.sys l := by
  have hdrop : Lifecycle (w.sys.drop c.chan p) l := by
    have hp : p ∉ l := by
      intro hp
      obtain ⟨d, hd⟩ := hL.list_live p hp
      rw [hc] at hd
      exact absurd hd (by simp)
    have herase := hL.drop hc
    rwa [List.erase_of_not_mem hp] at herase
  cases h with
  | quiet => exact hL
  | hungUp => exact hdrop
  | unreadable => exact hdrop
  | replied => exact hL
  | unsent => exact hdrop

lemma sized (h : Handled P U unittest a p c f w w') (hw : w.data.Sized) : w'.data.Sized := by
  cases h with
  | quiet => exact hw
  | hungUp => exact hw
  | unreadable => exact ⟨hw.keyData, hw.reqData⟩
  | replied _ _ hreq hr hlen => exact ⟨reply_keyData hw.keyData (requestOf_length hreq) hr, hlen⟩
  | unsent _ _ hreq hr hlen => exact ⟨reply_keyData hw.keyData (requestOf_length hreq) hr, hlen⟩

/-- The slots and the data of the provider never change. -/
lemma static (h : Handled P U unittest a p c f w w') :
    w'.data.keySlots = w.data.keySlots ∧ w'.data.prov = w.data.prov := by
  cases h <;> exact ⟨rfl, rfl⟩

end Handled

/-- A connection is pending, and all calls made to accept it succeed. -/
def Accepts (f : Flags) (a : Answers) : Prop :=
  f.ready = true ∧ 0 ≤ a.accept ∧ a.setCookie.1 = 0

instance (f : Flags) (a : Answers) : Decidable (Accepts f a) := by
  unfold Accepts
  infer_instance

/-- What the handler of the port does: nothing that lasts, or a new channel. -/
inductive Accepted (f : Flags) (a : Answers) (w : World) : World → Prop
  | quiet (h : ¬ Accepts f a ∨ a.calloc = none) : Accepted f a w w
  | connected {p : Ptr} (h : Accepts f a) (hcalloc : a.calloc = some p) :
      Accepted f a w
        { w with
          sys := w.sys.connect a.accept a.peer p (.hwkey { chan := a.accept, uuid := a.peer }) }

lemma hwkeyPortHandler_spec (f : Flags) (a : Answers) (w : World)
    (hfresh : 0 ≤ a.accept → w.sys.objs a.accept = none)
    (hcalloc : ∀ p, a.calloc = some p → w.sys.heap p = none) :
    (portErrors f = true ∧ hwkeyPortHandler f a w = .error .abort) ∨
      ∃ w', portErrors f = false ∧ hwkeyPortHandler f a w = .ok w' ∧ Accepted f a w w' := by
  rw [hwkeyPortHandler]
  cases portErrors f with
  | true => exact Or.inl ⟨rfl, rfl⟩
  | false =>
    right
    simp only [Bool.false_eq_true, if_false, true_and]
    cases hready : f.ready with
    | false => exact ⟨w, rfl, .quiet (Or.inl fun h => by simp [Accepts, hready] at h)⟩
    | true =>
      simp only [if_true]
      by_cases haccept : a.accept < 0
      · exact ⟨w, by rw [if_pos haccept]; rfl, .quiet (Or.inl fun h => by
          obtain ⟨-, hle, -⟩ := h
          omega)⟩
      rw [if_neg haccept]
      have hfresh := hfresh (by omega)
      cases hp : a.calloc with
      | none =>
        refine ⟨w, ?_, .quiet (Or.inr hp)⟩
        simp only [Sys.accept_close hfresh]
        rfl
      | some p =>
        have hheap := hcalloc p hp
        have hrc' := a.setCookie.2
        by_cases hrc : a.setCookie.1 = 0
        · refine ⟨_, ?_, .connected ⟨hready, by omega, hrc⟩ hp⟩
          have hconnect := w.sys.accept_store_setCookie a.accept a.peer p
            (.hwkey { chan := a.accept, uuid := a.peer }) hrc
          simp only [hrc, lt_irrefl, if_false]
          exact congrArg (fun sys : Sys => (.ok ⟨sys, w.data⟩ : Except Stop World)) hconnect
        · refine ⟨w, ?_, .quiet (Or.inl fun h => hrc h.2.2)⟩
          have hneg : a.setCookie.1 < 0 := by omega
          let c : HwkeyChanCtx := { chan := a.accept, uuid := a.peer }
          let w₁ : World := ⟨(w.sys.accept a.accept .hwkey a.peer).store p (.hwkey c), w.data⟩
          have hclose : hwkeyCtxClose w₁ p = _ :=
            hwkeyCtxClose_eq (Function.update_self ..) (Function.update_self ..)
          simp only [hneg, if_true, Sys.setCookie_of_ne _ _ _ hrc]
          rw [hclose, Sys.drop_store, Sys.drop_accept hfresh hheap]

lemma Accepted.lifecycle {f : Flags} {a : Answers} {w w' : World} (h : Accepted f a w w')
    {l : List Ptr} (hL : Lifecycle w.sys l) (hfresh : 0 ≤ a.accept → w.sys.objs a.accept = none)
    (hcalloc : ∀ p, a.calloc = some p → w.sys.heap p = none) : Lifecycle w'.sys l := by
  cases h with
  | quiet => exact hL
  | connected h hp =>
    exact hL.connect (hfresh h.2.1) (hcalloc _ hp) rfl (by simp) (by simp)

end TrustyLkNxp.Hwkey
