import TrustyLkNxp.Hwkey.Server

/-!
# Requests and responses

What one message on a channel of the HWKEY service leads to.  The message is retired, and
then either the channel is closed without a response or exactly one response is sent, whose
header is the header of the request but for the fields the service sets.  One request may have
neither: the CAAM driver need not return from unwrapping the RPMB key.
-/

namespace TrustyLkNxp

open Ipc EventSystem

variable {D : Hwrng.RngDev} {K : Config}

/-! ## Between two events -/

/-- A state between two events in a run with the repository's own slots. -/
def Serving (K : Config) (s : App D) : Prop :=
  ∃ s₀ es, (app D K).init s₀ ∧ s₀.hwkey.keySlots = Hwkey.keys K.proto ∧ (app D K).Run s₀ es s

namespace Serving

/-- What holds at the start and is kept by every step holds between any two events. -/
lemma invariant (I : App D → Prop) (hinit : ∀ b s, boot b = .ok s → I s)
    (hstep : ∀ s e t, s.Wf → s.hwkey.keySlots = Hwkey.keys K.proto → I s → EventOk s e →
      step K s e = .ok t → I t)
    {s : App D} (h : Serving K s) :
    s.Wf ∧ s.hwkey.keySlots = Hwkey.keys K.proto ∧ I s := by
  obtain ⟨s₀, es, ⟨b, hb⟩, hslots, hrun⟩ := h
  refine hrun.invariant (fun s => s.Wf ∧ s.hwkey.keySlots = Hwkey.keys K.proto ∧ I s) ?_
    ⟨boot_wf hb, hslots, hinit b s₀ hb⟩
  rintro s e t ⟨hs, hslots, hI⟩ he ht
  have hwf := (step_ok hs he ht).wf (hs.deliver e) he.deliver
  exact ⟨hwf, (step_static hs he ht).1.trans hslots, hstep s e t hs hslots hI he ht⟩

lemma wf {s : App D} (h : Serving K s) : s.Wf :=
  (h.invariant (fun _ => True) (fun _ _ _ => trivial) fun _ _ _ _ _ _ _ _ => trivial).1

lemma slots {s : App D} (h : Serving K s) : s.hwkey.keySlots = Hwkey.keys K.proto :=
  (h.invariant (fun _ => True) (fun _ _ _ => trivial) fun _ _ _ _ _ _ _ _ => trivial).2.1

end Serving

/-! ## Messages -/

namespace Hwkey

/-- The message cannot be received, or is shorter than a header. -/
def Unreadable (P : HwkeyProto) (m : Inbound) : Prop :=
  m.getMsg.1 ≠ 0 ∨ m.bytes.length < P.sizeofHdr ∨ m.readMsg.1 < 0

instance (P : HwkeyProto) (m : Inbound) : Decidable (Unreadable P m) := by
  unfold Unreadable
  infer_instance

/-- The request in a message. A payload that is too long is cut off. -/
def received (P : HwkeyProto) (m : Inbound) : Request :=
  ⟨P.decode (m.bytes.take P.sizeofHdr), (m.bytes.drop P.sizeofHdr).take hwkeyMaxPayloadSize⟩

lemma requestOf_eq (P : HwkeyProto) (U : Uapi) (m : Inbound) :
    requestOf P U m = if Unreadable P m then none else some (received P m) := by
  have hget := m.getMsg.2
  have hread := m.readMsg.2
  rw [requestOf]
  obtain ⟨hne, heq⟩ | ⟨-, rc, hneg, heq, hbad⟩ | ⟨hget₀, hread₀, hhdr, heq⟩ :=
    tipcRecvTwoSegments_cases U m P.sizeofHdr hwkeyMaxPayloadSize
  · have hbad : Unreadable P m := Or.inl hne
    rw [heq, if_pos (by simp only; omega), if_pos hbad]
  · have hbad : Unreadable P m := Or.inr hbad
    rw [heq, if_pos hneg, if_pos hbad]
  · have hok : ¬ Unreadable P m := by
      rintro (hne | hshort | hneg)
      · exact hne hget₀
      · omega
      · omega
    rw [heq, if_neg (by simp only; omega), if_neg hok, received]
    simp only [List.take_take, List.drop_take, Nat.add_sub_cancel_left]
    rw [min_eq_left (Nat.le_add_right _ _)]

/-! ## The response -/

/-- Success is told apart from every failure. -/
def HwkeyProto.Distinguishes (P : HwkeyProto) : Prop :=
  P.noError ∉ [P.errGeneric, P.errBadLen, P.errNotImplemented, P.errNotFound]

instance (P : HwkeyProto) : Decidable P.Distinguishes := by
  unfold HwkeyProto.Distinguishes
  infer_instance

/-- A request and its response as the protocol wants them. -/
structure Exchange.Conforms (P : HwkeyProto) (x : Exchange) : Prop where
  cmd : x.rsp.cmd = x.req.cmd ||| P.respBit
  status : x.rsp.status ∈
    [P.noError, P.errGeneric, P.errBadLen, P.errNotImplemented, P.errNotFound]
  arg1 : x.rsp.arg1 =
    if x.req.cmd = P.derive ∧ x.req.arg1 = P.kdfVersionBest then P.kdfVersion1 else x.req.arg1
  rest : x.rsp.rest = x.req.rest
  payload : x.rspData ≠ [] ↔ x.rsp.status = P.noError
  derived : x.req.cmd = P.derive → x.rsp.status = P.noError →
    x.rspData.length = x.reqData.length

section

variable {P : HwkeyProto} (hP : P.Distinguishes)

include hP in
/-- A slot yields a key, or a failure and no key. -/
lemma keyAnswer_cases {unittest : Bool} {prov : Provision} {C : Crypto} {uuid : Uuid}
    {slotId : List UInt8} {r : Word × List UInt8}
    (h : keyAnswer P unittest prov C uuid slotId = some r) :
    r.1 ∈ [P.noError, P.errGeneric, P.errNotFound] ∧ (r.2 ≠ [] ↔ r.1 = P.noError) := by
  simp only [HwkeyProto.Distinguishes, List.mem_cons, List.not_mem_nil, not_or] at hP
  obtain ⟨hgeneric, -, -, hnotFound, -⟩ := hP
  rw [keyAnswer] at h
  split at h
  · split at h
    · exact absurd h (by simp)
    · rename_i out hdecap
      have hlen := C.decap_ok _ _ _ _ hdecap
      have hne : out ≠ [] := List.ne_nil_of_length_eq_add_one hlen
      simp [← Option.some.inj h, hne]
    · simp [← Option.some.inj h, Ne.symm hgeneric]
  · split at h
    · have hne : unittestKey32 ≠ [] := by decide
      simp [← Option.some.inj h, hne]
    · simp [← Option.some.inj h, Ne.symm hnotFound]

include hP in
/-- A derivation yields a key as long as its input, or a failure and no key. -/
lemma deriveAnswer_cases (prov : Provision) (C : Crypto) (uuid : Uuid) (arg1 : Word)
    (ikmData : List UInt8) :
    (deriveAnswer P prov C uuid arg1 ikmData).1 ∈
        [P.noError, P.errGeneric, P.errBadLen, P.errNotImplemented] ∧
      ((deriveAnswer P prov C uuid arg1 ikmData).2 ≠ [] ↔
        (deriveAnswer P prov C uuid arg1 ikmData).1 = P.noError) ∧
      ((deriveAnswer P prov C uuid arg1 ikmData).1 = P.noError →
        (deriveAnswer P prov C uuid arg1 ikmData).2.length = ikmData.length) := by
  simp only [HwkeyProto.Distinguishes, List.mem_cons, List.not_mem_nil, not_or] at hP
  obtain ⟨hgeneric, hbadLen, hnotImplemented, -, -⟩ := hP
  rw [deriveAnswer]
  split
  · simp [Ne.symm hnotImplemented]
  · split
    · simp [Ne.symm hbadLen]
    · rename_i hne
      cases hhkdf : C.hkdf ikmData.length prov.kdfv1Key uuid ikmData with
      | ok out =>
        have hlen := C.hkdf_ok _ _ _ _ _ hhkdf
        have hne : out ≠ [] := by
          rintro rfl
          exact hne hlen.symm
        simp [hne, hlen]
      | fail _ => simp [Ne.symm hgeneric]

include hP in
/-- The answer to a request is a response as the protocol wants it. -/
lemma conforms_of_answer {unittest : Bool} {prov : Provision} {a : Answers} {w : World}
    {c : HwkeyChanCtx} {req : Request} {hdr : HwkeyMsg} {rspData : List UInt8}
    (h : answer P unittest prov a.crypto c.uuid req = some (hdr, rspData)) :
    (exchange P a w c req hdr rspData).Conforms P := by
  rw [answer] at h
  split at h
  · rename_i hget
    obtain ⟨r, hr, h⟩ := Option.map_eq_some_iff.mp h
    obtain ⟨hstatus, hdata⟩ := keyAnswer_cases hP hr
    have hnot : ¬ req.hdr.cmd = P.derive := fun h => P.getKeyslot_ne_derive (hget.symm.trans h)
    obtain ⟨rfl, rfl⟩ := Prod.mk.inj h
    refine ⟨rfl, ?_, ?_, rfl, hdata, fun hder => absurd hder hnot⟩
    · have hsub : [P.noError, P.errGeneric, P.errNotFound] ⊆
          [P.noError, P.errGeneric, P.errBadLen, P.errNotImplemented, P.errNotFound] := by simp
      exact hsub hstatus
    · exact (if_neg fun hder => hnot hder.1).symm
  · split at h
    · rename_i hder
      obtain ⟨hstatus, hdata, hlen⟩ :=
        deriveAnswer_cases hP prov a.crypto c.uuid (resolveKdf P req.hdr).arg1 req.data
      obtain ⟨rfl, rfl⟩ := Prod.mk.inj (Option.some.inj h)
      have hcmd : (resolveKdf P req.hdr).cmd = req.hdr.cmd := by
        rw [resolveKdf]
        split <;> rfl
      have hrest : (resolveKdf P req.hdr).rest = req.hdr.rest := by
        rw [resolveKdf]
        split <;> rfl
      refine ⟨congrArg (· ||| P.respBit) hcmd, ?_, ?_, hrest, hdata, fun _ => hlen⟩
      · have hsub : [P.noError, P.errGeneric, P.errBadLen, P.errNotImplemented] ⊆
            [P.noError, P.errGeneric, P.errBadLen, P.errNotImplemented, P.errNotFound] := by simp
        exact hsub hstatus
      · simp only [exchange, resolveKdf, hder, true_and]
        split <;> rfl
    · rename_i hder
      simp only [HwkeyProto.Distinguishes, List.mem_cons, List.not_mem_nil, not_or] at hP
      obtain ⟨rfl, rfl⟩ := Prod.mk.inj (Option.some.inj h)
      refine ⟨rfl, ?_, (if_neg fun h => hder h.1).symm, rfl, ?_, fun h => absurd h hder⟩
      · simp [exchange]
      · simpa [exchange] using fun h => hP.2.2.1 h.symm

end

/-! ## Handling a message -/

lemma hwkeyChanHandler_of_errors {P : HwkeyProto} {U : Uapi} (unittest : Bool) {f : Flags}
    {a : Answers} {w : World} {p : Ptr} {c : HwkeyChanCtx} (hc : w.sys.heap p = some (.hwkey c))
    (herrs : chanErrors f = true) :
    hwkeyChanHandler P U unittest c.chan f a w p = .error .abort := by
  simp only [hwkeyChanHandler, Sys.hwkeyCtx_eq hc, Except.bind_ok, herrs, ne_eq, not_true_eq_false,
    if_false, if_true]
  rfl

/-- When the peer is gone the channel is closed, whatever else the event reports. -/
lemma hwkeyChanHandler_of_hup {P : HwkeyProto} {U : Uapi} (unittest : Bool) {f : Flags}
    {a : Answers} {w : World} {l : List Ptr} {p : Ptr} {c : HwkeyChanCtx}
    (hL : Lifecycle w.sys l) (hc : w.sys.heap p = some (.hwkey c)) (herrs : chanErrors f = false)
    (hhup : f.hup = true) :
    hwkeyChanHandler P U unittest c.chan f a w p =
      .ok { w with sys := w.sys.drop c.chan p } := by
  obtain ⟨o, ho, -⟩ := hL.chan_open hc
  simp only [hwkeyChanHandler, Sys.hwkeyCtx_eq hc, Except.bind_ok, herrs, hhup, ne_eq,
    not_true_eq_false, Bool.false_eq_true, if_false, if_true]
  exact hwkeyCtxClose_eq hc ho

/-- Handling a message that cannot be received: the channel is closed. -/
lemma hwkeyChanHandler_of_unreadable {P : HwkeyProto} {U : Uapi} (unittest : Bool) {f : Flags}
    {a : Answers} {w : World} {l : List Ptr} {p : Ptr} {c : HwkeyChanCtx}
    (hL : Lifecycle w.sys l) (hc : w.sys.heap p = some (.hwkey c)) (herrs : chanErrors f = false)
    (hhup : f.hup = false) (hmsg : f.msg = true) (hm : Unreadable P a.inbound) :
    hwkeyChanHandler P U unittest c.chan f a w p = .ok
      { sys := w.sys.drop c.chan p
        data := { w.data with
          retired := w.data.retired + if a.inbound.getMsg.1 = 0 then 1 else 0 } } := by
  obtain ⟨o, ho, -⟩ := hL.chan_open hc
  have ho : w.sys.objs c.chan = some o := ho
  have hreq : requestOf P U a.inbound = none := by rw [requestOf_eq, if_pos hm]
  obtain ⟨rc, hneg, hok⟩ := hwkeyChanHandleMsg_of_none unittest hc hreq
  simp only [hwkeyChanHandler, Sys.hwkeyCtx_eq hc, Except.bind_ok, herrs, hhup, hmsg, hok, hneg,
    ne_eq, not_true_eq_false, Bool.false_eq_true, if_false, if_true]
  exact hwkeyCtxClose_eq hc ho

/-- Handling a request that has an answer: it is retired, its response is sent, and the channel
is closed when that fails. -/
lemma hwkeyChanHandler_of_request {P : HwkeyProto} {U : Uapi} (unittest : Bool) {f : Flags}
    {a : Answers} {w : World} {l : List Ptr} {p : Ptr} {c : HwkeyChanCtx}
    (hL : Lifecycle w.sys l) (hw : w.data.Sized) (hslots : w.data.keySlots = keys P)
    (hc : w.sys.heap p = some (.hwkey c)) (herrs : chanErrors f = false) (hhup : f.hup = false)
    (hmsg : f.msg = true) (hm : ¬ Unreadable P a.inbound) {ans : HwkeyMsg × List UInt8}
    (hans : answer P unittest w.data.prov a.crypto c.uuid (received P a.inbound) = some ans) :
    ∃ r reqData, (r.hdr, r.data) = ans ∧
      ((received P a.inbound).hdr.cmd = P.derive →
        reqData.take (received P a.inbound).data.length =
          List.replicate (received P a.inbound).data.length 0) ∧
      hwkeyChanHandler P U unittest c.chan f a w p = .ok
        { sys := if a.send c.chan < 0 then w.sys.drop c.chan p else w.sys
          data := (w.replied r reqData
            (exchange P a w c (received P a.inbound) r.hdr r.data)).data } := by
  obtain ⟨o, ho, -⟩ := hL.chan_open hc
  have ho : w.sys.objs c.chan = some o := ho
  have hreq : requestOf P U a.inbound = some (received P a.inbound) := by
    rw [requestOf_eq, if_neg hm]
  obtain ⟨-, hnone⟩ | ⟨r', hr', hans'⟩ := reply_keys P unittest a.crypto c.uuid hslots hw.keyData
    (requestOf_length hreq)
  · exact absurd (hans.symm.trans hnone) (by simp)
  obtain ⟨_, -, herr, -⟩ | ⟨r, reqData, hr, -, hwiped, hok⟩ :=
    hwkeyChanHandleMsg_of_request unittest hw hc hreq
  · exact absurd (hr'.symm.trans herr) (by simp)
  obtain rfl : r' = r := Except.ok.inj (hr'.symm.trans hr)
  refine ⟨r', reqData, Option.some.inj (hans'.symm.trans hans), hwiped, ?_⟩
  simp only [hwkeyChanHandler, Sys.hwkeyCtx_eq hc, Except.bind_ok, herrs, hhup, hmsg, hok,
    ne_eq, not_true_eq_false, Bool.false_eq_true, if_false, if_true]
  split
  · exact hwkeyCtxClose_eq hc ho
  · rfl

/-- Handling a request that has no answer: the driver stops the application. -/
lemma hwkeyChanHandler_of_unanswered {P : HwkeyProto} {U : Uapi} (unittest : Bool) {f : Flags}
    {a : Answers} {w : World} {p : Ptr} {c : HwkeyChanCtx} (hw : w.data.Sized)
    (hslots : w.data.keySlots = keys P) (hc : w.sys.heap p = some (.hwkey c))
    (herrs : chanErrors f = false) (hhup : f.hup = false) (hmsg : f.msg = true) {req : Request}
    (hreq : requestOf P U a.inbound = some req)
    (hnone : answer P unittest w.data.prov a.crypto c.uuid req = none) :
    hwkeyChanHandler P U unittest c.chan f a w p = .error .driver := by
  obtain ⟨hdriver, -⟩ | ⟨r, -, hans⟩ := reply_keys P unittest a.crypto c.uuid hslots hw.keyData
    (requestOf_length hreq)
  swap
  · exact absurd (hnone.symm.trans hans) (by simp)
  obtain ⟨stop, -, hr, herr⟩ | ⟨r, _, hr, -⟩ := hwkeyChanHandleMsg_of_request unittest hw hc hreq
  swap
  · exact absurd (hdriver.symm.trans hr) (by simp)
  obtain rfl : .driver = stop := Except.error.inj (hdriver.symm.trans hr)
  simp only [hwkeyChanHandler, Sys.hwkeyCtx_eq hc, Except.bind_ok, herrs, hhup, hmsg, herr,
    ne_eq, not_true_eq_false, Bool.false_eq_true, if_false, if_true]
  rfl

end Hwkey

/-- An event on a channel of the HWKEY service is handled there. -/
lemma step_hwkeyChan {s : App D} {e : Event D} {p : Ptr} {c : HwkeyChanCtx}
    (hflags : e.flags ≠ {}) (hcookie : e.cookie = some (.ctx p))
    (hc : s.sys.heap p = some (.hwkey c)) :
    step K s e = ((s.deliver e).setHwkey · e.jobs) <$>
      Hwkey.hwkeyChanHandler K.proto K.uapi K.unittest e.handle e.flags e.hwkey
        (s.deliver e).hwkeyWorld p := by
  have hc : (s.deliver e).sys.heap p = some (.hwkey c) := (congrFun (s.deliver_heap e) p).trans hc
  rw [step, dispatchEvent, if_neg hflags]
  simp only [hcookie, hc]

/-- An event for a context is for the channel of the context. -/
lemma EventOk.chan_eq {s : App D} {e : Event D} (he : EventOk s e) (hs : s.Wf) {p : Ptr}
    {c : HwkeyChanCtx} (hcookie : e.cookie = some (.ctx p))
    (hc : s.sys.heap p = some (.hwkey c)) : c.chan = e.handle := by
  obtain ⟨x, hx, hchan⟩ := he.ctx_live hs.lifecycle hcookie
  rwa [Option.some.inj (hx.symm.trans hc)] at hchan

/-- A step that serves a request that has an answer. -/
lemma step_of_request {s : App D} (hs : Serving K s) {e : Event D} (he : EventOk s e) {p : Ptr}
    {c : HwkeyChanCtx} (hflags : e.flags ≠ {}) (hcookie : e.cookie = some (.ctx p))
    (hc : s.sys.heap p = some (.hwkey c)) (herrs : chanErrors e.flags = false)
    (hhup : e.flags.hup = false) (hmsg : e.flags.msg = true)
    (hm : ¬ Hwkey.Unreadable K.proto e.inbound) {ans : Hwkey.HwkeyMsg × List UInt8}
    (hans : Hwkey.answer K.proto K.unittest s.hwkey.prov e.crypto c.uuid
      (Hwkey.received K.proto e.inbound) = some ans) :
    ∃ r reqData, (r.hdr, r.data) = ans ∧
      ((Hwkey.received K.proto e.inbound).hdr.cmd = K.proto.derive →
        reqData.take (Hwkey.received K.proto e.inbound).data.length =
          List.replicate (Hwkey.received K.proto e.inbound).data.length 0) ∧
      step K s e = .ok ((s.deliver e).setHwkey
        { sys := if e.send c.chan < 0 then (s.deliver e).sys.drop c.chan p else (s.deliver e).sys
          data := ((s.deliver e).hwkeyWorld.replied r reqData (Hwkey.exchange K.proto e.hwkey
            (s.deliver e).hwkeyWorld c (Hwkey.received K.proto e.inbound) r.hdr r.data)).data }
        e.jobs) := by
  have hwf := hs.wf.deliver e
  have hdata := s.deliver_hwkey e
  have hslots : (s.deliver e).hwkeyWorld.data.keySlots = Hwkey.keys K.proto :=
    (congrArg Hwkey.Data.keySlots hdata).trans hs.slots
  have hcw : (s.deliver e).hwkeyWorld.sys.heap p = some (.hwkey c) :=
    (congrFun (s.deliver_heap e) p).trans hc
  have hprov : (s.deliver e).hwkeyWorld.data.prov = s.hwkey.prov := congrArg Hwkey.Data.prov hdata
  rw [← hprov] at hans
  obtain ⟨r, reqData, heq, hwiped, hok⟩ := Hwkey.hwkeyChanHandler_of_request (U := K.uapi)
    (a := e.hwkey) K.unittest hwf.lifecycle hwf.sized hslots hcw herrs hhup hmsg hm hans
  refine ⟨r, reqData, heq, hwiped, ?_⟩
  rw [step_hwkeyChan hflags hcookie hc, ← he.chan_eq hs.wf hcookie hc]
  exact congrArg _ hok

/-! ## The request that may not be answered -/

/-- The secure storage server asks for the RPMB key. -/
structure AsksRpmbKey (K : Config) {D : Hwrng.RngDev} (s : App D) (e : Event D) : Prop where
  client : ∃ p c o, e.cookie = some (.ctx p) ∧ s.sys.heap p = some (.hwkey c) ∧
    s.sys.objs e.handle = some o ∧ o.peer = Hwkey.ssUuid
  errors : chanErrors e.flags = false
  hup : e.flags.hup = false
  msg : e.flags.msg = true
  readable : ¬ Hwkey.Unreadable K.proto e.inbound
  cmd : (Hwkey.received K.proto e.inbound).hdr.cmd = K.proto.getKeyslot
  slot : Buffer.cstr (Hwkey.received K.proto e.inbound).data = Hwkey.rpmbSsAuthKeyId

/-- The secure storage server asks for the RPMB key, and the driver does not return from
unwrapping it. -/
structure UnwrapStops (K : Config) {D : Hwrng.RngDev} (s : App D) (e : Event D) : Prop where
  asks : AsksRpmbKey K s e
  blob : s.hwkey.prov.rpmbKeyblobLen = BitVec.ofNat 32 Hwkey.rpmbkeyLen
  stops : e.crypto.decap Hwkey.skeymod s.hwkey.prov.rpmbKeyblob Hwkey.rpmbSsAuthKeySize = none

/-- A context has the identity its channel was accepted with. -/
lemma App.Wf.peer {s : App D} (hs : s.Wf) {p : Ptr} {c : HwkeyChanCtx}
    (hc : s.sys.heap p = some (.hwkey c)) :
    ∃ o, s.sys.objs c.chan = some o ∧ o.peer = c.uuid := by
  obtain ⟨o, ho, hctx⟩ := hs.lifecycle.chan_open hc
  exact ⟨o, ho, hs.lifecycle.ctx_uuid _ o p c ho hctx hc⟩

/-- No other request is left unanswered. -/
lemma unanswered_iff {s : App D} (hs : s.Wf) {e : Event D} (he : EventOk s e)
    (herrs : chanErrors e.flags = false) :
    s.server.Unanswered K s.hwkey.prov e ↔ UnwrapStops K s e := by
  constructor
  · rintro ⟨p, c, req, hcookie, hc, hhup, hmsg, hreq, hnone⟩
    rw [App.server_ctxs] at hc
    obtain ⟨hcmd, ⟨hslot, huuid, hblob⟩, hstops⟩ := (Hwkey.answer_eq_none ..).mp hnone
    obtain ⟨o, ho, hpeer⟩ := hs.peer hc
    rw [Hwkey.requestOf_eq] at hreq
    split at hreq
    · exact absurd hreq (by simp)
    rename_i hm
    obtain rfl := Option.some.inj hreq
    refine ⟨⟨⟨p, c, o, hcookie, hc, ?_, hpeer.trans huuid⟩, herrs, hhup, hmsg, hm, hcmd, hslot⟩,
      hblob, hstops⟩
    rw [← he.chan_eq hs hcookie hc]
    exact ho
  · rintro ⟨⟨⟨p, c, o, hcookie, hc, ho, hss⟩, -, hhup, hmsg, hm, hcmd, hslot⟩, hblob, hstops⟩
    obtain ⟨o', ho', hpeer⟩ := hs.peer hc
    rw [he.chan_eq hs hcookie hc] at ho'
    obtain rfl := Option.some.inj (ho.symm.trans ho')
    refine ⟨p, c, _, hcookie, App.server_ctxs.mpr hc, hhup, hmsg, ?_,
      (Hwkey.answer_eq_none ..).mpr ⟨hcmd, ⟨hslot, hpeer.symm.trans hss, hblob⟩, hstops⟩⟩
    rw [Hwkey.requestOf_eq, if_neg hm]

/-- A request that is left unanswered stops the application. -/
lemma step_of_unanswered {s : App D} (hs : s.Wf) (hslots : s.hwkey.keySlots = Hwkey.keys K.proto)
    {e : Event D} (he : EventOk s e) (herrs : chanErrors e.flags = false)
    (h : s.server.Unanswered K s.hwkey.prov e) : step K s e = .error .driver := by
  obtain ⟨p, c, req, hcookie, hc, hhup, hmsg, hreq, hnone⟩ := h
  rw [App.server_ctxs] at hc
  have hflags : e.flags ≠ {} := by
    intro h
    rw [h] at hmsg
    exact absurd hmsg (by decide)
  have hdata := s.deliver_hwkey e
  have hcw : (s.deliver e).hwkeyWorld.sys.heap p = some (.hwkey c) :=
    (congrFun (s.deliver_heap e) p).trans hc
  have hprov : (s.deliver e).hwkeyWorld.data.prov = s.hwkey.prov := congrArg Hwkey.Data.prov hdata
  have hslots : (s.deliver e).hwkeyWorld.data.keySlots = Hwkey.keys K.proto :=
    (congrArg Hwkey.Data.keySlots hdata).trans hslots
  rw [← hprov] at hnone
  rw [step_hwkeyChan hflags hcookie hc, ← he.chan_eq hs hcookie hc,
    Hwkey.hwkeyChanHandler_of_unanswered (a := e.hwkey) K.unittest (hs.deliver e).sized hslots hcw
      herrs hhup hmsg hreq hnone]
  rfl

/-! ## Every message -/

/-- What a message on a channel of the HWKEY service leads to. -/
structure MessageServed (K : Config) (s : App D) (e : Event D) (t : App D) : Prop where
  /-- The message is retired once, if there is one. -/
  retired : t.hwkey.retired = s.hwkey.retired + if e.inbound.getMsg.1 = 0 then 1 else 0
  /-- A message that cannot be read is not answered, and the channel is closed. -/
  unreadable : Hwkey.Unreadable K.proto e.inbound →
    t.hwkey.log = s.hwkey.log ∧ t.sys.objs e.handle = none
  /-- Any other is answered once, and the channel stays open if the response was sent. -/
  answered : ¬ Hwkey.Unreadable K.proto e.inbound → ∃ x : Hwkey.Exchange,
    t.hwkey.log = x :: s.hwkey.log ∧ x.chan = e.handle ∧ x.rc = e.send e.handle ∧
      x.req = K.proto.decode (e.inbound.bytes.take K.proto.sizeofHdr) ∧
      x.reqData = (e.inbound.bytes.drop K.proto.sizeofHdr).take Hwkey.hwkeyMaxPayloadSize ∧
      x.Conforms K.proto ∧ ((t.sys.objs e.handle).isSome ↔ 0 ≤ x.rc)

section

variable {s : App D} {e : Event D} {p : Ptr} {c : HwkeyChanCtx}

/-- A message that cannot be read closes the channel. -/
lemma served_of_unreadable (hs : s.Wf) (he : EventOk s e) (hflags : e.flags ≠ {})
    (hcookie : e.cookie = some (.ctx p)) (hc : s.sys.heap p = some (.hwkey c))
    (herrs : chanErrors e.flags = false) (hhup : e.flags.hup = false) (hmsg : e.flags.msg = true)
    (hm : Hwkey.Unreadable K.proto e.inbound) :
    ∃ t, step K s e = .ok t ∧ MessageServed K s e t := by
  have hchan := he.chan_eq hs hcookie hc
  have hdata := s.deliver_hwkey e
  have hlog : (s.deliver e).hwkey.log = s.hwkey.log := congrArg Hwkey.Data.log hdata
  have hcw : (s.deliver e).hwkeyWorld.sys.heap p = some (.hwkey c) :=
    (congrFun (s.deliver_heap e) p).trans hc
  have hok := Hwkey.hwkeyChanHandler_of_unreadable (U := K.uapi) (a := e.hwkey) K.unittest
    (hs.deliver e).lifecycle hcw herrs hhup hmsg hm
  rw [step_hwkeyChan hflags hcookie hc, ← hchan, hok]
  refine ⟨_, rfl, ?_, fun _ => ⟨hlog, ?_⟩, fun h => absurd hm h⟩
  · exact congrArg (fun d => Hwkey.Data.retired d + _) hdata
  · rw [← hchan]
    exact Function.update_self ..

/-- Any other that has an answer is answered. -/
lemma served_of_request (hP : K.proto.Distinguishes) (hs : Serving K s) (he : EventOk s e)
    (hflags : e.flags ≠ {}) (hcookie : e.cookie = some (.ctx p))
    (hc : s.sys.heap p = some (.hwkey c)) (herrs : chanErrors e.flags = false)
    (hhup : e.flags.hup = false) (hmsg : e.flags.msg = true)
    (hm : ¬ Hwkey.Unreadable K.proto e.inbound) {ans : Hwkey.HwkeyMsg × List UInt8}
    (hans : Hwkey.answer K.proto K.unittest s.hwkey.prov e.crypto c.uuid
      (Hwkey.received K.proto e.inbound) = some ans) :
    ∃ t, step K s e = .ok t ∧ MessageServed K s e t := by
  have hchan := he.chan_eq hs.wf hcookie hc
  have hdata := s.deliver_hwkey e
  have hlog : (s.deliver e).hwkey.log = s.hwkey.log := congrArg Hwkey.Data.log hdata
  have hcw : (s.deliver e).hwkeyWorld.sys.heap p = some (.hwkey c) :=
    (congrFun (s.deliver_heap e) p).trans hc
  obtain ⟨r, reqData, rfl, -, hok⟩ :=
    step_of_request hs he hflags hcookie hc herrs hhup hmsg hm hans
  have hgot : e.inbound.getMsg.1 = 0 := by
    by_contra hne
    exact hm (Or.inl hne)
  refine ⟨_, hok, ?_, fun h => absurd h hm, fun _ => ?_⟩
  · rw [if_pos hgot]
    exact congrArg (fun d => Hwkey.Data.retired d + 1) hdata
  refine ⟨_, congrArg (_ :: ·) hlog, hchan, congrArg e.send hchan, rfl, rfl,
    Hwkey.conforms_of_answer hP hans, ?_⟩
  -- the channel stays open unless the response could not be sent
  obtain ⟨o, ho, -⟩ := (hs.wf.deliver e).lifecycle.chan_open hcw
  have ho : (s.deliver e).sys.objs c.chan = some o := ho
  rw [← hchan]
  change (Sys.objs (ite _ _ _) c.chan).isSome = true ↔ 0 ≤ e.send c.chan
  split
  · rename_i hneg
    simpa [Sys.drop] using hneg
  · rename_i hsent
    rw [ho]
    simpa using hsent

end

/-- Every message that an event makes available on a channel of the HWKEY service is retired
and answered as the protocol wants it; an event that also reports the peer gone closes the
channel at once, and one that reports an error ends the application.  The only request that is
not answered is one from which the CAAM driver does not return. -/
theorem message_served (hP : K.proto.Distinguishes) {s : App D} (hs : Serving K s) {e : Event D}
    (he : EventOk s e) {p : Ptr} {c : HwkeyChanCtx} (hcookie : e.cookie = some (.ctx p))
    (hc : s.sys.heap p = some (.hwkey c)) (hmsg : e.flags.msg = true) :
    (chanErrors e.flags = true → step K s e = .error .abort) ∧
      (UnwrapStops K s e → step K s e = .error .driver) ∧
      (chanErrors e.flags = false → ¬ UnwrapStops K s e → ∃ t, step K s e = .ok t ∧
        (e.flags.hup = true → t.hwkey = s.hwkey ∧ t.sys.objs e.handle = none) ∧
        (e.flags.hup = false → MessageServed K s e t)) := by
  have hflags : e.flags ≠ {} := by
    intro h
    rw [h] at hmsg
    exact absurd hmsg (by decide)
  have hchan := he.chan_eq hs.wf hcookie hc
  have hcw : (s.deliver e).hwkeyWorld.sys.heap p = some (.hwkey c) :=
    (congrFun (s.deliver_heap e) p).trans hc
  refine ⟨fun herrs => ?_,
    fun hstops => step_of_unanswered hs.wf hs.slots he hstops.asks.errors
      ((unanswered_iff hs.wf he hstops.asks.errors).mpr hstops),
    fun herrs hreturns => ?_⟩
  · rw [step_hwkeyChan hflags hcookie hc, ← hchan,
      Hwkey.hwkeyChanHandler_of_errors K.unittest hcw herrs]
    rfl
  cases hhup : e.flags.hup with
  | true =>
    have hok := Hwkey.hwkeyChanHandler_of_hup (P := K.proto) (U := K.uapi) (a := e.hwkey) K.unittest
      (hs.wf.deliver e).lifecycle hcw herrs hhup
    rw [step_hwkeyChan hflags hcookie hc, ← hchan, hok]
    exact ⟨_, rfl, fun _ => ⟨s.deliver_hwkey e, Function.update_self ..⟩,
      fun h => absurd h (by decide)⟩
  | false =>
    have hserved : ∃ t, step K s e = .ok t ∧ MessageServed K s e t := by
      by_cases hm : Hwkey.Unreadable K.proto e.inbound
      · exact served_of_unreadable hs.wf he hflags hcookie hc herrs hhup hmsg hm
      rcases hans : Hwkey.answer K.proto K.unittest s.hwkey.prov e.crypto c.uuid
        (Hwkey.received K.proto e.inbound) with _ | ans
      · -- only a driver that does not return leaves it without an answer
        refine absurd ((unanswered_iff hs.wf he herrs).mp ?_) hreturns
        refine ⟨p, c, _, hcookie, App.server_ctxs.mpr hc, hhup, hmsg, ?_, hans⟩
        rw [Hwkey.requestOf_eq, if_neg hm]
      · exact served_of_request hP hs he hflags hcookie hc herrs hhup hmsg hm hans
    obtain ⟨t, ht, hserved⟩ := hserved
    exact ⟨t, ht, fun h => absurd h (by decide), fun _ => hserved⟩

lemma Demo.serving_clients (blob : List UInt8) : Serving config (clients blob) :=
  ⟨_, _, init_provisioned blob, rfl, run_clients blob⟩

lemma Demo.admits_askDerived (blob : List UInt8) : EventOk (clients blob) askDerived :=
  admits_message .hwkey 1 rfl rfl rfl _

/-- A client has a key derived. -/
theorem message_served_askDerived :
    ∃ t, step Demo.config (Demo.clients []) Demo.askDerived = .ok t ∧
      MessageServed Demo.config (Demo.clients []) Demo.askDerived t := by
  obtain ⟨-, -, hserved⟩ := message_served (K := Demo.config) (by decide)
    (Demo.serving_clients []) (Demo.admits_askDerived []) (p := 1) (c := ⟨6, 7⟩) rfl rfl rfl
  obtain ⟨t, ht, -, hserved⟩ := hserved rfl fun h => absurd h.stops (Option.some_ne_none _)
  exact ⟨t, ht, hserved rfl⟩

end TrustyLkNxp
