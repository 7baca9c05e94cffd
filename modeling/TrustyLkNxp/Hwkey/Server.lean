import TrustyLkNxp.Lifecycle

/-!
# The HWKEY service without its buffers

With the repository's own slots, what the service sends is a function of the request, the
client and the outcome of the cryptography, if there is one; the contents of `key_data` and
`req_data` play no part.  This file defines that function and a server that has no buffers, and
shows that every step of the application is a step of that server.
-/

namespace TrustyLkNxp

namespace Hwkey

open Ipc

/-- The name of a slot and a client for which the RPMB key is unwrapped. -/
def Unwraps (prov : Provision) (uuid : Uuid) (slotId : List UInt8) : Prop :=
  slotId = rpmbSsAuthKeyId ∧ uuid = ssUuid ∧ prov.rpmbKeyblobLen = BitVec.ofNat 32 rpmbkeyLen

instance (prov : Provision) (uuid : Uuid) (slotId : List UInt8) :
    Decidable (Unwraps prov uuid slotId) := by
  unfold Unwraps
  infer_instance

/-- The status and the key a client gets for the name of a slot. There is no answer when the
driver does not return. -/
def keyAnswer (P : HwkeyProto) (unittest : Bool) (prov : Provision) (C : Crypto) (uuid : Uuid)
    (slotId : List UInt8) : Option (Word × List UInt8) :=
  if Unwraps prov uuid slotId then
    match C.decap skeymod prov.rpmbKeyblob rpmbSsAuthKeySize with
    | none => none
    | some (.ok out) => some (P.noError, out)
    | some (.fail _) => some (P.errGeneric, [])
  else if unittest = true ∧ slotId = unittestKeyId ∧ uuid = hwcryptoUnittestUuid then
    some (P.noError, unittestKey32)
  else
    some (P.errNotFound, [])

/-- The status the two searches end with, what they leave in the key buffer, and the length of
the key. -/
def slotOut (P : HwkeyProto) (unittest : Bool) (prov : Provision) (C : Crypto) (uuid : Uuid)
    (slotId kbuf : List UInt8) : Option SlotOut :=
  if Unwraps prov uuid slotId then
    match C.decap skeymod prov.rpmbKeyblob rpmbSsAuthKeySize with
    | none => none
    | some (.ok out) =>
      some ⟨P.noError, out ++ kbuf.drop rpmbSsAuthKeySize, rpmbSsAuthKeySize⟩
    | some (.fail _) =>
      some ⟨P.errGeneric, List.replicate rpmbSsAuthKeySize 0 ++ kbuf.drop rpmbSsAuthKeySize, 0⟩
  else if unittest = true ∧ slotId = unittestKeyId ∧ uuid = hwcryptoUnittestUuid then
    some ⟨P.noError, unittestKey32 ++ kbuf.drop unittestKey32.length, unittestKey32.length⟩
  else
    some ⟨P.errNotFound, kbuf, 0⟩

/-- The status and the key a client gets for keying material. -/
def deriveAnswer (P : HwkeyProto) (prov : Provision) (C : Crypto) (uuid : Uuid) (arg1 : Word)
    (ikmData : List UInt8) : Word × List UInt8 :=
  if arg1 ≠ P.kdfVersion1 then (P.errNotImplemented, [])
  else if ikmData.length = 0 then (P.errBadLen, [])
  else match C.hkdf ikmData.length prov.kdfv1Key uuid ikmData with
    | .ok out => (P.noError, out)
    | .fail _ => (P.errGeneric, [])

/-- The header, before the response bit is set, and the payload of the response to a request, if
there is one. -/
def answer (P : HwkeyProto) (unittest : Bool) (prov : Provision) (C : Crypto) (uuid : Uuid)
    (req : Request) : Option (HwkeyMsg × List UInt8) :=
  if req.hdr.cmd = P.getKeyslot then
    (keyAnswer P unittest prov C uuid (Buffer.cstr req.data)).map fun r =>
      ({ req.hdr with status := r.1 }, r.2)
  else if req.hdr.cmd = P.derive then
    let hdr := resolveKdf P req.hdr
    let r := deriveAnswer P prov C uuid hdr.arg1 req.data
    some ({ hdr with status := r.1 }, r.2)
  else
    some ({ req.hdr with status := P.errNotImplemented }, [])

lemma keyAnswer_eq_none (P : HwkeyProto) (unittest : Bool) {prov : Provision} {C : Crypto}
    {uuid : Uuid} {slotId : List UInt8} :
    keyAnswer P unittest prov C uuid slotId = none ↔ Unwraps prov uuid slotId ∧
      C.decap skeymod prov.rpmbKeyblob rpmbSsAuthKeySize = none := by
  rw [keyAnswer]
  by_cases hunwraps : Unwraps prov uuid slotId
  · rw [if_pos hunwraps]
    rcases C.decap skeymod prov.rpmbKeyblob rpmbSsAuthKeySize with _ | _ | _ <;> simp [hunwraps]
  · rw [if_neg hunwraps]
    split <;> simp [hunwraps]

/-- A request is not answered exactly if it has the RPMB key unwrapped and the driver does not
return. -/
lemma answer_eq_none (P : HwkeyProto) (unittest : Bool) {prov : Provision} {C : Crypto}
    {uuid : Uuid} {req : Request} :
    answer P unittest prov C uuid req = none ↔ req.hdr.cmd = P.getKeyslot ∧
      Unwraps prov uuid (Buffer.cstr req.data) ∧
      C.decap skeymod prov.rpmbKeyblob rpmbSsAuthKeySize = none := by
  rw [answer]
  split
  · rename_i hcmd
    simp [hcmd, keyAnswer_eq_none]
  · rename_i hcmd
    split <;> simp [hcmd]

/-! ## The buffers play no part -/

section

variable (P : HwkeyProto) (unittest : Bool) (C : Crypto) (uuid : Uuid) {d : Data}

lemma handleSlots_keys (slotId : List UInt8) (prov : Provision) {kbuf : List UInt8}
    (hlen : kbuf.length = hwkeyMaxPayloadSize) :
    handleSlots P prov C uuid slotId (keys P) kbuf 0 = returned
      (if Unwraps prov uuid slotId then
        match C.decap skeymod prov.rpmbKeyblob rpmbSsAuthKeySize with
        | none => none
        | some (.ok out) =>
          some ⟨P.noError, out ++ kbuf.drop rpmbSsAuthKeySize, rpmbSsAuthKeySize⟩
        | some (.fail _) =>
          some ⟨P.errGeneric, List.replicate rpmbSsAuthKeySize 0 ++ kbuf.drop rpmbSsAuthKeySize, 0⟩
      else some ⟨P.errNotFound, kbuf, 0⟩) := by
  have hfit : rpmbSsAuthKeySize ≤ kbuf.length := by
    rw [hlen]
    decide
  by_cases hid : rpmbSsAuthKeyId = slotId
  · by_cases huuid : uuid = ssUuid
    · simp only [keys, handleSlots, Unwraps, hid, huuid, ne_eq, not_true_eq_false, if_false,
        if_true, true_and, getRpmbSsAuthKey, getRpmbSsAuthKeyRun_eq P prov C 0 hfit]
      by_cases hblob : prov.rpmbKeyblobLen = BitVec.ofNat 32 rpmbkeyLen
      · rcases C.decap skeymod prov.rpmbKeyblob rpmbSsAuthKeySize with _ | _ | _ <;> simp [hblob]
      · simp [hblob]
    · simp [keys, handleSlots, Unwraps, hid, huuid, returned]
  · have hid' : ¬ slotId = rpmbSsAuthKeyId := fun h => hid h.symm
    simp [keys, handleSlots, Unwraps, hid, hid', returned]

lemma handleSlots_test (slotId : List UInt8) (prov : Provision) {kbuf : List UInt8} (klen : ℕ)
    (hlen : kbuf.length = hwkeyMaxPayloadSize) :
    handleSlots P prov C uuid slotId (testKeySlots P) kbuf klen = .ok
      (if slotId = unittestKeyId ∧ uuid = hwcryptoUnittestUuid then
        ⟨P.noError, unittestKey32 ++ kbuf.drop unittestKey32.length, unittestKey32.length⟩
      else ⟨P.errNotFound, kbuf, klen⟩) := by
  have hfit : ¬ kbuf.length < unittestKey32.length := by
    rw [hlen]
    decide
  by_cases hid : unittestKeyId = slotId
  · by_cases huuid : uuid = hwcryptoUnittestUuid
    · simp [testKeySlots, handleSlots, hid, huuid, getUnittestKey32,
        getUnittestKey32Run_eq, hfit]
    · simp [testKeySlots, handleSlots, hid, huuid]
  · have hid' : ¬ slotId = unittestKeyId := fun h => hid h.symm
    simp [testKeySlots, handleSlots, hid, hid']

/-- The two slots have different names. -/
lemma unittestKeyId_ne : unittestKeyId ≠ rpmbSsAuthKeyId := by decide

/-- A search of the test table that finds nothing changes nothing but the status. -/
lemma handleSlots_test_of_ne {slotId : List UInt8} {prov : Provision} {o : SlotOut}
    (hlen : o.kbuf.length = hwkeyMaxPayloadSize) (hstatus : o.status = P.errNotFound)
    (hid : slotId ≠ unittestKeyId) :
    handleSlots P prov C uuid slotId (testKeySlots P) o.kbuf o.klen = .ok o := by
  rw [handleSlots_test P C uuid slotId prov o.klen hlen, if_neg fun h => hid h.1, ← hstatus]

/-- With the repository's own slots, this is what the two searches do. -/
lemma searchSlots_keys (hslots : d.keySlots = keys P)
    (hlen : d.keyData.length = hwkeyMaxPayloadSize) (slotId : List UInt8) :
    searchSlots P unittest d C uuid slotId =
      returned (slotOut P unittest d.prov C uuid slotId d.keyData) := by
  have hfirst := handleSlots_keys P C uuid slotId d.prov hlen
  rw [← hslots] at hfirst
  rcases eq_or_ne slotId rpmbSsAuthKeyId with rfl | hid
  · -- the RPMB key: the second search, if it is made, keeps the outcome of the first
    have htest : ¬ (unittest = true ∧ rpmbSsAuthKeyId = unittestKeyId ∧
        uuid = hwcryptoUnittestUuid) := fun h => unittestKeyId_ne h.2.1.symm
    have hout : handleSlots P d.prov C uuid rpmbSsAuthKeyId d.keySlots d.keyData 0 =
        returned (slotOut P unittest d.prov C uuid rpmbSsAuthKeyId d.keyData) := by
      rw [hfirst, slotOut, if_neg htest]
    rw [searchSlots, hout]
    rcases hslot : slotOut P unittest d.prov C uuid rpmbSsAuthKeyId d.keyData with _ | o
    · rfl
    rw [hslot] at hout
    rw [returned_some, Except.bind_ok]
    split
    · rename_i hsecond
      have hkbuf := (handleSlots_bounded hout (Nat.zero_le _)).1.trans hlen
      exact handleSlots_test_of_ne P C uuid hkbuf hsecond.2 unittestKeyId_ne.symm
    · rfl
  · have hnot : ¬ Unwraps d.prov uuid slotId := fun h => hid h.1
    rw [if_neg hnot, returned_some] at hfirst
    rw [searchSlots, hfirst, Except.bind_ok, slotOut, if_neg hnot]
    cases unittest with
    | false => rfl
    | true =>
      simp only [and_self, true_and, if_true]
      rw [handleSlots_test P C uuid slotId d.prov 0 hlen]
      split <;> rfl

/-- The status and the payload that go with it. -/
lemma slotOut_answer (prov : Provision) (slotId kbuf : List UInt8) :
    (slotOut P unittest prov C uuid slotId kbuf).map (fun o => (o.status, o.kbuf.take o.klen)) =
      keyAnswer P unittest prov C uuid slotId := by
  rw [slotOut, keyAnswer]
  split
  · rcases hdecap : C.decap skeymod prov.rpmbKeyblob rpmbSsAuthKeySize with _ | out | _
    · rfl
    · simp [← C.decap_ok _ _ _ _ hdecap]
    · rfl
  · split
    · simp
    · rfl

/-- With the repository's own slots, the reply to a request is its answer, whatever the key
buffer holds; and if it has none, it is the driver that stops. -/
lemma reply_keys (hslots : d.keySlots = keys P) (hlen : d.keyData.length = hwkeyMaxPayloadSize)
    {req : Request} (hreq : req.data.length ≤ hwkeyMaxPayloadSize) :
    (reply P unittest d C uuid req = .error .driver ∧
      answer P unittest d.prov C uuid req = none) ∨
    ∃ r, reply P unittest d C uuid req = .ok r ∧
      answer P unittest d.prov C uuid req = some (r.hdr, r.data) := by
  have hfit : req.data.length ≤ d.keyData.length := hreq.trans_eq hlen.symm
  rw [reply, answer]
  split
  · rw [searchSlots_keys P unittest C uuid hslots hlen, ← slotOut_answer P unittest C uuid d.prov
      (Buffer.cstr req.data) d.keyData]
    cases slotOut P unittest d.prov C uuid (Buffer.cstr req.data) d.keyData with
    | none => exact Or.inl ⟨rfl, rfl⟩
    | some o => exact Or.inr ⟨_, rfl, rfl⟩
  · right
    split
    · simp only [kdfSwitch, deriveAnswer, ne_eq]
      by_cases hver : (resolveKdf P req.hdr).arg1 = P.kdfVersion1
      · simp only [hver, not_true_eq_false, if_true, if_false,
          deriveKeyV1_eq P C d.prov uuid hfit, Except.bind_ok]
        refine ⟨_, rfl, ?_⟩
        by_cases hzero : req.data.length = 0
        · simp only [if_pos hzero, List.take_zero]
        · simp only [if_neg hzero]
          cases hhkdf : C.hkdf req.data.length d.prov.kdfv1Key uuid req.data with
          | ok out => simp [← C.hkdf_ok _ _ _ _ _ hhkdf]
          | fail _ => rfl
      · simp only [hver, not_false_eq_true, if_true, if_false]
        exact ⟨_, rfl, rfl⟩
    · exact ⟨_, rfl, rfl⟩

end

/-! ## The server -/

/-- A request and the response to it, as the client sees them. -/
structure Response where
  chan : Handle
  peer : Option Uuid
  req : Request
  rsp : HwkeyMsg
  rspData : List UInt8
  rc : ℤ

/-- What the client sees of an exchange. -/
def Exchange.response (x : Exchange) : Response :=
  ⟨x.chan, x.peer, ⟨x.req, x.reqData⟩, x.rsp, x.rspData, x.rc⟩

/-- The clients that are connected, by the address of their context, and the responses, the
latest first. -/
@[ext]
structure Server where
  ctxs : Ptr → Option HwkeyChanCtx
  log : List Response

namespace Server

/-- The client whose context is at `p` is gone. -/
def drop (v : Server) (p : Ptr) : Server := { v with ctxs := Function.update v.ctxs p none }

/-- The response to a request of a client, if there is one. -/
def respond (P : HwkeyProto) (unittest : Bool) (prov : Provision) (a : Answers) (c : HwkeyChanCtx)
    (req : Request) : Option Response :=
  (answer P unittest prov a.crypto c.uuid req).map fun r =>
    ⟨c.chan, some c.uuid, req, { r.1 with cmd := r.1.cmd ||| P.respBit }, r.2, a.send c.chan⟩

/-- A response goes to the client that asked. -/
lemma respond_client {P : HwkeyProto} {unittest : Bool} {prov : Provision} {a : Answers}
    {c : HwkeyChanCtx} {req : Request} {x : Response}
    (h : respond P unittest prov a c req = some x) : x.chan = c.chan ∧ x.peer = some c.uuid := by
  obtain ⟨r, -, rfl⟩ := Option.map_eq_some_iff.mp h
  exact ⟨rfl, rfl⟩

/-- An event on the channel of a client. Nothing comes after a request that is not answered. -/
def chanStep (P : HwkeyProto) (U : Uapi) (unittest : Bool) (prov : Provision) (f : Flags)
    (a : Answers) (v : Server) (p : Ptr) (c : HwkeyChanCtx) : Server :=
  if f.hup = true then v.drop p
  else if f.msg = true then
    match requestOf P U a.inbound with
    | none => v.drop p
    | some req =>
      match respond P unittest prov a c req with
      | none => v
      | some x =>
        let v := { v with log := x :: v.log }
        if a.send c.chan < 0 then v.drop p else v
  else v

/-- A connection on the port. -/
def portStep (f : Flags) (a : Answers) (v : Server) : Server :=
  if Accepts f a then
    match a.calloc with
    | some p => { v with ctxs := Function.update v.ctxs p (some ⟨a.accept, a.peer⟩) }
    | none => v
  else v

end Server

end Hwkey

open Ipc EventSystem

variable {D : Hwrng.RngDev} {K : Config}

/-- An event is for the port, for a client, or does not concern the server. -/
def Hwkey.Server.step (K : Config) (prov : Hwkey.Provision) (v : Hwkey.Server) (e : Event D) :
    Hwkey.Server :=
  match e.cookie with
  | some (.port .hwkey) => v.portStep e.flags e.hwkey
  | some (.ctx p) =>
    match v.ctxs p with
    | some c => v.chanStep K.proto K.uapi K.unittest prov e.flags e.hwkey p c
    | none => v
  | _ => v

/-- A context as a HWKEY context, if it is one. -/
def Ipc.Ctx.hwkeyCtx : Ctx → Option HwkeyChanCtx
  | .hwrng _ => none
  | .hwkey c => some c

/-- The application as a server. -/
def App.server (s : App D) : Hwkey.Server :=
  ⟨fun p => (s.sys.heap p).bind Ctx.hwkeyCtx, s.hwkey.log.map Hwkey.Exchange.response⟩

lemma App.server_ctxs {s : App D} {p : Ptr} {c : HwkeyChanCtx} :
    s.server.ctxs p = some c ↔ s.sys.heap p = some (.hwkey c) := by
  simp only [App.server]
  rcases s.sys.heap p with _ | _ | d <;> simp [Ctx.hwkeyCtx]

/-! ## The HWRNG service does not touch it -/

lemma Hwrng.Served.hwkeyCtx {U : Uapi} {send : Handle → ℤ} {p : Ptr} {c : HwrngChanCtx}
    {w w' : Hwrng.World D} {more : Bool} (h : Hwrng.Served U send p c w w' more)
    (hc : w.sys.heap p = some (.hwrng c)) (q : Ptr) :
    (w'.sys.heap q).bind Ctx.hwkeyCtx = (w.sys.heap q).bind Ctx.hwkeyCtx := by
  rcases eq_or_ne q p with rfl | hne
  · cases h <;> simp [hc, Ctx.hwkeyCtx, Sys.store_self, World.drop, Sys.drop]
  · rw [(h.frame hne).1]

lemma Hwrng.Handled.hwkeyCtx {U : Uapi} {f : Flags} {m : Inbound} {p : Ptr} {c : HwrngChanCtx}
    {w w' : Hwrng.World D} (h : Hwrng.Handled U f m p c w w')
    (hc : w.sys.heap p = some (.hwrng c)) (q : Ptr) :
    (w'.sys.heap q).bind Ctx.hwkeyCtx = (w.sys.heap q).bind Ctx.hwkeyCtx := by
  rcases eq_or_ne q p with rfl | hne
  · cases h <;> simp [hc, Ctx.hwkeyCtx, Sys.store_self, World.drop, World.store, Sys.drop]
  · rw [(h.frame hne).1]

lemma Hwrng.Passed.hwkeyCtx {U : Uapi} {send : Handle → ℤ} {ps : List Ptr} {w w' : Hwrng.World D}
    (h : Hwrng.Passed U send ps w w') (q : Ptr) :
    (w'.sys.heap q).bind Ctx.hwkeyCtx = (w.sys.heap q).bind Ctx.hwkeyCtx := by
  induction h with
  | nil => rfl
  | cons _ hc hserved _ ih => exact ih.trans (hserved.hwkeyCtx hc q)

/-! ## The application refines the server -/

lemma App.deliver_server (s : App D) (e : Event D) : (s.deliver e).server = s.server := by
  rw [App.deliver]
  split <;> rfl

lemma App.deliver_hwkey (s : App D) (e : Event D) : (s.deliver e).hwkey = s.hwkey := by
  rw [App.deliver]
  split <;> rfl

lemma hwkeyCtx_update (heap : Ptr → Option Ctx) (p : Ptr) (x : Option Ctx) :
    (fun q => (Function.update heap p x q).bind Ctx.hwkeyCtx) =
      Function.update (fun q => (heap q).bind Ctx.hwkeyCtx) p (x.bind Ctx.hwkeyCtx) := by
  ext1 q
  rcases eq_or_ne q p with rfl | hne
  · simp
  · simp [hne]

/-- The response the service records is the one the server gives. -/
lemma exchange_response {s : App D} (hs : s.Wf) {p : Ptr} {c : HwkeyChanCtx}
    (hc : s.sys.heap p = some (.hwkey c)) {a : Hwkey.Answers} {req : Hwkey.Request}
    {r : Hwkey.Reply}
    (hr : Hwkey.answer K.proto K.unittest s.hwkey.prov a.crypto c.uuid req =
      some (r.hdr, r.data)) :
    Hwkey.Server.respond K.proto K.unittest s.hwkey.prov a c req =
      some (Hwkey.exchange K.proto a s.hwkeyWorld c req r.hdr r.data).response := by
  obtain ⟨o, ho, hctx⟩ := hs.lifecycle.chan_open hc
  have hpeer := hs.lifecycle.ctx_uuid _ o p c ho hctx hc
  have ho : s.sys.objs c.chan = some o := ho
  simp only [Hwkey.Server.respond, hr, Hwkey.Exchange.response, Hwkey.exchange,
    App.hwkeyWorld, ho, Option.map_some, hpeer]

/-- With the repository's own slots, every step of the application is the step of the
server. -/
lemma Dispatched.server {s s' : App D} {e : Event D} (h : Dispatched K e s s') (hs : s.Wf)
    (he : EventOk s e) (hslots : s.hwkey.keySlots = Hwkey.keys K.proto) :
    s'.server = s.server.step K s.hwkey.prov e := by
  cases h with
  | empty hflags =>
    rw [Hwkey.Server.step]
    rcases e.cookie with _ | ⟨_ | _⟩ | p
    · rfl
    · rfl
    · simp [Hwkey.Server.portStep, Hwkey.Accepts, hflags]
    · rcases hc : s.server.ctxs p with _ | c
      · simp [hc]
      · simp [hc, Hwkey.Server.chanStep, hflags]
  | hwrngPort hcookie haccepted =>
    simp only [Hwkey.Server.step, hcookie]
    cases haccepted with
    | quiet => rfl
    | refused => rfl
    | connected _ hp =>
      ext1
      · have hfree := he.calloc_fresh _ hp
        simp only [App.server, App.setHwrng, Sys.connect, App.hwrngWorld, hwkeyCtx_update]
        simp [Function.update_eq_self_iff, Ctx.hwkeyCtx, hfree]
      · rfl
  | hwkeyPort hcookie _ haccepted =>
    simp only [Hwkey.Server.step, hcookie, Hwkey.Server.portStep]
    cases haccepted with
    | quiet hnot =>
      obtain hnot | hcalloc := hnot
      · rw [if_neg hnot]
        rfl
      · have hcalloc : e.hwkey.calloc = none := hcalloc
        simp only [hcalloc, ite_self]
        rfl
    | connected hacc hp =>
      rw [if_pos hacc]
      simp only [hp]
      ext1
      · exact hwkeyCtx_update _ _ _
      · rfl
  | @hwrngChan p c _ _ _ hcookie hc _ _ hhandled hpassed =>
    have hnone : s.server.ctxs p = none := by simp [App.server, hc, Ctx.hwkeyCtx]
    simp only [Hwkey.Server.step, hcookie, hnone]
    ext1
    · ext1 q
      exact (hpassed.hwkeyCtx q).trans (hhandled.hwkeyCtx hc q)
    · rfl
  | @hwkeyChan p c _ hcookie hc hchan _ hhandled =>
    have hctx : s.server.ctxs p = some c := App.server_ctxs.mpr hc
    have hresponse : ∀ {req r}, Hwkey.requestOf K.proto K.uapi e.hwkey.inbound = some req →
        Hwkey.reply K.proto K.unittest s.hwkey e.hwkey.crypto c.uuid req = .ok r →
        Hwkey.Server.respond K.proto K.unittest s.hwkey.prov e.hwkey c req =
          some (Hwkey.exchange K.proto e.hwkey s.hwkeyWorld c req r.hdr r.data).response := by
      intro req r hreq hr
      obtain ⟨herr, -⟩ | ⟨r', hr', hans⟩ := Hwkey.reply_keys K.proto K.unittest e.hwkey.crypto
        c.uuid hslots hs.sized.keyData (Hwkey.requestOf_length hreq)
      · exact absurd (hr.symm.trans herr) (by simp)
      obtain rfl : r = r' := Except.ok.inj (hr.symm.trans hr')
      exact exchange_response hs hc hans
    simp only [Hwkey.Server.step, hcookie, hctx, Hwkey.Server.chanStep]
    cases hhandled with
    | quiet hhup hmsg =>
      simp only [hhup, hmsg]
      rfl
    | hungUp hhup =>
      simp only [hhup, if_true]
      ext1
      · exact hwkeyCtx_update _ _ _
      · rfl
    | unreadable puts hhup hmsg hreq =>
      have hreq : Hwkey.requestOf K.proto K.uapi e.hwkey.inbound = none := hreq
      simp only [hhup, hmsg, hreq, Bool.false_eq_true, if_false, if_true]
      ext1
      · exact hwkeyCtx_update _ _ _
      · rfl
    | replied hhup hmsg hreq hr hlen hsend =>
      have hreq' : Hwkey.requestOf K.proto K.uapi e.hwkey.inbound = some _ := hreq
      simp only [hhup, hmsg, hreq', hresponse hreq hr, Bool.false_eq_true, if_false, if_true,
        not_lt.mpr hsend]
      rfl
    | unsent hhup hmsg hreq hr hlen hsend =>
      have hreq' : Hwkey.requestOf K.proto K.uapi e.hwkey.inbound = some _ := hreq
      simp only [hhup, hmsg, hreq', hresponse hreq hr, Bool.false_eq_true, if_false, if_true,
        hsend]
      ext1
      · exact hwkeyCtx_update _ _ _
      · rfl
  | noHandler _ hcookie =>
    simp only [Hwkey.Server.step, hcookie]
    rfl

/-- The application with the repository's own slots, whatever event it serves, does what the
server does. -/
lemma step_server {s s' : App D} {e : Event D} (hs : s.Wf) (he : EventOk s e)
    (hslots : s.hwkey.keySlots = Hwkey.keys K.proto) (h : step K s e = .ok s') :
    s'.server = s.server.step K s.hwkey.prov e := by
  have hrefines := (step_ok hs he h).server (hs.deliver e) he.deliver
    (by rw [s.deliver_hwkey e, hslots])
  rwa [s.deliver_server e, s.deliver_hwkey e] at hrefines

/-- The slots and the data of the provider never change. -/
lemma step_static {s s' : App D} {e : Event D} (hs : s.Wf) (he : EventOk s e)
    (h : step K s e = .ok s') :
    s'.hwkey.keySlots = s.hwkey.keySlots ∧ s'.hwkey.prov = s.hwkey.prov := by
  have hd := step_ok hs he h
  rw [← s.deliver_hwkey e]
  cases hd with
  | empty => exact ⟨rfl, rfl⟩
  | hwrngPort => exact ⟨rfl, rfl⟩
  | hwkeyPort _ _ haccepted => cases haccepted <;> exact ⟨rfl, rfl⟩
  | hwrngChan => exact ⟨rfl, rfl⟩
  | hwkeyChan _ _ _ _ hhandled => exact hhandled.static
  | noHandler => exact ⟨rfl, rfl⟩

/-! ## Runs -/

/-- What a run keeps, and what it does to the server. -/
lemma server_run {s s' : App D} (hs : s.Wf) (hslots : s.hwkey.keySlots = Hwkey.keys K.proto)
    {es : List (Event D)} (h : (app D K).Run s es s') :
    s'.Wf ∧ s'.hwkey.keySlots = s.hwkey.keySlots ∧ s'.hwkey.prov = s.hwkey.prov ∧
      s'.server = es.foldl (Hwkey.Server.step K s.hwkey.prov) s.server := by
  induction h with
  | nil => exact ⟨hs, rfl, rfl, rfl⟩
  | snoc _ he hstep ih =>
    obtain ⟨hwf, hkeys, hprov, hserver⟩ := ih
    obtain ⟨hkeys', hprov'⟩ := step_static hwf he hstep
    refine ⟨(step_ok hwf he hstep).wf (hwf.deliver _) he.deliver, hkeys'.trans hkeys,
      hprov'.trans hprov, ?_⟩
    rw [step_server hwf he (hkeys.trans hslots) hstep, hserver, hprov, List.foldl_concat]

lemma server_of_boot {b : Boot D} {s : App D} (h : boot b = .ok s) :
    s.server = ⟨fun _ => none, []⟩ := by
  obtain ⟨-, hheap, -, -, -, hlog, -⟩ := boot_cases h
  refine Hwkey.Server.ext ?_ ?_
  · ext1 p
    simp [App.server, hheap p]
  · simp [App.server, hlog]

/-- With the repository's own slots every run is a run of the server without buffers: who is
connected, and every response that was ever sent, with its client, its status, its payload
and whether it went through, follow from the events alone. -/
theorem server_refined {s₀ s : App D} (h₀ : (app D K).init s₀)
    (hslots : s₀.hwkey.keySlots = Hwkey.keys K.proto) {es : List (Event D)}
    (h : (app D K).Run s₀ es s) :
    s.server = es.foldl (Hwkey.Server.step K s₀.hwkey.prov) ⟨fun _ => none, []⟩ := by
  obtain ⟨b, hb⟩ := h₀
  rw [← server_of_boot hb]
  exact (server_run (boot_wf hb) hslots h).2.2.2

/-! ## Which events are served -/

/-- The event is for the HWRNG service. -/
def Event.ForHwrng (e : Event D) (s : Sys) : Prop :=
  e.cookie = some (.port .hwrng) ∨
    ∃ p x, e.cookie = some (.ctx p) ∧ s.heap p = some (.hwrng x)

/-- The event carries no flag that makes its handler abort. -/
def Event.Healthy (e : Event D) : Prop :=
  match e.cookie with
  | none => True
  | some (.port _) => portErrors e.flags = false
  | some (.ctx _) => chanErrors e.flags = false

lemma Dispatched.healthy {s s' : App D} {e : Event D} (h : Dispatched K e s s')
    (hfor : ¬ e.ForHwrng s.sys) : e.Healthy := by
  rw [Event.Healthy]
  cases h with
  | empty hflags =>
    rw [hflags]
    rcases e.cookie with _ | _ | _
    · trivial
    · rfl
    · rfl
  | hwrngPort hcookie => exact absurd (Or.inl hcookie) hfor
  | hwkeyPort hcookie herrs => simpa only [hcookie] using herrs
  | hwrngChan _ hcookie _ _ herrs => simpa only [hcookie] using herrs
  | hwkeyChan hcookie _ _ herrs => simpa only [hcookie] using herrs
  | noHandler _ hcookie => simp only [hcookie]

/-- The event brings a request that has no answer, because the driver does not return. -/
def Hwkey.Server.Unanswered (K : Config) (prov : Hwkey.Provision) (v : Hwkey.Server)
    (e : Event D) : Prop :=
  ∃ p c req, e.cookie = some (.ctx p) ∧ v.ctxs p = some c ∧ e.flags.hup = false ∧
    e.flags.msg = true ∧ Hwkey.requestOf K.proto K.uapi e.inbound = some req ∧
    Hwkey.answer K.proto K.unittest prov e.crypto c.uuid req = none

lemma Hwkey.Server.Unanswered.decap {prov : Hwkey.Provision} {v : Hwkey.Server} {e : Event D}
    (h : v.Unanswered K prov e) :
    e.crypto.decap Hwkey.skeymod prov.rpmbKeyblob Hwkey.rpmbSsAuthKeySize = none := by
  obtain ⟨_, _, _, -, -, -, -, -, hnone⟩ := h
  exact ((Hwkey.answer_eq_none ..).mp hnone).2.2

/-- A request that is served is answered. -/
lemma Dispatched.not_unanswered {s s' : App D} {e : Event D} (h : Dispatched K e s s')
    (hs : s.Wf) (hslots : s.hwkey.keySlots = Hwkey.keys K.proto) :
    ¬ s.server.Unanswered K s.hwkey.prov e := by
  rintro ⟨p, c, req, hcookie, hc, hhup, hmsg, hreq, hnone⟩
  rw [App.server_ctxs] at hc
  have hanswered : ∀ r, Hwkey.reply K.proto K.unittest s.hwkey e.crypto c.uuid req ≠ .ok r := by
    intro r hr
    obtain ⟨herr, -⟩ | ⟨r', -, hans⟩ := Hwkey.reply_keys K.proto K.unittest e.crypto c.uuid hslots
      hs.sized.keyData (Hwkey.requestOf_length hreq)
    · exact absurd (hr.symm.trans herr) (by simp)
    · exact absurd (hnone.symm.trans hans) (by simp)
  cases h with
  | empty hflags => exact absurd (hflags ▸ hmsg) (by decide)
  | hwrngPort hcookie' => exact absurd (hcookie.symm.trans hcookie') (by simp)
  | hwkeyPort hcookie' => exact absurd (hcookie.symm.trans hcookie') (by simp)
  | noHandler _ hcookie' => exact absurd (hcookie.symm.trans hcookie') (by simp)
  | hwrngChan _ hcookie' hx =>
    obtain rfl : p = _ := by simpa using hcookie.symm.trans hcookie'
    exact absurd (hc.symm.trans hx) (by simp)
  | hwkeyChan hcookie' hx _ _ hhandled =>
    obtain rfl : p = _ := by simpa using hcookie.symm.trans hcookie'
    obtain rfl : c = _ := by simpa using hc.symm.trans hx
    cases hhandled with
    | quiet _ hmsg' => exact absurd (hmsg.symm.trans hmsg') (by decide)
    | hungUp hhup' => exact absurd (hhup.symm.trans hhup') (by decide)
    | unreadable _ _ _ hreq' => exact absurd (hreq.symm.trans hreq') (by simp)
    | replied _ _ hreq' hr =>
      obtain rfl := Option.some.inj (hreq.symm.trans hreq')
      exact hanswered _ hr
    | unsent _ _ hreq' hr =>
      obtain rfl := Option.some.inj (hreq.symm.trans hreq')
      exact hanswered _ hr

/-- So is one in a step of the application. -/
lemma step_answers {s s' : App D} {e : Event D} (hs : s.Wf) (he : EventOk s e)
    (hslots : s.hwkey.keySlots = Hwkey.keys K.proto) (h : step K s e = .ok s') :
    ¬ s.server.Unanswered K s.hwkey.prov e := by
  rw [← s.deliver_server e, ← s.deliver_hwkey e]
  exact (step_ok hs he h).not_unanswered (hs.deliver e) (by rw [s.deliver_hwkey e, hslots])

/-- With the repository's own slots the HWKEY service serves every event that carries no such
flag, unless the driver does not return. -/
lemma step_total {s : App D} {e : Event D} (hs : s.Wf) (he : EventOk s e)
    (hslots : s.hwkey.keySlots = Hwkey.keys K.proto) (hfor : ¬ e.ForHwrng (s.deliver e).sys)
    (hhealthy : e.Healthy) (hanswered : ¬ s.server.Unanswered K s.hwkey.prov e) :
    ∃ s', step K s e = .ok s' := by
  have hs := hs.deliver e
  have he := he.deliver
  rw [← s.deliver_hwkey e] at hslots hanswered
  rw [← s.deliver_server e] at hanswered
  rw [Event.Healthy] at hhealthy
  rw [step, dispatchEvent]
  by_cases hflags : e.flags = {}
  · exact ⟨_, if_pos hflags⟩
  rw [if_neg hflags]
  rcases hcookie : e.cookie with _ | ⟨_ | _⟩ | p
  · obtain ⟨o, ho, -⟩ := he.handle_open
    exact ⟨_, by rw [Sys.close_eq ho]; rfl⟩
  · exact absurd (Or.inl hcookie) hfor
  · simp only [hcookie] at hhealthy
    obtain ⟨herrs, -⟩ | ⟨w, -, hok, -⟩ := Hwkey.hwkeyPortHandler_spec e.flags e.hwkey
      (s.deliver e).hwkeyWorld he.accept_fresh he.calloc_fresh
    · exact absurd (hhealthy.symm.trans herrs) (by decide)
    · exact ⟨_, by simp only [hok]; rfl⟩
  · simp only [hcookie] at hhealthy
    obtain ⟨x | x, hx, hchan⟩ := he.ctx_live hs.lifecycle hcookie
    · exact absurd (Or.inr ⟨p, x, hcookie, hx⟩) hfor
    · simp only [hx]
      obtain ⟨herrs, -⟩ | ⟨req, _, -, hhup, hmsg, hreq, hr, -⟩ | ⟨w, -, hok, -⟩ :=
        Hwkey.hwkeyChanHandler_spec K.proto K.uapi K.unittest e.flags e.hwkey
          (s.deliver e).hwkeyWorld hs.lifecycle hs.sized hx hchan
      · exact absurd (hhealthy.symm.trans herrs) (by decide)
      · exfalso
        obtain ⟨-, hnone⟩ | ⟨r, hr', -⟩ := Hwkey.reply_keys K.proto K.unittest e.hwkey.crypto x.uuid
          hslots hs.sized.keyData (Hwkey.requestOf_length hreq)
        · exact hanswered ⟨p, x, req, hcookie, App.server_ctxs.mpr hx, hhup, hmsg, hreq, hnone⟩
        · exact absurd (hr'.symm.trans hr) (by simp)
      · exact ⟨_, by rw [hok]; rfl⟩

/-! ## Two clients of the service -/

namespace Demo

/-- The RPMB key is wrapped in the given blob. -/
def provisioned (blob : List UInt8) : App dev :=
  { started with
    hwkey := { started.hwkey with prov := { started.hwkey.prov with rpmbKeyblob := blob } } }

/-- The secure storage server and another client are connected. -/
def clients (blob : List UInt8) : App dev :=
  { provisioned blob with
    sys := (started.sys.connect 5 Hwkey.ssUuid 0 (.hwkey ⟨5, Hwkey.ssUuid⟩)).connect 6 7 1
      (.hwkey ⟨6, 7⟩) }

/-- The secure storage server asks for its key. -/
def askKey : Event dev := message .hwkey 5 0 (List.replicate 20 0 ++ Hwkey.rpmbSsAuthKeyId)

/-- The other client has a key derived from two bytes. -/
def askDerived : Event dev := message .hwkey 6 1 (2 :: List.replicate 19 0 ++ [65, 66])

/-- Both clients connect, and each asks for its key. -/
def arrivals : List (Event dev) :=
  [connect .hwkey 5 Hwkey.ssUuid 0, connect .hwkey 6 7 1, askKey, askDerived]

lemma init_provisioned (blob : List UInt8) : (app dev config).init (provisioned blob) := by
  refine ⟨{
    hwrngPort := 1
    hwrngCookie := ⟨0, le_rfl⟩
    hwkeyPort := 2
    hwkeyCookie := ⟨0, le_rfl⟩
    dev := (0 : ℕ)
    keySlots := Hwkey.keys proto
    prov := ⟨List.replicate 32 7, 80, blob⟩
    ports_ne := by decide }, ?_⟩
  simp [boot, provisioned, started, Hwrng.hwrngStartService, Hwkey.hwkeyStartService,
    Sys.setCookie]

lemma run_clients (blob : List UInt8) :
    (app dev config).Run (provisioned blob)
      [connect .hwkey 5 Hwkey.ssUuid 0, connect .hwkey 6 7 1] (clients blob) := by
  have hsys := Sys.accept_store_setCookie started.sys 5 Hwkey.ssUuid 0
    (.hwkey ⟨5, Hwkey.ssUuid⟩) (rfl : (⟨0, le_rfl⟩ : Rc).1 = 0)
  have hsys' := Sys.accept_store_setCookie
    (started.sys.connect 5 Hwkey.ssUuid 0 (.hwkey ⟨5, Hwkey.ssUuid⟩)) 6 7 1
    (.hwkey ⟨6, 7⟩) (rfl : (⟨0, le_rfl⟩ : Rc).1 = 0)
  have hfirst : (app dev config).Run (provisioned blob) [connect .hwkey 5 Hwkey.ssUuid 0]
      { provisioned blob with
        sys := started.sys.connect 5 Hwkey.ssUuid 0 (.hwkey ⟨5, Hwkey.ssUuid⟩) } := by
    refine .one ⟨⟨_, rfl, rfl, rfl⟩, fun _ => rfl, fun _ _ => rfl, fun _ => le_rfl⟩ ?_
    exact congrArg (fun sys => (.ok { provisioned blob with sys := sys } :
      Except Stop (App dev))) hsys
  refine hfirst.snoc ⟨⟨_, rfl, rfl, rfl⟩, fun _ => rfl, ?_, fun _ => le_rfl⟩ ?_
  · rintro p hp
    obtain rfl : 1 = p := Option.some.inj hp
    rfl
  · exact congrArg (fun sys => (.ok { provisioned blob with sys := sys } :
      Except Stop (App dev))) hsys'

/-- A message of a client is served. -/
lemma serve {s : App dev} (hs : s.Wf) (hslots : s.hwkey.keySlots = Hwkey.keys proto) {p : Ptr}
    {c : HwkeyChanCtx} (hc : s.server.ctxs p = some c) (bytes : List UInt8) :
    ∃ s', EventOk s (message .hwkey c.chan p bytes) ∧
      step config s (message .hwkey c.chan p bytes) = .ok s' ∧
      s'.server = s.server.step config s.hwkey.prov (message .hwkey c.chan p bytes) := by
  have hp := App.server_ctxs.mp hc
  obtain ⟨o, ho, hctx⟩ := hs.lifecycle.chan_open hp
  have hsrv : o.srv = .hwkey := hs.lifecycle.ctx_srv _ o p _ ho hctx hp
  have he := admits_message .hwkey p ho (Obj.ctx_eq_some.mp hctx) hsrv bytes
  have hnot : ¬ (message .hwkey c.chan p bytes).ForHwrng s.sys := by
    rintro (hport | ⟨q, x, hcookie, hx⟩)
    · exact absurd hport (by simp [message])
    · obtain rfl : p = q := by simpa [message] using hcookie
      rw [hp] at hx
      exact absurd hx (by simp)
  have hanswered : ¬ s.server.Unanswered config s.hwkey.prov (message .hwkey c.chan p bytes) :=
    fun h => absurd h.decap (Option.some_ne_none _)
  obtain ⟨s', hs'⟩ := step_total (K := config) hs he hslots hnot rfl hanswered
  exact ⟨s', he, hs', step_server hs he hslots hs'⟩

/-- Both clients are served. -/
lemma run_arrivals (blob : List UInt8) :
    ∃ s, (app dev config).Run (provisioned blob) arrivals s ∧
      s.server = ((clients blob).server.step config (provisioned blob).hwkey.prov askKey).step
        config (provisioned blob).hwkey.prov askDerived := by
  have hrun := run_clients blob
  have hs := wf_of_reachable ⟨_, _, init_provisioned blob, hrun⟩
  have hss : (clients blob).server.ctxs 0 = some ⟨5, Hwkey.ssUuid⟩ := rfl
  obtain ⟨s₁, he₁, hs₁, hserver₁⟩ := serve hs rfl hss
    (List.replicate 20 0 ++ Hwkey.rpmbSsAuthKeyId)
  obtain ⟨hslots, hprov⟩ := step_static hs he₁ hs₁
  have hwf₁ := (step_ok hs he₁ hs₁).wf (hs.deliver _) he₁.deliver
  have hother : s₁.server.ctxs 1 = some ⟨6, 7⟩ := by
    rw [hserver₁]
    rfl
  obtain ⟨s₂, he₂, hs₂, hserver₂⟩ := serve hwf₁ hslots hother
    (2 :: List.replicate 19 0 ++ [65, 66])
  refine ⟨s₂, (hrun.snoc he₁ hs₁).snoc he₂ hs₂, ?_⟩
  rw [hserver₂, hserver₁, hprov]
  rfl

end Demo

/-- The secure storage server is sent its key, and the other client what is derived from `AB`. -/
theorem server_refined_arrivals : ∃ s : App Demo.dev,
    (app Demo.dev Demo.config).Run (Demo.provisioned (List.replicate 80 9)) Demo.arrivals s ∧
    s.server.log.map (fun x => (x.chan, x.rsp.status, x.rspData)) =
      [(6, Demo.proto.noError, [65, 66]), (5, Demo.proto.noError, List.replicate 32 9)] ∧
    s.server = Demo.arrivals.foldl
      (Hwkey.Server.step Demo.config (Demo.provisioned (List.replicate 80 9)).hwkey.prov)
      ⟨fun _ => none, []⟩ := by
  obtain ⟨s, hrun, hserver⟩ := Demo.run_arrivals (List.replicate 80 9)
  refine ⟨s, hrun, ?_, server_refined (Demo.init_provisioned _) rfl hrun⟩
  rw [hserver]
  decide

end TrustyLkNxp
