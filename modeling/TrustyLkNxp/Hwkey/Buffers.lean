import TrustyLkNxp.Hwkey.Protocol

/-!
# The two static buffers

Every access to `key_data` and `req_data` stays inside the buffer, for every message; and
nothing secret stays behind: between two events `key_data` is all zeros, and the keying
material of a derivation is wiped from `req_data`.
-/

namespace TrustyLkNxp

open Ipc EventSystem

variable {D : Hwrng.RngDev} {K : Config}

namespace Hwkey

/-! ## Bounds -/

/-- A call returns with a result as wanted, unless the driver does not return from unwrapping the
RPMB key. -/
def Completes {α : Type} (C : Crypto) (prov : Provision) (x : Except Stop α) (Q : α → Prop) :
    Prop :=
  (C.decap skeymod prov.rpmbKeyblob rpmbSsAuthKeySize = none ∧ x = .error .driver) ∨
    ∃ o, x = .ok o ∧ Q o

lemma Completes.mono {α : Type} {C : Crypto} {prov : Provision} {x : Except Stop α}
    {Q Q' : α → Prop} (h : Completes C prov x Q) (hQ : ∀ o, x = .ok o → Q o → Q' o) :
    Completes C prov x Q' := by
  obtain hstop | ⟨o, ho, hq⟩ := h
  · exact Or.inl hstop
  · exact Or.inr ⟨o, ho, hQ o ho hq⟩

/-- What the two searches do is complete unless the driver stops them. -/
lemma completes_slotOut (P : HwkeyProto) (unittest : Bool) (prov : Provision) (C : Crypto)
    (uuid : Uuid) (slotId kbuf : List UInt8) :
    Completes C prov (returned (slotOut P unittest prov C uuid slotId kbuf)) fun _ => True := by
  cases hslot : slotOut P unittest prov C uuid slotId kbuf with
  | none =>
    have hans := slotOut_answer P unittest C uuid prov slotId kbuf
    rw [hslot, Option.map_none] at hans
    exact Or.inl ⟨((keyAnswer_eq_none P unittest).mp hans.symm).2, rfl⟩
  | some o => exact Or.inr ⟨o, rfl, trivial⟩

/-- A handler the repository installs never fails its assertion on `kbuf_len`. -/
lemma installedSlots_run {P : HwkeyProto} {unittest : Bool} {d : Data} (C : Crypto)
    (hslots : d.keySlots = keys P) {slot : HwkeyKeyslot}
    (hslot : slot ∈ installedSlots P unittest d) {handler : SlotHandler}
    (hhandler : slot.handler = some handler) {kbuf : List UInt8} (klen : ℕ)
    (hkbuf : kbuf.length = hwkeyMaxPayloadSize) :
    Completes C d.prov (handler.run d.prov C kbuf klen) fun _ => True := by
  rw [installedSlots, hslots] at hslot
  rcases List.mem_append.mp hslot with hkeys | htest
  · obtain rfl := List.mem_singleton.mp hkeys
    obtain rfl := Option.some.inj hhandler
    have hfit : rpmbSsAuthKeySize ≤ kbuf.length := by
      rw [hkbuf]
      decide
    have hrun := getRpmbSsAuthKeyRun_eq P d.prov C klen hfit
    by_cases hblob : d.prov.rpmbKeyblobLen ≠ BitVec.ofNat 32 rpmbkeyLen
    · rw [if_pos hblob] at hrun
      exact Or.inr ⟨_, hrun, trivial⟩
    · rw [if_neg hblob] at hrun
      rcases hdecap : C.decap skeymod d.prov.rpmbKeyblob rpmbSsAuthKeySize with _ | _ | _
      · rw [hdecap] at hrun
        exact Or.inl ⟨hdecap, hrun⟩
      · rw [hdecap] at hrun
        exact Or.inr ⟨_, hrun, trivial⟩
      · rw [hdecap] at hrun
        exact Or.inr ⟨_, hrun, trivial⟩
  · split at htest
    · obtain rfl := List.mem_singleton.mp htest
      obtain rfl := Option.some.inj hhandler
      have hfit : ¬ kbuf.length < unittestKey32.length := by
        rw [hkbuf]
        decide
      exact Or.inr ⟨_, (getUnittestKey32Run_eq P d.prov C kbuf klen).trans (if_neg hfit), trivial⟩
    · exact absurd htest List.not_mem_nil

/-- The bounds the handling of a message relies on. -/
structure InBounds (P : HwkeyProto) (U : Uapi) (unittest : Bool) (d : Data) (C : Crypto)
    (uuid : Uuid) (m : Inbound) : Prop where
  /-- What was received is at least a header, so that the length of the payload does not
  underflow. -/
  header : 0 ≤ (tipcRecvTwoSegments U m P.sizeofHdr hwkeyMaxPayloadSize).rc →
    P.sizeofHdr ≤ (tipcRecvTwoSegments U m P.sizeofHdr hwkeyMaxPayloadSize).rc.toNat
  /-- The payload fits, and so does a terminator behind it. -/
  payload : ∀ n, n = (tipcRecvTwoSegments U m P.sizeofHdr hwkeyMaxPayloadSize).rc.toNat -
      P.sizeofHdr → n ≤ hwkeyMaxPayloadSize ∧ n < d.reqData.length
  /-- No handler fails its assertion, and each stays inside the key buffer. -/
  handlers : ∀ slot ∈ installedSlots P unittest d, ∀ handler, slot.handler = some handler →
    ∀ kbuf klen, kbuf.length = hwkeyMaxPayloadSize → klen ≤ hwkeyMaxPayloadSize →
      Completes C d.prov (handler.run d.prov C kbuf klen) fun o =>
        o.kbuf.length = hwkeyMaxPayloadSize ∧ o.klen ≤ hwkeyMaxPayloadSize
  /-- Nor does a search: what is sent and then wiped is a part of the key buffer. -/
  search : ∀ slotId, Completes C d.prov (searchSlots P unittest d C uuid slotId) fun o =>
    o.kbuf.length = hwkeyMaxPayloadSize ∧ o.klen ≤ hwkeyMaxPayloadSize
  /-- The output of `HKDF` is as long as the payload, and fits into the key buffer. -/
  hkdf : ∀ ikmData, ikmData.length ≤ hwkeyMaxPayloadSize →
    match C.hkdf ikmData.length d.prov.kdfv1Key uuid ikmData with
    | .ok out => out.length ≤ d.keyData.length
    | .fail written => written.length ≤ d.keyData.length
  derive : ∀ arg1 ikmData, ikmData.length ≤ hwkeyMaxPayloadSize →
    ∃ o, kdfSwitch P C d uuid arg1 ikmData = .ok o ∧ o.keyBuf.length = hwkeyMaxPayloadSize ∧
      o.keyLen ≤ hwkeyMaxPayloadSize

lemma inBounds (P : HwkeyProto) (U : Uapi) (unittest : Bool) {d : Data} (C : Crypto) (uuid : Uuid)
    (m : Inbound) (hd : d.Sized) (hslots : d.keySlots = keys P) :
    InBounds P U unittest d C uuid m where
  header hrc := by
    have hget := m.getMsg.2
    obtain ⟨hne, heq⟩ | ⟨-, rc, hneg, heq, -⟩ | ⟨-, -, hhdr, heq⟩ :=
      tipcRecvTwoSegments_cases U m P.sizeofHdr hwkeyMaxPayloadSize
    · rw [heq] at hrc
      exact absurd (le_antisymm hget hrc) hne
    · rw [heq] at hrc
      exact absurd hrc (not_le.mpr hneg)
    · rw [heq]
      simp only [List.length_take, Int.toNat_natCast]
      omega
  payload n hn := by
    have hget := m.getMsg.2
    have hle : n ≤ hwkeyMaxPayloadSize := by
      subst hn
      obtain ⟨-, heq⟩ | ⟨-, rc, hneg, heq, -⟩ | ⟨-, -, -, heq⟩ :=
        tipcRecvTwoSegments_cases U m P.sizeofHdr hwkeyMaxPayloadSize
      · rw [heq]
        simp only
        omega
      · rw [heq]
        simp only
        omega
      · rw [heq]
        simp only [List.length_take, Int.toNat_natCast]
        omega
    exact ⟨hle, by rw [hd.reqData]; omega⟩
  handlers slot hslot handler hhandler kbuf klen hkbuf hklen := by
    refine (installedSlots_run C hslots hslot hhandler klen hkbuf).mono fun o ho _ => ?_
    refine ⟨(handler.keeps _ _ _ _ _ ho).trans hkbuf, ?_⟩
    exact (handler.bounded _ _ _ _ _ ho (hklen.trans_eq hkbuf.symm)).trans_eq hkbuf
  search slotId := by
    have hsearch := completes_slotOut P unittest d.prov C uuid slotId d.keyData
    rw [← searchSlots_keys P unittest C uuid hslots hd.keyData slotId] at hsearch
    refine hsearch.mono fun o ho _ => ?_
    obtain ⟨hkbuf, hklen⟩ := searchSlots_bounded ho
    exact ⟨hkbuf.trans hd.keyData, hklen.trans_eq hd.keyData⟩
  hkdf ikmData hikm := by
    rw [hd.keyData]
    split
    · rename_i hok
      exact (C.hkdf_ok _ _ _ _ _ hok).trans_le hikm
    · rename_i hfail
      exact (C.hkdf_fail _ _ _ _ _ hfail).trans hikm
  derive arg1 ikmData hikm := by
    obtain ⟨o, ho, hbuf, hlen⟩ := kdfSwitch_eq P C uuid arg1 hd.keyData hikm
    exact ⟨o, ho, hbuf.trans hd.keyData, hlen.trans_eq hd.keyData⟩

/-- The payload of a reply fits into the key buffer. -/
lemma reply_data_length {P : HwkeyProto} {unittest : Bool} {d : Data} {C : Crypto} {uuid : Uuid}
    {req : Request} {r : Reply} (hlen : d.keyData.length = hwkeyMaxPayloadSize)
    (hreq : req.data.length ≤ hwkeyMaxPayloadSize)
    (h : reply P unittest d C uuid req = .ok r) : r.data.length ≤ hwkeyMaxPayloadSize := by
  rw [reply] at h
  split at h
  · obtain ⟨o, ho, hr⟩ := Except.bind_eq_ok.mp h
    obtain ⟨hkbuf, -⟩ := searchSlots_bounded ho
    rw [← Except.ok.inj hr]
    exact (List.length_take_le' _ _).trans_eq (hkbuf.trans hlen)
  · split at h
    · obtain ⟨o, ho, hbuf, -⟩ := kdfSwitch_eq P C uuid (resolveKdf P req.hdr).arg1 hlen hreq
      simp only [ho, Except.bind_ok] at h
      rw [← Except.ok.inj h]
      exact (List.length_take_le' _ _).trans_eq (hbuf.trans hlen)
    · rw [← Except.ok.inj h]
      exact Nat.zero_le _

/-! ## Wiping -/

lemma wipe_zero (buf : List UInt8) : wipe buf 0 = buf := rfl

/-- Wiping what was written over the start of a buffer is wiping the buffer. -/
lemma wipe_append_drop {out buf : List UInt8} {n : ℕ} (h : out.length = n) :
    wipe (out ++ buf.drop n) n = wipe buf n := by
  rw [wipe, List.drop_left' h, wipe]

/-- A buffer of zeros stays one when it is wiped. -/
lemma wipe_replicate {n m : ℕ} (h : n ≤ m) :
    wipe (List.replicate m 0) n = List.replicate m 0 := by
  rw [wipe, List.drop_replicate, List.replicate_append_replicate]
  congr 1
  omega

/-- Writing zeros over the start of a buffer of zeros. -/
lemma replicate_append_drop {n m : ℕ} (h : n ≤ m) :
    List.replicate n (0 : UInt8) ++ (List.replicate m 0).drop n = List.replicate m 0 :=
  wipe_replicate h

/-- A search in a buffer of zeros leaves a key there, which is wiped, or nothing. -/
lemma wipe_slotOut {P : HwkeyProto} {unittest : Bool} {prov : Provision} {C : Crypto} {uuid : Uuid}
    {slotId kbuf : List UInt8} {o : SlotOut}
    (hzero : kbuf = List.replicate hwkeyMaxPayloadSize 0)
    (ho : slotOut P unittest prov C uuid slotId kbuf = some o) : wipe o.kbuf o.klen = kbuf := by
  have hrpmb : rpmbSsAuthKeySize ≤ hwkeyMaxPayloadSize := by decide
  have htest : unittestKey32.length ≤ hwkeyMaxPayloadSize := by decide
  rw [slotOut] at ho
  split at ho
  · split at ho
    · exact absurd ho (by simp)
    · rename_i hdecap
      rw [← Option.some.inj ho, wipe_append_drop (C.decap_ok _ _ _ _ hdecap), hzero,
        wipe_replicate hrpmb]
    · rw [← Option.some.inj ho, wipe_zero, hzero, replicate_append_drop hrpmb]
  · split at ho
    · rw [← Option.some.inj ho, wipe_append_drop rfl, hzero, wipe_replicate htest]
    · rw [← Option.some.inj ho, wipe_zero]

/-- A derivation in a buffer of zeros leaves a key there, which is wiped, or nothing. -/
lemma wipe_kdfSwitch {P : HwkeyProto} {C : Crypto} {d : Data} {uuid : Uuid} {arg1 : Word}
    {ikmData : List UInt8} {o : DeriveOut} (hikm : ikmData.length ≤ hwkeyMaxPayloadSize)
    (hzero : d.keyData = List.replicate hwkeyMaxPayloadSize 0)
    (ho : kdfSwitch P C d uuid arg1 ikmData = .ok o) : wipe o.keyBuf o.keyLen = d.keyData := by
  have hfit : ikmData.length ≤ d.keyData.length := by
    rw [hzero, List.length_replicate]
    exact hikm
  rw [kdfSwitch] at ho
  split at ho
  · rw [deriveKeyV1_eq P C d.prov uuid hfit] at ho
    rw [← Except.ok.inj ho]
    split
    · rw [wipe_zero]
    · cases hhkdf : C.hkdf ikmData.length d.prov.kdfv1Key uuid ikmData with
      | ok out => rw [wipe_append_drop (C.hkdf_ok _ _ _ _ _ hhkdf), hzero, wipe_replicate hikm]
      | fail _ => rw [wipe_zero, hzero, replicate_append_drop hikm]
  · rw [← Except.ok.inj ho]
    rfl

/-- With the repository's own slots, a request that finds the key buffer zero leaves it zero. -/
lemma reply_keyData_zero {P : HwkeyProto} {unittest : Bool} {d : Data} {C : Crypto} {uuid : Uuid}
    {req : Request} {r : Reply} (hslots : d.keySlots = keys P)
    (hzero : d.keyData = List.replicate hwkeyMaxPayloadSize 0)
    (hreq : req.data.length ≤ hwkeyMaxPayloadSize)
    (h : reply P unittest d C uuid req = .ok r) :
    r.keyData = List.replicate hwkeyMaxPayloadSize 0 := by
  have hlen : d.keyData.length = hwkeyMaxPayloadSize := by rw [hzero, List.length_replicate]
  rw [reply] at h
  split at h
  · rw [searchSlots_keys P unittest C uuid hslots hlen] at h
    obtain ⟨o, ho, hr⟩ := Except.bind_eq_ok.mp h
    rw [← Except.ok.inj hr]
    exact (wipe_slotOut hzero (returned_eq_ok.mp ho)).trans hzero
  · split at h
    · obtain ⟨o, ho, hr⟩ := Except.bind_eq_ok.mp h
      rw [← Except.ok.inj hr]
      exact (wipe_kdfSwitch hreq hzero ho).trans hzero
    · rw [← Except.ok.inj h]
      exact hzero

lemma Handled.keyData_zero {P : HwkeyProto} {U : Uapi} {unittest : Bool} {a : Answers} {p : Ptr}
    {c : HwkeyChanCtx} {f : Flags} {w w' : World} (h : Handled P U unittest a p c f w w')
    (hslots : w.data.keySlots = keys P)
    (hzero : w.data.keyData = List.replicate hwkeyMaxPayloadSize 0) :
    w'.data.keyData = List.replicate hwkeyMaxPayloadSize 0 := by
  cases h with
  | quiet => exact hzero
  | hungUp => exact hzero
  | unreadable => exact hzero
  | replied _ _ hreq hr => exact reply_keyData_zero hslots hzero (requestOf_length hreq) hr
  | unsent _ _ hreq hr => exact reply_keyData_zero hslots hzero (requestOf_length hreq) hr

end Hwkey

/-! ## Between two events -/

lemma boot_keyData {b : Boot D} {s : App D} (h : boot b = .ok s) :
    s.hwkey.keyData = List.replicate Hwkey.hwkeyMaxPayloadSize 0 := by
  obtain ⟨sys, -, hs⟩ := Except.bind_eq_ok.mp h
  rw [← Except.ok.inj hs]

/-- The key buffer is zero between any two events. -/
lemma Serving.keyData {s : App D} (h : Serving K s) :
    s.hwkey.keyData = List.replicate Hwkey.hwkeyMaxPayloadSize 0 := by
  refine (h.invariant (fun s => s.hwkey.keyData = List.replicate Hwkey.hwkeyMaxPayloadSize 0)
    (fun _ _ hb => boot_keyData hb) ?_).2.2
  intro s e t hs hslots hzero he ht
  have hdata := s.deliver_hwkey e
  rw [← hdata] at hslots hzero
  cases step_ok hs he ht with
  | empty => exact hzero
  | hwrngPort => exact hzero
  | hwkeyPort _ _ haccepted => cases haccepted <;> exact hzero
  | hwrngChan => exact hzero
  | hwkeyChan _ _ _ _ hhandled => exact hhandled.keyData_zero hslots hzero
  | noHandler => exact hzero

/-- Between any two events the key buffer is zero, and right after a derivation so is the part
of the request buffer that held the keying material. -/
theorem key_hygiene {s : App D} (hs : Serving K s) :
    s.hwkey.keyData = List.replicate 2048 0 ∧
    ∀ (e : Event D) (t : App D) (p : Ptr) (c : HwkeyChanCtx), EventOk s e →
      e.cookie = some (.ctx p) → s.sys.heap p = some (.hwkey c) → e.flags.hup = false →
      e.flags.msg = true → ¬ Hwkey.Unreadable K.proto e.inbound →
      (Hwkey.received K.proto e.inbound).hdr.cmd = K.proto.derive → step K s e = .ok t →
      ∀ i < (Hwkey.received K.proto e.inbound).data.length, t.hwkey.reqData[i]? = some 0 := by
  refine ⟨hs.keyData, ?_⟩
  intro e t p c he hcookie hc hhup hmsg hm hder ht i hi
  have hflags : e.flags ≠ {} := by
    intro h
    rw [h] at hmsg
    exact absurd hmsg (by decide)
  have herrs : chanErrors e.flags = false := by
    by_contra herrs
    have hcw : (s.deliver e).hwkeyWorld.sys.heap p = some (.hwkey c) :=
      (congrFun (s.deliver_heap e) p).trans hc
    rw [step_hwkeyChan hflags hcookie hc, ← he.chan_eq hs.wf hcookie hc,
      Hwkey.hwkeyChanHandler_of_errors K.unittest hcw (by simpa using herrs)] at ht
    exact absurd ht (by simp [Functor.map, Except.map])
  obtain ⟨ans, hans⟩ : ∃ ans, Hwkey.answer K.proto K.unittest s.hwkey.prov e.crypto c.uuid
      (Hwkey.received K.proto e.inbound) = some ans := by
    rw [Hwkey.answer, if_neg fun hget => K.proto.getKeyslot_ne_derive (hget.symm.trans hder),
      if_pos hder]
    exact ⟨_, rfl⟩
  obtain ⟨r, reqData, -, hwiped, hok⟩ :=
    step_of_request hs he hflags hcookie hc herrs hhup hmsg hm hans
  rw [← Except.ok.inj (hok.symm.trans ht)]
  change reqData[i]? = some 0
  rw [← List.getElem?_take_of_lt hi, hwiped hder, List.getElem?_replicate, if_pos hi]

theorem key_hygiene_clients :
    (Demo.clients []).hwkey.keyData = List.replicate 2048 0 ∧
      ∀ t, step Demo.config (Demo.clients []) Demo.askDerived = .ok t →
        t.hwkey.reqData[0]? = some 0 ∧ t.hwkey.reqData[1]? = some 0 := by
  obtain ⟨hzero, hwiped⟩ := key_hygiene (Demo.serving_clients [])
  refine ⟨hzero, fun t ht => ?_⟩
  have hwiped := hwiped Demo.askDerived t 1 ⟨6, 7⟩ (Demo.admits_askDerived []) rfl rfl rfl rfl
    (by decide) rfl ht
  exact ⟨hwiped 0 (by decide), hwiped 1 (by decide)⟩

/-- For every message and all outcomes of the calls, handling it stays inside the buffers: no
access is out of bounds, no handler fails its assertion, and no response is longer than the key
buffer.  Nothing but the driver keeps it from being handled to the end. -/
theorem buffers_in_bounds {s : App D} (hs : Serving K s) (a : Hwkey.Answers) {p : Ptr}
    {c : HwkeyChanCtx} (hc : s.sys.heap p = some (.hwkey c)) :
    Hwkey.InBounds K.proto K.uapi K.unittest s.hwkey a.crypto c.uuid a.inbound ∧
      Hwkey.Completes a.crypto s.hwkey.prov
        (Hwkey.hwkeyChanHandleMsg K.proto K.uapi K.unittest a s.hwkeyWorld p) fun o =>
          o.2.data.keyData.length = 2048 ∧ o.2.data.reqData.length = 2049 ∧
          (o.2.data.log = s.hwkey.log ∨
            ∃ x, o.2.data.log = x :: s.hwkey.log ∧ x.rspData.length ≤ 2048) := by
  have hsized := hs.wf.sized
  refine ⟨Hwkey.inBounds K.proto K.uapi K.unittest a.crypto c.uuid a.inbound hsized hs.slots, ?_⟩
  cases hreq : Hwkey.requestOf K.proto K.uapi a.inbound with
  | none =>
    obtain ⟨rc, -, hok⟩ :=
      Hwkey.hwkeyChanHandleMsg_of_none (w := s.hwkeyWorld) K.unittest hc hreq
    exact Or.inr ⟨_, hok, hsized.keyData, hsized.reqData, Or.inl rfl⟩
  | some req =>
    have hlen := Hwkey.requestOf_length hreq
    obtain ⟨stop, -, hr, herr⟩ | ⟨r, reqData, hr, hreqData, -, hok⟩ :=
      Hwkey.hwkeyChanHandleMsg_of_request (w := s.hwkeyWorld) K.unittest hsized hc hreq
    · left
      obtain ⟨hdriver, hnone⟩ | ⟨r', hr', -⟩ :=
        Hwkey.reply_keys K.proto K.unittest a.crypto c.uuid hs.slots hsized.keyData hlen
      · obtain rfl : .driver = stop := Except.error.inj (hdriver.symm.trans hr)
        exact ⟨((Hwkey.answer_eq_none ..).mp hnone).2.2, herr⟩
      · exact absurd (hr'.symm.trans hr) (by simp)
    · refine Or.inr ⟨_, hok, Hwkey.reply_keyData hsized.keyData hlen hr, hreqData, Or.inr ?_⟩
      exact ⟨_, rfl, Hwkey.reply_data_length hsized.keyData hlen hr⟩

/-- A message that is too long is cut off. -/
theorem buffers_in_bounds_clients :
    ∃ rc w, Hwkey.hwkeyChanHandleMsg Demo.proto Demo.uapi false
        (Demo.message .hwkey 6 1 (List.replicate 3000 0)).hwkey
        (Demo.clients []).hwkeyWorld 1 = .ok (rc, w) ∧ w.data.reqData.length = 2049 := by
  obtain ⟨-, ⟨hstops, -⟩ | ⟨⟨rc, w⟩, hok, -, hlen, -⟩⟩ :=
    buffers_in_bounds (Demo.serving_clients [])
      (Demo.message .hwkey 6 1 (List.replicate 3000 0)).hwkey (p := 1) (c := ⟨6, 7⟩) rfl
  · exact absurd hstops (Option.some_ne_none _)
  · exact ⟨rc, w, hok, hlen⟩

end TrustyLkNxp
