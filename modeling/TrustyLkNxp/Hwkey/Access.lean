import TrustyLkNxp.Hwkey.Server

/-!
# Who gets which key

A key leaves the service only towards the client its slot belongs to.  In particular the
RPMB key does not influence what any client but the secure storage server is sent.
-/

namespace TrustyLkNxp

open Ipc EventSystem

variable {D : Hwrng.RngDev} {K : Config}

/-! ## Slots belong to clients -/

/-- The payload of a response is the key that the handler of an installed slot produced in the
key buffer when it was called with `*klen = 0`, the slot has the requested name, and it belongs
to the client of the channel. -/
def Hwkey.FromOwnSlot (K : Config) (d : Hwkey.Data) (x : Hwkey.Exchange) : Prop :=
  ∃ slot ∈ Hwkey.installedSlots K.proto K.unittest d,
    slot.keyId = Buffer.cstr x.reqData ∧ x.peer = some slot.uuid ∧
      ∃ handler, slot.handler = some handler ∧
        ∃ kbuf o, kbuf.length = Hwkey.hwkeyMaxPayloadSize ∧
          handler.run d.prov x.crypto kbuf 0 = .ok o ∧ x.rspData = o.kbuf.take o.klen

/-- A step adds at most one exchange to the history, and its response is the reply to its
request. -/
lemma Dispatched.hwkey_log {s s' : App D} {e : Event D} (h : Dispatched K e s s') (hs : s.Wf) :
    s'.hwkey.log = s.hwkey.log ∨
      ∃ x, s'.hwkey.log = x :: s.hwkey.log ∧
        ∃ uuid, x.peer = some uuid ∧ ∃ r, x.rspData = r.data ∧
          Hwkey.reply K.proto K.unittest s.hwkey x.crypto uuid ⟨x.req, x.reqData⟩ = .ok r := by
  cases h with
  | empty => exact Or.inl rfl
  | hwrngPort => exact Or.inl rfl
  | hwkeyPort _ _ haccepted => cases haccepted <;> exact Or.inl rfl
  | hwrngChan => exact Or.inl rfl
  | @hwkeyChan p c w hcookie hc hchan _ hhandled =>
    obtain ⟨o, ho, hctx⟩ := hs.lifecycle.chan_open hc
    have hpeer := hs.lifecycle.ctx_uuid _ o p c ho hctx hc
    have hx : (s.sys.objs c.chan).map Obj.peer = some c.uuid := by
      have ho : s.sys.objs c.chan = some o := ho
      rw [ho, Option.map_some, hpeer]
    cases hhandled with
    | quiet => exact Or.inl rfl
    | hungUp => exact Or.inl rfl
    | unreadable => exact Or.inl rfl
    | @replied req r _ _ _ _ hr =>
      exact Or.inr ⟨Hwkey.exchange K.proto e.hwkey s.hwkeyWorld c req r.hdr r.data, rfl, c.uuid, hx,
        r, rfl, hr⟩
    | @unsent req r _ _ _ _ hr =>
      exact Or.inr ⟨Hwkey.exchange K.proto e.hwkey s.hwkeyWorld c req r.hdr r.data, rfl, c.uuid, hx,
        r, rfl, hr⟩
  | noHandler => exact Or.inl rfl

/-- A reply to a request for a slot that carries a key carries the key of such a slot. -/
lemma fromOwnSlot_of_reply {d : Hwkey.Data} (hd : d.Sized) {x : Hwkey.Exchange} {uuid : Uuid}
    {r : Hwkey.Reply} (hpeer : x.peer = some uuid) (hrsp : x.rspData = r.data)
    (hr : Hwkey.reply K.proto K.unittest d x.crypto uuid ⟨x.req, x.reqData⟩ = .ok r)
    (hcmd : x.req.cmd = K.proto.getKeyslot) (hne : x.rspData ≠ []) :
    Hwkey.FromOwnSlot K d x := by
  rw [Hwkey.reply, if_pos hcmd] at hr
  obtain ⟨o, ho, hr⟩ := Except.bind_eq_ok.mp hr
  have hdata : x.rspData = o.kbuf.take o.klen := by
    rw [hrsp, ← Except.ok.inj hr]
  obtain hzero | ⟨slot, hmem, hid, huuid, handler, hh, kbuf, hlen, o', hrun, hkbuf, hklen⟩ :=
    Hwkey.searchSlots_cases ho
  · rw [hdata, hzero, List.take_zero] at hne
    exact absurd rfl hne
  · refine ⟨slot, hmem, hid, huuid ▸ hpeer, handler, hh, kbuf, o', hlen.trans hd.keyData,
      hrun, ?_⟩
    rw [hkbuf, hklen, hdata]

/-- Every key in the history of a reachable state came from a slot of the client. -/
lemma fromOwnSlot_of_reachable {s : App D} (h : (app D K).Reachable s) :
    ∀ x ∈ s.hwkey.log, x.req.cmd = K.proto.getKeyslot → x.rspData ≠ [] →
      Hwkey.FromOwnSlot K s.hwkey x := by
  let I : App D → Prop := fun s => s.Wf ∧ ∀ x ∈ s.hwkey.log, x.req.cmd = K.proto.getKeyslot →
    x.rspData ≠ [] → Hwkey.FromOwnSlot K s.hwkey x
  have hI : I s := by
    refine h.invariant I ?_ ?_
    · rintro s ⟨b, hb⟩
      obtain ⟨-, -, -, -, -, hlog, -⟩ := boot_cases hb
      refine ⟨boot_wf hb, fun x hx => ?_⟩
      rw [hlog] at hx
      exact absurd hx List.not_mem_nil
    · rintro s e t ⟨hs, hlog⟩ he hstep
      have hd := step_ok hs he hstep
      have ht := hd.wf (hs.deliver e) he.deliver
      obtain ⟨hslots, hprov⟩ := step_static hs he hstep
      have hown : ∀ x, Hwkey.FromOwnSlot K s.hwkey x → Hwkey.FromOwnSlot K t.hwkey x := by
        intro x hx
        rwa [Hwkey.FromOwnSlot, Hwkey.installedSlots, hslots, hprov]
      refine ⟨ht, fun x hx hcmd hne => hown x ?_⟩
      obtain hsame | ⟨y, hcons, uuid, hpeer, r, hrsp, hr⟩ := hd.hwkey_log (hs.deliver e)
      · rw [hsame, s.deliver_hwkey e] at hx
        exact hlog x hx hcmd hne
      · rw [hcons, s.deliver_hwkey e] at hx
        rcases List.mem_cons.mp hx with rfl | hx
        · rw [s.deliver_hwkey e] at hr
          exact fromOwnSlot_of_reply hs.sized hpeer hrsp hr hcmd hne
        · exact hlog x hx hcmd hne
  exact hI.2

/-! ## Two runs that differ in the RPMB key -/

/-- Two events that differ at most in what unwrapping the RPMB key yields, and in what the
jobs do to the hardware. -/
structure SameButRpmb (e f : Event D) : Prop where
  handle : e.handle = f.handle
  flags : e.flags = f.flags
  cookie : e.cookie = f.cookie
  accept : e.accept = f.accept
  peer : e.peer = f.peer
  calloc : e.calloc = f.calloc
  setCookie : e.setCookie = f.setCookie
  inbound : e.inbound = f.inbound
  send : e.send = f.send
  hkdf : e.crypto.hkdf = f.crypto.hkdf

/-- The responses on the channels of all clients but the secure storage server. -/
def Hwkey.Server.publicLog (v : Hwkey.Server) : List Hwkey.Response :=
  v.log.filter fun x => x.peer ≠ some Hwkey.ssUuid

/-- Two servers that nobody but the secure storage server can tell apart. -/
structure Hwkey.Server.Alike (v v' : Hwkey.Server) : Prop where
  ctxs : v.ctxs = v'.ctxs
  publicLog : v.publicLog = v'.publicLog

namespace Hwkey

/-- Only the secure storage server's answers depend on the RPMB key. -/
lemma answer_congr (P : HwkeyProto) (unittest : Bool) {prov prov' : Provision} {C C' : Crypto}
    {uuid : Uuid} (huuid : uuid ≠ ssUuid) (hkey : prov.kdfv1Key = prov'.kdfv1Key)
    (hhkdf : C.hkdf = C'.hkdf) (req : Request) :
    answer P unittest prov C uuid req = answer P unittest prov' C' uuid req := by
  have hslot : ∀ slotId, keyAnswer P unittest prov C uuid slotId =
      keyAnswer P unittest prov' C' uuid slotId := by
    intro slotId
    have hnot : ∀ prov : Provision, ¬ Unwraps prov uuid slotId := fun _ h => huuid h.2.1
    rw [keyAnswer, keyAnswer, if_neg (hnot prov), if_neg (hnot prov')]
  have hderive : ∀ arg1 ikmData, deriveAnswer P prov C uuid arg1 ikmData =
      deriveAnswer P prov' C' uuid arg1 ikmData := by
    intro arg1 ikmData
    rw [deriveAnswer, deriveAnswer, hkey, hhkdf]
  simp only [answer, hslot, hderive]

namespace Server

lemma Alike.drop {v v' : Server} (h : v.Alike v') (p : Ptr) : (v.drop p).Alike (v'.drop p) :=
  ⟨by simp only [Server.drop, h.ctxs], h.publicLog⟩

/-- Alike servers stay alike when they send the same response, or each sends one to the secure
storage server. -/
lemma Alike.respond {v v' : Server} (h : v.Alike v') {x x' : Response}
    (hx : x = x' ∨ x.peer = some ssUuid ∧ x'.peer = some ssUuid) :
    ({ v with log := x :: v.log } : Server).Alike { v' with log := x' :: v'.log } := by
  refine ⟨h.ctxs, ?_⟩
  have hlog : v.log.filter (fun x => x.peer ≠ some ssUuid) =
      v'.log.filter fun x => x.peer ≠ some ssUuid := h.publicLog
  obtain rfl | ⟨hp, hp'⟩ := hx
  · simp only [Server.publicLog, List.filter_cons, hlog]
  · simp only [Server.publicLog, List.filter_cons, hp, hp', ne_eq, not_true_eq_false, decide_false,
      Bool.false_eq_true, if_false]
    exact hlog

lemma Alike.portStep {v v' : Server} {e f : Event D} (h : v.Alike v') (hef : SameButRpmb e f) :
    (v.portStep e.flags e.hwkey).Alike (v'.portStep f.flags f.hwkey) := by
  have hacc : Accepts e.flags e.hwkey ↔ Accepts f.flags f.hwkey := by
    simp only [Accepts, Event.hwkey, hef.flags, hef.accept, hef.setCookie]
  rw [Server.portStep, Server.portStep]
  by_cases hf : Accepts f.flags f.hwkey
  · rw [if_pos hf, if_pos (hacc.mpr hf)]
    simp only [Event.hwkey, hef.calloc, hef.accept, hef.peer]
    rcases f.calloc with _ | p
    · exact h
    · exact ⟨by simp only [h.ctxs], h.publicLog⟩
  · rw [if_neg hf, if_neg (mt hacc.mp hf)]
    exact h

/-- Where both servers answer, an event on the channel of a client keeps them alike. -/
lemma Alike.chanStep {v v' : Server} {e f : Event D} (h : v.Alike v') (hef : SameButRpmb e f)
    {prov prov' : Provision} (hkey : prov.kdfv1Key = prov'.kdfv1Key) {p : Ptr} {c : HwkeyChanCtx}
    (hcookie : e.cookie = some (.ctx p)) (hc : v.ctxs p = some c)
    (hanswered : ¬ v.Unanswered K prov e) (hanswered' : ¬ v'.Unanswered K prov' f) :
    (v.chanStep K.proto K.uapi K.unittest prov e.flags e.hwkey p c).Alike
      (v'.chanStep K.proto K.uapi K.unittest prov' f.flags f.hwkey p c) := by
  have hinbound : e.hwkey.inbound = f.hwkey.inbound := hef.inbound
  have hsend : e.hwkey.send = f.hwkey.send := hef.send
  rw [Server.chanStep, Server.chanStep, hef.flags, hinbound, hsend]
  split
  · exact h.drop p
  rename_i hhup
  split
  · rename_i hmsg
    rcases hreq : requestOf K.proto K.uapi f.hwkey.inbound with _ | req
    · exact h.drop p
    have hreq' : requestOf K.proto K.uapi e.inbound = some req := by
      rw [hef.inbound]
      exact hreq
    obtain ⟨x, hx⟩ : ∃ x, Server.respond K.proto K.unittest prov e.hwkey c req = some x := by
      rw [← Option.isSome_iff_exists, Server.respond, Option.isSome_map, Option.isSome_iff_ne_none]
      exact fun hnone => hanswered ⟨p, c, req, hcookie, hc, by simpa [hef.flags] using hhup,
        hef.flags ▸ hmsg, hreq', hnone⟩
    obtain ⟨x', hx'⟩ : ∃ x', Server.respond K.proto K.unittest prov' f.hwkey c req = some x' := by
      rw [← Option.isSome_iff_exists, Server.respond, Option.isSome_map, Option.isSome_iff_ne_none]
      exact fun hnone => hanswered' ⟨p, c, req, hef.cookie ▸ hcookie, h.ctxs ▸ hc,
        by simpa using hhup, hmsg, hreq, hnone⟩
    have hsame : x = x' ∨ x.peer = some ssUuid ∧ x'.peer = some ssUuid := by
      by_cases huuid : c.uuid = ssUuid
      · exact Or.inr ⟨huuid ▸ (respond_client hx).2, huuid ▸ (respond_client hx').2⟩
      · left
        have hans := answer_congr K.proto K.unittest huuid hkey hef.hkdf req
        have hans : answer K.proto K.unittest prov e.hwkey.crypto c.uuid req =
          answer K.proto K.unittest prov' f.hwkey.crypto c.uuid req := hans
        refine Option.some.inj (hx.symm.trans (Eq.trans ?_ hx'))
        simp only [Server.respond, hans, hsend]
    simp only [hx, hx']
    split
    · exact (h.respond hsame).drop p
    · exact h.respond hsame
  · exact h

lemma Alike.step {v v' : Server} {e f : Event D} (h : v.Alike v') (hef : SameButRpmb e f)
    {prov prov' : Provision} (hkey : prov.kdfv1Key = prov'.kdfv1Key)
    (hanswered : ¬ v.Unanswered K prov e) (hanswered' : ¬ v'.Unanswered K prov' f) :
    (v.step K prov e).Alike (v'.step K prov' f) := by
  rw [Server.step, Server.step, ← hef.cookie]
  rcases hcookie : e.cookie with _ | ⟨_ | _⟩ | p
  · exact h
  · exact h
  · exact h.portStep hef
  · simp only [← h.ctxs]
    cases hc : v.ctxs p with
    | none => exact h
    | some c => exact h.chanStep hef hkey hcookie hc hanswered hanswered'

end Server

end Hwkey

/-! ## Runs -/

/-- What the lockstep of two runs keeps. -/
structure PublicAlike (K : Config) (s t : App D) : Prop where
  wf : s.Wf ∧ t.Wf
  slots : s.hwkey.keySlots = Hwkey.keys K.proto ∧ t.hwkey.keySlots = Hwkey.keys K.proto
  kdfv1Key : s.hwkey.prov.kdfv1Key = t.hwkey.prov.kdfv1Key
  server : s.server.Alike t.server

lemma PublicAlike.step {s t s' t' : App D} {e f : Event D} (h : PublicAlike K s t)
    (hef : SameButRpmb e f) (he : EventOk s e) (hf : EventOk t f) (hs' : step K s e = .ok s')
    (ht' : step K t f = .ok t') : PublicAlike K s' t' := by
  obtain ⟨hs, ht⟩ := h.wf
  obtain ⟨hslots, hslots'⟩ := h.slots
  obtain ⟨hstatic, hprov⟩ := step_static hs he hs'
  obtain ⟨hstatic', hprov'⟩ := step_static ht hf ht'
  refine ⟨⟨?_, ?_⟩, ⟨hstatic.trans hslots, hstatic'.trans hslots'⟩, ?_, ?_⟩
  · exact (step_ok hs he hs').wf (hs.deliver e) he.deliver
  · exact (step_ok ht hf ht').wf (ht.deliver f) hf.deliver
  · rw [hprov, hprov', h.kdfv1Key]
  · rw [step_server hs he hslots hs', step_server ht hf hslots' ht']
    exact h.server.step hef h.kdfv1Key (step_answers hs he hslots hs')
      (step_answers ht hf hslots' ht')

/-- A key is sent only to the client its slot belongs to; and with the repository's own slots,
two runs on the same events that differ only in the RPMB key blob, and in what unwrapping it
yields, send the same responses to all clients but the secure storage server. -/
theorem keyslot_access (D : Hwrng.RngDev) (K : Config) :
    (∀ s, (app D K).Reachable s → ∀ x ∈ s.hwkey.log, x.req.cmd = K.proto.getKeyslot →
      x.rspData ≠ [] → Hwkey.FromOwnSlot K s.hwkey x) ∧
    ∀ s₀ t₀, (app D K).init s₀ → (app D K).init t₀ →
      s₀.hwkey.keySlots = Hwkey.keys K.proto → t₀.hwkey.keySlots = Hwkey.keys K.proto →
      s₀.hwkey.prov.kdfv1Key = t₀.hwkey.prov.kdfv1Key →
      ∀ es fs s t, (app D K).Run s₀ es s → (app D K).Run t₀ fs t → List.Forall₂ SameButRpmb es fs →
        s.server.publicLog = t.server.publicLog := by
  refine ⟨fun s hs => fromOwnSlot_of_reachable hs, ?_⟩
  rintro s₀ t₀ ⟨b, hb⟩ ⟨b', hb'⟩ hslots hslots' hkey es fs s t hrun hrun' hE
  have hstart : PublicAlike K s₀ t₀ := by
    obtain ⟨-, hheap, -, -, -, hlog, -⟩ := boot_cases hb
    obtain ⟨-, hheap', -, -, -, hlog', -⟩ := boot_cases hb'
    refine ⟨⟨boot_wf hb, boot_wf hb'⟩, ⟨hslots, hslots'⟩, hkey, ?_, ?_⟩
    · simp only [App.server, hheap, hheap']
    · simp only [Hwkey.Server.publicLog, App.server, hlog, hlog']
  exact (System.Run.lockstep (PublicAlike K) SameButRpmb
    (fun _ _ _ _ _ _ h hef he hf hs' ht' => h.step hef he hf hs' ht') hrun hrun' hE
    hstart).server.publicLog

/-- With two blobs that wrap different keys: the secure storage server is sent its key, and
the other client is sent the same in both runs. -/
theorem keyslot_access_arrivals :
    ∃ s t, (app Demo.dev Demo.config).Run (Demo.provisioned (List.replicate 80 9)) Demo.arrivals s ∧
      (app Demo.dev Demo.config).Run (Demo.provisioned (List.replicate 80 8)) Demo.arrivals t ∧
      (∃ x ∈ s.hwkey.log, x.rspData = List.replicate 32 9 ∧
        Hwkey.FromOwnSlot Demo.config s.hwkey x) ∧
      s.server.publicLog = t.server.publicLog ∧
      s.server.publicLog.map (fun x => (x.chan, x.rspData)) = [(6, [65, 66])] := by
  obtain ⟨s, hs, hserver⟩ := Demo.run_arrivals (List.replicate 80 9)
  obtain ⟨t, ht, -⟩ := Demo.run_arrivals (List.replicate 80 8)
  obtain ⟨hown, hpublic⟩ := keyslot_access Demo.dev Demo.config
  have hsame : List.Forall₂ SameButRpmb Demo.arrivals Demo.arrivals :=
    List.forall₂_same.mpr fun e _ => ⟨rfl, rfl, rfl, rfl, rfl, rfl, rfl, rfl, rfl, rfl⟩
  refine ⟨s, t, hs, ht, ?_, ?_, ?_⟩
  · have hlog := congrArg Hwkey.Server.log hserver
    obtain ⟨y, x, hlog⟩ : ∃ y x, s.hwkey.log.map Hwkey.Exchange.response = [y, x] ∧
        x.req.hdr.cmd = Demo.proto.getKeyslot ∧ x.rspData = List.replicate 32 9 :=
      ⟨_, _, hlog, rfl, rfl⟩
    obtain ⟨hmap, hcmd, hdata⟩ := hlog
    obtain ⟨x', hx', rfl⟩ : ∃ x' ∈ s.hwkey.log, x'.response = x := by
      rw [← List.mem_map, hmap]
      simp
    refine ⟨x', hx', hdata, hown s ⟨_, _, Demo.init_provisioned _, hs⟩ x' hx' hcmd ?_⟩
    intro hnil
    have hdata : x'.rspData = List.replicate 32 9 := hdata
    rw [hnil] at hdata
    exact absurd hdata (by simp)
  · exact hpublic (Demo.provisioned (List.replicate 80 9)) (Demo.provisioned (List.replicate 80 8))
      (Demo.init_provisioned _) (Demo.init_provisioned _) rfl rfl rfl _ _ s t hs ht hsame
  · rw [hserver]
    rfl

end TrustyLkNxp
