import TrustyLkNxp.Hwkey.Server

/-!
# Clients do not see each other

What the HWKEY service sends on a channel is what it would send if the other clients, of
either service, were not there.  A run is projected to one channel: the tables of the kernel
and the allocator, the server and the events; and the projection of a run is a run.
-/

namespace TrustyLkNxp

open Ipc EventSystem

variable {D : Hwrng.RngDev} {K : Config}

/-! ## The projection of the tables -/

namespace Ipc

/-- The handles that concern a HWKEY channel: the channel itself and the ports. -/
def Obj.concerns (c h : Handle) (o : Obj) : Bool :=
  !o.isChan || (decide (o.srv = .hwkey) && decide (h = c))

/-- The contexts that concern a HWKEY channel: its own. -/
def Ctx.concerns (c : Handle) (x : Ctx) : Bool :=
  decide (x.srv = .hwkey) && decide (x.chan = c)

namespace Sys

/-- The tables as far as they concern a HWKEY channel. The service never learns whether the
kernel owes a channel an event. -/
def only (c : Handle) (s : Sys) : Sys :=
  { objs := fun h => ((s.objs h).filter (Obj.concerns c h)).map fun o => { o with owed := false }
    heap := fun p => (s.heap p).filter (Ctx.concerns c) }

variable {c : Handle} {s : Sys}

lemma ext_tables {s s' : Sys} (hobjs : ∀ h, s.objs h = s'.objs h)
    (hheap : ∀ p, s.heap p = s'.heap p) : s = s' := by
  cases s
  cases s'
  simp only [mk.injEq]
  exact ⟨funext hobjs, funext hheap⟩

lemma only_objs_of_concerns {h : Handle} {o : Obj} (ho : s.objs h = some o)
    (hc : o.concerns c h = true) : (s.only c).objs h = some { o with owed := false } := by
  simp [only, ho, hc, Option.filter]

lemma only_setOwed (c : Handle) (s : Sys) (h : Handle) (b : Bool) :
    (s.setOwed h b).only c = s.only c := by
  refine ext_tables (fun k => ?_) fun _ => rfl
  rcases eq_or_ne k h with rfl | hne
  · simp only [only, setOwed, Function.update_self]
    rcases s.objs k with _ | o
    · rfl
    · have hb : ({ o with owed := b } : Obj).concerns c k = o.concerns c k := rfl
      cases hc : o.concerns c k <;> simp [Option.filter, hc, hb]
  · simp [only, setOwed, hne]

/-- When the channel is alone, delivering an event leaves no trace. -/
lemma setOwed_only (c : Handle) (s : Sys) (h : Handle) : (s.only c).setOwed h false = s.only c := by
  refine ext_tables (fun k => ?_) fun _ => rfl
  rcases eq_or_ne k h with rfl | hne
  · simp only [only, setOwed, Function.update_self]
    rcases (s.objs k).filter (Obj.concerns c k) with _ | o <;> rfl
  · simp [setOwed, hne]

lemma only_drop (c : Handle) (s : Sys) (h : Handle) (p : Ptr) :
    (s.drop h p).only c = (s.only c).drop h p := by
  refine ext_tables (fun k => ?_) fun q => ?_
  · rcases eq_or_ne k h with rfl | hne
    · simp [only, drop]
    · simp [only, drop, hne]
  · rcases eq_or_ne q p with rfl | hne
    · simp [only, drop]
    · simp [only, drop, hne]

lemma only_closeObj (c : Handle) (s : Sys) (h : Handle) :
    ({ s with objs := Function.update s.objs h none } : Sys).only c =
      { s.only c with objs := Function.update (s.only c).objs h none } := by
  refine ext_tables (fun k => ?_) fun _ => rfl
  rcases eq_or_ne k h with rfl | hne
  · simp [only]
  · simp [only, hne]

/-- A channel that is connected concerns itself. -/
lemma only_connect (s : Sys) (peer uuid : Uuid) (p : Ptr) :
    (s.connect c peer p (.hwkey ⟨c, uuid⟩)).only c =
      (s.only c).connect c peer p (.hwkey ⟨c, uuid⟩) := by
  refine ext_tables (fun k => ?_) fun q => ?_
  · rcases eq_or_ne k c with rfl | hne
    · simp [only, connect, Obj.concerns, Ctx.srv, Option.filter]
    · simp [only, connect, hne]
  · rcases eq_or_ne q p with rfl | hne
    · simp [only, connect, Ctx.concerns, Ctx.srv, Ctx.chan, Option.filter]
    · simp [only, connect, hne]

/-- Another channel that is connected does not. -/
lemma only_connect_of_ne {h : Handle} {p : Ptr} {x : Ctx} (hh : s.objs h = none)
    (hp : s.heap p = none) (hx : x.chan = h) (hne : x.srv ≠ .hwkey ∨ h ≠ c) (peer : Uuid) :
    (s.connect h peer p x).only c = s.only c := by
  refine ext_tables (fun k => ?_) fun q => ?_
  · rcases eq_or_ne k h with rfl | hkh
    · obtain hne | hne := hne <;> simp [only, connect, Obj.concerns, hne, hh, Option.filter]
    · simp [only, connect, hkh]
  · rcases eq_or_ne q p with rfl | hqp
    · obtain hne | hne := hne <;> simp [only, connect, Ctx.concerns, hne, hx, hp, Option.filter]
    · simp [only, connect, hqp]

/-- A change to another channel does not show. -/
lemma only_drop_of_not {h : Handle} {o : Obj} {p : Ptr} {x : Ctx} (ho : s.objs h = some o)
    (hp : s.heap p = some x) (hco : o.concerns c h = false) (hcx : x.concerns c = false) :
    (s.drop h p).only c = s.only c := by
  refine ext_tables (fun k => ?_) fun q => ?_
  · rcases eq_or_ne k h with rfl | hne
    · simp [only, drop, ho, hco, Option.filter]
    · simp [only, drop, hne]
  · rcases eq_or_ne q p with rfl | hne
    · simp [only, drop, hp, hcx, Option.filter]
    · simp [only, drop, hne]

lemma only_store_of_not {p : Ptr} {x x' : Ctx} (hp : s.heap p = some x)
    (hcx : x.concerns c = false) (hcx' : x'.concerns c = false) :
    (s.store p x').only c = s.only c := by
  refine ext_tables (fun _ => rfl) fun q => ?_
  rcases eq_or_ne q p with rfl | hne
  · simp [only, store, hp, hcx, hcx', Option.filter]
  · simp [only, store, hne]

end Sys

end Ipc

/-! ## The HWRNG service does not show -/

namespace Hwrng

variable {U : Uapi} {send : Handle → ℤ} {c : Handle}

/-- The handle of a HWRNG context does not concern a HWKEY channel. -/
lemma not_concerns (c : Handle) {s : Sys} {l : List Ptr} (hL : Lifecycle s l) {p : Ptr}
    {x : HwrngChanCtx} (hp : s.heap p = some (.hwrng x)) :
    ∃ o, s.objs x.chan = some o ∧ o.concerns c x.chan = false := by
  obtain ⟨o, ho, hctx⟩ := hL.chan_open hp
  have hchan : o.isChan = true := (hL.chan_iff _ o ho).mpr (by simp [hctx])
  have hsrv : o.srv = .hwrng := hL.ctx_srv _ o p _ ho hctx hp
  exact ⟨o, ho, by simp [Obj.concerns, hchan, hsrv]⟩

lemma Served.only {p : Ptr} {x : HwrngChanCtx} {w w' : World D} {more : Bool}
    (h : Served U send p x w w' more) (hL : Lifecycle w.sys w.reqList)
    (hp : w.sys.heap p = some (.hwrng x)) : w'.sys.only c = w.sys.only c := by
  obtain ⟨o, ho, hco⟩ := not_concerns c hL hp
  cases h with
  | skipped => rfl
  | blocked =>
    have hp' : (w.sys.setOwed x.chan true).heap p = some (.hwrng x) := hp
    exact (Sys.only_store_of_not hp' rfl rfl).trans (Sys.only_setOwed c w.sys x.chan true)
  | failed => exact Sys.only_drop_of_not ho hp hco rfl
  | drained => exact Sys.only_store_of_not hp rfl rfl
  | partly => exact Sys.only_store_of_not hp rfl rfl

lemma Passed.only {ps : List Ptr} {w w' : World D} (h : Passed U send ps w w')
    (hL : Lifecycle w.sys w.reqList) : w'.sys.only c = w.sys.only c := by
  induction h with
  | nil => rfl
  | cons hp hc hserved _ ih =>
    exact (ih (hserved.lifecycle hL hp hc)).trans (hserved.only hL hc)

lemma Handled.only {f : Flags} {m : Inbound} {p : Ptr} {x : HwrngChanCtx} {w w' : World D}
    (h : Handled U f m p x w w') (hL : Lifecycle w.sys w.reqList)
    (hp : w.sys.heap p = some (.hwrng x)) : w'.sys.only c = w.sys.only c := by
  obtain ⟨o, ho, hco⟩ := not_concerns c hL hp
  cases h with
  | closed => exact Sys.only_drop_of_not ho hp hco rfl
  | quiet => rfl
  | unblocked => exact Sys.only_store_of_not hp rfl rfl
  | extended => exact Sys.only_store_of_not hp rfl rfl
  | queued => exact Sys.only_store_of_not hp rfl rfl

end Hwrng

/-! ## The steps of the HWKEY service on the tables -/

namespace Hwkey

/-- Whether an event ends the connection of a client. -/
def Closes (P : HwkeyProto) (U : Uapi) (f : Flags) (a : Answers) (x : HwkeyChanCtx) : Prop :=
  f.hup = true ∨ (f.msg = true ∧ (requestOf P U a.inbound = none ∨ a.send x.chan < 0))

instance (P : HwkeyProto) (U : Uapi) (f : Flags) (a : Answers) (x : HwkeyChanCtx) :
    Decidable (Closes P U f a x) := by
  have hdec : Decidable (requestOf P U a.inbound = none) :=
    decidable_of_iff _ Option.isNone_iff_eq_none
  unfold Closes
  infer_instance

lemma Handled.sys {P : HwkeyProto} {U : Uapi} {unittest : Bool} {a : Answers} {p : Ptr}
    {x : HwkeyChanCtx} {f : Flags} {w w' : World} (h : Handled P U unittest a p x f w w') :
    (Closes P U f a x ∧ w'.sys = w.sys.drop x.chan p) ∨ (¬ Closes P U f a x ∧ w'.sys = w.sys) := by
  cases h with
  | quiet hhup hmsg => exact Or.inr ⟨by simp [Closes, hhup, hmsg], rfl⟩
  | hungUp hhup => exact Or.inl ⟨Or.inl hhup, rfl⟩
  | unreadable _ _ hmsg hreq => exact Or.inl ⟨Or.inr ⟨hmsg, Or.inl hreq⟩, rfl⟩
  | replied hhup _ hreq _ _ hsend =>
    exact Or.inr ⟨by simp [Closes, hhup, hreq, not_lt.mpr hsend], rfl⟩
  | unsent _ hmsg _ _ _ hsend => exact Or.inl ⟨Or.inr ⟨hmsg, Or.inr hsend⟩, rfl⟩

end Hwkey

/-- What an event does to the tables when it is not for the HWRNG service. -/
def hwkeyEffect (K : Config) (e : Event D) (s : Sys) : Sys :=
  match e.cookie with
  | none =>
    if e.flags = {} then s else { s with objs := Function.update s.objs e.handle none }
  | some (.port _) =>
    match e.calloc with
    | some p =>
      if Hwkey.Accepts e.flags e.hwkey then
        s.connect e.accept e.peer p (.hwkey ⟨e.accept, e.peer⟩)
      else s
    | none => s
  | some (.ctx p) =>
    match s.heap p with
    | some (.hwkey x) =>
      if Hwkey.Closes K.proto K.uapi e.flags e.hwkey x then s.drop x.chan p else s
    | _ => s

lemma Dispatched.effect {s s' : App D} {e : Event D} (h : Dispatched K e s s')
    (hfor : ¬ e.ForHwrng s.sys) : s'.sys = hwkeyEffect K e s.sys := by
  cases h with
  | empty hflags =>
    rw [hwkeyEffect]
    rcases e.cookie with _ | _ | p
    · simp [hflags]
    · rcases e.calloc with _ | _
      · rfl
      · simp [Hwkey.Accepts, hflags]
    · rcases hp : s.sys.heap p with _ | _ | x
      · simp [hp]
      · simp [hp]
      · simp [hp, Hwkey.Closes, hflags]
  | hwrngPort hcookie => exact absurd (Or.inl hcookie) hfor
  | hwkeyPort hcookie _ haccepted =>
    simp only [hwkeyEffect, hcookie]
    cases haccepted with
    | quiet hnot =>
      obtain hnot | hcalloc := hnot
      · cases e.calloc with
        | none => rfl
        | some p => exact (if_neg hnot).symm
      · have hcalloc : e.calloc = none := hcalloc
        rw [hcalloc]
        rfl
    | connected hacc hp =>
      have hp : e.calloc = some _ := hp
      rw [hp]
      exact (if_pos hacc).symm
  | hwrngChan _ hcookie hc => exact absurd (Or.inr ⟨_, _, hcookie, hc⟩) hfor
  | @hwkeyChan p x w hcookie hc hchan _ hhandled =>
    simp only [hwkeyEffect, hcookie, hc]
    obtain ⟨hcloses, hsys⟩ | ⟨hcloses, hsys⟩ := hhandled.sys
    · rw [if_pos hcloses]
      exact hsys
    · rw [if_neg hcloses]
      exact hsys
  | noHandler hflags hcookie => simp [hwkeyEffect, hcookie, hflags]

/-! ## The projection of the events -/

/-- The event is for a HWKEY channel: it happens on the channel, it opens the channel, or it
is for a handle without a handler. -/
def Event.isFor (c : Handle) (e : Event D) : Bool :=
  match e.cookie with
  | none => true
  | some (.port srv) => decide (srv = .hwkey) && decide (e.accept = c)
  | some (.ctx _) => decide (e.srv = .hwkey) && decide (e.handle = c)

/-- An event for the channel does to the projection what it does to the tables. -/
lemma only_effect {c : Handle} {e : Event D} {s : Sys} (hfor : e.isFor c = true)
    (hchan : ∀ p x, e.cookie = some (.ctx p) → s.heap p = some x → x.chan = e.handle) :
    (hwkeyEffect K e s).only c = hwkeyEffect K e (s.only c) := by
  rw [hwkeyEffect, hwkeyEffect]
  rcases hcookie : e.cookie with _ | _ | p
  · by_cases hflags : e.flags = {}
    · simp only [if_pos hflags]
    · simp only [if_neg hflags]
      exact Sys.only_closeObj c s e.handle
  · simp only [Event.isFor, hcookie, Bool.and_eq_true, decide_eq_true_eq] at hfor
    rcases e.calloc with _ | p
    · rfl
    · dsimp only
      split
      · rw [hfor.2]
        exact Sys.only_connect s e.peer e.peer p
      · rfl
  · simp only [Event.isFor, hcookie, Bool.and_eq_true, decide_eq_true_eq] at hfor
    rcases hp : s.heap p with _ | x | x
    · simp [Sys.only, hp]
    · simp [Sys.only, hp, Ctx.concerns, Ctx.srv]
    · have hxc : x.chan = c := (hchan p _ hcookie hp).trans hfor.2
      have hp' : (s.only c).heap p = some (.hwkey x) := by
        simp [Sys.only, hp, Ctx.concerns, Ctx.srv, Ctx.chan, hxc]
      simp only [hp, hp']
      split
      · exact Sys.only_drop c s x.chan p
      · rfl

/-- Delivering an event does not show. -/
lemma App.deliver_only (s : App D) (e : Event D) (c : Handle) :
    (s.deliver e).sys.only c = s.sys.only c := by
  rw [App.deliver]
  split
  · exact Sys.only_setOwed c s.sys e.handle false
  · rfl

/-- An event for another channel does not show. -/
lemma Dispatched.only_of_not {c : Handle} {s s' : App D} {e : Event D} (h : Dispatched K e s s')
    (hs : s.Wf) (he : EventOk s e) (hfor : e.isFor c = false) : s'.sys.only c = s.sys.only c := by
  have hL := hs.lifecycle
  cases h with
  | empty => rfl
  | hwrngPort _ haccepted =>
    cases haccepted with
    | quiet => rfl
    | refused => rfl
    | connected haccept hp =>
      exact Sys.only_connect_of_ne (he.accept_fresh haccept) (he.calloc_fresh _ hp) rfl
        (Or.inl (by simp [Ctx.srv])) e.peer
  | hwkeyPort hcookie _ haccepted =>
    have hne : e.accept ≠ c := by simpa [Event.isFor, hcookie] using hfor
    cases haccepted with
    | quiet => rfl
    | connected hacc hp =>
      exact Sys.only_connect_of_ne (he.accept_fresh hacc.2.1) (he.calloc_fresh _ hp) rfl
        (Or.inr hne) e.peer
  | hwrngChan _ _ hc _ _ hhandled hpassed =>
    exact (hpassed.only (hhandled.lifecycle hL hc)).trans (hhandled.only hL hc)
  | @hwkeyChan p x w hcookie hc hchan _ hhandled =>
    obtain ⟨-, hsys⟩ | ⟨-, hsys⟩ := hhandled.sys
    · obtain ⟨o, ho, hctx⟩ := hL.chan_open hc
      obtain ⟨o', ho', -, hsrv'⟩ := he.handle_open
      have ho : s.sys.objs x.chan = some o := ho
      have hoo : o' = o := by
        rw [hchan, ho'] at ho
        exact Option.some.inj ho
      have hsrv : o.srv = .hwkey := hL.ctx_srv _ o p _ ho hctx hc
      have hne : e.handle ≠ c := by
        simp only [Event.isFor, hcookie, hsrv', hoo, hsrv, decide_true, Bool.true_and,
          decide_eq_false_iff_not] at hfor
        exact hfor
      have hisChan : o.isChan = true := (hL.chan_iff _ o ho).mpr (by simp [hctx])
      have hco : o.concerns c x.chan = false := by simp [Obj.concerns, hisChan, hchan, hne]
      have hcx : (Ctx.hwkey x).concerns c = false := by
        simp [Ctx.concerns, Ctx.chan, hchan, hne]
      exact (congrArg (Sys.only c) hsys).trans (Sys.only_drop_of_not ho hc hco hcx)
    · exact congrArg (Sys.only c) hsys
  | noHandler _ hcookie => exact absurd hfor (by simp [Event.isFor, hcookie])

/-- The server as far as it concerns a channel. -/
def Hwkey.Server.only (c : Handle) (v : Hwkey.Server) : Hwkey.Server :=
  { ctxs := fun p => (v.ctxs p).filter fun x => decide (x.chan = c)
    log := v.log.filter fun x => decide (x.chan = c) }

/-- The context an event leads to is the one of its channel. -/
def Hwkey.Server.Fits (v : Hwkey.Server) (e : Event D) : Prop :=
  ∀ p x, e.cookie = some (.ctx p) → v.ctxs p = some x → x.chan = e.handle ∧ e.srv = .hwkey

namespace Hwkey.Server

variable {c : Handle} {v : Hwkey.Server} {e : Event D} {prov : Hwkey.Provision}

lemma portStep_log (f : Flags) (a : Hwkey.Answers) (v : Hwkey.Server) :
    (v.portStep f a).log = v.log := by
  rw [portStep]
  split
  · cases a.calloc <;> rfl
  · rfl

/-- An event for the channel adds to the responses on it what it adds when the channel is
alone. -/
lemma step_only_log (hfor : e.isFor c = true) (hfits : v.Fits e) :
    ((v.only c).step K prov e).log = ((v.step K prov e).only c).log := by
  rw [Server.step, Server.step]
  rcases hcookie : e.cookie with _ | ⟨_ | _⟩ | p
  · rfl
  · rfl
  · simp only [portStep_log, Server.only]
  · simp only [Event.isFor, hcookie, Bool.and_eq_true, decide_eq_true_eq] at hfor
    cases hx : v.ctxs p with
    | none =>
      have hx' : (v.only c).ctxs p = none := by simp [Server.only, hx]
      simp only [hx, hx']
    | some x =>
      have hxc : x.chan = c := (hfits p x hcookie hx).1.trans hfor.2
      have hx' : (v.only c).ctxs p = some x := by simp [Server.only, hx, hxc]
      simp only [hx, hx', chanStep]
      split
      · rfl
      split
      · cases requestOf K.proto K.uapi e.hwkey.inbound with
        | none => rfl
        | some req =>
          dsimp only
          cases hresp : respond K.proto K.unittest prov e.hwkey x req with
          | none => rfl
          | some y =>
            dsimp only
            have hkeep : y.chan = c := (respond_client hresp).1.trans hxc
            split <;> simp [Server.only, Server.drop, hkeep]
      · rfl

/-- An event for another channel adds nothing to the responses on this one. -/
lemma step_log_of_not (hfor : e.isFor c = false) (hfits : v.Fits e) :
    ((v.step K prov e).only c).log = (v.only c).log := by
  rw [Server.step]
  rcases hcookie : e.cookie with _ | ⟨_ | _⟩ | p
  · rfl
  · rfl
  · simp only [Server.only, portStep_log]
  · cases hx : v.ctxs p with
    | none => simp only [hx]
    | some x =>
      obtain ⟨hchan, hsrv⟩ := hfits p x hcookie hx
      have hxc : x.chan ≠ c := by
        simpa [Event.isFor, hcookie, hsrv, ← hchan] using hfor
      simp only [hx, chanStep]
      split
      · rfl
      split
      · cases requestOf K.proto K.uapi e.hwkey.inbound with
        | none => rfl
        | some req =>
          dsimp only
          cases hresp : respond K.proto K.unittest prov e.hwkey x req with
          | none => rfl
          | some y =>
            dsimp only
            have hskip : y.chan ≠ c := fun h => hxc ((respond_client hresp).1.symm.trans h)
            split <;> simp [Server.only, Server.drop, hskip]
      · rfl

end Hwkey.Server

/-- An event for a HWKEY channel is not for the HWRNG service. -/
lemma EventOk.not_forHwrng {c : Handle} {s : App D} {e : Event D} (he : EventOk s e) (hs : s.Wf)
    (hfor : e.isFor c = true) : ¬ e.ForHwrng s.sys := by
  rintro (hcookie | ⟨p, x, hcookie, hx⟩)
  · simp [Event.isFor, hcookie] at hfor
  · simp only [Event.isFor, hcookie, Bool.and_eq_true, decide_eq_true_eq] at hfor
    obtain ⟨o, ho, hcook, hsrv⟩ := he.handle_open
    have hctx : o.ctx = some p := Obj.ctx_eq_some.mpr (hcook ▸ hcookie)
    have hown : o.srv = .hwrng := hs.lifecycle.ctx_srv _ o p _ ho hctx hx
    rw [hfor.1, hown] at hsrv
    exact absurd hsrv (by decide)

namespace Hwkey

/-- The response is the answer to its request: it depends on the request, on the client and on
the data of the provider only. -/
def Answered (K : Config) (prov : Provision) (C : Crypto) (x : Response) : Prop :=
  ∃ uuid, x.peer = some uuid ∧ ∃ hdr,
    answer K.proto K.unittest prov C uuid x.req = some (hdr, x.rspData) ∧
      x.rsp = { hdr with cmd := hdr.cmd ||| K.proto.respBit }

lemma Server.answered_step {C : Crypto} {prov : Provision} {v : Server} {e : Event D}
    (hC : e.crypto = C) (hlog : ∀ x ∈ v.log, Answered K prov C x) :
    ∀ x ∈ (v.step K prov e).log, Answered K prov C x := by
  rw [Server.step]
  rcases e.cookie with _ | ⟨_ | _⟩ | p
  · exact hlog
  · exact hlog
  · simp only [portStep_log]
    exact hlog
  · dsimp only
    rcases v.ctxs p with _ | c
    · exact hlog
    simp only [chanStep]
    split
    · exact hlog
    split
    · rcases requestOf K.proto K.uapi e.hwkey.inbound with _ | req
      · exact hlog
      dsimp only
      rcases hresp : respond K.proto K.unittest prov e.hwkey c req with _ | y
      · exact hlog
      have hnew : ∀ x ∈ y :: v.log, Answered K prov C x := by
        obtain ⟨r, hr, rfl⟩ := Option.map_eq_some_iff.mp hresp
        exact List.forall_mem_cons.mpr ⟨⟨c.uuid, rfl, _, hC ▸ hr, rfl⟩, hlog⟩
      dsimp only
      split
      · exact hnew
      · exact hnew
    · exact hlog

end Hwkey

/-! ## The projection of a run -/

/-- One state is the projection of the other. -/
structure Follows (K : Config) (c : Handle) (s t : App D) : Prop where
  wf : s.Wf ∧ t.Wf
  slots : s.hwkey.keySlots = Hwkey.keys K.proto ∧ t.hwkey.keySlots = Hwkey.keys K.proto
  prov : t.hwkey.prov = s.hwkey.prov
  sys : t.sys = s.sys.only c
  log : t.server.log = (s.server.only c).log

lemma EventOk.fits {s : App D} {e : Event D} (he : EventOk s e) (hs : s.Wf) : s.server.Fits e := by
  intro p x hcookie hx
  rw [App.server_ctxs] at hx
  obtain ⟨o, ho, hcook, hsrv⟩ := he.handle_open
  obtain ⟨y, hy, hchan⟩ := he.ctx_live hs.lifecycle hcookie
  obtain rfl : Ctx.hwkey x = y := Option.some.inj (hx.symm.trans hy)
  have hctx : o.ctx = some p := Obj.ctx_eq_some.mpr (hcook ▸ hcookie)
  exact ⟨hchan, hsrv.trans (hs.lifecycle.ctx_srv _ o p _ ho hctx hx)⟩

namespace Follows

variable {c : Handle} {s t : App D} {e : Event D}

lemma server (h : Follows K c s t) : t.server = s.server.only c := by
  ext1
  · ext1 p
    simp only [App.server, Hwkey.Server.only, h.sys, Sys.only]
    rcases s.sys.heap p with _ | x | x
    · rfl
    · rfl
    · by_cases hx : x.chan = c <;>
        simp [Ctx.concerns, Ctx.srv, Ctx.chan, Ctx.hwkeyCtx, Option.filter, hx]
  · exact h.log

/-- What the kernel promises of an event for the channel it still promises when the channel is
alone. -/
lemma eventOk (h : Follows K c s t) (he : EventOk s e) (hfor : e.isFor c = true) : EventOk t e := by
  have hL := h.wf.1.lifecycle
  refine ⟨?_, ?_, ?_, he.jobs_drawn⟩
  · obtain ⟨o, ho, hcook, hsrv⟩ := he.handle_open
    refine ⟨{ o with owed := false }, ?_, hcook, hsrv⟩
    rw [h.sys]
    refine Sys.only_objs_of_concerns ho ?_
    have hchan := hL.chan_iff _ o ho
    rcases hcookie : e.cookie with _ | srv | p
    · have hport : o.isChan = false := by simpa [Obj.ctx, ← hcook, hcookie] using hchan
      simp [Obj.concerns, hport]
    · have hport : o.isChan = false := by simpa [Obj.ctx, ← hcook, hcookie] using hchan
      simp [Obj.concerns, hport]
    · simp only [Event.isFor, hcookie, Bool.and_eq_true, decide_eq_true_eq] at hfor
      simp [Obj.concerns, ← hsrv, hfor.1, hfor.2]
  · intro haccept
    rw [h.sys]
    simp [Sys.only, he.accept_fresh haccept]
  · intro p hp
    rw [h.sys]
    simp [Sys.only, he.calloc_fresh p hp]

lemma deliver_sys (h : Follows K c s t) : (t.deliver e).sys = (s.deliver e).sys.only c := by
  rw [s.deliver_only e c, App.deliver]
  split
  · exact (congrArg (Sys.setOwed · e.handle false) h.sys).trans (Sys.setOwed_only c s.sys e.handle)
  · exact h.sys

/-- An event for the channel is served when the channel is alone too. -/
lemma pass {s' : App D} (h : Follows K c s t) (he : EventOk s e) (hs' : step K s e = .ok s')
    (hfor : e.isFor c = true) :
    ∃ t', EventOk t e ∧ step K t e = .ok t' ∧ Follows K c s' t' := by
  obtain ⟨hs, ht⟩ := h.wf
  obtain ⟨hslots, hslots'⟩ := h.slots
  have he' := h.eventOk he hfor
  have hd := step_ok hs he hs'
  have hnot := he.deliver.not_forHwrng (hs.deliver e) hfor
  have hnot' := he'.deliver.not_forHwrng (ht.deliver e) hfor
  have hanswered : ¬ t.server.Unanswered K t.hwkey.prov e := by
    rintro ⟨p, x, req, hcookie, hx, hrest⟩
    rw [h.server] at hx
    rw [h.prov] at hrest
    exact step_answers hs he hslots hs'
      ⟨p, x, req, hcookie, (Option.filter_eq_some_iff.mp hx).1, hrest⟩
  obtain ⟨t', ht'⟩ := step_total ht he' hslots' hnot' (hd.healthy hnot) hanswered
  have hd' := step_ok ht he' ht'
  obtain ⟨hstatic, hprov⟩ := step_static hs he hs'
  obtain ⟨hstatic', hprov'⟩ := step_static ht he' ht'
  refine ⟨t', he', ht', ⟨hd.wf (hs.deliver e) he.deliver, hd'.wf (ht.deliver e) he'.deliver⟩,
    ⟨hstatic.trans hslots, hstatic'.trans hslots'⟩, ?_, ?_, ?_⟩
  · rw [hprov, hprov', h.prov]
  · have hchan : ∀ p x, e.cookie = some (.ctx p) → (s.deliver e).sys.heap p = some x →
        x.chan = e.handle := by
      intro p x hcookie hx
      obtain ⟨y, hy, hchan⟩ := he.deliver.ctx_live (hs.deliver e).lifecycle hcookie
      rw [Option.some.inj (hx.symm.trans hy), hchan]
    rw [hd'.effect hnot', hd.effect hnot, h.deliver_sys, only_effect hfor hchan]
  · rw [step_server hs he hslots hs', step_server ht he' hslots' ht', h.server, h.prov]
    exact Hwkey.Server.step_only_log hfor (he.fits hs)

/-- An event for another channel changes nothing for this one. -/
lemma drop {s' : App D} (h : Follows K c s t) (he : EventOk s e) (hs' : step K s e = .ok s')
    (hfor : e.isFor c = false) : Follows K c s' t := by
  obtain ⟨hs, ht⟩ := h.wf
  obtain ⟨hslots, hslots'⟩ := h.slots
  have hd := step_ok hs he hs'
  obtain ⟨hstatic, hprov⟩ := step_static hs he hs'
  refine ⟨⟨hd.wf (hs.deliver e) he.deliver, ht⟩, ⟨hstatic.trans hslots, hslots'⟩, ?_, ?_, ?_⟩
  · rw [hprov, h.prov]
  · rw [hd.only_of_not (hs.deliver e) he.deliver hfor, s.deliver_only e c, h.sys]
  · rw [step_server hs he hslots hs', Hwkey.Server.step_log_of_not hfor (he.fits hs), h.log]

end Follows

/-- At the start nobody is connected, and the projection changes nothing. -/
lemma Ipc.Sys.PortsOnly.only {s : Sys} (hs : s.PortsOnly) (hheap : ∀ p, s.heap p = none)
    (c : Handle) : s.only c = s := by
  refine Sys.ext_tables (fun h => ?_) fun p => ?_
  · rcases ho : s.objs h with _ | o
    · simp [Sys.only, ho]
    · obtain ⟨hchan, howed⟩ := hs h o ho
      have hc : o.concerns c h = true := by simp [Obj.concerns, hchan]
      rw [Sys.only_objs_of_concerns ho hc, ← howed]
  · simp [Sys.only, hheap p]

/-- Every response is the answer to its request, whatever was served before. -/
lemma answered_of_run {C : Hwkey.Crypto} {s₀ s : App D} {es : List (Event D)}
    (h₀ : (app D K).init s₀) (hslots : s₀.hwkey.keySlots = Hwkey.keys K.proto)
    (hrun : (app D K).Run s₀ es s) (hC : ∀ e ∈ es, e.crypto = C) :
    ∀ x ∈ s.server.log, Hwkey.Answered K s₀.hwkey.prov C x := by
  obtain ⟨b, hb⟩ := h₀
  obtain ⟨-, -, -, -, -, hnil, -⟩ := boot_cases hb
  let I : App D → Prop := fun s => s.Wf ∧ s.hwkey.keySlots = Hwkey.keys K.proto ∧
    s.hwkey.prov = s₀.hwkey.prov ∧ ∀ x ∈ s.server.log, Hwkey.Answered K s₀.hwkey.prov C x
  have hI₀ : I s₀ := by
    refine ⟨boot_wf hb, hslots, rfl, fun x hx => ?_⟩
    simp [App.server, hnil] at hx
  have hall : (app D K).Along s₀ es fun _ e _ => e.crypto = C := by
    intro before e after hes _ _ _ _ _
    exact hC e (by simp [hes])
  have hI : I s := by
    refine hrun.invariant_of_along I hall hI₀ ?_
    rintro t e u ⟨ht, hslots, hprov, hlog⟩ he hstep hCe
    obtain ⟨hslots', hprov'⟩ := step_static ht he hstep
    refine ⟨(step_ok ht he hstep).wf (ht.deliver e) he.deliver, hslots'.trans hslots,
      hprov'.trans hprov, ?_⟩
    rw [step_server ht he hslots hstep, hprov]
    exact Hwkey.Server.answered_step hCe hlog
  exact hI.2.2.2

/-- Every response on a channel is the answer to its own request, whatever other requests were
served before it; and the responses on a channel are those it is sent when its own events alone
are served from the start. -/
theorem client_isolation {C : Hwkey.Crypto} {s₀ s : App D} {es : List (Event D)}
    (h₀ : (app D K).init s₀) (hslots : s₀.hwkey.keySlots = Hwkey.keys K.proto)
    (hrun : (app D K).Run s₀ es s) (hC : ∀ e ∈ es, e.crypto = C) :
    (∀ x ∈ s.server.log, Hwkey.Answered K s₀.hwkey.prov C x) ∧
    ∀ c, ∃ t, (app D K).Run s₀ (es.filter (Event.isFor c)) t ∧
      t.server.log = s.server.log.filter (fun x => x.chan = c) := by
  refine ⟨answered_of_run h₀ hslots hrun hC, fun c => ?_⟩
  obtain ⟨b, hb⟩ := h₀
  obtain ⟨-, hheap, -, -, -, hlog, hports⟩ := boot_cases hb
  have hstart : Follows K c s₀ s₀ := by
    refine ⟨⟨boot_wf hb, boot_wf hb⟩, ⟨hslots, hslots⟩, rfl, (hports.only hheap c).symm, ?_⟩
    simp only [Hwkey.Server.only, App.server, hlog]
    rfl
  obtain ⟨t, ht, hfollows⟩ : ∃ t, (app D K).Run s₀
      (es.filterMap (Option.guard (Event.isFor c))) t ∧ Follows K c s t :=
    hrun.replay (Follows K c) (Option.guard (Event.isFor c))
    (fun s t e g s' h he hs' hg => by
      obtain ⟨rfl, hfor⟩ := Option.guard_eq_some_iff.mp hg
      exact h.pass he hs' hfor)
    (fun s t e s' h he hs' hg => h.drop he hs' (by simpa using hg)) hstart
  rw [List.filterMap_eq_filter] at ht
  exact ⟨t, ht, hfollows.log⟩

theorem client_isolation_arrivals :
    ∃ s, (app Demo.dev Demo.config).Run (Demo.provisioned (List.replicate 80 9)) Demo.arrivals s ∧
      s.server.log.map Hwkey.Response.chan = [6, 5] ∧
      (∀ x ∈ s.server.log, Hwkey.Answered Demo.config
        (Demo.provisioned (List.replicate 80 9)).hwkey.prov Demo.crypto x) ∧
      ∀ c, ∃ t, (app Demo.dev Demo.config).Run (Demo.provisioned (List.replicate 80 9))
          (Demo.arrivals.filter (Event.isFor c)) t ∧
        t.server.log = s.server.log.filter (fun x => x.chan = c) := by
  obtain ⟨s, hs, hserver⟩ := Demo.run_arrivals (List.replicate 80 9)
  have hcrypto : ∀ e ∈ Demo.arrivals, e.crypto = Demo.crypto := by
    simp [Demo.arrivals, Demo.connect, Demo.askKey, Demo.askDerived, Demo.message]
  obtain ⟨hanswered, halone⟩ := client_isolation (Demo.init_provisioned _) rfl hs hcrypto
  refine ⟨s, hs, ?_, hanswered, halone⟩
  rw [hserver]
  rfl

end TrustyLkNxp
