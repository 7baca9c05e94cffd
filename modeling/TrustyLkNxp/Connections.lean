import TrustyLkNxp.Hwrng.Refinement

/-!
# How long a client stays connected

A client is connected from when its channel is accepted.  This file works out when the
application closes the channel: over every run, a client stays connected until an event gives
a reason to end the connection, and the first that does ends it.
-/

namespace TrustyLkNxp

open Ipc EventSystem Rounds

/-- A channel with a client. -/
structure Connection where
  chan : Handle
  srv : Service
  peer : Uuid
  ctx : Ptr

namespace Connection

/-- The channel is open, it is the client's, and its cookie leads to the context. -/
def Open (k : Connection) (s : Sys) : Prop :=
  ∃ owed, s.objs k.chan = some ⟨true, k.srv, k.peer, some (.ctx k.ctx), owed⟩

variable {k : Connection} {s s' : Sys}

lemma Open.congr (h : k.Open s) (hobjs : s'.objs k.chan = s.objs k.chan) : k.Open s' := by
  obtain ⟨owed, ho⟩ := h
  exact ⟨owed, hobjs.trans ho⟩

lemma Open.setOwed (h : k.Open s) (j : Handle) (b : Bool) : k.Open (s.setOwed j b) := by
  obtain ⟨owed, ho⟩ := h
  rcases eq_or_ne k.chan j with rfl | hne
  · exact ⟨b, by simp [Sys.setOwed, ho]⟩
  · exact ⟨owed, by simpa [Sys.setOwed, hne] using ho⟩

lemma Open.update (h : k.Open s) {j : Handle} (hne : k.chan ≠ j) (o : Option Obj) :
    k.Open { s with objs := Function.update s.objs j o } :=
  h.congr (Function.update_of_ne hne _ _)

/-- The context of a connection. -/
lemma Open.ctx_live (h : k.Open s) {l : List Ptr} (hL : Lifecycle s l) :
    ∃ c, s.heap k.ctx = some c ∧ c.chan = k.chan ∧ c.srv = k.srv := by
  obtain ⟨owed, ho⟩ := h
  obtain ⟨c, hc, hchan⟩ := hL.linked.forth _ _ k.ctx ho (Obj.ctx_eq_some.mpr rfl)
  exact ⟨c, hc, hchan, (hL.ctx_srv _ _ _ c ho (Obj.ctx_eq_some.mpr rfl) hc).symm⟩

/-- A context on the channel of a connection is the one of the connection. -/
lemma Open.srv_of_chan (h : k.Open s) {l : List Ptr} (hL : Lifecycle s l) {p : Ptr} {c : Ctx}
    (hc : s.heap p = some c) (hchan : c.chan = k.chan) : k.srv = c.srv := by
  obtain ⟨d, hd, hdchan, hsrv⟩ := h.ctx_live hL
  obtain rfl := hL.chan_injective hc hd (hchan.trans hdchan.symm)
  rw [← hsrv, Option.some.inj (hc.symm.trans hd)]

end Connection

/-! ## A connection in a pass over the queue -/

namespace Hwrng

variable {D : RngDev} {U : Uapi} {send : Handle → ℤ} {k : Connection} {w w' : World D}

lemma Served.connection {p : Ptr} {c : HwrngChanCtx} {more : Bool}
    (h : Served U send p c w w' more) (hk : k.Open w.sys) :
    w'.sys.objs k.chan = none ∨ k.Open w'.sys := by
  by_cases hchan : k.chan = c.chan
  swap
  · exact Or.inr (hk.congr (h.frame_chan hchan))
  cases h with
  | skipped => exact Or.inr hk
  | blocked => exact Or.inr (hk.setOwed c.chan true)
  | drained => exact Or.inr hk
  | partly => exact Or.inr hk
  | failed =>
    left
    rw [hchan]
    exact Function.update_self _ _ _

lemma Served.objs_none {p : Ptr} {c : HwrngChanCtx} {more : Bool} {h : Handle}
    (hserved : Served U send p c w w' more) (hnone : w.sys.objs h = none) :
    w'.sys.objs h = none := by
  by_cases hchan : h = c.chan
  swap
  · exact (hserved.frame_chan hchan).trans hnone
  subst hchan
  cases hserved with
  | skipped => exact hnone
  | drained => exact hnone
  | partly => exact hnone
  | blocked => simp [Sys.store, Sys.setOwed, hnone]
  | failed => exact Function.update_self _ _ _

lemma Passed.objs_none {ps : List Ptr} {h : Handle} (hpassed : Passed U send ps w w')
    (hnone : w.sys.objs h = none) : w'.sys.objs h = none := by
  induction hpassed with
  | nil => exact hnone
  | cons _ _ hserved _ ih => exact ih (hserved.objs_none hnone)

/-- A pass closes a channel or leaves it to its client. -/
lemma Passed.connection {ps : List Ptr} (h : Passed U send ps w w') (hk : k.Open w.sys) :
    w'.sys.objs k.chan = none ∨ k.Open w'.sys := by
  induction h with
  | nil => exact Or.inr hk
  | cons _ _ hserved hpassed ih =>
    obtain hnone | hk' := hserved.connection hk
    · exact Or.inl (hpassed.objs_none hnone)
    · exact ih hk'

lemma outcome_live_eq_none {c : HwrngChanCtx} :
    (outcome U send c).live = none ↔
      c.sendBlocked = false ∧ verdict U (send c.chan) = .lost := by
  have hneg := U.errNotEnoughBuffer_neg
  cases hb : c.sendBlocked with
  | true => simp [outcome_of_blocked hb, Outcome.live]
  | false =>
    by_cases hrc : 0 ≤ send c.chan
    · rw [outcome_of_sent hb hrc, verdict, if_pos hrc]
      split_ifs <;> simp [Outcome.live]
    · by_cases hfull : send c.chan = U.errNotEnoughBuffer
      · simp [outcome_of_full hb hfull, verdict, if_neg hrc, if_pos hfull, Outcome.live]
      · simp [outcome_of_failed hb (by omega) hfull, verdict, if_neg hrc, if_neg hfull,
          Outcome.live]

/-- Whether the client on a channel is sent a message in the next round. -/
def World.Due (w : World D) (h : Handle) : Prop :=
  ∃ x ∈ w.queue, x.2.chan = h ∧ x.2.sendBlocked = false

/-- A pass ends the connections of the clients that are sent a message and are lost. -/
lemma Passed.connection_cases (h : Passed U send w.reqList w w') (hL : Lifecycle w.sys w.reqList)
    (hk : k.Open w.sys) :
    (w.Due k.chan ∧ verdict U (send k.chan) = .lost ∧ w'.sys.objs k.chan = none) ∨
      (¬ (w.Due k.chan ∧ verdict U (send k.chan) = .lost) ∧ k.Open w'.sys) := by
  obtain ⟨more, hpassed⟩ := h.passedOver hL hL.list_nodup
  have hserved := hpassed.queueServed hL (h.lifecycle hL)
  by_cases hend : w.Due k.chan ∧ verdict U (send k.chan) = .lost
  · obtain ⟨⟨x, hx, hchan, hb⟩, hlost⟩ := hend
    refine Or.inl ⟨⟨x, hx, hchan, hb⟩, hlost, ?_⟩
    have hlive := (hserved.fate x hx).2
    rw [outcome_live_eq_none.mpr ⟨hb, hchan ▸ hlost⟩, hchan] at hlive
    simpa using hlive
  · refine Or.inr ⟨hend, (h.connection hk).resolve_left ?_⟩
    intro hnone
    by_cases hx : ∃ x ∈ w.queue, x.2.chan = k.chan
    · obtain ⟨x, hx, hchan⟩ := hx
      have hlive := (hserved.fate x hx).2
      rw [hchan, hnone] at hlive
      obtain ⟨hb, hlost⟩ := outcome_live_eq_none.mp (by simpa using hlive.symm)
      exact hend ⟨⟨x, hx, hchan, hb⟩, hchan ▸ hlost⟩
    · -- the pass does not get to the channel
      obtain ⟨owed, ho⟩ := hk
      have hsame := hserved.objs k.chan fun x hxq hchan => hx ⟨x, hxq, hchan⟩
      exact absurd (hnone.symm.trans (hsame.trans ho)) (by simp)

/-- What the handler of a channel does to the channels before it kicks the queue. -/
lemma Handled.objs {f : Flags} {m : Inbound} {p : Ptr} {c : HwrngChanCtx}
    (h : Handled U f m p c w w') :
    ((notice U c.chan f m).leaves = true ∧
        w'.sys.objs = Function.update w.sys.objs c.chan none) ∨
      ((notice U c.chan f m).leaves = false ∧ w'.sys.objs = w.sys.objs) := by
  cases h with
  | closed hf hreq =>
    refine Or.inl ⟨?_, rfl⟩
    rcases hf with hf | hf <;> simp [notice, hf, hreq]
  | quiet hhup hmsg => exact Or.inr ⟨by simp [notice, hhup, hmsg], rfl⟩
  | unblocked hhup hmsg => exact Or.inr ⟨by simp [notice, hhup, hmsg], rfl⟩
  | extended hreq => exact Or.inr ⟨by simp [notice, hup_of_requestOf hreq, hreq], rfl⟩
  | queued hreq => exact Or.inr ⟨by simp [notice, hup_of_requestOf hreq, hreq], rfl⟩

end Hwrng

/-- What the handler of a HWKEY channel does to the channels. -/
lemma Hwkey.Handled.objs {P : Hwkey.HwkeyProto} {U : Uapi} {unittest : Bool} {a : Hwkey.Answers}
    {p : Ptr} {c : HwkeyChanCtx} {f : Flags} {w w' : Hwkey.World}
    (h : Hwkey.Handled P U unittest a p c f w w') :
    ((f.hup = true ∨ f.msg = true ∧
        (Hwkey.requestOf P U a.inbound = none ∨ a.send c.chan < 0)) ∧
        w'.sys.objs = Function.update w.sys.objs c.chan none) ∨
      (¬ (f.hup = true ∨ f.msg = true ∧
        (Hwkey.requestOf P U a.inbound = none ∨ a.send c.chan < 0)) ∧
        w'.sys.objs = w.sys.objs) := by
  cases h with
  | quiet hhup hmsg => exact Or.inr ⟨by simp [hhup, hmsg], rfl⟩
  | hungUp hhup => exact Or.inl ⟨Or.inl hhup, rfl⟩
  | unreadable _ _ hmsg hreq => exact Or.inl ⟨Or.inr ⟨hmsg, Or.inl hreq⟩, rfl⟩
  | unsent _ hmsg _ _ _ hsend => exact Or.inl ⟨Or.inr ⟨hmsg, Or.inr hsend⟩, rfl⟩
  | replied hhup _ hreq _ _ hsend => exact Or.inr ⟨by simp [hhup, hreq, hsend], rfl⟩

/-! ## The reasons to end a connection -/

variable {D : Hwrng.RngDev} {K : Config} {k : Connection}

/-- An event is the reason to end a connection: the client hangs up, or its message cannot be
received, or it cannot be sent what it is due. A client of the HWKEY service is due the response
to a request, one of the HWRNG service the message of the round after any event for one. -/
def Event.Ends (K : Config) (s : App D) (e : Event D) (k : Connection) : Prop :=
  match k.srv with
  | .hwrng => ∃ i, e.told K = some i ∧
      ((i.1.client = k.chan ∧ i.1.leaves = true) ∨
        (∃ x ∈ ((s.rounds K.uapi).hear Hwrng.rule i.1).queue,
          x.client = k.chan ∧ x.blocked = false) ∧ i.2 k.chan = .lost)
  | .hwkey => e.handle = k.chan ∧ (e.flags.hup = true ∨
      e.flags.msg = true ∧ (Hwkey.requestOf K.proto K.uapi e.inbound = none ∨ e.send k.chan < 0))

lemma Event.ends_hwrng {s : App D} {e : Event D} {chan : Handle} {peer : Uuid} {ctx : Ptr} :
    e.Ends K s ⟨chan, .hwrng, peer, ctx⟩ ↔ ∃ i, e.told K = some i ∧
      ((i.1.client = chan ∧ i.1.leaves = true) ∨
        (∃ x ∈ ((s.rounds K.uapi).hear Hwrng.rule i.1).queue,
          x.client = chan ∧ x.blocked = false) ∧ i.2 chan = .lost) := Iff.rfl

lemma Event.ends_hwkey {s : App D} {e : Event D} {chan : Handle} {peer : Uuid} {ctx : Ptr} :
    e.Ends K s ⟨chan, .hwkey, peer, ctx⟩ ↔ e.handle = chan ∧ (e.flags.hup = true ∨
      e.flags.msg = true ∧ (Hwkey.requestOf K.proto K.uapi e.inbound = none ∨ e.send chan < 0)) :=
  Iff.rfl

lemma Connection.Open.deliver {s : App D} (hk : k.Open s.sys) (e : Event D) :
    k.Open (s.deliver e).sys := by
  rw [App.deliver]
  split
  · exact hk.setOwed _ _
  · exact hk

/-- An event for a client of the HWRNG service. -/
lemma Dispatched.connection_of_hwrngChan {s s' : App D} {e : Event D}
    (h : Dispatched K e (s.deliver e) s') (hs : s.Wf) (he : EventOk s e)
    (hfor : ForHwrngChan s e) (hk : k.Open s.sys) :
    (e.Ends K s k ∧ s'.sys.objs k.chan = none) ∨ (¬ e.Ends K s k ∧ k.Open s'.sys) := by
  have htold := Event.told_eq_some (K := K) hs he hfor
  obtain ⟨p, c, w₁, w₂, rfl, -, hc, hchan, hhandled, hpassed⟩ := h.of_hwrngChan hfor
  have hL := (hs.deliver e).lifecycle
  have hk := hk.deliver e
  have hL₁ := hhandled.lifecycle hL hc
  have hheard := hhandled.service hL hc
  have hobjs := hhandled.objs
  rw [hchan] at hheard hobjs
  -- only the handle of the event is touched before the pass
  have hother : ∀ j, j ≠ e.handle → w₁.sys.objs j = (s.deliver e).sys.objs j :=
    fun j hj => hhandled.frame_chan (hchan ▸ hj)
  obtain ⟨chan, srv, peer, ctx⟩ := k
  cases srv with
  | hwkey =>
    have hne : chan ≠ e.handle := by
      rintro rfl
      exact absurd (hk.srv_of_chan hL hc hchan) (by simp [Ctx.srv])
    refine Or.inr ⟨fun hends => hne (Event.ends_hwkey.mp hends).1.symm, ?_⟩
    have hk₁ : Connection.Open ⟨chan, .hwkey, peer, ctx⟩ w₁.sys := hk.congr (hother chan hne)
    obtain ⟨⟨⟨q, d⟩, hx, hdchan, -⟩, -, -⟩ | ⟨-, hk₂⟩ := hpassed.connection_cases hL₁ hk₁
    · -- a channel of the other service is not in the queue
      have hd := Hwrng.World.ctx_eq_some.mp (Hwrng.World.mem_ctxs.mp hx).2
      exact absurd (hk₁.srv_of_chan hL₁ hd hdchan) (by simp [Ctx.srv])
    · exact hk₂
  | hwrng =>
    have hends : e.Ends K s ⟨chan, .hwrng, peer, ctx⟩ ↔ (e.handle = chan ∧
        (Hwrng.notice K.uapi e.handle e.flags e.inbound).leaves = true) ∨
          w₁.Due chan ∧ Hwrng.verdict K.uapi (e.send chan) = .lost := by
      have hqueue : (((s.rounds K.uapi).hear Hwrng.rule
          (Hwrng.notice K.uapi e.handle e.flags e.inbound)).queue) =
            (w₁.service K.uapi).queue := by
        rw [hheard, ← s.deliver_rounds K.uapi e]
        rfl
      rw [Event.ends_hwrng, htold]
      simp only [Option.some.injEq, exists_eq_left', hqueue]
      refine or_congr Iff.rfl (and_congr_left' ?_)
      simp [Hwrng.World.Due, Hwrng.World.service, Hwrng.waits]
    rw [hends]
    by_cases hleaves : e.handle = chan ∧
        (Hwrng.notice K.uapi e.handle e.flags e.inbound).leaves = true
    · refine Or.inl ⟨Or.inl hleaves, hpassed.objs_none ?_⟩
      obtain ⟨-, hclosed⟩ | ⟨hstays, -⟩ := hobjs
      · rw [hclosed, hleaves.1]
        exact Function.update_self _ _ _
      · exact absurd (hstays.symm.trans hleaves.2) (by decide)
    have hk₁ : Connection.Open ⟨chan, .hwrng, peer, ctx⟩ w₁.sys := by
      obtain ⟨hclosed, -⟩ | ⟨-, hsame⟩ := hobjs
      · exact hk.congr (hother chan fun heq => hleaves ⟨heq.symm, hclosed⟩)
      · exact hk.congr (congrFun hsame chan)
    obtain ⟨hdue, hlost, hnone⟩ | ⟨hnot, hk₂⟩ := hpassed.connection_cases hL₁ hk₁
    · exact Or.inl ⟨Or.inr ⟨hdue, hlost⟩, hnone⟩
    · exact Or.inr ⟨not_or.mpr ⟨hleaves, hnot⟩, hk₂⟩

/-- Connecting another client leaves a connection alone. -/
lemma Connection.Open.connect {s : Sys} (hk : k.Open s) {h : Handle} (hfresh : s.objs h = none)
    (peer : Uuid) (p : Ptr) (c : Ctx) : k.Open (s.connect h peer p c) := by
  refine hk.congr (Function.update_of_ne ?_ _ _)
  rintro rfl
  obtain ⟨owed, ho⟩ := hk
  exact absurd (hfresh.symm.trans ho) (by simp)

/-- An event for a client of the HWKEY service, or for none. -/
lemma Dispatched.connection_of_other {s s' : App D} {e : Event D}
    (h : Dispatched K e (s.deliver e) s') (hs : s.Wf) (he : EventOk s e)
    (hfor : ¬ ForHwrngChan s e) (hk : k.Open s.sys) :
    (e.Ends K s k ∧ s'.sys.objs k.chan = none) ∨ (¬ e.Ends K s k ∧ k.Open s'.sys) := by
  have htold := Event.told_eq_none (K := K) hs he hfor
  have hcookie : e.handle = k.chan → e.cookie = some (.ctx k.ctx) := by
    intro heq
    obtain ⟨owed, ho⟩ := hk
    obtain ⟨o, ho', hcook, -⟩ := he.handle_open
    rw [heq, ho] at ho'
    rw [hcook, ← Option.some.inj ho']
  -- without a request of its own the connection does not end
  have hnot : (e.handle = k.chan → e.flags.hup = false ∧ e.flags.msg = false) →
      ¬ e.Ends K s k := by
    intro hquiet hends
    obtain ⟨chan, srv, peer, ctx⟩ := k
    cases srv with
    | hwrng =>
      obtain ⟨i, hi, -⟩ := Event.ends_hwrng.mp hends
      exact absurd (htold.symm.trans hi) (by simp)
    | hwkey =>
      obtain ⟨heq, hreason⟩ := Event.ends_hwkey.mp hends
      obtain ⟨hhup, hmsg⟩ := hquiet heq
      simp [hhup, hmsg] at hreason
  have hkd := hk.deliver e
  have hfresh := he.deliver.accept_fresh
  cases h with
  | empty hflags => exact Or.inr ⟨hnot fun _ => by simp [hflags], hkd⟩
  | hwrngPort hport haccepted =>
    refine Or.inr ⟨hnot fun heq => absurd ((hcookie heq).symm.trans hport) (by simp), ?_⟩
    cases haccepted with
    | quiet => exact hkd
    | refused => exact hkd
    | connected haccept => exact hkd.connect (hfresh haccept) _ _ _
  | hwkeyPort hport _ haccepted =>
    refine Or.inr ⟨hnot fun heq => absurd ((hcookie heq).symm.trans hport) (by simp), ?_⟩
    cases haccepted with
    | quiet => exact hkd
    | connected haccepts => exact hkd.connect (hfresh haccepts.2.1) _ _ _
  | hwrngChan hflags hctx hc =>
    rw [App.deliver_heap] at hc
    exact absurd ⟨hflags, _, _, hctx, hc⟩ hfor
  | noHandler _ hnone =>
    have hne : k.chan ≠ e.handle := by
      intro heq
      exact absurd ((hcookie heq.symm).symm.trans hnone) (by simp)
    exact Or.inr ⟨hnot fun heq => absurd heq.symm hne, hkd.update hne none⟩
  | hwkeyChan hctx hc hchan _ hhandled =>
    have hobjs := hhandled.objs
    rw [hchan] at hobjs
    by_cases hown : k.chan = e.handle
    · have hsrv : k.srv = .hwkey :=
        hkd.srv_of_chan (hs.deliver e).lifecycle hc (hchan.trans hown.symm)
      obtain ⟨chan, srv, peer, ctx⟩ := k
      obtain rfl : chan = e.handle := hown
      obtain rfl : srv = .hwkey := hsrv
      obtain ⟨hreason, hclosed⟩ | ⟨hstays, hsame⟩ := hobjs
      · refine Or.inl ⟨Event.ends_hwkey.mpr ⟨rfl, hreason⟩, ?_⟩
        exact (congrFun hclosed _).trans (Function.update_self _ _ _)
      · refine Or.inr ⟨fun hends => hstays (Event.ends_hwkey.mp hends).2, ?_⟩
        exact hkd.congr (congrFun hsame _)
    · refine Or.inr ⟨hnot fun heq => absurd heq.symm hown, ?_⟩
      obtain ⟨-, hclosed⟩ | ⟨-, hsame⟩ := hobjs
      · exact hkd.congr ((congrFun hclosed _).trans (Function.update_of_ne hown _ _))
      · exact hkd.congr (congrFun hsame _)

/-! ## Runs -/

lemma connection_step {s t : App D} {e : Event D} (hs : s.Wf) (he : EventOk s e)
    (hstep : step K s e = .ok t) (hk : k.Open s.sys) :
    (e.Ends K s k ∧ t.sys.objs k.chan = none) ∨ (¬ e.Ends K s k ∧ k.Open t.sys) := by
  have hd := step_ok hs he hstep
  by_cases hfor : ForHwrngChan s e
  · exact hd.connection_of_hwrngChan hs he hfor hk
  · exact hd.connection_of_other hs he hfor hk

lemma open_iff_of_step {s t : App D} {e : Event D} (hs : s.Wf) (he : EventOk s e)
    (hstep : step K s e = .ok t) (hk : k.Open s.sys) : k.Open t.sys ↔ ¬ e.Ends K s k := by
  obtain ⟨hends, hnone⟩ | ⟨hnot, hk'⟩ := connection_step hs he hstep hk
  · refine iff_of_false ?_ (not_not.mpr hends)
    rintro ⟨owed, ho⟩
    exact absurd (hnone.symm.trans ho) (by simp)
  · exact iff_of_true hk' hnot

/-- From any state on in which a client is connected, it stays connected, on its channel and with
its context, exactly as long as no event is a reason to end the connection; and the first that
is one closes the channel. -/
theorem connected_iff {s : App D} (hs : (app D K).Reachable s) (hk : k.Open s.sys)
    (es : List (Event D)) :
    ((app D K).Along s es (fun _ _ t => k.Open t.sys) ↔
      (app D K).Along s es fun t e _ => ¬ e.Ends K t k) ∧
    (app D K).Along s es fun t e u =>
      k.Open t.sys → e.Ends K t k → u.sys.objs k.chan = none := by
  have hwf : ∀ before t, (app D K).Run s before t → t.Wf := by
    obtain ⟨s₀, fs, h₀, hrun⟩ := hs
    exact fun before t hr => wf_of_reachable ⟨s₀, _, h₀, hrun.trans hr⟩
  constructor
  · refine System.Along.iff_of_step (I := fun t : App D => k.Open t.sys) hk ?_
    exact fun before t e u hr hkt he hstep => open_iff_of_step (hwf before t hr) he hstep hkt
  · intro before e after _ t u hr he hstep hkt hends
    obtain ⟨-, hnone⟩ | ⟨hnot, -⟩ := connection_step (hwf before t hr) he hstep hkt
    · exact hnone
    · exact absurd hends hnot

namespace Demo

/-- The client on channel 5. -/
def client : Connection := ⟨5, .hwrng, 0, 0⟩

end Demo

/-- Asking for random bytes is no reason to end the connection. -/
theorem connected_iff_askMuch :
    (app Demo.dev Demo.config).Along Demo.connected [Demo.askMuch] fun _ _ t =>
      Demo.client.Open t.sys := by
  refine (connected_iff Demo.reachable_connected ⟨false, rfl⟩ _).1.mpr ?_
  intro before e after hes t u hr _ _ hends
  obtain ⟨rfl, rfl, -⟩ : before = [] ∧ Demo.askMuch = e ∧ after = [] := by
    cases before with
    | nil => simpa [eq_comm] using hes
    | cons => simp at hes
  obtain ⟨i, hi, hreason⟩ := Event.ends_hwrng.mp hends
  obtain rfl := Option.some.inj hi
  obtain ⟨-, hleaves⟩ | ⟨-, hlost⟩ := hreason
  · exact absurd hleaves (by decide)
  · exact absurd hlost (by decide)

end TrustyLkNxp
