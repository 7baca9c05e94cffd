import TrustyLkNxp.Hwrng.Refinement

/-!
# What a client of the HWRNG service gets

The service is one in rounds, so what happens to a client follows from what it says, from what
comes of its messages and from how many rounds there are.  This file reads off how soon a client
is served, what it gets when there is no room for its messages, and what the other clients
have to do with it.
-/

namespace TrustyLkNxp

open Ipc EventSystem Rounds

variable {D : Hwrng.RngDev} {K : Config}

/-! ## How soon a client is served -/

/-- The history of the service only grows. -/
lemma Dispatched.rngLog_suffix {s s' : App D} {e : Event D}
    (h : Dispatched K e (s.deliver e) s') (hs : s.Wf) (he : EventOk s e) :
    s.rngLog <:+ s'.rngLog := by
  by_cases hfor : ForHwrngChan s e
  · obtain ⟨p, c, w₁, w₂, rfl, -, hc, -, hhandled, hpassed⟩ := h.of_hwrngChan hfor
    have hL₁ := hhandled.lifecycle (hs.deliver e).lifecycle hc
    have hfirst : s.rngLog <:+ w₁.log := by
      rw [← s.deliver_rngLog e]
      cases hhandled with
      | closed => exact List.suffix_rfl
      | quiet => exact List.suffix_rfl
      | unblocked => exact List.suffix_rfl
      | extended => exact List.suffix_cons _ _
      | queued => exact List.suffix_cons _ _
    obtain ⟨more, hover⟩ := hpassed.passedOver hL₁ hL₁.list_nodup
    obtain ⟨acts, hlog, -⟩ := hover.sent
    exact hfirst.trans ⟨acts, hlog.symm⟩
  · obtain ⟨-, ⟨hlog, -⟩ | ⟨k, -, hlog, -⟩⟩ := h.frame_hwrng hs he hfor
    · exact ⟨[], hlog.symm⟩
    · exact ⟨[.opened k], hlog.symm⟩

lemma rngLog_suffix {s t : App D} (hs : s.Wf) {es : List (Event D)}
    (h : (app D K).Run s es t) : t.Wf ∧ s.rngLog <:+ t.rngLog := by
  refine h.invariant (fun t => t.Wf ∧ s.rngLog <:+ t.rngLog) ?_ ⟨hs, List.suffix_rfl⟩
  rintro t e u ⟨hwf, hsuf⟩ he hok
  have hd := step_ok hwf he hok
  exact ⟨hd.wf (hwf.deliver e) he.deliver, hsuf.trans (hd.rngLog_suffix hwf he)⟩

/-- The lengths of the messages to a client, in the order in which they were sent. -/
def Hwrng.lengthsTo (h : Handle) (acts : List Hwrng.Act) : List ℕ :=
  acts.reverse.filterMap fun
    | .reply k data _ _ _ => if k = h then some data.length else none
    | _ => none

lemma Hwrng.lengthsTo_eq (U : Uapi) (h : Handle) (acts : List Hwrng.Act) :
    Hwrng.lengthsTo h acts =
      (((acts.filterMap (Hwrng.Act.offer U)).filter (·.1 = h)).map (·.2.1)).reverse := by
  rw [lengthsTo, ← List.filterMap_eq_filter, List.filterMap_filterMap, List.map_filterMap,
    ← List.filterMap_reverse]
  refine List.filterMap_congr fun act _ => ?_
  cases act with
  | opened => rfl
  | request => rfl
  | reply k data rc lo hi => by_cases hk : k = h <;> simp [Hwrng.Act.offer, hk]

/-- Somebody waits on a channel. -/
def App.Waiting (s : App D) (h : Handle) : Prop :=
  ∃ p ∈ s.reqList, ∃ c, s.sys.heap p = some (.hwrng c) ∧ c.chan = h

lemma App.waiting_iff {s : App D} {h : Handle} (U : Uapi) :
    s.Waiting h ↔ (s.rounds U).of h ≠ [] := by
  rw [Service.of, ne_eq, List.filter_eq_nil_iff, App.rounds, Hwrng.World.service_queue]
  simp only [List.mem_filterMap, Option.map_eq_some_iff, decide_eq_true_eq, not_forall, not_not]
  constructor
  · rintro ⟨p, hp, c, hc, hchan⟩
    exact ⟨_, ⟨p, hp, c, Hwrng.World.ctx_eq_some.mpr hc, rfl⟩, hchan⟩
  · rintro ⟨_, ⟨p, hp, c, hc, rfl⟩, hchan⟩
    exact ⟨p, hp, c, Hwrng.World.ctx_eq_some.mp hc, hchan⟩

/-- The client of a context that is on the list waits for the bytes outstanding. -/
lemma App.rounds_of {s : App D} (hs : s.Wf) {p : Ptr} {c : HwrngChanCtx}
    (hc : s.sys.heap p = some (.hwrng c)) (hp : p ∈ s.reqList) (U : Uapi) :
    (s.rounds U).of c.chan = [Hwrng.waits c] := by
  have hctx : ∀ q ∈ s.reqList, (((s.hwrngWorld.ctx q).map Hwrng.waits).filter
      fun x => decide (x.client = c.chan)) = if q = p then some (Hwrng.waits c) else none := by
    intro q hq
    obtain ⟨d, hd⟩ := hs.lifecycle.list_live q hq
    rw [Hwrng.World.ctx_eq_some.mpr hd]
    rcases eq_or_ne q p with rfl | hne
    · obtain rfl : c = d := by simpa [hc] using hd
      simp [Option.filter, Hwrng.waits]
    · have hchan : d.chan ≠ c.chan := fun heq => hne (hs.lifecycle.chan_injective hd hc heq)
      simp [Option.filter, Hwrng.waits, hchan, hne]
  have hone : s.reqList.filter (· = p) = [p] := by
    rw [List.filter_eq, List.count_eq_one_of_mem hs.lifecycle.list_nodup hp]
    rfl
  calc (s.rounds U).of c.chan
      = s.reqList.filterMap fun q => if q = p then some (Hwrng.waits c) else none := by
        rw [Service.of, App.rounds, Hwrng.World.service_queue, List.filter_filterMap]
        exact List.filterMap_congr hctx
    _ = (s.reqList.filter (· = p)).filterMap fun _ => some (Hwrng.waits c) := by
        rw [List.filterMap_filter]
        simp
    _ = [Hwrng.waits c] := by rw [hone]; rfl

lemma App.rounds_offersTo {s t : App D} {acts : List Hwrng.Act} (hlog : t.rngLog = acts ++ s.rngLog)
    (U : Uapi) (h : Handle) : (t.rounds U).offersTo h =
      (acts.filterMap (Hwrng.Act.offer U)).filter (·.1 = h) ++ (s.rounds U).offersTo h := by
  change (t.rngLog.filterMap (Hwrng.Act.offer U)).filter (·.1 = h) = _
  rw [hlog, List.filterMap_append, List.filter_append]
  rfl

/-- A client that neither hangs up nor sends anything tells the service nothing else, except that
it can be sent to. -/
lemma silent_of_told {fs : List (Event D)} {k : Handle}
    (hsilent : ∀ e ∈ fs, e.handle = k → e.flags.hup = false ∧ e.flags.msg = false) :
    ∀ i ∈ fs.filterMap (Event.told K), i.1.client = k → i.1.leaves = false ∧ i.1.asks = none := by
  intro i hi hclient
  obtain ⟨e, he, hei⟩ := List.mem_filterMap.mp hi
  rw [Event.eq_of_told hei] at hclient ⊢
  obtain ⟨hhup, hmsg⟩ := hsilent e he hclient
  simp [Hwrng.notice, Hwrng.requestOf, hhup, hmsg]

/-- A client that is waiting and can be sent to, neither hangs up nor sends anything, and whose
messages go through, is sent one message after every event on any channel of the service until
it has been sent all it was due: the lengths of its messages are those into which the bytes
outstanding split, and nobody else's requests hold it up or shorten its messages. -/
theorem served_in_time {s₀ s t : App D} (h₀ : (app D K).init s₀) {es fs : List (Event D)}
    (h : (app D K).Run s₀ es s) (h' : (app D K).Run s fs t) {p : Ptr} {c : HwrngChanCtx}
    (hc : s.sys.heap p = some (.hwrng c)) (hp : p ∈ s.reqList) (hb : c.sendBlocked = false)
    (hsilent : ∀ e ∈ fs, e.handle = c.chan → e.flags.hup = false ∧ e.flags.msg = false)
    (hsend : ∀ e ∈ fs, e.told K ≠ none → 0 ≤ e.send c.chan) :
    ∃ acts, t.rngLog = acts ++ s.rngLog ∧
      Hwrng.lengthsTo c.chan acts =
        (Hwrng.rule.split c.reqSize.toNat).take (fs.filterMap (Event.told K)).length ∧
      (Hwrng.rule.split c.reqSize.toNat).sum = c.reqSize.toNat ∧
      (t.Waiting c.chan ↔
        (fs.filterMap (Event.told K)).length < Hwrng.rule.count c.reqSize.toNat) := by
  have hs := wf_of_reachable ⟨s₀, es, h₀, h⟩
  obtain ⟨acts, hlog⟩ := (rngLog_suffix hs h').2
  have hof : (s.rounds K.uapi).of c.chan = [⟨c.chan, c.reqSize.toNat, false⟩] := by
    rw [App.rounds_of hs hc hp, Hwrng.waits, hb]
  have htaken : ∀ i ∈ fs.filterMap (Event.told K), i.2 c.chan = .taken := by
    intro i hi
    obtain ⟨e, he, hei⟩ := List.mem_filterMap.mp hi
    rw [Event.eq_of_told hei]
    exact if_pos (hsend e he (by simp [hei]))
  obtain ⟨hoffers, hend⟩ :=
    offers_of_taking (rounds_run hs h') hof (silent_of_told hsilent) htaken
  refine ⟨acts, hlog.symm, ?_, Hwrng.rule.sum_split _, ?_⟩
  · rw [App.rounds_offersTo hlog.symm] at hoffers
    rw [Hwrng.lengthsTo_eq K.uapi, List.append_cancel_right hoffers, List.map_reverse,
      List.reverse_reverse, List.map_map]
    exact List.map_id _
  · rw [App.waiting_iff K.uapi, hend]
    split_ifs with hlt <;> simp [hlt]

/-- The lengths of the messages to a client that went through, in the order in which they were
sent. -/
def Hwrng.deliveredTo (h : Handle) (acts : List Hwrng.Act) : List ℕ :=
  acts.reverse.filterMap fun
    | .reply k data rc _ _ => if k = h ∧ 0 ≤ rc then some data.length else none
    | _ => none

lemma Hwrng.verdict_eq_taken {U : Uapi} {rc : ℤ} : verdict U rc = .taken ↔ 0 ≤ rc := by
  rw [verdict]
  split_ifs with h <;> simp [h]

lemma Hwrng.deliveredTo_eq (U : Uapi) (h : Handle) (acts : List Hwrng.Act) :
    Hwrng.deliveredTo h acts =
      ((taken ((acts.filterMap (Hwrng.Act.offer U)).filter (·.1 = h))).map (·.2.1)).reverse := by
  rw [deliveredTo, taken, List.filter_filter, ← List.filterMap_eq_filter, List.filterMap_filterMap,
    List.map_filterMap, ← List.filterMap_reverse]
  refine List.filterMap_congr fun act _ => ?_
  cases act with
  | opened => rfl
  | request => rfl
  | reply k data rc lo hi =>
    by_cases hk : k = h <;> by_cases hrc : 0 ≤ rc <;>
      simp [Hwrng.Act.offer, Option.guard, Hwrng.verdict_eq_taken, hk, hrc]

/-- A client that is waiting, neither hangs up nor sends anything, and is not lost, misses nothing
when there is no room for its messages: what goes through are the messages into which the
bytes outstanding split, in their order, whatever was refused in between and how often; each
message carries what those that went through before it have left; and the client waits until
all of them went through. -/
theorem delivered_in_order {s₀ s t : App D} (h₀ : (app D K).init s₀) {es fs : List (Event D)}
    (h : (app D K).Run s₀ es s) (h' : (app D K).Run s fs t) {p : Ptr} {c : HwrngChanCtx}
    (hc : s.sys.heap p = some (.hwrng c)) (hp : p ∈ s.reqList)
    (hsilent : ∀ e ∈ fs, e.handle = c.chan → e.flags.hup = false ∧ e.flags.msg = false)
    (hreached : ∀ e ∈ fs, e.told K ≠ none →
      0 ≤ e.send c.chan ∨ e.send c.chan = K.uapi.errNotEnoughBuffer) :
    ∃ acts, t.rngLog = acts ++ s.rngLog ∧
      Hwrng.deliveredTo c.chan acts <+: Hwrng.rule.split c.reqSize.toNat ∧
      (t.Waiting c.chan ↔ Hwrng.deliveredTo c.chan acts ≠ Hwrng.rule.split c.reqSize.toNat) ∧
      ∀ later earlier data rc lo hi, acts = later ++ .reply c.chan data rc lo hi :: earlier →
        data.length =
          min (c.reqSize.toNat - 4096 * (Hwrng.deliveredTo c.chan earlier).length) 4096 := by
  have hs := wf_of_reachable ⟨s₀, es, h₀, h⟩
  obtain ⟨acts, hlog⟩ := (rngLog_suffix hs h').2
  have hlost : ∀ i ∈ fs.filterMap (Event.told K), i.2 c.chan ≠ .lost := by
    intro i hi
    obtain ⟨e, he, hei⟩ := List.mem_filterMap.mp hi
    rw [Event.eq_of_told hei]
    obtain hrc | hrc := hreached e he (by simp [hei])
    · simp [Hwrng.verdict, hrc]
    · simp [Hwrng.verdict, hrc, not_le.mpr K.uapi.errNotEnoughBuffer_neg]
  obtain ⟨offers, hoffers, hturn, hle, b, hend⟩ := offers_of_staying (rounds_run hs h')
    (App.rounds_of hs hc hp K.uapi) (silent_of_told hsilent) hlost
  rw [App.rounds_offersTo hlog.symm] at hoffers
  obtain rfl := List.append_cancel_right hoffers
  have hlength : ∀ acts, (Hwrng.deliveredTo c.chan acts).length =
      (taken ((acts.filterMap (Hwrng.Act.offer K.uapi)).filter (·.1 = c.chan))).length := by
    intro acts
    rw [Hwrng.deliveredTo_eq K.uapi, List.length_reverse, List.length_map]
  have hdelivered : Hwrng.deliveredTo c.chan acts =
      (Hwrng.rule.split c.reqSize.toNat).take (Hwrng.deliveredTo c.chan acts).length := by
    conv_lhs => rw [Hwrng.deliveredTo_eq K.uapi, hturn.taken_eq hle, List.reverse_reverse]
    rw [hlength]
  rw [← hlength] at hend
  refine ⟨acts, hlog.symm, ?_, ?_, ?_⟩
  · rw [hdelivered]
    exact List.take_prefix _ _
  · have hall : Hwrng.deliveredTo c.chan acts = Hwrng.rule.split c.reqSize.toNat ↔
        ¬ (Hwrng.deliveredTo c.chan acts).length < Hwrng.rule.count c.reqSize.toNat := by
      rw [hdelivered, List.take_eq_self_iff, Rule.length_split, ← hdelivered, not_lt]
    rw [App.waiting_iff K.uapi, hend, ne_eq, ne_eq, hall, not_not]
    split_ifs with hlt <;> simp [hlt]
  · rintro later earlier data rc lo hi rfl
    have hoffer : (Hwrng.Act.reply c.chan data rc lo hi).offer K.uapi =
        some (c.chan, data.length, Hwrng.verdict K.uapi rc) := rfl
    rw [List.filterMap_append, List.filterMap_cons_some hoffer, List.filter_append,
      List.filter_cons_of_pos (by simp)] at hturn
    rw [hlength]
    exact hturn.of_append.1

/-! ## A client and the others -/

lemma Hwrng.waits_injective : Function.Injective Hwrng.waits := by
  rintro ⟨chan, reqSize, sendBlocked⟩ ⟨chan', reqSize', sendBlocked'⟩ h
  simp only [Hwrng.waits, Entry.mk.injEq, BitVec.toNat_inj] at h
  obtain ⟨rfl, rfl, rfl⟩ := h
  rfl

/-- A context is on the list. -/
def App.Queued (s : App D) (c : HwrngChanCtx) : Prop :=
  ∃ p ∈ s.reqList, s.sys.heap p = some (.hwrng c)

lemma App.queued_iff {s : App D} {c : HwrngChanCtx} (U : Uapi) :
    s.Queued c ↔ Hwrng.waits c ∈ (s.rounds U).of c.chan := by
  rw [Service.of, List.mem_filter, App.rounds, Hwrng.World.service_queue]
  simp only [List.mem_filterMap, Option.map_eq_some_iff]
  constructor
  · rintro ⟨p, hp, hc⟩
    exact ⟨⟨p, hp, c, Hwrng.World.ctx_eq_some.mpr hc, rfl⟩, by simp [Hwrng.waits]⟩
  · rintro ⟨⟨p, hp, d, hd, hwaits⟩, -⟩
    obtain rfl := Hwrng.waits_injective hwaits
    exact ⟨p, hp, Hwrng.World.ctx_eq_some.mp hd⟩

/-- What the client on a channel sees of an event: nothing, if it is not for a channel of the
service; of an event for another client it sees that there is a pass, and whether its own
message goes through. -/
def Event.seen (K : Config) (h : Handle) (e : Event D) :
    Option (Option (Notice Handle) × Verdict) :=
  (e.told K).map (Rounds.view h)

/-- HWRNG clients are isolated from each other but for the number of events: in two runs in which a
client says the same and its sends go the same way, and in between as many events happen on the
channels of other clients, it is sent messages of the same lengths with the same results in the
same order, and the same is outstanding in the end.  Who the others are, how many there are,
what they ask for, whether they are blocked, and what happens in the other service does not
matter. -/
theorem hwrng_isolation {D' : Hwrng.RngDev} {s₀ s : App D} {s₀' s' : App D'}
    (h₀ : (app D K).init s₀) (h₀' : (app D' K).init s₀') {es : List (Event D)}
    {es' : List (Event D')} (h : (app D K).Run s₀ es s) (h' : (app D' K).Run s₀' es' s')
    {k : Handle} (hseen : es.filterMap (Event.seen K k) = es'.filterMap (Event.seen K k)) :
    (s.rounds K.uapi).offersTo k = (s'.rounds K.uapi).offersTo k ∧
      ∀ c : HwrngChanCtx, c.chan = k → (s.Queued c ↔ s'.Queued c) := by
  have hview : (es.filterMap (Event.told K)).map (Rounds.view k) =
      (es'.filterMap (Event.told K)).map (Rounds.view k) := by
    rw [List.map_filterMap, List.map_filterMap]
    exact hseen
  have halone : (s.rounds K.uapi).alone k = (s'.rounds K.uapi).alone k := by
    rw [alone_of_run (rounds_refined h₀ h), alone_of_run (rounds_refined h₀' h'), hview]
  have hof : (s.rounds K.uapi).of k = (s'.rounds K.uapi).of k := congrArg Service.queue halone
  refine ⟨congrArg Service.offers halone, ?_⟩
  rintro c rfl
  rw [App.queued_iff K.uapi, App.queued_iff K.uapi, hof]

namespace Demo

/-- The kernel lets the service know that it can send to the client. -/
def poke : Event dev := { message .hwrng 5 0 [] with flags := { sendUnblocked := true } }

/-- There is no room for a message to the client. -/
def refused : Event dev := { poke with send := fun _ => config.uapi.errNotEnoughBuffer }

lemma admits_poke {s : App dev} {o : Obj} (ho : s.sys.objs 5 = some o)
    (hcookie : o.cookie = some (.ctx 0)) (hsrv : o.srv = .hwrng) :
    EventOk s poke ∧ EventOk s refused := by
  have hmsg := admits_message .hwrng 0 ho hcookie hsrv []
  exact ⟨⟨hmsg.handle_open, hmsg.accept_fresh, hmsg.calloc_fresh, hmsg.jobs_drawn⟩,
    ⟨hmsg.handle_open, hmsg.accept_fresh, hmsg.calloc_fresh, hmsg.jobs_drawn⟩⟩

lemma run_askMuch : ∃ s t u, (app dev config).Run started [connect .hwrng 5 0 0, askMuch] s ∧
    s.reqList = [0] ∧ s.sys.heap 0 = some (.hwrng ⟨5, 5904, false⟩) ∧
    (app dev config).Run s [poke] t ∧ (app dev config).Run s [refused, poke] u ∧
    u.reqList = [0] ∧ u.sys.heap 0 = some (.hwrng ⟨5, 1808, false⟩) := by
  obtain ⟨s, t, u, v, hs, hobj, hlist, hheap, ht, hu, hobj', hv, hlist', hheap'⟩ : ∃ s t u v,
      step config connected askMuch = .ok s ∧
      s.sys.objs 5 = some ⟨true, .hwrng, 0, some (.ctx 0), false⟩ ∧ s.reqList = [0] ∧
      s.sys.heap 0 = some (.hwrng ⟨5, 5904, false⟩) ∧ step config s poke = .ok t ∧
      step config s refused = .ok u ∧
      u.sys.objs 5 = some ⟨true, .hwrng, 0, some (.ctx 0), true⟩ ∧
      step config u poke = .ok v ∧ v.reqList = [0] ∧
      v.sys.heap 0 = some (.hwrng ⟨5, 1808, false⟩) :=
    ⟨_, _, _, _, rfl, rfl, rfl, rfl, rfl, rfl, rfl, rfl, rfl, rfl⟩
  obtain ⟨hpoke, hrefused⟩ := admits_poke hobj rfl rfl
  have hrefused' : (app dev config).Run s [refused] u := .one hrefused hu
  exact ⟨s, t, v, run_connect.snoc admits_askMuch hs, hlist, hheap, .one hpoke ht,
    hrefused'.snoc (admits_poke hobj' rfl rfl).1 hv, hlist', hheap'⟩

/-- Another client connects. -/
def connectSecond : Event dev := connect .hwrng 6 0 1

/-- It asks for ten bytes. -/
def askLittle : Event dev := message .hwrng 6 1 [10, 0, 0, 0]

/-- It hangs up. -/
def hangUp : Event dev := { message .hwrng 6 1 [] with flags := { hup := true } }

lemma run_second : ∃ s t,
    (app dev config).Run started [connect .hwrng 5 0 0, connectSecond, askMuch, askLittle] s ∧
    (app dev config).Run started [connect .hwrng 5 0 0, connectSecond, askMuch, hangUp] t := by
  obtain ⟨s, t, u, v, hs, hobj, hfresh, ht, hobj', hu, hv⟩ : ∃ s t u v,
      step config connected connectSecond = .ok s ∧
      s.sys.objs 5 = some ⟨true, .hwrng, 0, some (.ctx 0), false⟩ ∧
      connected.sys.objs 6 = none ∧ step config s askMuch = .ok t ∧
      t.sys.objs 6 = some ⟨true, .hwrng, 0, some (.ctx 1), false⟩ ∧
      step config t askLittle = .ok u ∧ step config t hangUp = .ok v :=
    ⟨_, _, _, _, rfl, rfl, rfl, rfl, rfl, rfl, rfl⟩
  have hcalloc : ∀ p, connectSecond.calloc = some p → connected.sys.heap p = none := by
    rintro p ⟨⟩
    rfl
  have hsecond : EventOk connected connectSecond :=
    ⟨⟨_, rfl, rfl, rfl⟩, fun _ => hfresh, hcalloc, fun _ => le_rfl⟩
  have hrun := (run_connect.snoc hsecond hs).snoc (admits_message .hwrng 0 hobj rfl rfl _) ht
  have hmsg := admits_message .hwrng 1 hobj' rfl rfl []
  exact ⟨u, v, hrun.snoc (admits_message .hwrng 1 hobj' rfl rfl _) hu,
    hrun.snoc ⟨hmsg.handle_open, hmsg.accept_fresh, hmsg.calloc_fresh, hmsg.jobs_drawn⟩ hv⟩

end Demo

/-- Of the 5904 bytes that are left after the first message, the next carries 4096. -/
theorem served_in_time_poke : ∃ (s t : App Demo.dev) (acts : List Hwrng.Act),
    (app Demo.dev Demo.config).Run Demo.started [Demo.connect .hwrng 5 0 0, Demo.askMuch] s ∧
    s.sys.heap 0 = some (.hwrng ⟨5, 5904, false⟩) ∧
    (app Demo.dev Demo.config).Run s [Demo.poke] t ∧
    t.rngLog = acts ++ s.rngLog ∧ Hwrng.lengthsTo 5 acts = [4096] ∧ t.Waiting 5 := by
  obtain ⟨s, t, -, hrun, hlist, hheap, hrun', -⟩ := Demo.run_askMuch
  obtain ⟨acts, hlog, hlengths, -, hwaiting⟩ := served_in_time Demo.init_started hrun hrun' hheap
    (by simp [hlist]) rfl (by simp [Demo.poke]) (by simp [Demo.poke, Demo.message])
  exact ⟨s, t, acts, hrun, hheap, hrun', hlog, hlengths, hwaiting.mpr (by decide)⟩

/-- A message that was refused is sent again, and 1808 bytes are left. -/
theorem delivered_in_order_refused : ∃ (s t : App Demo.dev) (acts : List Hwrng.Act),
    (app Demo.dev Demo.config).Run Demo.started [Demo.connect .hwrng 5 0 0, Demo.askMuch] s ∧
    s.sys.heap 0 = some (.hwrng ⟨5, 5904, false⟩) ∧
    (app Demo.dev Demo.config).Run s [Demo.refused, Demo.poke] t ∧
    t.sys.heap 0 = some (.hwrng ⟨5, 1808, false⟩) ∧
    t.rngLog = acts ++ s.rngLog ∧ Hwrng.deliveredTo 5 acts <+: [4096, 1808] ∧
    Hwrng.deliveredTo 5 acts ≠ [4096, 1808] := by
  obtain ⟨s, -, t, hrun, hlist, hheap, -, hrun', hlist', hheap'⟩ := Demo.run_askMuch
  obtain ⟨acts, hlog, hprefix, hwaiting, -⟩ := delivered_in_order Demo.init_started hrun hrun' hheap
    (by simp [hlist]) (by simp [Demo.refused, Demo.poke])
    (by simp [Demo.refused, Demo.poke, Demo.message])
  have hleft : t.Waiting 5 := ⟨0, by simp [hlist'], _, hheap', rfl⟩
  exact ⟨s, t, acts, hrun, hheap, hrun', hheap', hlog, hprefix, hwaiting.mp hleft⟩

/-- The first client does not notice what the second does. -/
theorem hwrng_isolation_second : ∃ s t : App Demo.dev,
    (app Demo.dev Demo.config).Run Demo.started
      [Demo.connect .hwrng 5 0 0, Demo.connectSecond, Demo.askMuch, Demo.askLittle] s ∧
    (app Demo.dev Demo.config).Run Demo.started
      [Demo.connect .hwrng 5 0 0, Demo.connectSecond, Demo.askMuch, Demo.hangUp] t ∧
    (s.rounds Demo.config.uapi).offersTo 5 = (t.rounds Demo.config.uapi).offersTo 5 := by
  obtain ⟨s, t, hs, ht⟩ := Demo.run_second
  obtain ⟨hoffers, -⟩ :=
    hwrng_isolation Demo.init_started Demo.init_started hs ht (k := 5) rfl
  exact ⟨s, t, hs, ht, hoffers⟩

end TrustyLkNxp
