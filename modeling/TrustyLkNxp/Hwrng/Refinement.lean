import TrustyLkNxp.Lib.Rounds
import TrustyLkNxp.Hwrng.Pass
import TrustyLkNxp.Hwrng.Stranded

/-!
# The HWRNG service as a service in rounds

The queue of the service is a list of nodes in contexts on the heap, which handlers link,
unlink and free.  Seen from the clients it is a service in rounds: what a client sends, and
whether its sends go through, decides alone what it is sent and when.  This file relates the
two over every run.
-/

namespace TrustyLkNxp.Hwrng

open Ipc Rounds

variable {D : RngDev} {U : Uapi} {send : Handle → ℤ}

/-- One message carries at most `MAX_HWRNG_MSG_SIZE` bytes, and `req_size` has 32 bits. -/
def rule : Rule := ⟨4096, 2 ^ 32, by decide⟩

/-- What the result of `send_msg` means for the client. -/
def verdict (U : Uapi) (rc : ℤ) : Verdict :=
  if 0 ≤ rc then .taken else if rc = U.errNotEnoughBuffer then .full else .lost

/-- What a client tells the service with an event on its channel. -/
def notice (U : Uapi) (h : Handle) (f : Flags) (m : Inbound) : Notice Handle where
  client := h
  leaves := f.hup || (f.msg && (requestOf U f m).isNone)
  clears := f.sendUnblocked
  asks := (requestOf U f m).map BitVec.toNat

/-- A context on the list. -/
def waits (c : HwrngChanCtx) : Entry Handle := ⟨c.chan, c.reqSize.toNat, c.sendBlocked⟩

/-- The message of a reply. -/
def Act.offer (U : Uapi) : Act → Option (Offer Handle)
  | .opened _ => none
  | .request _ _ => none
  | .reply h data rc _ _ => some (h, data.length, verdict U rc)

/-- The service as its clients see it. -/
def World.service (U : Uapi) (w : World D) : Service Handle where
  queue := w.queue.map fun x => waits x.2
  offers := w.log.filterMap (Act.offer U)

/-! ## A pass is a round -/

lemma outcome_turn (c : HwrngChanCtx) :
    (outcome U send c).listed.map waits = (waits c).turn rule (verdict U (send c.chan)) := by
  have hneg := U.errNotEnoughBuffer_neg
  cases hb : c.sendBlocked with
  | true => simp [outcome_of_blocked hb, Outcome.listed, Entry.turn, waits, hb]
  | false =>
    by_cases hrc : 0 ≤ send c.chan
    · have hv : verdict U (send c.chan) = .taken := if_pos hrc
      rw [outcome_of_sent hb hrc, hv]
      by_cases hsize : c.reqSize.toNat ≤ 4096
      · simp [hsize, Outcome.listed, Entry.turn, waits, hb, rule]
      · simp only [hsize, if_false, Outcome.listed, Option.map_some, waits, toNat_sub_chunk]
        simp [Entry.turn, hb, rule, hsize]
    · by_cases hfull : send c.chan = U.errNotEnoughBuffer
      · have hv : verdict U (send c.chan) = .full := by rw [verdict, if_neg hrc, if_pos hfull]
        rw [outcome_of_full hb hfull, hv]
        simp [Outcome.listed, Entry.turn, waits, hb]
      · have hv : verdict U (send c.chan) = .lost := by rw [verdict, if_neg hrc, if_neg hfull]
        rw [outcome_of_failed hb (by omega) hfull, hv]
        simp [Outcome.listed, Entry.turn, waits, hb]

lemma Sent.offer {c : HwrngChanCtx} {act : Act} (h : Sent send c act) :
    act.offer U = some (c.chan, min c.reqSize.toNat 4096, verdict U (send c.chan)) := by
  obtain ⟨data, lo, hi, rfl, hlen⟩ := h
  rw [Act.offer, hlen]

lemma offers_of_sent {l : List (Ptr × HwrngChanCtx)} {acts : List Act}
    (h : List.Forall₂ (fun x => Sent send x.2) (l.filter (!·.2.sendBlocked)) acts) :
    acts.filterMap (Act.offer U) =
      (l.map fun x => waits x.2).filterMap (Entry.offer rule fun k => verdict U (send k)) := by
  induction l generalizing acts with
  | nil =>
    cases h
    rfl
  | cons x l ih =>
    cases hb : x.2.sendBlocked with
    | true =>
      have hoffer : (waits x.2).offer rule (fun k => verdict U (send k)) = none := by
        simp [Entry.offer, waits, hb]
      rw [List.filter_cons_of_neg (by simp [hb])] at h
      rw [List.map_cons, List.filterMap_cons_none hoffer]
      exact ih h
    | false =>
      rw [List.filter_cons_of_pos (by simp [hb])] at h
      obtain ⟨act, acts', hact, hacts, rfl⟩ := List.forall₂_cons_left_iff.mp h
      have hoffer : (waits x.2).offer rule (fun k => verdict U (send k)) = act.offer U := by
        rw [hact.offer]
        simp [Entry.offer, waits, hb, rule]
      rw [List.map_cons, List.filterMap_cons, List.filterMap_cons, hoffer, ih hacts]

lemma Passed.passedOver {ps : List Ptr} {w w' : World D} (h : Passed U send ps w w')
    (hL : Lifecycle w.sys w.reqList) (hnodup : ps.Nodup) :
    ∃ more, PassedOver U send ps w w' more := by
  induction h with
  | @nil w => exact ⟨false, passedOver_nil w⟩
  | cons hp hc hserved _ ih =>
    obtain ⟨hnot, hnodup'⟩ := List.nodup_cons.mp hnodup
    obtain ⟨more, hpassed⟩ := ih (hserved.lifecycle hL hp hc) hnodup'
    exact ⟨_, hpassed.cons hL hc hnot hserved⟩

lemma Passed.service {w w' : World D} (h : Passed U send w.reqList w w')
    (hL : Lifecycle w.sys w.reqList) :
    w'.service U = (w.service U).round rule fun k => verdict U (send k) := by
  obtain ⟨more, hpassed⟩ := h.passedOver hL hL.list_nodup
  have hserved := hpassed.queueServed hL (h.lifecycle hL)
  obtain ⟨acts, hlog, hacts⟩ := hserved.sent
  ext1
  · simp only [World.service, Service.round, hserved.list, List.map_filterMap,
      List.filterMap_map, Function.comp_def]
    refine List.filterMap_congr fun x _ => ?_
    rw [Option.map_map]
    exact outcome_turn x.2
  · simp only [World.service, Service.round, hlog, List.filterMap_append]
    rw [← offers_of_sent hacts, List.filterMap_reverse, List.reverse_reverse]

/-! ## Handling an event is hearing a notice -/

namespace World

variable {w w' : World D} {p : Ptr} {c c' : HwrngChanCtx}

lemma service_queue (w : World D) :
    (w.service U).queue = w.reqList.filterMap fun q => (w.ctx q).map waits := by
  simp [service, queue, ctxs, List.map_filterMap, Function.comp_def]

/-- The client of a context is in the queue when its node is on the list. -/
lemma mem_clients_iff (hL : Lifecycle w.sys w.reqList) (hc : w.sys.heap p = some (.hwrng c)) :
    c.chan ∈ (w.service U).queue.map Entry.client ↔ p ∈ w.reqList := by
  rw [service_queue]
  simp only [List.mem_map, List.mem_filterMap, Option.map_eq_some_iff]
  constructor
  · rintro ⟨_, ⟨q, hq, d, hd, rfl⟩, hchan⟩
    rwa [← hL.chan_injective (World.ctx_eq_some.mp hd) hc hchan]
  · intro hp
    exact ⟨waits c, ⟨p, hp, c, World.ctx_eq_some.mpr hc, rfl⟩, rfl⟩

lemma service_queue_congr (hlist : w'.reqList = w.reqList)
    (hctx : ∀ q ∈ w.reqList, w'.ctx q = w.ctx q) : (w'.service U).queue = (w.service U).queue := by
  rw [service_queue, service_queue, hlist]
  exact List.filterMap_congr fun q hq => by rw [hctx q hq]

/-- The queue after a context was written. -/
lemma service_queue_store (hL : Lifecycle w.sys w.reqList)
    (hc : w.sys.heap p = some (.hwrng c)) (hlist : w'.reqList = w.reqList)
    (hheap : w'.sys.heap = Function.update w.sys.heap p (some (.hwrng c')))
    {g : Entry Handle → Entry Handle} (hg : waits c' = g (waits c)) :
    (w'.service U).queue =
      (w.service U).queue.map fun x => if x.client = c.chan then g x else x := by
  rw [service_queue, service_queue, hlist, List.map_filterMap]
  refine List.filterMap_congr fun q hq => ?_
  obtain ⟨d, hd⟩ := hL.list_live q hq
  rw [World.ctx_eq_some.mpr hd]
  rcases eq_or_ne q p with rfl | hne
  · obtain rfl : c = d := by simpa [hc] using hd
    have hctx : w'.ctx q = some c' := World.ctx_eq_some.mpr (by rw [hheap]; simp)
    have hclient : (waits c).client = c.chan := rfl
    simp [hctx, hg, hclient]
  · have hctx : w'.ctx q = some d := World.ctx_eq_some.mpr (by rw [hheap]; simpa [hne] using hd)
    have hchan : d.chan ≠ c.chan := fun heq => hne (hL.chan_injective hd hc heq)
    simp [hctx, waits, hchan]

/-- The queue after a channel was dropped. -/
lemma service_queue_drop (hL : Lifecycle w.sys w.reqList) (hc : w.sys.heap p = some (.hwrng c)) :
    ((w.drop c.chan p).service U).queue =
      (w.service U).queue.filter (·.client ≠ c.chan) := by
  have hlist : (w.drop c.chan p).reqList = w.reqList.filter (· != p) :=
    hL.list_nodup.erase_eq_filter p
  rw [service_queue, service_queue, hlist, List.filterMap_filter, List.filter_filterMap]
  refine List.filterMap_congr fun q hq => ?_
  obtain ⟨d, hd⟩ := hL.list_live q hq
  rw [World.ctx_eq_some.mpr hd]
  rcases eq_or_ne q p with rfl | hne
  · obtain rfl : c = d := by simpa [hc] using hd
    simp [waits, Option.filter]
  · have hctx : (w.drop c.chan p).ctx q = some d :=
      World.ctx_eq_some.mpr (by simpa [World.drop, Sys.drop, hne] using hd)
    have hchan : d.chan ≠ c.chan := fun heq => hne (hL.chan_injective hd hc heq)
    simp [hctx, waits, hchan, hne, Option.filter]

/-- The queue after a context was put on the list. -/
lemma service_queue_append (hp : p ∉ w.reqList) (hlist : w'.reqList = w.reqList ++ [p])
    (hheap : w'.sys.heap = Function.update w.sys.heap p (some (.hwrng c'))) :
    (w'.service U).queue = (w.service U).queue ++ [waits c'] := by
  have hctx : w'.ctx p = some c' := World.ctx_eq_some.mpr (by rw [hheap]; simp)
  rw [service_queue, service_queue, hlist, List.filterMap_append]
  refine congrArg₂ _ (List.filterMap_congr fun q hq => ?_) (by simp [hctx])
  have hne : q ≠ p := by
    rintro rfl
    exact hp hq
  have hsame : w'.ctx q = w.ctx q :=
    World.ctx_congr (by rw [hheap]; exact Function.update_of_ne hne _ _)
  rw [hsame]

end World

/-- What the handler of a channel does before it kicks the queue. -/
lemma Handled.service {f : Flags} {m : Inbound} {p : Ptr} {c : HwrngChanCtx} {w w' : World D}
    (h : Handled U f m p c w w') (hL : Lifecycle w.sys w.reqList)
    (hc : w.sys.heap p = some (.hwrng c)) :
    w'.service U = (w.service U).hear rule (notice U c.chan f m) := by
  have hmem : (notice U c.chan f m).client ∈ (w.service U).queue.map Entry.client ↔
      p ∈ w.reqList := World.mem_clients_iff hL hc
  -- the context is written, and its node stays where it is
  have hstored : ∀ {c' : HwrngChanCtx} {w' : World D}, (notice U c.chan f m).leaves = false →
      (p ∉ w.reqList → (notice U c.chan f m).asks = none) → w'.reqList = w.reqList →
      w'.sys.heap = Function.update w.sys.heap p (some (.hwrng c')) →
      waits c' = (waits c).hear rule (notice U c.chan f m) →
      (w'.service U).queue = ((w.service U).hear rule (notice U c.chan f m)).queue := by
    intro c' w' hleaves hasks hlist hheap hc'
    simp only [Service.hear, hleaves, Bool.false_eq_true, if_false]
    by_cases hp : p ∈ w.reqList
    · rw [if_pos (hmem.mpr hp)]
      exact World.service_queue_store hL hc hlist hheap hc'
    · rw [if_neg (mt hmem.mp hp), hasks hp, Option.toList_none, List.map_nil, List.append_nil]
      refine World.service_queue_congr hlist fun q hq => World.ctx_congr ?_
      rw [hheap, Function.update_of_ne]
      rintro rfl
      exact hp hq
  cases h with
  | closed hf hreq =>
    have hleaves : (notice U c.chan f m).leaves = true := by
      rcases hf with hf | hf <;> simp [notice, hf, hreq]
    refine Service.ext ?_ rfl
    simp only [Service.hear, hleaves, if_true]
    exact World.service_queue_drop hL hc
  | quiet hhup hmsg hb =>
    have hreq : requestOf U f m = none := by simp [requestOf, hmsg]
    have hheap : w.sys.heap = Function.update w.sys.heap p (some (.hwrng c)) := by
      rw [← hc, Function.update_eq_self]
    refine Service.ext (hstored ?_ ?_ rfl hheap ?_) rfl
    · simp [notice, hhup, hmsg]
    · simp [notice, hreq]
    · simp [Entry.hear, waits, notice, hreq, hb]
  | unblocked hhup hmsg hb =>
    have hreq : requestOf U f m = none := by simp [requestOf, hmsg]
    refine Service.ext (hstored ?_ ?_ rfl rfl ?_) rfl
    · simp [notice, hhup, hmsg]
    · simp [notice, hreq]
    · simp [Entry.hear, waits, notice, hreq, hb]
  | @extended len hreq hp =>
    have hhup := hup_of_requestOf hreq
    refine Service.ext (hstored ?_ (absurd hp) rfl rfl ?_) rfl
    · simp [notice, hhup, hreq]
    · simp [Entry.hear, waits, notice, hreq, rule]
  | @queued len hreq hp =>
    have hhup := hup_of_requestOf hreq
    have hb : c.sendBlocked = false := by simpa using mt (hL.blocked_listed p c hc) hp
    have hleaves : (notice U c.chan f m).leaves = false := by simp [notice, hhup, hreq]
    refine Service.ext ?_ rfl
    simp only [Service.hear, hleaves, Bool.false_eq_true, if_false, if_neg (mt hmem.mp hp)]
    rw [World.service_queue_append hp rfl rfl]
    simp [notice, hreq, waits, hb]

end TrustyLkNxp.Hwrng

namespace TrustyLkNxp

open Ipc EventSystem Rounds

variable {D : Hwrng.RngDev} {K : Config}

/-! ## The steps of the application -/

/-- What the service is told with an event on the channel of one of its clients, and what
comes of the sends of the pass after it. -/
def Event.told (K : Config) (e : Event D) : Option (Notice Handle × (Handle → Verdict)) :=
  match e.srv, e.cookie with
  | .hwrng, some (.ctx _) =>
    if e.flags = {} then none
    else some (Hwrng.notice K.uapi e.handle e.flags e.inbound,
      fun h => Hwrng.verdict K.uapi (e.send h))
  | _, _ => none

/-- The HWRNG service as its clients see it. -/
def App.rounds (U : Uapi) (s : App D) : Service Handle := s.hwrngWorld.service U

lemma App.deliver_rounds (U : Uapi) (s : App D) (e : Event D) :
    (s.deliver e).rounds U = s.rounds U := by
  rw [App.deliver]
  split <;> rfl

/-- The service is told something exactly by the events its channel handler gets. -/
lemma Event.told_eq_some {s : App D} {e : Event D} (hs : s.Wf) (he : EventOk s e)
    (hfor : ForHwrngChan s e) :
    e.told K = some (Hwrng.notice K.uapi e.handle e.flags e.inbound,
      fun h => Hwrng.verdict K.uapi (e.send h)) := by
  obtain ⟨hflags, p, c, hcookie, hc⟩ := hfor
  obtain ⟨o, ho, hcook, hsrv⟩ := he.handle_open
  have hctx : o.ctx = some p := Obj.ctx_eq_some.mpr (hcook.symm.trans hcookie)
  have hhwrng : e.srv = .hwrng := hsrv.trans (hs.lifecycle.ctx_srv _ o p _ ho hctx hc)
  simp only [Event.told, hhwrng, hcookie, if_neg hflags]

lemma Event.eq_of_told {e : Event D} {i : Notice Handle × (Handle → Verdict)}
    (h : e.told K = some i) : i = (Hwrng.notice K.uapi e.handle e.flags e.inbound,
      fun h => Hwrng.verdict K.uapi (e.send h)) := by
  simp only [Event.told] at h
  split at h
  · split_ifs at h
    exact (Option.some.inj h).symm
  · exact absurd h (by simp)

lemma Event.told_eq_none {s : App D} {e : Event D} (hs : s.Wf) (he : EventOk s e)
    (hfor : ¬ ForHwrngChan s e) : e.told K = none := by
  by_contra hne
  simp only [Event.told] at hne
  split at hne
  · rename_i p hsrv hcookie
    by_cases hflags : e.flags = {}
    · exact hne (if_pos hflags)
    obtain ⟨o, ho, hcook, hsrv'⟩ := he.handle_open
    have hctx : o.ctx = some p := Obj.ctx_eq_some.mpr (hcook.symm.trans hcookie)
    obtain ⟨c | c, hc, -⟩ := he.ctx_live hs.lifecycle hcookie
    · exact hfor ⟨hflags, p, c, hcookie, hc⟩
    · have hhwkey : o.srv = .hwkey := hs.lifecycle.ctx_srv _ o p _ ho hctx hc
      exact absurd (hsrv.symm.trans (hsrv'.trans hhwkey)) (by decide)
  · exact hne rfl

/-- A step that does not run the channel handler leaves the service as it is. -/
lemma Dispatched.rounds_of_other {s s' : App D} {e : Event D}
    (h : Dispatched K e (s.deliver e) s') (hs : s.Wf) (he : EventOk s e)
    (hfor : ¬ ForHwrngChan s e) : s'.rounds K.uapi = s.rounds K.uapi := by
  have hL' := (h.wf (hs.deliver e) he.deliver).lifecycle
  obtain ⟨hlist, hframe⟩ := h.frame_hwrng hs he hfor
  refine Service.ext (Hwrng.World.service_queue_congr hlist fun q hq => ?_) ?_
  · -- what is on the list is live before and after
    obtain ⟨d, hd⟩ := hL'.list_live q (by rw [hlist]; exact hq)
    have hd₀ : s.sys.heap q = some (.hwrng d) := by
      obtain ⟨-, hheap⟩ | ⟨k, -, -, hheap⟩ := hframe
      · exact hheap q d hd
      · exact (hheap q d hd).resolve_right fun hnot => hnot.1 hq
    exact Hwrng.World.ctx_congr (hd.trans hd₀.symm)
  · change s'.rngLog.filterMap _ = s.rngLog.filterMap _
    obtain ⟨hlog, -⟩ | ⟨k, -, hlog, -⟩ := hframe
    · rw [hlog]
    · rw [hlog, List.filterMap_cons_none rfl]

/-- A step that runs the channel handler is a round. -/
lemma Dispatched.rounds_of_hwrngChan {s s' : App D} {e : Event D}
    (h : Dispatched K e (s.deliver e) s') (hs : s.Wf) (hfor : ForHwrngChan s e) :
    s'.rounds K.uapi = ((s.rounds K.uapi).hear Hwrng.rule
        (Hwrng.notice K.uapi e.handle e.flags e.inbound)).round Hwrng.rule
      fun h => Hwrng.verdict K.uapi (e.send h) := by
  obtain ⟨p, c, w₁, w₂, rfl, -, hc, hchan, hhandled, hpassed⟩ := h.of_hwrngChan hfor
  have hL := (hs.deliver e).lifecycle
  have hheard := hhandled.service hL hc
  rw [hchan] at hheard
  rw [← s.deliver_rounds K.uapi e]
  exact (hpassed.service (hhandled.lifecycle hL hc)).trans (by rw [hheard]; rfl)

/-! ## Runs -/

lemma rounds_of_boot {b : Boot D} {s : App D} (h : boot b = .ok s) (U : Uapi) :
    s.rounds U = ⟨[], []⟩ := by
  obtain ⟨-, -, hlist, hlog, -⟩ := boot_cases h
  refine Service.ext ?_ ?_
  · rw [App.rounds, Hwrng.World.service_queue]
    exact congrArg (List.filterMap _) hlist
  · exact congrArg (List.filterMap _) hlog

/-- Between any two states of a run the service does what the service in rounds does, from
the state it is in. -/
lemma rounds_run {s t : App D} (hs : s.Wf) {es : List (Event D)}
    (h : (app D K).Run s es t) :
    (Rounds.system Stop Hwrng.rule).Run (s.rounds K.uapi) (es.filterMap (Event.told K))
      (t.rounds K.uapi) := by
  have hstep : ∀ (t : App D) (e : Event D) (t' : App D), t.Wf → EventOk t e →
      step K t e = .ok t' → t'.Wf := fun t e t' hwf he hok =>
    (step_ok hwf he hok).wf (hwf.deliver e) he.deliver
  let R : App D → Service Handle → Prop := fun t v => t.Wf ∧ v = t.rounds K.uapi
  have hreplay : ∃ v, (Rounds.system Stop Hwrng.rule).Run (s.rounds K.uapi)
      (es.filterMap (Event.told K)) v ∧ R t v := by
    refine h.replay R (Event.told K) ?_ ?_ ⟨hs, rfl⟩
    · rintro t _ e i t' ⟨hwf, rfl⟩ he hok htold
      have hfor : ForHwrngChan t e := by
        by_contra hnot
        rw [Event.told_eq_none hwf he hnot] at htold
        exact absurd htold (by simp)
      rw [Event.told_eq_some hwf he hfor] at htold
      obtain rfl := Option.some.inj htold
      exact ⟨_, trivial, rfl, hstep t e t' hwf he hok,
        ((step_ok hwf he hok).rounds_of_hwrngChan hwf hfor).symm⟩
    · rintro t _ e t' ⟨hwf, rfl⟩ he hok htold
      have hfor : ¬ ForHwrngChan t e := by
        intro hfor
        rw [Event.told_eq_some hwf he hfor] at htold
        exact absurd htold (by simp)
      exact ⟨hstep t e t' hwf he hok, ((step_ok hwf he hok).rounds_of_other hwf he hfor).symm⟩
  obtain ⟨_, hrun, -, rfl⟩ := hreplay
  exact hrun

/-- In every run the messages of the HWRNG service, their receivers, lengths, results and order,
and the queue it keeps are those of the service in rounds that is told the same: nothing else
that happens in the application, to its heap, its list or its other service has a part in
them. -/
theorem rounds_refined {s₀ s : App D} (h₀ : (app D K).init s₀) {es : List (Event D)}
    (h : (app D K).Run s₀ es s) :
    (Rounds.system Stop Hwrng.rule).Run ⟨[], []⟩ (es.filterMap (Event.told K))
      (s.rounds K.uapi) := by
  obtain ⟨b, hb⟩ := h₀
  rw [← rounds_of_boot hb K.uapi]
  exact rounds_run (boot_wf hb) h

namespace Demo

/-- A client asks for 10000 bytes. -/
def askMuch : Event dev := message .hwrng 5 0 [0x10, 0x27, 0, 0]

lemma admits_askMuch : EventOk connected askMuch := admits_message .hwrng 0 rfl rfl rfl _

end Demo

/-- The client is offered the first 4096 bytes, and 5904 are still due to it. -/
theorem rounds_refined_askMuch : ∃ s : App Demo.dev,
    (app Demo.dev Demo.config).Run Demo.started [Demo.connect .hwrng 5 0 0, Demo.askMuch] s ∧
    s.rounds Demo.config.uapi = ⟨[⟨5, 5904, false⟩], [(5, 4096, .taken)]⟩ ∧
    (Rounds.system Stop Hwrng.rule).Run ⟨[], []⟩
      ([Demo.connect .hwrng 5 0 0, Demo.askMuch].filterMap (Event.told Demo.config))
      (s.rounds Demo.config.uapi) := by
  obtain ⟨s, hstep⟩ : ∃ s, step Demo.config Demo.connected Demo.askMuch = .ok s := ⟨_, rfl⟩
  have hrun : (app Demo.dev Demo.config).Run Demo.started
      [Demo.connect .hwrng 5 0 0, Demo.askMuch] s :=
    Demo.run_connect.snoc Demo.admits_askMuch hstep
  have hrounds := rounds_refined Demo.init_started hrun
  have hround : (Rounds.system Stop Hwrng.rule).Run ⟨[], []⟩
      ([Demo.connect .hwrng 5 0 0, Demo.askMuch].filterMap (Event.told Demo.config))
      ⟨[⟨5, 5904, false⟩], [(5, 4096, .taken)]⟩ := .one trivial rfl
  exact ⟨s, hrun, hrounds.unique hround, hrounds⟩

end TrustyLkNxp
