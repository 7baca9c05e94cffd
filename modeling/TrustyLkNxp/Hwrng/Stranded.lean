import TrustyLkNxp.Lifecycle

/-!
# Requests that are left stranded

`hwrng_handle_req_queue` returns whether more remains to be sent, and `hwrng_kick_req_queue`
drops the answer.  A channel that was sent one message of a longer reply and is not blocked
is therefore not served again until some other event comes along.  This file says exactly
after which events such a channel remains.
-/

namespace TrustyLkNxp

open Ipc EventSystem

/-- The kernel owes the channel a `SEND_UNBLOCKED` event. -/
def Ipc.Sys.Owed (s : Sys) (h : Handle) : Prop := ∃ o, s.objs h = some o ∧ o.owed = true

namespace Hwrng

variable {D : RngDev} {U : Uapi} {send : Handle → ℤ}

/-- Every blocked channel is owed an event. -/
def Owes (s : Sys) : Prop :=
  ∀ p c, s.heap p = some (.hwrng c) → c.sendBlocked = true → s.Owed c.chan

/-- A context on the list that has bytes outstanding is blocked, and is owed an event. -/
def Settled (s : Sys) (l : List Ptr) (p : Ptr) : Prop :=
  p ∈ l → ∀ c, s.heap p = some (.hwrng c) → 0 < c.reqSize.toNat →
    c.sendBlocked = true ∧ s.Owed c.chan

/-- A step that leaves the blocked contexts and their channels alone keeps the kernel's
debts. -/
lemma Owes.of_frame {s s' : Sys} (howes : Owes s)
    (h : ∀ q d, s'.heap q = some (.hwrng d) → d.sendBlocked = true →
      s.heap q = some (.hwrng d) ∧ s'.objs d.chan = s.objs d.chan) : Owes s' := by
  intro q d hq hb
  obtain ⟨hq', hobjs⟩ := h q d hq hb
  obtain ⟨o, ho, howed⟩ := howes q d hq' hb
  exact ⟨o, hobjs.trans ho, howed⟩

lemma Owes.connect {s : Sys} {l : List Ptr} (howes : Owes s) (hL : Lifecycle s l) {h : Handle}
    {p : Ptr} {c : Ctx} (hh : s.objs h = none) (hc : ∀ d, c = .hwrng d → d.sendBlocked = false)
    (peer : Uuid) : Owes (s.connect h peer p c) := by
  refine howes.of_frame fun q d hq hb => ?_
  rcases eq_or_ne q p with rfl | hne
  · have hcd : c = .hwrng d := by simpa [Sys.connect] using hq
    exact absurd hb (by simp [hc d hcd])
  · have hq' : s.heap q = some (.hwrng d) := by simpa [Sys.connect, hne] using hq
    obtain ⟨o, ho, -⟩ := hL.chan_open hq'
    have hchan : d.chan ≠ h := by
      intro heq
      have ho : s.objs d.chan = some o := ho
      rw [heq, hh] at ho
      exact absurd ho (by simp)
    exact ⟨hq', Function.update_of_ne hchan _ _⟩

lemma Owes.drop {s : Sys} {l : List Ptr} (howes : Owes s) (hL : Lifecycle s l) {p : Ptr} {c : Ctx}
    (hp : s.heap p = some c) : Owes (s.drop c.chan p) := by
  refine howes.of_frame fun q d hq _ => ?_
  have hne : q ≠ p := by
    rintro rfl
    simp [Sys.drop] at hq
  have hq' : s.heap q = some (.hwrng d) := by simpa [Sys.drop, hne] using hq
  have hchan : d.chan ≠ c.chan := fun heq => hne (hL.chan_injective hq' hp heq)
  exact ⟨hq', Function.update_of_ne hchan _ _⟩

/-! ## One turn of the loop -/

namespace Served

variable {p : Ptr} {c : HwrngChanCtx} {w w' : World D} {more : Bool}

/-- After its turn a channel is settled, unless more was to be sent than one message holds
and the message went through. -/
lemma settled_iff (h : Served U send p c w w' more) (hL : Lifecycle w.sys w.reqList)
    (howes : Owes w.sys) (hc : w.sys.heap p = some (.hwrng c)) (hp : p ∈ w.reqList) :
    Settled w'.sys w'.reqList p ↔
      (c.sendBlocked = false → 4096 < c.reqSize.toNat → send c.chan < 0) := by
  obtain ⟨o, ho, -⟩ := hL.chan_open hc
  cases h with
  | skipped hb =>
    refine iff_of_true ?_ (by simp [hb])
    intro _ d hd _
    obtain rfl : c = d := by simpa [hc] using hd
    exact ⟨hb, howes p c hc hb⟩
  | blocked hb hget hrc =>
    refine iff_of_true ?_ fun _ _ => hrc ▸ U.errNotEnoughBuffer_neg
    intro _ d hd _
    obtain rfl : { c with sendBlocked := true } = d := by simpa [Sys.store_self] using hd
    refine ⟨rfl, { o with owed := true }, ?_, rfl⟩
    exact (Function.update_self ..).trans (congrArg _ ho)
  | failed hb hget hneg hrc =>
    refine iff_of_true ?_ fun _ _ => hneg
    intro hmem
    exact absurd hmem (hL.list_nodup.not_mem_erase)
  | drained hb hget hrc hsize =>
    refine iff_of_true ?_ fun _ hlt => absurd hsize (by omega)
    intro hmem
    exact absurd hmem (hL.list_nodup.not_mem_erase)
  | partly hb hget hrc hsize =>
    refine iff_of_false ?_ ?_
    · intro hsettled
      have hout := toNat_sub_chunk c.reqSize
      obtain ⟨hblocked, -⟩ := hsettled hp _ (Sys.store_self ..) (by simp only; omega)
      exact absurd (hb.symm.trans hblocked) (by simp)
    · intro hneg
      exact absurd (hneg hb hsize) (by omega)

lemma owes (h : Served U send p c w w' more) (hL : Lifecycle w.sys w.reqList)
    (hc : w.sys.heap p = some (.hwrng c)) (howes : Owes w.sys) : Owes w'.sys := by
  intro q d hq hb
  rcases eq_or_ne q p with rfl | hne
  · cases h with
    | skipped => exact howes q d hq hb
    | blocked =>
      obtain ⟨o, ho, -⟩ := hL.chan_open hc
      obtain rfl : { c with sendBlocked := true } = d := by simpa [Sys.store_self] using hq
      exact ⟨{ o with owed := true }, (Function.update_self ..).trans (congrArg _ ho), rfl⟩
    | failed => exact absurd hq (by simp [World.drop, Sys.drop])
    | drained hb' =>
      obtain rfl := by simpa [Sys.store_self] using hq
      exact absurd (hb'.symm.trans hb) (by simp)
    | partly hb' =>
      obtain rfl := by simpa [Sys.store_self] using hq
      exact absurd (hb'.symm.trans hb) (by simp)
  · have hq' : w.sys.heap q = some (.hwrng d) := (h.frame hne).1 ▸ hq
    have hchan : d.chan ≠ c.chan := fun heq => hne (hL.chan_injective hq' hc heq)
    obtain ⟨o, ho, howed⟩ := howes q d hq' hb
    exact ⟨o, (h.frame_chan hchan).trans ho, howed⟩

end Served

/-! ## The pass -/

namespace Passed

variable {ps : List Ptr} {w w' : World D}

lemma owes (h : Passed U send ps w w') (hL : Lifecycle w.sys w.reqList) (howes : Owes w.sys) :
    Owes w'.sys := by
  refine (h.invariant (fun w => Lifecycle w.sys w.reqList ∧ Owes w.sys) ?_ ⟨hL, howes⟩).2
  rintro p c w w' more ⟨hL, howes⟩ hp hc hserved
  exact ⟨hserved.lifecycle hL hp hc, hserved.owes hL hc howes⟩

/-- After the pass the channels it came across are settled exactly if a send failed on each
of them that could be served and had more than one message to come. -/
lemma settled_iff (h : Passed U send ps w w') (hL : Lifecycle w.sys w.reqList)
    (howes : Owes w.sys) (hnodup : ps.Nodup) :
    (∀ p ∈ ps, Settled w'.sys w'.reqList p) ↔
      ∀ p ∈ ps, ∀ c, w.sys.heap p = some (.hwrng c) → c.sendBlocked = false →
        4096 < c.reqSize.toNat → send c.chan < 0 := by
  induction h with
  | nil => simp
  | @cons p ps c w w₁ w₂ more hp hc hserved hpassed ih =>
    obtain ⟨hnotin, hnodup'⟩ := List.nodup_cons.mp hnodup
    have hL₁ := hserved.lifecycle hL hp hc
    obtain ⟨hheap, hlist, hobjs⟩ := hpassed.frame hL₁ hnotin
    -- the rest of the pass does not come back to this channel
    have hhead : Settled w₂.sys w₂.reqList p ↔
        (c.sendBlocked = false → 4096 < c.reqSize.toNat → send c.chan < 0) := by
      rw [← hserved.settled_iff hL howes hc hp]
      simp only [Settled, Sys.Owed, hheap, hlist]
      refine forall_congr' fun _ => forall₂_congr fun d hd => ?_
      have hchan : w₂.sys.objs d.chan = w₁.sys.objs d.chan := hobjs _ hd
      rw [hchan]
    -- and this channel's turn does not change the others
    have htail : (∀ q ∈ ps, ∀ d, w₁.sys.heap q = some (.hwrng d) → d.sendBlocked = false →
          4096 < d.reqSize.toNat → send d.chan < 0) ↔
        ∀ q ∈ ps, ∀ d, w.sys.heap q = some (.hwrng d) → d.sendBlocked = false →
          4096 < d.reqSize.toNat → send d.chan < 0 := by
      refine forall₂_congr fun q hq => ?_
      have hne : q ≠ p := fun heq => hnotin (heq ▸ hq)
      rw [(hserved.frame hne).1]
    rw [List.forall_mem_cons, List.forall_mem_cons, hhead,
      ih hL₁ (hserved.owes hL hc howes) hnodup', htail]
    refine and_congr_left fun _ => ?_
    constructor
    · intro hcond d hd
      obtain rfl : c = d := by simpa [hc] using hd
      exact hcond
    · intro hcond
      exact hcond c hc

end Passed

/-! ## The event -/

namespace Handled

variable {f : Flags} {m : Inbound} {p : Ptr} {c : HwrngChanCtx} {w w' : World D}

/-- What is still live and blocked once the event is handled was blocked before, and was not
unblocked by the event. -/
lemma owes (h : Handled U f m p c w w') (hL : Lifecycle w.sys w.reqList)
    (hc : w.sys.heap p = some (.hwrng c))
    (howes : ∀ q d, w.sys.heap q = some (.hwrng d) → d.sendBlocked = true →
      (d.chan = c.chan → f.sendUnblocked = false) → w.sys.Owed d.chan) : Owes w'.sys := by
  have hself : ∀ b, (c.sendBlocked && !f.sendUnblocked) = b → b = true → w.sys.Owed c.chan := by
    rintro b rfl hb
    obtain ⟨hb, hu⟩ := Bool.and_eq_true_iff.mp hb
    exact howes p c hc hb fun _ => by simpa using hu
  intro q d hq hb
  rcases eq_or_ne q p with rfl | hne
  · cases h with
    | closed => exact absurd hq (by simp [World.drop, Sys.drop])
    | quiet _ _ hu =>
      obtain rfl : c = d := by simpa [hc] using hq
      exact howes q c hc hb fun _ => hu
    | unblocked =>
      obtain rfl := by simpa [World.store, Sys.store_self] using hq
      exact absurd hb (by simp)
    | extended =>
      obtain rfl := by simpa [Sys.store_self] using hq
      exact hself _ rfl hb
    | queued =>
      obtain rfl := by simpa [Sys.store_self] using hq
      exact hself _ rfl hb
  · have hq' : w.sys.heap q = some (.hwrng d) := (h.frame hne).1 ▸ hq
    have hchan : d.chan ≠ c.chan := fun heq => hne (hL.chan_injective hq' hc heq)
    obtain ⟨o, ho, howed⟩ := howes q d hq' hb fun heq => absurd heq hchan
    exact ⟨o, (h.frame_chan hchan).trans ho, howed⟩

end Handled

/-- How many bytes the pass after an event on `handle` finds outstanding for a context, in
terms of the state before the event: `none` when the context is gone, off the list or blocked
by then. -/
def demand (U : Uapi) (handle : Handle) (f : Flags) (m : Inbound) (l : List Ptr) (p : Ptr)
    (c : HwrngChanCtx) : Option Word :=
  if c.chan = handle then
    if f.hup = true ∨ (c.sendBlocked = true ∧ f.sendUnblocked = false) then none
    else match requestOf U f m with
      | some len => some (if p ∈ l then c.reqSize + len else len)
      | none => if f.msg = false ∧ p ∈ l then some c.reqSize else none
  else if p ∈ l ∧ c.sendBlocked = false then some c.reqSize
  else none

lemma hup_of_requestOf {f : Flags} {m : Inbound} {len : Word}
    (h : requestOf U f m = some len) : f.hup = false := by
  by_contra hhup
  simp [requestOf, hhup] at h

/-- A channel that is about to be served has more bytes outstanding than one message holds
only if a send on it fails. -/
def Fails (send : Handle → ℤ) (c : HwrngChanCtx) (n : Option Word) : Prop :=
  ∀ k, n = some k → 4096 < k.toNat → send c.chan < 0

namespace Handled

variable {f : Flags} {m : Inbound} {p : Ptr} {c : HwrngChanCtx} {w w' : World D}

/-- `demand` is what the pass finds, for the channel of the event. -/
lemma demand_self (h : Handled U f m p c w w') (hL : Lifecycle w.sys w.reqList)
    (hc : w.sys.heap p = some (.hwrng c)) (send : Handle → ℤ) :
    Fails send c (demand U c.chan f m w.reqList p c) ↔
      ∀ d, w'.sys.heap p = some (.hwrng d) → p ∈ w'.reqList → d.sendBlocked = false →
        4096 < d.reqSize.toNat → send d.chan < 0 := by
  cases h with
  | closed hf hreq =>
    have hnone : demand U c.chan f m w.reqList p c = none := by
      obtain hf | hf := hf <;> simp [demand, hreq, hf]
    refine iff_of_true (by simp [Fails, hnone]) ?_
    intro _ _ hmem
    exact absurd hmem hL.list_nodup.not_mem_erase
  | quiet hhup hmsg hb =>
    have hreq : requestOf U f m = none := by simp [requestOf, hmsg]
    by_cases hmem : p ∈ w.reqList <;> cases hblocked : c.sendBlocked <;>
      simp [Fails, demand, hc, hhup, hmsg, hb, hreq, hmem, hblocked]
  | unblocked hhup hmsg hb =>
    have hreq : requestOf U f m = none := by simp [requestOf, hmsg]
    by_cases hmem : p ∈ w.reqList <;>
      simp [Fails, demand, World.store, Sys.store_self, hhup, hmsg, hb, hreq, hmem]
  | extended hreq hp =>
    have hhup := hup_of_requestOf hreq
    cases hblocked : c.sendBlocked <;> cases hu : f.sendUnblocked <;>
      simp [Fails, demand, Sys.store_self, hhup, hu, hreq, hp, hblocked]
  | queued hreq hp =>
    have hhup := hup_of_requestOf hreq
    cases hblocked : c.sendBlocked <;> cases hu : f.sendUnblocked <;>
      simp [Fails, demand, Sys.store_self, hhup, hu, hreq, hp, hblocked]

lemma demand_iff (h : Handled U f m p c w w') (hL : Lifecycle w.sys w.reqList)
    (hc : w.sys.heap p = some (.hwrng c)) (send : Handle → ℤ) :
    (∀ q d, w.sys.heap q = some (.hwrng d) → Fails send d (demand U c.chan f m w.reqList q d)) ↔
      ∀ q ∈ w'.reqList, ∀ d, w'.sys.heap q = some (.hwrng d) → d.sendBlocked = false →
        4096 < d.reqSize.toNat → send d.chan < 0 := by
  refine forall_congr' fun q => ?_
  rcases eq_or_ne q p with rfl | hne
  · have hself := h.demand_self hL hc send
    constructor
    · intro hfails hq d hd
      exact hself.mp (hfails c hc) d hd hq
    · intro hpass d hd
      obtain rfl : c = d := by simpa [hc] using hd
      exact hself.mpr fun d hd hq => hpass hq d hd
  · obtain ⟨hheap, hlist⟩ := h.frame hne
    have hother : ∀ d, w.sys.heap q = some (.hwrng d) → (Fails send d
        (demand U c.chan f m w.reqList q d) ↔ (q ∈ w.reqList → d.sendBlocked = false →
          4096 < d.reqSize.toNat → send d.chan < 0)) := by
      intro d hd
      have hchan : d.chan ≠ c.chan := fun heq => hne (hL.chan_injective hd hc heq)
      rw [demand, if_neg hchan]
      by_cases hmem : q ∈ w.reqList <;> by_cases hb : d.sendBlocked = false <;>
        simp [Fails, hmem, hb]
    rw [hheap, hlist]
    constructor
    · intro hfails hq d hd
      exact (hother d hd).mp (hfails d hd) hq
    · intro hpass d hd
      exact (hother d hd).mpr fun hq => hpass hq d hd

end Handled

end Hwrng

variable {D : Hwrng.RngDev} {K : Config}

/-! ## The steps of the application -/

/-- No request is stranded: every channel on `hwrng_req_list` with bytes outstanding is
blocked, and the kernel owes it a `SEND_UNBLOCKED` event. -/
def NoStranded (s : App D) : Prop := ∀ p, Hwrng.Settled s.sys s.reqList p

/-- The event is handled by `hwrng_chan_handler`. -/
def ForHwrngChan (s : App D) (e : Event D) : Prop :=
  e.flags ≠ {} ∧ ∃ p c, e.cookie = some (.ctx p) ∧ s.sys.heap p = some (.hwrng c)

/-- Whenever the pass after the event can serve a channel that has more than 4096 bytes
outstanding, the send on it fails. -/
def LongRepliesFail (K : Config) (s : App D) (e : Event D) : Prop :=
  ∀ p c, s.sys.heap p = some (.hwrng c) →
    Hwrng.Fails e.send c (Hwrng.demand K.uapi e.handle e.flags e.inbound s.reqList p c)

/-- Delivering an event discharges what was owed to its own handle only. -/
lemma App.deliver_owed {s : App D} {e : Event D} {h : Handle} (howed : s.sys.Owed h)
    (hne : h = e.handle → e.flags.sendUnblocked = false) : (s.deliver e).sys.Owed h := by
  rw [App.deliver]
  split
  · rename_i hu
    have hne' : h ≠ e.handle := fun heq => absurd (hne heq) (by simp [hu])
    obtain ⟨o, ho, hb⟩ := howed
    exact ⟨o, (Function.update_of_ne hne' _ _).trans ho, hb⟩
  · exact howed

/-- The channel of a context is the handle of the event only if the cookie leads to it. -/
lemma EventOk.chan_ne {s : App D} {e : Event D} (he : EventOk s e)
    (hL : Lifecycle s.sys s.reqList) {q : Ptr} {c : Ctx} (hq : s.sys.heap q = some c)
    (hcookie : e.cookie ≠ some (.ctx q)) : c.chan ≠ e.handle := by
  intro heq
  obtain ⟨o, ho, hctx⟩ := hL.chan_open hq
  obtain ⟨o', ho', hcook, -⟩ := he.handle_open
  rw [heq, ho'] at ho
  obtain rfl : o' = o := Option.some.inj ho
  exact hcookie (hcook.trans (Obj.ctx_eq_some.mp hctx))

lemma Dispatched.owes {s s' : App D} {e : Event D} (h : Dispatched K e (s.deliver e) s')
    (hs : s.Wf) (he : EventOk s e) (howes : Hwrng.Owes s.sys) : Hwrng.Owes s'.sys := by
  have hL := (hs.deliver e).lifecycle
  -- a context whose channel the event is not for is still owed what it was owed
  have hother : ∀ q d, (s.deliver e).sys.heap q = some (.hwrng d) → d.sendBlocked = true →
      (d.chan = e.handle → e.flags.sendUnblocked = false) → (s.deliver e).sys.Owed d.chan := by
    intro q d hq hb hne
    rw [App.deliver_heap] at hq
    exact App.deliver_owed (howes q d hq hb) hne
  have hdeliver : (∀ q d, (s.deliver e).sys.heap q = some (.hwrng d) →
      e.cookie ≠ some (.ctx q)) → Hwrng.Owes (s.deliver e).sys := by
    intro hcookie q d hq hb
    exact hother q d hq hb fun heq => absurd heq (he.deliver.chan_ne hL hq (hcookie q d hq))
  cases h with
  | empty hflags =>
    intro q d hq hb
    exact hother q d hq hb fun _ => by rw [hflags]
  | hwrngPort hcookie haccepted =>
    have howes' := hdeliver (by simp [hcookie])
    cases haccepted with
    | quiet => exact howes'
    | refused => exact howes'
    | connected haccept =>
      exact howes'.connect hL (he.deliver.accept_fresh haccept) (by simp) _
  | hwkeyPort hcookie _ haccepted =>
    have howes' := hdeliver (by simp [hcookie])
    cases haccepted with
    | quiet => exact howes'
    | connected haccept =>
      exact howes'.connect hL (he.deliver.accept_fresh haccept.2.1) (by simp) _
  | hwrngChan _ hcookie hc hchan herrs hhandled hpassed =>
    refine hpassed.owes (hhandled.lifecycle hL hc) (hhandled.owes hL hc ?_)
    intro q d hq hb hne
    exact hother q d hq hb (hchan ▸ hne)
  | @hwkeyChan p c _ hcookie hc hchan _ hhandled =>
    have howes' : Hwrng.Owes (s.deliver e).sys := by
      refine hdeliver fun q d hq heq => ?_
      obtain rfl : p = q := by simpa [hcookie] using heq
      exact absurd (hc.symm.trans hq) (by simp)
    have hdrop : Hwrng.Owes ((s.deliver e).sys.drop c.chan p) := howes'.drop hL hc
    cases hhandled with
    | quiet => exact howes'
    | hungUp => exact hdrop
    | unreadable => exact hdrop
    | replied => exact howes'
    | unsent => exact hdrop
  | noHandler _ hcookie =>
    have howes' := hdeliver (by simp [hcookie])
    refine howes'.of_frame fun q d hq _ => ⟨hq, ?_⟩
    exact Function.update_of_ne (he.deliver.chan_ne hL hq (by simp [hcookie])) _ _

/-- A step that does not run `hwrng_chan_handler` leaves the list alone. It leaves the
HWRNG contexts alone, too, or it accepts a connection on a handle that was not open, for which
it may add a context that waits for nothing. -/
lemma Dispatched.frame_hwrng {s s' : App D} {e : Event D} (h : Dispatched K e (s.deliver e) s')
    (hs : s.Wf) (he : EventOk s e) (hfor : ¬ ForHwrngChan s e) :
    s'.reqList = s.reqList ∧
      ((s'.rngLog = s.rngLog ∧
        ∀ q d, s'.sys.heap q = some (.hwrng d) → s.sys.heap q = some (.hwrng d)) ∨
      ∃ k, s.sys.objs k = none ∧ s'.rngLog = .opened k :: s.rngLog ∧
        ∀ q d, s'.sys.heap q = some (.hwrng d) →
          s.sys.heap q = some (.hwrng d) ∨ (q ∉ s.reqList ∧ d = ⟨k, 0, false⟩)) := by
  have hlist := s.deliver_reqList e
  have hlog := s.deliver_rngLog e
  have hheap := s.deliver_heap e
  have hdrop : ∀ h' p q d, ((s.deliver e).sys.drop h' p).heap q = some (.hwrng d) →
      s.sys.heap q = some (.hwrng d) := by
    intro h' p q d hq
    have hne : q ≠ p := by
      rintro rfl
      simp [Sys.drop] at hq
    rw [← hheap]
    simpa [Sys.drop, hne] using hq
  have hconnect : ∀ h' peer p c q d, ((s.deliver e).sys.connect h' peer p c).heap q =
      some (.hwrng d) → s.sys.heap q = some (.hwrng d) ∨ (q = p ∧ c = .hwrng d) := by
    intro h' peer p c q d hq
    rcases eq_or_ne q p with rfl | hne
    · exact Or.inr ⟨rfl, by simpa [Sys.connect] using hq⟩
    · left
      rw [← hheap]
      simpa [Sys.connect, hne] using hq
  have hsame : ∀ q d, (s.deliver e).sys.heap q = some (.hwrng d) →
      s.sys.heap q = some (.hwrng d) := fun q d hq => hheap ▸ hq
  cases h with
  | empty => exact ⟨hlist, Or.inl ⟨hlog, hsame⟩⟩
  | hwrngPort _ haccepted =>
    refine ⟨?_, ?_⟩
    · cases haccepted <;> exact hlist
    cases haccepted with
    | quiet => exact Or.inl ⟨hlog, hsame⟩
    | refused haccept =>
      exact Or.inr ⟨_, he.accept_fresh haccept, congrArg _ hlog,
        fun q d hq => Or.inl (hsame q d hq)⟩
    | @connected p haccept hp =>
      refine Or.inr ⟨_, he.accept_fresh haccept, congrArg _ hlog, fun q d hq => ?_⟩
      obtain hq | ⟨rfl, hd⟩ := hconnect _ _ _ _ q d hq
      · exact Or.inl hq
      · refine Or.inr ⟨fun hmem => ?_, (Ctx.hwrng.inj hd).symm⟩
        obtain ⟨d', hd'⟩ := hs.lifecycle.list_live q hmem
        exact absurd (hd'.symm.trans (he.calloc_fresh q hp)) (by simp)
  | hwkeyPort _ _ haccepted =>
    refine ⟨hlist, Or.inl ⟨hlog, fun q d hq => ?_⟩⟩
    cases haccepted with
    | quiet => exact hsame q d hq
    | connected =>
      obtain hq | ⟨-, hd⟩ := hconnect _ _ _ _ q d hq
      · exact hq
      · exact absurd hd (by simp)
  | @hwrngChan p c _ _ hflags hcookie hc =>
    exact absurd ⟨hflags, p, c, hcookie, hheap ▸ hc⟩ hfor
  | hwkeyChan _ _ _ _ hhandled =>
    refine ⟨hlist, Or.inl ⟨hlog, fun q d hq => ?_⟩⟩
    cases hhandled with
    | quiet => exact hsame q d hq
    | hungUp => exact hdrop _ _ q d hq
    | unreadable => exact hdrop _ _ q d hq
    | replied => exact hsame q d hq
    | unsent => exact hdrop _ _ q d hq
  | noHandler => exact ⟨hlist, Or.inl ⟨hlog, hsame⟩⟩

/-- An event for another handler strands nothing. -/
lemma NoStranded.of_other {s s' : App D} {e : Event D} (hns : NoStranded s)
    (h : Dispatched K e (s.deliver e) s') (hs : s.Wf) (he : EventOk s e)
    (howes : Hwrng.Owes s.sys) (hfor : ¬ ForHwrngChan s e) : NoStranded s' := by
  obtain ⟨hlist, hframe⟩ := h.frame_hwrng hs he hfor
  intro p hp c hc hsize
  rw [hlist] at hp
  have hc₀ : s.sys.heap p = some (.hwrng c) := by
    obtain ⟨-, hheap⟩ | ⟨k, -, -, hheap⟩ := hframe
    · exact hheap p c hc
    · obtain hc₀ | ⟨hnotin, -⟩ := hheap p c hc
      · exact hc₀
      · exact absurd hp hnotin
  have hb := (hns p hp c hc₀ hsize).1
  exact ⟨hb, h.owes hs he howes p c hc hb⟩

/-- What a step that runs `hwrng_chan_handler` does: it handles the event, then passes over
the list. -/
lemma Dispatched.of_hwrngChan {s s' : App D} {e : Event D} (h : Dispatched K e (s.deliver e) s')
    (hfor : ForHwrngChan s e) :
    ∃ p c w₁ w₂, s' = (s.deliver e).setHwrng w₂ ∧ e.cookie = some (.ctx p) ∧
      (s.deliver e).sys.heap p = some (.hwrng c) ∧ c.chan = e.handle ∧
      Hwrng.Handled K.uapi e.flags e.inbound p c (s.deliver e).hwrngWorld w₁ ∧
      Hwrng.Passed K.uapi e.send w₁.reqList w₁ w₂ := by
  obtain ⟨hflags, p, c, hcookie, hc⟩ := hfor
  cases h with
  | empty hempty => exact absurd hempty hflags
  | hwrngPort hcookie' => exact absurd (hcookie.symm.trans hcookie') (by simp)
  | hwkeyPort hcookie' => exact absurd (hcookie.symm.trans hcookie') (by simp)
  | hwkeyChan hcookie' hc' =>
    obtain rfl : p = _ := by simpa [hcookie] using hcookie'
    rw [App.deliver_heap] at hc'
    exact absurd (hc.symm.trans hc') (by simp)
  | noHandler _ hcookie' => exact absurd (hcookie.symm.trans hcookie') (by simp)
  | @hwrngChan p' c' w₁ w₂ _ hcookie' hc' hchan _ hhandled hpassed =>
    exact ⟨p', c', w₁, w₂, rfl, hcookie', hc', hchan, hhandled, hpassed⟩

/-- When `hwrng_chan_handler` returns, no request is stranded exactly if the sends on all
channels that it could serve and that had more than one message to come have failed. -/
lemma NoStranded.iff_of_hwrngChan {s s' : App D} {e : Event D}
    (h : Dispatched K e (s.deliver e) s') (hs : s.Wf) (howes : Hwrng.Owes s.sys)
    (hfor : ForHwrngChan s e) : NoStranded s' ↔ LongRepliesFail K s e := by
  obtain ⟨p, c, w₁, w₂, rfl, -, hc, hchan, hhandled, hpassed⟩ := h.of_hwrngChan hfor
  have hL := (hs.deliver e).lifecycle
  have hL₁ := hhandled.lifecycle hL hc
  have howes₁ : Hwrng.Owes w₁.sys := by
    refine hhandled.owes hL hc fun q d hq hb hne => ?_
    have hq : (s.deliver e).sys.heap q = some (.hwrng d) := hq
    rw [App.deliver_heap] at hq
    exact App.deliver_owed (howes q d hq hb) (hchan ▸ hne)
  have hpass := hpassed.settled_iff hL₁ howes₁ hL₁.list_nodup
  have hdemand : LongRepliesFail K s e ↔
      ∀ q ∈ w₁.reqList, ∀ d, w₁.sys.heap q = some (.hwrng d) → d.sendBlocked = false →
        4096 < d.reqSize.toNat → e.send d.chan < 0 := by
    have hiff := hhandled.demand_iff hL hc e.send
    rw [hchan] at hiff
    simpa only [LongRepliesFail, App.hwrngWorld, App.deliver_heap, App.deliver_reqList] using hiff
  rw [hdemand, ← hpass]
  refine ⟨fun hns q _ => hns q, fun hns q hq => ?_⟩
  by_cases hq₁ : q ∈ w₁.reqList
  · exact hns q hq₁ hq
  · exact absurd ((hpassed.frame hL₁ hq₁).2.1.mp hq) hq₁

/-! ## Runs -/

lemma owes_of_boot {b : Boot D} {s : App D} (h : boot b = .ok s) : Hwrng.Owes s.sys := by
  obtain ⟨-, hheap, -⟩ := boot_cases h
  intro p c hp
  exact absurd ((hheap p).symm.trans hp) (by simp)

lemma owes_of_reachable {s : App D} (h : (app D K).Reachable s) : s.Wf ∧ Hwrng.Owes s.sys := by
  refine h.invariant (fun s => s.Wf ∧ Hwrng.Owes s.sys) ?_ ?_
  · rintro s ⟨b, hb⟩
    exact ⟨boot_wf hb, owes_of_boot hb⟩
  · rintro s e t ⟨hs, howes⟩ he hstep
    have hd := step_ok hs he hstep
    exact ⟨hd.wf (hs.deliver e) he.deliver, hd.owes hs he howes⟩

/-- In every run, no return of `hwrng_chan_handler` leaves a request stranded exactly if each
time the sends fail on all channels that it can serve and that have more than 4096 bytes to
come; and then none is stranded in any state of the run. -/
theorem noStranded_iff {s₀ : App D} (h₀ : (app D K).init s₀) (es : List (Event D)) :
    ((app D K).Along s₀ es (fun s e s' => ForHwrngChan s e → NoStranded s') ↔
      (app D K).Along s₀ es (fun s e _ => ForHwrngChan s e → LongRepliesFail K s e)) ∧
    ∀ t, (app D K).Run s₀ es t →
      (app D K).Along s₀ es (fun s e _ => ForHwrngChan s e → LongRepliesFail K s e) →
      NoStranded t := by
  constructor
  · refine System.Along.iff_of_forall h₀ fun s e s' hreach he hstep => ?_
    obtain ⟨hs, howes⟩ := owes_of_reachable hreach
    have hd := step_ok hs he hstep
    exact forall_congr' fun hfor => NoStranded.iff_of_hwrngChan hd hs howes hfor
  · intro t hrun hcond
    obtain ⟨b, hb⟩ := h₀
    let I : App D → Prop := fun s => s.Wf ∧ Hwrng.Owes s.sys ∧ NoStranded s
    have hI₀ : I s₀ := by
      obtain ⟨-, -, hlist, -⟩ := boot_cases hb
      refine ⟨boot_wf hb, owes_of_boot hb, fun p hp => ?_⟩
      rw [hlist] at hp
      exact absurd hp (List.not_mem_nil)
    have hIstep : ∀ s e u, I s → EventOk s e → step K s e = .ok u →
        (ForHwrngChan s e → LongRepliesFail K s e) → I u := by
      rintro s e u ⟨hs, howes, hns⟩ he hstep hlong
      have hd := step_ok hs he hstep
      refine ⟨hd.wf (hs.deliver e) he.deliver, hd.owes hs he howes, ?_⟩
      by_cases hfor : ForHwrngChan s e
      · exact (NoStranded.iff_of_hwrngChan hd hs howes hfor).mpr (hlong hfor)
      · exact hns.of_other hd hs he howes hfor
    exact (hrun.invariant_of_along I hcond hI₀ hIstep).2.2

namespace Demo

/-- A client asks for 16 bytes. -/
def askFew : Event dev := message .hwrng 5 0 [16, 0, 0, 0]

/-- It asks for 5000 bytes, and there is no room for a message to it. -/
def askRefused : Event dev :=
  { message .hwrng 5 0 [0x88, 0x13, 0, 0] with send := fun _ => config.uapi.errNotEnoughBuffer }

/-- The run of both requests, in which the sends fail that have to. -/
lemma run_askRefused : ∃ t,
    (app dev config).Run started [connect .hwrng 5 0 0, askFew, askRefused] t ∧ t.reqList = [0] ∧
      (app dev config).Along started [connect .hwrng 5 0 0, askFew, askRefused]
        fun s e _ => ForHwrngChan s e → LongRepliesFail config s e := by
  obtain ⟨s, t, hs, hobj, ht, hlist⟩ : ∃ s t,
      (app dev config).step connected askFew = .ok s ∧
      s.sys.objs 5 = some ⟨true, .hwrng, 0, some (.ctx 0), false⟩ ∧
      (app dev config).step s askRefused = .ok t ∧ t.reqList = [0] := ⟨_, _, rfl, rfl, rfl, rfl⟩
  have hrun : (app dev config).Run started [connect .hwrng 5 0 0, askFew] s :=
    run_connect.snoc (admits_message .hwrng 0 rfl rfl rfl _) hs
  have hmsg := admits_message .hwrng 0 hobj rfl rfl [0x88, 0x13, 0, 0]
  have he : (app dev config).admits s askRefused :=
    ⟨hmsg.handle_open, hmsg.accept_fresh, hmsg.calloc_fresh, hmsg.jobs_drawn⟩
  refine ⟨t, hrun.snoc he ht, hlist,
    ((System.Along.nil.snoc .nil step_connect ?_).snoc run_connect hs ?_).snoc hrun ht ?_⟩
  · rintro ⟨-, p, c, hcookie, -⟩
    exact absurd hcookie (by simp [connect])
  · -- 16 bytes fit into one message
    rintro - p c hc k hk hlong
    have hp : p = 0 := by
      by_contra hne
      exact absurd hc (by simp [connected, started, Sys.connect, hne])
    subst hp
    obtain rfl : (⟨5, 0, false⟩ : HwrngChanCtx) = c := by simpa [connected, Sys.connect] using hc
    obtain rfl : (16 : Word) = k := Option.some.inj hk
    exact absurd hlong (by decide)
  · -- the send that would leave a part is refused
    rintro - p c - k - -
    exact config.uapi.errNotEnoughBuffer_neg

end Demo

/-- A request that fits into one message is answered, and a longer one is refused and stays on the
list, blocked: none is stranded. -/
theorem noStranded_iff_askRefused : ∃ t, (app Demo.dev Demo.config).Run Demo.started
      [Demo.connect .hwrng 5 0 0, Demo.askFew, Demo.askRefused] t ∧ t.reqList = [0] ∧
    (app Demo.dev Demo.config).Along Demo.started
      [Demo.connect .hwrng 5 0 0, Demo.askFew, Demo.askRefused]
      (fun s e s' => ForHwrngChan s e → NoStranded s') ∧ NoStranded t := by
  obtain ⟨t, hrun, hlist, hcond⟩ := Demo.run_askRefused
  obtain ⟨hiff, hend⟩ := noStranded_iff Demo.init_started
    [Demo.connect .hwrng 5 0 0, Demo.askFew, Demo.askRefused]
  exact ⟨t, hrun, hlist, hiff.mpr hcond, hend t hrun hcond⟩

/-- A client connects and asks for 5000 bytes: the first 4096 are sent to it, and it is left
on the list with 904 bytes outstanding, neither blocked nor served again. -/
theorem stranded_of_long_request :
    ∃ s, (app Demo.dev Demo.config).Run Demo.started
        [Demo.connect .hwrng 5 0 0, Demo.message .hwrng 5 0 [0x88, 0x13, 0, 0]] s ∧
      ¬ NoStranded s := by
  have he : EventOk Demo.connected (Demo.message .hwrng 5 0 [0x88, 0x13, 0, 0]) :=
    Demo.admits_message .hwrng 0 rfl rfl rfl _
  obtain ⟨s, hstep⟩ : ∃ s, step Demo.config Demo.connected
      (Demo.message .hwrng 5 0 [0x88, 0x13, 0, 0]) = .ok s := ⟨_, rfl⟩
  obtain ⟨hs, howes⟩ := owes_of_reachable Demo.reachable_connected
  have hfor : ForHwrngChan Demo.connected (Demo.message .hwrng 5 0 [0x88, 0x13, 0, 0]) :=
    ⟨by decide, 0, ⟨5, 0, false⟩, rfl, rfl⟩
  refine ⟨s, Demo.run_connect.trans (.one he hstep), ?_⟩
  rw [NoStranded.iff_of_hwrngChan (step_ok hs he hstep) hs howes hfor]
  intro hfail
  have hsend := hfail 0 ⟨5, 0, false⟩ rfl 5000 rfl (by decide)
  exact absurd hsend (by decide)

end TrustyLkNxp
