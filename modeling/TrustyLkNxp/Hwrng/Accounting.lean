import TrustyLkNxp.Hwrng.Stranded

/-!
# Byte accounting

Over the life of a channel the bytes its client has asked for are the bytes it was sent plus
the bytes outstanding.  `req_size` is a 32-bit sum, so the two sides differ by a multiple of
`2 ^ 32` once a request makes the sum wrap.  This file follows the difference through every
step.
-/

namespace TrustyLkNxp

open Ipc EventSystem

namespace Hwrng

variable {D : RngDev} {U : Uapi} {send : Handle → ℤ}

/-- The bytes asked for on a channel since it was opened. -/
def received (h : Handle) : List Act → ℕ
  | [] => 0
  | .opened k :: log => if k = h then 0 else received h log
  | .request k len :: log => received h log + if k = h then len.toNat else 0
  | .reply _ _ _ _ _ :: log => received h log

/-- The bytes successfully sent on a channel since it was opened. -/
def delivered (h : Handle) : List Act → ℕ
  | [] => 0
  | .opened k :: log => if k = h then 0 else delivered h log
  | .request _ _ :: log => delivered h log
  | .reply k data rc _ _ :: log => delivered h log + if k = h ∧ 0 ≤ rc then data.length else 0

/-- The bytes outstanding for a context. -/
def outstanding (l : List Ptr) (p : Ptr) (c : HwrngChanCtx) : ℕ :=
  if p ∈ l then c.reqSize.toNat else 0

/-- By how much the bytes asked for exceed those sent and outstanding. -/
def excess (w : World D) (p : Ptr) (c : HwrngChanCtx) : ℤ :=
  received c.chan w.log - delivered c.chan w.log - outstanding w.reqList p c

@[simp] lemma received_reply (h k : Handle) (data : List UInt8) (rc : ℤ) (lo hi : ℕ)
    (log : List Act) : received h (.reply k data rc lo hi :: log) = received h log := rfl

@[simp] lemma received_request (h k : Handle) (len : Word) (log : List Act) :
    received h (.request k len :: log) = received h log + if k = h then len.toNat else 0 := rfl

@[simp] lemma delivered_request (h k : Handle) (len : Word) (log : List Act) :
    delivered h (.request k len :: log) = delivered h log := rfl

@[simp] lemma delivered_reply (h k : Handle) (data : List UInt8) (rc : ℤ) (lo hi : ℕ)
    (log : List Act) : delivered h (.reply k data rc lo hi :: log) =
      delivered h log + if k = h ∧ 0 ≤ rc then data.length else 0 := rfl

lemma excess_congr {w w' : World D} {p : Ptr} {c : HwrngChanCtx} (hlog : w'.log = w.log)
    (hlist : p ∈ w'.reqList ↔ p ∈ w.reqList) : excess w' p c = excess w p c := by
  simp only [excess, outstanding, hlog, hlist]

/-! ## The pass -/

namespace Served

variable {p : Ptr} {c : HwrngChanCtx} {w w' : World D} {more : Bool}

/-- The turn of one channel logs nothing that counts for another. -/
lemma log_of_ne (h : Served U send p c w w' more) {k : Handle} (hk : k ≠ c.chan) :
    received k w'.log = received k w.log ∧ delivered k w'.log = delivered k w.log := by
  cases h <;> simp [World.replied, World.drop, hk.symm]

/-- A turn leaves a context that survives it with the excess it had. -/
lemma excess_eq (h : Served U send p c w w' more) (hL : Lifecycle w.sys w.reqList)
    (hc : w.sys.heap p = some (.hwrng c)) (hp : p ∈ w.reqList) {q : Ptr} {d : HwrngChanCtx}
    (hd : w'.sys.heap q = some (.hwrng d)) :
    ∃ d₀, w.sys.heap q = some (.hwrng d₀) ∧ d₀.chan = d.chan ∧ excess w' q d = excess w q d₀ := by
  rcases eq_or_ne q p with rfl | hne
  · refine ⟨c, hc, ?_⟩
    cases h with
    | skipped =>
      obtain rfl : c = d := by simpa [hc] using hd
      exact ⟨rfl, rfl⟩
    | blocked hb hget hrc =>
      obtain rfl : { c with sendBlocked := true } = d := by simpa [Sys.store_self] using hd
      have hneg : ¬ 0 ≤ send c.chan := not_le.mpr (hrc ▸ U.errNotEnoughBuffer_neg)
      exact ⟨rfl, by simp [excess, outstanding, World.replied, hneg, hp]⟩
    | failed => exact absurd hd (by simp [World.drop, Sys.drop])
    | @drained dev data hb hget hrc hsize =>
      obtain rfl : { c with reqSize := c.reqSize - chunk c.reqSize } = d := by
        simpa [Sys.store_self] using hd
      have hdata : data.length = c.reqSize.toNat := by
        rw [D.get_length _ _ _ _ hget, chunk_toNat]
        omega
      refine ⟨rfl, ?_⟩
      simp only [excess, outstanding, World.replied, received_reply, delivered_reply, hrc,
        and_self, if_true, hdata, hL.list_nodup.not_mem_erase, if_false, hp]
      omega
    | @partly dev data hb hget hrc hsize =>
      obtain rfl : { c with reqSize := c.reqSize - chunk c.reqSize } = d := by
        simpa [Sys.store_self] using hd
      have hdata : data.length = 4096 := by
        rw [D.get_length _ _ _ _ hget, chunk_toNat]
        omega
      have hrest := toNat_sub_chunk c.reqSize
      refine ⟨rfl, ?_⟩
      simp only [excess, outstanding, World.replied, received_reply, delivered_reply, hrc,
        and_self, if_true, hdata, hp, hrest]
      omega
  · obtain ⟨hheap, hlist⟩ := h.frame hne
    have hd₀ := hheap ▸ hd
    have hchan : d.chan ≠ c.chan := fun heq => hne (hL.chan_injective hd₀ hc heq)
    obtain ⟨hrec, hdel⟩ := h.log_of_ne hchan
    exact ⟨d, hd₀, rfl, by simp only [excess, outstanding, hrec, hdel, hlist]⟩

end Served

namespace Passed

variable {ps : List Ptr} {w w' : World D}

lemma excess_eq (h : Passed U send ps w w') (hL : Lifecycle w.sys w.reqList) {q : Ptr}
    {d : HwrngChanCtx} (hd : w'.sys.heap q = some (.hwrng d)) :
    ∃ d₀, w.sys.heap q = some (.hwrng d₀) ∧ d₀.chan = d.chan ∧ excess w' q d = excess w q d₀ := by
  induction h with
  | nil => exact ⟨d, hd, rfl, rfl⟩
  | cons hp hc hserved hpassed ih =>
    obtain ⟨d₁, hd₁, hchan₁, hex₁⟩ := ih (hserved.lifecycle hL hp hc) hd
    obtain ⟨d₀, hd₀, hchan₀, hex₀⟩ := hserved.excess_eq hL hc hp hd₁
    exact ⟨d₀, hd₀, hchan₀.trans hchan₁, hex₁.trans hex₀⟩

end Passed

/-- The channel is closed by the pass: it can be served, and the send fails for good. -/
def ClosedByPass (U : Uapi) (send : Handle → ℤ) (c : HwrngChanCtx) : Prop :=
  c.sendBlocked = false ∧ send c.chan < 0 ∧ send c.chan ≠ U.errNotEnoughBuffer

/-- A context on the list survives the pass unless the pass closes its channel. -/
lemma Passed.live_iff {ps : List Ptr} {w w' : World D} (h : Passed U send ps w w')
    (hL : Lifecycle w.sys w.reqList) (hnodup : ps.Nodup) {q : Ptr} {d : HwrngChanCtx}
    (hq : q ∈ ps) (hd : w.sys.heap q = some (.hwrng d)) :
    (∃ d', w'.sys.heap q = some (.hwrng d')) ↔ ¬ ClosedByPass U send d := by
  induction h with
  | nil => exact absurd hq (List.not_mem_nil)
  | @cons p ps c w w₁ w₂ more hp hc hserved hpassed ih =>
    obtain ⟨hnotin, hnodup'⟩ := List.nodup_cons.mp hnodup
    have hL₁ := hserved.lifecycle hL hp hc
    rcases List.mem_cons.mp hq with rfl | hq
    · obtain rfl : c = d := by simpa [hc] using hd
      rw [(hpassed.frame hL₁ hnotin).1]
      cases hserved with
      | skipped hb => simp [ClosedByPass, hb, hc]
      | blocked hb hget hrc => simp [ClosedByPass, hrc, Sys.store_self]
      | failed hb hget hneg hrc => simp [ClosedByPass, hb, hneg, hrc, World.drop, Sys.drop]
      | drained hb hget hrc => simp [ClosedByPass, not_lt.mpr hrc, Sys.store_self]
      | partly hb hget hrc => simp [ClosedByPass, not_lt.mpr hrc, Sys.store_self]
    · have hne : q ≠ p := fun heq => hnotin (heq ▸ hq)
      exact ih hL₁ hnodup' hq ((hserved.frame hne).1.trans hd)

/-! ## The event -/

/-- A request makes the 32-bit sum of the bytes outstanding wrap. -/
def Wraps (U : Uapi) (f : Flags) (m : Inbound) (l : List Ptr) (p : Ptr) (c : HwrngChanCtx) :
    Prop :=
  ∃ len, requestOf U f m = some len ∧ p ∈ l ∧ 2 ^ 32 ≤ c.reqSize.toNat + len.toNat

namespace Handled

variable {f : Flags} {m : Inbound} {p : Ptr} {c : HwrngChanCtx} {w w' : World D}

lemma log_of_ne (h : Handled U f m p c w w') {k : Handle} (hk : k ≠ c.chan) :
    received k w'.log = received k w.log ∧ delivered k w'.log = delivered k w.log := by
  cases h <;> simp [World.drop, World.store, hk.symm]

/-- Handling the event leaves the excess of the other channels as it was. -/
lemma excess_of_ne (h : Handled U f m p c w w') (hL : Lifecycle w.sys w.reqList)
    (hc : w.sys.heap p = some (.hwrng c)) {q : Ptr} (hq : q ≠ p) {d : HwrngChanCtx}
    (hd : w'.sys.heap q = some (.hwrng d)) :
    w.sys.heap q = some (.hwrng d) ∧ excess w' q d = excess w q d := by
  obtain ⟨hheap, hlist⟩ := h.frame hq
  have hd₀ := hheap ▸ hd
  have hchan : d.chan ≠ c.chan := fun heq => hq (hL.chan_injective hd₀ hc heq)
  obtain ⟨hrec, hdel⟩ := h.log_of_ne hchan
  exact ⟨hd₀, by simp only [excess, outstanding, hrec, hdel, hlist]⟩

/-- Its own channel keeps its excess when the sum does not wrap. -/
lemma excess_self (h : Handled U f m p c w w') (hc : w.sys.heap p = some (.hwrng c))
    (hwrap : ¬ Wraps U f m w.reqList p c) {d : HwrngChanCtx}
    (hd : w'.sys.heap p = some (.hwrng d)) : c.chan = d.chan ∧ excess w' p d = excess w p c := by
  cases h with
  | closed => exact absurd hd (by simp [World.drop, Sys.drop])
  | quiet =>
    obtain rfl : c = d := by simpa [hc] using hd
    exact ⟨rfl, rfl⟩
  | unblocked =>
    obtain rfl : { c with sendBlocked := false } = d := by
      simpa [World.store, Sys.store_self] using hd
    exact ⟨rfl, rfl⟩
  | @extended len hreq hp =>
    obtain rfl := by simpa [Sys.store_self] using hd
    have hsum : (c.reqSize + len).toNat = c.reqSize.toNat + len.toNat := by
      have hlt : c.reqSize.toNat + len.toNat < 2 ^ 32 := by
        by_contra hge
        exact hwrap ⟨len, hreq, hp, not_lt.mp hge⟩
      rw [BitVec.toNat_add, Nat.mod_eq_of_lt hlt]
    refine ⟨rfl, ?_⟩
    simp only [excess, outstanding, received_request, delivered_request, hp, if_true, hsum]
    omega
  | @queued len hreq hp =>
    obtain rfl := by simpa [Sys.store_self] using hd
    refine ⟨rfl, ?_⟩
    have hmem : p ∈ w.reqList ++ [p] := by simp
    simp only [excess, outstanding, received_request, delivered_request, hp, hmem, if_true,
      if_false]
    omega

/-- When the sum wraps the client is short of `2 ^ 32` bytes. -/
lemma excess_of_wraps (h : Handled U f m p c w w') (hwrap : Wraps U f m w.reqList p c) :
    ∃ d, w'.sys.heap p = some (.hwrng d) ∧ p ∈ w'.reqList ∧ d.chan = c.chan ∧
      d.sendBlocked = (c.sendBlocked && !f.sendUnblocked) ∧
      excess w' p d = excess w p c + 2 ^ 32 := by
  obtain ⟨len, hreq, hp, hge⟩ := hwrap
  cases h with
  | closed _ hnone => exact absurd (hreq.symm.trans hnone) (by simp)
  | quiet _ hmsg => exact absurd hreq (by simp [requestOf, hmsg])
  | unblocked _ hmsg => exact absurd hreq (by simp [requestOf, hmsg])
  | queued _ hnotin => exact absurd hp hnotin
  | @extended len' hreq' =>
    obtain rfl : len = len' := by simpa [hreq] using hreq'
    refine ⟨_, Sys.store_self .., hp, rfl, rfl, ?_⟩
    have hsum : (c.reqSize + len).toNat + 2 ^ 32 = c.reqSize.toNat + len.toNat := by
      have h₁ := c.reqSize.isLt
      have h₂ := len.isLt
      rw [BitVec.toNat_add, Nat.mod_eq_sub_mod hge, Nat.mod_eq_of_lt (by omega)]
      omega
    simp only [excess, outstanding, received_request, delivered_request, hp, if_true]
    omega

end Handled

end Hwrng

variable {D : Hwrng.RngDev} {K : Config}

/-! ## The steps of the application -/

/-- For every open HWRNG channel, the bytes received in requests are the bytes delivered and
the bytes outstanding. (The open channels are those of the live contexts.) -/
def Accounted (s : App D) : Prop :=
  ∀ p c, s.sys.heap p = some (.hwrng c) →
    Hwrng.received c.chan s.rngLog =
      Hwrng.delivered c.chan s.rngLog + Hwrng.outstanding s.reqList p c

/-- The event brings no request that makes the sum of the bytes outstanding on its channel
reach `2 ^ 32`, unless the channel is closed at once because it can be sent to and the send
fails for good. -/
def NoWrap (K : Config) (s : App D) (e : Event D) : Prop :=
  ∀ p c, e.cookie = some (.ctx p) → s.sys.heap p = some (.hwrng c) →
    Hwrng.Wraps K.uapi e.flags e.inbound s.reqList p c →
    (c.sendBlocked = true → e.flags.sendUnblocked = true) ∧ e.send c.chan < 0 ∧
      e.send c.chan ≠ K.uapi.errNotEnoughBuffer

lemma accounted_iff_excess {s : App D} : Accounted s ↔
    ∀ p c, s.sys.heap p = some (.hwrng c) → Hwrng.excess s.hwrngWorld p c = 0 := by
  refine forall₃_congr fun p c _ => ?_
  simp only [Hwrng.excess, App.hwrngWorld]
  omega

/-- A step that does not run `hwrng_chan_handler` keeps the accounts. -/
lemma Accounted.of_other {s s' : App D} {e : Event D} (hacc : Accounted s)
    (h : Dispatched K e (s.deliver e) s') (hs : s.Wf) (he : EventOk s e)
    (hfor : ¬ ForHwrngChan s e) : Accounted s' := by
  obtain ⟨hlist, ⟨hlog, hheap⟩ | ⟨k, hk, hlog, hheap⟩⟩ := h.frame_hwrng hs he hfor
  · intro p c hc
    rw [hlog, hlist]
    exact hacc p c (hheap p c hc)
  · intro p c hc
    rw [hlog, hlist]
    obtain hc₀ | ⟨hnotin, rfl⟩ := hheap p c hc
    · -- the new handle is not the channel of a context that was live before
      have hne : k ≠ c.chan := by
        rintro rfl
        obtain ⟨o, ho, -⟩ := hs.lifecycle.chan_open hc₀
        exact absurd (hk.symm.trans ho) (by simp)
      simpa [Hwrng.received, Hwrng.delivered, hne] using hacc p c hc₀
    · simp [Hwrng.received, Hwrng.delivered, Hwrng.outstanding, hnotin]

/-- A step that runs `hwrng_chan_handler` keeps the accounts exactly if the sum does not
wrap. -/
lemma Accounted.iff_of_hwrngChan {s s' : App D} {e : Event D} (hacc : Accounted s)
    (h : Dispatched K e (s.deliver e) s') (hs : s.Wf) (hfor : ForHwrngChan s e) :
    Accounted s' ↔ NoWrap K s e := by
  obtain ⟨p, c, w₁, w₂, rfl, hcookie, hc, hchan, hhandled, hpassed⟩ := h.of_hwrngChan hfor
  have hL := (hs.deliver e).lifecycle
  have hL₁ := hhandled.lifecycle hL hc
  rw [accounted_iff_excess] at hacc ⊢
  have hzero : ∀ q d, (s.deliver e).sys.heap q = some (.hwrng d) →
      Hwrng.excess (s.deliver e).hwrngWorld q d = 0 := by
    intro q d hq
    rw [App.deliver_heap] at hq
    rw [← hacc q d hq]
    exact Hwrng.excess_congr (s.deliver_rngLog e) (by rw [App.hwrngWorld, s.deliver_reqList e]; rfl)
  -- the other channels keep their accounts
  have hother : ∀ q d, q ≠ p → w₂.sys.heap q = some (.hwrng d) → Hwrng.excess w₂ q d = 0 := by
    intro q d hne hd
    obtain ⟨d₁, hd₁, -, hex₁⟩ := hpassed.excess_eq hL₁ hd
    obtain ⟨hd₀, hex₀⟩ := hhandled.excess_of_ne hL hc hne hd₁
    exact hex₁.trans (hex₀.trans (hzero q d₁ hd₀))
  have hwraps : Hwrng.Wraps K.uapi e.flags e.inbound (s.deliver e).reqList p c ↔
      Hwrng.Wraps K.uapi e.flags e.inbound s.reqList p c := by rw [s.deliver_reqList e]
  have hnowrap : NoWrap K s e ↔
      (Hwrng.Wraps K.uapi e.flags e.inbound s.reqList p c →
        (c.sendBlocked = true → e.flags.sendUnblocked = true) ∧ e.send c.chan < 0 ∧
          e.send c.chan ≠ K.uapi.errNotEnoughBuffer) := by
    rw [App.deliver_heap] at hc
    refine ⟨fun hn => hn p c hcookie hc, fun hn q d hq hd => ?_⟩
    obtain rfl : p = q := by simpa [hcookie] using hq
    obtain rfl : c = d := by simpa [hc] using hd
    exact hn
  rw [hnowrap]
  by_cases hwrap : Hwrng.Wraps K.uapi e.flags e.inbound s.reqList p c
  · obtain ⟨d, hd, hmem, hdchan, hdb, hex⟩ := hhandled.excess_of_wraps (hwraps.mpr hwrap)
    have hclosed : Hwrng.ClosedByPass K.uapi e.send d ↔
        (c.sendBlocked = true → e.flags.sendUnblocked = true) ∧ e.send c.chan < 0 ∧
          e.send c.chan ≠ K.uapi.errNotEnoughBuffer := by
      rw [Hwrng.ClosedByPass, hdchan, hdb]
      cases c.sendBlocked <;> cases e.flags.sendUnblocked <;> simp
    have hlive := hpassed.live_iff hL₁ hL₁.list_nodup hmem hd
    rw [hclosed] at hlive
    rw [forall_prop_of_true hwrap]
    constructor
    · intro hacc'
      by_contra hnot
      obtain ⟨d', hd'⟩ := hlive.mpr hnot
      obtain ⟨d₁, hd₁, -, hex₁⟩ := hpassed.excess_eq hL₁ hd'
      obtain rfl : d = d₁ := by simpa [hd] using hd₁
      have hbad : Hwrng.excess w₂ p d' = 0 := hacc' p d' hd'
      rw [hex₁, hex, hzero p c hc] at hbad
      exact absurd hbad (by norm_num)
    · intro hclose q d' hd'
      rcases eq_or_ne q p with rfl | hne
      · exact absurd hclose (hlive.mp ⟨d', hd'⟩)
      · exact hother q d' hne hd'
  · refine iff_of_true ?_ fun hw => absurd hw hwrap
    intro q d hd
    rcases eq_or_ne q p with rfl | hne
    · obtain ⟨d₁, hd₁, -, hex₁⟩ := hpassed.excess_eq hL₁ hd
      obtain ⟨-, hex₀⟩ := hhandled.excess_self hc (mt hwraps.mp hwrap) hd₁
      exact hex₁.trans (hex₀.trans (hzero q c hc))
    · exact hother q d hne hd

lemma noWrap_of_other {s : App D} {e : Event D} (hfor : ¬ ForHwrngChan s e) : NoWrap K s e := by
  rintro p c hcookie hc ⟨len, hreq, -⟩
  refine absurd ⟨fun hflags => ?_, p, c, hcookie, hc⟩ hfor
  simp [Hwrng.requestOf, hflags] at hreq

/-- A step keeps the accounts exactly if it brings no request that makes the sum wrap. -/
lemma Accounted.step_iff {s s' : App D} {e : Event D} (hacc : Accounted s) (hs : s.Wf)
    (he : EventOk s e) (h : step K s e = .ok s') : Accounted s' ↔ NoWrap K s e := by
  have hd := step_ok hs he h
  by_cases hfor : ForHwrngChan s e
  · exact hacc.iff_of_hwrngChan hd hs hfor
  · exact iff_of_true (hacc.of_other hd hs he hfor) (noWrap_of_other hfor)

/-! ## Runs -/

lemma accounted_of_boot {b : Boot D} {s : App D} (h : boot b = .ok s) : Accounted s := by
  obtain ⟨-, hheap, -⟩ := boot_cases h
  intro p c hp
  exact absurd ((hheap p).symm.trans hp) (by simp)

/-- In every run, the bytes received on each open HWRNG channel are, after every event, the
bytes delivered and the bytes outstanding exactly if no request on the way makes the 32-bit sum
of the bytes outstanding wrap on a channel that stays open. -/
theorem accounted_iff {s₀ : App D} (h₀ : (app D K).init s₀) (es : List (Event D)) :
    (∀ before after t, es = before ++ after → (app D K).Run s₀ before t → Accounted t) ↔
      (app D K).Along s₀ es (fun s e _ => NoWrap K s e) := by
  constructor
  · intro hacc before e after hes t u hrun he hstep
    have ht : Accounted t := hacc before (e :: after) t hes hrun
    have hu : Accounted u := hacc (before ++ [e]) after u (by simp [hes]) (hrun.snoc he hstep)
    have hs := wf_of_reachable ⟨s₀, before, h₀, hrun⟩
    exact (ht.step_iff hs he hstep).mp hu
  · rintro hcond before after t rfl hrun
    obtain ⟨b, hb⟩ := h₀
    have hstep : ∀ (s : App D) (e : Event D) (u : App D), s.Wf ∧ Accounted s → EventOk s e →
        step K s e = .ok u → NoWrap K s e → u.Wf ∧ Accounted u := by
      rintro s e u ⟨hs, hacc⟩ he hstep hnw
      exact ⟨(step_ok hs he hstep).wf (hs.deliver e) he.deliver,
        (hacc.step_iff hs he hstep).mpr hnw⟩
    exact (hrun.invariant_of_along (fun s => s.Wf ∧ Accounted s) hcond.of_append
      ⟨boot_wf hb, accounted_of_boot hb⟩ hstep).2

theorem accounted_iff_request :
    (∀ before after t, [Demo.connect .hwrng 5 0 0, Demo.message .hwrng 5 0 [1, 0, 0, 0]] =
        before ++ after → (app Demo.dev Demo.config).Run Demo.started before t → Accounted t) ↔
      (app Demo.dev Demo.config).Along Demo.started
        [Demo.connect .hwrng 5 0 0, Demo.message .hwrng 5 0 [1, 0, 0, 0]]
        (fun s e _ => NoWrap Demo.config s e) :=
  accounted_iff Demo.init_started _

/-- A client asks for `2 ^ 32 - 1` bytes and then for 8192 more: the sum wraps, and after 8191
bytes the service considers both requests served. -/
theorem not_accounted_of_wrap :
    ∃ t, (app Demo.dev Demo.config).Run Demo.started
        [Demo.connect .hwrng 5 0 0, Demo.message .hwrng 5 0 [0xff, 0xff, 0xff, 0xff],
          Demo.message .hwrng 5 0 [0, 0x20, 0, 0]] t ∧ ¬ Accounted t := by
  have he₁ : EventOk Demo.connected (Demo.message .hwrng 5 0 [0xff, 0xff, 0xff, 0xff]) :=
    Demo.admits_message .hwrng 0 rfl rfl rfl _
  obtain ⟨s, t, hstep₁, hobj, hlist, hheap, hstep₂⟩ : ∃ s t,
      step Demo.config Demo.connected (Demo.message .hwrng 5 0 [0xff, 0xff, 0xff, 0xff]) = .ok s ∧
      s.sys.objs 5 = some ⟨true, .hwrng, 0, some (.ctx 0), false⟩ ∧ s.reqList = [0] ∧
      s.sys.heap 0 = some (.hwrng ⟨5, 0xffffefff, false⟩) ∧
      step Demo.config s (Demo.message .hwrng 5 0 [0, 0x20, 0, 0]) = .ok t :=
    ⟨_, _, rfl, rfl, rfl, rfl, rfl⟩
  have he₂ : EventOk s (Demo.message .hwrng 5 0 [0, 0x20, 0, 0]) :=
    Demo.admits_message .hwrng 0 hobj rfl rfl _
  have hrun := Demo.run_connect.trans (.one he₁ hstep₁)
  have hs := wf_of_reachable ⟨_, _, Demo.init_started, hrun⟩
  have hconn : Accounted Demo.connected := by
    intro p c _
    simp [Demo.connected, Hwrng.received, Hwrng.delivered, Hwrng.outstanding, Demo.started]
  have haccs : Accounted s := by
    refine (hconn.step_iff (wf_of_reachable Demo.reachable_connected) he₁ hstep₁).mpr ?_
    rintro p c - - ⟨len, -, hmem, -⟩
    exact absurd hmem (List.not_mem_nil)
  refine ⟨t, hrun.snoc he₂ hstep₂, fun hacc => ?_⟩
  have hwraps : Hwrng.Wraps Demo.config.uapi { msg := true }
      (Demo.message .hwrng 5 0 [0, 0x20, 0, 0]).inbound s.reqList 0 ⟨5, 0xffffefff, false⟩ :=
    ⟨0x2000, rfl, by simp [hlist], by decide⟩
  obtain ⟨-, hneg, -⟩ := (haccs.step_iff hs he₂ hstep₂).mp hacc 0 _ rfl hheap hwraps
  exact absurd hneg (by decide)

end TrustyLkNxp
