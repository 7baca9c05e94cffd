import TrustyLkNxp.Hwrng.Refinement
import TrustyLkNxp.Hwkey.Startup

/-!
# When the application stops

An event stops the application when it carries a flag its handler aborts on, when the provider of
random bytes fails on one of the messages of the round it sets off, or when it asks for the RPMB
key and the CAAM driver does not return from unwrapping it.  This file shows that nothing else
does: no other request, no order of events and no result of a send.  On a board that works the
driver always returns, and the provider never fails.
-/

namespace TrustyLkNxp

namespace Hwrng

open Ipc

variable {D : RngDev} {U : Uapi} {send : Handle → ℤ}

/-- The provider generates the bytes of several messages, one after the other. -/
def RngDev.draws (D : RngDev) : D.σ → List ℕ → Option D.σ
  | s, [] => some s
  | s, len :: lens => (D.get s (BitVec.ofNat 32 len)).bind fun r => D.draws r.1 lens

/-- The lengths of the messages of a pass over some nodes. -/
def World.lens (w : World D) (ps : List Ptr) : List ℕ :=
  ((w.ctxs ps).filter (!·.2.sendBlocked)).map fun x => min x.2.reqSize.toNat 4096

lemma ofNat_min (n : Word) : BitVec.ofNat 32 (min n.toNat 4096) = chunk n := by
  rw [← chunk_toNat, BitVec.ofNat_toNat, BitVec.setWidth_eq]

/-- One turn stops the application exactly if the provider fails on its message. -/
lemma hwrngServe_abort_iff {w : World D} {p : Ptr} {c : HwrngChanCtx}
    (hL : Lifecycle w.sys w.reqList) (hc : w.sys.heap p = some (.hwrng c)) :
    hwrngServe U send w p = .error .abort ↔
      c.sendBlocked = false ∧ D.get w.dev (chunk c.reqSize) = none := by
  constructor
  · intro herr
    have hb : c.sendBlocked = false := by
      by_contra hb
      rw [hwrngServe, Sys.hwrngCtx_eq hc, Except.bind_ok, if_pos (by simpa using hb)] at herr
      exact absurd herr (by simp [pure, Except.pure])
    obtain ⟨-, hget⟩ | ⟨w', more, hok, -⟩ := hwrngServe_spec (U := U) send hL hc
    · exact ⟨hb, hget⟩
    · exact absurd (hok.symm.trans herr) (by simp)
  · rintro ⟨hb, hget⟩
    obtain ⟨herr, -⟩ | ⟨w', more, -, hserved⟩ := hwrngServe_spec (U := U) send hL hc
    · exact herr
    · cases hserved with
      | skipped hb' => exact absurd (hb.symm.trans hb') (by simp)
      | blocked _ hget' => exact absurd (hget.symm.trans hget') (by simp)
      | failed _ hget' => exact absurd (hget.symm.trans hget') (by simp)
      | drained _ hget' => exact absurd (hget.symm.trans hget') (by simp)
      | partly _ hget' => exact absurd (hget.symm.trans hget') (by simp)

/-- What the provider has done after a turn. -/
lemma Served.dev {p : Ptr} {c : HwrngChanCtx} {w w' : World D} {more : Bool}
    (h : Served U send p c w w' more) :
    (c.sendBlocked = true ∧ w'.dev = w.dev) ∨
      (c.sendBlocked = false ∧
        ∃ data, D.get w.dev (chunk c.reqSize) = some (w'.dev, data)) := by
  cases h with
  | skipped hb => exact Or.inl ⟨hb, rfl⟩
  | blocked hb hget => exact Or.inr ⟨hb, _, hget⟩
  | failed hb hget => exact Or.inr ⟨hb, _, hget⟩
  | drained hb hget => exact Or.inr ⟨hb, _, hget⟩
  | partly hb hget => exact Or.inr ⟨hb, _, hget⟩

/-- A pass stops the application exactly if the provider fails on one of its messages. -/
lemma hwrngPass_abort_iff {ps : List Ptr} {w : World D} (b : Bool)
    (hL : Lifecycle w.sys w.reqList) (hps : ∀ p ∈ ps, p ∈ w.reqList) (hnodup : ps.Nodup) :
    hwrngPass U send ps w b = .error .abort ↔ D.draws w.dev (w.lens ps) = none := by
  induction ps generalizing w b with
  | nil => exact iff_of_false (by simp [hwrngPass, pure, Except.pure]) (by
      simp [World.lens, World.ctxs, RngDev.draws])
  | cons p ps ih =>
    have hp : p ∈ w.reqList := hps p List.mem_cons_self
    obtain ⟨hnot, hnodup'⟩ := List.nodup_cons.mp hnodup
    obtain ⟨c, hc⟩ := hL.list_live p hp
    have hctxs := World.ctxs_cons (World.ctx_eq_some.mpr hc) ps
    obtain ⟨herr, -⟩ | ⟨w₁, more, hok, hserved⟩ := hwrngServe_spec (U := U) send hL hc
    · obtain ⟨hb, hget⟩ := (hwrngServe_abort_iff hL hc).mp herr
      refine iff_of_true (by rw [hwrngPass, herr, Except.bind_error]) ?_
      simp [World.lens, hctxs, hb, RngDev.draws, ofNat_min, hget]
    -- the contexts ahead are as before
    have hne : ∀ q ∈ ps, q ≠ p := by
      rintro q hq rfl
      exact hnot hq
    have hsame : w₁.ctxs ps = w.ctxs ps :=
      World.ctxs_congr fun q hq => World.ctx_congr (hserved.frame (hne q hq)).1
    have hps' : ∀ q ∈ ps, q ∈ w₁.reqList := fun q hq =>
      (hserved.frame (hne q hq)).2.mpr (hps q (List.mem_cons_of_mem _ hq))
    rw [hwrngPass_cons hok, ih (b || more) (hserved.lifecycle hL hp hc) hps' hnodup']
    obtain ⟨hb, hdev⟩ | ⟨hb, data, hget⟩ := hserved.dev
    · simp [World.lens, hctxs, hsame, hb, hdev]
    · simp [World.lens, hctxs, hsame, hb, RngDev.draws, ofNat_min, hget]

lemma close_ne_abort (s : Sys) (h : Handle) : s.close h ≠ .error .abort := by
  rw [Sys.close]
  split <;> simp

lemma free_ne_abort (s : Sys) (p : Ptr) : s.free p ≠ .error .abort := by
  rw [Sys.free]
  split <;> simp

/-- The handler of the port aborts on its flags only. -/
lemma hwrngPortHandler_abort_iff (f : Flags) (a : Answers) (w : World D) :
    hwrngPortHandler f a w = .error .abort ↔ portErrors f = true := by
  rw [hwrngPortHandler]
  cases portErrors f with
  | true => exact iff_of_true rfl rfl
  | false =>
    refine iff_of_false (fun herr => ?_) (by simp)
    simp only [Bool.false_eq_true, if_false] at herr
    by_cases hready : f.ready = true
    swap
    · exact absurd herr (by simp [hready, pure, Except.pure])
    by_cases hneg : a.accept < 0
    · exact absurd herr (by simp [hready, hneg, pure, Except.pure])
    simp only [hready, if_true, hneg, if_false] at herr
    cases hp : a.calloc with
    | none =>
      rw [hp] at herr
      obtain herr | ⟨_, -, herr⟩ := Except.bind_eq_error.mp herr
      · exact close_ne_abort _ _ herr
      · exact absurd herr (by simp [pure, Except.pure])
    | some p =>
      simp only [hp] at herr
      split_ifs at herr
      · obtain herr | ⟨_, -, herr⟩ := Except.bind_eq_error.mp herr
        · exact free_ne_abort _ _ herr
        obtain herr | ⟨_, -, herr⟩ := Except.bind_eq_error.mp herr
        · exact close_ne_abort _ _ herr
        · exact absurd herr (by simp [pure, Except.pure])
      · exact absurd herr (by simp [pure, Except.pure])

/-- The handler of a channel aborts on its flags, and when the provider fails. -/
lemma hwrngChanHandler_abort_iff {handle : Handle} (f : Flags) (a : Answers) (w : World D) {p : Ptr}
    {c : HwrngChanCtx} (hL : Lifecycle w.sys w.reqList) (hc : w.sys.heap p = some (.hwrng c))
    (hchan : c.chan = handle) :
    ∃ w₁, Handled U f a.inbound p c w w₁ ∧
      (hwrngChanHandler U handle f a w p = .error .abort ↔
        chanErrors f = true ∨ D.draws w.dev (w₁.lens w₁.reqList) = none) := by
  obtain ⟨w₁, hok, hhandled⟩ := hwrngChanEvent_spec U f a hL hc
  have hL₁ := hhandled.lifecycle hL hc
  refine ⟨w₁, hhandled, ?_⟩
  rw [hwrngChanHandler, Sys.hwrngCtx_eq hc, Except.bind_ok, if_neg (by simp [hchan])]
  cases chanErrors f with
  | true => exact iff_of_true rfl (Or.inl rfl)
  | false =>
    have hdev : w₁.dev = w.dev := by cases hhandled <;> rfl
    have hpass : hwrngPass U a.send w₁.reqList w₁ false = .error .abort ↔
        D.draws w₁.dev (w₁.lens w₁.reqList) = none :=
      hwrngPass_abort_iff false hL₁ (fun p hp => hp) hL₁.list_nodup
    rw [hdev] at hpass
    simp only [Bool.false_eq_true, if_false, false_or, hok]
    rw [← hpass]
    change (hwrngPass U a.send w₁.reqList w₁ false >>= _) = _ ↔ _
    rw [Except.bind_eq_error]
    simp

/-- These are the lengths of the offers of the round. -/
lemma World.lens_eq (w : World D) (verdict : Handle → Rounds.Verdict) :
    w.lens w.reqList =
      ((w.service U).queue.filterMap (Rounds.Entry.offer rule verdict)).map (·.2.1) := by
  rw [World.lens, World.service, World.queue, List.filterMap_map, List.map_filterMap,
    ← List.filterMap_eq_filter, List.map_filterMap]
  refine List.filterMap_congr fun x _ => ?_
  cases hb : x.2.sendBlocked <;> simp [Rounds.Entry.offer, waits, hb, rule, Option.guard]

end Hwrng

open Ipc EventSystem

variable {D : Hwrng.RngDev} {K : Config}

/-- The lengths of the messages of the round an event sets off. -/
def App.asked (K : Config) (s : App D) (e : Event D) : List ℕ :=
  (e.told K).elim [] fun i =>
    (((s.rounds K.uapi).hear Hwrng.rule i.1).queue.filterMap
      (Rounds.Entry.offer Hwrng.rule i.2)).map (·.2.1)

lemma Event.healthy_of_empty {e : Event D} (h : e.flags = {}) : e.Healthy := by
  rw [Event.Healthy, h]
  rcases e.cookie with _ | _ | _
  · trivial
  · rfl
  · rfl

/-- When the event is for a client of the HWRNG service. -/
lemma stops_iff_of_hwrngChan {s : App D} {e : Event D} (hs : s.Wf) (he : EventOk s e)
    (hfor : ForHwrngChan s e) :
    (∃ stop, step K s e = .error stop) ↔
      ¬ e.Healthy ∨ D.draws s.dev (s.asked K e) = none := by
  have htold := Event.told_eq_some (K := K) hs he hfor
  obtain ⟨hflags, p, c, hcookie, hc⟩ := hfor
  have hL := (hs.deliver e).lifecycle
  rw [← App.deliver_heap s e] at hc
  obtain ⟨_, hx, hchan⟩ := he.deliver.ctx_live hL hcookie
  obtain rfl := Option.some.inj (hc.symm.trans hx)
  obtain ⟨w₁, hhandled, hiff⟩ := Hwrng.hwrngChanHandler_abort_iff (U := K.uapi) e.flags e.hwrng
    (s.deliver e).hwrngWorld hL hc hchan
  have hdev : (s.deliver e).dev = s.dev := by
    rw [App.deliver]
    split <;> rfl
  have hasked : w₁.lens w₁.reqList = s.asked K e := by
    rw [App.asked, htold, Option.elim_some, ← s.deliver_rounds K.uapi e, Hwrng.World.lens_eq,
      hhandled.service hL hc]
    rw [show c.chan = e.handle from hchan]
    rfl
  have hstep : step K s e = (s.deliver e).setHwrng <$>
      Hwrng.hwrngChanHandler K.uapi e.handle e.flags e.hwrng (s.deliver e).hwrngWorld p := by
    rw [step, dispatchEvent, if_neg hflags, hcookie]
    simp only [hc]
  have hmap : (∃ stop, step K s e = .error stop) ↔ Hwrng.hwrngChanHandler K.uapi e.handle e.flags
      e.hwrng (s.deliver e).hwrngWorld p = .error .abort := by
    rw [hstep]
    obtain herr | ⟨_, _, hok, -⟩ := Hwrng.hwrngChanHandler_spec K.uapi e.flags e.hwrng
      (s.deliver e).hwrngWorld hL hc hchan
    · simp [herr, Functor.map, Except.map]
    · simp [hok, Functor.map, Except.map]
  have hhealthy : e.Healthy ↔ chanErrors e.flags = false := by
    simp only [Event.Healthy, hcookie]
  rw [hmap, hiff, hasked, hhealthy, Bool.not_eq_false]
  exact or_congr_right (by rw [← hdev]; rfl)

/-- When the event is for the port of the HWRNG service. -/
lemma stops_iff_of_hwrngPort {s : App D} {e : Event D} (he : EventOk s e)
    (hflags : e.flags ≠ {}) (hport : e.cookie = some (.port .hwrng)) :
    (∃ stop, step K s e = .error stop) ↔ ¬ e.Healthy := by
  have hhealthy : e.Healthy ↔ portErrors e.flags = false := by simp only [Event.Healthy, hport]
  have hstep : step K s e = (s.deliver e).setHwrng <$>
      Hwrng.hwrngPortHandler e.flags e.hwrng (s.deliver e).hwrngWorld := by
    rw [step, dispatchEvent, if_neg hflags, hport]
  rw [hhealthy, Bool.not_eq_false, ← Hwrng.hwrngPortHandler_abort_iff e.flags e.hwrng
    (s.deliver e).hwrngWorld, hstep]
  obtain herr | ⟨_, hok, -⟩ := Hwrng.hwrngPortHandler_spec e.flags e.hwrng (s.deliver e).hwrngWorld
    he.deliver.accept_fresh he.deliver.calloc_fresh
  · simp [herr, Functor.map, Except.map]
  · simp [hok, Functor.map, Except.map]

/-- When the event is not for the HWRNG service. -/
lemma stops_iff_of_not_hwrng {s : App D} {e : Event D} (hs : s.Wf) (he : EventOk s e)
    (hslots : s.hwkey.keySlots = Hwkey.keys K.proto) (hfor : ¬ e.ForHwrng (s.deliver e).sys) :
    (∃ stop, step K s e = .error stop) ↔ ¬ e.Healthy ∨ UnwrapStops K s e := by
  constructor
  · rintro ⟨stop, hstop⟩
    by_contra hnone
    rw [not_or, not_not] at hnone
    obtain ⟨hhealthy, hreturns⟩ := hnone
    have hanswered : ¬ s.server.Unanswered K s.hwkey.prov e := by
      intro hun
      have herrs : chanErrors e.flags = false := by
        obtain ⟨p, c, req, hcookie, -⟩ := hun
        simpa only [Event.Healthy, hcookie] using hhealthy
      exact hreturns ((unanswered_iff hs he herrs).mp hun)
    obtain ⟨t, ht⟩ := step_total hs he hslots hfor hhealthy hanswered
    exact absurd (ht.symm.trans hstop) (by simp)
  · rintro (hhealthy | hstops)
    · obtain ⟨stop, -, herr⟩ | ⟨t, -, hd⟩ := step_spec (K := K) hs he
      · exact ⟨stop, herr⟩
      · exact absurd (hd.healthy hfor) hhealthy
    · exact ⟨.driver, step_of_unanswered hs hslots he hstops.asks.errors
        ((unanswered_iff hs he hstops.asks.errors).mpr hstops)⟩

/-- A request for the RPMB key is for a client of the HWKEY service. -/
lemma AsksRpmbKey.not_hwrng {s : App D} {e : Event D} (h : AsksRpmbKey K s e) :
    ¬ e.ForHwrng s.sys := by
  obtain ⟨p, c, -, hcookie, hc, -⟩ := h.client
  rintro (hport | ⟨q, x, hctx, hx⟩)
  · exact absurd (hcookie.symm.trans hport) (by simp)
  · obtain rfl : p = q := by simpa using hcookie.symm.trans hctx
    exact absurd (hc.symm.trans hx) (by simp)

/-- Whatever the provider and the driver yield, an event stops the application exactly if it
carries a flag its handler aborts on, if the provider fails on one of the messages of the round
it sets off, or if it asks for the RPMB key and the driver does not return. -/
lemma stops_iff_of_serving {s : App D} {e : Event D} (hserving : Serving K s) (he : EventOk s e) :
    (∃ stop, step K s e = .error stop) ↔
      ¬ e.Healthy ∨ D.draws s.dev (s.asked K e) = none ∨ UnwrapStops K s e := by
  have hs := hserving.wf
  have hheap : (s.deliver e).sys.heap = s.sys.heap := s.deliver_heap e
  by_cases hchan : ForHwrngChan s e
  · have hfor : e.ForHwrng s.sys := by
      obtain ⟨-, p, c, hcookie, hc⟩ := hchan
      exact Or.inr ⟨p, c, hcookie, hc⟩
    have hno : ¬ UnwrapStops K s e := fun hstops => hstops.asks.not_hwrng hfor
    rw [stops_iff_of_hwrngChan hs he hchan, or_iff_left hno]
  -- no round is set off
  have hdraws : D.draws s.dev (s.asked K e) ≠ none := by
    rw [App.asked, Event.told_eq_none hs he hchan]
    exact Option.some_ne_none _
  rw [or_iff_right (a := D.draws s.dev (s.asked K e) = none) hdraws]
  by_cases hfor : e.ForHwrng (s.deliver e).sys
  swap
  · exact stops_iff_of_not_hwrng hs he hserving.slots hfor
  have hno : ¬ UnwrapStops K s e := by
    intro hstops
    refine hstops.asks.not_hwrng ?_
    rwa [Event.ForHwrng, hheap] at hfor
  rw [or_iff_left hno]
  by_cases hflags : e.flags = {}
  · refine iff_of_false ?_ (not_not.mpr (Event.healthy_of_empty hflags))
    simp [step, dispatchEvent, hflags]
  obtain hport | ⟨p, x, hcookie, hx⟩ := hfor
  · exact stops_iff_of_hwrngPort he hflags hport
  · exact absurd ⟨hflags, p, x, hcookie, hheap ▸ hx⟩ hchan

/-! ## On the CAAM -/

section

variable {E : Caam.Platform} {L : Hwkey.Layout}

/-- In every state the application reaches after start-up, an event stops it exactly if it carries
a flag its handler aborts on, if the driver yields no random bytes for one of the messages of the
round it sets off, or if the secure storage server asks for its key, there is one, and the driver
aborts or waits forever when it unwraps it. -/
theorem stops_iff {m₀ : Caam.Machine} {s : App (Caam.caamDev E L.rngData)}
    (hs : (appOnCaam E L K m₀).Reachable s) {e : Event (Caam.caamDev E L.rngData)}
    (he : (appOnCaam E L K m₀).admits s e) :
    (∃ stop, step K s e = .error stop) ↔
      ¬ e.Healthy ∨ (Caam.caamDev E L.rngData).draws s.dev (s.asked K e) = none ∨
        (AsksRpmbKey K s e ∧ s.hwkey.prov.rpmbKeyblobLen = BitVec.ofNat 32 Hwkey.rpmbkeyLen ∧
          ∃ halt, (unwrapRpmb E L s.dev).1 = .error halt) := by
  obtain ⟨he, hcaam⟩ := he
  have hunwrap : UnwrapStops K s e ↔ AsksRpmbKey K s e ∧
      s.hwkey.prov.rpmbKeyblobLen = BitVec.ofNat 32 Hwkey.rpmbkeyLen ∧
        ∃ halt, (unwrapRpmb E L s.dev).1 = .error halt := by
    rw [← hcaam.decap_eq_none]
    exact ⟨fun h => ⟨h.asks, h.blob, h.stops⟩, fun ⟨hasks, hblob, hstops⟩ => ⟨hasks, hblob, hstops⟩⟩
  rw [stops_iff_of_serving (serving_of_reachable hs) he, hunwrap]

/-- A provider that always yields a message yields any number of them. -/
lemma Hwrng.RngDev.draws_ne_none
    (hget : ∀ s n, n ≤ 4096 → ∃ s' data, D.get s (BitVec.ofNat 32 n) = some (s', data))
    {lens : List ℕ} (hlens : ∀ n ∈ lens, n ≤ 4096) (s : D.σ) : D.draws s lens ≠ none := by
  induction lens generalizing s with
  | nil => exact Option.some_ne_none s
  | cons n lens ih =>
    obtain ⟨s', data, hs⟩ := hget s n (hlens n List.mem_cons_self)
    rw [Hwrng.RngDev.draws, hs, Option.bind_some]
    exact ih (fun k hk => hlens k (List.mem_cons_of_mem _ hk)) s'

/-- The provider on a CAAM that works always yields a message. -/
lemma caamDev_get (hE : E.Works) {rngData : ℕ} (hprep : E.Prepared true rngData 4096)
    (hinj : Set.InjOn E.mmu (Memory.range rngData 4096)) (m : Caam.Machine) {n : ℕ}
    (hn : n ≤ 4096) : ∃ m' data,
      (Caam.caamDev E rngData).get m (BitVec.ofNat 32 n) = some (m', data) := by
  have hlen : (BitVec.ofNat 32 n).toNat = n := by
    rw [BitVec.toNat_ofNat]
    omega
  have hfeasible : (Caam.Op.hwrng rngData (BitVec.ofNat 32 n)).Feasible E := by
    rw [Caam.Op.Feasible, hlen]
    refine ⟨fun i k len dir hpos hle => hprep i k len dir hpos (hle.trans hn), ?_⟩
    exact hinj.mono (Memory.range_subset le_rfl (by omega))
  obtain ⟨m', hrng, -⟩ := Caam.hwrng_call hE m hfeasible
  have hget : Caam.hwrngDevGetRngData E rngData (BitVec.ofNat 32 n) m = (.ok (), m') := by
    rw [Caam.hwrngDevGetRngData, Prog.bind_of_ok hrng]
    rfl
  refine ⟨m', E.bytes m'.mem rngData (BitVec.ofNat 32 n).toNat, ?_⟩
  simp only [Caam.caamDev, hget]

/-- No message of a round is longer than the buffer. -/
lemma App.asked_le {s : App D} {e : Event D} {n : ℕ} (hn : n ∈ s.asked K e) : n ≤ 4096 := by
  rw [App.asked] at hn
  cases htold : e.told K with
  | none => simp [htold] at hn
  | some i =>
    simp only [htold, Option.elim_some, List.mem_map, List.mem_filterMap] at hn
    obtain ⟨_, ⟨x, -, hoffer⟩, rfl⟩ := hn
    rw [Rounds.Entry.offer] at hoffer
    split at hoffer
    · exact absurd hoffer (by simp)
    · rw [← Option.some.inj hoffer]
      exact min_le_right _ _

/-- The driver returns from unwrapping the RPMB key, whether its buffers can be prepared or not. -/
lemma unwrapRpmb_returns (hE : E.Works) (m : Caam.Machine) :
    ∃ rc, (unwrapRpmb E L m).1 = .ok rc := by
  have hsize : Caam.BlobSize 32 := ⟨by decide, by decide⟩
  obtain ⟨rc, m', hret⟩ :=
    Caam.caamDecapBlob_returns hE L.skeymod L.keyData L.rpmbKeyblob hsize m
  exact ⟨rc, congrArg Prod.fst hret⟩

/-- On a board that works, in every state the application reaches after start-up, an event stops
it exactly if it carries a flag its handler aborts on. -/
theorem stops_iff_unhealthy (hB : Hwkey.Board E L) (hprep : E.Prepared true L.rngData 4096)
    {m₀ : Caam.Machine} {s : App (Caam.caamDev E L.rngData)}
    (hs : (appOnCaam E L K m₀).Reachable s) {e : Event (Caam.caamDev E L.rngData)}
    (he : (appOnCaam E L K m₀).admits s e) :
    (∃ stop, step K s e = .error stop) ↔ ¬ e.Healthy := by
  obtain ⟨he, hcaam⟩ := he
  have hinj := hB.apart.inj (L.rngData, 4096) (by simp [Hwkey.Layout.buffers])
  have hdraws : (Caam.caamDev E L.rngData).draws s.dev (s.asked K e) ≠ none :=
    Hwrng.RngDev.draws_ne_none (fun _ _ hn => caamDev_get hB.works hprep hinj _ hn)
      (fun _ => App.asked_le) _
  have hreturns : ¬ UnwrapStops K s e := by
    intro hstops
    obtain ⟨halt, hhalt⟩ := hcaam.decap_eq_none.mp hstops.stops
    obtain ⟨rc, hrc⟩ := unwrapRpmb_returns (L := L) hB.works s.dev
    exact absurd (hrc.symm.trans hhalt) (by simp)
  rw [stops_iff_of_serving (serving_of_reachable hs) he]
  exact or_iff_left (not_or.mpr ⟨hdraws, hreturns⟩)

end

namespace Demo

/-- On this board the second job never completes. -/
def stuck : Caam.Platform :=
  { board with job := fun n => { board.job n with completes := decide (n = 0) } }

/-- The root key has been generated by the first one. -/
def stuckUnpacked : Caam.Machine := Caam.Demo.after (Hwkey.startUp stuck layout loaded)

/-- The secure storage server is connected. -/
def stuckStorage : App (Caam.caamDev stuck layout.rngData) :=
  booted stuck layout 80 stuckUnpacked storageSys

lemma unwrapRpmb_stuck : (unwrapRpmb stuck layout stuckUnpacked).1 = .error .hang := by
  decide +kernel

lemma reachable_stuckStorage : (appOnCaam stuck layout config loaded).Reachable stuckStorage :=
  reachable_booted (Caam.Demo.eq_after (by decide +kernel)) fun _ _ =>
    onCaam_of_halt unwrapRpmb_stuck

/-- A client of the HWRNG service connects. -/
def connectRng : Event caamDev :=
  { connect .hwrng 5 0 0 with crypto := unwrapping (some 9), jobs := id }

/-- It has connected to the application on the board. -/
def drawing : App caamDev :=
  { booted board layout 80 unpacked (started.sys.connect 5 0 0 (.hwrng ⟨5, 0, false⟩)) with
    rngLog := [.opened 5] }

/-- It asks for 10000 bytes. -/
def draw : Event caamDev :=
  { message .hwrng 5 0 [0x10, 0x27, 0, 0] with crypto := unwrapping (some 9), jobs := id }

lemma reachable_drawing : (appOnCaam board layout config loaded).Reachable drawing := by
  refine ⟨_, [connectRng], init_booted startUp_loaded, .one ⟨?_, onCaam_loaded _ rfl rfl⟩ ?_⟩
  · exact ⟨⟨_, rfl, rfl, rfl⟩, fun _ => rfl, fun _ _ => rfl, fun _ => le_rfl⟩
  · have hsys := Sys.accept_store_setCookie started.sys 5 0 0 (.hwrng ⟨5, 0, false⟩)
      (rfl : (⟨0, le_rfl⟩ : Rc).1 = 0)
    exact congrArg (fun sys => (.ok { booted board layout 80 unpacked sys with
      rngLog := [.opened 5] } : Except Stop (App caamDev))) hsys

lemma admits_draw : (appOnCaam board layout config loaded).admits drawing draw := by
  have hcaam := onCaam_loaded drawing.sys (e := draw) rfl rfl
  refine ⟨⟨⟨_, rfl, rfl, rfl⟩, fun h => absurd h (by decide),
    fun _ h => absurd h (by simp [draw, message]), fun _ => le_rfl⟩, ?_⟩
  exact ⟨hcaam.succeeds, hcaam.fails, hcaam.stops, hcaam.jobs⟩

end Demo

/-- Where the job that unwraps the RPMB key never completes, the secure storage server's request
for it stops the application, and its request for a derived key does not. -/
theorem stops_iff_stuckStorage :
    (appOnCaam Demo.stuck Demo.layout Demo.config Demo.loaded).Reachable Demo.stuckStorage ∧
      (∃ stop, step Demo.config Demo.stuckStorage (Demo.askRpmb none) = .error stop) ∧
      ¬ ∃ stop, step Demo.config Demo.stuckStorage (Demo.askDerivedAB none) = .error stop := by
  have hadmits (bytes : List UInt8) : (appOnCaam Demo.stuck Demo.layout Demo.config
      Demo.loaded).admits Demo.stuckStorage (Demo.request none bytes) :=
    ⟨Demo.eventOk_request rfl rfl rfl bytes, Demo.onCaam_of_halt Demo.unwrapRpmb_stuck rfl rfl⟩
  refine ⟨Demo.reachable_stuckStorage, ?_, ?_⟩
  · exact (stops_iff Demo.reachable_stuckStorage (hadmits _)).mpr
      (Or.inr (Or.inr ⟨Demo.asks_askRpmb, rfl, _, Demo.unwrapRpmb_stuck⟩))
  · have he : (appOnCaam Demo.stuck Demo.layout Demo.config Demo.loaded).admits
        Demo.stuckStorage (Demo.askDerivedAB none) := hadmits _
    rw [stops_iff Demo.reachable_stuckStorage he]
    rintro (hhealthy | hdraws | ⟨hasks, -⟩)
    · exact hhealthy rfl
    · exact absurd hdraws (Option.some_ne_none _)
    · exact absurd hasks.cmd (by decide)

/-- A request for random bytes sets off a round, and does not stop the application on the board. -/
theorem stops_iff_unhealthy_draw :
    (appOnCaam Demo.board Demo.layout Demo.config Demo.loaded).Reachable Demo.drawing ∧
      Demo.drawing.asked Demo.config Demo.draw = [4096] ∧
      ¬ ∃ stop, step Demo.config Demo.drawing Demo.draw = .error stop := by
  have hiff := stops_iff_unhealthy Demo.board_layout (Caam.Demo.prepared_reading (by decide))
    Demo.reachable_drawing Demo.admits_draw
  exact ⟨Demo.reachable_drawing, by decide, fun hstops => hiff.mp hstops rfl⟩

end TrustyLkNxp
