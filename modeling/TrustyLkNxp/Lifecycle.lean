import TrustyLkNxp.App
import TrustyLkNxp.Hwrng.Steps
import TrustyLkNxp.Hwkey.Steps

/-!
# The lifecycle of the channels

Every step of the application is inverted once, into the steps of the two services.  It
follows that every reachable state satisfies the lifecycle invariant and that no step stops
with a memory or handle error.
-/

namespace TrustyLkNxp

open Ipc EventSystem

variable {D : Hwrng.RngDev} {K : Config}

/-- The invariant of the application. -/
structure App.Wf (s : App D) : Prop where
  lifecycle : Lifecycle s.sys s.reqList
  sized : s.hwkey.Sized

/-- What dispatching an event does to the state. -/
inductive Dispatched (K : Config) (e : Event D) (s : App D) : App D → Prop
  | empty (hflags : e.flags = {}) : Dispatched K e s s
  | hwrngPort {w : Hwrng.World D} (hcookie : e.cookie = some (.port .hwrng))
      (haccepted : Hwrng.Accepted e.hwrng s.hwrngWorld w) : Dispatched K e s (s.setHwrng w)
  | hwkeyPort {w : Hwkey.World} (hcookie : e.cookie = some (.port .hwkey))
      (herrs : portErrors e.flags = false)
      (haccepted : Hwkey.Accepted e.flags e.hwkey s.hwkeyWorld w) :
      Dispatched K e s (s.setHwkey w e.jobs)
  | hwrngChan {p : Ptr} {c : HwrngChanCtx} {w₁ w₂ : Hwrng.World D} (hflags : e.flags ≠ {})
      (hcookie : e.cookie = some (.ctx p)) (hc : s.sys.heap p = some (.hwrng c))
      (hchan : c.chan = e.handle) (herrs : chanErrors e.flags = false)
      (hhandled : Hwrng.Handled K.uapi e.flags e.inbound p c s.hwrngWorld w₁)
      (hpassed : Hwrng.Passed K.uapi e.send w₁.reqList w₁ w₂) :
      Dispatched K e s (s.setHwrng w₂)
  | hwkeyChan {p : Ptr} {c : HwkeyChanCtx} {w : Hwkey.World}
      (hcookie : e.cookie = some (.ctx p)) (hc : s.sys.heap p = some (.hwkey c))
      (hchan : c.chan = e.handle) (herrs : chanErrors e.flags = false)
      (hhandled : Hwkey.Handled K.proto K.uapi K.unittest e.hwkey p c e.flags s.hwkeyWorld w) :
      Dispatched K e s (s.setHwkey w e.jobs)
  | noHandler (hflags : e.flags ≠ {}) (hcookie : e.cookie = none) :
      Dispatched K e s
        { s with sys := { s.sys with objs := Function.update s.sys.objs e.handle none } }

/-- A context an event leads to is live, and the event is for its channel. -/
lemma EventOk.ctx_live {s : App D} {e : Event D} (he : EventOk s e)
    (hL : Lifecycle s.sys s.reqList) {p : Ptr} (hcookie : e.cookie = some (.ctx p)) :
    ∃ c, s.sys.heap p = some c ∧ c.chan = e.handle := by
  obtain ⟨o, ho, hcook, -⟩ := he.handle_open
  exact hL.linked.forth e.handle o p ho (Obj.ctx_eq_some.mpr (hcook ▸ hcookie))

lemma dispatchEvent_spec {s : App D} {e : Event D} (hs : s.Wf) (he : EventOk s e) :
    (∃ stop, (∀ f, stop ≠ .fault f) ∧ dispatchEvent K s e = .error stop) ∨
      ∃ s', dispatchEvent K s e = .ok s' ∧ Dispatched K e s s' := by
  have habort : ∀ f, Stop.abort ≠ .fault f := fun _ h => by cases h
  rw [dispatchEvent]
  by_cases hflags : e.flags = {}
  · exact Or.inr ⟨s, if_pos hflags, .empty hflags⟩
  rw [if_neg hflags]
  rcases hcookie : e.cookie with _ | ⟨_ | _⟩ | p
  · right
    obtain ⟨o, ho, -⟩ := he.handle_open
    exact ⟨_, by rw [Sys.close_eq ho]; rfl, .noHandler hflags hcookie⟩
  · obtain herr | ⟨w, hok, haccepted⟩ := Hwrng.hwrngPortHandler_spec e.flags e.hwrng
      s.hwrngWorld he.accept_fresh he.calloc_fresh
    · exact Or.inl ⟨.abort, habort, by simp only [herr]; rfl⟩
    · exact Or.inr ⟨_, by simp only [hok]; rfl, .hwrngPort hcookie haccepted⟩
  · obtain ⟨-, herr⟩ | ⟨w, herrs, hok, haccepted⟩ := Hwkey.hwkeyPortHandler_spec e.flags e.hwkey
      s.hwkeyWorld he.accept_fresh he.calloc_fresh
    · exact Or.inl ⟨.abort, habort, by simp only [herr]; rfl⟩
    · exact Or.inr ⟨_, by simp only [hok]; rfl, .hwkeyPort hcookie herrs haccepted⟩
  · obtain ⟨c | c, hc, hchan⟩ := he.ctx_live hs.lifecycle hcookie
    · simp only [hc]
      obtain herr | ⟨w₁, w₂, hok, herrs, hhandled, hpassed⟩ :=
        Hwrng.hwrngChanHandler_spec K.uapi e.flags e.hwrng s.hwrngWorld hs.lifecycle hc hchan
      · exact Or.inl ⟨.abort, habort, by rw [herr]; rfl⟩
      · exact Or.inr ⟨_, by rw [hok]; rfl,
          .hwrngChan hflags hcookie hc hchan herrs hhandled hpassed⟩
    · simp only [hc]
      obtain ⟨-, herr⟩ | ⟨_, stop, hclean, -, -, -, -, herr⟩ | ⟨w, herrs, hok, hhandled⟩ :=
        Hwkey.hwkeyChanHandler_spec K.proto K.uapi K.unittest e.flags e.hwkey s.hwkeyWorld
          hs.lifecycle hs.sized hc hchan
      · exact Or.inl ⟨.abort, habort, by rw [herr]; rfl⟩
      · exact Or.inl ⟨stop, hclean, by rw [herr]; rfl⟩
      · exact Or.inr ⟨_, by rw [hok]; rfl, .hwkeyChan hcookie hc hchan herrs hhandled⟩

lemma Dispatched.wf {s s' : App D} {e : Event D} (h : Dispatched K e s s') (hs : s.Wf)
    (he : EventOk s e) : s'.Wf := by
  cases h with
  | empty => exact hs
  | hwrngPort _ haccepted =>
    exact ⟨haccepted.lifecycle hs.lifecycle he.accept_fresh he.calloc_fresh, hs.sized⟩
  | hwkeyPort _ _ haccepted =>
    refine ⟨haccepted.lifecycle hs.lifecycle he.accept_fresh he.calloc_fresh, ?_⟩
    cases haccepted <;> exact hs.sized
  | hwrngChan _ _ hc _ _ hhandled hpassed =>
    exact ⟨hpassed.lifecycle (hhandled.lifecycle hs.lifecycle hc), hs.sized⟩
  | hwkeyChan _ hc _ _ hhandled =>
    exact ⟨hhandled.lifecycle hs.lifecycle hc, hhandled.sized hs.sized⟩
  | noHandler _ hcookie =>
    obtain ⟨o, ho, hcook, -⟩ := he.handle_open
    have hctx : o.ctx = none := by rw [Obj.ctx, ← hcook, hcookie]
    exact ⟨hs.lifecycle.closePort ho hctx, hs.sized⟩

/-! ## Delivery -/

lemma App.deliver_heap (s : App D) (e : Event D) : (s.deliver e).sys.heap = s.sys.heap := by
  rw [App.deliver]
  split <;> rfl

lemma App.deliver_rngLog (s : App D) (e : Event D) : (s.deliver e).rngLog = s.rngLog := by
  rw [App.deliver]
  split <;> rfl

lemma App.deliver_reqList (s : App D) (e : Event D) : (s.deliver e).reqList = s.reqList := by
  rw [App.deliver]
  split <;> rfl

lemma App.Wf.deliver {s : App D} (hs : s.Wf) (e : Event D) : (s.deliver e).Wf := by
  rw [App.deliver]
  split
  · exact ⟨hs.lifecycle.setOwed e.handle false, hs.sized⟩
  · exact hs

lemma EventOk.deliver {s : App D} {e : Event D} (he : EventOk s e) : EventOk (s.deliver e) e := by
  rw [App.deliver]
  split
  · obtain ⟨o, ho, hcook, hsrv⟩ := he.handle_open
    refine ⟨⟨{ o with owed := false }, by simp [Sys.setOwed, ho], hcook, hsrv⟩, ?_, he.calloc_fresh,
      he.jobs_drawn⟩
    intro haccept
    have hfresh := he.accept_fresh haccept
    have hne : e.accept ≠ e.handle := by
      intro heq
      rw [heq, ho] at hfresh
      exact absurd hfresh (by simp)
    simpa [Sys.setOwed, hne] using hfresh
  · exact he

lemma step_spec {s : App D} {e : Event D} (hs : s.Wf) (he : EventOk s e) :
    (∃ stop, (∀ f, stop ≠ .fault f) ∧ step K s e = .error stop) ∨
      ∃ s', step K s e = .ok s' ∧ Dispatched K e (s.deliver e) s' :=
  dispatchEvent_spec (hs.deliver e) he.deliver

lemma step_ok {s s' : App D} {e : Event D} (hs : s.Wf) (he : EventOk s e)
    (h : step K s e = .ok s') : Dispatched K e (s.deliver e) s' := by
  obtain ⟨_, -, herr⟩ | ⟨s'', hok, hd⟩ := step_spec (K := K) hs he
  · rw [h] at herr
    exact absurd herr (by simp)
  · rw [h] at hok
    rwa [Except.ok.inj hok]

/-! ## Reachable states -/

/-- Starting a service opens its port, or does nothing that lasts. -/
lemma hwrngStartService_cases (s : Sys) (rc : ℤ) (cookieRc : Rc) :
    (rc < 0 ∧ Hwrng.hwrngStartService s rc cookieRc = s) ∨
      (0 ≤ rc ∧ Hwrng.hwrngStartService s rc cookieRc = s.openPort rc .hwrng cookieRc) := by
  rw [Hwrng.hwrngStartService]
  split
  · rename_i hneg
    exact Or.inl ⟨hneg, rfl⟩
  · exact Or.inr ⟨by omega, s.setCookie_port rc .hwrng cookieRc⟩

lemma hwkeyStartService_cases {s s' : Sys} {rc : ℤ} {cookieRc : Rc}
    (hfresh : 0 ≤ rc → s.objs rc = none)
    (h : Hwkey.hwkeyStartService s rc cookieRc = .ok s') :
    s' = s ∨ (0 ≤ rc ∧ s' = s.openPort rc .hwkey cookieRc) := by
  rw [Hwkey.hwkeyStartService] at h
  split at h
  · exact Or.inl (Except.ok.inj h).symm
  · have hrc : 0 ≤ rc := by omega
    simp only [Sys.setCookie_port] at h
    split at h
    · left
      have hself : Function.update s.objs rc none = s.objs := by
        rw [← hfresh hrc, Function.update_eq_self]
      rw [Sys.openPort, Sys.close_eq (Function.update_self ..), Function.update_idem, hself] at h
      exact (Except.ok.inj h).symm
    · exact Or.inr ⟨hrc, (Except.ok.inj h).symm⟩

/-- Only ports are open, and nobody waits for an event. -/
def Ipc.Sys.PortsOnly (s : Sys) : Prop :=
  ∀ h o, s.objs h = some o → o.isChan = false ∧ o.owed = false

lemma Ipc.Sys.PortsOnly.openPort {s : Sys} (hs : s.PortsOnly) (h : Handle) (srv : Service)
    (rc : Rc) : (s.openPort h srv rc).PortsOnly := by
  intro k o ho
  rcases eq_or_ne k h with rfl | hne
  · simp only [Sys.openPort, Function.update_self] at ho
    rw [← Option.some.inj ho]
    exact ⟨rfl, rfl⟩
  · simp only [Sys.openPort, Function.update_of_ne hne] at ho
    exact hs k o ho

/-- The state the event loop starts in: nobody is connected and nothing has happened. -/
lemma boot_cases {b : Boot D} {s : App D} (h : boot b = .ok s) :
    Lifecycle s.sys [] ∧ (∀ p, s.sys.heap p = none) ∧ s.reqList = [] ∧ s.rngLog = [] ∧
      s.hwkey.Sized ∧ s.hwkey.log = [] ∧ s.sys.PortsOnly := by
  obtain ⟨sys, hsys, hs⟩ := Except.bind_eq_ok.mp h
  have hempty : Sys.PortsOnly ⟨fun _ => none, fun _ => none⟩ := fun _ _ ho => by simp at ho
  have hinit : Lifecycle sys [] ∧ (∀ p, sys.heap p = none) ∧ sys.PortsOnly := by
    obtain ⟨-, heq⟩ | ⟨hport, heq⟩ :=
      hwrngStartService_cases ⟨fun _ => none, fun _ => none⟩ b.hwrngPort b.hwrngCookie
    · rw [heq] at hsys
      obtain rfl | ⟨-, rfl⟩ := hwkeyStartService_cases (fun _ => rfl) hsys
      · exact ⟨Lifecycle.empty, fun _ => rfl, hempty⟩
      · exact ⟨Lifecycle.empty.openPort rfl _ _, fun _ => rfl, hempty.openPort _ _ _⟩
    · have hne := b.ports_ne hport
      have hopen : Lifecycle (Sys.openPort ⟨fun _ => none, fun _ => none⟩ b.hwrngPort .hwrng
          b.hwrngCookie) [] := Lifecycle.empty.openPort rfl _ _
      have hports := hempty.openPort b.hwrngPort .hwrng b.hwrngCookie
      have hfresh : (Sys.openPort ⟨fun _ => none, fun _ => none⟩ b.hwrngPort .hwrng
          b.hwrngCookie).objs b.hwkeyPort = none := by simp [Sys.openPort, hne.symm]
      rw [heq] at hsys
      obtain rfl | ⟨-, rfl⟩ := hwkeyStartService_cases (fun _ => hfresh) hsys
      · exact ⟨hopen, fun _ => rfl, hports⟩
      · exact ⟨hopen.openPort hfresh _ _, fun _ => rfl, hports.openPort _ _ _⟩
  rw [← Except.ok.inj hs]
  exact ⟨hinit.1, hinit.2.1, rfl, rfl, ⟨List.length_replicate, List.length_replicate⟩, rfl,
    hinit.2.2⟩

lemma boot_wf {b : Boot D} {s : App D} (h : boot b = .ok s) : s.Wf := by
  obtain ⟨hL, -, hlist, -, hsized, -⟩ := boot_cases h
  exact ⟨hlist ▸ hL, hsized⟩

lemma wf_of_reachable {s : App D} (h : (app D K).Reachable s) : s.Wf := by
  refine h.invariant App.Wf ?_ ?_
  · rintro s ⟨b, hb⟩
    exact boot_wf hb
  · intro s e t hs he hstep
    exact (step_ok hs he hstep).wf (hs.deliver e) he.deliver

namespace Demo

/-- A client is connected to the HWRNG service. -/
def connected : App dev :=
  { started with
    sys := started.sys.connect 5 0 0 (.hwrng ⟨5, 0, false⟩)
    rngLog := [.opened 5] }

lemma step_connect : (app dev config).step started (connect .hwrng 5 0 0) = .ok connected := by
  have hsys := Sys.accept_store_setCookie started.sys 5 0 0 (.hwrng ⟨5, 0, false⟩)
    (rfl : (⟨0, le_rfl⟩ : Rc).1 = 0)
  exact congrArg (fun sys => (.ok { started with sys := sys, rngLog := [.opened 5] } :
    Except Stop (App dev))) hsys

lemma run_connect : (app dev config).Run started [connect .hwrng 5 0 0] connected :=
  .one ⟨⟨_, rfl, rfl, rfl⟩, fun _ => rfl, fun _ _ => rfl, fun _ => le_rfl⟩ step_connect

lemma reachable_connected : (app dev config).Reachable connected :=
  ⟨_, _, init_started, run_connect⟩

end Demo

/-- In every reachable state the open channels and the live contexts correspond to each
other, and `hwrng_req_list` holds live HWRNG contexts, each at most once and every blocked one
among them; and no event makes the application free a context twice, touch a dead one, close
a handle twice or fail the assertion that the event is for the channel of its context. -/
theorem lifecycle_of_reachable {s : App D} (h : (app D K).Reachable s) :
    Lifecycle s.sys s.reqList ∧ ∀ e, EventOk s e → ∀ f, step K s e ≠ .error (.fault f) := by
  have hs := wf_of_reachable h
  refine ⟨hs.lifecycle, ?_⟩
  intro e he f hfault
  obtain ⟨stop, hclean, herr⟩ | ⟨s', hok, -⟩ := step_spec (K := K) hs he
  · exact hclean f (Except.error.inj (herr.symm.trans hfault))
  · rw [hfault] at hok
    exact absurd hok (by simp)

theorem lifecycle_of_connected :
    Lifecycle Demo.connected.sys Demo.connected.reqList ∧
      ∀ e, EventOk Demo.connected e → ∀ f, step Demo.config Demo.connected e ≠ .error (.fault f) :=
  lifecycle_of_reachable Demo.reachable_connected

end TrustyLkNxp
