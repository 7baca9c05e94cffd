import TrustyLkNxp.Lifecycle
import TrustyLkNxp.Caam.Rng

/-!
# Random bytes are delivered once

The replies of the HWRNG service carry consecutive segments of what the random number
generator yields.  No byte is part of two replies, and the bytes of a reply that could not be
sent are dropped.
-/

namespace TrustyLkNxp

open Ipc EventSystem

variable {D : Hwrng.RngDev} {K : Config}

/-! ## Segments -/

namespace Hwrng

/-- The bytes of the generator a reply was made of, delivered or not. -/
def Act.segment : Act → Option (ℕ × ℕ)
  | .reply _ _ _ lo hi => some (lo, hi)
  | _ => none

/-- The provider yields the bytes of `stream`, one after the other, as long as it is asked for
no more than `rng_data` holds. -/
def RngDev.Yields (D : RngDev) (stream : ℕ → UInt8) : Prop :=
  ∀ d len d' data, len.toNat ≤ 4096 → D.get d len = some (d', data) →
    D.drawn d' = D.drawn d + len.toNat ∧ data = (List.range' (D.drawn d) len.toNat).map stream

/-- Every reply carries its own segment of the stream, later than those of the replies before
it; `drawn` bytes have been generated. -/
structure DeliversOnce (stream : ℕ → UInt8) (drawn : ℕ) (log : List Act) : Prop where
  carries : ∀ h data rc lo hi, .reply h data rc lo hi ∈ log →
    lo ≤ hi ∧ data = (List.range' lo (hi - lo)).map stream
  drawn_le : ∀ s ∈ log.filterMap Act.segment, s.2 ≤ drawn
  apart : (log.filterMap Act.segment).Pairwise fun later earlier => earlier.2 ≤ later.1

namespace DeliversOnce

variable {stream : ℕ → UInt8} {drawn drawn' : ℕ} {log : List Act}

lemma mono (h : DeliversOnce stream drawn log) (hle : drawn ≤ drawn') :
    DeliversOnce stream drawn' log :=
  ⟨h.carries, fun s hs => (h.drawn_le s hs).trans hle, h.apart⟩

/-- An action that is no reply changes nothing. -/
lemma cons_of_none {a : Act} (h : DeliversOnce stream drawn log) (ha : a.segment = none) :
    DeliversOnce stream drawn (a :: log) := by
  have hsame : (a :: log).filterMap Act.segment = log.filterMap Act.segment :=
    List.filterMap_cons_none ha
  refine ⟨fun hd data rc lo hi hmem => ?_, hsame ▸ h.drawn_le, hsame ▸ h.apart⟩
  rcases List.mem_cons.mp hmem with rfl | hmem
  · exact absurd ha (by simp [Act.segment])
  · exact h.carries hd data rc lo hi hmem

/-- A reply of fresh bytes. -/
lemma cons_reply (h : DeliversOnce stream drawn log) (hd : Handle) (rc : ℤ) {n : ℕ}
    {data : List UInt8} (hdrawn : drawn' = drawn + n)
    (hdata : data = (List.range' drawn n).map stream) :
    DeliversOnce stream drawn' (.reply hd data rc drawn drawn' :: log) := by
  have hcons : (Act.reply hd data rc drawn drawn' :: log).filterMap Act.segment =
      (drawn, drawn') :: log.filterMap Act.segment := rfl
  refine ⟨?_, ?_, ?_⟩
  · intro hd' data' rc' lo hi hmem
    rcases List.mem_cons.mp hmem with heq | hmem
    · obtain ⟨-, rfl, -, rfl, rfl⟩ := Act.reply.inj heq
      have hlen : hi - lo = n := by omega
      exact ⟨by omega, by rw [hlen, hdata]⟩
    · exact h.carries hd' data' rc' lo hi hmem
  · rw [hcons]
    intro s hs
    rcases List.mem_cons.mp hs with rfl | hs
    · exact le_rfl
    · exact (h.drawn_le s hs).trans (by omega)
  · rw [hcons]
    exact List.pairwise_cons.mpr ⟨fun s hs => h.drawn_le s hs, h.apart⟩

end DeliversOnce

/-! ## Steps -/

variable {U : Uapi} {send : Handle → ℤ} {stream : ℕ → UInt8}

/-- What the service keeps. -/
def World.DeliversOnce (stream : ℕ → UInt8) (w : World D) : Prop :=
  Hwrng.DeliversOnce stream (D.drawn w.dev) w.log

lemma Served.deliversOnce {p : Ptr} {c : HwrngChanCtx} {w w' : World D} {more : Bool}
    (hD : D.Yields stream) (h : Served U send p c w w' more) (hw : w.DeliversOnce stream) :
    w'.DeliversOnce stream := by
  have hreply : ∀ {dev data}, D.get w.dev (chunk c.reqSize) = some (dev, data) →
      Hwrng.DeliversOnce stream (D.drawn dev)
        (.reply c.chan data (send c.chan) (D.drawn w.dev) (D.drawn dev) :: w.log) := by
    intro dev data hget
    have hle : (chunk c.reqSize).toNat ≤ 4096 := by
      rw [chunk_toNat]
      exact min_le_right _ _
    obtain ⟨hdrawn, hdata⟩ := hD _ _ _ _ hle hget
    exact hw.cons_reply c.chan (send c.chan) hdrawn hdata
  cases h with
  | skipped => exact hw
  | blocked _ hget => exact hreply hget
  | failed _ hget => exact hreply hget
  | drained _ hget => exact hreply hget
  | partly _ hget => exact hreply hget

lemma Passed.deliversOnce {ps : List Ptr} {w w' : World D} (hD : D.Yields stream)
    (h : Passed U send ps w w') (hw : w.DeliversOnce stream) : w'.DeliversOnce stream :=
  h.invariant (World.DeliversOnce stream)
    (fun _ _ _ _ _ hw _ _ hserved => hserved.deliversOnce hD hw) hw

lemma Handled.deliversOnce {f : Flags} {m : Inbound} {p : Ptr} {c : HwrngChanCtx}
    {w w' : World D} (h : Handled U f m p c w w') (hw : w.DeliversOnce stream) :
    w'.DeliversOnce stream := by
  cases h with
  | closed => exact hw
  | quiet => exact hw
  | unblocked => exact hw
  | extended => exact hw.cons_of_none rfl
  | queued => exact hw.cons_of_none rfl

lemma Accepted.deliversOnce {a : Answers} {w w' : World D} (h : Accepted a w w')
    (hw : w.DeliversOnce stream) : w'.DeliversOnce stream := by
  cases h with
  | quiet => exact hw
  | refused => exact hw.cons_of_none rfl
  | connected => exact hw.cons_of_none rfl

end Hwrng

/-- The jobs of the HWKEY service come in between, but draw nothing that is delivered. -/
lemma Dispatched.deliversOnce {stream : ℕ → UInt8} (hD : D.Yields stream) {s s' : App D}
    {e : Event D} (h : Dispatched K e s s') (he : EventOk s e)
    (hs : s.hwrngWorld.DeliversOnce stream) : s'.hwrngWorld.DeliversOnce stream := by
  cases h with
  | empty => exact hs
  | hwrngPort _ haccepted => exact haccepted.deliversOnce hs
  | hwkeyPort => exact Hwrng.DeliversOnce.mono hs (he.jobs_drawn _)
  | hwrngChan _ _ _ _ _ hhandled hpassed =>
    exact hpassed.deliversOnce hD (hhandled.deliversOnce hs)
  | hwkeyChan => exact Hwrng.DeliversOnce.mono hs (he.jobs_drawn _)
  | noHandler => exact hs

/-- With any provider that yields a stream, the service delivers no byte of it twice. -/
lemma deliversOnce_of_reachable {stream : ℕ → UInt8} (hD : D.Yields stream) {s : App D}
    (h : (app D K).Reachable s) : s.hwrngWorld.DeliversOnce stream := by
  let I : App D → Prop := fun s => s.Wf ∧ s.hwrngWorld.DeliversOnce stream
  have hI : I s := by
    refine h.invariant I ?_ ?_
    · rintro s ⟨b, hb⟩
      obtain ⟨-, -, -, hlog, -⟩ := boot_cases hb
      have hnil : s.hwrngWorld.log = [] := hlog
      refine ⟨boot_wf hb, ?_⟩
      rw [Hwrng.World.DeliversOnce, hnil]
      exact ⟨by simp, by simp, by simp⟩
    · rintro s e t ⟨hs, hdel⟩ he hstep
      have hd := step_ok hs he hstep
      refine ⟨hd.wf (hs.deliver e) he.deliver, hd.deliversOnce hD he.deliver ?_⟩
      have hsame : (s.deliver e).hwrngWorld.log = s.hwrngWorld.log ∧
          (s.deliver e).hwrngWorld.dev = s.hwrngWorld.dev := by
        rw [App.deliver]
        split <;> exact ⟨rfl, rfl⟩
      rw [Hwrng.World.DeliversOnce, hsame.1, hsame.2]
      exact hdel
  exact hI.2

/-! ## The provider on the CAAM -/

namespace Caam

open Memory

variable {E : Platform}

/-- `hwrng_dev_get_rng_data`. -/
def hwrngDevGetRngData (E : Platform) (buf : ℕ) (bufLen : Word) : Drv Unit := do
  let res ← caamHwrng E buf bufLen
  Prog.check (res = caamSuccess) .abort

/-- The provider on the CAAM, with `rng_data` at the given address. -/
def caamDev (E : Platform) (rngData : ℕ) : Hwrng.RngDev where
  σ := Machine
  get m len :=
    match hwrngDevGetRngData E rngData len m with
    | (.ok _, m') => some (m', E.bytes m'.mem rngData len.toNat)
    | (.error _, _) => none
  drawn := Machine.drawn
  get_length := by
    intro m len m' data h
    rcases hrun : hwrngDevGetRngData E rngData len m with ⟨e | _, m''⟩
    · simp [hrun] at h
    · simp only [hrun, Option.some.injEq, Prod.mk.injEq] at h
      rw [← h.2, E.length_bytes]

/-- The provider fills `rng_data`, and changes nothing else. -/
lemma caamDev_filled (hE : E.Sound) {rngData : ℕ} (hinj : Set.InjOn E.mmu (range rngData 4096))
    {m m' : Machine} {len : Word} {data : List UInt8} (hlen : len.toNat ≤ 4096)
    (hget : (caamDev E rngData).get m len = some (m', data)) :
    Filled E rngData len.toNat m m' ∧ data = E.bytes m'.mem rngData len.toNat := by
  simp only [caamDev] at hget
  rcases hrun : hwrngDevGetRngData E rngData len m with ⟨e | _, m₁⟩
  · simp [hrun] at hget
  · simp only [hrun, Option.some.injEq] at hget
    obtain ⟨rfl, rfl⟩ := Prod.mk.inj hget
    obtain ⟨res, m₂, hrng, hcheck⟩ := Prog.bind_eq_ok.mp hrun
    refine ⟨?_, rfl⟩
    by_cases hres : res = caamSuccess
    · rw [Prog.check, if_pos hres] at hcheck
      obtain rfl : m₂ = m₁ := congrArg Prod.snd hcheck
      refine caamHwrng_success hE (hinj.mono (range_subset le_rfl (by omega))) ?_
      rw [hrng, hres]
    · rw [Prog.check, if_neg hres] at hcheck
      exact absurd (congrArg Prod.fst hcheck) (by simp)

/-- It yields what the random number generator yields. -/
lemma caamDev_yields (hE : E.Sound) {rngData : ℕ} (hinj : Set.InjOn E.mmu (range rngData 4096)) :
    (caamDev E rngData).Yields E.core.random := by
  intro m len m' data hlen hget
  obtain ⟨hfill, rfl⟩ := caamDev_filled hE hinj hlen hget
  exact ⟨hfill.drawn, hfill.bytes⟩

end Caam

/-- Whatever the segments in which `rng_data` is prepared, every reply carries exactly the bytes
that were generated for it, and two replies, whether they could be sent or not, carry disjoint
segments of the stream, the later reply the later one. -/
theorem replies_disjoint {E : Caam.Platform} (hE : E.Sound) {rngData : ℕ}
    (hinj : Set.InjOn E.mmu (Memory.range rngData 4096)) {s : App (Caam.caamDev E rngData)}
    (h : (app (Caam.caamDev E rngData) K).Reachable s) :
    (∀ h data rc lo hi, .reply h data rc lo hi ∈ s.rngLog →
      lo ≤ hi ∧ data = E.core.draw lo (hi - lo)) ∧
    (s.rngLog.filterMap Hwrng.Act.segment).Pairwise fun later earlier =>
      earlier.2 ≤ later.1 ∧
        Disjoint (Set.Ico earlier.1 earlier.2) (Set.Ico later.1 later.2) := by
  have hdel := deliversOnce_of_reachable (Caam.caamDev_yields hE hinj) h
  refine ⟨hdel.carries, hdel.apart.imp fun hle => ⟨hle, ?_⟩⟩
  rw [Set.disjoint_left]
  intro i hi hi'
  have hlt := hi.2
  have hge := hi'.1
  omega

namespace Demo

/-- The provider on the CAAM. -/
abbrev rng : Hwrng.RngDev := Caam.caamDev Caam.Demo.platform 0x8000

/-- Both ports are open, and nobody is connected yet. -/
def rngStarted : App rng := { started with dev := Caam.Demo.machine }

/-- A client connects. -/
def rngConnect (h : Handle) (p : Ptr) : Event rng := { connect .hwrng h 0 p with jobs := id }

/-- It asks for up to 255 bytes, and every send returns `rc`. -/
def rngRequest (h : Handle) (p : Ptr) (n : UInt8) (rc : ℤ) : Event rng :=
  { message .hwrng h p [n, 0, 0, 0] with send := fun _ => rc, jobs := id }

/-- The state an event leads to, if it does not stop the application. -/
def rngNext (s : App rng) (e : Event rng) : App rng := (step config s e).toOption.getD s

lemma step_rngNext {s : App rng} {e : Event rng} (h : (step config s e).toOption.isSome = true) :
    (app rng config).step s e = .ok (rngNext s e) := by
  change step config s e = _
  rw [rngNext]
  rcases hstep : step config s e with stop | t
  · rw [hstep] at h
    exact absurd h (by simp [Except.toOption])
  · rfl

/-- Two clients are connected. -/
def rngConnected : App rng := rngNext (rngNext rngStarted (rngConnect 5 0)) (rngConnect 6 1)

/-- There is no room for the reply to the first. -/
def rngRefused : App rng := rngNext rngConnected (rngRequest 5 0 6 config.uapi.errNotEnoughBuffer)

/-- The second is sent what it asked for. -/
def rngServed : App rng := rngNext rngRefused (rngRequest 6 1 4 0)

lemma init_rngStarted : (app rng config).init rngStarted := by
  refine ⟨{
    hwrngPort := 1
    hwrngCookie := ⟨0, le_rfl⟩
    hwkeyPort := 2
    hwkeyCookie := ⟨0, le_rfl⟩
    dev := Caam.Demo.machine
    keySlots := Hwkey.keys proto
    prov := ⟨List.replicate 32 7, 80, List.replicate 80 9⟩
    ports_ne := by decide }, ?_⟩
  simp [boot, rngStarted, started, Hwrng.hwrngStartService, Hwkey.hwkeyStartService,
    Sys.setCookie]

lemma eventOk_rngConnect {s : App rng} {h : Handle} {p : Ptr} {o : Obj}
    (ho : s.sys.objs 1 = some o) (hcookie : o.cookie = some (.port .hwrng)) (hsrv : o.srv = .hwrng)
    (hfresh : s.sys.objs h = none) (hheap : s.sys.heap p = none) : EventOk s (rngConnect h p) :=
  ⟨⟨o, ho, hcookie.symm, hsrv.symm⟩, fun _ => hfresh, fun _ hp => Option.some.inj hp ▸ hheap,
    fun _ => le_rfl⟩

lemma eventOk_rngRequest {s : App rng} {h : Handle} {p : Ptr} {o : Obj}
    (ho : s.sys.objs h = some o) (hcookie : o.cookie = some (.ctx p)) (hsrv : o.srv = .hwrng)
    (n : UInt8) (rc : ℤ) : EventOk s (rngRequest h p n rc) :=
  ⟨⟨o, ho, hcookie.symm, hsrv.symm⟩, fun h => absurd h (by change ¬ (0 : ℤ) ≤ -1; decide),
    by simp [rngRequest, message], fun _ => le_rfl⟩

lemma run_rngServed : (app rng config).Run rngStarted
    [rngConnect 5 0, rngConnect 6 1, rngRequest 5 0 6 config.uapi.errNotEnoughBuffer,
      rngRequest 6 1 4 0] rngServed := by
  have hfirst : (app rng config).Run rngStarted [rngConnect 5 0]
      (rngNext rngStarted (rngConnect 5 0)) :=
    .one (eventOk_rngConnect rfl rfl rfl rfl rfl) (step_rngNext (by decide +kernel))
  have hconnected : (app rng config).Run rngStarted [rngConnect 5 0, rngConnect 6 1]
      rngConnected := by
    refine hfirst.snoc (eventOk_rngConnect (o := ⟨false, .hwrng, 0, some (.port .hwrng), false⟩)
      ?_ rfl rfl ?_ ?_) (step_rngNext ?_)
    all_goals decide +kernel
  have hrefused : (app rng config).Run rngStarted [rngConnect 5 0, rngConnect 6 1,
      rngRequest 5 0 6 config.uapi.errNotEnoughBuffer] rngRefused := by
    refine hconnected.snoc (eventOk_rngRequest (o := ⟨true, .hwrng, 0, some (.ctx 0), false⟩)
      ?_ rfl rfl _ _) (step_rngNext ?_)
    all_goals decide +kernel
  refine hrefused.snoc (eventOk_rngRequest (o := ⟨true, .hwrng, 0, some (.ctx 1), false⟩)
    ?_ rfl rfl _ _) (step_rngNext ?_)
  all_goals decide +kernel

end Demo

/-- What was generated for the reply that was refused is in no other reply. -/
theorem replies_disjoint_refused :
    (app Demo.rng Demo.config).Run Demo.rngStarted
        [Demo.rngConnect 5 0, Demo.rngConnect 6 1,
          Demo.rngRequest 5 0 6 Demo.config.uapi.errNotEnoughBuffer, Demo.rngRequest 6 1 4 0]
        Demo.rngServed ∧
      Demo.rngServed.rngLog = [.reply 6 [6, 7, 8, 9] 0 6 10, .request 6 4,
        .reply 5 [0, 1, 2, 3, 4, 5] Demo.config.uapi.errNotEnoughBuffer 0 6, .request 5 6,
        .opened 6, .opened 5] ∧
      (∀ h data rc lo hi, .reply h data rc lo hi ∈ Demo.rngServed.rngLog →
        lo ≤ hi ∧ data = Caam.Demo.platform.core.draw lo (hi - lo)) ∧
      (Demo.rngServed.rngLog.filterMap Hwrng.Act.segment).Pairwise fun later earlier =>
        earlier.2 ≤ later.1 ∧
          Disjoint (Set.Ico earlier.1 earlier.2) (Set.Ico later.1 later.2) :=
  ⟨Demo.run_rngServed, by decide +kernel,
    replies_disjoint Caam.Demo.sound_platform Function.injective_id.injOn
      ⟨_, _, Demo.init_rngStarted, Demo.run_rngServed⟩⟩

end TrustyLkNxp
