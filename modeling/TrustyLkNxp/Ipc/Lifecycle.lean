import TrustyLkNxp.Ipc.Kernel
import TrustyLkNxp.Lib.Linked
import TrustyLkNxp.Lib.Except

/-!
# The life of a channel

A channel is born with its context and dies with it: the open channels and the live contexts
point at each other, and what waits on `hwrng_req_list` is alive.  This file states the
invariant on the tables of the kernel and the allocator, and shows that the only two ways in
which the services change the two tables together, connecting and dropping a channel, keep it.
-/

namespace TrustyLkNxp.Ipc

/-- The context the cookie of a handle points to. -/
def Obj.ctx (o : Obj) : Option Ptr :=
  match o.cookie with
  | some (.ctx p) => some p
  | _ => none

lemma Obj.ctx_eq_some {o : Obj} {p : Ptr} : o.ctx = some p ↔ o.cookie = some (.ctx p) := by
  unfold Obj.ctx
  split <;> simp_all

namespace Sys

/-- A channel is open with a fresh context, which its cookie points to. -/
def connect (s : Sys) (h : Handle) (peer : Uuid) (p : Ptr) (c : Ctx) : Sys :=
  { objs := Function.update s.objs h (some ⟨true, c.srv, peer, some (.ctx p), false⟩)
    heap := Function.update s.heap p (some c) }

/-- A channel and its context are gone. -/
def drop (s : Sys) (h : Handle) (p : Ptr) : Sys :=
  { objs := Function.update s.objs h none, heap := Function.update s.heap p none }

/-- A port is open, with the handler of its service unless `set_cookie` failed. -/
def openPort (s : Sys) (h : Handle) (srv : Service) (rc : Rc) : Sys :=
  let cookie := if rc.1 = 0 then some (Cookie.port srv) else none
  { s with objs := Function.update s.objs h (some ⟨false, srv, 0, cookie, false⟩) }

lemma setCookie_port (s : Sys) (h : Handle) (srv : Service) (rc : Rc) :
    ({ s with
      objs := Function.update s.objs h (some ⟨false, srv, 0, none, false⟩) } : Sys).setCookie
        h (.port srv) rc = s.openPort h srv rc := by
  by_cases hrc : rc.1 = 0 <;> simp [Sys.setCookie, openPort, hrc]

lemma close_eq {s : Sys} {h : Handle} {o : Obj} (ho : s.objs h = some o) :
    s.close h = .ok { s with objs := Function.update s.objs h none } := by
  simp [close, ho]

lemma free_eq {s : Sys} {p : Ptr} {c : Ctx} (hc : s.heap p = some c) :
    s.free p = .ok { s with heap := Function.update s.heap p none } := by
  simp [free, hc]

lemma hwrngCtx_eq {s : Sys} {p : Ptr} {c : HwrngChanCtx} (hc : s.heap p = some (.hwrng c)) :
    s.hwrngCtx p = .ok c := by
  simp [hwrngCtx, hc]

lemma hwkeyCtx_eq {s : Sys} {p : Ptr} {c : HwkeyChanCtx} (hc : s.heap p = some (.hwkey c)) :
    s.hwkeyCtx p = .ok c := by
  simp [hwkeyCtx, hc]

/-- A handle that was opened and closed again leaves no trace. -/
lemma accept_close {s : Sys} {h : Handle} (hfresh : s.objs h = none) (srv : Service)
    (peer : Uuid) : (s.accept h srv peer).close h = .ok s := by
  rw [close_eq (Function.update_self h _ s.objs)]
  simp [accept, ← hfresh]

/-- So does a channel whose cookie could not be set, once its context is freed. -/
lemma accept_store_free {s : Sys} {h : Handle} {p : Ptr} (hp : s.heap p = none) (srv : Service)
    (peer : Uuid) (c : Ctx) :
    ((s.accept h srv peer).store p c).free p = .ok (s.accept h srv peer) := by
  rw [free_eq (Function.update_self p _ _)]
  simp [accept, store, ← hp]

/-- A channel whose cookie was set is connected. -/
lemma accept_store_setCookie (s : Sys) (h : Handle) (peer : Uuid) (p : Ptr) (c : Ctx) {rc : Rc}
    (hrc : rc.1 = 0) :
    ((s.accept h c.srv peer).store p c).setCookie h (.ctx p) rc = s.connect h peer p c := by
  simp [setCookie, hrc, accept, store, connect]

/-- And so does one that is dropped with its context. -/
lemma drop_accept {s : Sys} {h : Handle} {p : Ptr} (hfresh : s.objs h = none)
    (hp : s.heap p = none) (srv : Service) (peer : Uuid) : (s.accept h srv peer).drop h p = s := by
  simp [accept, drop, ← hfresh, ← hp]

lemma setCookie_of_ne (s : Sys) (h : Handle) (k : Cookie) {rc : Rc} (hrc : rc.1 ≠ 0) :
    s.setCookie h k rc = s := by
  simp [setCookie, hrc]

lemma store_self (s : Sys) (p : Ptr) (c : Ctx) : (s.store p c).heap p = some c :=
  Function.update_self _ _ _

lemma store_of_ne (s : Sys) {p q : Ptr} (c : Ctx) (h : q ≠ p) : (s.store p c).heap q = s.heap q :=
  Function.update_of_ne h _ _

lemma store_store (s : Sys) (p : Ptr) (c c' : Ctx) : (s.store p c).store p c' = s.store p c' := by
  simp [store]

lemma drop_store (s : Sys) (h : Handle) (p : Ptr) (c : Ctx) :
    (s.store p c).drop h p = s.drop h p := by
  simp [drop, store]

end Sys

/-! ## The invariant -/

/-- The open channels and the live contexts correspond to each other, and the contexts on the
list of requests are live HWRNG contexts. -/
structure Lifecycle (s : Sys) (reqList : List Ptr) : Prop where
  /-- A cookie to a context leads to a live context whose `chan` is the handle, and the
  handle of a live context is open and its cookie leads back. -/
  linked : Linked Obj.ctx Ctx.chan s.objs s.heap
  /-- The channels are the handles with a cookie to a context. -/
  chan_iff : ∀ h o, s.objs h = some o → (o.isChan = true ↔ o.ctx.isSome)
  /-- A context belongs to the service of its channel. -/
  ctx_srv : ∀ h o p c, s.objs h = some o → o.ctx = some p → s.heap p = some c → o.srv = c.srv
  /-- A port has the handler of its service. -/
  port_srv : ∀ h o srv, s.objs h = some o → o.cookie = some (.port srv) → o.srv = srv
  /-- A HWKEY context carries the identity of the client of its channel. -/
  ctx_uuid : ∀ h o p c, s.objs h = some o → o.ctx = some p → s.heap p = some (.hwkey c) →
    o.peer = c.uuid
  list_live : ∀ p ∈ reqList, ∃ c, s.heap p = some (.hwrng c)
  list_nodup : reqList.Nodup
  /-- A blocked channel has a request pending. -/
  blocked_listed : ∀ p c, s.heap p = some (.hwrng c) → c.sendBlocked = true → p ∈ reqList

namespace Lifecycle

variable {s : Sys} {l : List Ptr}

/-- The channel of a live context is open, and its cookie points to the context. -/
lemma chan_open (hL : Lifecycle s l) {p : Ptr} {c : Ctx} (hp : s.heap p = some c) :
    ∃ o, s.objs c.chan = some o ∧ o.ctx = some p :=
  hL.linked.back p c hp

/-- Two live contexts have different channels. -/
lemma chan_injective (hL : Lifecycle s l) {p q : Ptr} {c d : Ctx} (hp : s.heap p = some c)
    (hq : s.heap q = some d) (h : c.chan = d.chan) : p = q :=
  hL.linked.owner_injective hp hq h

/-- Drop a channel and its context, and take the context off the list. -/
lemma drop (hL : Lifecycle s l) {p : Ptr} {c : Ctx} (hp : s.heap p = some c) :
    Lifecycle (s.drop c.chan p) (l.erase p) := by
  have hobj : ∀ {h o}, (s.drop c.chan p).objs h = some o → s.objs h = some o := by
    intro h o ho
    rcases eq_or_ne h c.chan with rfl | hne
    · simp [Sys.drop] at ho
    · simpa [Sys.drop, hne] using ho
  have hheap : ∀ {q d}, (s.drop c.chan p).heap q = some d → q ≠ p ∧ s.heap q = some d := by
    intro q d hq
    rcases eq_or_ne q p with rfl | hne
    · simp [Sys.drop] at hq
    · exact ⟨hne, by simpa [Sys.drop, hne] using hq⟩
  refine ⟨hL.linked.remove hp, ?_, ?_, ?_, ?_, ?_, hL.list_nodup.erase p, ?_⟩
  · exact fun h o ho => hL.chan_iff h o (hobj ho)
  · exact fun h o q d ho hq hd => hL.ctx_srv h o q d (hobj ho) hq (hheap hd).2
  · exact fun h o srv ho => hL.port_srv h o srv (hobj ho)
  · exact fun h o q d ho hq hd => hL.ctx_uuid h o q d (hobj ho) hq (hheap hd).2
  · intro q hq
    obtain ⟨hne, hql⟩ := hL.list_nodup.mem_erase_iff.mp hq
    obtain ⟨d, hd⟩ := hL.list_live q hql
    exact ⟨d, by simpa [Sys.drop, hne] using hd⟩
  · intro q d hq hb
    obtain ⟨hne, hd⟩ := hheap hq
    exact hL.list_nodup.mem_erase_iff.mpr ⟨hne, hL.blocked_listed q d hd hb⟩

/-- Connect a channel to a fresh context that is not blocked. -/
lemma connect (hL : Lifecycle s l) {h : Handle} {p : Ptr} {c : Ctx} (hh : s.objs h = none)
    (hp : s.heap p = none) (hc : c.chan = h) {peer : Uuid}
    (huuid : ∀ d, c = .hwkey d → peer = d.uuid)
    (hblocked : ∀ d, c = .hwrng d → d.sendBlocked = false) :
    Lifecycle (s.connect h peer p c) l := by
  have hlive : ∀ {q d}, s.heap q = some d → q ≠ p := by
    rintro q d hq rfl
    rw [hp] at hq
    exact absurd hq (by simp)
  have hobj : ∀ {k o}, (s.connect h peer p c).objs k = some o →
      (k = h ∧ o = ⟨true, c.srv, peer, some (.ctx p), false⟩) ∨ s.objs k = some o := by
    intro k o hk
    rcases eq_or_ne k h with rfl | hne
    · exact Or.inl ⟨rfl, by simpa [Sys.connect, eq_comm] using hk⟩
    · exact Or.inr (by simpa [Sys.connect, hne] using hk)
  have hheap : ∀ {q d}, (s.connect h peer p c).heap q = some d →
      (q = p ∧ d = c) ∨ (q ≠ p ∧ s.heap q = some d) := by
    intro q d hq
    rcases eq_or_ne q p with rfl | hne
    · exact Or.inl ⟨rfl, by simpa [Sys.connect, eq_comm] using hq⟩
    · exact Or.inr ⟨hne, by simpa [Sys.connect, hne] using hq⟩
  -- an old handle does not lead to the new context
  have hnot : ∀ {k o}, s.objs k = some o → o.ctx ≠ some p := by
    intro k o hk hctx
    obtain ⟨d, hd, -⟩ := hL.linked.forth k o p hk hctx
    exact hlive hd rfl
  refine ⟨hL.linked.insert hh hp rfl hc, ?_, ?_, ?_, ?_, ?_, hL.list_nodup, ?_⟩
  · intro k o hk
    obtain ⟨rfl, rfl⟩ | hk' := hobj hk
    · simp [Obj.ctx]
    · exact hL.chan_iff k o hk'
  · intro k o q d hk hq hd
    obtain ⟨rfl, rfl⟩ | hk' := hobj hk
    · obtain rfl : p = q := by simpa [Obj.ctx] using hq
      obtain ⟨-, rfl⟩ | ⟨hne, -⟩ := hheap hd
      · rfl
      · exact absurd rfl hne
    · obtain ⟨rfl, -⟩ | ⟨-, hd⟩ := hheap hd
      · exact absurd hq (hnot hk')
      · exact hL.ctx_srv k o q d hk' hq hd
  · intro k o srv hk hcookie
    obtain ⟨rfl, rfl⟩ | hk' := hobj hk
    · simp at hcookie
    · exact hL.port_srv k o srv hk' hcookie
  · intro k o q d hk hq hd
    obtain ⟨rfl, rfl⟩ | hk' := hobj hk
    · obtain rfl : p = q := by simpa [Obj.ctx] using hq
      obtain ⟨-, hd⟩ | ⟨hne, -⟩ := hheap hd
      · exact huuid d hd.symm
      · exact absurd rfl hne
    · obtain ⟨rfl, -⟩ | ⟨-, hd⟩ := hheap hd
      · exact absurd hq (hnot hk')
      · exact hL.ctx_uuid k o q d hk' hq hd
  · intro q hq
    obtain ⟨d, hd⟩ := hL.list_live q hq
    exact ⟨d, by simpa [Sys.connect, hlive hd] using hd⟩
  · intro q d hq hb
    obtain ⟨-, hd⟩ | ⟨-, hd⟩ := hheap hq
    · exact absurd hb (by simp [hblocked d hd.symm])
    · exact hL.blocked_listed q d hd hb

/-- Write a HWRNG context that is live and, at the same time, put it on the list or take it
off. A context that is left blocked has to be on the list. -/
lemma store (hL : Lifecycle s l) {p : Ptr} {c c' : HwrngChanCtx} {l' : List Ptr}
    (hp : s.heap p = some (.hwrng c)) (hchan : c'.chan = c.chan) (hnodup : l'.Nodup)
    (hl : ∀ q, q ≠ p → (q ∈ l' ↔ q ∈ l)) (hb : c'.sendBlocked = true → p ∈ l') :
    Lifecycle (s.store p (.hwrng c')) l' := by
  have hheap : ∀ {q d}, (s.store p (.hwrng c')).heap q = some d →
      (q = p ∧ d = .hwrng c') ∨ (q ≠ p ∧ s.heap q = some d) := by
    intro q d hq
    rcases eq_or_ne q p with rfl | hne
    · exact Or.inl ⟨rfl, by simpa [s.store_self, eq_comm] using hq⟩
    · exact Or.inr ⟨hne, by rwa [s.store_of_ne _ hne] at hq⟩
  refine ⟨hL.linked.update_right hp hchan, hL.chan_iff, ?_, hL.port_srv, ?_, ?_, hnodup, ?_⟩
  · intro h o q d ho hq hd
    obtain ⟨rfl, rfl⟩ | ⟨-, hd⟩ := hheap hd
    · exact (hL.ctx_srv h o q _ ho hq hp : o.srv = .hwrng)
    · exact hL.ctx_srv h o q d ho hq hd
  · intro h o q d ho hq hd
    obtain ⟨-, hd⟩ | ⟨-, hd⟩ := hheap hd
    · exact absurd hd (by simp)
    · exact hL.ctx_uuid h o q d ho hq hd
  · intro q hq
    rcases eq_or_ne q p with rfl | hne
    · exact ⟨c', s.store_self q _⟩
    · obtain ⟨d, hd⟩ := hL.list_live q ((hl q hne).mp hq)
      exact ⟨d, by rwa [s.store_of_ne _ hne]⟩
  · intro q d hq hbq
    obtain ⟨rfl, hd⟩ | ⟨hne, hd⟩ := hheap hq
    · obtain rfl : d = c' := by simpa using hd
      exact hb hbq
    · exact (hl q hne).mpr (hL.blocked_listed q d hd hbq)

/-- Change what the kernel knows about a handle apart from its cookie and its client. -/
lemma update_obj (hL : Lifecycle s l) {h : Handle} {o o' : Obj} (ho : s.objs h = some o)
    (hcookie : o'.cookie = o.cookie) (hsrv : o'.srv = o.srv) (hpeer : o'.peer = o.peer)
    (hchan : o'.isChan = o.isChan) :
    Lifecycle { s with objs := Function.update s.objs h (some o') } l := by
  have hctx : o'.ctx = o.ctx := by rw [Obj.ctx, hcookie, Obj.ctx]
  have hobj : ∀ {k q}, Function.update s.objs h (some o') k = some q →
      (k = h ∧ q = o') ∨ s.objs k = some q := by
    intro k q hk
    rcases eq_or_ne k h with rfl | hne
    · exact Or.inl ⟨rfl, by simpa [eq_comm] using hk⟩
    · exact Or.inr (by simpa [hne] using hk)
  refine ⟨hL.linked.update_left ho hctx, ?_, ?_, ?_, ?_, hL.list_live, hL.list_nodup,
    hL.blocked_listed⟩
  · intro k q hk
    obtain ⟨rfl, rfl⟩ | hk := hobj hk
    · rw [hchan, hctx]
      exact hL.chan_iff k o ho
    · exact hL.chan_iff k q hk
  · intro k q r d hk hr hd
    obtain ⟨rfl, rfl⟩ | hk := hobj hk
    · exact hsrv ▸ hL.ctx_srv k o r d ho (hctx ▸ hr) hd
    · exact hL.ctx_srv k q r d hk hr hd
  · intro k q srv hk hport
    obtain ⟨rfl, rfl⟩ | hk := hobj hk
    · exact hsrv ▸ hL.port_srv k o srv ho (hcookie ▸ hport)
    · exact hL.port_srv k q srv hk hport
  · intro k q r d hk hr hd
    obtain ⟨rfl, rfl⟩ | hk := hobj hk
    · exact hpeer ▸ hL.ctx_uuid k o r d ho (hctx ▸ hr) hd
    · exact hL.ctx_uuid k q r d hk hr hd

lemma setOwed (hL : Lifecycle s l) (h : Handle) (b : Bool) : Lifecycle (s.setOwed h b) l := by
  cases ho : s.objs h with
  | none =>
    have heq : Function.update s.objs h none = s.objs := by rw [← ho, Function.update_eq_self]
    simpa only [Sys.setOwed, ho, Option.map_none, heq] using hL
  | some o =>
    have heq : s.setOwed h b =
        { s with objs := Function.update s.objs h (some { o with owed := b }) } := by
      simp [Sys.setOwed, ho]
    rw [heq]
    exact hL.update_obj ho rfl rfl rfl rfl

/-- Close a handle that no context belongs to. -/
lemma closePort (hL : Lifecycle s l) {h : Handle} {o : Obj} (ho : s.objs h = some o)
    (hctx : o.ctx = none) : Lifecycle { s with objs := Function.update s.objs h none } l := by
  have hobj : ∀ {k q}, Function.update s.objs h none k = some q → s.objs k = some q := by
    intro k q hk
    rcases eq_or_ne k h with rfl | hne
    · simp at hk
    · simpa [hne] using hk
  exact ⟨hL.linked.remove_left ho hctx, fun k q hk => hL.chan_iff k q (hobj hk),
    fun k q r d hk => hL.ctx_srv k q r d (hobj hk), fun k q srv hk => hL.port_srv k q srv (hobj hk),
    fun k q r d hk => hL.ctx_uuid k q r d (hobj hk), hL.list_live, hL.list_nodup,
    hL.blocked_listed⟩

lemma openPort (hL : Lifecycle s l) {h : Handle} (hh : s.objs h = none) (srv : Service)
    (rc : Rc) : Lifecycle (s.openPort h srv rc) l := by
  have hobj : ∀ {k q}, (s.openPort h srv rc).objs k = some q →
      (q.isChan = false ∧ q.srv = srv ∧ (q.cookie = none ∨ q.cookie = some (.port srv))) ∨
        s.objs k = some q := by
    intro k q hk
    rcases eq_or_ne k h with rfl | hne
    · left
      obtain rfl : _ = q := by simpa [Sys.openPort] using hk
      refine ⟨rfl, rfl, ?_⟩
      by_cases hrc : rc.1 = 0 <;> simp [hrc]
    · exact Or.inr (by simpa [Sys.openPort, hne] using hk)
  have hctx : ∀ {q : Obj}, q.cookie = none ∨ q.cookie = some (.port srv) → q.ctx = none := by
    rintro q (hc | hc) <;> simp [Obj.ctx, hc]
  refine ⟨hL.linked.insert_left hh ?_, ?_, ?_, ?_, ?_, hL.list_live, hL.list_nodup,
    hL.blocked_listed⟩
  · by_cases hrc : rc.1 = 0 <;> simp [Obj.ctx, hrc]
  · intro k q hk
    obtain ⟨hchan, -, hc⟩ | hk := hobj hk
    · simp [hctx hc, hchan]
    · exact hL.chan_iff k q hk
  · intro k q r d hk hr hd
    obtain ⟨-, -, hc⟩ | hk := hobj hk
    · exact absurd hr (by simp [hctx hc])
    · exact hL.ctx_srv k q r d hk hr hd
  · intro k q srv' hk hport
    obtain ⟨-, hsrv, hc | hc⟩ | hk := hobj hk
    · simp [hc] at hport
    · simpa [hc, hsrv] using hport
    · exact hL.port_srv k q srv' hk hport
  · intro k q r d hk hr hd
    obtain ⟨-, -, hc⟩ | hk := hobj hk
    · exact absurd hr (by simp [hctx hc])
    · exact hL.ctx_uuid k q r d hk hr hd

lemma empty : Lifecycle ⟨fun _ => none, fun _ => none⟩ [] := by
  refine ⟨Linked.empty, ?_, ?_, ?_, ?_, ?_, List.nodup_nil, ?_⟩ <;> simp

end Lifecycle

end TrustyLkNxp.Ipc
