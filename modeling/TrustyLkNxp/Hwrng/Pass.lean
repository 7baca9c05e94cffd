import TrustyLkNxp.Lifecycle

/-!
# One pass over the queue

What `hwrng_handle_req_queue` makes of each context depends on that context and the result of
its send alone.  The loop is the one of the source: it fetches the next node before it serves
the current one, which it may unlink and free.
-/

namespace TrustyLkNxp.Hwrng

open Ipc

variable {D : RngDev} {U : Uapi} {send : Handle → ℤ}

/-! ## Walking the list -/

/-- The node after a node; `none` is the node of the list itself. -/
def World.nextNode (w : World D) : Option Ptr → Except Stop (Option Ptr)
  | none => .ok w.reqList.head?
  | some p =>
    if p ∈ w.reqList then .ok (w.reqList.dropWhile (· ≠ p)).tail.head?
    else .error (.fault (.badAccess p))

/-- `list_for_every_entry_safe` around the body of the loop, with `ctx` and `temp`. No more
than `fuel` contexts are visited. -/
def hwrngWalk (U : Uapi) (send : Handle → ℤ) :
    ℕ → World D → Option Ptr → Option Ptr → Bool → Except Stop (World D × Bool)
  | _, w, none, _, needMore => pure (w, needMore)
  | 0, _, some p, _, _ => .error (.fault (.badAccess p))
  | fuel + 1, w, some p, temp, needMore => do
    let (w, more) ← hwrngServe U send w p
    let next ← w.nextNode temp
    hwrngWalk U send fuel w temp next (needMore || more)

/-- `hwrng_handle_req_queue`, from node to node. -/
def hwrngWalkReqQueue (U : Uapi) (send : Handle → ℤ) (w : World D) :
    Except Stop (World D × Bool) := do
  let ctx ← w.nextNode none
  let temp ← w.nextNode ctx
  hwrngWalk U send w.reqList.length w ctx temp false

lemma World.nextNode_append {w : World D} {before : List Ptr} {p : Ptr} {after : List Ptr}
    (hlist : w.reqList = before ++ p :: after) (hnodup : w.reqList.Nodup) :
    w.nextNode (some p) = .ok after.head? := by
  have hbefore : ∀ q ∈ before, q ≠ p := by
    rintro q hq rfl
    rw [hlist] at hnodup
    exact (List.disjoint_of_nodup_append hnodup) hq List.mem_cons_self
  have hdrop : w.reqList.dropWhile (· ≠ p) = p :: after := by
    rw [hlist, List.dropWhile_append_of_pos (by simpa using hbefore)]
    simp
  rw [World.nextNode, if_pos (by simp [hlist]), hdrop]
  rfl

/-- The turn of one context leaves the contexts ahead of it where they are. -/
lemma Served.suffix {p : Ptr} {c : HwrngChanCtx} {w w' : World D} {more : Bool}
    (h : Served U send p c w w' more) {before ps : List Ptr}
    (hlist : w.reqList = before ++ p :: ps) (hnodup : w.reqList.Nodup) :
    ∃ before', w'.reqList = before' ++ ps := by
  have hkept : ∃ before', w.reqList = before' ++ ps := ⟨before ++ [p], by simp [hlist]⟩
  have herased : ∃ before', w.reqList.erase p = before' ++ ps := by
    rw [hlist] at hnodup ⊢
    have hnot : p ∉ before := fun hp =>
      (List.disjoint_of_nodup_append hnodup) hp List.mem_cons_self
    exact ⟨before, by rw [List.erase_append_right _ hnot, List.erase_cons_head]⟩
  cases h with
  | skipped => exact hkept
  | blocked => exact hkept
  | failed => exact herased
  | drained => exact herased
  | partly => exact hkept

/-- The loop visits the contexts that were linked when it was entered. -/
lemma hwrngWalk_eq {fuel : ℕ} {w : World D} {before ps : List Ptr} (b : Bool)
    (hL : Lifecycle w.sys w.reqList) (hlist : w.reqList = before ++ ps) (hfuel : ps.length ≤ fuel) :
    hwrngWalk U send fuel w ps.head? ps.tail.head? b = hwrngPass U send ps w b := by
  induction ps generalizing fuel w before b with
  | nil => cases fuel <;> rfl
  | cons p ps ih =>
    obtain _ | fuel := fuel
    · exact absurd hfuel (by simp)
    have hp : p ∈ w.reqList := by simp [hlist]
    obtain ⟨c, hc⟩ := hL.list_live p hp
    rw [List.head?_cons, List.tail_cons, hwrngWalk]
    obtain ⟨herr, -⟩ | ⟨w₁, more, hok, hserved⟩ := hwrngServe_spec send hL hc
    · rw [herr, Except.bind_error, hwrngPass, herr, Except.bind_error]
    have hL₁ := hserved.lifecycle hL hp hc
    obtain ⟨before₁, hlist₁⟩ := hserved.suffix hlist hL.list_nodup
    rw [hok, Except.bind_ok, hwrngPass_cons hok]
    cases ps with
    | nil => cases fuel <;> rfl
    | cons q qs =>
      change (w₁.nextNode (some q) >>= _) = _
      rw [World.nextNode_append hlist₁ hL₁.list_nodup, Except.bind_ok]
      exact ih (b || more) hL₁ hlist₁ (by simpa using hfuel)

lemma hwrngWalkReqQueue_eq {w : World D} (hL : Lifecycle w.sys w.reqList) :
    hwrngWalkReqQueue U send w = hwrngHandleReqQueue U send w := by
  have hwalk : hwrngWalk U send w.reqList.length w w.reqList.head? w.reqList.tail.head? false =
      hwrngPass U send w.reqList w false :=
    hwrngWalk_eq false hL (List.nil_append _).symm le_rfl
  rw [hwrngHandleReqQueue, ← hwalk]
  cases hlist : w.reqList with
  | nil => simp [hwrngWalkReqQueue, World.nextNode, hlist, hwrngWalk]
  | cons p ps =>
    have hfirst : w.nextNode none = .ok (some p) := by rw [World.nextNode, hlist]; rfl
    have hsecond : w.nextNode (some p) = .ok ps.head? :=
      World.nextNode_append (hlist.trans (List.nil_append _).symm) hL.list_nodup
    rw [hwrngWalkReqQueue, hfirst, Except.bind_ok, hsecond, Except.bind_ok]
    simp only [hlist, List.head?_cons, List.tail_cons]

/-! ## What becomes of a context -/

/-- What a pass makes of a context on the list. -/
inductive Outcome
  /-- It stays on the list. -/
  | kept (c : HwrngChanCtx)
  /-- It is taken off the list, and its channel stays open. -/
  | served (c : HwrngChanCtx)
  /-- It is taken off the list and freed, and its channel is closed. -/
  | closed

namespace Outcome

/-- The context, as far as it is still on the list. -/
def listed : Outcome → Option HwrngChanCtx
  | .kept c => some c
  | .served _ => none
  | .closed => none

/-- The context, as far as there still is one. -/
def live : Outcome → Option HwrngChanCtx
  | .kept c => some c
  | .served c => some c
  | .closed => none

end Outcome

/-- What should become of a context, by the result of its send. -/
def outcome (U : Uapi) (send : Handle → ℤ) (c : HwrngChanCtx) : Outcome :=
  if c.sendBlocked = true then .kept c
  else if send c.chan = U.errNotEnoughBuffer then .kept { c with sendBlocked := true }
  else if send c.chan < 0 then .closed
  else if c.reqSize - chunk c.reqSize = 0 then
    .served { c with reqSize := c.reqSize - chunk c.reqSize }
  else .kept { c with reqSize := c.reqSize - chunk c.reqSize }

/-- The message a context is due. -/
def Sent (send : Handle → ℤ) (c : HwrngChanCtx) (act : Act) : Prop :=
  ∃ data lo hi, act = .reply c.chan data (send c.chan) lo hi ∧
    data.length = min c.reqSize.toNat 4096

/-- What one turn does to its context. -/
structure Turn (U : Uapi) (send : Handle → ℤ) (p : Ptr) (c : HwrngChanCtx) (w w' : World D)
    (more : Bool) : Prop where
  sent : ∃ acts, w'.log = acts ++ w.log ∧
    List.Forall₂ (fun x => Sent send x.2) ([(p, c)].filter (!·.2.sendBlocked)) acts.reverse
  list : w'.reqList =
    if (outcome U send c).listed.isSome then w.reqList else w.reqList.erase p
  ctx : w'.sys.heap p = (outcome U send c).live.map .hwrng
  chan : (w'.sys.objs c.chan).isSome = (outcome U send c).live.isSome
  more : more = true ↔ ∃ c', (outcome U send c).listed = some c' ∧ c'.sendBlocked = false

lemma outcome_of_blocked {c : HwrngChanCtx} (hb : c.sendBlocked = true) :
    outcome U send c = .kept c := if_pos hb

lemma outcome_of_full {c : HwrngChanCtx} (hb : c.sendBlocked = false)
    (hrc : send c.chan = U.errNotEnoughBuffer) :
    outcome U send c = .kept { c with sendBlocked := true } := by
  rw [outcome, hb, if_neg (by decide), if_pos hrc]

lemma outcome_of_failed {c : HwrngChanCtx} (hb : c.sendBlocked = false)
    (hneg : send c.chan < 0) (hrc : send c.chan ≠ U.errNotEnoughBuffer) :
    outcome U send c = .closed := by
  rw [outcome, hb, if_neg (by decide), if_neg hrc, if_pos hneg]

lemma outcome_of_sent {c : HwrngChanCtx} (hb : c.sendBlocked = false) (hrc : 0 ≤ send c.chan) :
    outcome U send c =
      if c.reqSize.toNat ≤ 4096 then .served { c with reqSize := c.reqSize - chunk c.reqSize }
      else .kept { c with reqSize := c.reqSize - chunk c.reqSize } := by
  have hneg := U.errNotEnoughBuffer_neg
  rw [outcome, hb, if_neg (by decide), if_neg (by omega), if_neg (by omega)]
  simp only [sub_chunk_eq_zero]

lemma Served.turn {p : Ptr} {c : HwrngChanCtx} {w w' : World D} {more : Bool}
    (h : Served U send p c w w' more) (hc : w.sys.heap p = some (.hwrng c)) {o : Obj}
    (ho : w.sys.objs c.chan = some o) : Turn U send p c w w' more := by
  have hsent {dev dev' : D.σ} {data : List UInt8} (hb : c.sendBlocked = false)
      (hget : D.get dev (chunk c.reqSize) = some (dev', data)) (lo hi : ℕ) :
      List.Forall₂ (fun x => Sent send x.2) ([(p, c)].filter (!·.2.sendBlocked))
        [.reply c.chan data (send c.chan) lo hi] := by
    have hlen := D.get_length _ _ _ _ hget
    rw [chunk_toNat] at hlen
    have hfilter : [(p, c)].filter (!·.2.sendBlocked) = [(p, c)] := by simp [hb]
    rw [hfilter]
    exact .cons ⟨data, lo, hi, rfl, hlen⟩ .nil
  cases h with
  | skipped hb =>
    have hout : outcome U send c = .kept c := outcome_of_blocked hb
    refine ⟨⟨[], rfl, by simp [hb]⟩, ?_, ?_, ?_, ?_⟩
    · rw [hout]
      rfl
    · rw [hout]
      exact hc
    · rw [hout, ho]
      rfl
    · simp [hout, Outcome.listed, hb]
  | blocked hb hget hrc =>
    have hout := outcome_of_full hb hrc
    refine ⟨⟨[_], rfl, hsent hb hget _ _⟩, ?_, ?_, ?_, ?_⟩
    · rw [hout]
      rfl
    · rw [hout]
      exact Sys.store_self _ _ _
    · rw [hout]
      simp [Outcome.live, Sys.store, Sys.setOwed, ho]
    · simp [hout, Outcome.listed]
  | failed hb hget hneg hrc =>
    have hout := outcome_of_failed hb hneg hrc
    refine ⟨⟨[_], rfl, hsent hb hget _ _⟩, ?_, ?_, ?_, ?_⟩
    · rw [hout]
      rfl
    · rw [hout]
      exact Function.update_self ..
    · rw [hout]
      change (Function.update w.sys.objs c.chan none c.chan).isSome = false
      rw [Function.update_self]
      rfl
    · simp [hout, Outcome.listed]
  | drained hb hget hrc hsize =>
    have hout := outcome_of_sent (U := U) hb hrc
    rw [if_pos hsize] at hout
    refine ⟨⟨[_], rfl, hsent hb hget _ _⟩, ?_, ?_, ?_, ?_⟩
    · rw [hout]
      rfl
    · rw [hout]
      exact Sys.store_self _ _ _
    · rw [hout]
      exact congrArg Option.isSome ho
    · simp [hout, Outcome.listed]
  | partly hb hget hrc hsize =>
    have hout := outcome_of_sent (U := U) hb hrc
    rw [if_neg (by omega)] at hout
    refine ⟨⟨[_], rfl, hsent hb hget _ _⟩, ?_, ?_, ?_, ?_⟩
    · rw [hout]
      rfl
    · rw [hout]
      exact Sys.store_self _ _ _
    · rw [hout]
      exact congrArg Option.isSome ho
    · simp [hout, Outcome.listed, hb]

/-! ## The pass as a whole -/

namespace World

/-- The context a node belongs to. -/
def ctx (w : World D) (p : Ptr) : Option HwrngChanCtx :=
  match w.sys.heap p with
  | some (.hwrng c) => some c
  | _ => none

/-- The contexts of some nodes. -/
def ctxs (w : World D) (ps : List Ptr) : List (Ptr × HwrngChanCtx) :=
  ps.filterMap fun p => (w.ctx p).map (p, ·)

/-- `hwrng_req_list`, with the contexts its nodes belong to. -/
def queue (w : World D) : List (Ptr × HwrngChanCtx) := w.ctxs w.reqList

variable {w w' : World D} {p : Ptr} {c : HwrngChanCtx}

lemma ctx_eq_some : w.ctx p = some c ↔ w.sys.heap p = some (.hwrng c) := by
  rw [ctx]
  split
  · rename_i d hd
    simp [hd]
  · rename_i hno
    simpa using fun h => hno c h

lemma mem_ctxs {ps : List Ptr} : (p, c) ∈ w.ctxs ps ↔ p ∈ ps ∧ w.ctx p = some c := by
  simp [ctxs, and_comm]

lemma ctxs_cons (hc : w.ctx p = some c) (ps : List Ptr) :
    w.ctxs (p :: ps) = (p, c) :: w.ctxs ps := by
  simp [ctxs, hc]

lemma ctxs_congr {ps : List Ptr} (h : ∀ p ∈ ps, w'.ctx p = w.ctx p) :
    w'.ctxs ps = w.ctxs ps :=
  List.filterMap_congr fun p hp => by rw [h p hp]

lemma ctx_congr (h : w'.sys.heap p = w.sys.heap p) : w'.ctx p = w.ctx p := by
  rw [ctx, ctx, h]

end World

/-- Whether a pass over `ps` leaves a node on the list. -/
def stays (U : Uapi) (send : Handle → ℤ) (w : World D) (ps : List Ptr) (p : Ptr) : Bool :=
  !ps.contains p || ((w.ctx p).bind fun c => (outcome U send c).listed).isSome

/-- What the turns of the contexts `ps` do. -/
structure PassedOver (U : Uapi) (send : Handle → ℤ) (ps : List Ptr) (w w' : World D)
    (more : Bool) : Prop where
  sent : ∃ acts, w'.log = acts ++ w.log ∧
    List.Forall₂ (fun x => Sent send x.2) ((w.ctxs ps).filter (!·.2.sendBlocked)) acts.reverse
  list : w'.reqList = w.reqList.filter (stays U send w ps)
  fate : ∀ x ∈ w.ctxs ps, w'.sys.heap x.1 = (outcome U send x.2).live.map .hwrng ∧
    (w'.sys.objs x.2.chan).isSome = (outcome U send x.2).live.isSome
  heap : ∀ p ∉ ps, w'.sys.heap p = w.sys.heap p
  objs : ∀ h, (∀ x ∈ w.ctxs ps, x.2.chan ≠ h) → w'.sys.objs h = w.sys.objs h
  more : more = true ↔
    ∃ x ∈ w.ctxs ps, ∃ c, (outcome U send x.2).listed = some c ∧ c.sendBlocked = false

lemma passedOver_nil (w : World D) : PassedOver U send [] w w false where
  sent := ⟨[], rfl, .nil⟩
  list := (List.filter_eq_self.mpr fun _ _ => rfl).symm
  fate _ hx := absurd hx List.not_mem_nil
  heap _ _ := rfl
  objs _ _ := rfl
  more := by simp [World.ctxs]

/-- One more turn before the others. -/
lemma PassedOver.cons {p : Ptr} {ps : List Ptr} {c : HwrngChanCtx} {w w₁ w' : World D}
    {more more' : Bool} (hL : Lifecycle w.sys w.reqList) (hc : w.sys.heap p = some (.hwrng c))
    (hnot : p ∉ ps) (hserved : Served U send p c w w₁ more)
    (h : PassedOver U send ps w₁ w' more') : PassedOver U send (p :: ps) w w' (more || more') := by
  obtain ⟨o, ho, -⟩ := hL.chan_open hc
  have hturn := hserved.turn hc ho
  have hctx := World.ctx_eq_some.mpr hc
  -- the contexts ahead are as before
  have hne : ∀ q ∈ ps, q ≠ p := by
    rintro q hq rfl
    exact hnot hq
  have hsame : ∀ q ∈ ps, w₁.ctx q = w.ctx q :=
    fun q hq => World.ctx_congr (hserved.frame (hne q hq)).1
  have hctxs : w₁.ctxs ps = w.ctxs ps := World.ctxs_congr hsame
  have hchans : ∀ x ∈ w.ctxs ps, x.2.chan ≠ c.chan := by
    rintro ⟨q, d⟩ hx heq
    obtain ⟨hq, hd⟩ := World.mem_ctxs.mp hx
    exact hne q hq (hL.chan_injective (World.ctx_eq_some.mp hd) hc heq)
  obtain ⟨⟨acts', hlog', hacts'⟩, hlist', hfate', hheap', hobjs', hmore'⟩ := h
  rw [hctxs] at hacts' hfate' hobjs' hmore'
  constructor
  case sent =>
    obtain ⟨acts, hlog, hacts⟩ := hturn.sent
    refine ⟨acts' ++ acts, by rw [hlog', hlog, List.append_assoc], ?_⟩
    rw [World.ctxs_cons hctx, ← List.singleton_append, List.filter_append, List.reverse_append]
    exact List.rel_append hacts hacts'
  case list =>
    rw [hlist', hturn.list]
    have hstay : stays U send w (p :: ps) p = (outcome U send c).listed.isSome := by
      simp [stays, hctx]
    have hrest : ∀ q, q ≠ p → stays U send w₁ ps q = stays U send w (p :: ps) q := by
      intro q hq
      by_cases hmem : q ∈ ps
      · simp [stays, hmem, hsame q hmem]
      · simp [stays, hmem, hq]
    have hleave : stays U send w₁ ps p = true := by simp [stays, hnot]
    split
    · rename_i hlisted
      refine List.filter_congr fun q _ => ?_
      rcases eq_or_ne q p with rfl | hq
      · rw [hleave, hstay, hlisted]
      · exact hrest q hq
    · rename_i hlisted
      rw [hL.list_nodup.erase_eq_filter, List.filter_filter]
      refine List.filter_congr fun q _ => ?_
      rcases eq_or_ne q p with rfl | hq
      · simpa [hstay] using hlisted
      · simp [hrest q hq, hq]
  case fate =>
    rw [World.ctxs_cons hctx]
    rintro x hx
    rcases List.mem_cons.mp hx with rfl | hx
    · rw [hheap' p hnot, hobjs' c.chan hchans]
      exact ⟨hturn.ctx, hturn.chan⟩
    · exact hfate' x hx
  case heap =>
    intro q hq
    obtain ⟨hqp, hq⟩ := List.ne_and_not_mem_of_not_mem_cons hq
    exact (hheap' q hq).trans (hserved.frame hqp).1
  case objs =>
    intro h hh
    rw [World.ctxs_cons hctx] at hh
    have hhc : h ≠ c.chan := (hh _ List.mem_cons_self).symm
    exact (hobjs' h fun x hx => hh x (List.mem_cons_of_mem _ hx)).trans (hserved.frame_chan hhc)
  case more =>
    rw [Bool.or_eq_true, hturn.more, hmore', World.ctxs_cons hctx, List.exists_mem_cons_iff]

/-- The pass makes its turns, or the provider has failed. -/
lemma hwrngPass_passedOver (U : Uapi) (send : Handle → ℤ) {ps : List Ptr} {w : World D} (b : Bool)
    (hL : Lifecycle w.sys w.reqList) (hps : ∀ p ∈ ps, p ∈ w.reqList) (hnodup : ps.Nodup) :
    ((∃ dev len, D.get dev len = none) ∧ hwrngPass U send ps w b = .error .abort) ∨
      ∃ w' more, hwrngPass U send ps w b = .ok (w', b || more) ∧
        PassedOver U send ps w w' more := by
  induction ps generalizing w b with
  | nil => exact Or.inr ⟨w, false, by rw [Bool.or_false]; rfl, passedOver_nil w⟩
  | cons p ps ih =>
    have hp : p ∈ w.reqList := hps p List.mem_cons_self
    obtain ⟨hnot, hnodup'⟩ := List.nodup_cons.mp hnodup
    obtain ⟨c, hc⟩ := hL.list_live p hp
    obtain ⟨herr, hfailed⟩ | ⟨w₁, more, hok, hserved⟩ := hwrngServe_spec send hL hc
    · exact Or.inl ⟨⟨_, _, hfailed⟩, by rw [hwrngPass, herr, Except.bind_error]⟩
    have hps' : ∀ q ∈ ps, q ∈ w₁.reqList := by
      intro q hq
      have hne : q ≠ p := by
        rintro rfl
        exact hnot hq
      exact (hserved.frame hne).2.mpr (hps q (List.mem_cons_of_mem _ hq))
    obtain ⟨hfailed, herr⟩ | ⟨w', more', hok', hpassed⟩ :=
      ih (b || more) (hserved.lifecycle hL hp hc) hps' hnodup'
    · exact Or.inl ⟨hfailed, (hwrngPass_cons hok ps b).trans herr⟩
    · rw [Bool.or_assoc] at hok'
      exact Or.inr ⟨w', _, (hwrngPass_cons hok ps b).trans hok', hpassed.cons hL hc hnot hserved⟩

/-- What a pass over the whole queue does. -/
structure QueueServed (U : Uapi) (send : Handle → ℤ) (w w' : World D) (more : Bool) : Prop where
  /-- The contexts that are not blocked are sent one message each, in their order. -/
  sent : ∃ acts, w'.log = acts ++ w.log ∧
    List.Forall₂ (fun x => Sent send x.2) (w.queue.filter (!·.2.sendBlocked)) acts.reverse
  /-- No two contexts share a channel. -/
  chans : (w.queue.map (·.2.chan)).Nodup
  /-- Every node on the list belongs to a context. -/
  nodes : w'.queue.map Prod.fst = w'.reqList
  /-- The contexts that are kept are on the list in their order. -/
  list : w'.queue = w.queue.filterMap fun x => (outcome U send x.2).listed.map (x.1, ·)
  /-- A context is as its own outcome has it. -/
  fate : ∀ x ∈ w.queue, w'.sys.heap x.1 = (outcome U send x.2).live.map .hwrng ∧
    (w'.sys.objs x.2.chan).isSome = (outcome U send x.2).live.isSome
  /-- Other contexts and channels are left alone. -/
  heap : ∀ p ∉ w.reqList, w'.sys.heap p = w.sys.heap p
  objs : ∀ h, (∀ x ∈ w.queue, x.2.chan ≠ h) → w'.sys.objs h = w.sys.objs h
  /-- The result is whether a context that is not blocked is still on the list. -/
  more : more = true ↔ ∃ x ∈ w'.queue, x.2.sendBlocked = false

lemma queue_fst {w : World D} (hL : Lifecycle w.sys w.reqList) :
    w.queue.map Prod.fst = w.reqList := by
  have hctx : ∀ p ∈ w.reqList, ((w.ctx p).map (p, ·)).map Prod.fst = some p := by
    intro p hp
    obtain ⟨c, hc⟩ := hL.list_live p hp
    rw [World.ctx_eq_some.mpr hc]
    rfl
  rw [World.queue, World.ctxs, List.map_filterMap, List.filterMap_congr hctx, List.filterMap_some]

lemma nodup_chans {w : World D} (hL : Lifecycle w.sys w.reqList) :
    (w.queue.map (·.2.chan)).Nodup := by
  have hnodup : w.queue.Nodup := by
    have hfst := queue_fst hL
    exact List.Nodup.of_map Prod.fst (hfst ▸ hL.list_nodup)
  refine hnodup.map_on ?_
  rintro ⟨p, c⟩ hx ⟨q, d⟩ hy heq
  have hc := (World.mem_ctxs.mp hx).2
  have hd := (World.mem_ctxs.mp hy).2
  obtain rfl := hL.chan_injective (World.ctx_eq_some.mp hc) (World.ctx_eq_some.mp hd) heq
  rw [Option.some.inj (hc.symm.trans hd)]

lemma Outcome.live_of_listed {o : Outcome} {c : HwrngChanCtx} (h : o.listed = some c) :
    o.live = some c := by
  cases o with
  | kept => exact h
  | served => exact absurd h (by simp [Outcome.listed])
  | closed => exact absurd h (by simp [Outcome.listed])

lemma PassedOver.queueServed {w w' : World D} {more : Bool} (hL : Lifecycle w.sys w.reqList)
    (hL' : Lifecycle w'.sys w'.reqList) (h : PassedOver U send w.reqList w w' more) :
    QueueServed U send w w' more := by
  have hlist : w'.queue = w.queue.filterMap fun x => (outcome U send x.2).listed.map (x.1, ·) := by
    rw [World.queue, World.ctxs, h.list, List.filterMap_filter, World.queue, World.ctxs,
      List.filterMap_filterMap]
    refine List.filterMap_congr fun p hp => ?_
    obtain ⟨c, hc⟩ := hL.list_live p hp
    have hctx := World.ctx_eq_some.mpr hc
    have hstays : stays U send w w.reqList p = (outcome U send c).listed.isSome := by
      simp [stays, hp, hctx]
    rw [hstays, hctx]
    cases hlisted : (outcome U send c).listed with
    | none => simp [hlisted]
    | some c' =>
      have hfate := (h.fate (p, c) (World.mem_ctxs.mpr ⟨hp, hctx⟩)).1
      rw [Outcome.live_of_listed hlisted] at hfate
      simp [hlisted, World.ctx_eq_some.mpr hfate]
  refine ⟨h.sent, nodup_chans hL, queue_fst hL', hlist, h.fate, h.heap, h.objs, ?_⟩
  rw [h.more, hlist]
  simp only [List.mem_filterMap, Option.map_eq_some_iff]
  constructor
  · rintro ⟨x, hx, c, hc, hb⟩
    exact ⟨(x.1, c), ⟨x, hx, c, hc, rfl⟩, hb⟩
  · rintro ⟨_, ⟨x, hx, c, hc, rfl⟩, hb⟩
    exact ⟨x, hx, c, hc, hb⟩

/-- A pass over the queue serves every context by itself: whatever the others do, it is sent
its message unless it is blocked, and fares as the result of that send has it. The loop visits
the contexts that were on the list, each once. -/
theorem queue_served (U : Uapi) (send : Handle → ℤ) {w : World D}
    (hL : Lifecycle w.sys w.reqList) :
    hwrngWalkReqQueue U send w = hwrngHandleReqQueue U send w ∧
      (((∃ dev len, D.get dev len = none) ∧
          hwrngHandleReqQueue U send w = .error .abort) ∨
        ∃ w' more, hwrngHandleReqQueue U send w = .ok (w', more) ∧
          QueueServed U send w w' more) := by
  refine ⟨hwrngWalkReqQueue_eq hL, ?_⟩
  obtain herr | ⟨w', more, hok, hpassed⟩ :=
    hwrngPass_passedOver U send false hL (fun p hp => hp) hL.list_nodup
  · exact Or.inl herr
  · rw [Bool.false_or] at hok
    obtain herr' | ⟨w'', b, hok', hpassed'⟩ :=
      hwrngPass_spec U send false hL (fun p hp => hp) hL.list_nodup
    · exact absurd (herr'.symm.trans hok) (by simp)
    · obtain ⟨rfl, rfl⟩ : w'' = w' ∧ b = more := by simpa using hok'.symm.trans hok
      exact Or.inr ⟨w'', b, hok, hpassed.queueServed hL (hpassed'.lifecycle hL)⟩

end TrustyLkNxp.Hwrng

namespace TrustyLkNxp

open Ipc

namespace Demo

/-- Two clients are connected. -/
def pair : Sys :=
  (started.sys.connect 5 0 0 (.hwrng ⟨5, 0, false⟩)).connect 6 0 1 (.hwrng ⟨6, 0, false⟩)

/-- The first is blocked with 5000 bytes to go, the second has 904 bytes to go. -/
def waiting : Hwrng.World dev where
  sys := (pair.store 0 (.hwrng ⟨5, 5000, true⟩)).store 1 (.hwrng ⟨6, 904, false⟩)
  reqList := [1, 0]
  dev := (8192 : ℕ)
  log := []

lemma lifecycle_waiting : Lifecycle waiting.sys waiting.reqList := by
  have hstarted : Lifecycle started.sys [] :=
    (wf_of_reachable ⟨_, _, init_started, .nil⟩ : started.Wf).lifecycle
  have hnew {s : Sys} {h : Handle} {p : Ptr} (hs : Lifecycle s []) (hh : s.objs h = none)
      (hp : s.heap p = none) : Lifecycle (s.connect h 0 p (.hwrng ⟨h, 0, false⟩)) [] :=
    hs.connect hh hp rfl (by simp) (by simp)
  have hpair : Lifecycle pair [] := hnew (hnew hstarted rfl rfl) rfl rfl
  have hblocked : Lifecycle (pair.store 0 (.hwrng ⟨5, 5000, true⟩)) [0] := by
    refine hpair.store (c := ⟨5, 0, false⟩) rfl rfl (by simp) ?_ (by simp)
    intro q hq
    simp [hq]
  refine hblocked.store (c := ⟨6, 0, false⟩) rfl rfl (by decide) ?_ (by decide)
  intro q hq
  simp [waiting, hq]

end Demo

/-- The blocked client keeps its place, the other is sent the rest. -/
theorem queue_served_waiting :
    ∃ w' more, Hwrng.hwrngHandleReqQueue Demo.uapi (fun _ => 0) Demo.waiting = .ok (w', more) ∧
      Hwrng.QueueServed Demo.uapi (fun _ => 0) Demo.waiting w' more := by
  obtain ⟨-, ⟨⟨dev, len, hfailed⟩, -⟩ | hserved⟩ :=
    Hwrng.queue_served Demo.uapi (fun _ => 0) Demo.lifecycle_waiting
  · exact absurd hfailed (by simp [Demo.dev])
  · exact hserved

end TrustyLkNxp
