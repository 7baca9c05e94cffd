import TrustyLkNxp.Ipc.Lifecycle
import TrustyLkNxp.Hwrng.Service

/-!
# What the HWRNG service can do

Each function of the service is inverted once: in a state that satisfies the lifecycle
invariant it stops deliberately or ends in one of a few states, which are listed with the
conditions under which they come about.  None of the memory and handle errors occurs, and
the invariant is kept.  Later files argue from these lists and never unfold the service.
-/

namespace TrustyLkNxp.Hwrng

open Ipc

variable {D : RngDev}

/-- How many bytes one message carries when `n` are outstanding. -/
def chunk (n : Word) : Word := if n > maxHwrngMsgSize then maxHwrngMsgSize else n

lemma chunk_toNat (n : Word) : (chunk n).toNat = min n.toNat 4096 := by
  rw [chunk, maxHwrngMsgSize]
  split <;> rename_i h
  · have hlt : 4096 < n.toNat := by simpa [BitVec.lt_def] using h
    change 4096 = min n.toNat 4096
    omega
  · have hle : n.toNat ≤ 4096 := by simpa [BitVec.lt_def] using h
    omega

lemma toNat_sub_chunk (n : Word) : (n - chunk n).toNat = n.toNat - 4096 := by
  have hchunk := chunk_toNat n
  rw [BitVec.toNat_sub_of_le (by rw [BitVec.le_def]; omega)]
  omega

lemma sub_chunk_eq_zero {n : Word} : n - chunk n = 0 ↔ n.toNat ≤ 4096 := by
  rw [← BitVec.toNat_inj, toNat_sub_chunk]
  change n.toNat - 4096 = 0 ↔ n.toNat ≤ 4096
  omega

namespace World

/-- A channel and its context are gone, and the context is off the list. -/
def drop (w : World D) (h : Handle) (p : Ptr) : World D :=
  { w with sys := w.sys.drop h p, reqList := w.reqList.erase p }

/-- A reply has been generated and handed to `send_msg`, which returned `rc`. -/
def replied (w : World D) (h : Handle) (dev : D.σ) (data : List UInt8) (rc : ℤ) : World D :=
  { w with dev := dev, log := Act.reply h data rc (D.drawn w.dev) (D.drawn dev) :: w.log }

lemma touchList_eq {w : World D} (hlive : ∀ q ∈ w.reqList, ∃ c, w.sys.heap q = some c) :
    w.touchList = .ok () := by
  have hnone : (w.reqList.find? fun q => (w.sys.heap q).isNone) = none := by
    rw [List.find?_eq_none]
    intro q hq
    obtain ⟨c, hc⟩ := hlive q hq
    simp [hc]
  simp [touchList, hnone]

lemma listDelete_eq {w : World D} (hlive : ∀ q ∈ w.reqList, ∃ c, w.sys.heap q = some c)
    (p : Ptr) : w.listDelete p = .ok { w with reqList := w.reqList.erase p } := by
  simp [listDelete, touchList_eq hlive]

lemma listAddTail_eq {w : World D} (hlive : ∀ q ∈ w.reqList, ∃ c, w.sys.heap q = some c)
    (p : Ptr) : w.listAddTail p = .ok { w with reqList := w.reqList ++ [p] } := by
  simp [listAddTail, touchList_eq hlive]

end World

lemma Lifecycle.live {s : Sys} {l : List Ptr} (hL : Lifecycle s l) :
    ∀ q ∈ l, ∃ c, s.heap q = some c := by
  intro q hq
  obtain ⟨c, hc⟩ := hL.list_live q hq
  exact ⟨_, hc⟩

lemma hwrngCloseChan_eq {w : World D} {p : Ptr} {c : HwrngChanCtx}
    (hL : Lifecycle w.sys w.reqList) (hc : w.sys.heap p = some (.hwrng c)) :
    hwrngCloseChan w p = .ok (w.drop c.chan p) := by
  obtain ⟨o, ho, -⟩ := hL.chan_open hc
  have ho : w.sys.objs c.chan = some o := ho
  -- closing the handle touches neither the heap nor the list
  let w₁ : World D :=
    { w with sys := { w.sys with objs := Function.update w.sys.objs c.chan none } }
  have hfree : w₁.sys.free p = .ok (w.sys.drop c.chan p) := Sys.free_eq hc
  have hlive : ∀ q ∈ w₁.reqList, ∃ d, w₁.sys.heap q = some d := (Lifecycle.live hL :)
  have hdel : w₁.listDelete p = .ok { w₁ with reqList := w.reqList.erase p } :=
    World.listDelete_eq hlive p
  simp only [hwrngCloseChan, Sys.hwrngCtx_eq hc, Sys.close_eq ho, Except.bind_ok]
  by_cases hp : p ∈ w.reqList
  · rw [if_pos hp]
    change (w₁.listDelete p >>= _) = _
    rw [hdel, Except.bind_ok]
    change (w₁.sys.free p >>= _) = _
    rw [hfree]
    rfl
  · rw [if_neg hp, Except.pure_eq_ok, Except.bind_ok]
    change (w₁.sys.free p >>= _) = _
    rw [hfree, World.drop, List.erase_of_not_mem hp]
    rfl

/-! ## Serving one channel -/

/-- What one turn of the loop does to the state, and whether more remains to be sent. -/
inductive Served (U : Uapi) (send : Handle → ℤ) (p : Ptr) (c : HwrngChanCtx) (w : World D) :
    World D → Bool → Prop
  | skipped (hb : c.sendBlocked = true) : Served U send p c w w false
  | blocked {dev : D.σ} {data : List UInt8} (hb : c.sendBlocked = false)
      (hget : D.get w.dev (chunk c.reqSize) = some (dev, data))
      (hrc : send c.chan = U.errNotEnoughBuffer) :
      Served U send p c w
        { w.replied c.chan dev data (send c.chan) with
          sys := (w.sys.setOwed c.chan true).store p (.hwrng { c with sendBlocked := true }) }
        false
  | failed {dev : D.σ} {data : List UInt8} (hb : c.sendBlocked = false)
      (hget : D.get w.dev (chunk c.reqSize) = some (dev, data))
      (hneg : send c.chan < 0) (hrc : send c.chan ≠ U.errNotEnoughBuffer) :
      Served U send p c w ((w.replied c.chan dev data (send c.chan)).drop c.chan p) false
  | drained {dev : D.σ} {data : List UInt8} (hb : c.sendBlocked = false)
      (hget : D.get w.dev (chunk c.reqSize) = some (dev, data))
      (hrc : 0 ≤ send c.chan) (hsize : c.reqSize.toNat ≤ 4096) :
      Served U send p c w
        { w.replied c.chan dev data (send c.chan) with
          sys := w.sys.store p (.hwrng { c with reqSize := c.reqSize - chunk c.reqSize })
          reqList := w.reqList.erase p }
        false
  | partly {dev : D.σ} {data : List UInt8} (hb : c.sendBlocked = false)
      (hget : D.get w.dev (chunk c.reqSize) = some (dev, data))
      (hrc : 0 ≤ send c.chan) (hsize : 4096 < c.reqSize.toNat) :
      Served U send p c w
        { w.replied c.chan dev data (send c.chan) with
          sys := w.sys.store p (.hwrng { c with reqSize := c.reqSize - chunk c.reqSize }) }
        true

lemma hwrngServe_spec {U : Uapi} (send : Handle → ℤ) {w : World D} {p : Ptr} {c : HwrngChanCtx}
    (hL : Lifecycle w.sys w.reqList) (hc : w.sys.heap p = some (.hwrng c)) :
    (hwrngServe U send w p = .error .abort ∧ D.get w.dev (chunk c.reqSize) = none) ∨
      ∃ w' more, hwrngServe U send w p = .ok (w', more) ∧ Served U send p c w w' more := by
  simp only [hwrngServe, Sys.hwrngCtx_eq hc, Except.bind_ok]
  by_cases hb : c.sendBlocked = true
  · exact Or.inr ⟨w, false, by simp [hb, pure, Except.pure], .skipped hb⟩
  rw [if_neg hb]
  simp only [Bool.not_eq_true] at hb
  have hlen : (if c.reqSize > maxHwrngMsgSize then maxHwrngMsgSize else c.reqSize) =
      chunk c.reqSize := rfl
  rw [hlen]
  rcases hget : D.get w.dev (chunk c.reqSize) with _ | ⟨dev, data⟩
  · exact Or.inl ⟨rfl, rfl⟩
  right
  let w₁ : World D := w.replied c.chan dev data (send c.chan)
  by_cases hneg : send c.chan < 0
  · by_cases hrc : send c.chan = U.errNotEnoughBuffer
    · exact ⟨_, _, by simp only [if_pos hneg, if_pos hrc]; rfl, .blocked hb hget hrc⟩
    · have hclose : hwrngCloseChan w₁ p = .ok (w₁.drop c.chan p) := hwrngCloseChan_eq hL hc
      refine ⟨_, _, ?_, .failed hb hget hneg hrc⟩
      simp only [if_pos hneg, if_neg hrc]
      change (hwrngCloseChan w₁ p >>= _) = _
      rw [hclose]
      rfl
  · let w₂ : World D := w₁.store p { c with reqSize := c.reqSize - chunk c.reqSize }
    have hlive : ∀ q ∈ w.reqList, ∃ d, w₂.sys.heap q = some d := by
      intro q hq
      rcases eq_or_ne q p with rfl | hne
      · exact ⟨_, w.sys.store_self q _⟩
      · obtain ⟨d, hd⟩ := Lifecycle.live hL q hq
        exact ⟨d, (w.sys.store_of_ne _ hne).trans hd⟩
    by_cases hsize : c.reqSize.toNat ≤ 4096
    · have hdel : w₂.listDelete p = .ok { w₂ with reqList := w.reqList.erase p } :=
        World.listDelete_eq hlive p
      refine ⟨_, _, ?_, .drained hb hget (by omega) hsize⟩
      simp only [if_neg hneg, if_pos (sub_chunk_eq_zero.mpr hsize)]
      change (w₂.listDelete p >>= _) = _
      rw [hdel]
      rfl
    · refine ⟨_, _, ?_, .partly hb hget (by omega) (by omega)⟩
      simp only [if_neg hneg, if_neg (mt sub_chunk_eq_zero.mp hsize)]
      rfl

namespace Served

variable {U : Uapi} {send : Handle → ℤ} {p : Ptr} {c : HwrngChanCtx} {w w' : World D}
  {more : Bool}

lemma lifecycle (h : Served U send p c w w' more) (hL : Lifecycle w.sys w.reqList)
    (hp : p ∈ w.reqList) (hc : w.sys.heap p = some (.hwrng c)) :
    Lifecycle w'.sys w'.reqList := by
  cases h with
  | skipped => exact hL
  | blocked =>
    exact (hL.setOwed c.chan true).store hc rfl hL.list_nodup (fun _ _ => Iff.rfl) fun _ => hp
  | failed => exact hL.drop hc
  | drained hb =>
    refine hL.store hc rfl (hL.list_nodup.erase p) (fun q hq => List.mem_erase_of_ne hq) ?_
    intro hblocked
    exact absurd (hb.symm.trans hblocked) (by simp)
  | partly => exact hL.store hc rfl hL.list_nodup (fun _ _ => Iff.rfl) fun _ => hp

/-- The turn of one channel leaves the contexts of the others, and their place on the list,
as they are. -/
lemma frame (h : Served U send p c w w' more) {q : Ptr} (hq : q ≠ p) :
    w'.sys.heap q = w.sys.heap q ∧ (q ∈ w'.reqList ↔ q ∈ w.reqList) := by
  cases h with
  | skipped => exact ⟨rfl, Iff.rfl⟩
  | blocked => exact ⟨Sys.store_of_ne _ _ hq, Iff.rfl⟩
  | failed => exact ⟨Function.update_of_ne hq _ _, List.mem_erase_of_ne hq⟩
  | drained => exact ⟨Sys.store_of_ne _ _ hq, List.mem_erase_of_ne hq⟩
  | partly => exact ⟨Sys.store_of_ne _ _ hq, Iff.rfl⟩

/-- The turn of one channel leaves what the kernel knows of the others as it is. -/
lemma frame_chan (h : Served U send p c w w' more) {k : Handle} (hk : k ≠ c.chan) :
    w'.sys.objs k = w.sys.objs k := by
  cases h with
  | skipped => rfl
  | blocked => exact Function.update_of_ne hk _ _
  | failed => exact Function.update_of_ne hk _ _
  | drained => rfl
  | partly => rfl

end Served

/-! ## The pass over the list -/

/-- The pass over the contexts `ps` takes one state to another, turn by turn. -/
inductive Passed (U : Uapi) (send : Handle → ℤ) : List Ptr → World D → World D → Prop
  | nil {w : World D} : Passed U send [] w w
  | cons {p : Ptr} {ps : List Ptr} {c : HwrngChanCtx} {w w' w'' : World D} {more : Bool}
      (hp : p ∈ w.reqList) (hc : w.sys.heap p = some (.hwrng c))
      (hserved : Served U send p c w w' more) (hpassed : Passed U send ps w' w'') :
      Passed U send (p :: ps) w w''

lemma hwrngPass_cons {U : Uapi} {send : Handle → ℤ} {p : Ptr} {w w' : World D} {more : Bool}
    (h : hwrngServe U send w p = .ok (w', more)) (ps : List Ptr) (b : Bool) :
    hwrngPass U send (p :: ps) w b = hwrngPass U send ps w' (b || more) := by
  rw [hwrngPass, h]
  rfl

lemma hwrngPass_spec (U : Uapi) (send : Handle → ℤ) {ps : List Ptr} {w : World D} (b : Bool)
    (hL : Lifecycle w.sys w.reqList) (hps : ∀ p ∈ ps, p ∈ w.reqList) (hnodup : ps.Nodup) :
    hwrngPass U send ps w b = .error .abort ∨
      ∃ w' b', hwrngPass U send ps w b = .ok (w', b') ∧ Passed U send ps w w' := by
  induction ps generalizing w b with
  | nil => exact Or.inr ⟨w, b, rfl, .nil⟩
  | cons p ps ih =>
    have hp : p ∈ w.reqList := hps p (List.mem_cons_self ..)
    obtain ⟨hnotin, hnodup'⟩ := List.nodup_cons.mp hnodup
    obtain ⟨c, hc⟩ := hL.list_live p hp
    obtain ⟨herr, -⟩ | ⟨w₁, more, hok, hserved⟩ := hwrngServe_spec send hL hc
    · exact Or.inl (by rw [hwrngPass, herr, Except.bind_error])
    have hps' : ∀ q ∈ ps, q ∈ w₁.reqList := by
      intro q hq
      have hne : q ≠ p := by
        rintro rfl
        exact hnotin hq
      exact (hserved.frame hne).2.mpr (hps q (List.mem_cons_of_mem _ hq))
    obtain herr | ⟨w₂, b', hok', hpassed⟩ :=
      ih (b || more) (hserved.lifecycle hL hp hc) hps' hnodup'
    · exact Or.inl ((hwrngPass_cons hok ps b).trans herr)
    · exact Or.inr ⟨w₂, b', (hwrngPass_cons hok ps b).trans hok', .cons hp hc hserved hpassed⟩

lemma hwrngKickReqQueue_spec (U : Uapi) (send : Handle → ℤ) {w : World D}
    (hL : Lifecycle w.sys w.reqList) :
    hwrngKickReqQueue U send w = .error .abort ∨
      ∃ w', hwrngKickReqQueue U send w = .ok w' ∧ Passed U send w.reqList w w' := by
  rw [hwrngKickReqQueue, hwrngHandleReqQueue]
  obtain herr | ⟨w', b', hok, hpassed⟩ :=
    hwrngPass_spec U send false hL (fun p hp => hp) hL.list_nodup
  · exact Or.inl (by rw [herr, Except.bind_error])
  · exact Or.inr ⟨w', by rw [hok]; rfl, hpassed⟩

/-- What every turn of the loop preserves, the pass preserves. -/
lemma Passed.invariant {U : Uapi} {send : Handle → ℤ} (I : World D → Prop)
    (hturn : ∀ p c w w' more, I w → p ∈ w.reqList → w.sys.heap p = some (.hwrng c) →
      Served U send p c w w' more → I w')
    {ps : List Ptr} {w w' : World D} (h : Passed U send ps w w') (hw : I w) : I w' := by
  induction h with
  | nil => exact hw
  | cons hp hc hserved _ ih => exact ih (hturn _ _ _ _ _ hw hp hc hserved)

lemma Passed.lifecycle {U : Uapi} {send : Handle → ℤ} {ps : List Ptr} {w w' : World D}
    (h : Passed U send ps w w') (hL : Lifecycle w.sys w.reqList) :
    Lifecycle w'.sys w'.reqList :=
  h.invariant (fun w => Lifecycle w.sys w.reqList)
    (fun _ _ _ _ _ hL hp hc hserved => hserved.lifecycle hL hp hc) hL

namespace Passed

variable {U : Uapi} {send : Handle → ℤ} {ps : List Ptr} {w w' : World D}

/-- The pass leaves alone what it does not come across. -/
lemma frame (h : Passed U send ps w w') (hL : Lifecycle w.sys w.reqList) {q : Ptr}
    (hq : q ∉ ps) :
    w'.sys.heap q = w.sys.heap q ∧ (q ∈ w'.reqList ↔ q ∈ w.reqList) ∧
      ∀ d, w.sys.heap q = some d → w'.sys.objs d.chan = w.sys.objs d.chan := by
  induction h with
  | nil => exact ⟨rfl, Iff.rfl, fun _ _ => rfl⟩
  | @cons p ps c w w₁ w₂ more hp hc hserved hpassed ih =>
    obtain ⟨hne, hq'⟩ := List.ne_and_not_mem_of_not_mem_cons hq
    obtain ⟨hheap, hlist⟩ := hserved.frame hne
    obtain ⟨hheap', hlist', hobjs'⟩ := ih (hserved.lifecycle hL hp hc) hq'
    refine ⟨hheap'.trans hheap, hlist'.trans hlist, ?_⟩
    intro d hd
    have hchan : d.chan ≠ c.chan := fun heq => hne (hL.chan_injective hd hc heq)
    exact (hobjs' d (hheap.trans hd)).trans (hserved.frame_chan hchan)

end Passed

/-! ## The event -/

/-- The request an event brings: a message that is one `struct hwrng_req`, unless the
channel has hung up. -/
def requestOf (U : Uapi) (f : Flags) (m : Inbound) : Option Word :=
  if f.hup = false ∧ f.msg = true ∧ (tipcRecvSingleBuf U m sizeofHwrngReq).rc = sizeofHwrngReq
  then some (le32 (tipcRecvSingleBuf U m sizeofHwrngReq).data)
  else none

/-- What the handler of a channel does before it kicks the queue. -/
inductive Handled (U : Uapi) (f : Flags) (m : Inbound) (p : Ptr) (c : HwrngChanCtx)
    (w : World D) : World D → Prop
  /-- The channel hung up, or its message could not be received. -/
  | closed (hf : f.hup = true ∨ f.msg = true) (hreq : requestOf U f m = none) :
      Handled U f m p c w (w.drop c.chan p)
  | quiet (hhup : f.hup = false) (hmsg : f.msg = false) (hb : f.sendUnblocked = false) :
      Handled U f m p c w w
  | unblocked (hhup : f.hup = false) (hmsg : f.msg = false) (hb : f.sendUnblocked = true) :
      Handled U f m p c w (w.store p { c with sendBlocked := false })
  | extended {len : Word} (hreq : requestOf U f m = some len) (hp : p ∈ w.reqList) :
      Handled U f m p c w
        { w with
          sys := w.sys.store p (.hwrng { c with
            reqSize := c.reqSize + len
            sendBlocked := c.sendBlocked && !f.sendUnblocked })
          log := Act.request c.chan len :: w.log }
  | queued {len : Word} (hreq : requestOf U f m = some len) (hp : p ∉ w.reqList) :
      Handled U f m p c w
        { w with
          sys := w.sys.store p (.hwrng { c with
            reqSize := len
            sendBlocked := c.sendBlocked && !f.sendUnblocked })
          reqList := w.reqList ++ [p]
          log := Act.request c.chan len :: w.log }

namespace Handled

variable {U : Uapi} {f : Flags} {m : Inbound} {p : Ptr} {c : HwrngChanCtx} {w w' : World D}

/-- Handling the event touches no other channel. -/
lemma frame (h : Handled U f m p c w w') {q : Ptr} (hq : q ≠ p) :
    w'.sys.heap q = w.sys.heap q ∧ (q ∈ w'.reqList ↔ q ∈ w.reqList) := by
  cases h with
  | closed => exact ⟨Function.update_of_ne hq _ _, List.mem_erase_of_ne hq⟩
  | quiet => exact ⟨rfl, Iff.rfl⟩
  | unblocked => exact ⟨Sys.store_of_ne _ _ hq, Iff.rfl⟩
  | extended => exact ⟨Sys.store_of_ne _ _ hq, Iff.rfl⟩
  | queued => exact ⟨Sys.store_of_ne _ _ hq, by simp [hq]⟩

lemma frame_chan (h : Handled U f m p c w w') {k : Handle} (hk : k ≠ c.chan) :
    w'.sys.objs k = w.sys.objs k := by
  cases h with
  | closed => exact Function.update_of_ne hk _ _
  | quiet => rfl
  | unblocked => rfl
  | extended => rfl
  | queued => rfl

end Handled

lemma Handled.lifecycle {U : Uapi} {f : Flags} {m : Inbound} {p : Ptr} {c : HwrngChanCtx}
    {w w' : World D} (h : Handled U f m p c w w') (hL : Lifecycle w.sys w.reqList)
    (hc : w.sys.heap p = some (.hwrng c)) : Lifecycle w'.sys w'.reqList := by
  have hb : (c.sendBlocked && !f.sendUnblocked) = true → p ∈ w.reqList := by
    intro hb
    exact hL.blocked_listed p c hc (Bool.and_eq_true_iff.mp hb).1
  cases h with
  | closed => exact hL.drop hc
  | quiet => exact hL
  | unblocked => exact hL.store hc rfl hL.list_nodup (fun _ _ => Iff.rfl) (by simp)
  | extended => exact hL.store hc rfl hL.list_nodup (fun _ _ => Iff.rfl) hb
  | queued hreq hp =>
    refine hL.store hc rfl ?_ ?_ fun hblocked => List.mem_append_left _ (hb hblocked)
    · exact List.nodup_append.mpr ⟨hL.list_nodup, List.nodup_singleton p, by
        rintro q hq _ hp' rfl
        exact hp (List.mem_singleton.mp hp' ▸ hq)⟩
    · intro q hq
      simp [hq]

/-- Receiving a request never yields zero, so a failure closes the channel. -/
lemma tipcRecvSingleBuf_rc_ne_zero (U : Uapi) (m : Inbound) :
    (tipcRecvSingleBuf U m sizeofHwrngReq).rc ≠ 0 := by
  have hbad := U.errBadLen_neg
  have hread := m.readMsg.2
  rw [tipcRecvSingleBuf, readMsg]
  split
  · assumption
  · split
    · exact hbad.ne
    · rename_i hlen
      simp only [ne_eq, not_not] at hlen
      split
      · rename_i hneg
        exact hneg.ne
      · simp [hlen, sizeofHwrngReq]

/-- What `hwrng_chan_handle_msg` does with a message that is not one request. -/
lemma hwrngChanHandleMsg_of_none {U : Uapi} {m : Inbound} {w : World D} {p : Ptr}
    {c : HwrngChanCtx} (hc : w.sys.heap p = some (.hwrng c))
    (hrc : (tipcRecvSingleBuf U m sizeofHwrngReq).rc ≠ sizeofHwrngReq) :
    hwrngChanHandleMsg U m w p = .ok ((tipcRecvSingleBuf U m sizeofHwrngReq).rc, w) := by
  simp only [hwrngChanHandleMsg, Sys.hwrngCtx_eq hc, Except.bind_ok, if_pos hrc]
  rfl

/-- What `hwrng_chan_handle_msg` does with a request. -/
lemma hwrngChanHandleMsg_of_some {U : Uapi} {m : Inbound} {w : World D} {p : Ptr}
    {c : HwrngChanCtx} (hL : Lifecycle w.sys w.reqList) (hc : w.sys.heap p = some (.hwrng c))
    (hrc : (tipcRecvSingleBuf U m sizeofHwrngReq).rc = sizeofHwrngReq) {len : Word}
    (hlen : len = le32 (tipcRecvSingleBuf U m sizeofHwrngReq).data) :
    hwrngChanHandleMsg U m w p = .ok (0,
      if p ∈ w.reqList then
        { w with
          sys := w.sys.store p (.hwrng { c with reqSize := c.reqSize + len })
          log := Act.request c.chan len :: w.log }
      else
        { w with
          sys := w.sys.store p (.hwrng { c with reqSize := len })
          reqList := w.reqList ++ [p]
          log := Act.request c.chan len :: w.log }) := by
  subst hlen
  let len := le32 (tipcRecvSingleBuf U m sizeofHwrngReq).data
  let w₁ : World D := { w with log := Act.request c.chan len :: w.log }
  let w₂ : World D := w₁.store p { c with reqSize := len }
  have hlive : ∀ q ∈ w₂.reqList, ∃ d, w₂.sys.heap q = some d := by
    intro q hq
    rcases eq_or_ne q p with rfl | hne
    · exact ⟨_, w.sys.store_self q _⟩
    · obtain ⟨d, hd⟩ := Lifecycle.live hL q hq
      exact ⟨d, (w.sys.store_of_ne _ hne).trans hd⟩
  have hadd : w₂.listAddTail p = .ok { w₂ with reqList := w.reqList ++ [p] } :=
    World.listAddTail_eq hlive p
  simp only [hwrngChanHandleMsg, Sys.hwrngCtx_eq hc, Except.bind_ok, hrc, ne_eq,
    not_true_eq_false, if_false]
  by_cases hp : p ∈ w.reqList
  · simp only [if_pos hp]
    rfl
  · simp only [if_neg hp]
    change (w₂.listAddTail p >>= _) = _
    rw [hadd]
    rfl

lemma hwrngChanEvent_spec (U : Uapi) (f : Flags) (a : Answers) {w : World D} {p : Ptr}
    {c : HwrngChanCtx} (hL : Lifecycle w.sys w.reqList) (hc : w.sys.heap p = some (.hwrng c)) :
    ∃ w', hwrngChanEvent U f a w p = .ok w' ∧ Handled U f a.inbound p c w w' := by
  by_cases hhup : f.hup = true
  · exact ⟨_, by rw [hwrngChanEvent, if_pos hhup]; exact hwrngCloseChan_eq hL hc,
      .closed (Or.inl hhup) (by simp [requestOf, hhup])⟩
  rw [hwrngChanEvent, if_neg hhup, Sys.hwrngCtx_eq hc, Except.bind_ok]
  simp only [Bool.not_eq_true] at hhup
  -- the context after the channel was unblocked
  let c₁ : HwrngChanCtx := { c with sendBlocked := c.sendBlocked && !f.sendUnblocked }
  let w₁ : World D := w.store p c₁
  have hw₁ : (if f.sendUnblocked then w.store p { c with sendBlocked := false } else w) = w₁ := by
    cases hu : f.sendUnblocked with
    | false =>
      have hself : Function.update w.sys.heap p (some (.hwrng c)) = w.sys.heap := by
        rw [← hc, Function.update_eq_self]
      simp [w₁, c₁, World.store, Sys.store, hu, hself]
    | true => simp [w₁, c₁, hu]
  have hc₁ : w₁.sys.heap p = some (.hwrng c₁) := w.sys.store_self p _
  have hL₁ : Lifecycle w₁.sys w₁.reqList :=
    hL.store hc rfl hL.list_nodup (fun _ _ => Iff.rfl) fun hb =>
      hL.blocked_listed p c hc (Bool.and_eq_true_iff.mp hb).1
  cases hmsg : f.msg with
  | false =>
    cases hu : f.sendUnblocked with
    | false => exact ⟨w, by simp, .quiet hhup hmsg hu⟩
    | true => exact ⟨_, by simp, .unblocked hhup hmsg hu⟩
  | true =>
    simp only [hw₁, if_true]
    by_cases hrc : (tipcRecvSingleBuf U a.inbound sizeofHwrngReq).rc = sizeofHwrngReq
    · have hreq : requestOf U f a.inbound =
          some (le32 (tipcRecvSingleBuf U a.inbound sizeofHwrngReq).data) := by
        simp [requestOf, hhup, hmsg, hrc]
      rw [hwrngChanHandleMsg_of_some hL₁ hc₁ hrc rfl, Except.bind_ok]
      by_cases hp : p ∈ w.reqList
      · exact ⟨_, by simp [w₁, World.store, hp]; rfl, by
          simpa [w₁, c₁, World.store, Sys.store_store, hp] using
            (.extended hreq hp : Handled U f a.inbound p c w _)⟩
      · exact ⟨_, by simp [w₁, World.store, hp]; rfl, by
          simpa [w₁, c₁, World.store, Sys.store_store, hp] using
            (.queued hreq hp : Handled U f a.inbound p c w _)⟩
    · have hreq : requestOf U f a.inbound = none := by simp [requestOf, hrc]
      have hdrop : w₁.drop c₁.chan p = w.drop c.chan p := by
        simp [w₁, c₁, World.drop, World.store, Sys.drop_store]
      refine ⟨_, ?_, .closed (Or.inr hmsg) hreq⟩
      rw [hwrngChanHandleMsg_of_none hc₁ hrc, Except.bind_ok]
      simp only [tipcRecvSingleBuf_rc_ne_zero, ne_eq, not_false_eq_true, if_true]
      rw [hwrngCloseChan_eq hL₁ hc₁, hdrop]

/-! ## The handlers -/

lemma hwrngChanHandler_spec (U : Uapi) {handle : Handle} (f : Flags) (a : Answers) (w : World D)
    {p : Ptr} {c : HwrngChanCtx} (hL : Lifecycle w.sys w.reqList)
    (hc : w.sys.heap p = some (.hwrng c)) (hchan : c.chan = handle) :
    hwrngChanHandler U handle f a w p = .error .abort ∨
      ∃ w₁ w₂, hwrngChanHandler U handle f a w p = .ok w₂ ∧ chanErrors f = false ∧
        Handled U f a.inbound p c w w₁ ∧ Passed U a.send w₁.reqList w₁ w₂ := by
  rw [hwrngChanHandler, Sys.hwrngCtx_eq hc, Except.bind_ok, if_neg (by simp [hchan])]
  cases herrs : chanErrors f with
  | true => exact Or.inl rfl
  | false =>
    obtain ⟨w₁, hok, hhandled⟩ := hwrngChanEvent_spec U f a hL hc
    simp only [Bool.false_eq_true, if_false, hok]
    obtain herr | ⟨w₂, hok₂, hpassed⟩ :=
      hwrngKickReqQueue_spec U a.send (hhandled.lifecycle hL hc)
    · exact Or.inl herr
    · exact Or.inr ⟨w₁, w₂, hok₂, trivial, hhandled, hpassed⟩

/-- What the handler of the port does: nothing, a connection that comes to nothing, or a new
channel. -/
inductive Accepted (a : Answers) (w : World D) : World D → Prop
  | quiet : Accepted a w w
  | refused (haccept : 0 ≤ a.accept) :
      Accepted a w { w with log := Act.opened a.accept :: w.log }
  | connected {p : Ptr} (haccept : 0 ≤ a.accept) (hcalloc : a.calloc = some p) :
      Accepted a w
        { w with
          sys := w.sys.connect a.accept a.peer p
            (.hwrng { chan := a.accept, reqSize := 0, sendBlocked := false })
          log := Act.opened a.accept :: w.log }

lemma hwrngPortHandler_spec (f : Flags) (a : Answers) (w : World D)
    (hfresh : 0 ≤ a.accept → w.sys.objs a.accept = none)
    (hcalloc : ∀ p, a.calloc = some p → w.sys.heap p = none) :
    hwrngPortHandler f a w = .error .abort ∨
      ∃ w', hwrngPortHandler f a w = .ok w' ∧ Accepted a w w' := by
  rw [hwrngPortHandler]
  cases portErrors f with
  | true => exact Or.inl rfl
  | false =>
    right
    simp only [Bool.false_eq_true, if_false]
    cases f.ready with
    | false => exact ⟨w, rfl, .quiet⟩
    | true =>
      simp only [if_true]
      by_cases haccept : a.accept < 0
      · exact ⟨w, by rw [if_pos haccept]; rfl, .quiet⟩
      rw [if_neg haccept]
      have hfresh := hfresh (by omega)
      cases hp : a.calloc with
      | none =>
        refine ⟨_, ?_, .refused (by omega)⟩
        simp only [Sys.accept_close hfresh]
        rfl
      | some p =>
        have hheap := hcalloc p hp
        by_cases hrc : a.setCookie.1 = 0
        · refine ⟨_, ?_, .connected (by omega) hp⟩
          have hconnect := w.sys.accept_store_setCookie a.accept a.peer p
            (.hwrng { chan := a.accept, reqSize := 0, sendBlocked := false }) hrc
          simp only [hrc, ne_eq, not_true_eq_false, if_false]
          exact congrArg (fun sys : Sys =>
            (.ok ⟨sys, w.reqList, w.dev, Act.opened a.accept :: w.log⟩ : Except Stop (World D)))
            hconnect
        · refine ⟨_, ?_, .refused (by omega)⟩
          simp only [hrc, ne_eq, not_false_eq_true, if_true, World.store,
            Sys.setCookie_of_ne _ _ _ hrc, Sys.accept_store_free hheap, Except.bind_ok,
            Sys.accept_close hfresh]
          rfl

lemma Accepted.lifecycle {a : Answers} {w w' : World D} (h : Accepted a w w')
    (hL : Lifecycle w.sys w.reqList) (hfresh : 0 ≤ a.accept → w.sys.objs a.accept = none)
    (hcalloc : ∀ p, a.calloc = some p → w.sys.heap p = none) : Lifecycle w'.sys w'.reqList := by
  cases h with
  | quiet => exact hL
  | refused => exact hL
  | connected haccept hp =>
    exact hL.connect (hfresh haccept) (hcalloc _ hp) rfl (by simp) (by simp)

end TrustyLkNxp.Hwrng
