import Mathlib.Tactic
import TrustyLkNxp.Lib.Run

/-!
# Serving in rounds

Clients queue up, each with an amount that is due to it.  A round goes over the queue once
and offers every client whose way is clear one portion; a client that has taken all that was
due, or that is lost, leaves the queue.  Between two rounds one client says something: it
leaves, its way is clear again, or it asks for more.

The service is a function of what it is told, so it can serve as the specification of a
program that keeps its queue in memory of its own.  What a client is offered as long as it
only takes is worked out once, here.
-/

namespace Rounds

open EventSystem

/-- What comes of an offer. -/
inductive Verdict
  | taken
  /-- There is no room for it: the client is blocked until its way is clear again. -/
  | full
  /-- The client cannot be reached any more. -/
  | lost
deriving DecidableEq, Repr

/-- A client in the queue. -/
structure Entry (κ : Type*) where
  client : κ
  due : ℕ
  blocked : Bool
deriving DecidableEq, Repr

/-- What a client says. -/
structure Notice (κ : Type*) where
  client : κ
  leaves : Bool
  /-- Its way is clear again. -/
  clears : Bool
  asks : Option ℕ

/-- How much a client is offered at a time, and how amounts are counted. -/
structure Rule where
  /-- No offer is larger. -/
  portion : ℕ
  /-- Amounts that are added up are counted modulo this. -/
  modulus : ℕ
  portion_pos : 0 < portion

/-- An offer that was made: to whom, how much, and what came of it. -/
abbrev Offer (κ : Type*) := κ × ℕ × Verdict

/-- The queue, and the offers that were made, the latest first. -/
@[ext]
structure Service (κ : Type*) where
  queue : List (Entry κ)
  offers : List (Offer κ)

variable {κ χ : Type*} {R : Rule}

namespace Entry

/-- What a client is offered, when its way is clear. -/
def offer (R : Rule) (verdict : κ → Verdict) (x : Entry κ) : Option (Offer κ) :=
  if x.blocked then none else some (x.client, min x.due R.portion, verdict x.client)

/-- What a round makes of a client. -/
def turn (R : Rule) (v : Verdict) (x : Entry κ) : Option (Entry κ) :=
  if x.blocked then some x
  else if v = .full then some { x with blocked := true }
  else if v = .lost ∨ x.due ≤ R.portion then none
  else some { x with due := x.due - R.portion }

/-- A client in the queue says something, but does not leave. -/
def hear (R : Rule) (n : Notice κ) (x : Entry κ) : Entry κ where
  client := x.client
  due := n.asks.elim x.due fun k => (x.due + k) % R.modulus
  blocked := x.blocked && !n.clears

lemma turn_client {v : Verdict} {x y : Entry κ} (h : x.turn R v = some y) :
    y.client = x.client := by
  simp only [turn] at h
  split_ifs at h <;> simp_all [← Option.some.inj h]

/-- A client that takes what it is offered. -/
lemma turn_of_taken {k : κ} {due : ℕ} :
    (⟨k, due, false⟩ : Entry κ).turn R .taken =
      if due ≤ R.portion then none else some ⟨k, due - R.portion, false⟩ := by
  simp [turn]

end Entry

/-! ## The portions of an amount -/

/-- How many offers an amount takes. Nothing is still offered once. -/
def Rule.count (R : Rule) (due : ℕ) : ℕ := (due - 1) / R.portion + 1

/-- The amounts of the offers, in their order. -/
def Rule.split (R : Rule) (due : ℕ) : List ℕ :=
  (List.range (R.count due)).map fun j => min (due - R.portion * j) R.portion

lemma Rule.lt_count_iff {due j : ℕ} : j < R.count due ↔ R.portion * j < due ∨ j = 0 := by
  rw [count, Nat.lt_succ_iff, Nat.le_div_iff_mul_le R.portion_pos, mul_comm]
  have hpos := R.portion_pos
  rcases Nat.eq_zero_or_pos j with rfl | hj
  · simp
  · have hle : 1 ≤ R.portion * j := Nat.mul_pos hpos hj
    omega

lemma Rule.length_split (R : Rule) (due : ℕ) : (R.split due).length = R.count due := by
  simp [split]

lemma Rule.getElem?_split {due j : ℕ} (h : j < R.count due) :
    (R.split due)[j]? = some (min (due - R.portion * j) R.portion) := by
  simp [split, h]

/-- The offers add up to what was due. -/
lemma Rule.sum_split (R : Rule) (due : ℕ) : (R.split due).sum = due := by
  have hsum : ∀ m, ((List.range m).map fun j => min (due - R.portion * j) R.portion).sum =
      min due (R.portion * m) := by
    intro m
    induction m with
    | zero => simp
    | succ m ih =>
      rw [List.range_succ, List.map_append, List.sum_append, ih, Nat.mul_succ]
      simp only [List.map_cons, List.map_nil, List.sum_cons, List.sum_nil]
      omega
  have hcount : due ≤ R.portion * R.count due := by
    by_contra hlt
    have hself : R.count due < R.count due := R.lt_count_iff.mpr (Or.inl (not_le.mp hlt))
    exact absurd hself (lt_irrefl _)
  rw [split, hsum, min_eq_left hcount]

/-- The offers that were taken. -/
def taken (offers : List (Offer κ)) : List (Offer κ) := offers.filter (·.2.2 = .taken)

/-- Every offer is for the first portion that was not taken before. -/
def Rule.InTurn (R : Rule) (due : ℕ) : List (Offer κ) → Prop
  | [] => True
  | o :: earlier =>
    o.2.1 = min (due - R.portion * (taken earlier).length) R.portion ∧ R.InTurn due earlier

lemma Rule.InTurn.of_append {due : ℕ} {offers earlier : List (Offer κ)}
    (h : R.InTurn due (offers ++ earlier)) : R.InTurn due earlier := by
  induction offers with
  | nil => exact h
  | cons o offers ih => exact ih h.2

/-- What was taken are the first portions, one after the other. -/
lemma Rule.InTurn.taken_eq {due : ℕ} {offers : List (Offer κ)} (h : R.InTurn due offers)
    (hle : (taken offers).length ≤ R.count due) :
    (taken offers).map (·.2.1) = ((R.split due).take (taken offers).length).reverse := by
  induction offers with
  | nil => rfl
  | cons o offers ih =>
    obtain ⟨ho, hoffers⟩ := h
    by_cases htaken : o.2.2 = .taken
    · have hcons : taken (o :: offers) = o :: taken offers :=
        List.filter_cons_of_pos (by simpa using htaken)
      rw [hcons, List.length_cons] at hle ⊢
      rw [List.map_cons, ih hoffers (by omega), List.take_add_one, R.getElem?_split (by omega), ho]
      simp
    · have hcons : taken (o :: offers) = taken offers :=
        List.filter_cons_of_neg (by simpa using htaken)
      rw [hcons] at hle ⊢
      exact ih hoffers hle

/-! ## The service -/

variable [DecidableEq κ]

namespace Service

/-- A client says something. Who is not in the queue and asks for something joins it at the
end. -/
def hear (R : Rule) (n : Notice κ) (s : Service κ) : Service κ where
  queue :=
    if n.leaves then s.queue.filter (·.client ≠ n.client)
    else if n.client ∈ s.queue.map Entry.client then
      s.queue.map fun x => if x.client = n.client then x.hear R n else x
    else s.queue ++ n.asks.toList.map fun k => ⟨n.client, k, false⟩
  offers := s.offers

/-- Every client has its turn, in the order of the queue. -/
def round (R : Rule) (verdict : κ → Verdict) (s : Service κ) : Service κ where
  queue := s.queue.filterMap fun x => x.turn R (verdict x.client)
  offers := (s.queue.filterMap (Entry.offer R verdict)).reverse ++ s.offers

/-- What a client is in the queue for. -/
def of (s : Service κ) (k : κ) : List (Entry κ) := s.queue.filter (·.client = k)

/-- The offers made to a client, the latest first. -/
def offersTo (s : Service κ) (k : κ) : List (Offer κ) := s.offers.filter (·.1 = k)

end Service

/-- A client says something, then there is a round. -/
def system (χ : Type*) (R : Rule) :
    System (Service κ) (Notice κ × (κ → Verdict)) χ where
  init s := s = ⟨[], []⟩
  admits _ _ := True
  step s i := .ok ((s.hear R i.1).round R i.2)

/-! ## What happens to one client -/

namespace Service

variable {s : Service κ} {k : κ} {verdict : κ → Verdict}

lemma client_of_mem_of {x : Entry κ} (hx : x ∈ s.of k) : x.client = k := by
  simpa using (List.mem_filter.mp hx).2

lemma of_round (s : Service κ) (k : κ) (verdict : κ → Verdict) :
    (s.round R verdict).of k = (s.of k).filterMap (Entry.turn R (verdict k)) := by
  simp only [of, round, List.filterMap_filter, List.filter_filterMap]
  refine List.filterMap_congr fun x _ => ?_
  -- a turn leaves the client who it is
  by_cases hk : x.client = k
  · subst hk
    rcases hx : x.turn R (verdict x.client) with _ | y
    · simp
    · simp [Entry.turn_client hx]
  · rcases hx : x.turn R (verdict x.client) with _ | y
    · simp [hk]
    · simp [Entry.turn_client hx, hk]

lemma offersTo_round (s : Service κ) (k : κ) (verdict : κ → Verdict) :
    (s.round R verdict).offersTo k =
      ((s.of k).filterMap (Entry.offer R verdict)).reverse ++ s.offersTo k := by
  simp only [offersTo, round, of, List.filter_append, List.filter_reverse, List.filterMap_filter,
    List.filter_filterMap]
  refine congrArg (·.reverse ++ _) (List.filterMap_congr fun x _ => ?_)
  by_cases hb : x.blocked <;> by_cases hk : x.client = k <;> simp [Entry.offer, hb, hk]

lemma offersTo_hear (n : Notice κ) : (s.hear R n).offersTo k = s.offersTo k := rfl

/-- A client in the queue that does not leave changes its own entries only. -/
lemma of_hear_of_mem (s : Service κ) (k : κ) {n : Notice κ} (hleaves : n.leaves = false)
    (hin : n.client ∈ s.queue.map Entry.client) :
    (s.hear R n).of k = (s.of k).map fun x => if x.client = n.client then x.hear R n else x := by
  have hsame : ((fun x : Entry κ => decide (x.client = k)) ∘
      fun x => if x.client = n.client then x.hear R n else x) = fun x => decide (x.client = k) := by
    funext x
    simp only [Function.comp_apply]
    split_ifs <;> rfl
  simp only [of, hear, hleaves, Bool.false_eq_true, if_false, if_pos hin, List.filter_map, hsame]

/-- What one client says does not change what another is in the queue for. -/
lemma of_hear_of_ne (s : Service κ) {n : Notice κ} (hn : n.client ≠ k) :
    (s.hear R n).of k = s.of k := by
  cases hleaves : n.leaves with
  | true =>
    simp only [of, hear, hleaves, if_true, List.filter_filter]
    refine List.filter_congr fun x _ => ?_
    by_cases hk : x.client = k <;> simp [hk, hn.symm]
  | false =>
    by_cases hin : n.client ∈ s.queue.map Entry.client
    · rw [s.of_hear_of_mem k hleaves hin]
      refine (List.map_congr_left fun x hx => ?_).trans (List.map_id _)
      rw [if_neg (by rw [client_of_mem_of hx]; exact hn.symm)]
      rfl
    · simp only [of, hear, hleaves, Bool.false_eq_true, if_false, if_neg hin, List.filter_append]
      cases n.asks <;> simp [hn]

/-- The service, as far as one client is concerned. -/
def alone (s : Service κ) (k : κ) : Service κ := ⟨s.of k, s.offersTo k⟩

lemma alone_round (s : Service κ) (k : κ) (verdict : κ → Verdict) :
    (s.round R verdict).alone k = (s.alone k).round R fun _ => verdict k := by
  have hoffers : (s.of k).filterMap (Entry.offer R verdict) =
      (s.of k).filterMap (Entry.offer R fun _ => verdict k) :=
    List.filterMap_congr fun x hx => by simp only [Entry.offer, client_of_mem_of hx]
  refine Service.ext (s.of_round k verdict) ((s.offersTo_round k verdict).trans ?_)
  rw [hoffers]
  rfl

/-- What a client says changes nothing for the others. -/
lemma alone_hear_of_ne (s : Service κ) {k : κ} {n : Notice κ} (hn : n.client ≠ k) :
    (s.hear R n).alone k = s.alone k :=
  Service.ext (s.of_hear_of_ne hn) rfl

lemma alone_hear_self (s : Service κ) (n : Notice κ) :
    (s.hear R n).alone n.client = (s.alone n.client).hear R n := by
  refine Service.ext ?_ rfl
  have hmem : n.client ∈ (s.alone n.client).queue.map Entry.client ↔
      n.client ∈ s.queue.map Entry.client := by
    simp [alone, of]
  cases hleaves : n.leaves with
  | true =>
    simp only [alone, of, hear, hleaves, if_true]
    exact List.filter_comm _ _ _
  | false =>
    by_cases hin : n.client ∈ s.queue.map Entry.client
    · rw [alone, s.of_hear_of_mem n.client hleaves hin]
      simp only [hear, hleaves, Bool.false_eq_true, if_false, if_pos (hmem.mpr hin)]
      rfl
    · simp only [hear, hleaves, Bool.false_eq_true, if_false, if_neg hin,
        if_neg (mt hmem.mp hin)]
      cases n.asks <;> simp [alone, of]

/-- A client that is in the queue and neither leaves nor asks for more stays as it is, except that
its way may be clear again. -/
lemma of_hear_of_silent {n : Notice κ} {due : ℕ} {b : Bool} (h : s.of k = [⟨k, due, b⟩])
    (hn : n.client = k → n.leaves = false ∧ n.asks = none) :
    (s.hear R n).of k = [⟨k, due, b && !(n.client = k && n.clears)⟩] := by
  by_cases hk : n.client = k
  · obtain ⟨hleaves, hasks⟩ := hn hk
    subst hk
    refine (congrArg queue (s.alone_hear_self n)).trans ?_
    simp [hear, alone, h, hleaves, Entry.hear, hasks]
  · rw [s.of_hear_of_ne hk, h]
    simp [hk]

/-- Who is not in the queue does not join it without asking for something. -/
lemma of_hear_of_nil {n : Notice κ} (h : s.of k = []) (hn : n.client = k → n.asks = none) :
    (s.hear R n).of k = [] := by
  by_cases hk : n.client = k
  · subst hk
    refine (congrArg queue (s.alone_hear_self n)).trans ?_
    simp [hear, alone, h, hn rfl]
  · exact (s.of_hear_of_ne hk).trans h

end Service

/-! ## A client and the others -/

namespace Service

/-- The service is told something, or nothing at all; then there is a round. -/
def attend (R : Rule) (s : Service κ) (v : Option (Notice κ) × Verdict) : Service κ :=
  (v.1.elim s (s.hear R)).round R fun _ => v.2

end Service

/-- What a client sees: what it says itself, and what comes of the offer made to it. -/
def view (k : κ) (i : Notice κ × (κ → Verdict)) : Option (Notice κ) × Verdict :=
  (if i.1.client = k then some i.1 else none, i.2 k)

lemma Service.alone_step (s : Service κ) (k : κ) (i : Notice κ × (κ → Verdict)) :
    ((s.hear R i.1).round R i.2).alone k = (s.alone k).attend R (view k i) := by
  rw [alone_round, attend, view]
  by_cases hk : i.1.client = k
  · subst hk
    rw [alone_hear_self, if_pos rfl]
    rfl
  · rw [s.alone_hear_of_ne hk, if_neg hk]
    rfl

/-- What a client is in the queue for, and what it was offered, is a function of what it saw. -/
lemma alone_of_run {s t : Service κ} {is : List (Notice κ × (κ → Verdict))}
    (h : (system χ R).Run s is t) (k : κ) :
    t.alone k = (is.map (view k)).foldl (Service.attend R) (s.alone k) := by
  induction h with
  | nil => rfl
  | @snoc is t u i hrun ha hstep ih =>
    obtain rfl : (t.hear R i.1).round R i.2 = u := Except.ok.inj hstep
    rw [t.alone_step, ih, List.map_append, List.foldl_append]
    rfl

/-! ## A client that stays -/

/-- A client that neither leaves nor asks for more, and that can be reached, is offered one portion
after the other, each of them until it takes it. It is in the queue until it has taken all. -/
lemma offers_of_staying {s t : Service κ} {is : List (Notice κ × (κ → Verdict))} {k : κ} {due : ℕ}
    {b : Bool} (h : (system χ R).Run s is t) (hs : s.of k = [⟨k, due, b⟩])
    (hsilent : ∀ i ∈ is, i.1.client = k → i.1.leaves = false ∧ i.1.asks = none)
    (hreached : ∀ i ∈ is, i.2 k ≠ .lost) :
    ∃ offers, t.offersTo k = offers ++ s.offersTo k ∧ R.InTurn due offers ∧
      (taken offers).length ≤ R.count due ∧
      ∃ b', t.of k = if (taken offers).length < R.count due then
        [⟨k, due - R.portion * (taken offers).length, b'⟩] else [] := by
  induction h with
  | nil => exact ⟨[], rfl, trivial, Nat.zero_le _, b, by simpa [R.lt_count_iff, taken] using hs⟩
  | @snoc is t u i hrun ha hstep ih =>
    obtain ⟨offers, hoffers, hturn, hle, b', hof⟩ :=
      ih (fun j hj => hsilent j (List.mem_append_left _ hj))
        fun j hj => hreached j (List.mem_append_left _ hj)
    have hi : i ∈ is ++ [i] := by simp
    obtain rfl : (t.hear R i.1).round R i.2 = u := Except.ok.inj hstep
    simp only [Service.offersTo_round, Service.of_round, Service.offersTo_hear, hoffers]
    by_cases hlt : (taken offers).length < R.count due
    swap
    · -- it has got everything
      rw [if_neg hlt] at hof
      rw [Service.of_hear_of_nil hof fun hk => (hsilent i hi hk).2]
      exact ⟨offers, rfl, hturn, hle, b', (if_neg hlt).symm⟩
    rw [if_pos hlt] at hof
    rw [Service.of_hear_of_silent hof (hsilent i hi)]
    cases hblocked : b' && !(decide (i.1.client = k) && i.1.clears) with
    | true => exact ⟨offers, rfl, hturn, hle, true, by simp [hlt, Entry.turn]⟩
    | false =>
      cases hverdict : i.2 k with
      | lost => exact absurd hverdict (hreached i hi)
      | full =>
        -- the same portion will be offered again
        refine ⟨(k, _, .full) :: offers, ?_, ⟨rfl, hturn⟩, hle, true, ?_⟩
        · simp [Entry.offer, hverdict]
        · simpa [Entry.turn, taken] using hlt
      | taken =>
        have hlast : (taken offers).length + 1 < R.count due ↔
            ¬ due - R.portion * (taken offers).length ≤ R.portion := by
          rw [R.lt_count_iff, Nat.mul_succ]
          omega
        refine ⟨(k, _, .taken) :: offers, ?_, ⟨rfl, hturn⟩, ?_, false, ?_⟩
        · simp [Entry.offer, hverdict]
        · simpa [taken] using hlt
        · simp only [taken, List.filter_cons, decide_true, if_true, List.length_cons]
          rw [← taken]
          by_cases hfits : due - R.portion * (taken offers).length ≤ R.portion
          · rw [if_neg (mt hlast.mp (not_not.mpr hfits))]
            simp [Entry.turn_of_taken, hfits]
          · rw [if_pos (hlast.mpr hfits)]
            simp [Entry.turn_of_taken, hfits, Nat.mul_succ, Nat.sub_sub]

/-! ## A client that only takes -/

/-- A client whose way is clear, and that neither leaves nor asks for more and takes what it is
offered, is offered one portion a round, until it has got what was due to it. -/
lemma offers_of_taking {s t : Service κ} {is : List (Notice κ × (κ → Verdict))} {k : κ} {due : ℕ}
    (h : (system χ R).Run s is t) (hs : s.of k = [⟨k, due, false⟩])
    (hsilent : ∀ i ∈ is, i.1.client = k → i.1.leaves = false ∧ i.1.asks = none)
    (htaken : ∀ i ∈ is, i.2 k = .taken) :
    t.offersTo k = (((R.split due).take is.length).map (k, ·, Verdict.taken)).reverse ++
        s.offersTo k ∧
      t.of k =
        if is.length < R.count due then [⟨k, due - R.portion * is.length, false⟩] else [] := by
  induction h with
  | nil => simpa [R.lt_count_iff.mpr (Or.inr rfl)] using hs
  | @snoc is t u i hrun ha hstep ih =>
    obtain ⟨hoffers, hof⟩ := ih (fun j hj => hsilent j (List.mem_append_left _ hj))
      fun j hj => htaken j (List.mem_append_left _ hj)
    have hi : i ∈ is ++ [i] := by simp
    obtain rfl : (t.hear R i.1).round R i.2 = u := Except.ok.inj hstep
    simp only [Service.offersTo_round, Service.of_round, Service.offersTo_hear, hoffers,
      htaken i hi, List.length_append, List.length_singleton]
    by_cases hlt : is.length < R.count due
    · -- one more portion
      rw [if_pos hlt] at hof
      rw [Service.of_hear_of_silent hof (hsilent i hi)]
      have hlast : is.length + 1 < R.count due ↔ ¬ due - R.portion * is.length ≤ R.portion := by
        rw [R.lt_count_iff, Nat.mul_succ]
        omega
      refine ⟨?_, ?_⟩
      · rw [List.take_add_one, R.getElem?_split hlt]
        simp [Entry.offer, htaken i hi]
      · by_cases hle : due - R.portion * is.length ≤ R.portion
        · rw [if_neg (mt hlast.mp (not_not.mpr hle))]
          simp [Entry.turn_of_taken, hle]
        · rw [if_pos (hlast.mpr hle)]
          simp [Entry.turn_of_taken, hle, Nat.mul_succ, Nat.sub_sub]
    · -- it has got everything
      rw [if_neg hlt] at hof
      rw [Service.of_hear_of_nil hof fun hk => (hsilent i hi hk).2, if_neg (by omega)]
      have hall : ∀ j, R.count due ≤ j → (R.split due).take j = R.split due :=
        fun j hj => List.take_of_length_le ((R.length_split due).trans_le hj)
      refine ⟨?_, rfl⟩
      rw [hall _ (by omega), hall _ (by omega)]
      rfl

end Rounds
