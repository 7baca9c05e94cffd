import TrustyLkNxp.Caam.Rng

/-!
# Segment after segment

`caam_hwrng` goes through its buffer in segments whose sizes the kernel chooses.  The segments
lie one after the other; each is filled with random bytes by one job, and when all of them are,
they are the whole buffer.
-/

namespace TrustyLkNxp.Caam

open Memory

variable {E : Platform}

/-! ## One job -/

lemma fired_nJob (E : Platform) (m : Machine) : (fired E m).nJob = m.nJob + 1 := by
  rw [fired, engine]
  dsimp only
  split <;> rfl

/-- A status without an error is that of a job the engine completed without one. -/
lemma job_of_status {m : Machine} (h : (fired E m).ringOut1 &&& jobRingSts = 0) :
    (E.job m.nJob).completes = true ∧ (E.job m.nJob).status &&& jobRingSts = 0 := by
  rw [fired, engine] at h
  dsimp only at h
  split at h
  · rename_i mem drawn hdone
    split at hdone
    · assumption
    · exact absurd hdone (by simp)
  · exact absurd h (error_status _)

lemma collectJob_hang {job : ℕ} {jobPa : Word} {m m' : Machine}
    (h : collectJob E job jobPa m = (.error .hang, m')) : (E.job job).completes = false := by
  cases hdone : (E.job job).completes with
  | false => rfl
  | true =>
  rw [collectJob, Prog.bind_of_ok (waitJob_ok hdone m)] at h
  -- the job is complete: all that is left to go wrong is the address in the output ring
  obtain hfinish | ⟨_, m₂, -, h⟩ := Prog.bind_eq_error.mp h
  · exact absurd (congrArg Prod.fst hfinish) (by simp [finishDma, act])
  obtain hget | ⟨_, m₃, -, h⟩ := Prog.bind_eq_error.mp h
  · exact absurd (congrArg Prod.fst hget) (by simp)
  obtain hout | ⟨_, m₄, -, h⟩ := Prog.bind_eq_error.mp h
  · exact absurd (Prog.check_eq_error hout).2 (by simp)
  obtain hstatus | ⟨_, m₅, -, h⟩ := Prog.bind_eq_error.mp h
  · exact absurd (congrArg Prod.fst hstatus) (by simp)
  · exact absurd (congrArg Prod.fst h) (by simp [writel, act])

lemma runJob_hang {m m' : Machine} (h : runJob E m = (.error .hang, m')) :
    (E.job m.nJob).completes = false := by
  obtain ⟨acts, m₁, herr, -⟩ | ⟨res₁, res₂, m₁, hok, hquiet, -⟩ := linkJob_spec E m
  · rw [runJob, Prog.bind_of_error herr] at h
    exact absurd (congrArg Prod.fst h) (by simp)
  · rw [runJob, Prog.bind_of_ok hok] at h
    have hdone := collectJob_hang (h : collectJob E m₁.nJob _ _ = _)
    rwa [hquiet.nJob] at hdone

/-- What is left to do once the job is written. -/
lemma submit_written (words : List Word) (m : Machine) :
    submit E words m = (do
      runJob E
      let n ← Prog.get
      return decide (n.status &&& jobRingSts = 0) : Drv Bool)
      { m with
        dsc := words ++ m.dsc.drop words.length
        dscUsed := BitVec.ofNat 32 words.length
        trace := .write E.gJobDsc (4 * words.length) :: m.trace } := rfl

/-- The driver waits forever only for a job that is never completed. -/
lemma submit_hang {words : List Word} {m m' : Machine}
    (h : submit E words m = (.error .hang, m')) : (E.job m.nJob).completes = false := by
  rw [submit_written] at h
  obtain hrun | ⟨_, m₁, -, hrest⟩ := Prog.bind_eq_error.mp h
  · exact (runJob_hang hrun :)
  · have hok : (.ok (decide (m₁.status &&& jobRingSts = 0)) : Except Halt Bool) = .error .hang :=
      congrArg Prod.fst hrest
    exact absurd hok (by simp)

/-- What a job ended with whose status is free of errors. -/
lemma runJob_status {m m' : Machine} (h : runJob E m = (.ok (), m'))
    (hsts : m'.status &&& jobRingSts = 0) :
    (E.job m.nJob).completes = true ∧ (E.job m.nJob).status &&& jobRingSts = 0 := by
  have hjob := runJob_spec E m
  rw [h] at hjob
  cases hjob with
  | ran hpre _ _ _ hstatus =>
    rw [hstatus rfl] at hsts
    have hgood := job_of_status hsts
    rwa [hpre.nJob] at hgood

lemma submit_status {words : List Word} {m m' : Machine}
    (h : submit E words m = (.ok true, m')) :
    (E.job m.nJob).completes = true ∧ (E.job m.nJob).status &&& jobRingSts = 0 := by
  rw [submit_written] at h
  obtain ⟨_, m₁, hrun, hrest⟩ := Prog.bind_eq_ok.mp h
  have hok : (.ok (decide (m₁.status &&& jobRingSts = 0)) : Except Halt Bool) = .ok true :=
    congrArg Prod.fst hrest
  exact (runJob_status hrun (by simpa using hok) :)

/-! ## Segments -/

/-- A segment of the buffer, with the job that stores it. -/
structure Segment where
  va : ℕ
  size : Word
  dsc : List Word
  used : Word

namespace Segment

/-- Its job is started. -/
def start (g : Segment) : Act := .start g.dsc g.used

/-- It is handed back to the CPU. -/
def finish (g : Segment) : Act := .finish g.va g.size .fromDevice

/-- The addresses of the segment. -/
def range (g : Segment) : ℕ × ℕ := (g.va, g.size.toNat)

/-- Its job has as many random bytes as the segment is long stored at its physical address, and
nothing anywhere else. -/
structure Stores (E : Platform) (g : Segment) : Prop where
  job : ∃ ptr : Word, parseDescriptor g.dsc =
      some [.operation 0x82500000, .fifoStore 0x34 ptr g.size.toNat] ∧
    ∀ i < g.size.toNat, E.mmu (g.va + i) = ptr.toNat + i
  only : writable g.dsc = E.cells g.va g.size.toNat

end Segment

/-- How many bytes some segments have. -/
def sizes (segs : List Segment) : ℕ := (segs.map (·.size.toNat)).sum

/-- Whether the engine is started. -/
def Act.isStart : Act → Bool
  | .start _ _ => true
  | _ => false

lemma NoStart.filter {acts : List Act} (h : NoStart acts) : acts.filter Act.isStart = [] := by
  rw [List.filter_eq_nil_iff]
  intro a ha
  cases a with
  | start dsc used => exact absurd ha (h dsc used)
  | prepare => simp [Act.isStart]
  | finish => simp [Act.isStart]
  | write => simp [Act.isStart]
  | writel => simp [Act.isStart]
  | polled => simp [Act.isStart]

/-- How the job of a segment goes: it is not started, or it is the only one that is, and fills
the segment, or fails and leaves everything outside it alone. -/
inductive SegmentRun (E : Platform) (va : ℕ) (size : Word) (m : Machine) :
    Except Halt Bool → Machine → Prop
  | unlinked {acts : List Act} {m' : Machine} (hquiet : Quiet acts m m') :
      SegmentRun E va size m (.error .abort) m'
  | ran {before after : List Act} {g : Segment} {r : Except Halt Bool} {m' : Machine}
      (hva : g.va = va) (hsize : g.size = size)
      (hstores : g.Stores E)
      (htrace : m'.trace = after ++ g.start :: before ++ m.trace)
      (hbefore : NoStart before) (hafter : NoStart after)
      (hsame : SameOutside (E.cells va size.toNat) m.mem m'.mem)
      (hnJob : m'.nJob = m.nJob + 1)
      (hgood : r = .ok true →
        (E.job m.nJob).completes = true ∧ (E.job m.nJob).status &&& jobRingSts = 0)
      (hhang : r = .error .hang → (E.job m.nJob).completes = false)
      (hfilled : r = .ok true → Filled E va size.toNat m m') :
      SegmentRun E va size m r m'

lemma submit_segment {va : ℕ} {len : Word} (hlen : len ≠ 0) {res : Prepared}
    (hok : PrepareOk E va len true res) (m : Machine) {r : Except Halt Bool} {m' : Machine}
    (h : submit E [0xB0800004, 0x82500000, 0x60340000 ||| (0x0000ffff &&& res.size),
      BitVec.ofNat 32 res.paddr] m = (r, m')) : SegmentRun E va res.size m r m' := by
  have hsub := submit_spec E [0xB0800004, 0x82500000, 0x60340000 ||| (0x0000ffff &&& res.size),
    BitVec.ofNat 32 res.paddr] m
  rw [h] at hsub
  cases hsub with
  | unlinked hquiet => exact .unlinked hquiet
  | @ran val res₁ res₂ post _ m₁ _ hpre _ hdsc hpost _ =>
    have hpage : res.size.toNat ≤ 4096 := BitVec.le_def.mp (hok.size_page rfl)
    have haddr := hok.toNat_paddr (BitVec.le_def.mp (hok.size_pos hlen))
    have hparse : parseDescriptor m₁.dsc =
        some [.operation 0x82500000,
          .fifoStore 0x34 (BitVec.ofNat 32 res.paddr) res.size.toNat] := by
      have hparse := parse_hwrng (m.dsc.drop 4) res.size (BitVec.ofNat 32 res.paddr)
      rw [Nat.mod_eq_of_lt (show res.size.toNat < 65536 by omega)] at hparse
      rw [hdsc]
      exact hparse
    have honly : writable m₁.dsc = E.cells va res.size.toNat := by
      have hgrants : grants m₁.dsc = [⟨.fromDevice, res.paddr, res.size.toNat⟩] := by
        refine (grants_of_parse hparse).trans ?_
        simp only [List.filterMap_cons, List.filterMap_nil, Command.grant, haddr]
      rw [hok.cells_eq le_rfl, writable, hgrants]
      ext a
      simp [Grant.range]
    have hmaps : ∀ i < res.size.toNat, E.mmu (va + i) = (BitVec.ofNat 32 res.paddr).toNat + i := by
      rw [haddr]
      exact hok.maps
    let g : Segment := ⟨va, res.size, m₁.dsc, m₁.dscUsed⟩
    have hstores : g.Stores E := ⟨⟨_, hparse, hmaps⟩, honly⟩
    have hframe := fired_frame E m₁
    rw [hpre.mem, ← hpost.mem, honly] at hframe
    refine .ran (g := g) rfl rfl hstores (hpre.trace_fired hpost) hpre.noStart hpost.noStart
      hframe ?_ (fun hr => submit_status (hr ▸ h)) (fun hr => submit_hang (hr ▸ h))
      (fun hr => submit_hwrng hlen hok (hr ▸ h))
    rw [hpost.nJob, fired_nJob, hpre.nJob]

/-- What came before the job belongs to the segment. -/
lemma SegmentRun.after {va : ℕ} {size : Word} {acts : List Act} {m m₁ m' : Machine}
    {r : Except Halt Bool} (hfirst : Quiet acts m m₁) (h : SegmentRun E va size m₁ r m') :
    SegmentRun E va size m r m' := by
  cases h with
  | unlinked hquiet => exact .unlinked (hfirst.trans hquiet)
  | ran hva hsize hstores htrace hbefore hafter hsame hnJob hgood hhang hfilled =>
    rw [hfirst.nJob] at hnJob hgood hhang
    rw [hfirst.mem] at hsame
    refine .ran hva hsize hstores ?_ (hbefore.append hfirst.noStart) hafter hsame hnJob hgood hhang
      fun hr => (hfilled hr).congr hfirst.mem hfirst.drawn
    rw [htrace, hfirst.trace]
    simp

/-! ## The loop -/

/-- What a run of the loop did to a buffer that ends at `stop`: the segments `segs` are filled
and handed back, and `cur`, if there is one, is the segment whose job ended the loop. -/
structure Fills (E : Platform) (out stop : ℕ) (m : Machine) (r : Except Halt Word) (m' : Machine)
    (segs : List Segment) (cur : Option Segment) : Prop where
  /-- The segments lie one after the other, inside the buffer. -/
  tiles : ∃ upto ≤ stop, Tiles out ((segs ++ cur.toList).map Segment.range) upto ∧
    SameOutside (E.cells out (upto - out)) m.mem m'.mem ∧
    (r = .ok caamSuccess → cur = none ∧ upto = stop)
  /-- The job of a segment stores random bytes in all of it. -/
  stores : ∀ g ∈ segs ++ cur.toList, g.Stores E
  /-- However the loop ends, the segments that were handed back hold what was drawn. -/
  filled : Set.InjOn E.mmu (range out (stop - out)) →
    E.bytes m'.mem out (sizes segs) = E.core.draw m.drawn (sizes segs)
  /-- No other job is started. -/
  starts : (m.actsTo m').reverse.filter Act.isStart = (segs ++ cur.toList).map Segment.start
  /-- After its job a segment is handed back. -/
  handed : (segs.flatMap fun g => [g.start, g.finish]).Sublist (m.actsTo m').reverse
  /-- The jobs were completed, without an error. -/
  good : ∀ i < segs.length, (E.job (m.nJob + i)).completes = true ∧
    (E.job (m.nJob + i)).status &&& jobRingSts = 0
  /-- The loop ends, unless a job does not. -/
  ends : r = .ok caamSuccess ∨ r = .ok caamFailure ∨ r = .error .abort ∨
    (r = .error .hang ∧ (E.job (m.nJob + segs.length)).completes = false)

/-- Nothing was started, and the loop is over. -/
lemma Fills.of_quiet {out stop : ℕ} (hle : out ≤ stop) {m m' : Machine} {acts : List Act}
    (hquiet : Quiet acts m m') {r : Except Halt Word}
    (hr : r = .ok caamSuccess ∧ out = stop ∨ r = .ok caamFailure ∨ r = .error .abort) :
    Fills E out stop m r m' [] none := by
  have hacts := Machine.actsTo_eq hquiet.trace
  constructor
  case tiles =>
    refine ⟨out, hle, rfl, ?_, fun hok => ⟨rfl, ?_⟩⟩
    · rw [hquiet.mem]
      exact .refl _ _
    · rcases hr with ⟨-, heq⟩ | rfl | rfl
      · exact heq
      · exact absurd hok (by simp [caamFailure, caamSuccess])
      · exact absurd hok (by simp)
  case stores => simp
  case filled => exact fun _ => rfl
  case starts =>
    rw [hacts, List.filter_reverse, hquiet.noStart.filter]
    rfl
  case handed => exact List.nil_sublist _
  case good => simp
  case ends =>
    rcases hr with ⟨rfl, -⟩ | rfl | rfl
    · exact Or.inl rfl
    · exact Or.inr (Or.inl rfl)
    · exact Or.inr (Or.inr (Or.inl rfl))

/-- The job of a segment has ended the loop. -/
lemma Fills.of_last {out stop : ℕ} {m m' : Machine} {before after : List Act} {g : Segment}
    {r : Except Halt Word} (hva : g.va = out) (hpos : 0 < g.size.toNat)
    (hfits : out + g.size.toNat ≤ stop) (hstores : g.Stores E)
    (htrace : m'.trace = after ++ g.start :: before ++ m.trace)
    (hbefore : NoStart before) (hafter : NoStart after)
    (hsame : SameOutside (E.cells out g.size.toNat) m.mem m'.mem)
    (hr : r = .ok caamFailure ∨ r = .error .abort ∨
      (r = .error .hang ∧ (E.job m.nJob).completes = false)) :
    Fills E out stop m r m' [] (some g) := by
  have hacts := Machine.actsTo_eq htrace
  constructor
  case tiles =>
    refine ⟨out + g.size.toNat, hfits, ⟨hva, hpos, rfl⟩, ?_, fun hok => ?_⟩
    · rwa [Nat.add_sub_cancel_left]
    · rcases hr with rfl | rfl | ⟨rfl, -⟩
      · exact absurd hok (by simp [caamFailure, caamSuccess])
      · exact absurd hok (by simp)
      · exact absurd hok (by simp)
  case stores => simpa using hstores
  case filled => exact fun _ => rfl
  case starts =>
    rw [hacts, List.filter_reverse, List.filter_append, List.filter_cons, hafter.filter,
      hbefore.filter]
    simp [Segment.start, Act.isStart]
  case handed => exact List.nil_sublist _
  case good => simp
  case ends => exact Or.inr hr

/-- One more segment before the others. -/
lemma Fills.cons {out stop : ℕ} {m m₁ m' : Machine} {before after : List Act} {g : Segment}
    {r : Except Halt Word} {segs : List Segment} {cur : Option Segment} (hva : g.va = out)
    (hpos : 0 < g.size.toNat) (hstores : g.Stores E)
    (htrace : m₁.trace = g.finish :: (after ++ g.start :: before) ++ m.trace)
    (hbefore : NoStart before) (hafter : NoStart after)
    (hfilled : Filled E out g.size.toNat m m₁) (hnJob : m₁.nJob = m.nJob + 1)
    (hgood : (E.job m.nJob).completes = true ∧ (E.job m.nJob).status &&& jobRingSts = 0)
    {acts : List Act} (htrace' : m'.trace = acts ++ m₁.trace)
    (h : Fills E (out + g.size.toNat) stop m₁ r m' segs cur) :
    Fills E out stop m r m' (g :: segs) cur := by
  have hacts : m.actsTo m' = m₁.actsTo m' ++ g.finish :: (after ++ g.start :: before) := by
    rw [Machine.actsTo_eq htrace']
    refine Machine.actsTo_eq ?_
    rw [htrace', htrace, List.append_assoc]
  obtain ⟨upto, hupto, htiles, hsame', hdone⟩ := h.tiles
  have hle := htiles.le
  constructor
  case tiles =>
    refine ⟨upto, hupto, ⟨hva, hpos, htiles⟩, ?_, hdone⟩
    have hn : upto - out = g.size.toNat + (upto - (out + g.size.toNat)) := by omega
    obtain ⟨hsub, hsub'⟩ := E.cells_add_subset out hn
    exact fun a ha => (hsame' a fun hmem => ha (hsub' hmem)).trans
      (hfilled.same a fun hmem => ha (hsub hmem))
  case filled =>
    -- the segments behind this one are stored elsewhere
    intro hinj
    have hn : upto - (out + g.size.toNat) ≤ stop - (out + g.size.toNat) := by omega
    have hapart : Disjoint (E.cells (out + g.size.toNat) (upto - (out + g.size.toNat)))
        (E.cells out g.size.toNat) :=
      E.cells_disjoint (hinj.mono (range_subset le_rfl (by omega)))
    have hrest := h.filled (hinj.mono (range_subset (by omega) (by omega)))
    rw [hfilled.drawn] at hrest
    have hsizes : sizes (g :: segs) = g.size.toNat + sizes segs := List.sum_cons
    rw [hsizes, E.bytes_add, E.core.draw_add, hrest, E.bytes_of_sameOutside hsame' hapart,
      hfilled.bytes]
  case stores =>
    intro g' hg'
    rcases List.mem_cons.mp hg' with rfl | hg'
    · exact hstores
    · exact h.stores g' hg'
  case starts =>
    have hrest := h.starts
    rw [hacts, List.reverse_append, List.filter_append, hrest, List.filter_reverse,
      List.filter_cons, List.filter_append, List.filter_cons, hafter.filter, hbefore.filter]
    simp [Segment.start, Segment.finish, Act.isStart]
  case handed =>
    rw [hacts, List.reverse_append, List.flatMap_cons]
    have hstart : [g.start].Sublist (after ++ g.start :: before).reverse :=
      List.singleton_sublist.mpr (by simp)
    rw [List.reverse_cons]
    exact (hstart.append (.refl [g.finish])).append h.handed
  case good =>
    intro i hi
    rcases i with _ | i
    · exact hgood
    · have hi := h.good i (by simpa using hi)
      rwa [hnJob, Nat.add_right_comm] at hi
  case ends =>
    have hends := h.ends
    rwa [hnJob, Nat.add_right_comm] at hends

/-- A buffer that is full. -/
lemma hwrngLoop_zero {rounds out : ℕ} {m : Machine} {r : Except Halt Word} {m' : Machine}
    (h : hwrngLoop E rounds out 0 m = (r, m')) :
    (∃ acts, m'.trace = acts ++ m.trace) ∧
      ∃ segs cur, Fills E out (out + (0 : Word).toNat) m r m' segs cur := by
  rw [hwrngLoop_of_zero] at h
  obtain ⟨rfl, rfl⟩ := Prod.mk.inj h
  have hquiet : Quiet [] m m := ⟨rfl, rfl, rfl, rfl, by simp [NoStart]⟩
  exact ⟨⟨[], rfl⟩, [], none, .of_quiet le_rfl hquiet (Or.inl ⟨rfl, rfl⟩)⟩

lemma hwrngLoop_fills (hE : E.Sound) {rounds out : ℕ} {len : Word} (hrounds : len.toNat ≤ rounds)
    {m : Machine} {r : Except Halt Word} {m' : Machine}
    (h : hwrngLoop E rounds out len m = (r, m')) :
    (∃ acts, m'.trace = acts ++ m.trace) ∧
      ∃ segs cur, Fills E out (out + len.toNat) m r m' segs cur := by
  induction rounds generalizing out len m with
  | zero =>
    obtain rfl : len = 0 := BitVec.eq_of_toNat_eq (by simpa using hrounds)
    exact hwrngLoop_zero h
  | succ rounds ih =>
    by_cases hlen : len = 0
    · subst hlen
      exact hwrngLoop_zero h
    obtain ⟨res, m₁, hres, hfirst, -, ⟨-, hloop⟩ | ⟨hret, hloop⟩⟩ :=
      hwrngLoop_succ rounds out hlen m
    · -- the segment cannot be prepared
      rw [hloop] at h
      obtain ⟨rfl, rfl⟩ := Prod.mk.inj h
      exact ⟨⟨_, hfirst.trace⟩, [], none, .of_quiet (Nat.le_add_right _ _) hfirst
        (Or.inr (Or.inl rfl))⟩
    have hok := hE m.nPrep out len .fromDevice true (hres ▸ hret)
    rw [← hres] at hok
    have hpos : 1 ≤ res.size.toNat := BitVec.le_def.mp (hok.size_pos hlen)
    have hle : res.size.toNat ≤ len.toNat := BitVec.le_def.mp hok.size_le
    rw [hloop, hwrngRound, Prog.bind_apply] at h
    rcases hrun : submit E [0xB0800004, 0x82500000, 0x60340000 ||| (0x0000ffff &&& res.size),
      BitVec.ofNat 32 res.paddr] m₁ with ⟨r₁, m₂⟩
    rw [hrun] at h
    cases (submit_segment hlen hok m₁ hrun).after hfirst with
    | unlinked hquiet =>
      obtain ⟨rfl, rfl⟩ := Prod.mk.inj h
      exact ⟨⟨_, hquiet.trace⟩, [], none, .of_quiet (Nat.le_add_right _ _) hquiet
        (Or.inr (Or.inr rfl))⟩
    | @ran before after g _ _ hva hsize hstores htrace hbefore hafter hsame hnJob hgood hhang
        hfilled =>
      subst hva
      have hrest : (len - res.size).toNat = len.toNat - res.size.toNat :=
        BitVec.toNat_sub_of_le hok.size_le
      rw [← hsize] at hpos hle hrest hsame hfilled h
      have hlast : ∀ r, (r = .ok caamFailure ∨ r = .error .abort ∨
          (r = .error .hang ∧ (E.job m.nJob).completes = false)) →
          ∃ segs cur, Fills E g.va (g.va + len.toNat) m r m₂ segs cur := fun r hr =>
        ⟨[], some g, .of_last rfl hpos (by omega) hstores htrace hbefore hafter hsame hr⟩
      rcases r₁ with (_ | _) | (_ | _)
      · obtain ⟨rfl, rfl⟩ := Prod.mk.inj h
        exact ⟨⟨_, htrace⟩, hlast _ (Or.inr (Or.inl rfl))⟩
      · obtain ⟨rfl, rfl⟩ := Prod.mk.inj h
        exact ⟨⟨_, htrace⟩, hlast _ (Or.inr (Or.inr ⟨rfl, hhang rfl⟩))⟩
      · obtain ⟨rfl, rfl⟩ := Prod.mk.inj h
        exact ⟨⟨_, htrace⟩, hlast _ (Or.inl rfl)⟩
      · -- the segment is filled, and the loop goes on behind it
        have hstop : g.va + g.size.toNat + (len - g.size).toNat = g.va + len.toNat := by omega
        let m₃ : Machine := { m₂ with trace := g.finish :: m₂.trace }
        have h : hwrngLoop E rounds (g.va + g.size.toNat) (len - g.size) m₃ = (r, m') := h
        obtain ⟨⟨acts, hacts⟩, segs, cur, hfills⟩ := ih (by omega) h
        rw [hstop] at hfills
        have htrace₃ : m₃.trace = g.finish :: (after ++ g.start :: before) ++ m.trace :=
          congrArg (g.finish :: ·) htrace
        have hfilled₃ : Filled E g.va g.size.toNat m m₃ :=
          ⟨(hfilled rfl).bytes, (hfilled rfl).drawn, (hfilled rfl).same⟩
        refine ⟨⟨acts ++ g.finish :: (after ++ g.start :: before), ?_⟩, g :: segs, cur,
          hfills.cons rfl hpos hstores htrace₃ hbefore hafter hfilled₃ hnJob (hgood rfl) hacts⟩
        rw [hacts, htrace₃, List.append_assoc]

/-- `caam_hwrng` comes to an end unless a job does not.  It goes through its buffer in segments
one after the other, each filled with random bytes by one job and then handed back; when it
succeeds, every byte of the buffer lies in exactly one of them and the whole buffer holds what
was drawn, and when it does not, nothing behind the segment it was at has been stored. -/
theorem hwrng_fills (hE : E.Sound) (out : ℕ) (len : Word) (m : Machine) {r : Except Halt Word}
    {m' : Machine} (h : caamHwrng E out len m = (r, m')) :
    ∃ segs cur, Fills E out (out + len.toNat) m r m' segs cur ∧
      (r = .ok caamSuccess →
        (∀ a ∈ range out len.toNat,
          ∃! i : ℕ, ∃ g : Segment, segs[i]? = some g ∧ a ∈ range g.va g.size.toNat) ∧
        (Set.InjOn E.mmu (range out len.toNat) → Filled E out len.toNat m m')) := by
  obtain ⟨-, segs, cur, hfills⟩ := hwrngLoop_fills hE (Nat.le_add_right _ _) h
  refine ⟨segs, cur, hfills, ?_⟩
  rintro rfl
  refine ⟨fun a ha => ?_, fun hinj => caamHwrng_success hE hinj h⟩
  obtain ⟨upto, -, htiles, -, hdone⟩ := hfills.tiles
  obtain ⟨rfl, rfl⟩ := hdone rfl
  obtain ⟨hle, hlt⟩ := mem_range.mp ha
  obtain ⟨i, ⟨seg, hseg, hmem⟩, hunique⟩ := htiles.existsUnique hle hlt
  rw [Option.toList_none, List.append_nil, List.getElem?_map, Option.map_eq_some_iff] at hseg
  obtain ⟨g, hg, rfl⟩ := hseg
  refine ⟨i, ⟨g, hg, hmem⟩, ?_⟩
  rintro j ⟨g', hg', hmem'⟩
  refine hunique j ⟨g'.range, ?_, hmem'⟩
  rw [Option.toList_none, List.append_nil, List.getElem?_map, hg']
  rfl

/-- 5000 bytes are filled in two segments, with the first 5000 bytes of the generator. -/
theorem hwrng_fills_page : ∃ segs m', caamHwrng Demo.platform 0x7000 5000 Demo.machine =
      (.ok caamSuccess, m') ∧
    Fills Demo.platform 0x7000 (0x7000 + 5000) Demo.machine (.ok caamSuccess) m' segs none ∧
    segs.length = 2 ∧ Demo.platform.bytes m'.mem 0x7000 5000 = Demo.core.draw 0 5000 := by
  have hrun : caamHwrng Demo.platform 0x7000 5000 Demo.machine =
      (.ok caamSuccess, Demo.after (caamHwrng Demo.platform 0x7000 5000 Demo.machine)) :=
    Demo.eq_after (by decide +kernel)
  obtain ⟨segs, cur, hfills, hsuccess⟩ := hwrng_fills Demo.sound_platform 0x7000 5000 _ hrun
  obtain ⟨_, -, -, -, hdone⟩ := hfills.tiles
  obtain ⟨rfl, -⟩ := hdone rfl
  obtain ⟨-, hfilled⟩ := hsuccess rfl
  have hjobs : ((Demo.machine.actsTo (Demo.after (caamHwrng Demo.platform 0x7000 5000
      Demo.machine))).reverse.filter Act.isStart).length = 2 := by decide +kernel
  have hstarts := congrArg List.length hfills.starts
  rw [hjobs, List.length_map, Option.toList_none, List.append_nil] at hstarts
  exact ⟨segs, _, hrun, hfills, hstarts.symm, (hfilled Function.injective_id.injOn).bytes⟩

end TrustyLkNxp.Caam
