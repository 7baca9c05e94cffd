import TrustyLkNxp.Caam.Clock

/-!
# What the engine sees of the job rings

The CPU writes the job and the job rings, and `prepare_dma` makes what it was given visible to
the engine.  Of `g_rings` only as many bytes are prepared as a pointer has, so that what the CPU
has written to the output ring stays pending at every start of the engine.
-/

namespace TrustyLkNxp.Caam

open Memory

variable {E : Platform}

/-! ## Pending writes -/

/-- The bytes that the CPU has written and that were in no range passed to `prepare_dma` since.
The latest action comes first. -/
def pending : List Act → Set ℕ
  | [] => ∅
  | .write va len :: acts => range va len ∪ pending acts
  | .prepare va len _ _ _ :: acts => pending acts \ range va len.toNat
  | .finish _ _ _ :: acts => pending acts
  | .writel _ _ :: acts => pending acts
  | .polled _ :: acts => pending acts
  | .start _ _ :: acts => pending acts

/-- What the engine works on when it is started: the rings, of one and of two words, and the words
of the job. -/
def watched (E : Platform) (used : Word) : Set ℕ :=
  range E.gRings 12 ∪ range E.gJobDsc (4 * used.toNat)

/-- No write to it is pending. -/
def Visible (E : Platform) (used : Word) (before : List Act) : Prop :=
  Disjoint (watched E used) (pending before)

/-- Not everything is visible: of a job that fits into `g_job` it is the two words of the output
ring that are not. -/
def MissesOutput (E : Platform) (used : Word) (before : List Act) : Prop :=
  ¬ Visible E used before ∧
    (used.toNat ≤ 64 → watched E used ∩ pending before = range (E.gRings + 4) 8)

lemma output_subset_watched (E : Platform) (used : Word) :
    range (E.gRings + 4) 8 ⊆ watched E used :=
  (range_subset (by omega) (by omega)).trans Set.subset_union_left

section

variable (E : Platform) (words : List Word) (val : Word) (res₁ res₂ : Prepared) (acts : List Act)

/-- What is pending when a job is started. -/
lemma pending_submitActs :
    pending (submitActs E words val res₁ res₂ ++ acts) =
      (range E.gRings 12 ∪ (range E.gJobDsc (4 * words.length) ∪ pending acts) \
        range E.gJobDsc (BitVec.ofNat 32 words.length * 4).toNat) \ range E.gRings 4 := rfl

/-- The output ring was written, and has not been prepared since. -/
lemma output_pending :
    range (E.gRings + 4) 8 ⊆ pending (submitActs E words val res₁ res₂ ++ acts) := by
  rw [pending_submitActs]
  intro b hb
  have hb := mem_range.mp hb
  refine ⟨Or.inl (mem_range.mpr ⟨by omega, by omega⟩), fun hinput => ?_⟩
  have hinput := mem_range.mp hinput
  omega

/-- The input ring and the words of the job were prepared after they had been written. -/
lemma watched_inter_pending (hused : (BitVec.ofNat 32 words.length).toNat ≤ 64) :
    watched E (BitVec.ofNat 32 words.length) ∩ pending (submitActs E words val res₁ res₂ ++ acts) ⊆
      range (E.gRings + 4) 8 := by
  rw [pending_submitActs]
  generalize BitVec.ofNat 32 words.length = used at hused ⊢
  have hlen : (used * 4).toNat = 4 * used.toNat := by
    have hfour : (4 : Word).toNat = 4 := rfl
    rw [BitVec.toNat_mul, hfour]
    omega
  rw [hlen]
  rintro b ⟨hwatched, hpending, hinput⟩
  have hring : b ∈ range E.gRings 12 := by
    rcases hwatched with hring | hjob
    · exact hring
    · exact hpending.resolve_right fun hold => hold.2 hjob
  have hring := mem_range.mp hring
  have hinput : ¬ (E.gRings ≤ b ∧ b < E.gRings + 4) := fun h => hinput (mem_range.mpr h)
  exact mem_range.mpr ⟨by omega, by omega⟩

lemma missesOutput_submitActs :
    MissesOutput E (BitVec.ofNat 32 words.length) (submitActs E words val res₁ res₂ ++ acts) := by
  have hpending := output_pending E words val res₁ res₂ acts
  have hwatched := output_subset_watched E (BitVec.ofNat 32 words.length)
  constructor
  · intro hvisible
    have hfirst : E.gRings + 4 ∈ range (E.gRings + 4) 8 := mem_range.mpr ⟨le_rfl, by omega⟩
    exact Set.disjoint_left.mp hvisible (hwatched hfirst) (hpending hfirst)
  · intro hused
    exact (watched_inter_pending E words val res₁ res₂ acts hused).antisymm
      (Set.subset_inter hwatched hpending)

end

/-! ## Every start of a run -/

/-- Whenever the engine was started between `m` and `m'`, `Q` held of the number of words in the
job and of everything the driver had done before. -/
def AtStarts (Q : Word → List Act → Prop) (m m' : Machine) : Prop :=
  m.trace <:+ m'.trace ∧ ∀ dsc used before, .start dsc used :: before <:+ m'.trace →
    m.trace <:+ before → Q used before

namespace AtStarts

variable {Q : Word → List Act → Prop}

instance : Std.Refl (AtStarts Q) where
  refl m := by
    refine ⟨List.suffix_rfl, fun dsc used before hstart hbefore => ?_⟩
    have hlen := (hstart.trans hbefore).length_le
    exact absurd hlen (by simp)

instance : IsTrans Machine (AtStarts Q) where
  trans m m' m'' := by
    rintro ⟨hsuffix, hstarts⟩ ⟨hsuffix', hstarts'⟩
    refine ⟨hsuffix.trans hsuffix', fun dsc used before hstart hbefore => ?_⟩
    -- the start is older than `m'`, or it is not
    rcases List.suffix_or_suffix_of_suffix hstart hsuffix' with hold | hnew
    · exact hstarts dsc used before hold hbefore
    · rcases List.suffix_cons_iff.mp hnew with heq | hnew
      · exact hstarts dsc used before (heq ▸ List.suffix_rfl) hbefore
      · exact hstarts' dsc used before hstart hnew

lemma of_quiet {acts : List Act} {m m' : Machine} (h : Quiet acts m m') : AtStarts Q m m' := by
  have hsuffix : m.trace <:+ m'.trace := ⟨acts, h.trace.symm⟩
  refine ⟨hsuffix, fun dsc used before hstart hbefore => ?_⟩
  obtain ⟨after, hafter⟩ := hstart
  obtain ⟨between, rfl⟩ := hbefore
  have htrace : (after ++ .start dsc used :: between) ++ m.trace = acts ++ m.trace := by
    rw [← h.trace, ← hafter, List.append_assoc, List.cons_append]
  have hacts := List.append_cancel_right htrace
  refine absurd ?_ (h.noStart dsc used)
  rw [← hacts]
  exact List.mem_append_right _ List.mem_cons_self

lemma of_fired {m : Machine} (hQ : Q m.dscUsed m.trace) : AtStarts Q m (fired E m) := by
  rw [AtStarts, fired_trace]
  refine ⟨List.suffix_cons _ _, fun dsc used before hstart hbefore => ?_⟩
  rcases List.suffix_cons_iff.mp hstart with heq | hold
  · obtain ⟨hact, rfl⟩ := List.cons.inj heq
    obtain ⟨-, rfl⟩ := Act.start.inj hact
    exact hQ
  · have hlen := (hold.trans hbefore).length_le
    exact absurd hlen (by simp)

/-- What holds of the actions of a job holds when it is started. -/
lemma of_submit {words : List Word}
    (hQ : ∀ val res₁ res₂ acts, Q (BitVec.ofNat 32 words.length)
      (submitActs E words val res₁ res₂ ++ acts)) :
    Prog.Relates (AtStarts Q) (submit E words) := by
  refine relates_submit (fun _ _ _ h => of_quiet h) fun m m₁ val res₁ res₂ hpre _ hused => ?_
  refine of_fired ?_
  rw [hused, hpre.trace]
  exact hQ val res₁ res₂ m.trace

end AtStarts

lemma atStarts_submit (words : List Word) :
    Prog.Relates (AtStarts (MissesOutput E)) (submit E words) :=
  .of_submit (missesOutput_submitActs E words)

lemma atStarts_runOps (ops : List Op) :
    Prog.Relates (AtStarts (MissesOutput E)) (runOps E ops) :=
  relates_runOps (.of_quiet fun _ _ _ h => .of_quiet h) atStarts_submit ops

/-- At no start of the engine, in no run and with no job, is everything visible that it works on:
the output ring never is. -/
theorem output_ring_never_visible (E : Platform) (m : Machine) :
    (∀ ops, AtStarts (MissesOutput E) m (runOps E ops m).2) ∧
      ∀ words, AtStarts (MissesOutput E) m (submit E words m).2 :=
  ⟨fun ops => atStarts_runOps ops m, fun words => atStarts_submit words m⟩

/-- The driver is opened and generates a root key, and the output ring is not visible when that
job is started. -/
theorem not_visible_openAndGen :
    ¬ AtStarts (Visible Demo.imx6) Demo.machine
      (runOps Demo.imx6 Demo.openAndGen Demo.machine).2 := by
  rintro ⟨-, hvisible⟩
  have hstarts := Demo.openAndGen_starts Demo.machine
  rw [Machine.actsTo_eq (List.append_nil _).symm] at hstarts
  simp only [NoStart, not_forall, not_not] at hstarts
  obtain ⟨dsc, used, hstart⟩ := hstarts
  obtain ⟨after, before, htrace⟩ := List.append_of_mem hstart
  have hsuffix : .start dsc used :: before <:+
      (runOps Demo.imx6 Demo.openAndGen Demo.machine).2.trace := ⟨after, htrace.symm⟩
  have hmisses := atStarts_runOps (E := Demo.imx6) Demo.openAndGen Demo.machine
  exact (hmisses.2 dsc used before hsuffix List.nil_suffix).1
    (hvisible dsc used before hsuffix List.nil_suffix)

end TrustyLkNxp.Caam
