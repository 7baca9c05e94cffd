import TrustyLkNxp.Caam.Steps

/-!
# What the engine is handed

A descriptor hands ranges of memory to the engine.  They should be ranges that the same call
has prepared for the engine, in the right direction.
-/

namespace TrustyLkNxp.Caam

open Memory

variable {E : Platform}

/-! ## Containment -/

/-- An action before covers the grant. -/
def CoveredBy (acts : List Act) (g : Grant) : Prop :=
  ∃ a ∈ acts, ∃ p, a.prepared = some p ∧ p.Covers g

/-- Whatever a descriptor hands to the engine was prepared before the engine was started on
it. -/
def Contained (acts : List Act) : Prop :=
  ∀ dsc used earlier, .start dsc used :: earlier <:+ acts →
    ∀ g ∈ grants dsc, CoveredBy earlier g

lemma CoveredBy.append_left {acts : List Act} {g : Grant} (h : CoveredBy acts g)
    (acts' : List Act) : CoveredBy (acts' ++ acts) g := by
  obtain ⟨a, ha, hp⟩ := h
  exact ⟨a, List.mem_append_right _ ha, hp⟩

lemma contained_of_noStart {acts : List Act} (h : NoStart acts) : Contained acts := by
  intro dsc used earlier hsuffix
  exact absurd (hsuffix.subset List.mem_cons_self) (h dsc used)

lemma contained_cons {a : Act} {acts : List Act} : Contained (a :: acts) ↔
    (∀ dsc used, a = .start dsc used → ∀ g ∈ grants dsc, CoveredBy acts g) ∧ Contained acts := by
  constructor
  · intro h
    refine ⟨?_, fun dsc used earlier hs => h dsc used earlier (hs.trans (List.suffix_cons a acts))⟩
    rintro dsc used rfl
    exact h dsc used acts (List.suffix_refl _)
  · rintro ⟨hnow, hbefore⟩ dsc used earlier hs
    rcases List.suffix_cons_iff.mp hs with heq | hs
    · obtain ⟨rfl, rfl⟩ := List.cons.inj heq
      exact hnow dsc used rfl
    · exact hbefore dsc used earlier hs

/-- Starting the engine is the only thing that counts. -/
lemma contained_append_iff {acts post : List Act} (hpost : NoStart post) :
    Contained (post ++ acts) ↔ Contained acts := by
  induction post with
  | nil => rfl
  | cons a post ih =>
    have hrest : NoStart post := fun dsc used hmem => hpost dsc used (List.mem_cons_of_mem _ hmem)
    have hhead : ∀ dsc used, a = .start dsc used →
        ∀ g ∈ grants dsc, CoveredBy (post ++ acts) g := by
      rintro dsc used rfl
      exact absurd List.mem_cons_self (hpost dsc used)
    rw [List.cons_append, contained_cons, ih hrest]
    exact and_iff_right hhead

/-- What was done before only helps. -/
lemma Contained.append {acts acts' : List Act} (h' : Contained acts') (h : Contained acts) :
    Contained (acts' ++ acts) := by
  induction acts' with
  | nil => exact h
  | cons a acts' ih =>
    obtain ⟨hnow, hbefore⟩ := contained_cons.mp h'
    refine contained_cons.mpr ⟨fun dsc used ha g hg => ?_, ih hbefore⟩
    obtain ⟨b, hb, hp⟩ := hnow dsc used ha g hg
    exact ⟨b, List.mem_append_left _ hb, hp⟩

/-! ## Prepared buffers -/

/-- A range in a prepared one, at the truncated address the descriptor carries. -/
lemma covers_prepared {dir : Dir} {res : Prepared} (hfits : res.paddr + res.size.toNat ≤ 2 ^ 32)
    {len : ℕ} (hlen : len ≤ res.size.toNat) :
    Grant.Covers ⟨dir, res.paddr, res.size.toNat⟩
      ⟨dir, (BitVec.ofNat 32 res.paddr).toNat, len⟩ := by
  refine ⟨rfl, ?_⟩
  rcases Nat.eq_zero_or_pos len with rfl | hpos
  · simp [Grant.range, range]
  · have haddr : (BitVec.ofNat 32 res.paddr).toNat = res.paddr :=
      Nat.mod_eq_of_lt (by omega)
    simp only [Grant.range, haddr]
    exact range_subset le_rfl (by omega)

lemma PreparedAll.covered (hE : E.Sound) {bufs : List Buf} {acts : List Act} {pas : List Word}
    (h : PreparedAll E bufs acts pas) {i : ℕ} {b : Buf} (hb : bufs[i]? = some b) {len : ℕ}
    (hlen : len ≤ b.len.toNat) : CoveredBy acts ⟨b.dir, (pas.getD i 0).toNat, len⟩ := by
  induction h generalizing i with
  | nil => simp at hb
  | @cons c bs acts pas n hret _ ih =>
    cases i with
    | zero =>
      obtain rfl : c = b := by simpa using hb
      have hok := hE n c.va c.len c.dir false hret
      refine ⟨_, List.mem_append_right _ (List.mem_singleton_self _), _, if_pos hret, ?_⟩
      exact covers_prepared hok.fits (by rw [hok.size_eq rfl]; exact hlen)
    | succ i =>
      obtain ⟨a, ha, hp⟩ := ih (by simpa using hb)
      exact ⟨a, List.mem_append_left _ ha, by simpa using hp⟩

/-- What `submit` does covers nothing that the engine may write to. -/
lemma submitActs_prepared {words : List Word} {val : Word} {res₁ res₂ : Prepared} {a : Act}
    (ha : a ∈ submitActs E words val res₁ res₂) {p : Grant} (hp : a.prepared = some p) :
    p.dir = .toDevice := by
  simp only [submitActs, linkActs, List.cons_append, List.nil_append, List.mem_cons,
    List.not_mem_nil, or_false] at ha
  rcases ha with rfl | rfl | rfl | rfl | rfl | rfl
  · simp [Act.prepared] at hp
  · simp [Act.prepared] at hp
  · simp only [Act.prepared] at hp
    split at hp
    · rw [← Option.some.inj hp]
    · exact absurd hp (by simp)
  · simp [Act.prepared] at hp
  · simp only [Act.prepared] at hp
    split at hp
    · rw [← Option.some.inj hp]
    · exact absurd hp (by simp)
  · simp [Act.prepared] at hp

/-- A call that prepared buffers prepared just these. -/
lemma PreparedAll.buf (hE : E.Sound) {bufs : List Buf} {acts : List Act} {pas : List Word}
    (h : PreparedAll E bufs acts pas) {a : Act} (ha : a ∈ acts) {p : Grant}
    (hp : a.prepared = some p) : ∃ b ∈ bufs, p.dir = b.dir ∧ p.len = b.len.toNat := by
  induction h with
  | nil => simp at ha
  | @cons b bs acts pas n hret _ ih =>
    rcases List.mem_append.mp ha with ha | ha
    · obtain ⟨b', hb', heq⟩ := ih ha
      exact ⟨b', List.mem_cons_of_mem _ hb', heq⟩
    · rw [List.mem_singleton] at ha
      rw [ha] at hp
      obtain rfl := Option.some.inj ((if_pos hret).symm.trans hp)
      have hok := hE n b.va b.len b.dir false hret
      exact ⟨b, List.mem_cons_self, rfl, by rw [hok.size_eq rfl]⟩

/-! ## Calls -/

/-- From `m` to `m'` the engine was only handed what had been prepared. -/
def StaysContained (m m' : Machine) : Prop :=
  ∃ acts, m'.trace = acts ++ m.trace ∧ Contained acts

namespace StaysContained

instance : Std.Refl StaysContained where
  refl _ := ⟨[], rfl, contained_of_noStart (by simp [NoStart])⟩

instance : IsTrans Machine StaysContained where
  trans m m' m'' := by
    rintro ⟨acts, htrace, hacts⟩ ⟨acts', htrace', hacts'⟩
    exact ⟨acts' ++ acts, by rw [htrace', htrace, List.append_assoc], hacts'.append hacts⟩

lemma of_quiet {acts : List Act} {m m' : Machine} (h : Quiet acts m m') : StaysContained m m' :=
  ⟨acts, h.trace, contained_of_noStart h.noStart⟩

lemma contained {m m' : Machine} (h : StaysContained m m') : Contained (m.actsTo m') := by
  obtain ⟨acts, htrace, hacts⟩ := h
  rwa [Machine.actsTo_eq htrace]

/-- A job is contained when what its descriptor hands over was prepared before. -/
lemma of_submitted {words : List Word} {acts : List Act} {m m' m'' : Machine}
    {r : Except Halt Bool} (hquiet : Quiet acts m m') (h : Submitted E words m' r m'')
    (hgrants : ∀ rest, ∀ g ∈ grants (words ++ rest), CoveredBy acts g) : StaysContained m m'' := by
  cases h with
  | unlinked hunlinked => exact of_quiet (hquiet.trans hunlinked)
  | @ran val res₁ res₂ post _ m₁ _ hpre hret hdsc hpost =>
    refine ⟨_, (hquiet.trans hpre).trace_fired hpost,
      (contained_append_iff hpost.noStart).mpr (contained_cons.mpr ⟨?_, ?_⟩)⟩
    · rintro _ _ ⟨rfl, rfl⟩ g hg
      rw [hdsc] at hg
      exact (hgrants _ g hg).append_left _
    · exact contained_of_noStart (hquiet.trans hpre).noStart

end StaysContained

/-! ## Operations on whole buffers -/

section

variable {bufs : List Buf} {dsc : (ℕ → Word) → List Word} {m m' : Machine} {r : Except Halt Word}

lemma DataRun.contained (hE : E.Sound) (h : DataRun E bufs dsc m r m')
    (hgrants : ∀ pa rest, ∀ g ∈ grants (dsc pa ++ rest), ∃ (i : ℕ) (b : Buf), bufs[i]? = some b ∧
      g.dir = b.dir ∧ g.addr = (pa i).toNat ∧ g.len ≤ b.len.toNat) :
    StaysContained m m' := by
  cases h with
  | unprepared hquiet => exact .of_quiet hquiet
  | @ran acts post pas val res₁ res₂ _ m₁ _ hprep hpre hret hdsc hpost =>
    refine ⟨_, hpre.trace_fired hpost, (contained_append_iff hpost.noStart).mpr
      (contained_cons.mpr ⟨?_, contained_of_noStart hpre.noStart⟩)⟩
    rintro _ _ ⟨rfl, rfl⟩ g hg
    rw [hdsc] at hg
    obtain ⟨i, b, hb, hdir, haddr, hlen⟩ := hgrants _ _ g hg
    have hcov := hprep.covered hE hb hlen
    rw [← hdir, ← haddr] at hcov
    exact hcov.append_left _

/-- The engine is handed more bytes than any buffer has that was prepared for its output. -/
lemma DataRun.not_contained (hE : E.Sound) (h : DataRun E bufs dsc m r m')
    (hsucc : ∀ a ∈ m.actsTo m', ¬ a.Failed)
    (hgrants : ∀ pa rest, ∃ g ∈ grants (dsc pa ++ rest), g.dir = .fromDevice ∧
      ∀ b ∈ bufs, b.dir = .fromDevice → b.len.toNat < g.len) :
    ¬ Contained (m.actsTo m') := by
  cases h with
  | unprepared hquiet hfailed =>
    rw [Machine.actsTo_eq hquiet.trace] at hsucc
    obtain ⟨a, ha, hfail⟩ := hfailed
    exact absurd hfail (hsucc a ha)
  | @ran acts post pas val res₁ res₂ _ m₁ _ hprep hpre hret hdsc hpost =>
    rw [Machine.actsTo_eq (hpre.trace_fired hpost), contained_append_iff hpost.noStart,
      contained_cons]
    rintro ⟨hnow, -⟩
    obtain ⟨g, hg, hdir, hlen⟩ := hgrants (pas.getD · 0)
      (m.dsc.drop (dsc (pas.getD · 0)).length)
    rw [← hdsc] at hg
    obtain ⟨a, ha, p, hp, hpdir, hsub⟩ := hnow _ _ rfl g hg
    have hout : p.dir = .fromDevice := hpdir.trans hdir
    rcases List.mem_append.mp ha with ha | ha
    · rw [submitActs_prepared ha hp] at hout
      exact absurd hout (by decide)
    · obtain ⟨b, hb, hbdir, hblen⟩ := hprep.buf hE ha hp
      have hshort := hlen b hb (hbdir.symm.trans hout)
      have hends := (range_subset_iff (show 0 < g.len by omega)).mp hsub
      omega

end

/-! ## All operations -/

/-- The rounds of `caam_hwrng` are contained. -/
lemma hwrngLoop_contained (hE : E.Sound) (rounds out : ℕ) (len : Word) :
    Prog.Relates StaysContained (hwrngLoop E rounds out len) := by
  induction rounds generalizing out len with
  | zero => exact .ite (.of_pure _) (.of_stop _)
  | succ rounds ih =>
    intro m
    by_cases hlen : len = 0
    · rw [hlen, hwrngLoop_of_zero]
      exact Std.Refl.refl m
    obtain ⟨res, m₁, hres, hfirst, -, ⟨-, hloop⟩ | ⟨hret, hloop⟩⟩ :=
      hwrngLoop_succ rounds out hlen m
    · rw [hloop]
      exact .of_quiet hfirst
    rw [hloop, hwrngRound]
    have hok := hE m.nPrep out len .fromDevice true (hres ▸ hret)
    rw [← hres] at hok
    have hstay := StaysContained.of_submitted hfirst (submit_spec E _ m₁) fun rest g hg => by
      rw [grants_of_parse (parse_hwrng rest res.size (BitVec.ofNat 32 res.paddr))] at hg
      obtain rfl := List.mem_singleton.mp hg
      exact ⟨_, List.mem_singleton_self _, _, if_pos hret,
        covers_prepared hok.fits (Nat.mod_le _ _)⟩
    have hnext : ∀ ok : Bool, Prog.Relates StaysContained (if ok = true then do
        finishDma out res.size .fromDevice
        hwrngLoop E rounds (out + res.size.toNat) (len - res.size)
        else return caamFailure : Drv Word) := fun ok =>
      .ite (.bind (relates_finishDma (.of_quiet fun _ _ _ h => .of_quiet h : Beside E _) _ _ _)
        fun _ => ih _ _) (.of_pure _)
    rcases hrun : submit E [0xB0800004, 0x82500000, 0x60340000 ||| (0x0000ffff &&& res.size),
      BitVec.ofNat 32 res.paddr] m₁ with ⟨e | ok, m₂⟩
    · rw [Prog.bind_of_error hrun]
      rwa [hrun] at hstay
    · rw [Prog.bind_of_ok hrun]
      rw [hrun] at hstay
      exact IsTrans.trans _ _ _ hstay (hnext ok m₂)

/-- The arguments the assertions of an operation let through. -/
def Op.Admitted : Op → Prop
  | .caamOpen => True
  | .decapBlob _ kmodSize _ _ size => size + caamKbHeaderLen < 0xFFFF ∧ kmodSize = 16
  | .genBlob _ kmodSize _ _ size => size + caamKbHeaderLen < 0xFFFF ∧ kmodSize = 16
  | .aesOp _ keySize _ _ len _ => keySize = 16 ∧ len ≤ 0xFFFF ∧ len % 16 = 0
  | .hwrng _ _ => True
  | .hash _ _ len => len ≤ 0xFFFF
  | .genKdfv1RootKey _ size => size = 32

/-- The output buffer has room for what the descriptor lets the engine store: a hash is 20 bytes
long whatever was hashed, and the descriptor of the root key stores 48 bytes to 32. -/
def Op.RoomForOutput : Op → Prop
  | .hash _ _ len => 20 ≤ len
  | .genKdfv1RootKey _ _ => False
  | _ => True

lemma mod_le_of_masked (len : Word) : len.toNat % 65536 ≤ len.toNat := Nat.mod_le _ _

/-- An operation that leaves room for its output is contained. -/
lemma Op.staysContained (hE : E.Sound) {op : Op} (hroom : op.RoomForOutput) (m : Machine) :
    StaysContained m (op.run E m).2 := by
  cases op with
  | caamOpen =>
    have hinst : Prog.Relates StaysContained (submit E rngInstDsc) := by
      intro n
      have hstart : Quiet [] n n := ⟨rfl, rfl, rfl, rfl, by simp [NoStart]⟩
      refine .of_submitted hstart (submit_spec E rngInstDsc n) fun rest g hg => ?_
      rw [grants_of_parse (parse_rngInst rest)] at hg
      exact absurd hg (by simp [Command.grant])
    exact (Prog.Relates.bind (relates_caamOpen (.of_quiet fun _ _ _ h => .of_quiet h) hinst)
      fun _ => .of_pure _) m
  | decapBlob kmod kmodSize plain blob size =>
    refine Prog.relates_check fun _ => Prog.relates_check fun hkmod => ?_
    refine (dataOp_spec E _ _ _ _ m).contained hE fun pa rest g hg => ?_
    rw [grants_of_parse (parse_blob pa rest _ _ 0x860D0000 rfl)] at hg
    simp only [Command.grant, List.filterMap_cons, List.filterMap_nil, List.mem_cons,
      List.not_mem_nil, or_false] at hg
    rcases hg with rfl | rfl | rfl
    · exact ⟨0, _, rfl, rfl, rfl, by simp [hkmod]⟩
    · exact ⟨1, _, rfl, rfl, rfl, mod_le_of_masked _⟩
    · exact ⟨2, _, rfl, rfl, rfl, mod_le_of_masked _⟩
  | genBlob kmod kmodSize plain blob size =>
    refine Prog.relates_check fun _ => Prog.relates_check fun hkmod => ?_
    refine (dataOp_spec E _ _ _ _ m).contained hE fun pa rest g hg => ?_
    rw [grants_of_parse (parse_blob pa rest _ _ 0x870D0000 rfl)] at hg
    simp only [Command.grant, List.filterMap_cons, List.filterMap_nil, List.mem_cons,
      List.not_mem_nil, or_false] at hg
    rcases hg with rfl | rfl | rfl
    · exact ⟨0, _, rfl, rfl, rfl, by simp [hkmod]⟩
    · exact ⟨1, _, rfl, rfl, rfl, mod_le_of_masked _⟩
    · exact ⟨2, _, rfl, rfl, rfl, mod_le_of_masked _⟩
  | aesOp key keySize input output len enc =>
    refine Prog.relates_check fun hkey => Prog.relates_check fun _ => Prog.relates_check fun _ => ?_
    refine (dataOp_spec E _ _ _ _ m).contained hE fun pa rest g hg => ?_
    rw [grants_of_parse (parse_aes pa rest len enc)] at hg
    simp only [Command.grant, List.filterMap_cons, List.filterMap_nil, List.mem_cons,
      List.not_mem_nil, or_false] at hg
    rcases hg with rfl | rfl | rfl
    · exact ⟨0, _, rfl, rfl, rfl, by simp [hkey]⟩
    · exact ⟨1, _, rfl, rfl, rfl, mod_le_of_masked _⟩
    · exact ⟨2, _, rfl, rfl, rfl, mod_le_of_masked _⟩
  | hwrng out len => exact hwrngLoop_contained hE _ _ _ m
  | hash input output len =>
    refine Prog.relates_check fun _ => ?_
    refine (dataOp_spec E _ _ _ _ m).contained hE fun pa rest g hg => ?_
    rw [grants_of_parse (parse_hash pa rest len)] at hg
    simp only [Command.grant, List.filterMap_cons, List.filterMap_nil, List.mem_cons,
      List.not_mem_nil, or_false] at hg
    rcases hg with rfl | rfl
    · exact ⟨0, _, rfl, rfl, rfl, mod_le_of_masked _⟩
    · exact ⟨1, _, rfl, rfl, rfl, hroom⟩
  | genKdfv1RootKey out size => exact absurd hroom (by simp [Op.RoomForOutput])

/-- One that does not is not, when all its buffers could be prepared. -/
lemma Op.not_contained (hE : E.Sound) {op : Op} (hadm : op.Admitted) (hroom : ¬ op.RoomForOutput)
    {m : Machine} (hsucc : ∀ a ∈ m.actsTo (op.run E m).2, ¬ a.Failed) :
    ¬ Contained (m.actsTo (op.run E m).2) := by
  cases op with
  | hash input output len =>
    have hshort : len.toNat < 20 := by
      simpa [Op.RoomForOutput, BitVec.le_def] using hroom
    have hrun : (Op.hash input output len).run E m = _ := Prog.check_bind_of_pos hadm
    rw [hrun] at hsucc ⊢
    refine (dataOp_spec E _ _ _ _ m).not_contained hE hsucc fun pa rest => ?_
    refine ⟨⟨.fromDevice, (pa 1).toNat, 20⟩, ?_, rfl, ?_⟩
    · rw [grants_of_parse (parse_hash pa rest len)]
      simp [Command.grant]
    · intro b hb hdir
      simp only [List.mem_cons, List.not_mem_nil, or_false] at hb
      rcases hb with rfl | rfl
      · exact absurd hdir (by simp)
      · exact hshort
  | genKdfv1RootKey out size =>
    have hrun : (Op.genKdfv1RootKey out size).run E m = _ := Prog.check_bind_of_pos hadm
    rw [hrun] at hsucc ⊢
    refine (dataOp_spec E _ _ _ _ m).not_contained hE hsucc fun pa rest => ?_
    refine ⟨⟨.fromDevice, (pa 0).toNat, 48⟩, ?_, rfl, ?_⟩
    · rw [grants_of_parse (parse_kdfv1 pa rest)]
      simp [Command.grant]
    · intro b hb _
      obtain rfl := List.mem_singleton.mp hb
      have hsize : size = 32 := hadm
      simp [hsize]
  | _ => exact absurd trivial hroom

/-- When all its buffers could be prepared, a call hands the engine only what it prepared, in
the right direction, if and only if it is not `caam_gen_kdfv1_root_key`, and not `caam_hash` of
fewer than 20 bytes. -/
theorem contained_iff (hE : E.Sound) {op : Op} (hadm : op.Admitted) {m : Machine}
    (hsucc : ∀ a ∈ m.actsTo (op.run E m).2, ¬ a.Failed) :
    Contained (m.actsTo (op.run E m).2) ↔ op.RoomForOutput := by
  constructor
  · intro h
    by_contra hroom
    exact Op.not_contained hE hadm hroom hsucc h
  · intro hroom
    exact (Op.staysContained hE hroom m).contained

theorem contained_iff_hash :
    Contained (Demo.machine.actsTo ((Op.hash 0x3000 0x4000 32).run Demo.platform Demo.machine).2) ↔
      (Op.hash 0x3000 0x4000 32).RoomForOutput :=
  contained_iff Demo.sound_platform (by simp [Op.Admitted]) (by decide +kernel)

/-- The root key is 32 bytes long and so is the buffer that is prepared for it; the engine may
write 48 bytes to it. -/
theorem not_contained_of_rootKey :
    (Op.genKdfv1RootKey 0x3000 32).Admitted ∧
      (∀ a ∈ Demo.machine.actsTo ((Op.genKdfv1RootKey 0x3000 32).run Demo.platform Demo.machine).2,
        ¬ a.Failed) ∧
      ¬ Contained
        (Demo.machine.actsTo ((Op.genKdfv1RootKey 0x3000 32).run Demo.platform Demo.machine).2) := by
  have hsucc : ∀ a ∈ Demo.machine.actsTo
      ((Op.genKdfv1RootKey 0x3000 32).run Demo.platform Demo.machine).2, ¬ a.Failed := by
    decide +kernel
  have hadm : (Op.genKdfv1RootKey 0x3000 32).Admitted := rfl
  exact ⟨hadm, hsucc, Op.not_contained Demo.sound_platform hadm id hsucc⟩

end TrustyLkNxp.Caam
