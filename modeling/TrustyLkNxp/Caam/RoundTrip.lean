import TrustyLkNxp.Caam.Steps

/-!
# Blobs are unwrapped to what was wrapped

`caam_gen_blob` leaves in the blob buffer the encapsulation of the plaintext, and
`caam_decap_blob` leaves in the plaintext buffer the decapsulation of the blob; neither
changes any other byte.  So a blob that is still there is unwrapped to the plaintext it was
made from.
-/

namespace TrustyLkNxp.Caam

open Memory

variable {E : Platform}

/-! ## Buffers of the application -/

/-- The `n` bytes the application sees from `va` on. -/
def Platform.bytes (E : Platform) (mem : Mem) (va n : ℕ) : List UInt8 :=
  (List.range n).map fun i => mem (E.mmu (va + i))

/-- The memory cells behind them. -/
def Platform.cells (E : Platform) (va n : ℕ) : Set ℕ := {a | ∃ i < n, E.mmu (va + i) = a}

lemma Platform.length_bytes (E : Platform) (mem : Mem) (va n : ℕ) :
    (E.bytes mem va n).length = n := by simp [Platform.bytes]

lemma Platform.bytes_congr {mem mem' : Mem} {va n : ℕ}
    (h : ∀ a ∈ E.cells va n, mem' a = mem a) : E.bytes mem' va n = E.bytes mem va n := by
  refine List.map_congr_left fun i hi => h _ ⟨i, List.mem_range.mp hi, rfl⟩

/-- Bytes whose cells are disjoint from what is written stay as they are. -/
lemma Platform.bytes_of_sameOutside {W : Set ℕ} {mem mem' : Mem} {va n : ℕ}
    (h : SameOutside W mem mem') (hdisj : Disjoint W (E.cells va n)) :
    E.bytes mem' va n = E.bytes mem va n :=
  Platform.bytes_congr fun a ha => h a (Set.disjoint_right.mp hdisj ha)

section

variable {va : ℕ} {len : Word} {allowPartial : Bool} {res : Prepared} {n : ℕ}

lemma PrepareOk.bytes_eq (h : PrepareOk E va len allowPartial res) (hn : n ≤ res.size.toNat)
    (mem : Mem) : E.bytes mem va n = load mem res.paddr n := by
  refine List.map_congr_left fun i hi => ?_
  rw [h.maps i (by rw [List.mem_range] at hi; omega)]

lemma PrepareOk.cells_eq (h : PrepareOk E va len allowPartial res) (hn : n ≤ res.size.toNat) :
    E.cells va n = range res.paddr n := by
  ext a
  rw [mem_range]
  constructor
  · rintro ⟨i, hi, rfl⟩
    rw [h.maps i (by omega)]
    omega
  · rintro ⟨hle, hlt⟩
    refine ⟨a - res.paddr, by omega, ?_⟩
    rw [h.maps _ (by omega)]
    omega

end

/-- Its address fits into a word of a descriptor. -/
lemma PrepareOk.toNat_paddr {va : ℕ} {len : Word} {allowPartial : Bool} {res : Prepared}
    (h : PrepareOk E va len allowPartial res) (hpos : 1 ≤ res.size.toNat) :
    (BitVec.ofNat 32 res.paddr).toNat = res.paddr := by
  have hfits := h.fits
  exact Nat.mod_eq_of_lt (by omega)

/-- A prepared buffer is where the descriptor points to. -/
lemma PreparedAll.physical (hE : E.Sound) {bufs : List Buf} {acts : List Act} {pas : List Word}
    (h : PreparedAll E bufs acts pas) (i : ℕ) {b : Buf} (hb : bufs[i]? = some b) {n : ℕ}
    (hn : b.len.toNat = n) (hpos : 0 < n) :
    (∀ mem, E.bytes mem b.va n = load mem (pas.getD i 0).toNat n) ∧
      E.cells b.va n = range (pas.getD i 0).toNat n := by
  induction h generalizing i with
  | nil => simp at hb
  | @cons c bs acts pas k hret _ ih =>
    cases i with
    | zero =>
      obtain rfl : c = b := by simpa using hb
      have hok := hE k c.va c.len c.dir false hret
      have hsize := congrArg BitVec.toNat (hok.size_eq rfl)
      rw [List.getD_cons_zero, hok.toNat_paddr (by omega)]
      exact ⟨hok.bytes_eq (by omega), hok.cells_eq (by omega)⟩
    | succ i =>
      rw [List.getD_cons_succ]
      exact ih i (by simpa using hb)

/-- An operation whose descriptor lets the engine write to one buffer only changes nothing but
that buffer, however it ends. -/
lemma dataOp_frame (hE : E.Sound) {bufs : List Buf} {dsc : (ℕ → Word) → List Word} {out : ℕ}
    {outLen : Word} {i : ℕ} {b : Buf} (hb : bufs[i]? = some b)
    (hwrite : ∀ pa rest, writable (dsc pa ++ rest) ⊆ range (pa i).toNat b.len.toNat)
    (m : Machine) :
    SameOutside (E.cells b.va b.len.toNat) m.mem (dataOp E bufs dsc out outLen m).2.mem := by
  have hrun := dataOp_spec E bufs dsc out outLen m
  cases hrun with
  | unprepared hquiet =>
    rw [hquiet.mem]
    exact .refl _ _
  | @ran acts post pas val res₁ res₂ _ m₁ _ hprep hpre hret hdsc hpost =>
    have hframe := fired_frame E m₁
    rw [hpre.mem, ← hpost.mem, hdsc] at hframe
    refine hframe.mono fun a ha => ?_
    have ha := hwrite _ _ ha
    have hpos : 0 < b.len.toNat := by
      have ha' := mem_range.mp ha
      omega
    rwa [(hprep.physical hE i hb rfl hpos).2]

/-! ## The two operations -/

section

variable {core : Core} {nonce : ℕ} {mem mem' : Mem} {drawn drawn' : ℕ} {dsc : List Word}
  {kmodPa inPa outPa : Word} {n : ℕ}

/-- The descriptor of `caam_gen_blob`, executed. -/
lemma exec_gen (hparse : parseDescriptor dsc = some [.load 0x40 kmodPa 16, .seqIn inPa n,
      .seqOut outPa (n + 48), .operation 0x870D0000])
    (h : execDescriptor core nonce dsc mem drawn = some (mem', drawn')) :
    mem' = store mem outPa.toNat
      (core.encap nonce (load mem kmodPa.toNat 16) (load mem inPa.toNat n)) := by
  have halg : algorithm 0x870D0000 = some .encapBlob := rfl
  simp only [execDescriptor, hparse, execCommands, execCommand, Option.bind_eq_bind,
    Option.bind_some, if_true, halg, Deco.output, Deco.input, Deco.start, core.encap_length,
    length_load, le_refl, Option.pure_def, Option.some.injEq, Prod.mk.injEq] at h
  exact h.1.symm

/-- The descriptor of `caam_decap_blob`, executed. -/
lemma exec_decap (hparse : parseDescriptor dsc = some [.load 0x40 kmodPa 16, .seqIn inPa (n + 48),
      .seqOut outPa n, .operation 0x860D0000])
    (h : execDescriptor core nonce dsc mem drawn = some (mem', drawn')) :
    ∃ plain, core.decap (load mem kmodPa.toNat 16) (load mem inPa.toNat (n + 48)) = some plain ∧
      plain.length ≤ n ∧ mem' = store mem outPa.toNat plain := by
  have halg : algorithm 0x860D0000 = some .decapBlob := rfl
  simp only [execDescriptor, hparse, execCommands, execCommand, Option.bind_eq_bind,
    Option.bind_some, if_true, halg, Deco.input, Deco.start] at h
  rcases hdecap : core.decap (load mem kmodPa.toNat 16) (load mem inPa.toNat (n + 48))
    with _ | plain
  · simp [hdecap] at h
  · simp only [hdecap, Option.bind_some, Deco.output] at h
    by_cases hlen : plain.length ≤ n
    · simp only [if_pos hlen, Option.bind_some, Option.pure_def, Option.some.injEq,
        Prod.mk.injEq] at h
      exact ⟨plain, rfl, hlen, h.1.symm⟩
    · simp [hlen] at h

end

/-- An operation on whole buffers that succeeds has executed its descriptor. -/
lemma dataOp_success {bufs : List Buf} {dsc : (ℕ → Word) → List Word} {out : ℕ} {outLen : Word}
    {m m' : Machine} (h : dataOp E bufs dsc out outLen m = (.ok caamSuccess, m')) :
    ∃ acts pas rest, PreparedAll E bufs acts pas ∧
      execDescriptor E.core m.nJob (dsc (pas.getD · 0) ++ rest) m.mem m.drawn =
        some (m'.mem, m'.drawn) := by
  have hrun := dataOp_spec E bufs dsc out outLen m
  rw [h] at hrun
  cases hrun with
  | unprepared _ _ hr => exact absurd rfl hr
  | ran hprep _ _ hdsc _ hdone => exact ⟨_, _, _, hprep, hdsc ▸ hdone rfl⟩

/-- The sizes of a plaintext whose blob a descriptor can describe. -/
structure BlobSize (size : Word) : Prop where
  pos : 1 ≤ size.toNat
  bound : size.toNat + 48 < 65535

lemma BlobSize.blob_eq {size : Word} (h : BlobSize size) :
    (size + caamKbHeaderLen).toNat = size.toNat + 48 := by
  have hbound := h.bound
  have hhead : caamKbHeaderLen.toNat = 48 := rfl
  rw [BitVec.toNat_add, hhead]
  omega

section

variable {kmod plain blob : ℕ} {size : Word} {m m' : Machine}

/-- `caam_gen_blob` wraps the plaintext and changes nothing but the blob buffer. -/
lemma caamGenBlob_success (hE : E.Sound) (hsize : BlobSize size)
    (h : caamGenBlob E kmod 16 plain blob size m = (.ok caamSuccess, m')) :
    (∃ nonce, E.bytes m'.mem blob (size.toNat + 48) =
      E.core.encap nonce (E.bytes m.mem kmod 16) (E.bytes m.mem plain size.toNat)) ∧
    SameOutside (E.cells blob (size.toNat + 48)) m.mem m'.mem := by
  have hbound := hsize.bound
  have hpos := hsize.pos
  obtain ⟨-, h⟩ := Prog.check_bind_eq_ok h
  obtain ⟨-, h⟩ := Prog.check_bind_eq_ok h
  obtain ⟨acts, pas, rest, hprep, hexec⟩ := dataOp_success h
  obtain ⟨hkmod, -⟩ := hprep.physical hE 0 rfl (show _ = 16 from rfl) (by decide)
  obtain ⟨hplain, -⟩ := hprep.physical hE 1 rfl rfl hsize.pos
  obtain ⟨hblob, hcells⟩ := hprep.physical hE 2 rfl hsize.blob_eq (by omega)
  have hparse := parse_blob (pas.getD · 0) rest size (size + caamKbHeaderLen) 0x870D0000 rfl
  rw [hsize.blob_eq, Nat.mod_eq_of_lt (by omega), Nat.mod_eq_of_lt (by omega)]
    at hparse
  have hmem := exec_gen hparse hexec
  rw [← hkmod, ← hplain] at hmem
  have hlen : (E.core.encap m.nJob (E.bytes m.mem kmod 16)
      (E.bytes m.mem plain size.toNat)).length = size.toNat + 48 := by
    rw [E.core.encap_length, E.length_bytes]
  refine ⟨⟨m.nJob, ?_⟩, ?_⟩
  · rw [hblob, hmem, load_store hlen]
  · rw [hcells, hmem]
    exact sameOutside_store hlen.le Set.Subset.rfl

/-- `caam_decap_blob` unwraps the blob and changes nothing but the plaintext buffer. -/
lemma caamDecapBlob_success (hE : E.Sound) (hsize : BlobSize size)
    (h : caamDecapBlob E kmod 16 plain blob size m = (.ok caamSuccess, m')) {p : List UInt8}
    (hp : E.core.decap (E.bytes m.mem kmod 16) (E.bytes m.mem blob (size.toNat + 48)) = some p)
    (hlen : p.length = size.toNat) :
    E.bytes m'.mem plain size.toNat = p ∧ SameOutside (E.cells plain size.toNat) m.mem m'.mem := by
  have hbound := hsize.bound
  have hpos := hsize.pos
  obtain ⟨-, h⟩ := Prog.check_bind_eq_ok h
  obtain ⟨-, h⟩ := Prog.check_bind_eq_ok h
  obtain ⟨acts, pas, rest, hprep, hexec⟩ := dataOp_success h
  obtain ⟨hkmod, -⟩ := hprep.physical hE 0 rfl (show _ = 16 from rfl) (by decide)
  obtain ⟨hblob, -⟩ := hprep.physical hE 1 rfl hsize.blob_eq (by omega)
  obtain ⟨hplain, hcells⟩ := hprep.physical hE 2 rfl rfl hsize.pos
  have hparse := parse_blob (pas.getD · 0) rest (size + caamKbHeaderLen) size 0x860D0000 rfl
  rw [hsize.blob_eq, Nat.mod_eq_of_lt (by omega), Nat.mod_eq_of_lt (by omega)]
    at hparse
  obtain ⟨p', hp', -, hmem⟩ := exec_decap hparse hexec
  rw [← hkmod, ← hblob, hp] at hp'
  obtain rfl := Option.some.inj hp'
  refine ⟨?_, ?_⟩
  · rw [hplain, hmem, load_store hlen]
  · rw [hcells, hmem]
    exact sameOutside_store hlen.le Set.Subset.rfl

end

/-! ## Everything else -/

/-- What the engine was allowed to write to. -/
def writtenIn (acts : List Act) : Set ℕ :=
  {a | ∃ dsc used, .start dsc used ∈ acts ∧ a ∈ writable dsc}

/-- From `m` to `m'` memory changed only where the engine was allowed to write. -/
def Framed (m m' : Machine) : Prop :=
  ∃ acts, m'.trace = acts ++ m.trace ∧ SameOutside (writtenIn acts) m.mem m'.mem

namespace Framed

instance : Std.Refl Framed where
  refl _ := ⟨[], rfl, .refl _ _⟩

instance : IsTrans Machine Framed where
  trans m m' m'' := by
    rintro ⟨acts, htrace, hsame⟩ ⟨acts', htrace', hsame'⟩
    refine ⟨acts' ++ acts, by rw [htrace', htrace, List.append_assoc], fun a ha => ?_⟩
    have hnot : a ∉ writtenIn acts := fun ⟨dsc, used, hmem, hw⟩ =>
      ha ⟨dsc, used, List.mem_append_right _ hmem, hw⟩
    have hnot' : a ∉ writtenIn acts' := fun ⟨dsc, used, hmem, hw⟩ =>
      ha ⟨dsc, used, List.mem_append_left _ hmem, hw⟩
    exact (hsame' a hnot').trans (hsame a hnot)

lemma of_quiet {acts : List Act} {m m' : Machine} (h : Quiet acts m m') : Framed m m' :=
  ⟨acts, h.trace, fun a _ => by rw [h.mem]⟩

lemma of_fired (E : Platform) (m : Machine) : Framed m (fired E m) := by
  refine ⟨[.start m.dsc m.dscUsed], fired_trace E m, fun a ha => fired_frame E m a fun hw => ?_⟩
  exact ha ⟨m.dsc, m.dscUsed, List.mem_singleton_self _, hw⟩

lemma of_submit (E : Platform) (words : List Word) : Prog.Relates Framed (submit E words) :=
  relates_submit (fun _ _ _ h => of_quiet h) fun _ m₁ _ _ _ _ _ _ => of_fired E m₁

/-- Whatever operations are run, memory changes only where their descriptors allow it. -/
lemma of_runOps (E : Platform) (ops : List Op) : Prog.Relates Framed (runOps E ops) :=
  relates_runOps (.of_quiet fun _ _ _ h => of_quiet h) (of_submit E) ops

end Framed

/-! ## The round trip -/

/-- What `caam_gen_blob` wrapped, a later `caam_decap_blob` unwraps, whatever operations run in
between that do not write to the buffers. -/
theorem blob_round_trip (hE : E.Sound) {kmod p blob q : ℕ} {size : Word}
    (hsize : BlobSize size)
    (hdisj : [E.cells kmod 16, E.cells p size.toNat, E.cells blob (size.toNat + 48),
      E.cells q size.toNat].Pairwise Disjoint)
    {m₀ m₁ m₂ m₃ : Machine} {ops : List Op}
    (hgen : caamGenBlob E kmod 16 p blob size m₀ = (.ok caamSuccess, m₁))
    (hops : runOps E ops m₁ = (.ok (), m₂))
    (hkeep : ∀ W ∈ [E.cells kmod 16, E.cells p size.toNat, E.cells blob (size.toNat + 48)],
      Disjoint (writtenIn (m₁.actsTo m₂)) W)
    (hdecap : caamDecapBlob E kmod 16 q blob size m₂ = (.ok caamSuccess, m₃)) :
    E.bytes m₃.mem q size.toNat = E.bytes m₀.mem p size.toNat ∧
      E.bytes m₃.mem p size.toNat = E.bytes m₀.mem p size.toNat := by
  simp only [List.pairwise_cons, List.mem_cons, List.not_mem_nil, or_false, forall_eq_or_imp,
    forall_eq] at hdisj hkeep
  obtain ⟨⟨hkp, hkb, hkq⟩, ⟨hpb, hpq⟩, hbq, -⟩ := hdisj
  obtain ⟨hkeepk, hkeepp, hkeepb⟩ := hkeep
  -- the blob is written
  obtain ⟨⟨nonce, hblob⟩, hsame₁⟩ := caamGenBlob_success hE hsize hgen
  -- and nothing in between touches what it depends on
  obtain ⟨acts, htrace, hsame₂⟩ := Framed.of_runOps E ops m₁
  rw [hops] at htrace hsame₂
  rw [Machine.actsTo_eq htrace] at hkeepk hkeepp hkeepb
  have hkmod₂ : E.bytes m₂.mem kmod 16 = E.bytes m₀.mem kmod 16 :=
    (E.bytes_of_sameOutside hsame₂ hkeepk).trans (E.bytes_of_sameOutside hsame₁ hkb.symm)
  have hblob₂ := (E.bytes_of_sameOutside hsame₂ hkeepb).trans hblob
  have hinverse : E.core.decap (E.bytes m₂.mem kmod 16) (E.bytes m₂.mem blob (size.toNat + 48)) =
      some (E.bytes m₀.mem p size.toNat) := by
    rw [hkmod₂, hblob₂, E.core.decap_encap]
  obtain ⟨hq, hsame₃⟩ := caamDecapBlob_success hE hsize hdecap hinverse (E.length_bytes ..)
  refine ⟨hq, ?_⟩
  calc E.bytes m₃.mem p size.toNat = E.bytes m₂.mem p size.toNat :=
        E.bytes_of_sameOutside hsame₃ hpq.symm
    _ = E.bytes m₁.mem p size.toNat := E.bytes_of_sameOutside hsame₂ hkeepp
    _ = E.bytes m₀.mem p size.toNat := E.bytes_of_sameOutside hsame₁ hpb.symm

namespace Demo

lemma cells_platform (va n : ℕ) : platform.cells va n = range va n := by
  ext a
  rw [mem_range]
  constructor
  · rintro ⟨i, hi, rfl⟩
    exact ⟨Nat.le_add_right _ _, Nat.add_lt_add_left hi va⟩
  · rintro ⟨hle, hlt⟩
    exact ⟨a - va, by omega, Nat.add_sub_cancel' hle⟩

lemma disjoint_cells {a b n : ℕ} (k : ℕ) (h : a + n ≤ b) :
    Disjoint (platform.cells a n) (platform.cells b k) := by
  rw [cells_platform, cells_platform, Set.disjoint_left]
  intro x hx hx'
  have hx := (mem_range.mp hx).2
  have hx' := (mem_range.mp hx').1
  omega

/-- Every byte of memory is the low byte of its address, and the job is not empty. -/
def used : Machine :=
  { machine with mem := fun a => UInt8.ofNat a, dsc := List.replicate 64 0x860D0000 }

/-- The machine a program leaves behind. -/
def after {α : Type} (run : Except Halt α × Machine) : Machine := run.2

lemma eq_after {α : Type} {run : Except Halt α × Machine} {r : Except Halt α} (h : run.1 = r) :
    run = (r, after run) := Prod.ext h rfl

/-- 32 bytes at `0x4000` are wrapped to `0x5000`. -/
def wrapped : Machine := after (caamGenBlob platform 0x3000 16 0x4000 0x5000 32 used)

/-- Random bytes are drawn and hashed in between. -/
def between : List Op := [.hwrng 0x7000 16, .hash 0x7000 0x7100 32]

/-- The machine they leave. -/
def later : Machine := after (runOps platform between wrapped)

/-- The blob is unwrapped to `0x6040`. -/
def unwrapped : Machine := after (caamDecapBlob platform 0x3000 16 0x6040 0x5000 32 later)

/-- What a start of the engine hands to it. -/
def handed : Act → List Grant
  | .start dsc _ => grants dsc
  | _ => []

lemma writtenIn_between : writtenIn (wrapped.actsTo later) ⊆ {a | 0x7000 ≤ a} := by
  have hgrants : ∀ act ∈ wrapped.actsTo later, ∀ g ∈ handed act,
      g.dir = .fromDevice → 0x7000 ≤ g.addr := by decide +kernel
  rintro a ⟨dsc, used, hstart, g, hg, hdir, ha⟩
  exact (hgrants _ hstart g hg hdir).trans (mem_range.mp ha).1

end Demo

/-- What was wrapped is at `0x6040`, where there was something else before, and still where it
was. -/
theorem blob_round_trip_between :
    Demo.platform.bytes Demo.used.mem 0x6040 32 ≠ Demo.platform.bytes Demo.used.mem 0x4000 32 ∧
      Demo.platform.bytes Demo.unwrapped.mem 0x6040 32 =
        Demo.platform.bytes Demo.used.mem 0x4000 32 ∧
      Demo.platform.bytes Demo.unwrapped.mem 0x4000 32 =
        Demo.platform.bytes Demo.used.mem 0x4000 32 := by
  have hgen : caamGenBlob Demo.platform 0x3000 16 0x4000 0x5000 32 Demo.used =
      (.ok caamSuccess, Demo.wrapped) := Demo.eq_after (by decide +kernel)
  have hops : runOps Demo.platform Demo.between Demo.wrapped = (.ok (), Demo.later) :=
    Demo.eq_after (by decide +kernel)
  have hdecap : caamDecapBlob Demo.platform 0x3000 16 0x6040 0x5000 32 Demo.later =
      (.ok caamSuccess, Demo.unwrapped) := Demo.eq_after (by decide +kernel)
  have hbelow : ∀ a n : ℕ, a + n ≤ 0x7000 →
      Disjoint (writtenIn (Demo.wrapped.actsTo Demo.later)) (Demo.platform.cells a n) := by
    intro a n hle
    rw [Demo.cells_platform, Set.disjoint_left]
    intro x hx hx'
    have hx : 0x7000 ≤ x := Demo.writtenIn_between hx
    have hx' := (mem_range.mp hx').2
    omega
  refine ⟨by decide +kernel,
    blob_round_trip Demo.sound_platform ⟨by decide, by decide⟩ ?_ hgen hops ?_ hdecap⟩
  · simp only [List.pairwise_cons, List.mem_cons, List.not_mem_nil, or_false, forall_eq_or_imp,
      forall_eq, false_implies, implies_true, List.Pairwise.nil, and_true]
    refine ⟨⟨?_, ?_, ?_⟩, ⟨?_, ?_⟩, ?_⟩ <;> exact Demo.disjoint_cells _ (by decide)
  · simp only [List.mem_cons, List.not_mem_nil, or_false, forall_eq_or_imp, forall_eq]
    exact ⟨hbelow _ _ (by decide), hbelow _ _ (by decide), hbelow _ _ (by decide)⟩

end TrustyLkNxp.Caam
