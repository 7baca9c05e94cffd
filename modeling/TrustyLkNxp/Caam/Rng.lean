import TrustyLkNxp.Caam.RoundTrip

/-!
# Random bytes

`caam_hwrng` fills its buffer with the next bytes of the random number generator, in however
many segments the buffer is prepared.
-/

namespace TrustyLkNxp.Caam

open Memory

variable {E : Platform}

/-! ## Bytes in a row -/

lemma Core.draw_add (core : Core) (lo a b : ℕ) :
    core.draw lo (a + b) = core.draw lo a ++ core.draw (lo + a) b := by
  simp only [Core.draw, ← List.map_append, List.range'_append_1]

lemma Platform.bytes_add (E : Platform) (mem : Mem) (va a b : ℕ) :
    E.bytes mem va (a + b) = E.bytes mem va a ++ E.bytes mem (va + a) b := by
  simp only [Platform.bytes, List.range_add, List.map_append, List.map_map]
  congr 1
  refine List.map_congr_left fun i _ => ?_
  simp [Nat.add_assoc]

/-- Two parts of a buffer do not share memory. -/
lemma Platform.cells_disjoint {va a b : ℕ} (hinj : Set.InjOn E.mmu (range va (a + b))) :
    Disjoint (E.cells (va + a) b) (E.cells va a) := by
  rw [Set.disjoint_left]
  rintro _ ⟨i, hi, rfl⟩ ⟨j, hj, heq⟩
  have hne := hinj (mem_range.mpr ⟨by omega, by omega⟩) (mem_range.mpr ⟨by omega, by omega⟩) heq
  omega

lemma Platform.cells_add_subset (E : Platform) (va : ℕ) {a b n : ℕ} (hn : n = a + b) :
    E.cells va a ⊆ E.cells va n ∧ E.cells (va + a) b ⊆ E.cells va n := by
  constructor
  · rintro _ ⟨i, hi, rfl⟩
    exact ⟨i, by omega, rfl⟩
  · rintro _ ⟨i, hi, rfl⟩
    exact ⟨a + i, by omega, by rw [Nat.add_assoc]⟩

/-! ## One segment -/

/-- The descriptor of a round of `caam_hwrng`, executed. -/
lemma exec_hwrng {core : Core} {nonce : ℕ} {mem mem' : Mem} {drawn drawn' : ℕ} {dsc : List Word}
    {ptr : Word} {n : ℕ}
    (hparse : parseDescriptor dsc = some [.operation 0x82500000, .fifoStore 0x34 ptr n])
    (h : execDescriptor core nonce dsc mem drawn = some (mem', drawn')) :
    mem' = store mem ptr.toNat (core.draw drawn n) ∧ drawn' = drawn + n := by
  have halg : algorithm 0x82500000 = some .rng := rfl
  simp only [execDescriptor, hparse, execCommands, execCommand, Option.bind_eq_bind, halg,
    Deco.start, Option.bind_some] at h
  simp only [show (0x34 : ℕ) ≠ 0x30 by decide, false_and, if_false, and_self, if_true,
    Option.bind_some, Option.pure_def, Option.some.injEq, Prod.mk.injEq] at h
  exact ⟨h.1.symm, h.2.symm⟩

/-- From `m` to `m'` the `n` bytes at `va` were filled with the next bytes of the generator, and
nothing else was changed. -/
structure Filled (E : Platform) (va n : ℕ) (m m' : Machine) : Prop where
  bytes : E.bytes m'.mem va n = E.core.draw m.drawn n
  drawn : m'.drawn = m.drawn + n
  same : SameOutside (E.cells va n) m.mem m'.mem

/-- A segment and the rest of the buffer after it make the whole buffer. -/
lemma Filled.append {va a b n : ℕ} {m m' m'' : Machine} (hn : n = a + b)
    (hinj : Set.InjOn E.mmu (range va n)) (h : Filled E va a m m')
    (h' : Filled E (va + a) b m' m'') : Filled E va n m m'' := by
  obtain ⟨hsub, hsub'⟩ := E.cells_add_subset va hn
  subst hn
  have hfirst : E.bytes m''.mem va a = E.bytes m'.mem va a :=
    E.bytes_of_sameOutside h'.same (E.cells_disjoint hinj)
  exact {
    bytes := by rw [E.bytes_add, E.core.draw_add, hfirst, h.bytes, h'.bytes, h.drawn]
    drawn := by rw [h'.drawn, h.drawn, Nat.add_assoc]
    same := fun c hc => (h'.same c fun hmem => hc (hsub' hmem)).trans
      (h.same c fun hmem => hc (hsub hmem)) }

/-! ## The loop -/

/-- A round whose job succeeds fills its segment. -/
lemma submit_hwrng {va : ℕ} {len : Word} (hlen : len ≠ 0) {res : Prepared}
    (hok : PrepareOk E va len true res) {m m' : Machine}
    (h : submit E [0xB0800004, 0x82500000, 0x60340000 ||| (0x0000ffff &&& res.size),
      BitVec.ofNat 32 res.paddr] m = (.ok true, m')) :
    Filled E va res.size.toNat m m' := by
  have hsub := submit_spec E [0xB0800004, 0x82500000, 0x60340000 ||| (0x0000ffff &&& res.size),
    BitVec.ofNat 32 res.paddr] m
  rw [h] at hsub
  cases hsub with
  | ran _ _ hdsc _ hdone =>
    have hpos : 1 ≤ res.size.toNat := BitVec.le_def.mp (hok.size_pos hlen)
    have hpage : res.size.toNat ≤ 4096 := BitVec.le_def.mp (hok.size_page rfl)
    have hparse := parse_hwrng (m.dsc.drop 4) res.size (BitVec.ofNat 32 res.paddr)
    rw [Nat.mod_eq_of_lt (show res.size.toNat < 65536 by omega)] at hparse
    have hexec := hdone rfl
    rw [hdsc] at hexec
    obtain ⟨hmem, hdrawn⟩ := exec_hwrng hparse hexec
    rw [hok.toNat_paddr hpos] at hmem
    have hlength := E.core.length_draw m.drawn res.size.toNat
    refine ⟨?_, hdrawn, ?_⟩
    · rw [hok.bytes_eq le_rfl, hmem, load_store hlength]
    · rw [hok.cells_eq le_rfl, hmem]
      exact sameOutside_store hlength.le Set.Subset.rfl

lemma Filled.of_zero (m : Machine) (va : ℕ) : Filled E va 0 m m := ⟨rfl, rfl, .refl _ _⟩

/-- Only memory and the generator count. -/
lemma Filled.congr {va n : ℕ} {m m₁ m' : Machine} (h : Filled E va n m₁ m')
    (hmem : m₁.mem = m.mem) (hdrawn : m₁.drawn = m.drawn) : Filled E va n m m' :=
  ⟨hdrawn ▸ h.bytes, hdrawn ▸ h.drawn, hmem ▸ h.same⟩

lemma hwrngLoop_success (hE : E.Sound) {rounds out : ℕ} {len : Word}
    (hinj : Set.InjOn E.mmu (range out len.toNat)) {m m' : Machine}
    (h : hwrngLoop E rounds out len m = (.ok caamSuccess, m')) : Filled E out len.toNat m m' := by
  induction rounds generalizing out len m with
  | zero =>
    by_cases hlen : len = 0
    · subst hlen
      obtain rfl : m = m' := congrArg Prod.snd h
      exact .of_zero m out
    · rw [hwrngLoop, if_neg hlen] at h
      exact absurd (congrArg Prod.fst h) (by simp)
  | succ rounds ih =>
    by_cases hlen : len = 0
    · subst hlen
      obtain rfl : m = m' := congrArg Prod.snd h
      exact .of_zero m out
    obtain ⟨res, m₁, hres, hfirst, -, ⟨-, hloop⟩ | ⟨hret, hloop⟩⟩ :=
      hwrngLoop_succ rounds out hlen m
    · rw [hloop] at h
      exact absurd (congrArg Prod.fst h) (by simp [caamFailure, caamSuccess])
    rw [hloop, hwrngRound] at h
    have hok := hE m.nPrep out len .fromDevice true (hres ▸ hret)
    rw [← hres] at hok
    obtain ⟨ok, m₂, hrun, hnext⟩ := Prog.bind_eq_ok.mp h
    cases ok with
    | false => exact absurd (congrArg Prod.fst hnext) (by simp [caamFailure, caamSuccess])
    | true =>
      have hle : res.size.toNat ≤ len.toNat := BitVec.le_def.mp hok.size_le
      have hrest : (len - res.size).toNat = len.toNat - res.size.toNat :=
        BitVec.toNat_sub_of_le hok.size_le
      have hn : len.toNat = res.size.toNat + (len - res.size).toNat := by omega
      -- the rest of the loop fills the rest of the buffer
      have hinj' : Set.InjOn E.mmu (range (out + res.size.toNat) (len - res.size).toNat) :=
        hinj.mono (range_subset (by omega) (by omega))
      let m₃ : Machine := { m₂ with trace := .finish out res.size .fromDevice :: m₂.trace }
      have hnext : hwrngLoop E rounds (out + res.size.toNat) (len - res.size) m₃ =
          (.ok caamSuccess, m') := hnext
      have hseg := (submit_hwrng hlen hok hrun).congr hfirst.mem hfirst.drawn
      exact hseg.append hn hinj ((ih hinj' hnext).congr rfl rfl)

/-- `caam_hwrng` that succeeds has filled the whole buffer. -/
lemma caamHwrng_success (hE : E.Sound) {out : ℕ} {len : Word}
    (hinj : Set.InjOn E.mmu (range out len.toNat)) {m m' : Machine}
    (h : caamHwrng E out len m = (.ok caamSuccess, m')) : Filled E out len.toNat m m' :=
  hwrngLoop_success hE hinj h

end TrustyLkNxp.Caam
