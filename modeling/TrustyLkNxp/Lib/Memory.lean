import Mathlib

/-!
# Byte memory

A memory gives every address a byte.  Consecutive bytes are read and written as lists.
-/

namespace Memory

/-- A byte at every address. -/
abbrev Mem := ℕ → UInt8

/-- The `n` bytes from `a` on. -/
def load (mem : Mem) (a n : ℕ) : List UInt8 := (List.range n).map fun i => mem (a + i)

/-- The memory with `bytes` written from `a` on. -/
def store (mem : Mem) (a : ℕ) (bytes : List UInt8) : Mem :=
  fun i => if a ≤ i then (bytes[i - a]?).getD (mem i) else mem i

/-- `n` addresses from `a` on. -/
def range (a n : ℕ) : Set ℕ := Set.Ico a (a + n)

variable {mem mem' : Mem} {a b n k : ℕ} {bytes : List UInt8}

@[simp] lemma mem_range {i : ℕ} : i ∈ range a n ↔ a ≤ i ∧ i < a + n := Set.mem_Ico

lemma range_subset (hle : b ≤ a) (hend : a + n ≤ b + k) : range a n ⊆ range b k :=
  Set.Ico_subset_Ico hle hend

/-- A range that is not empty lies in another one only when it ends there. -/
lemma range_subset_iff (hn : 0 < n) : range a n ⊆ range b k ↔ b ≤ a ∧ a + n ≤ b + k :=
  Set.Ico_subset_Ico_iff (by omega)

@[simp] lemma length_load : (load mem a n).length = n := by simp [load]

/-- Writing leaves every other address as it was. -/
lemma store_of_notMem {i : ℕ} (h : i ∉ range a bytes.length) : store mem a bytes i = mem i := by
  rw [mem_range] at h
  rw [store]
  split
  · rw [List.getElem?_eq_none (by omega)]
    rfl
  · rfl

/-- What was written is what is read back. -/
lemma load_store (hn : bytes.length = n) : load (store mem a bytes) a n = bytes := by
  subst hn
  refine List.ext_getElem (by simp) fun i hi _ => ?_
  rw [length_load] at hi
  simp [load, store, hi]

/-! ## Ranges in a row -/

/-- The ranges, given by address and length, lie one after the other, none of them empty, and
take up the addresses from `a` to `b`. -/
def Tiles : ℕ → List (ℕ × ℕ) → ℕ → Prop
  | a, [], b => a = b
  | a, (va, n) :: segs, b => va = a ∧ 0 < n ∧ Tiles (a + n) segs b

namespace Tiles

variable {segs : List (ℕ × ℕ)} {x : ℕ}

lemma le (h : Tiles a segs b) : a ≤ b := by
  induction segs generalizing a with
  | nil => exact h.le
  | cons seg segs ih =>
    have hrest := ih h.2.2
    omega

lemma start_le (h : Tiles a segs b) {seg : ℕ × ℕ} (hseg : seg ∈ segs) : a ≤ seg.1 := by
  induction segs generalizing a with
  | nil => exact absurd hseg List.not_mem_nil
  | cons seg' segs ih =>
    obtain ⟨hva, -, hrest⟩ := h
    rcases List.mem_cons.mp hseg with rfl | hseg
    · exact hva.ge
    · have hle := ih hrest hseg
      omega

/-- Every address between the ends lies in exactly one of the ranges. -/
lemma existsUnique (h : Tiles a segs b) (hx : a ≤ x) (hxb : x < b) :
    ∃! i : ℕ, ∃ seg : ℕ × ℕ, segs[i]? = some seg ∧ x ∈ range seg.1 seg.2 := by
  induction segs generalizing a with
  | nil =>
    obtain rfl : a = b := h
    omega
  | cons seg segs ih =>
    obtain ⟨va, n⟩ := seg
    obtain ⟨rfl, hn, hrest⟩ := h
    by_cases hfirst : x < va + n
    · refine ⟨0, ⟨(va, n), rfl, mem_range.mpr ⟨hx, hfirst⟩⟩, ?_⟩
      rintro i ⟨seg, hseg, hmem⟩
      by_contra hi
      obtain ⟨j, rfl⟩ := Nat.exists_eq_succ_of_ne_zero hi
      have hle := hrest.start_le (List.mem_of_getElem? hseg)
      have hmem := mem_range.mp hmem
      omega
    · obtain ⟨i, ⟨seg, hseg, hmem⟩, hunique⟩ := ih hrest (by omega)
      refine ⟨i + 1, ⟨seg, hseg, hmem⟩, ?_⟩
      rintro j ⟨seg', hseg', hmem'⟩
      rcases j with _ | j
      · obtain rfl : (va, n) = seg' := Option.some.inj hseg'
        exact absurd (mem_range.mp hmem').2 hfirst
      · rw [hunique j ⟨seg', hseg', hmem'⟩]

end Tiles

/-! ## Pages -/

/-- The range lies inside one page. -/
def InPage (page a n : ℕ) : Prop := ∃ i, range a n ⊆ range (i * page) page

section

variable {page : ℕ} (hpage : 0 < page)
include hpage

/-- It ends before the page in which it begins does. -/
lemma inPage_iff : InPage page a n ↔ a % page + n ≤ page := by
  have hlt := Nat.mod_lt a hpage
  constructor
  · rintro ⟨i, hi⟩
    rcases Nat.eq_zero_or_pos n with rfl | hn
    · exact hlt.le
    · obtain ⟨hstart, hend⟩ := (range_subset_iff hn).mp hi
      obtain ⟨d, rfl⟩ := Nat.exists_eq_add_of_le hstart
      have hd : d < page := by omega
      rw [Nat.mul_add_mod_of_lt hd]
      omega
  · intro hle
    have ha := Nat.div_add_mod' a page
    exact ⟨a / page, range_subset (by omega) (by omega)⟩

/-- A range that is no longer than its alignment does, when pages are aligned like that. -/
lemma inPage_of_dvd {align : ℕ} (ha : align ∣ a) (halign : align ∣ page) (hn : n ≤ align) :
    InPage page a n := by
  rw [inPage_iff hpage]
  have hlt := Nat.mod_lt a hpage
  obtain ⟨d, hd⟩ : align ∣ a % page := (Nat.dvd_mod_iff halign).mpr ha
  obtain ⟨c, rfl⟩ := halign
  rw [hd] at hlt ⊢
  have hdc : d + 1 ≤ c := Nat.lt_of_mul_lt_mul_left hlt
  calc align * d + n ≤ align * (d + 1) := by rw [Nat.mul_succ]; omega
    _ ≤ align * c := Nat.mul_le_mul_left align hdc

end

end Memory
