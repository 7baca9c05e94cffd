import Mathlib.Tactic

/-!
# Buffers of a fixed size

A static buffer is written from its start, wiped, or changed at one index, and each of these
is defined only while it stays inside the buffer: `none` is an access out of bounds.
-/

namespace Buffer

variable {α : Type*}

/-- Overwrite the start of `buf` with `data`. -/
def put (buf data : List α) : Option (List α) :=
  if data.length ≤ buf.length then some (data ++ buf.drop data.length) else none

/-- `memset(buf, a, n)`. -/
def fill (buf : List α) (a : α) (n : ℕ) : Option (List α) := put buf (List.replicate n a)

/-- `buf[i] = a`. -/
def setAt (buf : List α) (i : ℕ) (a : α) : Option (List α) :=
  if i < buf.length then some (buf.set i a) else none

/-- The C string at the start of a byte buffer. -/
def cstr (buf : List UInt8) : List UInt8 := buf.takeWhile (· ≠ 0)

/-- The bytes of a string literal, without a terminator. -/
def ascii (s : String) : List UInt8 := s.toList.map fun c => c.toNat.toUInt8

variable {buf data buf' : List α} {a : α} {n i : ℕ}

lemma put_eq_some (h : data.length ≤ buf.length) :
    put buf data = some (data ++ buf.drop data.length) := if_pos h

lemma put_eq_some_iff : put buf data = some buf' ↔
    data.length ≤ buf.length ∧ buf' = data ++ buf.drop data.length := by
  rw [put]
  split
  · rename_i h
    simp [h, eq_comm]
  · rename_i h
    simp [h]

lemma length_put (h : put buf data = some buf') : buf'.length = buf.length := by
  obtain ⟨hle, rfl⟩ := put_eq_some_iff.mp h
  simp only [List.length_append, List.length_drop]
  omega

/-- What was written is what is read back. -/
lemma take_put (h : put buf data = some buf') : buf'.take data.length = data := by
  obtain ⟨-, rfl⟩ := put_eq_some_iff.mp h
  simp

lemma fill_eq_some (h : n ≤ buf.length) :
    fill buf a n = some (List.replicate n a ++ buf.drop n) := by
  rw [fill, put_eq_some (by simpa using h), List.length_replicate]

/-- What was wiped is gone. -/
lemma take_fill (h : fill buf a n = some buf') : buf'.take n = List.replicate n a := by
  have htake := take_put h
  rwa [List.length_replicate] at htake

lemma length_fill (h : fill buf a n = some buf') : buf'.length = buf.length := length_put h

/-- Wiping at least what was written leaves no trace of it. -/
lemma fill_put (h : put buf data = some buf') (hn : data.length ≤ n) :
    fill buf' a n = fill buf a n := by
  have hlen := length_put h
  obtain ⟨-, rfl⟩ := put_eq_some_iff.mp h
  have hdrop : (data ++ buf.drop data.length).drop n = buf.drop n := by
    rw [List.drop_append, List.drop_eq_nil_of_le hn, List.nil_append, List.drop_drop]
    congr 1
    omega
  rw [fill, fill, put, put, hlen, List.length_replicate, hdrop]

lemma setAt_eq_some (h : i < buf.length) : setAt buf i a = some (buf.set i a) := if_pos h

lemma length_setAt (h : setAt buf i a = some buf') : buf'.length = buf.length := by
  rw [setAt] at h
  split at h
  · rw [← Option.some.inj h, List.length_set]
  · exact absurd h (by simp)

/-- A string written at the start of a buffer and terminated right behind it is the string
that is read, whatever the buffer held before. -/
lemma cstr_put_setAt {buf data buf₁ buf₂ : List UInt8} (h₁ : put buf data = some buf₁)
    (h₂ : setAt buf₁ data.length 0 = some buf₂) : cstr buf₂ = cstr data := by
  obtain ⟨hle, rfl⟩ := put_eq_some_iff.mp h₁
  rw [setAt] at h₂
  split at h₂
  · rename_i hlt
    rw [← Option.some.inj h₂, List.set_append_right _ _ le_rfl, Nat.sub_self]
    cases hd : buf.drop data.length with
    | nil => simp [hd] at hlt
    | cons b rest =>
      simp only [List.set_cons_zero, cstr, List.takeWhile_append]
      split
      · rename_i hlen
        rw [List.takeWhile_cons_of_neg (by simp), List.append_nil]
        exact ((List.takeWhile_prefix _).eq_of_length hlen).symm
      · rfl
  · exact absurd h₂ (by simp)

end Buffer
