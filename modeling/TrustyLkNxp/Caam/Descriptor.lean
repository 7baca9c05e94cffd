import TrustyLkNxp.Basic
import TrustyLkNxp.Lib.Memory

/-!
# Job descriptors

The engine is handed a sequence of words: a header, which carries the number of words, and
commands, each with its pointer or its immediate data behind it.  This file decodes them, and
says which ranges of memory they hand to the engine.
-/

namespace TrustyLkNxp.Caam

/-- The direction of a transfer, as in `DMA_FLAG_TO_DEVICE` and `DMA_FLAG_FROM_DEVICE`. -/
inductive Dir
  | toDevice
  | fromDevice
deriving DecidableEq, Repr

/-- A range of memory and the direction in which it may be used. -/
structure Grant where
  dir : Dir
  addr : ℕ
  len : ℕ
deriving DecidableEq, Repr

/-- The addresses that may be used. -/
def Grant.range (g : Grant) : Set ℕ := Memory.range g.addr g.len

/-- A grant is covered by another one: same direction, and no byte outside. -/
def Grant.Covers (p g : Grant) : Prop := p.dir = g.dir ∧ g.range ⊆ p.range

/-- The commands the driver uses, with their operands. Lengths are in bytes. -/
inductive Command
  | key (ptr : Word) (len : ℕ)
  | load (dst : ℕ) (ptr : Word) (len : ℕ)
  | loadImm (dst : ℕ) (data : List Word)
  | fifoLoad (ptr : Word) (len : ℕ)
  | store (src : ℕ) (ptr : Word) (len : ℕ)
  | fifoStore (type : ℕ) (ptr : Word) (len : ℕ)
  | operation (w : Word)
  | jump (w : Word)
  | seqIn (ptr : Word) (len : ℕ)
  | seqOut (ptr : Word) (len : ℕ)
deriving DecidableEq, Repr

/-- What a command hands to the engine. -/
def Command.grant : Command → Option Grant
  | .key ptr len => some ⟨.toDevice, ptr.toNat, len⟩
  | .load _ ptr len => some ⟨.toDevice, ptr.toNat, len⟩
  | .loadImm _ _ => none
  | .fifoLoad ptr len => some ⟨.toDevice, ptr.toNat, len⟩
  | .store _ ptr len => some ⟨.fromDevice, ptr.toNat, len⟩
  | .fifoStore _ ptr len => some ⟨.fromDevice, ptr.toNat, len⟩
  | .operation _ => none
  | .jump _ => none
  | .seqIn ptr len => some ⟨.toDevice, ptr.toNat, len⟩
  | .seqOut ptr len => some ⟨.fromDevice, ptr.toNat, len⟩

/-! ## Decoding -/

/-- `n` bits of a word, from bit `lo` on. -/
def field (w : Word) (lo n : ℕ) : ℕ := (w.extractLsb' lo n).toNat

/-- The command in a word, with the words behind it that it does not use. Bits 31 to 27 tell
the commands apart; bit 24 (scatter/gather), bit 23 (immediate) and, where the length has 16
bits, bit 22 (extended length) change the meaning of the operand. -/
def parseCommand (w : Word) (rest : List Word) : Option (Command × List Word) :=
  match field w 27 5, field w 23 2, rest with
  | 0x00, 0, ptr :: rest => some (.key ptr (field w 0 10), rest)
  | 0x02, 0, ptr :: rest => some (.load (field w 16 7) ptr (field w 0 8), rest)
  | 0x02, 1, rest =>
    let n := (field w 0 8 + 3) / 4
    if n ≤ rest.length then some (.loadImm (field w 16 7) (rest.take n), rest.drop n) else none
  | 0x04, 0, ptr :: rest =>
    if field w 22 1 = 0 then some (.fifoLoad ptr (field w 0 16), rest) else none
  | 0x0a, 0, ptr :: rest => some (.store (field w 16 7) ptr (field w 0 8), rest)
  | 0x0c, 0, ptr :: rest =>
    if field w 22 1 = 0 then some (.fifoStore (field w 16 6) ptr (field w 0 16), rest) else none
  | 0x10, _, rest => some (.operation w, rest)
  | 0x14, _, rest => some (.jump w, rest)
  | 0x1e, 0, ptr :: rest =>
    if field w 22 1 = 0 then some (.seqIn ptr (field w 0 16), rest) else none
  | 0x1f, 0, ptr :: rest =>
    if field w 22 1 = 0 then some (.seqOut ptr (field w 0 16), rest) else none
  | _, _, _ => none

/-- A sequence of commands without anything left over; every command is at least one word. -/
def parseCommands : ℕ → List Word → Option (List Command)
  | _, [] => some []
  | 0, _ :: _ => none
  | fuel + 1, w :: rest => do
    let (c, rest) ← parseCommand w rest
    let cs ← parseCommands fuel rest
    return c :: cs

/-- A descriptor at the start of the words the engine reads: the header says how many of them
belong to it, itself included. -/
def parseDescriptor : List Word → Option (List Command)
  | [] => none
  | w :: rest =>
    let n := field w 0 7 - 1
    if field w 27 5 = 0x16 ∧ n ≤ rest.length then parseCommands n (rest.take n) else none

/-- What a descriptor hands to the engine. -/
def grants (dsc : List Word) : List Grant := ((parseDescriptor dsc).getD []).filterMap Command.grant

/-- The addresses a descriptor allows the engine to write to. -/
def writable (dsc : List Word) : Set ℕ := {a | ∃ g ∈ grants dsc, g.dir = .fromDevice ∧ a ∈ g.range}

/-! ## Command words with a masked length -/

/-- The bits above a masked length are those of the command. -/
lemma field_masked_high (hi x : Word) {lo : ℕ} (hlo : 16 ≤ lo) (n : ℕ) :
    field (hi ||| (0x0000ffff &&& x)) lo n = field hi lo n := by
  have hmask : (0x0000ffff : Word).extractLsb' lo n = 0#n := by
    apply BitVec.eq_of_toNat_eq
    have hpow : 2 ^ 16 ≤ 2 ^ lo := Nat.pow_le_pow_right (by decide) hlo
    rw [BitVec.extractLsb'_toNat, Nat.shiftRight_eq_div_pow,
      Nat.div_eq_of_lt (lt_of_lt_of_le (by decide) hpow), Nat.zero_mod]
    rfl
  rw [field, field, BitVec.extractLsb'_or, BitVec.extractLsb'_and, hmask, BitVec.zero_and,
    BitVec.or_zero]

/-- The length is taken modulo `2 ^ 16`. -/
lemma field_masked_low (hi x : Word) (hhi : hi.extractLsb' 0 16 = 0#16) :
    field (hi ||| (0x0000ffff &&& x)) 0 16 = x.toNat % 65536 := by
  have hmask : (0x0000ffff : Word).extractLsb' 0 16 = BitVec.allOnes 16 := by decide
  rw [field, BitVec.extractLsb'_or, BitVec.extractLsb'_and, hhi, hmask, BitVec.allOnes_and,
    BitVec.zero_or, BitVec.extractLsb'_toNat, Nat.shiftRight_zero]

section

variable {hi x ptr w : Word} {rest rest' words : List Word} {c : Command} {cs : List Command}
  {fuel : ℕ}

lemma parseCommand_fifoLoad (hop : field hi 27 5 = 0x04) (hmode : field hi 23 2 = 0)
    (hext : field hi 22 1 = 0) (hlow : hi.extractLsb' 0 16 = 0#16) :
    parseCommand (hi ||| (0x0000ffff &&& x)) (ptr :: rest) =
      some (.fifoLoad ptr (x.toNat % 65536), rest) := by
  simp only [parseCommand, field_masked_high hi x (show 16 ≤ 27 by decide),
    field_masked_high hi x (show 16 ≤ 23 by decide),
    field_masked_high hi x (show 16 ≤ 22 by decide), field_masked_low hi x hlow, hop, hmode, hext,
    if_true]

lemma parseCommand_fifoStore (hop : field hi 27 5 = 0x0c) (hmode : field hi 23 2 = 0)
    (hext : field hi 22 1 = 0) (hlow : hi.extractLsb' 0 16 = 0#16) :
    parseCommand (hi ||| (0x0000ffff &&& x)) (ptr :: rest) =
      some (.fifoStore (field hi 16 6) ptr (x.toNat % 65536), rest) := by
  simp only [parseCommand, field_masked_high hi x (show 16 ≤ 27 by decide),
    field_masked_high hi x (show 16 ≤ 23 by decide),
    field_masked_high hi x (show 16 ≤ 22 by decide), field_masked_high hi x le_rfl,
    field_masked_low hi x hlow, hop, hmode, hext, if_true]

lemma parseCommand_seqIn : parseCommand (0xF0000000 ||| (0x0000ffff &&& x)) (ptr :: rest) =
    some (.seqIn ptr (x.toNat % 65536), rest) := by
  have hlow : (0xF0000000 : Word).extractLsb' 0 16 = 0#16 := by decide
  simp only [parseCommand, field_masked_high _ x (show 16 ≤ 27 by decide),
    field_masked_high _ x (show 16 ≤ 23 by decide),
    field_masked_high _ x (show 16 ≤ 22 by decide), field_masked_low _ x hlow]
  rfl

lemma parseCommand_seqOut : parseCommand (0xF8000000 ||| (0x0000ffff &&& x)) (ptr :: rest) =
    some (.seqOut ptr (x.toNat % 65536), rest) := by
  have hlow : (0xF8000000 : Word).extractLsb' 0 16 = 0#16 := by decide
  simp only [parseCommand, field_masked_high _ x (show 16 ≤ 27 by decide),
    field_masked_high _ x (show 16 ≤ 23 by decide),
    field_masked_high _ x (show 16 ≤ 22 by decide), field_masked_low _ x hlow]
  rfl

lemma parseCommands_cons (hc : parseCommand w rest = some (c, rest'))
    (hcs : parseCommands fuel rest' = some cs) :
    parseCommands (fuel + 1) (w :: rest) = some (c :: cs) := by
  simp [parseCommands, hc, hcs]

lemma parseCommands_nil (fuel : ℕ) : parseCommands fuel [] = some [] := by
  cases fuel <;> rfl

/-- The words behind a descriptor are not part of it. -/
lemma parseDescriptor_append {n : ℕ} (hhead : field w 27 5 = 0x16) (hlen : field w 0 7 - 1 = n)
    (hwords : words.length = n) (hcs : parseCommands n words = some cs) (rest : List Word) :
    parseDescriptor (w :: words ++ rest) = some cs := by
  rw [List.cons_append, parseDescriptor, hlen, ← hwords, if_pos ⟨hhead, by simp⟩, List.take_left,
    hwords, hcs]

end

end TrustyLkNxp.Caam
