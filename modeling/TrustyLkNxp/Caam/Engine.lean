import TrustyLkNxp.Caam.Descriptor

/-!
# The engine

What the CAAM does with a descriptor.  It executes one command after the other; the
cryptographic functions and the random number generator are parameters.  Of the memory it
changes only what the descriptor allows it to change.
-/

namespace TrustyLkNxp.Caam

open Memory

/-- The functions the engine computes. Encapsulation is randomised: it takes a number that is
different in every job. -/
structure Core where
  encap : ℕ → List UInt8 → List UInt8 → List UInt8
  decap : List UInt8 → List UInt8 → Option (List UInt8)
  /-- The blob protocol in master key verification mode. -/
  masterKey : List UInt8 → List UInt8
  aes : Bool → List UInt8 → List UInt8 → List UInt8
  sha1 : List UInt8 → List UInt8
  /-- The bytes the random number generator yields, one after the other. -/
  random : ℕ → UInt8
  decap_encap : ∀ nonce kmod plain, decap kmod (encap nonce kmod plain) = some plain
  encap_length : ∀ nonce kmod plain, (encap nonce kmod plain).length = plain.length + 48
  aes_length : ∀ enc key data, (aes enc key data).length = data.length
  aes_inv : ∀ key data, data.length % 16 = 0 → aes false key (aes true key data) = data

/-- Bytes `lo` to `lo + n - 1` of what the random number generator yields. -/
def Core.draw (core : Core) (lo n : ℕ) : List UInt8 := (List.range' lo n).map core.random

@[simp] lemma Core.length_draw (core : Core) (lo n : ℕ) : (core.draw lo n).length = n := by
  simp [Core.draw]

/-- What an operation command asks for. -/
inductive Algorithm
  | encapBlob
  | decapBlob
  | masterKey
  | aes (enc : Bool)
  | sha1
  | rng
  | rngInst
deriving DecidableEq, Repr

/-- Bits 26 to 24 of an operation are its type: 7 and 6 for the two directions of a protocol, 2
and 4 for the algorithms of classes 1 and 2. Bits 23 to 16 name the protocol or the algorithm,
the rest are its options. -/
def algorithm (w : Word) : Option Algorithm :=
  match field w 24 3, field w 16 8, field w 0 16 with
  | 7, 0x0d, 0x0000 => some .encapBlob
  | 7, 0x0d, 0x0002 => some .masterKey
  | 6, 0x0d, 0x0000 => some .decapBlob
  | 2, 0x10, 0x020d => some (.aes true)
  | 2, 0x10, 0x020c => some (.aes false)
  | 2, 0x50, 0x0000 => some .rng
  | 2, 0x50, 0x0404 => some .rngInst
  | 2, 0x50, 0x1000 => some .rngInst
  | 4, 0x41, 0x000d => some .sha1
  | _, _, _ => none

/-- The state of the engine while it executes a descriptor. -/
structure Deco where
  mem : Mem
  /-- How many bytes the random number generator has yielded. -/
  drawn : ℕ
  /-- The key registers of the two classes. -/
  key1 : List UInt8
  key2 : List UInt8
  /-- Address and length of the input and output sequences. -/
  seqIn : ℕ × ℕ
  seqOut : ℕ × ℕ
  alg : Option Algorithm
  /-- The output of the class 1 algorithm. -/
  out : List UInt8
  /-- The class 2 context. -/
  ctx : List UInt8

namespace Deco

/-- Before the first command: no key, no sequence, no algorithm. -/
def start (mem : Mem) (drawn : ℕ) : Deco := ⟨mem, drawn, [], [], (0, 0), (0, 0), none, [], []⟩

/-- The input sequence. -/
def input (d : Deco) : List UInt8 := load d.mem d.seqIn.1 d.seqIn.2

/-- Write to the output sequence, as far as it fits. -/
def output (d : Deco) (bytes : List UInt8) : Option Deco :=
  if bytes.length ≤ d.seqOut.2 then some { d with mem := store d.mem d.seqOut.1 bytes } else none

end Deco

/-- Bytes in a word, the lowest first. -/
def wordBytes (w : Word) : List UInt8 :=
  (List.range 4).map fun i => UInt8.ofNat (field w (8 * i) 8)

/-- One command. `none` is a job that fails. -/
def execCommand (core : Core) (nonce : ℕ) (d : Deco) : Command → Option Deco
  | .key ptr len => some { d with key1 := load d.mem ptr.toNat len }
  | .load dst ptr len =>
    if dst = 0x40 then some { d with key2 := load d.mem ptr.toNat len } else none
  | .loadImm dst data =>
    -- the other destinations hold no data of a later command
    if dst = 0x40 then some { d with key2 := data.flatMap wordBytes } else some d
  | .fifoLoad ptr len =>
    match d.alg with
    | some (.aes enc) => some { d with out := core.aes enc d.key1 (load d.mem ptr.toNat len) }
    | some .sha1 => some { d with ctx := core.sha1 (load d.mem ptr.toNat len) }
    | _ => none
  | .store src ptr len =>
    if src = 0x20 ∧ len ≤ d.ctx.length then
      some { d with mem := store d.mem ptr.toNat (d.ctx.take len) }
    else none
  | .fifoStore type ptr len =>
    if type = 0x30 ∧ len ≤ d.out.length then
      some { d with mem := store d.mem ptr.toNat (d.out.take len) }
    else if type = 0x34 ∧ d.alg = some .rng then
      some { d with mem := store d.mem ptr.toNat (core.draw d.drawn len), drawn := d.drawn + len }
    else none
  | .operation w =>
    match algorithm w with
    | some .encapBlob => d.output (core.encap nonce d.key2 d.input)
    | some .decapBlob => (core.decap d.key2 d.input).bind d.output
    | some .masterKey => d.output (core.masterKey d.key2)
    | some alg => some { d with alg := some alg }
    | none => none
  | .jump _ => some d
  | .seqIn ptr len => some { d with seqIn := (ptr.toNat, len) }
  | .seqOut ptr len => some { d with seqOut := (ptr.toNat, len) }

/-- All commands, in order. -/
def execCommands (core : Core) (nonce : ℕ) : Deco → List Command → Option Deco
  | d, [] => some d
  | d, c :: cs => (execCommand core nonce d c).bind fun d => execCommands core nonce d cs

/-- A descriptor: the memory and the random number generator after it. -/
def execDescriptor (core : Core) (nonce : ℕ) (dsc : List Word) (mem : Mem) (drawn : ℕ) :
    Option (Mem × ℕ) := do
  let cs ← parseDescriptor dsc
  let d ← execCommands core nonce (.start mem drawn) cs
  return (d.mem, d.drawn)

/-! ## The engine writes only where it may -/

section

variable {core : Core} {nonce : ℕ} {d d' : Deco} {W : Set ℕ}

/-- Memory is the same outside `W`. -/
def SameOutside (W : Set ℕ) (mem mem' : Mem) : Prop := ∀ a ∉ W, mem' a = mem a

lemma SameOutside.refl (W : Set ℕ) (mem : Mem) : SameOutside W mem mem := fun _ _ => rfl

lemma SameOutside.trans {mem mem' mem'' : Mem} (h : SameOutside W mem mem')
    (h' : SameOutside W mem' mem'') : SameOutside W mem mem'' :=
  fun a ha => (h' a ha).trans (h a ha)

lemma SameOutside.mono {W' : Set ℕ} {mem mem' : Mem} (h : SameOutside W mem mem') (hW : W ⊆ W') :
    SameOutside W' mem mem' := fun a ha => h a fun hmem => ha (hW hmem)

lemma sameOutside_store {mem : Mem} {a : ℕ} {bytes : List UInt8} {n : ℕ} (hlen : bytes.length ≤ n)
    (hW : range a n ⊆ W) : SameOutside W mem (store mem a bytes) := by
  intro i hi
  refine store_of_notMem fun hmem => hi (hW ?_)
  exact range_subset le_rfl (by omega) hmem

/-- What the output sequence covers lies in `W`. -/
def Deco.Within (W : Set ℕ) (d : Deco) : Prop := range d.seqOut.1 d.seqOut.2 ⊆ W

lemma Deco.output_frame (hd : d.Within W) {bytes : List UInt8} (h : d.output bytes = some d') :
    SameOutside W d.mem d'.mem ∧ d'.Within W := by
  rw [Deco.output] at h
  split at h
  · rename_i hlen
    rw [← Option.some.inj h]
    exact ⟨sameOutside_store hlen hd, hd⟩
  · exact absurd h (by simp)

/-- A command writes to the output sequence, or to the range it carries. -/
lemma execCommand_frame {c : Command} (hd : d.Within W)
    (hc : ∀ g, c.grant = some g → g.dir = .fromDevice → g.range ⊆ W)
    (h : execCommand core nonce d c = some d') : SameOutside W d.mem d'.mem ∧ d'.Within W := by
  cases c with
  | key ptr len =>
    rw [← Option.some.inj h]
    exact ⟨.refl W _, hd⟩
  | load dst ptr len =>
    rw [execCommand] at h
    split at h
    · rw [← Option.some.inj h]
      exact ⟨.refl W _, hd⟩
    · exact absurd h (by simp)
  | loadImm dst data =>
    rw [execCommand] at h
    split at h <;>
    · rw [← Option.some.inj h]
      exact ⟨.refl W _, hd⟩
  | fifoLoad ptr len =>
    rw [execCommand] at h
    split at h
    · rw [← Option.some.inj h]
      exact ⟨.refl W _, hd⟩
    · rw [← Option.some.inj h]
      exact ⟨.refl W _, hd⟩
    · exact absurd h (by simp)
  | store src ptr len =>
    rw [execCommand] at h
    split at h
    · rw [← Option.some.inj h]
      exact ⟨sameOutside_store (List.length_take_le ..) (hc _ rfl rfl), hd⟩
    · exact absurd h (by simp)
  | fifoStore type ptr len =>
    rw [execCommand] at h
    split at h
    · rw [← Option.some.inj h]
      exact ⟨sameOutside_store (List.length_take_le ..) (hc _ rfl rfl), hd⟩
    split at h
    · rw [← Option.some.inj h]
      exact ⟨sameOutside_store (core.length_draw ..).le (hc _ rfl rfl), hd⟩
    · exact absurd h (by simp)
  | operation w =>
    rw [execCommand] at h
    split at h
    · exact Deco.output_frame hd h
    · obtain ⟨plain, -, hout⟩ := Option.bind_eq_some_iff.mp h
      exact Deco.output_frame hd hout
    · exact Deco.output_frame hd h
    · rw [← Option.some.inj h]
      exact ⟨.refl W _, hd⟩
    · exact absurd h (by simp)
  | jump w =>
    rw [← Option.some.inj h]
    exact ⟨.refl W _, hd⟩
  | seqIn ptr len =>
    rw [← Option.some.inj h]
    exact ⟨.refl W _, hd⟩
  | seqOut ptr len =>
    rw [← Option.some.inj h]
    exact ⟨.refl W _, hc _ rfl rfl⟩

lemma execCommands_frame {cs : List Command} (hd : d.Within W)
    (hcs : ∀ c ∈ cs, ∀ g, c.grant = some g → g.dir = .fromDevice → g.range ⊆ W)
    (h : execCommands core nonce d cs = some d') : SameOutside W d.mem d'.mem := by
  induction cs generalizing d with
  | nil =>
    rw [← Option.some.inj h]
    exact .refl W _
  | cons c cs ih =>
    obtain ⟨d₁, hd₁, hrest⟩ := Option.bind_eq_some_iff.mp h
    obtain ⟨hsame, hwithin⟩ := execCommand_frame hd (hcs c List.mem_cons_self) hd₁
    exact hsame.trans (ih hwithin (fun c hc => hcs c (List.mem_cons_of_mem _ hc)) hrest)

/-- A job changes memory only where its descriptor allows it to. -/
lemma execDescriptor_frame {dsc : List Word} {mem mem' : Mem} {drawn drawn' : ℕ}
    (h : execDescriptor core nonce dsc mem drawn = some (mem', drawn')) :
    SameOutside (writable dsc) mem mem' := by
  obtain ⟨cs, hcs, h⟩ := Option.bind_eq_some_iff.mp h
  obtain ⟨d, hd, h⟩ := Option.bind_eq_some_iff.mp h
  obtain ⟨rfl, rfl⟩ : d.mem = mem' ∧ d.drawn = drawn' := by simpa using h
  have hstart : (Deco.start mem drawn).Within (writable dsc) := by
    simp [Deco.Within, Deco.start, range]
  refine execCommands_frame hstart (fun c hc g hg hdir => ?_) hd
  intro a ha
  refine ⟨g, ?_, hdir, ha⟩
  rw [grants, hcs]
  exact List.mem_filterMap.mpr ⟨c, hc, hg⟩

end

end TrustyLkNxp.Caam
