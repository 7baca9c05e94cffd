import TrustyLkNxp.Platform.Tzasc

/-!
# The memory the kernel allocates from

`platform.c` describes the memory of the TEE twice: as the dynamic entry of the initial
mappings, which reset code may adjust, and as the arena handed to the page allocator, which
`platform_init_mmu_mappings` adjusts to that entry.  `tzasc_regions.h` describes it a third
time.  This file models the first two and compares the arena with the protected window.
-/

namespace TrustyLkNxp.Platform

open Tzasc

/-- The build settings the two descriptions are made from. -/
structure BuildSettings where
  membase : Word
  memsize : Word
  kernelBase : Word
  kernelLoadOffset : Word
  socRegsPhy : Word
  socRegsVirt : Word
  socRegsSize : Word
deriving DecidableEq, Repr

/-- `MMU_INITIAL_MAPPING_FLAG_DYNAMIC` and `MMU_INITIAL_MAPPING_FLAG_DEVICE`. -/
structure MappingFlags where
  dynamic : Bool
  device : Bool
deriving DecidableEq, Repr

/-- `struct mmu_initial_mapping`; the entry that ends the table has no name. -/
structure MmuInitialMapping where
  phys : Word
  virt : Word
  size : Word
  flags : MappingFlags
  name : Option String
deriving DecidableEq, Repr

/-- `pmm_arena_t`. -/
structure PmmArena where
  name : String
  base : Word
  size : Word
  kmap : Bool
deriving DecidableEq, Repr

/-- `mmu_initial_mappings`. -/
def mmuInitialMappings (b : BuildSettings) : List MmuInitialMapping :=
  [{ phys := b.membase + b.kernelLoadOffset
     virt := b.kernelBase + b.kernelLoadOffset
     size := b.memsize
     flags := ⟨true, false⟩
     name := some "ram" },
   { phys := b.socRegsPhy
     virt := b.socRegsVirt
     size := b.socRegsSize
     flags := ⟨false, true⟩
     name := some "soc" },
   { phys := 0, virt := 0, size := 0, flags := ⟨false, false⟩, name := none }]

/-- `ram_arena`. -/
def ramArena (b : BuildSettings) : PmmArena where
  name := "ram"
  base := b.membase + b.kernelLoadOffset
  size := b.memsize
  kmap := true

/-- `platform_init_mmu_mappings`: the arena it registers, given the mappings as the reset
code left them. -/
def platformInitMmuMappings : List MmuInitialMapping → PmmArena → PmmArena
  | [], arena => arena
  | m :: ms, arena =>
    if m.flags.dynamic = false then
      platformInitMmuMappings ms arena
    else if m.name = some arena.name then
      { arena with base := m.phys, size := m.size, kmap := true }
    else
      platformInitMmuMappings ms arena

/-- While the dynamic mapping keeps its initial value, the adjustment changes nothing. -/
lemma platformInitMmuMappings_initial (b : BuildSettings) :
    platformInitMmuMappings (mmuInitialMappings b) (ramArena b) = ramArena b := by
  simp [platformInitMmuMappings, mmuInitialMappings, ramArena]

/-- Every address of the arena is denied to the non-secure world. -/
def ArenaSecure (tzBaseVirt : ℕ) (regs : Regs) (arena : PmmArena) : Prop :=
  ∀ a, arena.base.toNat ≤ a → a < arena.base.toNat + arena.size.toNat →
    ¬allowed tzBaseVirt regs a .nsRead ∧ ¬allowed tzBaseVirt regs a .nsWrite

/-- When nothing is enabled above the table, exactly the window of 32 MiB from `MEMBASE` on
is denied to the non-secure world. -/
lemma denied_iff {tzBaseVirt a : ℕ} {membase : Word} {regs : Regs} (ha : a < 2 ^ 32)
    (hoff : ∀ i, 3 ≤ i → i < regionCount → (regionAt tzBaseVirt regs i).enabled = false) :
    (¬allowed tzBaseVirt (platformAfterVmInit tzBaseVirt membase regs) a .nsRead ∧
      ¬allowed tzBaseVirt (platformAfterVmInit tzBaseVirt membase regs) a .nsWrite) ↔
    membase.toNat ≤ a ∧ a < membase.toNat + 0x2000000 := by
  have hleft : leftOver tzBaseVirt regs a = none := by
    rw [leftOver_eq_none_iff]
    intro i hi hlt hcov
    rw [hoff i hi hlt] at hcov
    exact absurd hcov.1 (by decide)
  have hperm := permission_platformAfterVmInit tzBaseVirt membase regs a ha
  rw [hleft, Option.none_or] at hperm
  rw [allowed_of_permission hperm, allowed_of_permission hperm, tablePermission]
  split
  · rename_i hin
    simpa only [hin, iff_true] using by decide
  · rename_i hout
    simpa only [hout, iff_false] using by decide

/-- **The arena is protected exactly when it ends inside the window of 32 MiB.** The
settings are those without 32-bit wrap-around, and the regions above the table are
disabled. -/
theorem arenaSecure_iff (tzBaseVirt : ℕ) (b : BuildSettings) (regs : Regs)
    (hwrap : b.membase.toNat + b.kernelLoadOffset.toNat + b.memsize.toNat ≤ 2 ^ 32)
    (hoff : ∀ i, 3 ≤ i → i < regionCount → (regionAt tzBaseVirt regs i).enabled = false) :
    ArenaSecure tzBaseVirt (platformAfterVmInit tzBaseVirt b.membase regs)
        (platformInitMmuMappings (mmuInitialMappings b) (ramArena b)) ↔
      b.memsize = 0 ∨ b.kernelLoadOffset.toNat + b.memsize.toNat ≤ 0x2000000 := by
  rw [platformInitMmuMappings_initial]
  by_cases hzero : b.memsize = 0
  · refine iff_of_true (fun a hle hlt => ?_) (Or.inl hzero)
    have hsize : (ramArena b).size.toNat = 0 := by simp [ramArena, hzero]
    omega
  · have hpos : 0 < b.memsize.toNat := by
      rcases Nat.eq_zero_or_pos b.memsize.toNat with h | h
      · exact absurd (BitVec.eq_of_toNat_eq (by simpa using h)) hzero
      · exact h
    have hbase : (ramArena b).base.toNat = b.membase.toNat + b.kernelLoadOffset.toNat := by
      simp only [ramArena, BitVec.toNat_add]
      exact Nat.mod_eq_of_lt (by omega)
    have hsize : (ramArena b).size.toNat = b.memsize.toNat := rfl
    simp only [hzero, false_or]
    constructor
    · intro h
      -- the last byte of the arena has to lie in the window
      have hlast := h (b.membase.toNat + b.kernelLoadOffset.toNat + b.memsize.toNat - 1)
        (by omega) (by omega)
      rw [denied_iff (by omega) hoff] at hlast
      omega
    · intro hfit a hle hlt
      rw [denied_iff (by omega) hoff]
      omega

/-- Registers that read zero describe disabled regions. -/
lemma enabled_regionAt_zero (tzBaseVirt i : ℕ) :
    (regionAt tzBaseVirt (fun _ => 0) i).enabled = false := by
  simp [regionAt, TzascRegion.enabled]

/-- The default settings on i.MX7D, without a load offset. -/
def imx7dDefault : BuildSettings where
  membase := membaseDefault
  memsize := memsizeDefault
  kernelBase := membaseDefault
  kernelLoadOffset := 0
  socRegsPhy := 0x30000000
  socRegsVirt := 0x70000000
  socRegsSize := 0x01000000

theorem arenaSecure_iff_imx7d :
    ArenaSecure 0x70780000 (platformAfterVmInit 0x70780000 imx7dDefault.membase fun _ => 0)
        (platformInitMmuMappings (mmuInitialMappings imx7dDefault) (ramArena imx7dDefault)) ↔
      imx7dDefault.memsize = 0 ∨
        imx7dDefault.kernelLoadOffset.toNat + imx7dDefault.memsize.toNat ≤ 0x2000000 :=
  arenaSecure_iff 0x70780000 imx7dDefault (fun _ => 0) (by decide)
    (fun i _ _ => enabled_regionAt_zero _ i)

/-- With `MEMSIZE` set to 64 MiB the second half of the arena is open to the non-secure
world. -/
theorem not_arenaSecure_of_memsize :
    ¬∀ (tzBaseVirt : ℕ) (b : BuildSettings) (regs : Regs),
      4096 ∣ b.kernelLoadOffset.toNat →
      b.membase.toNat + b.kernelLoadOffset.toNat + b.memsize.toNat ≤ 2 ^ 32 →
      (∀ i, 3 ≤ i → i < regionCount → (regionAt tzBaseVirt regs i).enabled = false) →
      ArenaSecure tzBaseVirt (platformAfterVmInit tzBaseVirt b.membase regs)
        (platformInitMmuMappings (mmuInitialMappings b) (ramArena b)) := by
  intro h
  let b : BuildSettings := { imx7dDefault with memsize := 0x04000000 }
  have hoff : ∀ i, 3 ≤ i → i < regionCount →
      (regionAt 0x70780000 (fun _ => 0) i).enabled = false := fun i _ _ => enabled_regionAt_zero _ i
  have harena := h 0x70780000 b (fun _ => 0) (by decide) (by decide) hoff
  rw [platformInitMmuMappings_initial] at harena
  have hdenied := harena 0xa0000000 (by decide) (by decide)
  rw [denied_iff (by decide) hoff] at hdenied
  exact absurd hdenied.2 (by decide)

end TrustyLkNxp.Platform
