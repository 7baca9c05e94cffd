import Mathlib.Logic.Function.Basic
import Mathlib.Data.List.GetD
import TrustyLkNxp.Basic
import TrustyLkNxp.Lib.Priority

/-!
# The TrustZone address space controller

`tzasc.c` writes a table of regions (`tzasc_regions.h`) into the register window of the
TZASC.  The first part of this file is that code: the packed attribute words, the table and
the loop over the register file.  The second part is the controller itself, which decodes
the registers of its sixteen regions and lets the highest-numbered enabled region that
covers an address decide.
-/

namespace TrustyLkNxp.Tzasc

/-! ## Register layout (`tzasc.h`) -/

/-- The register file, as a map from virtual register addresses to their contents. -/
abbrev Regs := ℕ → Word

section Layout

variable (tzBaseVirt : ℕ)

/-- `TZ_ACTION`. -/
def tzAction : ℕ := tzBaseVirt + 0x004

/-- `TZ_INT_CLEAR`. -/
def tzIntClear : ℕ := tzBaseVirt + 0x014

/-- `TZ_REGION_BASE`, where the registers of region 0 are. -/
def tzRegionBase : ℕ := tzBaseVirt + 0x100

/-- `TZ_GET_REGION_ADDR`, where the registers of region `n` are. -/
def tzGetRegionAddr (n : ℕ) : ℕ := tzRegionBase tzBaseVirt + n * 0x10

end Layout

/-- `TZ_SP_NS_W`. -/
def tzSpNsW : Word := 0x1 <<< 0

/-- `TZ_SP_NS_R`. -/
def tzSpNsR : Word := 0x1 <<< 1

/-- `TZ_SP_S_W`. -/
def tzSpSW : Word := 0x1 <<< 2

/-- `TZ_SP_S_R`. -/
def tzSpSR : Word := 0x1 <<< 3

/-- `TZ_SP_SHIFT`. -/
def tzSpShift : ℕ := 28

/-- `TZ_ATTR_SP_S_WR_ONLR`: only the secure world reads and writes. -/
def tzAttrSpSWrOnlr : Word := 0x0 ||| ((tzSpSW ||| tzSpSR) <<< tzSpShift)

/-- `TZ_ATTR_SP_ALL`: both worlds read and write. -/
def tzAttrSpAll : Word := 0x0 ||| ((tzSpSW ||| tzSpSR ||| tzSpNsR ||| tzSpNsW) <<< tzSpShift)

/-- `TZ_REGION_SIZE_32M`. -/
def tzRegionSize32M : Word := 0x18

/-- `TZ_REGION_SIZE_512M`. -/
def tzRegionSize512M : Word := 0x1C

/-- `TZ_REGION_SIZE_4G`. -/
def tzRegionSize4G : Word := 0x1F

/-- `TZ_REGION_SIZE_SHIFT`. -/
def tzRegionSizeShift : ℕ := 1

/-- `TZ_ATTR_REGION_SIZE`. -/
def tzAttrRegionSize (s : Word) : Word := 0x0 ||| (s <<< tzRegionSizeShift)

/-- `TZ_ATTR_DISABLE_REGION`: no part of the region is disabled. -/
def tzAttrDisableRegion : Word := 0x0

/-- `TZ_REGION_ENABLE`. -/
def tzRegionEnable : Word := 0x1

/-- `TZ_ATTR`. -/
def tzAttr (sp subDis size en : Word) : Word := 0x0 ||| (sp ||| subDis ||| size ||| en)

/-- `tzasc_region_t`. -/
structure TzascRegion where
  addrL : Word
  addrH : Word
  attr : Word
deriving DecidableEq, Repr

/-! ## Programming the regions (`tzasc.c`, `tzasc_regions.h`) -/

/-- The table of regions; the last entry is the memory of the TEE, which starts at `MEMBASE`. -/
def tzascRegions (membase : Word) : List TzascRegion :=
  [{ addrL := 0
     addrH := 0
     attr := tzAttr tzAttrSpAll tzAttrDisableRegion (tzAttrRegionSize tzRegionSize4G)
       tzRegionEnable },
   { addrL := 0x80000000
     addrH := 0
     attr := tzAttr tzAttrSpAll tzAttrDisableRegion (tzAttrRegionSize tzRegionSize512M)
       tzRegionEnable },
   { addrL := membase
     addrH := 0x0
     attr := tzAttr tzAttrSpSWrOnlr tzAttrDisableRegion (tzAttrRegionSize tzRegionSize32M)
       tzRegionEnable }]

/-- `TZ_REG(r) = v`. -/
def tzRegSet (regs : Regs) (r : ℕ) (v : Word) : Regs := Function.update regs r v

/-- The loop of `initial_tzasc`, from region `i` on. -/
def writeRegions (tzBaseVirt i : ℕ) : List TzascRegion → Regs → Regs
  | [], regs => regs
  | r :: rs, regs =>
    let regs := tzRegSet regs (tzGetRegionAddr tzBaseVirt i) r.addrL
    let regs := tzRegSet regs (tzGetRegionAddr tzBaseVirt i + 0x4) r.addrH
    let regs := tzRegSet regs (tzGetRegionAddr tzBaseVirt i + 0x8) r.attr
    writeRegions tzBaseVirt (i + 1) rs regs

/-- `initial_tzasc`: `rs` is the table with its length. -/
def initialTzasc (tzBaseVirt : ℕ) (rs : List TzascRegion) (regs : Regs) : Regs :=
  let regs := tzRegSet regs (tzAction tzBaseVirt) 0x2
  let regs := writeRegions tzBaseVirt 0 rs regs
  tzRegSet regs (tzIntClear tzBaseVirt) 0

/-- What `platform_after_vm_init` does to the TZASC (`WITH_TZASC`); the interrupt controller
and the timer it initialises first have registers of their own. -/
def platformAfterVmInit (tzBaseVirt : ℕ) (membase : Word) (regs : Regs) : Regs :=
  initialTzasc tzBaseVirt (tzascRegions membase) regs

/-! ## The controller -/

/-- The number of regions of the controller. -/
def regionCount : ℕ := 16

/-- The contents of the three registers of region `i`. -/
def regionAt (tzBaseVirt : ℕ) (regs : Regs) (i : ℕ) : TzascRegion where
  addrL := regs (tzGetRegionAddr tzBaseVirt i)
  addrH := regs (tzGetRegionAddr tzBaseVirt i + 0x4)
  attr := regs (tzGetRegionAddr tzBaseVirt i + 0x8)

namespace TzascRegion

/-- The enable bit. -/
def enabled (r : TzascRegion) : Bool := r.attr.getLsbD 0

/-- The address the region starts at. -/
def base (r : TzascRegion) : ℕ := r.addrH.toNat * 2 ^ 32 + r.addrL.toNat

/-- The size field holds one less than the exponent of the size in bytes. -/
def size (r : TzascRegion) : ℕ := 2 ^ ((r.attr.extractLsb' 1 6).toNat + 1)

/-- The address is in the region. -/
def covers (r : TzascRegion) (a : ℕ) : Prop := r.base ≤ a ∧ a < r.base + r.size

instance (r : TzascRegion) (a : ℕ) : Decidable (r.covers a) :=
  inferInstanceAs (Decidable (_ ∧ _))

/-- The security permissions, one bit for each kind of access. -/
def sp (r : TzascRegion) : BitVec 4 := r.attr.extractLsb' 28 4

/-- What region `r` says about address `a`: its permissions, when it is enabled and covers
the address. The field that `TZ_ATTR` calls `sub_dis` is not read: it is taken to be 0, as the table
leaves it, so that a region has no part that is disabled. -/
def answer (r : TzascRegion) (a : ℕ) : Option (BitVec 4) :=
  if r.enabled = true ∧ r.covers a then some r.sp else none

end TzascRegion

/-- The kinds of access the controller tells apart. -/
inductive Access
  | nsWrite | nsRead | sWrite | sRead
deriving DecidableEq, Repr

/-- The permission bit of an access (`TZ_SP_NS_W` and the following). -/
def Access.bit : Access → ℕ
  | nsWrite => 0
  | nsRead => 1
  | sWrite => 2
  | sRead => 3

/-- The permissions at address `a`: those of the highest-numbered enabled region that
covers it. -/
def permission (tzBaseVirt : ℕ) (regs : Regs) (a : ℕ) : Option (BitVec 4) :=
  Priority.highest (fun i => (regionAt tzBaseVirt regs i).answer a) regionCount

/-- Whether an access to address `a` is let through. -/
def allowed (tzBaseVirt : ℕ) (regs : Regs) (a : ℕ) (acc : Access) : Prop :=
  ∃ sp, permission tzBaseVirt regs a = some sp ∧ sp.getLsbD acc.bit = true

/-! ## What the loop leaves in the registers -/

section Loop

variable {tzBaseVirt : ℕ}

lemma regionAt_writeRegions_of_lt {i j : ℕ} (h : j < i) (rs : List TzascRegion) (regs : Regs) :
    regionAt tzBaseVirt (writeRegions tzBaseVirt i rs regs) j = regionAt tzBaseVirt regs j := by
  induction rs generalizing i regs with
  | nil => rfl
  | cons r rs ih =>
    rw [writeRegions, ih (by omega)]
    simp only [regionAt, tzRegSet, tzGetRegionAddr]
    congr 1 <;> repeat rw [Function.update_of_ne (by omega)]

/-- Region `i + k` holds entry `k` of the table after the loop has run from region `i`, and
what it held before when the table is shorter. -/
lemma regionAt_writeRegions (i k : ℕ) (rs : List TzascRegion) (regs : Regs) :
    regionAt tzBaseVirt (writeRegions tzBaseVirt i rs regs) (i + k)
      = rs.getD k (regionAt tzBaseVirt regs (i + k)) := by
  induction rs generalizing i k regs with
  | nil => simp [writeRegions]
  | cons r rs ih =>
    rw [writeRegions]
    cases k with
    | zero =>
      rw [regionAt_writeRegions_of_lt (by omega)]
      simp [regionAt, tzRegSet, tzGetRegionAddr]
    | succ k =>
      rw [show i + (k + 1) = i + 1 + k by omega, ih, List.getD_cons_succ]
      congr 1
      simp only [regionAt, tzRegSet, tzGetRegionAddr]
      congr 1 <;> repeat rw [Function.update_of_ne (by omega)]

/-- Region `i` holds entry `i` of the table after `initial_tzasc`; the regions the table has
no entry for keep what they held. -/
lemma regionAt_initialTzasc (rs : List TzascRegion) (regs : Regs) (i : ℕ) :
    regionAt tzBaseVirt (initialTzasc tzBaseVirt rs regs) i
      = rs.getD i (regionAt tzBaseVirt regs i) := by
  have hclear : ∀ f : Regs, regionAt tzBaseVirt (tzRegSet f (tzIntClear tzBaseVirt) 0) i
      = regionAt tzBaseVirt f i := by
    intro f
    simp only [regionAt, tzRegSet, tzIntClear, tzGetRegionAddr, tzRegionBase]
    congr 1 <;> rw [Function.update_of_ne (by omega)]
  have haction : regionAt tzBaseVirt (tzRegSet regs (tzAction tzBaseVirt) 0x2) i
      = regionAt tzBaseVirt regs i := by
    simp only [regionAt, tzRegSet, tzAction, tzGetRegionAddr, tzRegionBase]
    congr 1 <;> rw [Function.update_of_ne (by omega)]
  have hloop := @regionAt_writeRegions tzBaseVirt 0 i rs
    (tzRegSet regs (tzAction tzBaseVirt) 0x2)
  simp only [Nat.zero_add, haction] at hloop
  rw [initialTzasc, hclear, hloop]

end Loop

/-! ## The permissions that result -/

section Permission

variable (tzBaseVirt : ℕ) (membase : Word) (regs : Regs)

/-- What the regions above the table, left over from earlier boot stages, answer for an
address. -/
def leftOver (a : ℕ) : Option (BitVec 4) :=
  Priority.highest (fun k => (regionAt tzBaseVirt regs (3 + k)).answer a) (regionCount - 3)

/-- The permissions the table itself gives: the memory of the TEE is for the secure world
only, everything else is open. -/
def tablePermission (a : ℕ) : BitVec 4 :=
  if membase.toNat ≤ a ∧ a < membase.toNat + 0x2000000 then 0b1100 else 0b1111

/-- The table with its attribute words worked out. -/
lemma tzascRegions_eq : tzascRegions membase =
    [⟨0, 0, 0xF000003F⟩, ⟨0x80000000, 0, 0xF0000039⟩, ⟨membase, 0, 0xC0000031⟩] := by
  have h0 : tzAttr tzAttrSpAll tzAttrDisableRegion (tzAttrRegionSize tzRegionSize4G)
      tzRegionEnable = 0xF000003F := by decide
  have h1 : tzAttr tzAttrSpAll tzAttrDisableRegion (tzAttrRegionSize tzRegionSize512M)
      tzRegionEnable = 0xF0000039 := by decide
  have h2 : tzAttr tzAttrSpSWrOnlr tzAttrDisableRegion (tzAttrRegionSize tzRegionSize32M)
      tzRegionEnable = 0xC0000031 := by decide
  rw [tzascRegions, h0, h1, h2]

lemma answer_region_zero (a : ℕ) (ha : a < 2 ^ 32) :
    TzascRegion.answer ⟨0, 0, 0xF000003F⟩ a = some 0b1111 := by
  have hsize : TzascRegion.size ⟨0, 0, 0xF000003F⟩ = 2 ^ 32 := by decide
  have hsp : TzascRegion.sp ⟨0, 0, 0xF000003F⟩ = 0b1111 := by decide
  rw [TzascRegion.answer, if_pos, hsp]
  refine ⟨by decide, Nat.zero_le a, ?_⟩
  rw [hsize]
  exact Nat.lt_of_lt_of_le ha (Nat.le_add_left _ _)

lemma answer_region_one (a : ℕ) :
    TzascRegion.answer ⟨0x80000000, 0, 0xF0000039⟩ a = none ∨
    TzascRegion.answer ⟨0x80000000, 0, 0xF0000039⟩ a = some 0b1111 := by
  have hsp : TzascRegion.sp ⟨0x80000000, 0, 0xF0000039⟩ = 0b1111 := by decide
  rw [TzascRegion.answer, hsp]
  split
  · exact Or.inr rfl
  · exact Or.inl rfl

lemma answer_region_two (a : ℕ) :
    TzascRegion.answer ⟨membase, 0, 0xC0000031⟩ a
      = if membase.toNat ≤ a ∧ a < membase.toNat + 0x2000000 then some 0b1100 else none := by
  have hbase : TzascRegion.base ⟨membase, 0, 0xC0000031⟩ = membase.toNat := by
    simp [TzascRegion.base]
  have hsize : TzascRegion.size ⟨membase, 0, 0xC0000031⟩ = 0x2000000 := by
    change 2 ^ ((BitVec.extractLsb' 1 6 (0xC0000031 : Word)).toNat + 1) = 0x2000000
    decide
  have hen : TzascRegion.enabled ⟨membase, 0, 0xC0000031⟩ = true := by
    change BitVec.getLsbD (0xC0000031 : Word) 0 = true
    decide
  have hsp : TzascRegion.sp ⟨membase, 0, 0xC0000031⟩ = 0b1100 := by
    change BitVec.extractLsb' 28 4 (0xC0000031 : Word) = 0b1100
    decide
  simp only [TzascRegion.answer, TzascRegion.covers, hbase, hsize, hen, hsp, true_and]

/-- The permissions after `platform_after_vm_init`: the regions above the table come first,
and where they are silent the table decides. -/
lemma permission_platformAfterVmInit (a : ℕ) (ha : a < 2 ^ 32) :
    permission tzBaseVirt (platformAfterVmInit tzBaseVirt membase regs) a
      = (leftOver tzBaseVirt regs a).or (some (tablePermission membase a)) := by
  rw [permission, show regionCount = 3 + (regionCount - 3) by rfl, Priority.highest_add]
  congr 1
  · refine Priority.highest_congr fun k _ => ?_
    rw [platformAfterVmInit, regionAt_initialTzasc, List.getD_eq_default _ _
      (show (tzascRegions membase).length ≤ 3 + k from Nat.le_add_right 3 k)]
  · simp only [Priority.highest_succ, Priority.highest_zero, platformAfterVmInit,
      regionAt_initialTzasc, tzascRegions_eq, List.getD_cons_zero, List.getD_cons_succ,
      answer_region_zero a ha, answer_region_two, tablePermission]
    split
    · rfl
    · rcases answer_region_one a with h | h <;> rw [h] <;> rfl

lemma leftOver_eq_none_iff (a : ℕ) : leftOver tzBaseVirt regs a = none ↔
    ∀ i, 3 ≤ i → i < regionCount →
      ¬((regionAt tzBaseVirt regs i).enabled = true ∧ (regionAt tzBaseVirt regs i).covers a) := by
  rw [leftOver, Priority.highest_eq_none_iff]
  constructor
  · intro h i hi hlt hcov
    have hk := h (i - 3) (by omega)
    rw [show 3 + (i - 3) = i by omega, TzascRegion.answer, if_pos hcov] at hk
    exact absurd hk (by simp)
  · intro h k hk
    rw [TzascRegion.answer, if_neg (h (3 + k) (by omega) (by omega))]

/-- An enabled region above the table that covers `a` and has no such region above it is the
one that answers. -/
lemma leftOver_eq_some {i a : ℕ} (hi : 3 ≤ i) (hlt : i < regionCount)
    (hcov : (regionAt tzBaseVirt regs i).enabled = true ∧ (regionAt tzBaseVirt regs i).covers a)
    (habove : ∀ j, i < j → j < regionCount →
      ¬((regionAt tzBaseVirt regs j).enabled = true ∧ (regionAt tzBaseVirt regs j).covers a)) :
    leftOver tzBaseVirt regs a = some (regionAt tzBaseVirt regs i).sp := by
  rw [leftOver, Priority.highest_eq_some_iff]
  refine ⟨i - 3, by omega, ?_, fun j hj hij => ?_⟩
  · rw [show 3 + (i - 3) = i by omega, TzascRegion.answer, if_pos hcov]
  · rw [TzascRegion.answer, if_neg (habove (3 + j) (by omega) (by omega))]

end Permission

/-! ## Earlier boot stages -/

/-- `MEMBASE` as `rules.mk` sets it when the build does not. -/
def membaseDefault : Word := 0x9e000000

/-- `MEMSIZE` as `rules.mk` sets it when the build does not. -/
def memsizeDefault : Word := 0x02000000

/-- The memory `[base, base + size)` belongs to the secure world alone, and every other
32-bit address is open to the non-secure world. -/
def SecureExactly (tzBaseVirt : ℕ) (regs : Regs) (base size : Word) : Prop :=
  ∀ a : Word,
    if base.toNat ≤ a.toNat ∧ a.toNat < base.toNat + size.toNat then
      ¬allowed tzBaseVirt regs a.toNat .nsRead ∧ ¬allowed tzBaseVirt regs a.toNat .nsWrite ∧
        allowed tzBaseVirt regs a.toNat .sRead ∧ allowed tzBaseVirt regs a.toNat .sWrite
    else
      allowed tzBaseVirt regs a.toNat .nsRead ∧ allowed tzBaseVirt regs a.toNat .nsWrite

lemma allowed_of_permission {tzBaseVirt a : ℕ} {regs : Regs} {sp : BitVec 4}
    (h : permission tzBaseVirt regs a = some sp) (acc : Access) :
    allowed tzBaseVirt regs a acc ↔ sp.getLsbD acc.bit = true := by
  simp [allowed, h]

/-- **Permissions after start-up, for every content of the region registers before it.**
An address that no enabled region above the table covers is for the secure world alone
inside the memory of the TEE, and open outside it; an address that such a region covers has
the permissions that region was left with. -/
theorem permission_after_vm_init (tzBaseVirt : ℕ) (regs : Regs) (a : Word) :
    let after := platformAfterVmInit tzBaseVirt membaseDefault regs
    let left := fun i => (regionAt tzBaseVirt regs i).enabled = true ∧
      (regionAt tzBaseVirt regs i).covers a.toNat
    ((∀ i, 3 ≤ i → i < regionCount → ¬left i) →
      if membaseDefault.toNat ≤ a.toNat ∧
          a.toNat < membaseDefault.toNat + memsizeDefault.toNat then
        ¬allowed tzBaseVirt after a.toNat .nsRead ∧ ¬allowed tzBaseVirt after a.toNat .nsWrite ∧
          allowed tzBaseVirt after a.toNat .sRead ∧ allowed tzBaseVirt after a.toNat .sWrite
      else
        allowed tzBaseVirt after a.toNat .nsRead ∧ allowed tzBaseVirt after a.toNat .nsWrite) ∧
    ∀ i, 3 ≤ i → i < regionCount → left i →
      (∀ j, i < j → j < regionCount → ¬left j) →
      ∀ acc, allowed tzBaseVirt after a.toNat acc ↔
        (regionAt tzBaseVirt regs i).sp.getLsbD acc.bit = true := by
  intro after left
  have hperm := permission_platformAfterVmInit tzBaseVirt membaseDefault regs a.toNat a.isLt
  constructor
  · intro hnone
    rw [(leftOver_eq_none_iff tzBaseVirt regs a.toNat).mpr hnone, Option.none_or,
      tablePermission] at hperm
    change if membaseDefault.toNat ≤ a.toNat ∧ a.toNat < membaseDefault.toNat + 0x2000000
      then _ else _
    by_cases hin : membaseDefault.toNat ≤ a.toNat ∧ a.toNat < membaseDefault.toNat + 0x2000000
    · rw [if_pos hin] at hperm ⊢
      simp only [after, allowed_of_permission hperm]
      decide
    · rw [if_neg hin] at hperm ⊢
      simp only [after, allowed_of_permission hperm]
      decide
  · intro i hi hlt hcov habove acc
    rw [leftOver_eq_some tzBaseVirt regs hi hlt hcov habove, Option.some_or] at hperm
    exact allowed_of_permission hperm acc

/-- The registers an earlier stage leaves when it has opened the whole address space with
region 15 and has written nothing else. -/
def openedByRegion15 : Regs := fun r => if r = tzGetRegionAddr 0 15 + 0x8 then 0xF000003F else 0

/-- Start-up does not make the memory of the TEE secure whatever came before it. -/
theorem not_secureExactly_of_history :
    ¬∀ (tzBaseVirt : ℕ) (regs : Regs), SecureExactly tzBaseVirt
      (platformAfterVmInit tzBaseVirt membaseDefault regs) membaseDefault memsizeDefault := by
  intro h
  have hmem := h 0 openedByRegion15 membaseDefault
  rw [if_pos (by decide)] at hmem
  have hleft : leftOver 0 openedByRegion15 membaseDefault.toNat = some 0b1111 := by decide
  have hperm := permission_platformAfterVmInit 0 membaseDefault openedByRegion15
    membaseDefault.toNat membaseDefault.isLt
  rw [hleft, Option.some_or] at hperm
  exact hmem.1 ((allowed_of_permission hperm .nsRead).mpr (by decide))

end TrustyLkNxp.Tzasc
