import TrustyLkNxp.Caam.Lengths
import TrustyLkNxp.Hwkey.Provisioning

/-!
# Buffers and pages

What is prepared for the engine in one piece has to lie inside a page.  A buffer does so
wherever it is placed when it is aligned to its size; all are but `rpmb_keyblob`.
-/

namespace TrustyLkNxp

open Caam hiding caamKbHeaderLen
open Memory

variable {E : Platform} {L : Hwkey.Layout}

/-- The pages of the MMU. -/
def pageSize : ℕ := 4096

/-- The addresses have the alignments that are declared, and those `memalign` is asked for. -/
structure Hwkey.Layout.Aligned (L : Hwkey.Layout) (E : Platform) : Prop where
  skeymod : 16 ∣ L.skeymod
  kdfv1Key : 32 ∣ L.kdfv1Key
  keyData : 2048 ∣ L.keyData
  gJob : 256 ∣ E.gJobDsc
  gRings : 16 ∣ E.gRings

/-- `prepare_dma` returns one segment exactly for what lies inside a page. -/
def Caam.Platform.PageExact (E : Platform) : Prop :=
  ∀ n va len dir, (E.prep n va len dir false).ret = 1 ↔ InPage pageSize va len.toNat

/-- What has to be prepared in one piece lies inside a page. -/
def Caam.Act.InPage : Act → Prop
  | .prepare va len _ false _ => Memory.InPage pageSize va len.toNat
  | _ => True

/-- Nothing fails either when this is all that `prepare_dma` asks for. -/
def Caam.Act.Fits (E : Platform) (a : Act) : Prop := a.InPage ∧ (E.PageExact → ¬ a.Failed)

/-- Start-up, and the one call of the driver in the requests for keys. -/
structure PagesOk (E : Platform) (L : Hwkey.Layout) : Prop where
  startUp : ∀ m : Machine, ∀ a ∈ m.actsTo (Hwkey.startUp E L m).2, a.Fits E
  getKeyslot : ∀ m : Machine, ∀ a ∈ m.actsTo (unwrapRpmb E L m).2, a.Fits E

/-! ## Aligned buffers -/

lemma fits_prepare {va : ℕ} {len : Word} {dir : Dir} (h : InPage pageSize va len.toNat) (n : ℕ) :
    (Act.prepare va len dir false (E.prep n va len dir false)).Fits E :=
  ⟨h, fun hexact => not_not.mpr ((hexact n va len dir).mpr h)⟩

/-- What any other action does. -/
lemma fits_of_not_prepare {a : Act} (h : ∀ va len dir allowPartial res,
    a ≠ .prepare va len dir allowPartial res) : a.Fits E := by
  cases a with
  | prepare va len dir allowPartial res => exact absurd rfl (h va len dir allowPartial res)
  | finish => exact ⟨trivial, fun _ => id⟩
  | write => exact ⟨trivial, fun _ => id⟩
  | writel => exact ⟨trivial, fun _ => id⟩
  | polled => exact ⟨trivial, fun _ => id⟩
  | start => exact ⟨trivial, fun _ => id⟩

/-- The words of a job fit into what is aligned for 64 of them. -/
lemma jobDoes_fits (hjob : 256 ∣ E.gJobDsc) (hrings : 16 ∣ E.gRings) {words : List Word}
    (hwords : words.length ≤ 64) : JobDoes (Act.Fits E) E words where
  writel _ _ := fits_of_not_prepare (by simp)
  writeJob := fits_of_not_prepare (by simp)
  prepareJob := fits_prepare (inPage_of_dvd (by decide) hjob (by decide) (by
    rw [BitVec.toNat_mul, BitVec.toNat_ofNat]
    have hfour : (4 : Word).toNat = 4 := rfl
    rw [hfour]
    omega))
  writeRings := fits_of_not_prepare (by simp)
  prepareRings := fits_prepare (inPage_of_dvd (by decide) hrings (by decide) (by decide))
  start _ := fits_of_not_prepare (by simp)
  polled _ := fits_of_not_prepare (by simp)
  finishRings := fits_of_not_prepare (by simp)

/-! ## Start-up and the requests -/

section

variable (hL : L.Aligned E)
include hL

lemma fits_startUp : Prog.Relates (Does (Act.Fits E)) (Hwkey.startUp E L) := by
  have hopen : Prog.Relates (Does (Act.Fits E)) (caamOpen E) :=
    (jobDoes_fits hL.gJob hL.gRings (by decide)).caamOpen rfl
  have hroot : Prog.Relates (Does (Act.Fits E)) (caamGenKdfv1RootKey E L.kdfv1Key 32) := by
    refine .bind (.of_check _ _) fun _ => does_dataOp ?_ (fun pa => ?_) ?_
    · intro b hb
      obtain rfl := List.mem_singleton.mp hb
      exact fits_prepare (inPage_of_dvd (by decide) hL.kdfv1Key (by decide) le_rfl)
    · exact jobDoes_fits hL.gJob hL.gRings (by simp)
    · exact fits_of_not_prepare (by simp)
  have hfinish : ∀ len : Word, Prog.Relates (Does (Act.Fits E)) (do
      let res ← caamGenKdfv1RootKey E L.kdfv1Key 32
      Prog.check (res = caamSuccess) .abort
      Prog.modify fun m =>
        { m with mem := E.put m.mem L.sramBase (List.replicate Hwkey.sizeofKeyslotPackage 0) }
      return len : Drv Word) := by
    intro len
    refine .bind hroot fun res => .bind (.of_check _ _) fun _ => ?_
    exact .bind (fun m => .of_trace rfl) fun _ => .of_pure _
  refine .bind hopen fun _ => .bind (fun m => Std.Refl.refl m) fun m => ?_
  refine .bind (.of_check _ _) fun _ => .bind (.of_check _ _) fun _ => ?_
  refine .ite (.bind (.of_pure _) hfinish) ?_
  refine .bind (fun m => .of_trace rfl) fun _ => ?_
  exact .bind (does_act (fits_of_not_prepare (by simp))) fun _ => .bind (.of_pure _) hfinish

/-- The blob of the RPMB key is the one buffer whose alignment says nothing. -/
lemma fits_unwrapRpmb (hblob : InPage pageSize L.rpmbKeyblob Hwkey.rpmbkeyLen) :
    Prog.Relates (Does (Act.Fits E)) (unwrapRpmb E L) := by
  refine .bind (.of_check _ _) fun _ => .bind (.of_check _ _) fun _ => ?_
  refine does_dataOp ?_ (fun pa => jobDoes_fits hL.gJob hL.gRings (by simp)) ?_
  · intro b hb
    simp only [List.mem_cons, List.not_mem_nil, or_false] at hb
    rcases hb with rfl | rfl | rfl
    · exact fits_prepare (inPage_of_dvd (by decide) hL.skeymod (by decide) le_rfl)
    · exact fits_prepare hblob
    · have hhead : (32 : Word).toNat ≤ 2048 := by decide
      exact fits_prepare (inPage_of_dvd (by decide) hL.keyData (by decide) hhead)
  · exact fits_of_not_prepare (by simp)

end

/-- The blob is among what is prepared, unless something before it fails. -/
lemma PagesOk.rpmbKeyblob (h : PagesOk E L) (hexact : E.PageExact) (m : Machine) :
    InPage pageSize L.rpmbKeyblob Hwkey.rpmbkeyLen := by
  have hfits := h.getKeyslot m
  have hblob : unwrapRpmb E L m =
      blobOp E L.skeymod L.rpmbKeyblob L.keyData (32 + Caam.caamKbHeaderLen) 32 0x860D0000 m :=
    caamDecapBlob_eq E _ _ _ (by decide) m
  rw [hblob] at hfits
  have hrun := dataOp_spec E [⟨L.skeymod, 16, .toDevice⟩,
    ⟨L.rpmbKeyblob, 32 + Caam.caamKbHeaderLen, .toDevice⟩, ⟨L.keyData, 32, .fromDevice⟩]
    (blobDsc (32 + Caam.caamKbHeaderLen) 32 0x860D0000) L.keyData 32 m
  obtain ⟨res, hres⟩ := hrun.prepares (fun a ha => (hfits a ha).2 hexact)
    (b := ⟨L.rpmbKeyblob, 32 + Caam.caamKbHeaderLen, .toDevice⟩) (by simp)
  exact (hfits _ hres).1

/-! ## All placements -/

/-- One segment for what lies inside a page, and an error for everything else. -/
def prepExact (_ va : ℕ) (len : Word) (_ : Dir) (_ : Bool) : Prepared :=
  if va % pageSize + len.toNat ≤ pageSize then ⟨1, va, len⟩ else ⟨-9, 0, 0⟩

lemma pageExact_prepExact (E : Platform) : Platform.PageExact { E with prep := prepExact } := by
  intro n va len dir
  rw [inPage_iff (by decide)]
  change (prepExact n va len dir false).ret = 1 ↔ _
  rw [prepExact]
  split <;> simp_all

/-- Wherever the buffers are placed, everything that start-up and the requests for keys have
prepared in one piece lies inside a page, and can be prepared, if and only if the blob of the
RPMB key does. -/
theorem pages_ok_iff (hL : L.Aligned E) :
    (∀ prep, PagesOk { E with prep := prep } L) ↔
      L.rpmbKeyblob % pageSize + Hwkey.rpmbkeyLen ≤ pageSize := by
  rw [← inPage_iff (by decide)]
  constructor
  · intro h
    exact (h prepExact).rpmbKeyblob (pageExact_prepExact E) Caam.Demo.machine
  · intro hblob prep
    have hL' : L.Aligned { E with prep := prep } := ⟨hL.1, hL.2, hL.3, hL.4, hL.5⟩
    exact ⟨fun m => (fits_startUp hL' m).actsTo, fun m => (fits_unwrapRpmb hL' hblob m).actsTo⟩

lemma Demo.aligned_layout : layout.Aligned board := by
  constructor <;> decide

theorem pages_ok_board : PagesOk Demo.board Demo.layout :=
  (pages_ok_iff Demo.aligned_layout).mpr (by decide) Demo.board.prep

namespace Demo

/-- The blob lies across two pages. -/
def crossing : Hwkey.Layout := { layout with rpmbKeyblob := 0x5FC0 }

/-- The board with a kernel that prepares what lies inside a page. -/
def exactBoard : Platform := { board with prep := prepExact }

end Demo

/-- With the blob across two pages the RPMB key cannot be unwrapped. -/
theorem not_pages_ok_of_crossing :
    Demo.crossing.Aligned Demo.exactBoard ∧ Demo.exactBoard.PageExact ∧
      ¬ PagesOk Demo.exactBoard Demo.crossing ∧
      (unwrapRpmb Demo.exactBoard Demo.crossing Demo.loaded).1 = .ok caamFailure := by
  refine ⟨by constructor <;> decide, pageExact_prepExact _, fun h => ?_, by decide +kernel⟩
  have hblob := h.rpmbKeyblob (pageExact_prepExact _) Demo.loaded
  rw [inPage_iff (by decide)] at hblob
  exact absurd hblob (by decide)

end TrustyLkNxp
