import TrustyLkNxp.Hwkey.Keybox
import TrustyLkNxp.Hwkey.Protocol
import TrustyLkNxp.Hwrng.Delivery

/-!
# The RPMB key, from the key box to the client

The application that was started on a key box, with the provider of random bytes and the
decapsulation of the RPMB key on the same CAAM.  Whatever it is asked, the key modifier and
the blob stay where they are, and the secure storage server gets the key that was wrapped.
-/

namespace TrustyLkNxp

open Ipc EventSystem Memory

variable {E : Caam.Platform} {L : Hwkey.Layout} {K : Config}

/-! ## The application on the CAAM -/

/-- The data of the provider, once start-up has returned. -/
def Hwkey.Layout.provision (E : Caam.Platform) (L : Hwkey.Layout) (len : Word) (m : Caam.Machine) :
    Hwkey.Provision where
  kdfv1Key := E.bytes m.mem L.kdfv1Key 32
  rpmbKeyblobLen := len
  rpmbKeyblob := E.bytes m.mem L.rpmbKeyblob Hwkey.rpmbkeyLen

/-- The call of `caam_decap_blob` in `get_rpmb_ss_auth_key`. -/
def unwrapRpmb (E : Caam.Platform) (L : Hwkey.Layout) : Caam.Drv Word :=
  Caam.caamDecapBlob E L.skeymod 16 L.keyData L.rpmbKeyblob 32

/-- What the event has unwrapping the RPMB key yield is what the driver yields in this state, if
it returns, and the driver is called for nothing else. -/
structure OnCaam (E : Caam.Platform) (L : Hwkey.Layout) (s : App (Caam.caamDev E L.rngData))
    (e : Event (Caam.caamDev E L.rngData)) : Prop where
  succeeds : (unwrapRpmb E L s.dev).1 = .ok Caam.caamSuccess →
    e.crypto.decap Hwkey.skeymod s.hwkey.prov.rpmbKeyblob Hwkey.rpmbSsAuthKeySize =
      some (.ok (E.bytes (unwrapRpmb E L s.dev).2.mem L.keyData 32))
  fails : ∀ rc, (unwrapRpmb E L s.dev).1 = .ok rc → rc ≠ Caam.caamSuccess → ∃ written,
    e.crypto.decap Hwkey.skeymod s.hwkey.prov.rpmbKeyblob Hwkey.rpmbSsAuthKeySize =
      some (.fail written)
  stops : ∀ halt, (unwrapRpmb E L s.dev).1 = .error halt →
    e.crypto.decap Hwkey.skeymod s.hwkey.prov.rpmbKeyblob Hwkey.rpmbSsAuthKeySize = none
  jobs : e.jobs s.dev = s.dev ∨ e.jobs s.dev = (unwrapRpmb E L s.dev).2

/-- There is no outcome exactly if the driver does not return. -/
lemma OnCaam.decap_eq_none {s : App (Caam.caamDev E L.rngData)}
    {e : Event (Caam.caamDev E L.rngData)} (h : OnCaam E L s e) :
    e.crypto.decap Hwkey.skeymod s.hwkey.prov.rpmbKeyblob Hwkey.rpmbSsAuthKeySize = none ↔
      ∃ halt, (unwrapRpmb E L s.dev).1 = .error halt := by
  rcases hrun : (unwrapRpmb E L s.dev).1 with halt | rc
  · exact iff_of_true (h.stops halt hrun) ⟨halt, rfl⟩
  · refine iff_of_false (fun hnone => ?_) (by simp)
    by_cases hrc : rc = Caam.caamSuccess
    · rw [h.succeeds (hrc ▸ hrun)] at hnone
      exact absurd hnone (by simp)
    · obtain ⟨written, hfail⟩ := h.fails rc hrun hrc
      rw [hfail] at hnone
      exact absurd hnone (by simp)

/-- The application started on a machine, the key box included. -/
def appOnCaam (E : Caam.Platform) (L : Hwkey.Layout) (K : Config) (m₀ : Caam.Machine) :
    System (App (Caam.caamDev E L.rngData)) (Event (Caam.caamDev E L.rngData)) Stop where
  init s := ∃ (len : Word) (m : Caam.Machine) (b : Boot (Caam.caamDev E L.rngData)),
    Hwkey.startUp E L m₀ = (.ok len, m) ∧ b.dev = m ∧ b.keySlots = Hwkey.keys K.proto ∧
      b.prov = L.provision E len m ∧ boot b = .ok s
  admits s e := EventOk s e ∧ OnCaam E L s e
  step := step K

lemma boot_static {D : Hwrng.RngDev} {b : Boot D} {s : App D} (h : boot b = .ok s) :
    s.dev = b.dev ∧ s.hwkey.keySlots = b.keySlots ∧ s.hwkey.prov = b.prov := by
  obtain ⟨sys, -, hs⟩ := Except.bind_eq_ok.mp h
  rw [← Except.ok.inj hs]
  exact ⟨rfl, rfl, rfl⟩

/-! ## What no step touches -/

/-- The memory that is written while events are served. -/
def Hwkey.Layout.scratch (E : Caam.Platform) (L : Hwkey.Layout) : Set ℕ :=
  E.cells L.keyData 2048 ∪ E.cells L.rngData 4096

lemma Hwrng.Passed.memory (hE : E.Sound) {rngData : ℕ}
    (hinj : Set.InjOn E.mmu (range rngData 4096)) {U : Uapi} {send : Handle → ℤ} {ps : List Ptr}
    {w w' : Hwrng.World (Caam.caamDev E rngData)} (h : Hwrng.Passed U send ps w w') :
    Caam.SameOutside (E.cells rngData 4096) (w.dev : Caam.Machine).mem
      (w'.dev : Caam.Machine).mem := by
  have hget : ∀ {m m' : Caam.Machine} {n : Word} {data},
      (Caam.caamDev E rngData).get m (Hwrng.chunk n) = some (m', data) →
      Caam.SameOutside (E.cells rngData 4096) m.mem m'.mem := by
    intro m m' n data hget
    have hle : (Hwrng.chunk n).toNat ≤ 4096 := by
      rw [Hwrng.chunk_toNat]
      exact min_le_right _ _
    exact (Caam.caamDev_filled hE hinj hle hget).1.same.mono (E.cells_mono _ hle)
  refine h.invariant (fun v => Caam.SameOutside (E.cells rngData 4096) (w.dev : Caam.Machine).mem
    (v.dev : Caam.Machine).mem) ?_ (.refl _ _)
  intro p c v v' more hv _ _ hserved
  cases hserved with
  | skipped => exact hv
  | blocked _ h => exact hv.trans (hget h)
  | failed _ h => exact hv.trans (hget h)
  | drained _ h => exact hv.trans (hget h)
  | partly _ h => exact hv.trans (hget h)

lemma App.deliver_dev {D : Hwrng.RngDev} (s : App D) (e : Event D) : (s.deliver e).dev = s.dev := by
  rw [App.deliver]
  split <;> rfl

/-- A step writes to `key_data` and `rng_data` only. -/
lemma step_memory (hE : E.Sound) (hL : L.Apart E) {s t : App (Caam.caamDev E L.rngData)}
    {e : Event (Caam.caamDev E L.rngData)} (hs : s.Wf) (he : EventOk s e) (hcaam : OnCaam E L s e)
    (h : step K s e = .ok t) :
    Caam.SameOutside (L.scratch E) (s.dev : Caam.Machine).mem (t.dev : Caam.Machine).mem := by
  have hinj := hL.inj (L.rngData, 4096) (by simp [Hwkey.Layout.buffers])
  have hjobs : Caam.SameOutside (L.scratch E) (s.dev : Caam.Machine).mem
      (e.jobs s.dev : Caam.Machine).mem := by
    obtain hidle | hrun := hcaam.jobs
    · rw [hidle]
      exact .refl _ _
    · rw [hrun]
      have hsize : Caam.BlobSize 32 := ⟨by decide, by decide⟩
      have hframe : Caam.SameOutside (E.cells L.keyData 32) (s.dev : Caam.Machine).mem
          (unwrapRpmb E L s.dev).2.mem := Caam.caamDecapBlob_frame hE hsize s.dev
      exact hframe.mono ((E.cells_mono _ (by decide)).trans Set.subset_union_left)
  have hd := step_ok hs he h
  rw [← s.deliver_dev e] at hjobs ⊢
  cases hd with
  | empty => exact .refl _ _
  | hwrngPort _ haccepted => cases haccepted <;> exact .refl _ _
  | hwkeyPort => exact hjobs
  | @hwrngChan p c w₁ w₂ _ _ _ _ _ hhandled hpassed =>
    have hsame : w₁.dev = (s.deliver e).dev := by cases hhandled <;> rfl
    have hpass := hpassed.memory hE hinj
    rw [hsame] at hpass
    exact hpass.mono Set.subset_union_right
  | hwkeyChan => exact hjobs
  | noHandler => exact .refl _ _

/-! ## Every later state -/

/-- What holds between any two events. -/
structure Kept (E : Caam.Platform) (L : Hwkey.Layout) (K : Config) (len : Word) (m : Caam.Machine)
    (s : App (Caam.caamDev E L.rngData)) : Prop where
  serving : Serving K s
  prov : s.hwkey.prov = L.provision E len m
  memory : Caam.SameOutside (L.scratch E) m.mem (s.dev : Caam.Machine).mem

/-- A buffer that is not written to while events are served is what start-up left in it. -/
lemma Kept.bytes (hL : L.Apart E) {len : Word} {m : Caam.Machine}
    {s : App (Caam.caamDev E L.rngData)} (h : Kept E L K len m s) {va n : ℕ}
    (hva : (va, n) ∈ L.buffers.take 4) :
    E.bytes (s.dev : Caam.Machine).mem va n = E.bytes m.mem va n := by
  have hdisj := hL.disjoint
  simp only [Hwkey.Layout.buffers, List.map_cons, List.pairwise_cons, List.mem_cons,
    forall_eq_or_imp] at hdisj
  obtain ⟨⟨-, -, -, hrk, hrr, -⟩, ⟨-, -, hsk, hsr, -⟩, ⟨-, hbk, hbr, -⟩, ⟨hkk, hkr, -⟩, -⟩ := hdisj
  refine E.bytes_of_sameOutside h.memory (Set.disjoint_union_left.mpr ?_)
  simp only [Hwkey.Layout.buffers, List.take_succ_cons, List.take_zero, List.mem_cons,
    List.not_mem_nil, Prod.mk.injEq, or_false] at hva
  rcases hva with ⟨rfl, rfl⟩ | ⟨rfl, rfl⟩ | ⟨rfl, rfl⟩ | ⟨rfl, rfl⟩
  · exact ⟨hrk.symm, hrr.symm⟩
  · exact ⟨hsk.symm, hsr.symm⟩
  · exact ⟨hbk.symm, hbr.symm⟩
  · exact ⟨hkk.symm, hkr.symm⟩

/-- A run of the application on the CAAM is one of the application. -/
lemma serving_of_reachable {m₀ : Caam.Machine} {s : App (Caam.caamDev E L.rngData)}
    (hs : (appOnCaam E L K m₀).Reachable s) : Serving K s := by
  obtain ⟨s₀, es, ⟨_, _, b, -, -, hslots, -, hboot⟩, hrun⟩ := hs
  have hadmits : ∀ t e, (appOnCaam E L K m₀).admits t e → EventOk t e := fun _ _ he => he.1
  exact ⟨s₀, es, ⟨b, hboot⟩, (boot_static hboot).2.1.trans hslots,
    System.Run.mono (U := app _ K) hadmits (fun _ _ => rfl) hrun⟩

/-- No step touches what start-up left. -/
lemma kept_of_reachable (hE : E.Sound) (hL : L.Apart E) {m₀ m : Caam.Machine} {len : Word}
    (hstart : Hwkey.startUp E L m₀ = (.ok len, m)) {s : App (Caam.caamDev E L.rngData)}
    (hs : (appOnCaam E L K m₀).Reachable s) : Kept E L K len m s := by
  have hserving := serving_of_reachable hs
  obtain ⟨s₀, es, ⟨len', m', b, hstart', hdev, -, hprov, hboot⟩, hrun⟩ := hs
  obtain ⟨rfl, rfl⟩ : len' = len ∧ m' = m := by simpa using hstart'.symm.trans hstart
  obtain ⟨hdev₀, -, hprov₀⟩ := boot_static hboot
  let I : App (Caam.caamDev E L.rngData) → Prop := fun t =>
    t.Wf ∧ t.hwkey.prov = L.provision E len' m' ∧
      Caam.SameOutside (L.scratch E) m'.mem (t.dev : Caam.Machine).mem
  have hI : I s := by
    refine hrun.invariant I ?_ ⟨boot_wf hboot, hprov₀.trans hprov, ?_⟩
    · rintro t e u ⟨hwf, hp, hmem⟩ ⟨he, hcaam⟩ hu
      have hwf' := (step_ok hwf he hu).wf (hwf.deliver e) he.deliver
      exact ⟨hwf', (step_static hwf he hu).2.trans hp,
        hmem.trans (step_memory hE hL hwf he hcaam hu)⟩
    · rw [hdev₀, hdev]
      exact .refl _ _
  exact ⟨hserving, hI.2.1, hI.2.2⟩

/-! ## The request for the RPMB key -/

/-- The event has one response sent on its channel, with a status and a payload. -/
def Responds (K : Config) {D : Hwrng.RngDev} (s : App D) (e : Event D) (status : Word)
    (data : List UInt8) : Prop :=
  ∃ t x, step K s e = .ok t ∧ t.hwkey.log = x :: s.hwkey.log ∧ x.chan = e.handle ∧
    x.rsp.status = status ∧ x.rspData = data

/-- The buffers of the unwrapping, the job and the rings can be prepared. -/
def RpmbPrepares (E : Caam.Platform) (L : Hwkey.Layout) : Prop :=
  ∀ b ∈ ([⟨L.skeymod, 16, .toDevice⟩, ⟨L.rpmbKeyblob, 80, .toDevice⟩,
    ⟨L.keyData, 32, .fromDevice⟩, ⟨E.gJobDsc, 32, .toDevice⟩,
    ⟨E.gRings, Caam.sizeofGRings, .toDevice⟩] : List Caam.Buf), E.Prepares b

/-- The answer to the request, as the package in secure RAM has it. -/
structure RpmbKeyServed (E : Caam.Platform) (L : Hwkey.Layout) (K : Config) (keyblobLen : Word)
    (keyblob : List UInt8) (s : App (Caam.caamDev E L.rngData))
    (e : Event (Caam.caamDev E L.rngData)) : Prop where
  wrapped : keyblobLen = BitVec.ofNat 32 Hwkey.rpmbkeyLen → ∀ nonce key,
    keyblob = E.core.encap nonce Hwkey.skeymod key → RpmbPrepares E L →
      (E.job (s.dev : Caam.Machine).nJob).Good →
        key.length = 32 ∧ Responds K s e K.proto.noError key
  absent : keyblobLen ≠ BitVec.ofNat 32 Hwkey.rpmbkeyLen → Responds K s e K.proto.errNotFound []
  failed : keyblobLen = BitVec.ofNat 32 Hwkey.rpmbkeyLen →
    ∀ rc, (unwrapRpmb E L s.dev).1 = .ok rc → rc ≠ Caam.caamSuccess →
      Responds K s e K.proto.errGeneric []

/-- The request is answered. -/
lemma AsksRpmbKey.responds {D : Hwrng.RngDev} {s : App D} (hs : Serving K s)
    {e : Event D} (he : EventOk s e) (h : AsksRpmbKey K s e) {r : Word × List UInt8}
    (hr : Hwkey.keyAnswer K.proto K.unittest s.hwkey.prov e.crypto Hwkey.ssUuid
      Hwkey.rpmbSsAuthKeyId = some r) : Responds K s e r.1 r.2 := by
  obtain ⟨p, c, o, hcookie, hc, ho, hpeer⟩ := h.client
  have hflags : e.flags ≠ {} := by
    intro hempty
    have hmsg := h.msg
    rw [hempty] at hmsg
    exact absurd hmsg (by decide)
  have hchan := he.chan_eq hs.wf hcookie hc
  have huuid : c.uuid = Hwkey.ssUuid := by
    obtain ⟨o', ho', hctx⟩ := hs.wf.lifecycle.chan_open hc
    have ho' : s.sys.objs e.handle = some o' := hchan ▸ ho'
    obtain rfl := Option.some.inj (ho.symm.trans ho')
    exact (hs.wf.lifecycle.ctx_uuid e.handle o p c ho hctx hc).symm.trans hpeer
  have hans : Hwkey.answer K.proto K.unittest s.hwkey.prov e.crypto c.uuid
      (Hwkey.received K.proto e.inbound) =
        some ({ (Hwkey.received K.proto e.inbound).hdr with status := r.1 }, r.2) := by
    rw [Hwkey.answer, if_pos h.cmd, huuid, h.slot, hr]
    rfl
  obtain ⟨r', reqData, heq, -, hok⟩ :=
    step_of_request hs he hflags hcookie hc h.errors h.hup h.msg h.readable hans
  obtain ⟨hhdr, hdata⟩ := Prod.mk.inj heq
  have hlog : (s.deliver e).hwkey.log = s.hwkey.log := congrArg Hwkey.Data.log (s.deliver_hwkey e)
  exact ⟨_, _, hok, congrArg (_ :: ·) hlog, hchan, congrArg Hwkey.HwkeyMsg.status hhdr, hdata⟩

/-- What a later state has of the package, when the length is that of a blob. -/
lemma Kept.keyblob (hL : L.Apart E) {m₀ m : Caam.Machine} {len : Word}
    (hun : Hwkey.Unpacked E L m₀ m len) {s : App (Caam.caamDev E L.rngData)}
    (h : Kept E L K len m s)
    (hlen : le32 (E.bytes m₀.mem (L.sramBase + Hwkey.offsetofRpmbKeyblobLen) 4) =
      BitVec.ofNat 32 Hwkey.rpmbkeyLen) :
    s.hwkey.prov.rpmbKeyblobLen = BitVec.ofNat 32 Hwkey.rpmbkeyLen ∧
      E.bytes (s.dev : Caam.Machine).mem L.rpmbKeyblob Hwkey.rpmbkeyLen =
        E.bytes m₀.mem (L.sramBase + Hwkey.offsetofRpmbKeyblob) Hwkey.rpmbkeyLen := by
  obtain ⟨hlen', hblob⟩ := hun.present hlen
  refine ⟨(congrArg Hwkey.Provision.rpmbKeyblobLen h.prov).trans hlen', ?_⟩
  exact (h.bytes hL (by simp [Hwkey.Layout.buffers])).trans hblob

/-- The RPMB key is unwrapped when its buffers can be prepared and the job is good. -/
lemma unwrapRpmb_ok (hE : E.Sound) {m : Caam.Machine} {nonce : ℕ} {key : List UInt8}
    (hskeymod : E.bytes m.mem L.skeymod 16 = Hwkey.skeymod)
    (hblob : E.bytes m.mem L.rpmbKeyblob 80 = E.core.encap nonce Hwkey.skeymod key)
    (hkey : key.length = 32) (hprep : RpmbPrepares E L) (hgood : (E.job m.nJob).Good) :
    (unwrapRpmb E L m).1 = .ok Caam.caamSuccess ∧
      E.bytes (unwrapRpmb E L m).2.mem L.keyData 32 = key := by
  simp only [RpmbPrepares, List.forall_mem_cons] at hprep
  obtain ⟨hkmod, hkeyblob, hplain, hjob, hrings, -⟩ := hprep
  have hsize : Caam.BlobSize 32 := ⟨by decide, by decide⟩
  have hdecap : E.core.decap (E.bytes m.mem L.skeymod 16) (E.bytes m.mem L.rpmbKeyblob 80) =
      some key := by
    rw [hskeymod, hblob]
    exact E.core.decap_encap _ _ _
  obtain ⟨m', hok⟩ :=
    Caam.caamDecapBlob_ok hE hsize hkmod hkeyblob hplain hjob hrings hgood hdecap hkey
  obtain ⟨hread, -⟩ := Caam.caamDecapBlob_success hE hsize hok hdecap hkey
  have hunwrap : unwrapRpmb E L m = (.ok Caam.caamSuccess, m') := hok
  rw [hunwrap]
  exact ⟨rfl, hread⟩

/-- A key box that start-up accepts has the magic and is wiped, and in every later state the
secure storage server gets what was wrapped in it. -/
theorem rpmb_provisioning (hE : E.Sound) (hkey : ∀ key, (E.core.masterKey key).length ≤ 32)
    (hL : L.Apart E) (hK : K.unittest = false) {m₀ m : Caam.Machine} {len : Word}
    (hskeymod : E.bytes m₀.mem L.skeymod 16 = Hwkey.skeymod)
    (hstart : Hwkey.startUp E L m₀ = (.ok len, m)) :
    E.bytes m₀.mem L.sramBase 4 = [0x21, 0x4b, 0x53, 0] ∧
      E.bytes m.mem L.sramBase Hwkey.sizeofKeyslotPackage =
        List.replicate Hwkey.sizeofKeyslotPackage 0 ∧
      ∀ s, (appOnCaam E L K m₀).Reachable s → ∀ e, EventOk s e → OnCaam E L s e →
        AsksRpmbKey K s e →
          RpmbKeyServed E L K (le32 (E.bytes m₀.mem (L.sramBase + Hwkey.offsetofRpmbKeyblobLen) 4))
            (E.bytes m₀.mem (L.sramBase + Hwkey.offsetofRpmbKeyblob) Hwkey.rpmbkeyLen) s e := by
  have hun := Hwkey.startUp_spec hE hkey hL hstart
  refine ⟨hun.magic, hun.wiped, fun s hs e he hcaam hask => ?_⟩
  have hkept := kept_of_reachable hE hL hstart hs
  have hserving := hkept.serving
  refine ⟨fun hlen nonce key hblob hprep hgood => ?_, fun hlen => ?_,
    fun hlen rc hrc hfailed => ?_⟩
  · -- the key that was wrapped
    obtain ⟨hlen', hcopy⟩ := hkept.keyblob hL hun hlen
    have hmod : E.bytes (s.dev : Caam.Machine).mem L.skeymod 16 = Hwkey.skeymod :=
      (hkept.bytes hL (by simp [Hwkey.Layout.buffers])).trans (hun.skeymod.trans hskeymod)
    have hkeylen : key.length = 32 := by
      have hwhole := congrArg List.length hblob
      rw [E.length_bytes, E.core.encap_length] at hwhole
      simpa [Hwkey.rpmbkeyLen, Hwkey.caamKbHeaderLen] using hwhole.symm
    obtain ⟨hok, hread⟩ := unwrapRpmb_ok hE hmod (hcopy.trans hblob) hkeylen hprep hgood
    have hdecap := hcaam.succeeds hok
    rw [hread] at hdecap
    refine ⟨hkeylen, hask.responds hserving he (r := (K.proto.noError, key)) ?_⟩
    rw [Hwkey.keyAnswer, if_pos ⟨rfl, rfl, hlen'⟩, hdecap]
  · -- the length was not that of a blob
    have hprov : s.hwkey.prov.rpmbKeyblobLen = 0 :=
      (congrArg Hwkey.Provision.rpmbKeyblobLen hkept.prov).trans (hun.absent hlen).1
    refine hask.responds hserving he (r := (K.proto.errNotFound, [])) ?_
    have hno : ¬ Hwkey.Unwraps s.hwkey.prov Hwkey.ssUuid Hwkey.rpmbSsAuthKeyId := by
      rintro ⟨-, -, hblob⟩
      rw [hprov] at hblob
      exact absurd hblob (by decide)
    rw [Hwkey.keyAnswer, if_neg hno, hK,
      if_neg fun h => absurd h.1 (by decide)]
  · obtain ⟨hlen', -⟩ := hkept.keyblob hL hun hlen
    obtain ⟨written, hdecap⟩ := hcaam.fails rc hrc hfailed
    refine hask.responds hserving he (r := (K.proto.errGeneric, [])) ?_
    rw [Hwkey.keyAnswer, if_pos ⟨rfl, rfl, hlen'⟩, hdecap]

namespace Demo

/-- Memory is mapped as it is, the random number generator is instantiated. -/
def board : Caam.Platform :=
  { Caam.Demo.platform with read := fun _ reg => if reg = .rdsta then 0x40000001 else 0 }

/-- Where the buffers are. -/
def layout : Hwkey.Layout := ⟨0x10000, 0x3000, 0x3100, 0x3200, 0x4000, 0x8000⟩

/-- The start of a package: a key of one byte over and over, behind a header of zeros. -/
def kbox (b : UInt8) : List UInt8 :=
  [0x21, 0x4b, 0x53, 0, 80, 0, 0, 0] ++ List.replicate 48 0 ++ List.replicate 32 b

/-- The package is in secure RAM, and something else everywhere but in the key modifier. -/
def loadedAt (L : Hwkey.Layout) (other b : UInt8) : Caam.Machine :=
  { Caam.Demo.machine with
    mem := board.put (board.put (fun _ => other) L.skeymod Hwkey.skeymod) L.sramBase (kbox b) }

/-- The package wraps a key of nines. -/
def loaded : Caam.Machine := loadedAt layout 0 9

/-- Start-up has returned. -/
def unpacked : Caam.Machine := Caam.Demo.after (Hwkey.startUp board layout loaded)

/-- The provider of random bytes on the board. -/
def caamDev : Hwrng.RngDev := Caam.caamDev board layout.rngData

/-- Unwrapping yields a key of one byte over and over, or does not return. -/
def unwrapping (b : Option UInt8) : Hwkey.Crypto :=
  { crypto with
    decap := fun _ _ n => b.map fun b => .ok (List.replicate n b)
    decap_ok := by
      rintro _ _ n _ h
      obtain ⟨b, -, h⟩ := Option.map_eq_some_iff.mp h
      rw [← Hwkey.CryptoOut.ok.inj h, List.length_replicate]
    decap_fail := by simp }

/-- The application just after start-up, but for its clients. -/
def booted (E : Caam.Platform) (L : Hwkey.Layout) (len : Word) (m : Caam.Machine) (sys : Sys) :
    App (Caam.caamDev E L.rngData) where
  sys := sys
  reqList := []
  dev := m
  rngLog := []
  hwkey := {
    keyData := List.replicate Hwkey.hwkeyMaxPayloadSize 0
    reqData := List.replicate (Hwkey.hwkeyMaxPayloadSize + 1) 0
    keySlots := Hwkey.keys proto
    prov := L.provision E len m
    retired := 0
    log := [] }

/-- A client of the HWKEY service connects. -/
def connectKey {D : Hwrng.RngDev} (b : Option UInt8) (h : Handle) (peer : Uuid) (p : Ptr) :
    Event D :=
  { connect .hwkey h peer p with crypto := unwrapping b, jobs := id }

/-- The secure storage server has connected. -/
def storageSys : Sys := started.sys.connect 5 Hwkey.ssUuid 0 (.hwkey ⟨5, Hwkey.ssUuid⟩)

/-- It sends a request. -/
def request {D : Hwrng.RngDev} (b : Option UInt8) (bytes : List UInt8) : Event D :=
  { message .hwkey 5 0 bytes with crypto := unwrapping b, jobs := id }

/-- It asks for its key. -/
def askRpmb {D : Hwrng.RngDev} (b : Option UInt8) : Event D :=
  request b (List.replicate 20 0 ++ Hwkey.rpmbSsAuthKeyId)

/-- The application has been started on the package, and the secure storage server is connected. -/
def storage : App caamDev := booted board layout 80 unpacked storageSys

/-- The secure storage server asks for its key, and unwrapping yields the key of nines. -/
def askRpmbKey : Event caamDev := askRpmb (some 9)

section

variable {m₀ m : Caam.Machine} {len : Word} {b : Option UInt8}

lemma init_booted (hstart : Hwkey.startUp E L m₀ = (.ok len, m)) :
    (appOnCaam E L config m₀).init (booted E L len m started.sys) := by
  refine ⟨len, m, {
    hwrngPort := 1
    hwrngCookie := ⟨0, le_rfl⟩
    hwkeyPort := 2
    hwkeyCookie := ⟨0, le_rfl⟩
    dev := m
    keySlots := Hwkey.keys proto
    prov := L.provision E len m
    ports_ne := by decide }, hstart, rfl, rfl, rfl, ?_⟩
  simp [boot, booted, started, Hwrng.hwrngStartService, Hwkey.hwkeyStartService, Sys.setCookie]

/-- The events agree with a driver that does not return. -/
lemma onCaam_of_halt {halt : Caam.Halt} (hstop : (unwrapRpmb E L m).1 = .error halt) {sys : Sys}
    {e : Event (Caam.caamDev E L.rngData)} (hcrypto : e.crypto = unwrapping none)
    (hjobs : e.jobs = id) : OnCaam E L (booted E L len m sys) e := by
  have hdev : (booted E L len m sys).dev = m := rfl
  refine ⟨fun hok => ?_, fun rc hrc _ => ?_, fun _ _ => ?_, Or.inl (congrFun hjobs _)⟩
  · rw [hdev, hstop] at hok
    exact absurd hok (by simp)
  · rw [hdev, hstop] at hrc
    exact absurd hrc (by simp)
  · rw [hcrypto]
    rfl

/-- The events agree with a driver that yields this key. -/
lemma onCaam_booted {key : UInt8} (hok : (unwrapRpmb E L m).1 = .ok Caam.caamSuccess)
    (hread : E.bytes (unwrapRpmb E L m).2.mem L.keyData 32 = List.replicate 32 key) {sys : Sys}
    {e : Event (Caam.caamDev E L.rngData)} (hcrypto : e.crypto = unwrapping (some key))
    (hjobs : e.jobs = id) : OnCaam E L (booted E L len m sys) e := by
  have hdev : (booted E L len m sys).dev = m := rfl
  refine ⟨fun _ => ?_, fun rc hrc hne => ?_, fun halt hhalt => ?_, Or.inl (congrFun hjobs _)⟩
  · rw [hcrypto, hdev, hread]
    rfl
  · rw [hdev, hok] at hrc
    exact absurd (Except.ok.inj hrc).symm hne
  · rw [hdev, hok] at hhalt
    exact absurd hhalt (by simp)

lemma reachable_booted (hstart : Hwkey.startUp E L m₀ = (.ok len, m))
    (hcaam : ∀ (sys : Sys) (e : Event (Caam.caamDev E L.rngData)), e.crypto = unwrapping b →
      e.jobs = id → OnCaam E L (booted E L len m sys) e) :
    (appOnCaam E L config m₀).Reachable (booted E L len m storageSys) := by
  refine ⟨_, [connectKey b 5 Hwkey.ssUuid 0], init_booted hstart,
    .one ⟨?_, hcaam _ _ rfl rfl⟩ ?_⟩
  · exact ⟨⟨_, rfl, rfl, rfl⟩, fun _ => rfl, fun _ _ => rfl, fun _ => le_rfl⟩
  · have hsys := Sys.accept_store_setCookie started.sys 5 Hwkey.ssUuid 0
      (.hwkey ⟨5, Hwkey.ssUuid⟩) (rfl : (⟨0, le_rfl⟩ : Rc).1 = 0)
    exact congrArg (fun sys => (.ok (booted E L len m sys) :
      Except Stop (App (Caam.caamDev E L.rngData)))) hsys

lemma eventOk_request {D : Hwrng.RngDev} {s : App D} {o : Obj} (ho : s.sys.objs 5 = some o)
    (hcookie : o.cookie = some (.ctx 0)) (hsrv : o.srv = .hwkey) (bytes : List UInt8) :
    EventOk s (request b bytes) :=
  ⟨⟨o, ho, hcookie.symm, hsrv.symm⟩, fun h => absurd h (by change ¬ (0 : ℤ) ≤ -1; decide),
    fun _ h => absurd h (by simp [request, message]), fun _ => le_rfl⟩

lemma asks_askRpmb : AsksRpmbKey config (booted E L len m storageSys) (askRpmb b) where
  client := ⟨0, ⟨5, Hwkey.ssUuid⟩, _, rfl, rfl, rfl, rfl⟩
  errors := rfl
  hup := rfl
  msg := rfl
  readable := (by decide : ¬ Hwkey.Unreadable proto (askRpmb (D := caamDev) none).inbound)
  cmd := rfl
  slot := (by decide :
    Buffer.cstr (Hwkey.received proto (askRpmb (D := caamDev) none).inbound).data =
      Hwkey.rpmbSsAuthKeyId)

end

lemma sound_board : board.Sound := by
  intro n va len dir allowPartial hret
  obtain ⟨hfits, heq, hle, hpos, hpage, hmaps⟩ :=
    Caam.Demo.sound_platform n va len dir allowPartial hret
  exact ⟨hfits, heq, hle, hpos, hpage, hmaps⟩

lemma masterKey_board (key : List UInt8) : (board.core.masterKey key).length ≤ 32 := le_rfl

lemma startUp_loaded : Hwkey.startUp board layout loaded = (.ok 80, unpacked) :=
  Caam.Demo.eq_after (by decide +kernel)

lemma skeymod_loaded : board.bytes loaded.mem layout.skeymod 16 = Hwkey.skeymod := by
  decide +kernel

lemma keyblob_loaded :
    board.bytes loaded.mem (layout.sramBase + Hwkey.offsetofRpmbKeyblob) Hwkey.rpmbkeyLen =
      board.core.encap 0 Hwkey.skeymod (List.replicate 32 9) := by
  decide +kernel

/-- Buffers that lie one behind the other are apart. -/
lemma apart_of_le {L : Hwkey.Layout} (hskeymod : L.skeymod + 16 ≤ L.rpmbKeyblob)
    (hrpmb : L.rpmbKeyblob + Hwkey.rpmbkeyLen ≤ L.kdfv1Key) (hkdf : L.kdfv1Key + 32 ≤ L.keyData)
    (hkey : L.keyData + 2048 ≤ L.rngData) (hrng : L.rngData + 4096 ≤ L.sramBase) :
    L.Apart board := by
  have hrpmbkeyLen : Hwkey.rpmbkeyLen = 80 := rfl
  constructor
  · simp only [Hwkey.Layout.buffers, List.map_cons, List.map_nil, List.pairwise_cons,
      List.mem_cons, List.not_mem_nil, or_false, forall_eq_or_imp, forall_eq, false_implies,
      implies_true, List.Pairwise.nil, and_true]
    have hapart {a b n : ℕ} (k : ℕ) (h : a + n ≤ b) :
        Disjoint (board.cells a n) (board.cells b k) := Caam.Demo.disjoint_cells k h
    refine ⟨⟨?_, ?_, ?_, ?_, ?_⟩, ⟨?_, ?_, ?_, ?_⟩, ⟨?_, ?_, ?_⟩, ⟨?_, ?_⟩, ?_⟩
    all_goals first
      | exact hapart _ (by omega)
      | exact (hapart _ (by omega)).symm
  · intro b _
    exact Function.injective_id.injOn

lemma apart_layout : layout.Apart board :=
  apart_of_le (by decide) (by decide) (by decide) (by decide) (by decide)

lemma prepares_board : RpmbPrepares board layout := by
  simp only [RpmbPrepares, List.forall_mem_cons]
  exact ⟨fun _ => rfl, fun _ => rfl, fun _ => rfl, fun _ => rfl, fun _ => rfl, by simp⟩

lemma good_board (n : ℕ) : (board.job n).Good :=
  ⟨rfl, show (0 : Word) &&& Caam.jobRingSts = 0 by decide, fun _ => rfl⟩

/-- On the board unwrapping yields what was wrapped. -/
lemma onCaam_board {L : Hwkey.Layout} (hL : L.Apart board) {m₀ m : Caam.Machine} {len : Word}
    (hskeymod : board.bytes m₀.mem L.skeymod 16 = Hwkey.skeymod)
    (hstart : Hwkey.startUp board L m₀ = (.ok len, m)) {key : UInt8}
    (hlen : le32 (board.bytes m₀.mem (L.sramBase + Hwkey.offsetofRpmbKeyblobLen) 4) =
      BitVec.ofNat 32 Hwkey.rpmbkeyLen)
    (hblob : board.bytes m₀.mem (L.sramBase + Hwkey.offsetofRpmbKeyblob) Hwkey.rpmbkeyLen =
      board.core.encap 0 Hwkey.skeymod (List.replicate 32 key))
    (hprep : RpmbPrepares board L) {sys : Sys} {e : Event (Caam.caamDev board L.rngData)}
    (hcrypto : e.crypto = unwrapping (some key)) (hjobs : e.jobs = id) :
    OnCaam board L (booted board L len m sys) e := by
  have hun := Hwkey.startUp_spec sound_board masterKey_board hL hstart
  obtain ⟨-, hcopied⟩ := hun.present hlen
  obtain ⟨hok, hread⟩ := unwrapRpmb_ok sound_board (hun.skeymod.trans hskeymod)
    (hcopied.trans hblob) List.length_replicate hprep (good_board _)
  exact onCaam_booted hok hread hcrypto hjobs

lemma onCaam_loaded (sys : Sys) {e : Event caamDev} (hcrypto : e.crypto = unwrapping (some 9))
    (hjobs : e.jobs = id) : OnCaam board layout (booted board layout 80 unpacked sys) e :=
  onCaam_board apart_layout skeymod_loaded startUp_loaded (by decide +kernel) keyblob_loaded
    prepares_board hcrypto hjobs

lemma reachable_storage : (appOnCaam board layout config loaded).Reachable storage :=
  reachable_booted startUp_loaded fun sys _ => onCaam_loaded sys

end Demo

/-- A key of nines, wrapped by the boot loader, reaches the secure storage server. -/
theorem rpmb_provisioning_board :
    Responds Demo.config Demo.storage Demo.askRpmbKey Demo.proto.noError (List.replicate 32 9) := by
  obtain ⟨-, -, hserved⟩ := rpmb_provisioning (K := Demo.config) Demo.sound_board
    Demo.masterKey_board Demo.apart_layout rfl Demo.skeymod_loaded Demo.startUp_loaded
  have hserved := hserved _ Demo.reachable_storage _ (Demo.eventOk_request rfl rfl rfl _)
    (Demo.onCaam_loaded _ rfl rfl) Demo.asks_askRpmb
  exact (hserved.wrapped (by decide +kernel) 0 _ Demo.keyblob_loaded Demo.prepares_board
    (Demo.good_board _)).2

end TrustyLkNxp
