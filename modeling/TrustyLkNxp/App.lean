import TrustyLkNxp.Lib.Run
import TrustyLkNxp.Hwrng.Service
import TrustyLkNxp.Hwkey.Service

/-!
# The application (`main.c`)

Both services run in one event loop.  An event names a handle and carries the cookie last
set on it; `dispatch_event` follows the cookie to the handler.  The kernel is the
environment: this file states what it promises (`EventOk`) and puts the loop and the kernel
together into one system of which the runs of the application are the runs.
-/

namespace TrustyLkNxp

open Ipc EventSystem

variable {D : Hwrng.RngDev}

/-- The state of the application between two events, with the handles the kernel holds open
for it. -/
structure App (D : Hwrng.RngDev) where
  sys : Sys
  /-- `hwrng_req_list`. -/
  reqList : List Ptr
  /-- The random number provider. -/
  dev : D.σ
  /-- The history of the HWRNG service. -/
  rngLog : List Hwrng.Act
  /-- The static data of the HWKEY service. -/
  hwkey : Hwkey.Data

/-- An event, with the answers to the calls made while it is handled. -/
structure Event (D : Hwrng.RngDev) where
  handle : Handle
  /-- The service the handle belongs to. The code does not see it. -/
  srv : Service
  flags : Flags
  cookie : Option Cookie
  accept : ℤ
  peer : Uuid
  calloc : Option Ptr
  setCookie : Rc
  inbound : Inbound
  send : Handle → ℤ
  crypto : Hwkey.Crypto
  /-- What the jobs the HWKEY service starts do to the hardware the provider shares. -/
  jobs : D.σ → D.σ

namespace Event

/-- What the HWRNG service is told. -/
def hwrng (e : Event D) : Hwrng.Answers :=
  ⟨e.accept, e.peer, e.calloc, e.setCookie, e.inbound, e.send⟩

/-- What the HWKEY service is told. -/
def hwkey (e : Event D) : Hwkey.Answers :=
  ⟨e.accept, e.peer, e.calloc, e.setCookie, e.inbound, e.send, e.crypto⟩

end Event

namespace App

/-- The part of the state the HWRNG service works on. -/
def hwrngWorld (s : App D) : Hwrng.World D := ⟨s.sys, s.reqList, s.dev, s.rngLog⟩

/-- The part of the state the HWKEY service works on. -/
def hwkeyWorld (s : App D) : Hwkey.World := ⟨s.sys, s.hwkey⟩

/-- The state after the HWRNG service has worked on its part. -/
def setHwrng (s : App D) (w : Hwrng.World D) : App D :=
  { s with sys := w.sys, reqList := w.reqList, dev := w.dev, rngLog := w.log }

/-- The state after the HWKEY service has worked on its part, and the hardware for it. -/
def setHwkey (s : App D) (w : Hwkey.World) (jobs : D.σ → D.σ) : App D :=
  { s with sys := w.sys, hwkey := w.data, dev := jobs s.dev }

end App

/-- The headers from outside the repository, and the build option of the unit test. -/
structure Config where
  uapi : Uapi
  proto : Hwkey.HwkeyProto
  unittest : Bool

/-- `dispatch_event`. -/
def dispatchEvent (K : Config) (s : App D) (e : Event D) : Except Stop (App D) :=
  if e.flags = {} then
    .ok s
  else
    match e.cookie with
    | some (.port .hwrng) => s.setHwrng <$> Hwrng.hwrngPortHandler e.flags e.hwrng s.hwrngWorld
    | some (.port .hwkey) =>
      (s.setHwkey · e.jobs) <$> Hwkey.hwkeyPortHandler e.flags e.hwkey s.hwkeyWorld
    | some (.ctx p) =>
      match s.sys.heap p with
      | some (.hwrng _) =>
        s.setHwrng <$> Hwrng.hwrngChanHandler K.uapi e.handle e.flags e.hwrng s.hwrngWorld p
      | some (.hwkey _) =>
        (s.setHwkey · e.jobs) <$>
          Hwkey.hwkeyChanHandler K.proto K.uapi K.unittest e.handle e.flags e.hwkey s.hwkeyWorld p
      | none => .error (.fault (.badAccess p))
    | none => do
      -- no handler: close the handle
      let sys ← s.sys.close e.handle
      return { s with sys := sys }

/-- The kernel delivers the event, after which it owes the channel no `SEND_UNBLOCKED`
event. -/
def App.deliver (s : App D) (e : Event D) : App D :=
  if e.flags.sendUnblocked then { s with sys := s.sys.setOwed e.handle false } else s

/-- The loop waits for an event and dispatches it. -/
def step (K : Config) (s : App D) (e : Event D) : Except Stop (App D) :=
  dispatchEvent K (s.deliver e) e

/-- What the kernel and the allocator promise of an event in a state. -/
structure EventOk (s : App D) (e : Event D) : Prop where
  /-- Events are delivered for open handles only, with the cookie last set. -/
  handle_open : ∃ o, s.sys.objs e.handle = some o ∧ e.cookie = o.cookie ∧ e.srv = o.srv
  /-- The handle of a new channel is not currently open. -/
  accept_fresh : 0 ≤ e.accept → s.sys.objs e.accept = none
  /-- `calloc` returns memory that is not in use. -/
  calloc_fresh : ∀ p, e.calloc = some p → s.sys.heap p = none
  /-- The jobs of the HWKEY service do not hand out random bytes. -/
  jobs_drawn : ∀ d, D.drawn d ≤ D.drawn (e.jobs d)

/-! ## Start-up -/

/-- The outcome of the calls made before the event loop is entered. -/
structure Boot (D : Hwrng.RngDev) where
  hwrngPort : ℤ
  hwrngCookie : Rc
  hwkeyPort : ℤ
  hwkeyCookie : Rc
  dev : D.σ
  keySlots : List Hwkey.HwkeyKeyslot
  prov : Hwkey.Provision
  /-- A handle in use is not handed out again. -/
  ports_ne : 0 ≤ hwrngPort → hwrngPort ≠ hwkeyPort

/-- The state in which `main` enters the event loop: the ports are open as far as they could
be created, the buffers are zero. -/
def boot (b : Boot D) : Except Stop (App D) := do
  let sys : Sys := ⟨fun _ => none, fun _ => none⟩
  let sys := Hwrng.hwrngStartService sys b.hwrngPort b.hwrngCookie
  let sys ← Hwkey.hwkeyStartService sys b.hwkeyPort b.hwkeyCookie
  return {
    sys := sys
    reqList := []
    dev := b.dev
    rngLog := []
    hwkey := {
      keyData := List.replicate Hwkey.hwkeyMaxPayloadSize 0
      reqData := List.replicate (Hwkey.hwkeyMaxPayloadSize + 1) 0
      keySlots := b.keySlots
      prov := b.prov
      retired := 0
      log := [] } }

/-- The application with its kernel. -/
def app (D : Hwrng.RngDev) (K : Config) : System (App D) (Event D) Stop where
  init s := ∃ b, boot b = .ok s
  admits := EventOk
  step := step K

/-! ## A platform to run it on

Concrete values for what comes from outside the repository: error codes and a message
layout, a stream of random bytes, and the events of a client that connects and sends one
message. -/

namespace Demo

/-- Two error codes. -/
def uapi : Uapi := ⟨-9, -32, by decide, by decide⟩

/-- Five words: command, operation id, status and two arguments. -/
def proto : Hwkey.HwkeyProto where
  sizeofHdr := 20
  decode b := ⟨le32 b, le32 (b.drop 8), le32 (b.drop 12), (b.drop 4).take 4 ++ (b.drop 16).take 4⟩
  respBit := 1
  getKeyslot := 0
  derive := 2
  kdfVersionBest := 0
  kdfVersion1 := 1
  noError := 0
  errGeneric := 1
  errBadLen := 3
  errNotImplemented := 4
  errNotFound := 5
  getKeyslot_ne_derive := by decide

/-- A build without the unit tests. -/
def config : Config := ⟨uapi, proto, false⟩

/-- Byte `n` of the stream is `n`, cut off to a byte; the state counts the bytes drawn. -/
def dev : Hwrng.RngDev where
  σ := ℕ
  get n len := some (n + len.toNat, (List.range len.toNat).map fun i => UInt8.ofNat (n + i))
  drawn := id
  get_length := by
    rintro n len _ _ h
    obtain ⟨rfl, rfl⟩ : _ ∧ _ := by simpa using h
    simp

/-- A derived key is the input keying material, and a blob is its key behind 48 bytes. -/
def crypto : Hwkey.Crypto where
  hkdf n _ _ info := .ok ((info ++ List.replicate n 0).take n)
  decap _ blob n := some (.ok ((blob.drop 48 ++ List.replicate n 0).take n))
  hkdf_ok := by
    rintro n _ _ info _ h
    rw [← Hwkey.CryptoOut.ok.inj h]
    simp
  hkdf_fail := by simp
  decap_ok := by
    rintro _ blob n _ h
    rw [← Hwkey.CryptoOut.ok.inj (Option.some.inj h)]
    simp
  decap_fail := by simp

/-- Both ports are open, and nobody is connected yet. -/
def started : App dev where
  sys := {
    objs := Function.update (Function.update (fun _ => none)
        1 (some ⟨false, .hwrng, 0, some (.port .hwrng), false⟩))
      2 (some ⟨false, .hwkey, 0, some (.port .hwkey), false⟩)
    heap := fun _ => none }
  reqList := []
  dev := (0 : ℕ)
  rngLog := []
  hwkey := {
    keyData := List.replicate Hwkey.hwkeyMaxPayloadSize 0
    reqData := List.replicate (Hwkey.hwkeyMaxPayloadSize + 1) 0
    keySlots := Hwkey.keys proto
    prov := ⟨List.replicate 32 7, 80, List.replicate 80 9⟩
    retired := 0
    log := [] }

/-- A client connects to a service, on a channel `h`. -/
def connect (srv : Service) (h : Handle) (peer : Uuid) (p : Ptr) : Event dev where
  handle := match srv with | .hwrng => 1 | .hwkey => 2
  srv := srv
  flags := { ready := true }
  cookie := some (.port srv)
  accept := h
  peer := peer
  calloc := some p
  setCookie := ⟨0, le_rfl⟩
  inbound := ⟨⟨0, le_rfl⟩, [], ⟨0, le_rfl⟩⟩
  send _ := 0
  crypto := crypto
  jobs := id

/-- A client sends a message on its channel. -/
def message (srv : Service) (h : Handle) (p : Ptr) (bytes : List UInt8) : Event dev where
  handle := h
  srv := srv
  flags := { msg := true }
  cookie := some (.ctx p)
  accept := -1
  peer := 0
  calloc := none
  setCookie := ⟨0, le_rfl⟩
  inbound := ⟨⟨0, le_rfl⟩, bytes, ⟨0, le_rfl⟩⟩
  send _ := 0
  crypto := crypto
  jobs := id

lemma init_started : (app dev config).init started := by
  refine ⟨{
    hwrngPort := 1
    hwrngCookie := ⟨0, le_rfl⟩
    hwkeyPort := 2
    hwkeyCookie := ⟨0, le_rfl⟩
    dev := (0 : ℕ)
    keySlots := Hwkey.keys proto
    prov := ⟨List.replicate 32 7, 80, List.replicate 80 9⟩
    ports_ne := by decide }, ?_⟩
  simp [boot, started, Hwrng.hwrngStartService, Hwkey.hwkeyStartService, Sys.setCookie]

lemma admits_message {s : App dev} (srv : Service) {h : Handle} (p : Ptr) {o : Obj}
    (ho : s.sys.objs h = some o) (hcookie : o.cookie = some (.ctx p)) (hsrv : o.srv = srv)
    (bytes : List UInt8) : EventOk s (message srv h p bytes) where
  handle_open := ⟨o, ho, hcookie.symm, hsrv.symm⟩
  accept_fresh haccept := absurd haccept (by change ¬ (0 : ℤ) ≤ -1; decide)
  calloc_fresh := by simp [message]
  jobs_drawn _ := le_rfl

end Demo

end TrustyLkNxp
