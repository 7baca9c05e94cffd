import TrustyLkNxp.Basic
import TrustyLkNxp.Lib.Prog
import TrustyLkNxp.Lib.Run

/-!
# Console input (`imx_uart.c`)

Bytes arrive in the receive FIFO, and `uart_getc` takes them out of it.  It can be told to
wait for one; then it reads the status register until the FIFO is not empty.  Otherwise it
reads the status once, and gives up when the FIFO is not empty.
-/

namespace TrustyLkNxp.Uart

open EventSystem

/-! ## The receiver -/

/-- `URXD_RX_DATA`. -/
def urxdRxData : Word := 0xFF

/-- `UTS_RXEMPTY`. -/
def utsRxempty : Word := 1 <<< 5

/-- What the two registers read as, depending on what is in the FIFO. Reads are numbered; bits
that are not documented, and the data of an empty FIFO, may be different each time. -/
structure Receiver where
  uts : ℕ → List UInt8 → Word
  urxd : ℕ → List UInt8 → Word
  rxempty : ∀ n fifo, uts n fifo &&& utsRxempty ≠ 0 ↔ fifo = []
  rxdata : ∀ n b fifo, (urxd n (b :: fifo) &&& urxdRxData).toNat = b.toNat

/-- The FIFO, the oldest byte first, and all bytes that ever arrived in it. -/
structure Port where
  fifo : List UInt8
  arrived : List UInt8
  nRead : ℕ

/-- Bytes arrive. -/
def Port.receive (p : Port) (bytes : List UInt8) : Port :=
  { p with fifo := p.fifo ++ bytes, arrived := p.arrived ++ bytes }

/-- The driver waits for a byte, and none arrives any more. -/
inductive Spin
  | spin
deriving DecidableEq, Repr

variable (D : Receiver)

/-- `READ32(UART_BASE + UTS)`; then some bytes arrive. -/
def readUts (bytes : List UInt8) : Prog Spin Port Word := do
  let p ← Prog.get
  Prog.modify fun p => { p.receive bytes with nRead := p.nRead + 1 }
  return D.uts p.nRead p.fifo

/-- `READ32(UART_BASE + URXD)`. The oldest byte is taken out of the FIFO. -/
def readUrxd : Prog Spin Port Word := do
  let p ← Prog.get
  Prog.modify fun p => { p with fifo := p.fifo.tail, nRead := p.nRead + 1 }
  return D.urxd p.nRead p.fifo

/-! ## The driver -/

/-- The loop that waits while `UTS_RXEMPTY` is set. After each of its tests some bytes arrive,
as `arrivals` says, and after the last of these none. -/
def waitRx : List (List UInt8) → Prog Spin Port Unit
  | [] => do
    let uts ← readUts D []
    Prog.check (uts &&& utsRxempty = 0) .spin
  | bytes :: arrivals => do
    let uts ← readUts D bytes
    if uts &&& utsRxempty ≠ 0 then waitRx arrivals else return ()

/-- `uart_getc`. -/
def uartGetc (wait : Bool) (arrivals : List (List UInt8)) : Prog Spin Port ℤ :=
  if wait then do
    waitRx D arrivals
    let urxd ← readUrxd D
    return (urxd &&& urxdRxData).toNat
  else do
    let uts ← readUts D (arrivals.headD [])
    if ¬ uts &&& utsRxempty ≠ 0 then
      return -1
    let urxd ← readUrxd D
    return (urxd &&& urxdRxData).toNat

/-! ## The line -/

/-- What happens at the line: a byte arrives, or `uart_getc` is called. -/
inductive Event
  | arrive (b : UInt8)
  | getc (wait : Bool) (arrivals : List (List UInt8))
deriving DecidableEq, Repr

/-- A call of `uart_getc` that has returned. -/
structure Call where
  wait : Bool
  /-- Whether the FIFO was empty when it was called. -/
  empty : Bool
  res : ℤ
deriving DecidableEq, Repr

/-- The receiver, and the calls so far. -/
structure Line where
  port : Port
  calls : List Call

/-- One event. It fails when a call does not return. -/
def step (s : Line) : Event → Except Spin Line
  | .arrive b => .ok { s with port := s.port.receive [b] }
  | .getc wait arrivals =>
    match uartGetc D wait arrivals s.port with
    | (.ok res, port) => .ok ⟨port, s.calls ++ [⟨wait, s.port.fifo.isEmpty, res⟩]⟩
    | (.error e, _) => .error e

/-- The console, from when nothing has been read. -/
def uart : System Line Event Spin where
  init s := s.port.fifo = s.port.arrived ∧ s.calls = []
  admits _ _ := True
  step := step D

variable {D}

/-- The calls have returned the bytes that arrived, as far as they are not in the FIFO any more,
and a call that does not wait has said that there is none when the FIFO was empty and only
then. -/
structure Line.Received (s : Line) : Prop where
  stream : (s.calls.map Call.res).filter (0 ≤ ·) ++ s.port.fifo.map (fun b => (b.toNat : ℤ)) =
    s.port.arrived.map fun b => (b.toNat : ℤ)
  polls : ∀ c ∈ s.calls, c.wait = false → (c.res = -1 ↔ c.empty = true)

/-! ## What a call does -/

/-- From `p` to `p'` bytes have only arrived. -/
def Port.Grows (p p' : Port) : Prop :=
  ∃ bytes, p'.fifo = p.fifo ++ bytes ∧ p'.arrived = p.arrived ++ bytes

lemma Port.Grows.trans {p p' p'' : Port} (h : p.Grows p') (h' : p'.Grows p'') : p.Grows p'' := by
  obtain ⟨bytes, hfifo, harrived⟩ := h
  obtain ⟨bytes', hfifo', harrived'⟩ := h'
  exact ⟨bytes ++ bytes', by rw [hfifo', hfifo, List.append_assoc],
    by rw [harrived', harrived, List.append_assoc]⟩

/-- The port after the status has been read. -/
def Port.tested (p : Port) (bytes : List UInt8) : Port :=
  { p.receive bytes with nRead := p.nRead + 1 }

lemma Port.grows_tested (p : Port) (bytes : List UInt8) : p.Grows (p.tested bytes) :=
  ⟨bytes, rfl, rfl⟩

lemma Port.tested_fifo_ne {p : Port} (h : p.fifo ≠ []) (bytes : List UInt8) :
    (p.tested bytes).fifo ≠ [] := fun hnil => h (List.append_eq_nil_iff.mp hnil).1

lemma readUts_eq (p : Port) (bytes : List UInt8) :
    readUts D bytes p = (.ok (D.uts p.nRead p.fifo), p.tested bytes) := rfl

/-- The loop ends with a byte in the FIFO. -/
lemma waitRx_ok {arrivals : List (List UInt8)} {p p' : Port}
    (h : waitRx D arrivals p = (.ok (), p')) : p.Grows p' ∧ p'.fifo ≠ [] := by
  induction arrivals generalizing p with
  | nil =>
    rw [waitRx, Prog.bind_of_ok (readUts_eq p [])] at h
    by_cases hempty : D.uts p.nRead p.fifo &&& utsRxempty = 0
    · rw [Prog.check, if_pos hempty] at h
      rw [← (Prod.mk.inj h).2]
      exact ⟨p.grows_tested [], p.tested_fifo_ne (fun hnil => (D.rxempty _ _).mpr hnil hempty) []⟩
    · rw [Prog.check, if_neg hempty] at h
      exact absurd (Prod.mk.inj h).1 (by simp)
  | cons bytes arrivals ih =>
    rw [waitRx, Prog.bind_of_ok (readUts_eq p bytes)] at h
    by_cases hempty : D.uts p.nRead p.fifo &&& utsRxempty ≠ 0
    · simp only [if_pos hempty] at h
      obtain ⟨hgrows, hne⟩ := ih h
      exact ⟨(p.grows_tested bytes).trans hgrows, hne⟩
    · simp only [if_neg hempty] at h
      rw [← (Prod.mk.inj h).2]
      exact ⟨p.grows_tested bytes,
        p.tested_fifo_ne (fun hnil => hempty ((D.rxempty _ _).mpr hnil)) bytes⟩

/-- What a call that returns has done. -/
inductive Getc (p : Port) : Bool → ℤ → Port → Prop
  | taken {p₁ p' : Port} {b : UInt8} {fifo : List UInt8} (hgrows : p.Grows p₁)
      (hfifo : p₁.fifo = b :: fifo) (hp' : p'.fifo = fifo ∧ p'.arrived = p₁.arrived) :
      Getc p true b.toNat p'
  /-- The test is the wrong way round: there is a byte. -/
  | refused {p' : Port} (hfifo : p.fifo ≠ []) : Getc p false (-1) p'
  /-- And here there was none. -/
  | read {p' : Port} (n : ℕ) (hfifo : p.fifo = []) : Getc p false n p'

lemma uartGetc_ok {wait : Bool} {arrivals : List (List UInt8)} {p p' : Port} {res : ℤ}
    (h : uartGetc D wait arrivals p = (.ok res, p')) : Getc p wait res p' := by
  cases wait with
  | true =>
    obtain ⟨_, p₁, hwait, h⟩ := Prog.bind_eq_ok.mp h
    obtain ⟨hgrows, hne⟩ := waitRx_ok hwait
    obtain ⟨b, fifo, hfifo⟩ := List.exists_cons_of_ne_nil hne
    obtain ⟨hres, rfl⟩ := Prod.mk.inj h
    rw [← Except.ok.inj hres, hfifo, D.rxdata]
    exact .taken hgrows hfifo ⟨congrArg List.tail hfifo, rfl⟩
  | false =>
    change (readUts D (arrivals.headD []) >>= _) p = _ at h
    rw [Prog.bind_of_ok (readUts_eq p _)] at h
    by_cases hempty : p.fifo = []
    · simp only [not_not.mpr ((D.rxempty p.nRead p.fifo).mpr hempty), if_false] at h
      rw [← Except.ok.inj (Prod.mk.inj h).1]
      exact .read _ hempty
    · simp only [mt (D.rxempty p.nRead p.fifo).mp hempty, not_false_eq_true, if_true] at h
      rw [← Except.ok.inj (Prod.mk.inj h).1]
      exact .refused hempty

/-- A call that does not wait returns, and so does one that finds a byte. -/
lemma uartGetc_returns {wait : Bool} {p : Port} (h : wait = true → p.fifo ≠ [])
    (arrivals : List (List UInt8)) : ∃ res p', uartGetc D wait arrivals p = (.ok res, p') := by
  cases wait with
  | true =>
    have htest : ¬ D.uts p.nRead p.fifo &&& utsRxempty ≠ 0 :=
      fun hempty => h rfl ((D.rxempty _ _).mp hempty)
    have hwait : ∃ p₁, waitRx D arrivals p = (.ok (), p₁) := by
      cases arrivals with
      | nil => exact ⟨_, congrFun (if_pos (not_not.mp htest)) _⟩
      | cons bytes arrivals => exact ⟨_, congrFun (if_neg htest) _⟩
    obtain ⟨p₁, hwait⟩ := hwait
    exact ⟨_, _, Prog.bind_of_ok hwait⟩
  | false =>
    by_cases htest : ¬ D.uts p.nRead p.fifo &&& utsRxempty ≠ 0
    · exact ⟨_, _, congrFun (if_pos htest) _⟩
    · exact ⟨_, _, congrFun (if_neg htest) _⟩

/-! ## Runs -/

/-- Whether an event is a call, and whether that call waits. -/
def Event.wait : Event → Option Bool
  | .arrive _ => none
  | .getc wait _ => some wait

/-- What a step does: bytes arrive, or a call returns. -/
inductive Stepped (s : Line) : Event → Line → Prop
  | arrive (b : UInt8) : Stepped s (.arrive b) { s with port := s.port.receive [b] }
  | getc {wait : Bool} {arrivals : List (List UInt8)} {res : ℤ} {p : Port}
      (hcall : Getc s.port wait res p) :
      Stepped s (.getc wait arrivals) ⟨p, s.calls ++ [⟨wait, s.port.fifo.isEmpty, res⟩]⟩

lemma step_ok {s t : Line} {e : Event} (h : step D s e = .ok t) : Stepped s e t := by
  cases e with
  | arrive b =>
    rw [← Except.ok.inj h]
    exact .arrive b
  | getc wait arrivals =>
    rw [step] at h
    rcases hcall : uartGetc D wait arrivals s.port with ⟨_ | res, p⟩
    · simp [hcall] at h
    · simp only [hcall, Except.ok.injEq] at h
      rw [← h]
      exact .getc (uartGetc_ok hcall)

/-- Every call is recorded. -/
lemma Stepped.calls {s t : Line} {e : Event} (h : Stepped s e t) :
    t.calls.map Call.wait = s.calls.map Call.wait ++ e.wait.toList := by
  cases h with
  | arrive => simp [Event.wait]
  | getc => simp [Event.wait]

/-- The part of the specification that a call that waits keeps. -/
structure Line.Waited (s : Line) : Prop where
  stream : (s.calls.map Call.res).filter (0 ≤ ·) ++ s.port.fifo.map (fun b => (b.toNat : ℤ)) =
    s.port.arrived.map fun b => (b.toNat : ℤ)
  waits : ∀ c ∈ s.calls, c.wait = true

lemma Stepped.waited {s t : Line} {e : Event} (h : Stepped s e t) (hs : s.Waited)
    (he : e.wait ≠ some false) : t.Waited := by
  obtain ⟨hstream, hwaits⟩ := hs
  cases h with
  | arrive b =>
    refine ⟨?_, hwaits⟩
    simp only [Port.receive, List.map_append, ← List.append_assoc, hstream]
  | @getc wait arrivals res p hcall =>
    cases hcall with
    | @taken p₁ _ b fifo hgrows hfifo hp =>
      obtain ⟨bytes, hfifo₁, harrived⟩ := hgrows
      constructor
      · -- the byte that is returned was the oldest
        have hpos : (0 : ℤ) ≤ b.toNat := Int.natCast_nonneg _
        let c : Call := ⟨true, s.port.fifo.isEmpty, b.toNat⟩
        calc ((s.calls ++ [c]).map Call.res).filter (0 ≤ ·) ++
              p.fifo.map (fun b => (b.toNat : ℤ))
            = (s.calls.map Call.res).filter (0 ≤ ·) ++
                p₁.fifo.map (fun b => (b.toNat : ℤ)) := by
              simp [c, hfifo, hp.1, hpos]
          _ = (s.port.arrived ++ bytes).map fun b => (b.toNat : ℤ) := by
              rw [hfifo₁, List.map_append, ← List.append_assoc, hstream, List.map_append]
          _ = p.arrived.map fun b => (b.toNat : ℤ) := by rw [hp.2, harrived]
      · intro c hc
        rcases List.mem_append.mp hc with hc | hc
        · exact hwaits c hc
        · rw [List.mem_singleton.mp hc]
    | refused => exact absurd rfl he
    | read => exact absurd rfl he

/-- A call that does not wait says that there is nothing exactly when there is something. -/
lemma Stepped.polls {s t : Line} {e : Event} (h : Stepped s e t)
    (hs : ∀ c ∈ s.calls, c.wait = false → ¬ (c.res = -1 ↔ c.empty = true)) :
    ∀ c ∈ t.calls, c.wait = false → ¬ (c.res = -1 ↔ c.empty = true) := by
  cases h with
  | arrive => exact hs
  | @getc wait arrivals res p hcall =>
    intro c hc hwait
    rcases List.mem_append.mp hc with hc | hc
    · exact hs c hc hwait
    · obtain rfl := List.mem_singleton.mp hc
      cases hcall with
      | taken => exact absurd hwait (by simp)
      | refused hfifo =>
        have hempty : s.port.fifo.isEmpty = false := by simpa using hfifo
        simp [hempty]
      | read n hfifo =>
        have hres : (n : ℤ) ≠ -1 := by omega
        simp [hfifo, hres]

section

variable {s₀ s : Line} {es : List Event}

lemma calls_of_run (h₀ : (uart D).init s₀) (h : (uart D).Run s₀ es s) :
    s.calls.map Call.wait = es.filterMap Event.wait := by
  induction h with
  | nil => simp [h₀.2]
  | snoc _ _ hstep ih =>
    rw [(step_ok hstep).calls, ih, List.filterMap_append]
    rename_i e _ _
    cases e <;> rfl

lemma waited_of_run (h₀ : (uart D).init s₀) (h : (uart D).Run s₀ es s)
    (hes : ∀ e ∈ es, e.wait ≠ some false) : s.Waited := by
  induction h with
  | nil => exact ⟨by simp [h₀.1, h₀.2], by simp [h₀.2]⟩
  | snoc _ _ hstep ih =>
    have hs := ih fun e he => hes e (List.mem_append_left _ he)
    exact (step_ok hstep).waited hs (hes _ (List.mem_append_right _ (List.mem_singleton_self _)))

/-- In every run, whatever arrives in between and during the calls, the bytes that arrived are
returned in order and the calls that do not wait tell an empty FIFO if and only if there is no
such call. -/
theorem received_iff (h₀ : (uart D).init s₀) (h : (uart D).Run s₀ es s) :
    (∀ e : Event, (e.wait = some true → s.port.fifo ≠ []) → ∃ t, (uart D).step s e = .ok t) ∧
      (s.Received ↔ ∀ e ∈ es, e.wait ≠ some false) := by
  refine ⟨fun e he => ?_, ?_⟩
  · cases e with
    | arrive b => exact ⟨_, rfl⟩
    | getc wait arrivals =>
      obtain ⟨res, p, hcall⟩ :=
        uartGetc_returns (D := D) (fun hwait => he (congrArg some hwait)) arrivals
      exact ⟨⟨p, s.calls ++ [⟨wait, s.port.fifo.isEmpty, res⟩]⟩, by simp only [uart, step, hcall]⟩
  constructor
  · rintro ⟨-, hpolls⟩ e he hwait
    have hmem : false ∈ s.calls.map Call.wait := by
      rw [calls_of_run h₀ h]
      exact List.mem_filterMap.mpr ⟨e, he, hwait⟩
    obtain ⟨c, hc, hcwait⟩ := List.mem_map.mp hmem
    have hwrong : ∀ c ∈ s.calls, c.wait = false → ¬ (c.res = -1 ↔ c.empty = true) := by
      refine h.invariant (fun s => ∀ c ∈ s.calls, c.wait = false → ¬ (c.res = -1 ↔ c.empty = true))
        (fun _ _ _ hs _ hstep => (step_ok hstep).polls hs) ?_
      simp [h₀.2]
    exact hwrong c hc hcwait (hpolls c hc hcwait)
  · intro hes
    obtain ⟨hstream, hwaits⟩ := waited_of_run h₀ h hes
    exact ⟨hstream, fun c hc hwait => absurd (hwaits c hc) (by simp [hwait])⟩

end

namespace Demo

/-- A character is ready when there is one; without one the data register reads as all ones. -/
def receiver : Receiver where
  uts _ fifo := if fifo = [] then utsRxempty else 0
  urxd _ fifo := fifo.head?.elim 0xFF fun b => 0x8000 ||| BitVec.ofNat 32 b.toNat
  rxempty n fifo := by
    by_cases hfifo : fifo = []
    · simp only [hfifo, iff_true]
      decide
    · simp only [hfifo, iff_false, not_not]
      decide
  rxdata n b fifo := by
    have hready : (0x8000 : Word) &&& urxdRxData = 0#32 := by decide
    have hmask : urxdRxData.toNat = 2 ^ 8 - 1 := by decide
    have hb := b.toNat_lt
    simp only [List.head?_cons, Option.elim_some, BitVec.and_or_distrib_right, hready,
      BitVec.zero_or, BitVec.toNat_and, hmask, BitVec.toNat_ofNat, Nat.and_two_pow_sub_one_eq_mod]
    omega

/-- Nothing has arrived yet. -/
def idle : Line := ⟨⟨[], [], 0⟩, []⟩

/-- An `A` has arrived. -/
def ready : Line := ⟨⟨[65], [65], 0⟩, []⟩

lemma run_arrive : (uart receiver).Run idle [.arrive 65] ready := .one trivial rfl

end Demo

/-- The character is read by a call that waits. -/
theorem received_waiting :
    Line.Received ⟨⟨[], [65], 2⟩, [⟨true, false, 65⟩]⟩ := by
  have hrun := Demo.run_arrive.snoc (e := .getc true []) trivial rfl
  exact (received_iff ⟨rfl, rfl⟩ hrun).2.mpr (by decide)

/-- A call that does not wait is told that there is none. -/
theorem not_received_polling :
    (uart Demo.receiver).Run Demo.idle [.arrive 65, .getc false []]
        ⟨⟨[65], [65], 1⟩, [⟨false, false, -1⟩]⟩ ∧
      ¬ Line.Received ⟨⟨[65], [65], 1⟩, [⟨false, false, -1⟩]⟩ := by
  refine ⟨Demo.run_arrive.snoc trivial rfl, fun h => ?_⟩
  have hpoll := h.polls ⟨false, false, -1⟩ (List.mem_singleton_self _) rfl
  exact absurd (hpoll.mp rfl) (by decide)

end TrustyLkNxp.Uart
