import TrustyLkNxp.Platform.Uart

/-!
# Console output (`imx_uart.c`, `debug.c`)

The transmitter is shared with the normal world, which may write to its FIFO at any time.  The
driver writes a character into the FIFO without looking whether there is room, and then reads the
status register until the FIFO is empty.  A carriage return goes before each line feed.
-/

namespace TrustyLkNxp.Console

open EventSystem
open Uart (Spin)

/-! ## The transmitter -/

/-- `UTS_TXEMPTY`. -/
def utsTxempty : Word := 1 <<< 6

/-- Who wrote a byte. -/
inductive World
  | secure
  | normal
deriving DecidableEq, Repr

/-- The size of the FIFO, and what the status register reads as. Reads are numbered; bits that are
not documented may be different each time. -/
structure Transmitter where
  depth : ℕ
  uts : ℕ → List (World × UInt8) → Word
  txempty : ∀ n fifo, uts n fifo &&& utsTxempty ≠ 0 ↔ fifo = []

/-- The FIFO, the oldest byte first, the bytes that have left it, and those that were written when
it was full. -/
structure Port where
  fifo : List (World × UInt8)
  sent : List (World × UInt8)
  lost : List (World × UInt8)
  nRead : ℕ

/-- What happens at the port while the driver does something else. -/
inductive Tick
  /-- The oldest byte leaves. -/
  | shift
  /-- The normal world writes a byte. -/
  | other (b : UInt8)
deriving DecidableEq, Repr

variable (D : Transmitter)

/-- A byte is written to the transmit register. It is lost when the FIFO is full. -/
def Port.write (p : Port) (x : World × UInt8) : Port :=
  if p.fifo.length < D.depth then { p with fifo := p.fifo ++ [x] }
  else { p with lost := p.lost ++ [x] }

/-- One thing happens at the port. -/
def Port.tick (p : Port) : Tick → Port
  | .shift => { p with fifo := p.fifo.tail, sent := p.sent ++ p.fifo.head?.toList }
  | .other b => p.write D (.normal, b)

/-- Some time passes. -/
def Port.pass (p : Port) (ts : List Tick) : Port := ts.foldl (Port.tick D) p

/-! ## The driver -/

/-- `READ32(UART_BASE + UTS)`; then some time passes. -/
def readUts (ts : List Tick) : Prog Spin Port Word := do
  let p ← Prog.get
  Prog.modify fun p => { p.pass D ts with nRead := p.nRead + 1 }
  return D.uts p.nRead p.fifo

/-- `WRITE32(c, UART_BASE + UTXD)`; then some time passes. -/
def writeUtxd (c : UInt8) (ts : List Tick) : Prog Spin Port Unit :=
  Prog.modify fun p => (p.write D (.secure, c)).pass D ts

/-- `uart_flush_tx`, and the loop at the end of `uart_putc`. After each of its tests some time
passes, as `polls` says, and after the last of these nothing happens any more. -/
def uartFlushTx : List (List Tick) → Prog Spin Port Unit
  | [] => do
    let uts ← readUts D []
    Prog.check (uts &&& utsTxempty ≠ 0) .spin
  | ts :: polls => do
    let uts ← readUts D ts
    if ¬ uts &&& utsTxempty ≠ 0 then uartFlushTx polls else return ()

/-- How time passes while a character is written and the driver waits. -/
structure Time where
  written : List Tick
  polls : List (List Tick)

/-- `uart_putc`. -/
def uartPutc (time : UInt8 → Time) (c : UInt8) : Prog Spin Port ℤ := do
  if c = 10 then
    let _ ← uartPutc time 13
  writeUtxd D c (time c).written
  -- wait until sent
  uartFlushTx D (time c).polls
  return 0
termination_by if c = 10 then 1 else 0
decreasing_by
  subst_vars
  decide

/-- `platform_dputc`. -/
def platformDputc (time : UInt8 → Time) (c : UInt8) : Prog Spin Port Unit := do
  let _ ← uartPutc D time c
  return ()

/-! ## The line -/

/-- What happens at the line: time passes, or the secure world calls the driver. -/
inductive Event
  | tick (t : Tick)
  | dputc (c : UInt8) (time : UInt8 → Time)
  | flush (polls : List (List Tick))

/-- The port, and what the secure world has printed. -/
structure Line where
  port : Port
  text : List UInt8

/-- One event. It fails when a call of the driver does not return. -/
def step (s : Line) : Event → Except Spin Line
  | .tick t => .ok { s with port := s.port.tick D t }
  | .dputc c time =>
    match platformDputc D time c s.port with
    | (.ok _, port) => .ok ⟨port, s.text ++ [c]⟩
    | (.error e, _) => .error e
  | .flush polls =>
    match uartFlushTx D polls s.port with
    | (.ok _, port) => .ok { s with port := port }
    | (.error e, _) => .error e

/-- The bytes of the secure world. -/
def ours (xs : List (World × UInt8)) : List UInt8 := (xs.filter (·.1 = .secure)).map Prod.snd

/-- The console, from when the secure world has printed nothing. -/
def console : System Line Event Spin where
  init s := s.text = [] ∧ s.port.fifo.length ≤ D.depth ∧
    ours s.port.fifo = [] ∧ ours s.port.sent = [] ∧ ours s.port.lost = []
  admits _ _ := True
  step := step D

/-- What a text is on the line. -/
def expand (text : List UInt8) : List UInt8 :=
  text.flatMap fun c => if c = 10 then [13, 10] else [c]

variable {D}

/-! ## What becomes of the bytes -/

lemma ours_append (xs ys : List (World × UInt8)) : ours (xs ++ ys) = ours xs ++ ours ys := by
  simp [ours]

/-- What the secure world has on the line, or on its way there. -/
def Port.onLine (p : Port) : List UInt8 := ours p.sent ++ ours p.fifo

/-- From `p` to `p'` the secure world has written `cs`, and some of it has got lost. -/
def Port.Writes (p : Port) (cs : List UInt8) (p' : Port) : Prop :=
  ∃ kept dropped, kept.Sublist cs ∧ kept.length + dropped.length = cs.length ∧
    p'.onLine = p.onLine ++ kept ∧ ours p'.lost = ours p.lost ++ dropped

lemma Port.Writes.refl (p : Port) : p.Writes [] p := ⟨[], [], .slnil, rfl, by simp, by simp⟩

lemma Port.Writes.trans {p p' p'' : Port} {cs cs' : List UInt8} (h : p.Writes cs p')
    (h' : p'.Writes cs' p'') : p.Writes (cs ++ cs') p'' := by
  obtain ⟨kept, dropped, hsub, hlen, hline, hlost⟩ := h
  obtain ⟨kept', dropped', hsub', hlen', hline', hlost'⟩ := h'
  refine ⟨kept ++ kept', dropped ++ dropped', hsub.append hsub', ?_, ?_, ?_⟩
  · simp only [List.length_append]
    omega
  · rw [hline', hline, List.append_assoc]
  · rw [hlost', hlost, List.append_assoc]

/-- Time passes without the secure world, and the FIFO stays within its bound. -/
structure Port.Passes (D : Transmitter) (p p' : Port) : Prop where
  writes : p.Writes [] p'
  bound : p.fifo.length ≤ D.depth → p'.fifo.length ≤ D.depth
  quiet : ours p.fifo = [] → ours p'.fifo = []

lemma Port.Passes.refl (p : Port) : p.Passes D p := ⟨.refl p, id, id⟩

lemma Port.Passes.trans {p p' p'' : Port} (h : p.Passes D p') (h' : p'.Passes D p'') :
    p.Passes D p'' :=
  ⟨h.writes.trans h'.writes, h'.bound ∘ h.bound, h'.quiet ∘ h.quiet⟩

lemma Port.passes_tick (p : Port) (t : Tick) : p.Passes D (p.tick D t) := by
  cases t with
  | shift =>
    rcases hfifo : p.fifo with _ | ⟨x, fifo⟩
    · have htick : p.tick D .shift = p := by
        cases p
        simp_all [Port.tick]
      rw [htick]
      exact .refl p
    · have hline : (p.tick D .shift).onLine = p.onLine := by
        simp [Port.tick, Port.onLine, hfifo, ← ours_append]
      refine ⟨⟨[], [], .slnil, rfl, by simpa using hline, by simp [Port.tick]⟩, fun h => ?_,
        fun h => ?_⟩
      · rw [hfifo, List.length_cons] at h
        change p.fifo.tail.length ≤ D.depth
        rw [hfifo, List.tail_cons]
        omega
      · change ours p.fifo.tail = []
        rw [hfifo, List.tail_cons]
        rw [hfifo, ← List.singleton_append, ours_append] at h
        exact (List.append_eq_nil_iff.mp h).2
  | other b =>
    have hnormal : ours [(World.normal, b)] = [] := rfl
    rw [Port.tick, Port.write]
    split
    · rename_i hroom
      refine ⟨⟨[], [], .slnil, rfl, ?_, by simp⟩, fun _ => ?_, fun h => ?_⟩
      · simp [Port.onLine, ours_append, hnormal]
      · rw [List.length_append, List.length_singleton]
        omega
      · rw [ours_append, h, hnormal]
        rfl
    · refine ⟨⟨[], [], .slnil, rfl, by simp [Port.onLine], ?_⟩, id, id⟩
      simp [ours_append, hnormal]

lemma Port.passes (p : Port) (ts : List Tick) : p.Passes D (p.pass D ts) := by
  induction ts generalizing p with
  | nil => exact .refl p
  | cons t ts ih => exact (p.passes_tick t).trans (ih _)

/-- A byte is written. -/
lemma Port.writes_write (p : Port) (c : UInt8) : p.Writes [c] (p.write D (.secure, c)) := by
  have hours : ours [(World.secure, c)] = [c] := rfl
  rw [Port.write]
  split
  · refine ⟨[c], [], .refl _, rfl, ?_, by simp⟩
    simp [Port.onLine, ours_append, hours]
  · refine ⟨[], [c], List.nil_sublist _, rfl, by simp [Port.onLine], ?_⟩
    simp [ours_append, hours]

lemma Port.write_bound {p : Port} (h : p.fifo.length ≤ D.depth) (x : World × UInt8) :
    (p.write D x).fifo.length ≤ D.depth := by
  rw [Port.write]
  split
  · rw [List.length_append, List.length_singleton]
    omega
  · exact h

/-! ## What a call does -/

/-- The status is that from before time passes. -/
lemma readUts_eq (p : Port) (ts : List Tick) :
    ∃ p', readUts D ts p = (.ok (D.uts p.nRead p.fifo), p') ∧ p.Passes D p' ∧
      p'.fifo = (p.pass D ts).fifo := by
  refine ⟨_, rfl, ?_, rfl⟩
  obtain ⟨hwrites, hbound, hquiet⟩ := p.passes (D := D) ts
  exact ⟨hwrites, hbound, hquiet⟩

/-- The loop ends with nothing of the secure world in the FIFO. -/
lemma uartFlushTx_ok {polls : List (List Tick)} {p p' : Port}
    (h : uartFlushTx D polls p = (.ok (), p')) : p.Passes D p' ∧ ours p'.fifo = [] := by
  induction polls generalizing p with
  | nil =>
    obtain ⟨p₁, hread, hpass, -⟩ := readUts_eq (D := D) p []
    rw [uartFlushTx, Prog.bind_of_ok hread] at h
    by_cases hempty : D.uts p.nRead p.fifo &&& utsTxempty ≠ 0
    · rw [Prog.check, if_pos hempty] at h
      obtain rfl := (Prod.mk.inj h).2
      refine ⟨hpass, hpass.quiet ?_⟩
      rw [(D.txempty _ _).mp hempty]
      rfl
    · rw [Prog.check, if_neg hempty] at h
      exact absurd (Prod.mk.inj h).1 (by simp)
  | cons ts polls ih =>
    obtain ⟨p₁, hread, hpass, -⟩ := readUts_eq (D := D) p ts
    rw [uartFlushTx, Prog.bind_of_ok hread] at h
    by_cases hempty : D.uts p.nRead p.fifo &&& utsTxempty ≠ 0
    · simp only [not_not.mpr hempty, if_false] at h
      obtain rfl := (Prod.mk.inj h).2
      refine ⟨hpass, hpass.quiet ?_⟩
      rw [(D.txempty _ _).mp hempty]
      rfl
    · simp only [hempty, not_false_eq_true, if_true] at h
      obtain ⟨hrest, hquiet⟩ := ih h
      exact ⟨hpass.trans hrest, hquiet⟩

/-- What is the same for every call that returns. -/
structure Port.Prints (D : Transmitter) (p : Port) (cs : List UInt8) (p' : Port) : Prop where
  writes : p.Writes cs p'
  bound : p.fifo.length ≤ D.depth → p'.fifo.length ≤ D.depth
  quiet : ours p'.fifo = []

/-- A character is written into the FIFO, and the driver waits. -/
lemma send_ok {c : UInt8} {ts : List Tick} {polls : List (List Tick)} {p p' : Port} {r : ℤ}
    (h : (do
      writeUtxd D c ts
      uartFlushTx D polls
      return 0 : Prog Spin Port ℤ) p = (.ok r, p')) : p.Prints D [c] p' := by
  obtain ⟨_, p₁, hwrite, h⟩ := Prog.bind_eq_ok.mp h
  obtain ⟨_, p₂, hflush, h⟩ := Prog.bind_eq_ok.mp h
  obtain rfl := (Prod.mk.inj h).2
  obtain rfl := (Prod.mk.inj hwrite).2
  have hpass := (p.write D (.secure, c)).passes (D := D) ts
  obtain ⟨hflushed, hquiet⟩ := uartFlushTx_ok hflush
  have hall := hpass.trans hflushed
  exact ⟨p.writes_write c |>.trans hall.writes, fun hp => hall.bound (Port.write_bound hp _),
    hquiet⟩

lemma uartPutc_ok {time : UInt8 → Time} {c : UInt8} {p p' : Port} {r : ℤ}
    (h : uartPutc D time c p = (.ok r, p')) : p.Prints D (expand [c]) p' := by
  have hplain : ∀ {c : UInt8} {p p' : Port} {r : ℤ}, c ≠ 10 →
      uartPutc D time c p = (.ok r, p') → p.Prints D [c] p' := by
    intro c p p' r hc h
    rw [uartPutc, if_neg hc] at h
    exact send_ok h
  by_cases hc : c = 10
  · -- the carriage return is sent, and waited for, first
    rw [uartPutc, if_pos hc] at h
    obtain ⟨_, p₁, hcr, h⟩ := Prog.bind_eq_ok.mp h
    have hfirst := hplain (by decide) hcr
    have hsecond := send_ok h
    have hexpand : expand [c] = [13] ++ [c] := by simp [expand, hc]
    rw [hexpand]
    exact ⟨hfirst.writes.trans hsecond.writes, hsecond.bound ∘ hfirst.bound, hsecond.quiet⟩
  · have hexpand : expand [c] = [c] := by simp [expand, hc]
    rw [hexpand]
    exact hplain hc h

/-! ## Calls that return -/

/-- The normal world is silent, and the line drains at least a full FIFO. -/
structure Time.Quiet (D : Transmitter) (time : Time) : Prop where
  written : ∀ t ∈ time.written, t = .shift
  polls : ∀ ts ∈ time.polls, ∀ t ∈ ts, t = .shift
  drains : D.depth ≤ time.polls.flatten.length

lemma Port.pass_shift {ts : List Tick} (h : ∀ t ∈ ts, t = .shift) (p : Port) :
    (p.pass D ts).fifo.length = p.fifo.length - ts.length := by
  induction ts generalizing p with
  | nil => rfl
  | cons t ts ih =>
    obtain rfl := h t List.mem_cons_self
    have hrest := ih (fun t ht => h t (List.mem_cons_of_mem _ ht)) (p.tick D .shift)
    have htick : (p.tick D .shift).fifo.length = p.fifo.length - 1 := List.length_tail
    rw [Port.pass, List.foldl_cons, ← Port.pass, hrest, htick, List.length_cons]
    omega

lemma uartFlushTx_returns {polls : List (List Tick)} (h : ∀ ts ∈ polls, ∀ t ∈ ts, t = .shift)
    {p : Port} (hlen : p.fifo.length ≤ polls.flatten.length) :
    ∃ p', uartFlushTx D polls p = (.ok (), p') := by
  induction polls generalizing p with
  | nil =>
    obtain ⟨p₁, hread, -⟩ := readUts_eq (D := D) p []
    have hempty : p.fifo = [] := List.eq_nil_of_length_eq_zero (Nat.le_zero.mp hlen)
    refine ⟨p₁, ?_⟩
    rw [uartFlushTx, Prog.bind_of_ok hread]
    exact congrFun (if_pos ((D.txempty _ _).mpr hempty)) _
  | cons ts polls ih =>
    obtain ⟨p₁, hread, -, hfifo⟩ := readUts_eq (D := D) p ts
    rw [uartFlushTx, Prog.bind_of_ok hread]
    by_cases hempty : D.uts p.nRead p.fifo &&& utsTxempty ≠ 0
    · simp only [not_not.mpr hempty, if_false]
      exact ⟨p₁, rfl⟩
    · simp only [hempty, not_false_eq_true, if_true]
      refine ih (fun ts' hts' => h ts' (List.mem_cons_of_mem _ hts')) ?_
      rw [hfifo, Port.pass_shift (h ts List.mem_cons_self)]
      rw [List.flatten_cons, List.length_append] at hlen
      omega

lemma uartPutc_returns {time : UInt8 → Time} (htime : ∀ c, (time c).Quiet D) (c : UInt8) {p : Port}
    (hp : p.fifo.length ≤ D.depth) : ∃ r p', uartPutc D time c p = (.ok r, p') := by
  have hsend : ∀ (c : UInt8) {p : Port}, p.fifo.length ≤ D.depth → ∃ r p', (do
      writeUtxd D c (time c).written
      uartFlushTx D (time c).polls
      return 0 : Prog Spin Port ℤ) p = (.ok r, p') := by
    intro c p hp
    let p₁ := (p.write D (.secure, c)).pass D (time c).written
    have hwrite : writeUtxd D c (time c).written p = (.ok (), p₁) := rfl
    have hbound := ((p.write D (.secure, c)).passes (time c).written).bound
      (Port.write_bound hp _)
    obtain ⟨p₂, hflush⟩ :=
      uartFlushTx_returns (htime c).polls (hbound.trans (htime c).drains)
    exact ⟨0, p₂, by rw [Prog.bind_of_ok hwrite, Prog.bind_of_ok hflush]; rfl⟩
  rw [uartPutc]
  by_cases hc : c = 10
  · obtain ⟨r, p₁, hcr⟩ := hsend 13 hp
    have hcr : uartPutc D time 13 p = (.ok r, p₁) := by
      rw [uartPutc, if_neg (by decide)]
      exact hcr
    rw [if_pos hc, Prog.bind_of_ok hcr]
    exact hsend c ((uartPutc_ok hcr).bound hp)
  · rw [if_neg hc]
    exact hsend c hp

/-! ## Runs -/

/-- What holds between any two events. -/
structure Line.Printed (D : Transmitter) (s₀ s : Line) : Prop where
  writes : s₀.port.Writes (expand s.text) s.port
  bound : s.port.fifo.length ≤ D.depth
  quiet : ours s.port.fifo = []

lemma step_printed {s₀ s t : Line} {e : Event} (hs : s₀.Printed D s) (h : step D s e = .ok t) :
    s₀.Printed D t := by
  cases e with
  | tick t =>
    rw [← Except.ok.inj h]
    obtain ⟨hwrites, hbound, hquiet⟩ := s.port.passes_tick (D := D) t
    refine ⟨?_, hbound hs.bound, hquiet hs.quiet⟩
    have hall := hs.writes.trans hwrites
    rwa [List.append_nil] at hall
  | dputc c time =>
    rw [step] at h
    rcases hcall : platformDputc D time c s.port with ⟨_ | _, p⟩
    · simp [hcall] at h
    · simp only [hcall, Except.ok.injEq] at h
      rw [← h]
      obtain ⟨r, p', hputc, hret⟩ := Prog.bind_eq_ok.mp hcall
      obtain rfl := (Prod.mk.inj hret).2
      obtain ⟨hwrites, hbound, hquiet⟩ := uartPutc_ok hputc
      refine ⟨?_, hbound hs.bound, hquiet⟩
      have hexpand : expand (s.text ++ [c]) = expand s.text ++ expand [c] := List.flatMap_append
      rw [hexpand]
      exact hs.writes.trans hwrites
  | flush polls =>
    rw [step] at h
    rcases hcall : uartFlushTx D polls s.port with ⟨_ | _, p⟩
    · simp [hcall] at h
    · simp only [hcall, Except.ok.injEq] at h
      rw [← h]
      obtain ⟨⟨hwrites, hbound, -⟩, hquiet⟩ := uartFlushTx_ok hcall
      refine ⟨?_, hbound hs.bound, hquiet⟩
      have hall := hs.writes.trans hwrites
      rwa [List.append_nil] at hall

/-- In every run, however the normal world uses the line, a call returns if the normal world is
silent long enough, nothing that was printed is left in the FIFO, and what is on the line is the
text, with a carriage return before each line feed, in order and except for bytes that were
written when the FIFO was full. -/
theorem printed_iff {s₀ s : Line} {es : List Event} (h₀ : (console D).init s₀)
    (h : (console D).Run s₀ es s) :
    (∀ c time, (∀ x, (time x : Time).Quiet D) → ∃ t, (console D).step s (.dputc c time) = .ok t) ∧
      ours s.port.fifo = [] ∧ (ours s.port.sent).Sublist (expand s.text) ∧
      (ours s.port.sent = expand s.text ↔ ours s.port.lost = []) := by
  obtain ⟨htext, hbound, hfifo, hsent, hlost⟩ := h₀
  have hs : s₀.Printed D s := by
    refine h.invariant (fun s => s₀.Printed D s) (fun _ _ _ hs _ hstep => step_printed hs hstep) ?_
    refine ⟨?_, hbound, hfifo⟩
    rw [htext]
    exact .refl _
  obtain ⟨kept, dropped, hsub, hlen, hline, hdropped⟩ := hs.writes
  rw [Port.onLine, Port.onLine, hs.quiet, hsent, hfifo, List.append_nil, List.nil_append,
    List.nil_append] at hline
  rw [hlost, List.nil_append] at hdropped
  refine ⟨fun c time htime => ?_, hs.quiet, hline ▸ hsub, ?_⟩
  · obtain ⟨r, p, hputc⟩ := uartPutc_returns htime c hs.bound
    have hcall : platformDputc D time c s.port = (.ok (), p) := by
      rw [platformDputc, Prog.bind_of_ok hputc]
      rfl
    exact ⟨⟨p, s.text ++ [c]⟩, by simp only [console, step, hcall]⟩
  · rw [hline, hdropped]
    constructor
    · intro heq
      rw [heq] at hlen
      exact List.eq_nil_of_length_eq_zero (by omega)
    · intro hnil
      rw [hnil, List.length_nil, Nat.add_zero] at hlen
      exact hsub.eq_of_length hlen

namespace Demo

/-- A FIFO of two bytes. -/
def transmitter : Transmitter where
  depth := 2
  uts _ fifo := if fifo = [] then utsTxempty else 0
  txempty n fifo := by
    by_cases hfifo : fifo = []
    · simp only [hfifo, iff_true]
      decide
    · simp only [hfifo, iff_false, not_not]
      decide

/-- The normal world has filled the FIFO. -/
def filled : Line := ⟨⟨[(.normal, 65), (.normal, 66)], [], [], 0⟩, []⟩

/-- Bytes leave after the first test. -/
def drain : Time := ⟨[], [[.shift, .shift]]⟩

/-- A line feed has been printed, and its carriage return is lost. -/
def newline : Line :=
  ⟨⟨[], [(.normal, 65), (.normal, 66), (.secure, 10)], [(.secure, 13)], 4⟩, [10]⟩

lemma run_newline : (console transmitter).Run filled [.dputc 10 fun _ => drain] newline := by
  refine .one trivial ?_
  have hcr : uartPutc transmitter (fun _ => drain) 13 filled.port =
      (.ok 0, ⟨[], [(.normal, 65), (.normal, 66)], [(.secure, 13)], 2⟩) := by
    rw [uartPutc]
    rfl
  have hlf : uartPutc transmitter (fun _ => drain) 10 filled.port =
      (.ok 0, ⟨[], [(.normal, 65), (.normal, 66), (.secure, 10)], [(.secure, 13)], 4⟩) := by
    rw [uartPutc, if_pos rfl, Prog.bind_of_ok hcr]
    rfl
  have hcall : platformDputc transmitter (fun _ => drain) 10 filled.port =
      (.ok (), ⟨[], [(.normal, 65), (.normal, 66), (.secure, 10)], [(.secure, 13)], 4⟩) := by
    rw [platformDputc, Prog.bind_of_ok hlf]
    rfl
  simp only [console, step, hcall]
  rfl

end Demo

/-- The carriage return of a line feed gets lost when the normal world has filled the FIFO. -/
theorem printed_newline :
    (console Demo.transmitter).Run Demo.filled [.dputc 10 fun _ => Demo.drain] Demo.newline ∧
      (ours Demo.newline.port.sent).Sublist (expand Demo.newline.text) ∧
      ours Demo.newline.port.sent ≠ expand Demo.newline.text := by
  obtain ⟨-, -, hsub, hiff⟩ := printed_iff (D := Demo.transmitter) ⟨rfl, le_rfl, rfl, rfl, rfl⟩
    Demo.run_newline
  exact ⟨Demo.run_newline, hsub, fun heq => absurd (hiff.mp heq) (by decide)⟩

end TrustyLkNxp.Console
