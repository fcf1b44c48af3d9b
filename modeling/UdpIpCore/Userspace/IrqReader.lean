import UdpIpCore.Clocked
import UdpIpCore.Rtl.CircularBuffer
import UdpIpCore.Rtl.DmaWriteControl

/-!
# Interrupt-driven reception in user space

A single reader calls `udriver_recv`, which first reads the `dev-irq` device: the flag
`irq_arrived` is cleared and the reader waits until the interrupt handler sets it. One
packet is then read from the ring and popped. The flag stands for any number of pushes,
and the status bit `ISR0` for any number of events before its acknowledge.
-/

namespace UdpIpCore

/-- The next step of `dev_irq_irq`. -/
inductive IrqHandlerStage
  | idle
  /-- Set `irq_arrived`. -/
  | setArrived
  /-- `wake_up_all`. -/
  | wake
  /-- Write `ISR0`. -/
  | acknowledge
deriving DecidableEq

/-- The next step of the reader, in `dev_read` and in the rest of `udriver_recv`. -/
inductive ReaderStage
  /-- Clear `irq_arrived`. -/
  | clear
  /-- Test `irq_arrived` in `wait_event_interruptible`. -/
  | test
  | asleep
  /-- Read the control word of the ring. -/
  | readControl
  /-- Read the slot. -/
  | readSlot
  | pop
deriving DecidableEq

/-- The ring of the port, the interrupt, and the two contexts; `IER0` and `GIE` are 1 since the module
was loaded. -/
structure IrqReader where
  ring : CircularBuffer bufferRxLength
  isr : Bool
  irqArrived : Bool
  handler : IrqHandlerStage
  reader : ReaderStage
deriving DecidableEq

inductive IrqEvent
  /-- The PL pushes a packet to the ring of the port. -/
  | push
  /-- The PL pushes a packet to another ring. -/
  | pushOther
  /-- The interrupt line is high and the handler is entered. -/
  | interrupt
  | handler
  | reader
deriving DecidableEq

namespace IrqReader

/-- Before the first call, with an empty ring. -/
def start (isr irqArrived : Bool) : IrqReader := ⟨.reset _, isr, irqArrived, .idle, .clear⟩

/-- A step of the handler; a write to `ISR0` toggles it. -/
def stepHandler (s : IrqReader) : IrqReader :=
  match s.handler with
  | .idle => s
  | .setArrived => { s with irqArrived := true, handler := .wake }
  | .wake => { s with reader := if s.reader = .asleep then .test else s.reader, handler := .acknowledge }
  | .acknowledge => { s with isr := !s.isr, handler := .idle }

/-- A step of the reader, which calls `udriver_recv` again and again. -/
def stepReader (s : IrqReader) : IrqReader :=
  match s.reader with
  | .clear => { s with irqArrived := false, reader := .test }
  | .test => { s with reader := if s.irqArrived then .readControl else .asleep }
  | .asleep => s
  | .readControl => { s with reader := if s.ring.empty then .clear else .readSlot }
  | .readSlot => { s with reader := .pop }
  | .pop => { s with ring := s.ring.step false true, reader := .clear }

/-- One step. -/
def step (s : IrqReader) : IrqEvent → IrqReader
  | .push => { s with ring := s.ring.step true false, isr := true }
  | .pushOther => { s with isr := true }
  | .interrupt => { s with handler := .setArrived }
  | .handler => s.stepHandler
  | .reader => s.stepReader

/-- When a step can be taken. -/
def Enabled (s : IrqReader) : IrqEvent → Prop
  | .push | .pushOther => True
  | .interrupt => s.handler = .idle ∧ s.isr = true
  | .handler => s.handler ≠ .idle
  | .reader => s.reader ≠ .asleep

instance (s : IrqReader) : (e : IrqEvent) → Decidable (s.Enabled e)
  | .push | .pushOther => instDecidableTrue
  | .interrupt => inferInstanceAs (Decidable (_ ∧ _))
  | .handler | .reader => inferInstanceAs (Decidable (¬ _))

/-- All interleavings of pushes, the handler and the reader. -/
def machine : Clocked.Machine IrqReader IrqEvent where
  step := step
  legal := Enabled

instance (s : IrqReader) (e : IrqEvent) : Decidable (machine.legal s e) :=
  inferInstanceAs (Decidable (s.Enabled e))

/-- The reader is blocked in `dev_read`. -/
def Blocked (s : IrqReader) : Prop := (s.reader = .test ∨ s.reader = .asleep) ∧ s.irqArrived = false

/-- A reader that is blocked with no interrupt pending has an empty ring. -/
def NothingMissed (s : IrqReader) : Prop :=
  s.Blocked → s.isr = false → s.handler = .idle → s.ring.empty = true

/-- The reader clears the flag only when its ring is empty or an interrupt is pending, and the
handler writes `ISR0` only when the reader is not blocked on a ring with a packet. -/
def InTime (s : IrqReader) : IrqEvent → Prop
  | .reader => s.reader = .clear → s.ring.empty = true ∨ s.isr = true
  | .handler => s.handler = .acknowledge → s.Blocked → s.ring.empty = true
  | _ => True

/-- The handler runs only for an event in `ISR0`, and a packet that a blocked reader has not seen
is still recorded there. -/
structure Recorded (s : IrqReader) : Prop where
  pending : s.handler ≠ .idle → s.isr = true
  seen : s.Blocked → s.ring.empty = true ∨ s.isr = true

variable {s : IrqReader}

/-- Nothing is in the ring before the first call. -/
theorem recorded_start (isr irqArrived : Bool) : (start isr irqArrived).Recorded :=
  ⟨fun hne => absurd rfl hne, fun _ => Or.inl rfl⟩

/-- A step of the handler. -/
theorem Recorded.handler (h : s.Recorded) (hactive : s.handler ≠ .idle) (hintime : s.InTime .handler) :
    s.stepHandler.Recorded := by
  have hisr := h.pending hactive
  cases hstage : s.handler with
  | idle => exact absurd hstage hactive
  | setArrived =>
    simp only [stepHandler, hstage]
    exact ⟨fun _ => hisr, fun _ => Or.inr hisr⟩
  | wake =>
    simp only [stepHandler, hstage]
    exact ⟨fun _ => hisr, fun _ => Or.inr hisr⟩
  | acknowledge =>
    simp only [stepHandler, hstage]
    exact ⟨fun hne => absurd rfl hne, fun hblocked => Or.inl (hintime hstage hblocked)⟩

/-- A step of the reader. -/
theorem Recorded.reader (h : s.Recorded) (hintime : s.InTime .reader) : s.stepReader.Recorded := by
  cases hstage : s.reader with
  | clear =>
    simp only [stepReader, hstage]
    exact ⟨h.pending, fun _ => hintime hstage⟩
  | test =>
    simp only [stepReader, hstage]
    refine ⟨h.pending, ?_⟩
    rintro ⟨-, hflag⟩
    exact h.seen ⟨Or.inl hstage, hflag⟩
  | asleep =>
    rw [stepReader, hstage]
    exact h
  | readControl =>
    simp only [stepReader, hstage]
    refine ⟨h.pending, ?_⟩
    rintro ⟨hreader, -⟩
    simp only at hreader
    split at hreader <;> simp at hreader
  | readSlot =>
    simp only [stepReader, hstage]
    exact ⟨h.pending, by simp [Blocked]⟩
  | pop =>
    simp only [stepReader, hstage]
    exact ⟨h.pending, by simp [Blocked]⟩

/-- Every step keeps the record, provided that it is in time. -/
theorem Recorded.step (h : s.Recorded) {e : IrqEvent} (henabled : s.Enabled e) (hintime : s.InTime e) :
    (s.step e).Recorded := by
  cases e with
  | push => exact ⟨fun _ => rfl, fun _ => Or.inr rfl⟩
  | pushOther => exact ⟨fun _ => rfl, fun _ => Or.inr rfl⟩
  | interrupt => exact ⟨fun _ => henabled.2, h.seen⟩
  | handler => exact h.handler henabled hintime
  | reader => exact h.reader hintime

/-- What a blocked reader has not seen raises an interrupt. -/
theorem Recorded.nothingMissed (h : s.Recorded) : s.NothingMissed := by
  intro hblocked hisr _
  refine (h.seen hblocked).resolve_right ?_
  simp [hisr]

/-- A step that is not in time leaves the reader blocked on a packet. -/
theorem Recorded.missed (h : s.Recorded) {e : IrqEvent} (hlate : ¬ s.InTime e) :
    ¬ (s.step e).NothingMissed := by
  cases e with
  | push | pushOther | interrupt => exact absurd trivial hlate
  | handler =>
    obtain ⟨hstage, hlate⟩ := Classical.not_imp.mp hlate
    obtain ⟨hblocked, hwaits⟩ := Classical.not_imp.mp hlate
    have hisr := h.pending (by simp [hstage])
    intro hnothing
    refine hwaits ?_
    simpa [IrqReader.step, stepHandler, hstage, hisr, NothingMissed, Blocked, hblocked.1, hblocked.2]
      using hnothing
  | reader =>
    obtain ⟨hstage, hlate⟩ := Classical.not_imp.mp hlate
    obtain ⟨hwaits, hisr⟩ := not_or.mp hlate
    have hidle : s.handler = .idle := Classical.byContradiction fun hne => hisr (h.pending hne)
    have hring : (s.step .reader).ring = s.ring := by
      simp [IrqReader.step, stepReader, hstage]
    intro hnothing
    refine hwaits (hring ▸ hnothing ⟨?_, ?_⟩ ?_ ?_)
    all_goals simp [IrqReader.step, stepReader, hstage, hidle, hisr]

/-- In every interleaving: a blocked reader with no interrupt pending has an empty ring in every
state, if and only if every step is in time. -/
theorem nothingMissed_iff_inTime (isr irqArrived : Bool) (events : List IrqEvent)
    (hlegal : machine.Legal (start isr irqArrived) events) :
    machine.Throughout (fun s e => (s.step e).NothingMissed) (start isr irqArrived) events ↔
      (machine.restrict InTime).Legal (start isr irqArrived) events := by
  refine Clocked.Machine.throughout_iff Recorded ?_ ?_ (recorded_start isr irqArrived) hlegal
  · intro s e h henabled hintime
    have hnext := h.step henabled hintime
    exact ⟨hnext, hnext.nothingMissed⟩
  · intro s e h _ hlate
    exact h.missed hlate

/-- One packet, read after its interrupt. -/
def onePacket : List IrqEvent :=
  [.reader, .reader, .push, .interrupt, .handler, .handler, .handler, .reader, .reader, .reader, .reader, .reader]

/-- A single packet is not missed. -/
theorem nothingMissed_onePacket :
    machine.Throughout (fun s e => (s.step e).NothingMissed) (start false false) onePacket := by
  refine (nothingMissed_iff_inTime false false onePacket (by decide)).mpr ?_
  refine ⟨⟨by decide, fun _ => Or.inl rfl⟩, ⟨by decide, nofun⟩, ⟨trivial, trivial⟩, ⟨by decide, trivial⟩,
    ⟨by decide, nofun⟩, ⟨by decide, nofun⟩, ⟨by decide, fun _ hblocked => ?_⟩, ⟨by decide, nofun⟩,
    ⟨by decide, nofun⟩, ⟨by decide, nofun⟩, ⟨by decide, nofun⟩, ⟨by decide, fun _ => Or.inl (by decide)⟩, trivial⟩
  exact absurd hblocked.2 (by decide)

section Counterexample

/-- Two packets arrive before the reader is woken; it takes one of them and blocks. -/
def twoPackets : List IrqEvent :=
  [.reader, .reader, .push, .push, .interrupt, .handler, .handler, .handler,
    .reader, .reader, .reader, .reader, .reader]

/-- The second of two packets stays in the ring of a blocked reader. -/
theorem not_nothingMissed : ¬ ∀ isr irqArrived : Bool,
    machine.Always (start isr irqArrived) (fun s _ => s.NothingMissed) := by
  intro h
  have hreach : machine.Reachable (start false false) (machine.run (start false false) twoPackets) :=
    ⟨twoPackets, by decide, rfl⟩
  have hempty := h false false _ hreach .push trivial ⟨Or.inl rfl, rfl⟩ rfl rfl
  exact absurd hempty (by decide)

end Counterexample

end IrqReader

end UdpIpCore
