import UdpIpCore.Kernel.Lifecycle

/-!
# Two writers of one control word

The NAPI poll pops a packet while a devlink set opens or closes the socket of the same
ring. Both read the control word once and write it back, so a write of one of them may
restore a bit as it was before the other one changed it. Every interleaving of the single
register accesses is a run; the histories record what each side has read and written.
-/

namespace UdpIpCore

namespace Kernel

open Interaction

/-- The calls of a devlink set on one ring. -/
inductive SocketCall
  | openSocket
  | clearSocket
deriving DecidableEq

namespace SocketCall

/-- The function that is called. -/
def code (bufferId : ℕ) : SocketCall → Code Unit
  | openSocket => Kernel.openSocket bufferId
  | clearSocket => Kernel.clearSocket bufferId

/-- The word a call writes, given the word it has read. -/
def word (value : BitVec 32) : SocketCall → BitVec 32
  | openSocket => value ||| opensockMask
  | clearSocket => value &&& ~~~opensockMask

/-- The socket-open bit a call requests. -/
def requested : SocketCall → Bool
  | openSocket => true
  | clearSocket => false

end SocketCall

/-- The calls of a devlink set, one after the other. -/
def socketCalls (bufferId : ℕ) (calls : List SocketCall) : Code Unit :=
  Program.forEach calls (SocketCall.code bufferId)

/-- A driver function interrupted between two of its steps performs the next one. -/
def Host.execute (s : Host) (e : Answer) : Code Unit → Code Unit × Host
  | .done a => (.done a, s)
  | .perform c next => (next (s.perform e c).1, (s.perform e c).2)

/-- The word the next step reads. -/
def Host.reads (s : Host) (e : Answer) : Code Unit → Option (BitVec 32)
  | .perform (.readRegister reg) _ => some (s.regs.read e.status reg)
  | _ => none

/-- The word the next step writes. -/
def nextWrite : Code Unit → Option (BitVec 32)
  | .perform (.writeRegister _ value) _ => some value
  | _ => none

/-- The poll and a devlink set, interrupted anywhere, with their histories. -/
structure WordRun where
  host : Host
  /-- The rising edges of the popped bit, each of which is one pop pulse. -/
  pulses : ℕ
  pop : Code Unit
  socket : Code Unit
  /-- The word `udp_core_netdev_notify_pop_rx` has read. -/
  popRead : Option (BitVec 32)
  popWrites : ℕ
  socketWrites : ℕ

inductive Turn
  | pop
  | socket
deriving DecidableEq

/-- One register access: whose turn it is, and what the device shows. -/
structure WordCycle where
  turn : Turn
  answer : Answer

namespace WordRun

/-- The stored popped bit of a ring. -/
def popped (s : Host) (idx : BufferIdx) : Bool := (s.regs.bufrxTemp idx).getLsbD bufferPoppedOffset

/-- Before the first access of both sides. -/
def start (host : Host) (idx : BufferIdx) (calls : List SocketCall) : WordRun where
  host := host
  pulses := 0
  pop := notifyPopRx idx.toNat
  socket := socketCalls idx.toNat calls
  popRead := none
  popWrites := 0
  socketWrites := 0

/-- The rising edge of a step, if there is one. -/
def edge (idx : BufferIdx) (s s' : Host) : ℕ := (!popped s idx && popped s' idx).toNat

/-- One register access. -/
def step (idx : BufferIdx) (s : WordRun) (i : WordCycle) : WordRun :=
  match i.turn with
  | .pop =>
    let after := s.host.execute i.answer s.pop
    { s with
      host := after.2
      pulses := s.pulses + edge idx s.host after.2
      pop := after.1
      popRead := (s.host.reads i.answer s.pop).or s.popRead
      popWrites := s.popWrites + (nextWrite s.pop).isSome.toNat }
  | .socket =>
    let after := s.host.execute i.answer s.socket
    { s with
      host := after.2
      pulses := s.pulses + edge idx s.host after.2
      socket := after.1
      socketWrites := s.socketWrites + (nextWrite s.socket).isSome.toNat }

/-- The accesses of both sides in any order. -/
def machine (idx : BufferIdx) : Clocked.Machine WordRun WordCycle where
  step := step idx
  legal := fun _ _ => True

/-- Both functions have returned. -/
def Returned (s : WordRun) : Prop := s.pop.isDone = true ∧ s.socket.isDone = true

/-- One pop pulse was generated, and the socket-open bit is the one requested last. -/
def Separate (idx : BufferIdx) (last : SocketCall) (s : WordRun) : Prop :=
  s.pulses = 1 ∧ s.host.regs.opensock idx = last.requested

/-- The write of an open or clear call does no harm: after the last write of
`udp_core_netdev_notify_pop_rx` it stores a 0 in the popped bit, and the last of the calls does not
write between the read and the last write of `udp_core_netdev_notify_pop_rx`, unless that has read
the requested bit. -/
def Harmless (last : SocketCall) (calls : ℕ) (s : WordRun) (i : WordCycle) : Prop :=
  i.turn = .socket → ∀ w, nextWrite s.socket = some w →
    (s.popWrites = 3 → w.getLsbD bufferPoppedOffset = false) ∧
    (s.socketWrites + 1 = calls → s.popWrites < 3 → ∀ v, s.popRead = some v →
      v.getLsbD bufferOpensockOffset = last.requested)

/-- How far `udp_core_netdev_notify_pop_rx` is, with the word it has read. -/
inductive PopPhase
  | waiting
  | read (v : BitVec 32)
  | cleared (v : BitVec 32)
  | set (v : BitVec 32)
  | finished (v : BitVec 32)

namespace PopPhase

/-- The address of the control word. -/
abbrev addr (idx : BufferIdx) : RegAddr := ConfigRegs.bufferRxCtrl idx.toNat

/-- What is left to be done. -/
def code (idx : BufferIdx) : PopPhase → Code Unit
  | waiting => notifyPopRx idx.toNat
  | read v => do
    writeRegister (addr idx) (v &&& ~~~poppedMask)
    writeRegister (addr idx) (v ||| poppedMask)
    writeRegister (addr idx) (v &&& ~~~poppedMask)
  | cleared v => do
    writeRegister (addr idx) (v ||| poppedMask)
    writeRegister (addr idx) (v &&& ~~~poppedMask)
  | set v => writeRegister (addr idx) (v &&& ~~~poppedMask)
  | finished _ => pure ()

/-- The word that was read. -/
def word : PopPhase → Option (BitVec 32)
  | waiting => none
  | read v | cleared v | set v | finished v => some v

/-- The writes made so far. -/
def writes : PopPhase → ℕ
  | waiting | read _ => 0
  | cleared _ => 1
  | set _ => 2
  | finished _ => 3

end PopPhase

/-- How far the open and clear calls are. -/
inductive SocketPhase
  | between (rest : List SocketCall)
  | read (c : SocketCall) (u : BitVec 32) (rest : List SocketCall)
  /-- `udp_core_netdev_open_socket` reads the word once more. -/
  | written (rest : List SocketCall)

namespace SocketPhase

/-- What is left to be done. -/
def code (idx : BufferIdx) : SocketPhase → Code Unit
  | between rest => socketCalls idx.toNat rest
  | read .openSocket u rest => do
    writeRegister (PopPhase.addr idx) (u ||| opensockMask)
    let _ ← readRegister (PopPhase.addr idx)
    socketCalls idx.toNat rest
  | read .clearSocket u rest => do
    writeRegister (PopPhase.addr idx) (u &&& ~~~opensockMask)
    socketCalls idx.toNat rest
  | written rest => do
    let _ ← readRegister (PopPhase.addr idx)
    socketCalls idx.toNat rest

/-- The calls that have not written yet. -/
def left : SocketPhase → List SocketCall
  | between rest | written rest => rest
  | read c _ rest => c :: rest

/-- The popped bit of the word that is going to be written back. -/
def Holds (q : SocketPhase) (b : Bool) : Prop :=
  match q with
  | between _ | written _ => True
  | read _ u _ => u.getLsbD bufferPoppedOffset = b

end SocketPhase

variable {idx : BufferIdx} {s s' : WordRun} {i : WordCycle} {p p' : PopPhase} {q q' : SocketPhase}

/-- Neither bit of the word changes. -/
structure Same (idx : BufferIdx) (s s' : WordRun) : Prop where
  popped : popped s'.host idx = popped s.host idx
  opensock : s'.host.regs.opensock idx = s.host.regs.opensock idx
  pulses : s'.pulses = s.pulses

/-- The given word is written. -/
structure Wrote (idx : BufferIdx) (w : BitVec 32) (s s' : WordRun) : Prop where
  popped : popped s'.host idx = w.getLsbD bufferPoppedOffset
  opensock : s'.host.regs.opensock idx = w.getLsbD bufferOpensockOffset
  pulses : s'.pulses = s.pulses + (!WordRun.popped s.host idx && w.getLsbD bufferPoppedOffset).toNat

/-- A word that was read shows both stored bits. -/
structure Shows (idx : BufferIdx) (s : WordRun) (v : BitVec 32) : Prop where
  popped : v.getLsbD bufferPoppedOffset = popped s.host idx
  opensock : v.getLsbD bufferOpensockOffset = s.host.regs.opensock idx

/-- All that one register access can do. -/
inductive Moved (idx : BufferIdx) (s s' : WordRun) :
    PopPhase → SocketPhase → PopPhase → SocketPhase → Prop
  | popRead {q : SocketPhase} (v : BitVec 32) (hv : Shows idx s v) (h : Same idx s s') :
      Moved idx s s' .waiting q (.read v) q
  | popClear {q : SocketPhase} (v : BitVec 32) (h : Wrote idx (v &&& ~~~poppedMask) s s') :
      Moved idx s s' (.read v) q (.cleared v) q
  | popSet {q : SocketPhase} (v : BitVec 32) (h : Wrote idx (v ||| poppedMask) s s') :
      Moved idx s s' (.cleared v) q (.set v) q
  | popEnd {q : SocketPhase} (v : BitVec 32) (h : Wrote idx (v &&& ~~~poppedMask) s s') :
      Moved idx s s' (.set v) q (.finished v) q
  | socketRead {p : PopPhase} (c : SocketCall) (u : BitVec 32) (rest : List SocketCall)
      (hu : Shows idx s u) (h : Same idx s s') :
      Moved idx s s' p (.between (c :: rest)) p (.read c u rest)
  | socketWrite {p : PopPhase} {q' : SocketPhase} (c : SocketCall) (u : BitVec 32) (rest : List SocketCall)
      (hq' : q' = .between rest ∨ q' = .written rest) (h : Wrote idx (c.word u) s s') :
      Moved idx s s' p (.read c u rest) p q'
  | socketReread {p : PopPhase} (rest : List SocketCall) (h : Same idx s s') :
      Moved idx s s' p (.written rest) p (.between rest)
  | rest {p : PopPhase} {q : SocketPhase} (h : Same idx s s') : Moved idx s s' p q p q

/-- The phases of both sides, and what the histories hold of them. -/
structure At (idx : BufferIdx) (calls : List SocketCall) (s : WordRun) (p : PopPhase) (q : SocketPhase) :
    Prop where
  pop : s.pop = p.code idx
  socket : s.socket = q.code idx
  popRead : s.popRead = p.word
  popWrites : s.popWrites = p.writes
  socketWrites : s.socketWrites + q.left.length = calls.length
  suffix : q.left <:+ calls

/-- A read of the control word. -/
theorem shows_read (s : WordRun) (idx : BufferIdx) (e : Answer) :
    Shows idx s (s.host.regs.read e.status (PopPhase.addr idx)) := by
  rw [ConfigRegs.read, ConfigRegs.ringOf_toNat]
  exact ⟨ConfigRegs.getLsbD_rxWord_popped _ _, ConfigRegs.getLsbD_rxWord_opensock _ _⟩

/-- A write of the control word. -/
theorem popped_written (host : Host) (idx : BufferIdx) (w : BitVec 32) :
    popped (host.written (PopPhase.addr idx) w) idx = w.getLsbD bufferPoppedOffset ∧
      (host.written (PopPhase.addr idx) w).regs.opensock idx = w.getLsbD bufferOpensockOffset := by
  simp [popped, Host.written, ConfigRegs.write, ConfigRegs.opensock, ConfigRegs.ringOf_toNat]

/-- A written word gives a pulse at a rising edge. -/
theorem wrote_of_host {w : BitVec 32} (hhost : s'.host = s.host.written (PopPhase.addr idx) w)
    (hpulses : s'.pulses = s.pulses + edge idx s.host s'.host) : Wrote idx w s s' := by
  obtain ⟨hpopped, hopensock⟩ := popped_written s.host idx w
  rw [← hhost] at hpopped hopensock
  exact ⟨hpopped, hopensock, by rw [hpulses, edge, hpopped]⟩

/-- A step that leaves the registers gives no pulse. -/
theorem same_of_host (hhost : s'.host = s.host)
    (hpulses : s'.pulses = s.pulses + edge idx s.host s'.host) : Same idx s s' := by
  refine ⟨by rw [hhost], by rw [hhost], ?_⟩
  rw [hpulses, hhost, edge]
  simp

/-- The poll's next access. -/
theorem At.step_pop {calls : List SocketCall} (h : At idx calls s p q) (e : Answer) :
    ∃ p', At idx calls (s.step idx ⟨.pop, e⟩) p' q ∧ Moved idx s (s.step idx ⟨.pop, e⟩) p q p' q := by
  obtain ⟨hpop, hsocket, hread, hwrites, hsocketWrites, hsuffix⟩ := h
  cases p with
  | waiting =>
    refine ⟨.read (s.host.regs.read e.status (PopPhase.addr idx)), ⟨?_, hsocket, ?_, ?_, hsocketWrites,
      hsuffix⟩, .popRead _ (shows_read s idx e) (same_of_host ?_ rfl)⟩
    all_goals simp only [step, hpop]
    · rfl
    · rfl
    · exact hwrites
    · rfl
  | read v =>
    refine ⟨.cleared v, ⟨?_, hsocket, ?_, ?_, hsocketWrites, hsuffix⟩, .popClear v (wrote_of_host ?_ rfl)⟩
    all_goals simp only [step, hpop]
    · rfl
    · exact hread
    · rw [hwrites]
      rfl
    · rfl
  | cleared v =>
    refine ⟨.set v, ⟨?_, hsocket, ?_, ?_, hsocketWrites, hsuffix⟩, .popSet v (wrote_of_host ?_ rfl)⟩
    all_goals simp only [step, hpop]
    · rfl
    · exact hread
    · rw [hwrites]
      rfl
    · rfl
  | set v =>
    refine ⟨.finished v, ⟨?_, hsocket, ?_, ?_, hsocketWrites, hsuffix⟩, .popEnd v (wrote_of_host ?_ rfl)⟩
    all_goals simp only [step, hpop]
    · rfl
    · exact hread
    · rw [hwrites]
      rfl
    · rfl
  | finished v =>
    refine ⟨.finished v, ⟨?_, hsocket, ?_, ?_, hsocketWrites, hsuffix⟩, .rest (same_of_host ?_ rfl)⟩
    all_goals simp only [step, hpop]
    · rfl
    · exact hread
    · exact hwrites
    · rfl

/-- The next access of the open and clear calls. -/
theorem At.step_socket {calls : List SocketCall} (h : At idx calls s p q) (e : Answer) :
    ∃ q', At idx calls (s.step idx ⟨.socket, e⟩) p q' ∧ Moved idx s (s.step idx ⟨.socket, e⟩) p q p q' ∧
      ∀ c u rest, q = .read c u rest → q' ≠ q := by
  obtain ⟨hpop, hsocket, hread, hwrites, hsocketWrites, hsuffix⟩ := h
  cases q with
  | between rest =>
    cases rest with
    | nil =>
      refine ⟨.between [], ⟨hpop, ?_, hread, hwrites, ?_, hsuffix⟩, .rest (same_of_host ?_ rfl), by simp⟩
      all_goals simp only [step, hsocket]
      · rfl
      · exact hsocketWrites
      · rfl
    | cons c rest =>
      refine ⟨.read c (s.host.regs.read e.status (PopPhase.addr idx)) rest, ⟨hpop, ?_, hread, hwrites, ?_,
        hsuffix⟩, .socketRead c _ rest (shows_read s idx e) (same_of_host ?_ rfl), by simp⟩
      all_goals
        simp only [step, hsocket]
        cases c
      · rfl
      · rfl
      · exact hsocketWrites
      · exact hsocketWrites
      · rfl
      · rfl
  | read c u rest =>
    have hsuffix' : rest <:+ calls := (List.suffix_cons c rest).trans hsuffix
    simp only [SocketPhase.left, List.length_cons] at hsocketWrites
    cases c with
    | openSocket =>
      refine ⟨.written rest, ⟨hpop, ?_, hread, hwrites, ?_, hsuffix'⟩,
        .socketWrite _ u rest (Or.inr rfl) (wrote_of_host ?_ rfl), by simp⟩
      all_goals simp only [step, hsocket]
      · rfl
      · change s.socketWrites + 1 + rest.length = calls.length
        omega
      · rfl
    | clearSocket =>
      refine ⟨.between rest, ⟨hpop, ?_, hread, hwrites, ?_, hsuffix'⟩,
        .socketWrite _ u rest (Or.inl rfl) (wrote_of_host ?_ rfl), by simp⟩
      all_goals simp only [step, hsocket]
      · rfl
      · change s.socketWrites + 1 + rest.length = calls.length
        omega
      · rfl
  | written rest =>
    refine ⟨.between rest, ⟨hpop, ?_, hread, hwrites, ?_, hsuffix⟩, .socketReread rest (same_of_host ?_ rfl),
      by simp⟩
    all_goals simp only [step, hsocket]
    · rfl
    · exact hsocketWrites
    · rfl

/-- A call writes the popped bit back as it has read it. -/
theorem getLsbD_word_popped (c : SocketCall) (u : BitVec 32) :
    (c.word u).getLsbD bufferPoppedOffset = u.getLsbD bufferPoppedOffset := by
  have hmask : opensockMask.getLsbD bufferPoppedOffset = false := by decide
  have hclear : (~~~opensockMask).getLsbD bufferPoppedOffset = true := by decide
  cases c with
  | openSocket => rw [SocketCall.word, BitVec.getLsbD_or, hmask, Bool.or_false]
  | clearSocket => rw [SocketCall.word, BitVec.getLsbD_and, hclear, Bool.and_true]

/-- A call writes the socket-open bit it requests. -/
theorem getLsbD_word_opensock (c : SocketCall) (u : BitVec 32) :
    (c.word u).getLsbD bufferOpensockOffset = c.requested := by
  cases c with
  | openSocket => exact opensock_or u
  | clearSocket => exact opensock_and u

/-- The bits of the words `udp_core_netdev_notify_pop_rx` writes. -/
theorem getLsbD_pop_words (v : BitVec 32) :
    (v &&& ~~~poppedMask).getLsbD bufferPoppedOffset = false ∧
      (v ||| poppedMask).getLsbD bufferPoppedOffset = true ∧
      (v &&& ~~~poppedMask).getLsbD bufferOpensockOffset = v.getLsbD bufferOpensockOffset ∧
      (v ||| poppedMask).getLsbD bufferOpensockOffset = v.getLsbD bufferOpensockOffset := by
  have hclear : (~~~poppedMask).getLsbD bufferPoppedOffset = false := by decide
  have hset : poppedMask.getLsbD bufferPoppedOffset = true := by decide
  have hother : poppedMask.getLsbD bufferOpensockOffset = false := by decide
  refine ⟨?_, ?_, opensock_and_popped v, ?_⟩
  · rw [BitVec.getLsbD_and, hclear, Bool.and_false]
  · rw [BitVec.getLsbD_or, hset, Bool.or_true]
  · rw [BitVec.getLsbD_or, hother, Bool.or_false]

/-- The popped bit, the pulses and the word held by the other side agree with the phase. -/
def Edges (popped : Bool) (pulses : ℕ) (q : SocketPhase) : PopPhase → Prop
  | .waiting | .read _ => pulses = 0 ∧ q.Holds popped
  -- an old popped bit that is written back here raises the edge early
  | .cleared _ => popped = false ∧ pulses = 0 ∨ popped = true ∧ pulses = 1 ∧ q.Holds true
  | .set _ => pulses = 1 ∧ (popped = true ∨ q.Holds false)
  | .finished _ => pulses = 1 ∧ popped = false

/-- The socket-open bit that stands in the register once the poll has returned. -/
def restored (opensock : Bool) : PopPhase → Bool
  | .waiting | .finished _ => opensock
  | .read v | .cleared v | .set v => v.getLsbD bufferOpensockOffset

/-- Nothing went wrong so far. -/
structure Clean (idx : BufferIdx) (last : SocketCall) (s : WordRun) (p : PopPhase) (q : SocketPhase) :
    Prop where
  edges : Edges (popped s.host idx) s.pulses q p
  restored : q.left = [] → restored (s.host.regs.opensock idx) p = last.requested

/-- Something went wrong and cannot be undone. -/
def Harmed (idx : BufferIdx) (last : SocketCall) (s : WordRun) (p : PopPhase) (q : SocketPhase) : Prop :=
  2 ≤ s.pulses ∨ q.left = [] ∧ restored (s.host.regs.opensock idx) p ≠ last.requested

/-- What `Harmless` says of a write in the given phases. -/
def HarmlessAt (last : SocketCall) (p : PopPhase) (u : BitVec 32) (rest : List SocketCall) : Prop :=
  (p.writes = 3 → u.getLsbD bufferPoppedOffset = false) ∧
    (rest = [] → p.writes < 3 → ∀ v, p.word = some v → v.getLsbD bufferOpensockOffset = last.requested)

/-- A harmless access keeps everything in order. -/
theorem Clean.step {last : SocketCall} (h : Clean idx last s p q) (hmoved : Moved idx s s' p q p' q')
    (hlast : ∀ c u, q = .read c u [] → c = last)
    (hharmless : ∀ c u rest, q = .read c u rest → q' ≠ q → HarmlessAt last p u rest) :
    Clean idx last s' p' q' := by
  obtain ⟨hedges, hrestored⟩ := h
  cases hmoved with
  | popRead v hv hsame =>
    refine ⟨?_, fun hleft => ?_⟩
    · change s'.pulses = 0 ∧ q.Holds (popped s'.host idx)
      rw [hsame.pulses, hsame.popped]
      exact hedges
    · exact hv.opensock.trans (hrestored hleft)
  | popClear v hwrote =>
    obtain ⟨hclear, -, -, -⟩ := getLsbD_pop_words v
    refine ⟨Or.inl ⟨hwrote.popped.trans hclear, ?_⟩, hrestored⟩
    rw [hwrote.pulses, hclear, Bool.and_false, hedges.1]
    rfl
  | popSet v hwrote =>
    obtain ⟨-, hset, -, -⟩ := getLsbD_pop_words v
    refine ⟨⟨?_, Or.inl (hwrote.popped.trans hset)⟩, hrestored⟩
    rw [hwrote.pulses, hset]
    rcases hedges with ⟨hpopped, hpulses⟩ | ⟨hpopped, hpulses, -⟩ <;> simp [hpopped, hpulses]
  | popEnd v hwrote =>
    obtain ⟨hclear, -, hopen, -⟩ := getLsbD_pop_words v
    refine ⟨⟨?_, hwrote.popped.trans hclear⟩, fun hleft => ?_⟩
    · rw [hwrote.pulses, hclear, Bool.and_false, hedges.1]
      rfl
    · exact (hwrote.opensock.trans hopen).trans (hrestored hleft)
  | socketRead c u rest hu hsame =>
    refine ⟨?_, fun hleft => absurd hleft (List.cons_ne_nil _ _)⟩
    rw [hsame.popped, hsame.pulses]
    -- what is read is what stands in the register
    cases p with
    | waiting | read v => exact ⟨hedges.1, hu.popped⟩
    | cleared v =>
      rcases hedges with hlow | ⟨hpopped, hpulses, -⟩
      · exact Or.inl hlow
      · exact Or.inr ⟨hpopped, hpulses, hu.popped.trans hpopped⟩
    | set v =>
      refine ⟨hedges.1, ?_⟩
      cases hpopped : popped s.host idx with
      | true => exact Or.inl rfl
      | false => exact Or.inr (hu.popped.trans hpopped)
    | finished v => exact hedges
  | socketWrite c u rest hq' hwrote =>
    have hleft' : q'.left = rest := by rcases hq' with rfl | rfl <;> rfl
    have hfree (b : Bool) : q'.Holds b := by rcases hq' with rfl | rfl <;> trivial
    have hne : q' ≠ .read c u rest := by rcases hq' with rfl | rfl <;> simp
    obtain ⟨hrevive, hwindow⟩ := hharmless c u rest rfl hne
    have hpopped := hwrote.popped.trans (getLsbD_word_popped c u)
    have hpulses := hwrote.pulses
    rw [getLsbD_word_popped c u] at hpulses
    refine ⟨?_, fun hleft => ?_⟩
    · cases p with
      | waiting | read v =>
        obtain ⟨hzero, hholds⟩ := hedges
        have hkept : u.getLsbD bufferPoppedOffset = popped s.host idx := hholds
        refine ⟨?_, hfree _⟩
        rw [hpulses, hkept, hzero]
        simp
      | cleared v =>
        rcases hedges with ⟨hlow, hzero⟩ | ⟨hhigh, hone, hholds⟩
        · rw [hlow, hzero] at hpulses
          cases hbit : u.getLsbD bufferPoppedOffset with
          | false =>
            rw [hbit] at hpulses
            exact Or.inl ⟨hpopped.trans hbit, hpulses⟩
          | true =>
            rw [hbit] at hpulses
            exact Or.inr ⟨hpopped.trans hbit, hpulses, hfree _⟩
        · have hbit : u.getLsbD bufferPoppedOffset = true := hholds
          rw [hhigh, hone] at hpulses
          exact Or.inr ⟨hpopped.trans hbit, hpulses, hfree _⟩
      | set v =>
        refine ⟨?_, Or.inr (hfree _)⟩
        obtain ⟨hone, hhigh | hholds⟩ := hedges
        · rw [hhigh, hone] at hpulses
          exact hpulses
        · have hbit : u.getLsbD bufferPoppedOffset = false := hholds
          rw [hbit, hone, Bool.and_false] at hpulses
          exact hpulses
      | finished v =>
        have hbit := hrevive rfl
        rw [hbit, hedges.1, Bool.and_false] at hpulses
        exact ⟨hpulses, hpopped.trans hbit⟩
    · have hrest : rest = [] := hleft'.symm.trans hleft
      have hrequested : s'.host.regs.opensock idx = last.requested := by
        rw [hwrote.opensock, getLsbD_word_opensock, hlast c u (by rw [hrest])]
      cases p with
      | waiting | finished v => exact hrequested
      | read v | cleared v | set v => exact hwindow hrest (by simp [PopPhase.writes]) v rfl
  | socketReread rest hsame =>
    refine ⟨?_, fun hleft => ?_⟩
    · rw [hsame.popped, hsame.pulses]
      cases p <;> exact hedges
    · rw [hsame.opensock]
      exact hrestored hleft
  | rest hsame =>
    refine ⟨?_, fun hleft => ?_⟩
    · rw [hsame.popped, hsame.pulses]
      exact hedges
    · rw [hsame.opensock]
      exact hrestored hleft

/-- A harm is not undone by later accesses. -/
theorem Harmed.step {last : SocketCall} (h : Harmed idx last s p q) (hmoved : Moved idx s s' p q p' q') :
    Harmed idx last s' p' q' := by
  rcases h with hpulses | ⟨hleft, hlost⟩
  · left
    cases hmoved with
    | popRead _ _ hsame | socketRead _ _ _ _ hsame | socketReread _ hsame | rest hsame =>
      rw [hsame.pulses]
      exact hpulses
    | popClear _ hwrote | popSet _ hwrote | popEnd _ hwrote | socketWrite _ _ _ _ hwrote =>
      rw [hwrote.pulses]
      omega
  · right
    cases hmoved with
    | popRead v hv hsame => exact ⟨hleft, by rw [restored, hv.opensock]; exact hlost⟩
    | popClear v hwrote => exact ⟨hleft, hlost⟩
    | popSet v hwrote => exact ⟨hleft, hlost⟩
    | popEnd v hwrote =>
      refine ⟨hleft, ?_⟩
      rw [restored, hwrote.opensock, (getLsbD_pop_words v).2.2.1]
      exact hlost
    | socketRead c u rest => exact absurd hleft (List.cons_ne_nil _ _)
    | socketWrite c u rest => exact absurd hleft (List.cons_ne_nil _ _)
    | socketReread rest hsame =>
      refine ⟨hleft, ?_⟩
      rw [hsame.opensock]
      exact hlost
    | rest hsame =>
      refine ⟨hleft, ?_⟩
      rw [hsame.opensock]
      exact hlost

/-- A write that is not harmless does harm. -/
theorem Clean.harmed {last c : SocketCall} {u : BitVec 32} {rest : List SocketCall}
    (h : Clean idx last s p (.read c u rest)) (hq' : q' = .between rest ∨ q' = .written rest)
    (hwrote : Wrote idx (c.word u) s s') (hharm : ¬ HarmlessAt last p u rest) :
    Harmed idx last s' p q' := by
  have hleft' : q'.left = rest := by rcases hq' with rfl | rfl <;> rfl
  rw [HarmlessAt, not_and_or] at hharm
  rcases hharm with hrevive | hwindow
  · obtain ⟨hwrites, hbit⟩ := Classical.not_imp.mp hrevive
    left
    cases p with
    | finished v =>
      obtain ⟨hone, hlow⟩ := h.edges
      have hpulses := hwrote.pulses
      rw [getLsbD_word_popped, hlow, hone, eq_true_of_ne_false hbit] at hpulses
      simp [hpulses]
    | waiting | read v | cleared v | set v => simp [PopPhase.writes] at hwrites
  · obtain ⟨hrest, hwindow⟩ := Classical.not_imp.mp hwindow
    obtain ⟨hwrites, hwindow⟩ := Classical.not_imp.mp hwindow
    obtain ⟨v, hwindow⟩ := Classical.not_forall.mp hwindow
    obtain ⟨hword, hlost⟩ := Classical.not_imp.mp hwindow
    right
    refine ⟨hleft'.trans hrest, ?_⟩
    cases p with
    | waiting => simp [PopPhase.word] at hword
    | finished v' => simp [PopPhase.writes] at hwrites
    | read v' | cleared v' | set v' =>
      simp only [PopPhase.word, Option.some.injEq] at hword
      rw [WordRun.restored, hword]
      exact hlost

/-- One register access, with the phases it leads to. -/
theorem At.step {calls : List SocketCall} (h : At idx calls s p q) (i : WordCycle) :
    ∃ p' q', At idx calls (s.step idx i) p' q' ∧ Moved idx s (s.step idx i) p q p' q' ∧
      (i.turn = .pop → q' = q) ∧
      (i.turn = .socket → p' = p ∧ ∀ c u rest, q = .read c u rest → q' ≠ q) := by
  obtain ⟨turn, e⟩ := i
  cases turn with
  | pop =>
    obtain ⟨p', hat, hmoved⟩ := h.step_pop e
    exact ⟨p', q, hat, hmoved, fun _ => rfl, by simp⟩
  | socket =>
    obtain ⟨q', hat, hmoved, hne⟩ := h.step_socket e
    exact ⟨p, q', hat, hmoved, by simp, fun _ => ⟨rfl, hne⟩⟩

/-- The word the open and clear calls write next. -/
theorem nextWrite_code (q : SocketPhase) (idx : BufferIdx) (w : BitVec 32) :
    nextWrite (q.code idx) = some w ↔ ∃ c u rest, q = .read c u rest ∧ w = c.word u := by
  constructor
  · intro h
    match q, h with
    | .between [], h => simp [SocketPhase.code, socketCalls, Program.forEach, nextWrite] at h
    | .between (.openSocket :: rest), h => cases h
    | .between (.clearSocket :: rest), h => cases h
    | .read .openSocket u rest, h => exact ⟨_, u, rest, rfl, (Option.some.inj h).symm⟩
    | .read .clearSocket u rest, h => exact ⟨_, u, rest, rfl, (Option.some.inj h).symm⟩
    | .written rest, h => cases h
  · rintro ⟨c, u, rest, rfl, rfl⟩
    cases c <;> rfl

/-- The condition on a write, read off the phases. -/
theorem At.harmless_iff {init : List SocketCall} {last : SocketCall}
    (h : At idx (init ++ [last]) s p q) (i : WordCycle) : Harmless last (init ++ [last]).length s i ↔
      (i.turn = .socket → ∀ c u rest, q = .read c u rest → HarmlessAt last p u rest) := by
  rw [Harmless, h.socket, h.popWrites, h.popRead]
  refine imp_congr_right fun _ => ?_
  have hlast (rest : List SocketCall) (hrest : s.socketWrites + (rest.length + 1) = (init ++ [last]).length) :
      s.socketWrites + 1 = (init ++ [last]).length ↔ rest = [] := by
    rw [← List.length_eq_zero_iff]
    omega
  constructor
  · rintro hwrites c u rest rfl
    obtain ⟨hrevive, hwindow⟩ := hwrites (c.word u) ((nextWrite_code _ _ _).mpr ⟨c, u, rest, rfl, rfl⟩)
    rw [getLsbD_word_popped] at hrevive
    exact ⟨hrevive, fun hrest => hwindow ((hlast rest h.socketWrites).mpr hrest)⟩
  · intro hphases w hw
    obtain ⟨c, u, rest, rfl, rfl⟩ := (nextWrite_code _ _ _).mp hw
    obtain ⟨hrevive, hwindow⟩ := hphases c u rest rfl
    rw [getLsbD_word_popped]
    exact ⟨hrevive, fun hrest => hwindow ((hlast rest h.socketWrites).mp hrest)⟩

/-- After the return of both sides the poll has finished and no call is left. -/
theorem At.of_returned {calls : List SocketCall} (h : At idx calls s p q) (hreturned : s.Returned) :
    (∃ v, p = .finished v) ∧ q = .between [] := by
  obtain ⟨hpop, hsocket⟩ := hreturned
  rw [h.pop] at hpop
  rw [h.socket] at hsocket
  refine ⟨?_, ?_⟩
  · cases p with
    | finished v => exact ⟨v, rfl⟩
    | waiting | read v | cleared v | set v => cases hpop
  · match q, hsocket with
    | .between [], _ => rfl
    | .between (.openSocket :: rest), hsocket => cases hsocket
    | .between (.clearSocket :: rest), hsocket => cases hsocket
    | .read .openSocket u rest, hsocket => cases hsocket
    | .read .clearSocket u rest, hsocket => cases hsocket
    | .written rest, hsocket => cases hsocket

/-- A harmed run does not end well. -/
theorem not_separate_of_harmed {calls : List SocketCall} {last : SocketCall} (h : At idx calls s p q)
    (hharmed : Harmed idx last s p q) (accesses : List WordCycle)
    (hreturned : ((machine idx).run s accesses).Returned) :
    ¬ Separate idx last ((machine idx).run s accesses) := by
  induction accesses generalizing s p q with
  | nil =>
    obtain ⟨⟨v, rfl⟩, rfl⟩ := h.of_returned hreturned
    rintro ⟨hpulses, hopensock⟩
    simp only [Clocked.Machine.run_nil] at hpulses hopensock
    rcases hharmed with htwice | ⟨-, hlost⟩
    · omega
    · exact hlost hopensock
  | cons i rest ih =>
    obtain ⟨p', q', hat, hmoved, -, -⟩ := h.step i
    exact ih hat (hharmed.step hmoved) hreturned

/-- From a clean state a run ends well exactly when all its accesses are harmless. -/
theorem Clean.legal_iff {init : List SocketCall} {last : SocketCall} (hclean : Clean idx last s p q)
    (h : At idx (init ++ [last]) s p q) (accesses : List WordCycle)
    (hreturned : ((machine idx).run s accesses).Returned) :
    ((machine idx).restrict (Harmless last (init ++ [last]).length)).Legal s accesses ↔
      Separate idx last ((machine idx).run s accesses) := by
  induction accesses generalizing s p q with
  | nil =>
    obtain ⟨⟨v, rfl⟩, rfl⟩ := h.of_returned hreturned
    exact iff_of_true trivial ⟨hclean.edges.1, hclean.restored rfl⟩
  | cons i rest ih =>
    obtain ⟨p', q', hat, hmoved, hpop, hsocket⟩ := h.step i
    have hlast (c : SocketCall) (u : BitVec 32) (hq : q = .read c u []) : c = last := by
      have hsuffix := h.suffix
      rw [hq] at hsuffix
      obtain ⟨before, hbefore⟩ := hsuffix
      have heq : [c] = [last] := (List.append_inj' hbefore rfl).2
      simpa using heq
    by_cases hharmless : Harmless last (init ++ [last]).length s i
    · have hphases := (h.harmless_iff i).mp hharmless
      have hcleanNext : Clean idx last (s.step idx i) p' q' := by
        refine hclean.step hmoved hlast fun c u rest hq hne => ?_
        cases hturn : i.turn with
        | pop => exact absurd (hpop hturn) hne
        | socket => exact hphases hturn c u rest hq
      have hrest := ih hcleanNext hat hreturned
      exact ⟨fun hlegal => hrest.mp hlegal.2, fun hends => ⟨⟨trivial, hharmless⟩, hrest.mpr hends⟩⟩
    · refine iff_of_false (fun hlegal => hharmless hlegal.1.2) ?_
      rw [h.harmless_iff] at hharmless
      obtain ⟨hturn, hphases⟩ := Classical.not_imp.mp hharmless
      simp only [not_forall] at hphases
      obtain ⟨c, u, left, rfl, hharm⟩ := hphases
      obtain ⟨rfl, hne⟩ := hsocket hturn
      have hharmed : Harmed idx last (s.step idx i) p' q' := by
        cases hmoved with
        | socketWrite _ _ _ hq' hwrote => exact hclean.harmed hq' hwrote hharm
        | rest hsame => exact absurd rfl (hne c u left rfl)
      exact not_separate_of_harmed hat hharmed rest hreturned

/-- The phases before the first access. -/
theorem at_start (host : Host) (idx : BufferIdx) (calls : List SocketCall) :
    At idx calls (start host idx calls) .waiting (.between calls) :=
  ⟨rfl, rfl, rfl, rfl, Nat.zero_add _, List.suffix_rfl⟩

/-- For every initial state of the device, every sequence of open and clear calls and every order of
the register accesses: exactly one pop pulse is generated and the socket-open bit is the one
requested last, if and only if every access is harmless. -/
theorem separate_iff_harmless (host : Host) (idx : BufferIdx) (init : List SocketCall) (last : SocketCall)
    (accesses : List WordCycle)
    (hreturned : ((machine idx).run (start host idx (init ++ [last])) accesses).Returned) :
    Separate idx last ((machine idx).run (start host idx (init ++ [last])) accesses) ↔
      ((machine idx).restrict (Harmless last (init ++ [last]).length)).Legal
        (start host idx (init ++ [last])) accesses := by
  have hclean : Clean idx last (start host idx (init ++ [last])) .waiting (.between (init ++ [last])) :=
    ⟨⟨rfl, trivial⟩, fun hleft => absurd hleft (by simp [SocketPhase.left])⟩
  exact (hclean.legal_iff (at_start host idx _) accesses hreturned).symm

section Counterexample

/-- A register access at which the device shows an empty ring. -/
def access (turn : Turn) : WordCycle :=
  ⟨turn, ⟨⟨fun _ => ⟨false, false, true, 0, 0⟩, 0, 0, true, false, false, fun _ => 0⟩, none, 0⟩⟩

/-- The interface is open and so is the socket of the first ring. -/
def opened : Host := ⟨ConfigRegs.reset.write (ConfigRegs.bufferRxCtrl 0) opensockMask, .initial, some 0, true⟩

/-- The poll has read the control word, and the socket is closed before the poll writes it back. -/
def reopening : List WordCycle :=
  access .pop :: List.replicate 2 (access .socket) ++ List.replicate 3 (access .pop)

/-- The poll writes the open-socket bit of a closed socket back. -/
theorem not_separate : ¬ ∀ (host : Host) (idx : BufferIdx) (init : List SocketCall) (last : SocketCall)
    (accesses : List WordCycle),
    ((machine idx).run (start host idx (init ++ [last])) accesses).Returned →
      Separate idx last ((machine idx).run (start host idx (init ++ [last])) accesses) := by
  intro h
  have hreturned : ((machine 0).run (start opened 0 [.clearSocket]) reopening).Returned := by
    constructor <;> rfl
  have hopensock := (h opened 0 [] .clearSocket reopening hreturned).2
  exact absurd hopensock (by decide)

/-- A clear before the first access of the poll is harmless. -/
theorem separate_of_apart : Separate 0 .clearSocket
    ((machine 0).run (start opened 0 [.clearSocket])
      (List.replicate 2 (access .socket) ++ List.replicate 4 (access .pop))) := by
  refine (separate_iff_harmless opened 0 [] .clearSocket _ ?_).mpr ?_
  · constructor <;> rfl
  · have hread : Harmless .clearSocket 1 (start opened 0 [.clearSocket]) (access .socket) := by
      intro _ w hw
      cases hw
    have hwrite : Harmless .clearSocket 1 ((start opened 0 [.clearSocket]).step 0 (access .socket))
        (access .socket) := by
      intro _ w _
      exact ⟨nofun, fun _ _ v hv => nomatch hv⟩
    have hpop (s : WordRun) : Harmless .clearSocket 1 s (access .pop) := nofun
    exact ⟨⟨trivial, hread⟩, ⟨trivial, hwrite⟩, ⟨trivial, hpop _⟩, ⟨trivial, hpop _⟩,
      ⟨trivial, hpop _⟩, ⟨trivial, hpop _⟩, trivial⟩

end Counterexample

end WordRun

end Kernel

end UdpIpCore
