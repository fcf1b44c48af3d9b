import UdpIpCore.Clocked
import UdpIpCore.Rtl.CircularBuffer
import UdpIpCore.Rtl.DmaWriteControl
import UdpIpCore.Rtl.ConfigRegs

/-!
# Interrupts and the NAPI poll

Reception in the kernel driver is a handshake over three bits. A push sets `ISR0` while
`IER0` is set; the interrupt handler clears `GIE`, schedules the poll and toggles `ISR0`;
the poll empties the rings, completes and sets `GIE` again. The single steps of the
device, the handler, the poll and `udp_core_ndo_open` may come in any order. The reset that
`udp_core_ndo_open` requests is served once the core is not busy, so at any later time.
-/

namespace UdpIpCore

namespace Kernel

/-- The next step of `udp_core_irq_handler`. -/
inductive HandlerStage
  | idle
  /-- Write 0 to `GIE`. -/
  | disable
  /-- `napi_schedule`. -/
  | schedule
  /-- Write `ISR0`. -/
  | acknowledge
deriving DecidableEq

/-- The next step of `udp_core_rx_poll`. -/
inductive PollStage
  | idle
  /-- Read the control word of the listed port, in a pass that has found a packet or not. -/
  | reading (port : ℕ) (packetFound : Bool) (processed : ℕ)
  /-- Pop the packet of the listed port. -/
  | popping (port : ℕ) (processed : ℕ)
  /-- `napi_complete`. -/
  | completing
  /-- Write 1 to `GIE`. -/
  | enabling
deriving DecidableEq

/-- The steps of `udp_core_ndo_open`; those that concern neither the rings nor the interrupt are
`other`. -/
inductive OpenStep
  | writeRes (value : Bool)
  | other
  | notifyPopRx (idx : BufferIdx)
  | clearSocket (idx : BufferIdx)
  | openSocket (idx : BufferIdx)
  | writeIer0
  | writeGie
  | napiEnable
deriving DecidableEq

/-- The device and the three contexts of the driver. -/
structure WakeUp where
  rings : BufferIdx → CircularBuffer bufferRxLength
  opensock : BufferIdx → Bool
  isr : Bool
  ier : Bool
  gie : Bool
  /-- The user reset register. -/
  res : Bool
  /-- `rst_requested`, which stays until the reset is served. -/
  requested : Bool
  /-- `rst_user`, which holds the rings in reset. -/
  rstUser : Bool
  napiEnabled : Bool
  napiScheduled : Bool
  handler : HandlerStage
  poll : PollStage
  /-- The steps of `udp_core_ndo_open` that are left. -/
  opening : List OpenStep

/-- One step of the device or of one of the contexts. -/
inductive WakeEvent
  /-- The PL pushes a packet. -/
  | push (idx : BufferIdx)
  /-- The core is not busy, and a requested reset is asserted. -/
  | reset
  /-- The reset is released, perhaps to be asserted again. -/
  | release
  /-- The interrupt line is high and the handler is entered. -/
  | interrupt
  | handler
  /-- The scheduled poll is entered. -/
  | pollStart
  /-- A step of the poll, with the outcome of `netdev_alloc_skb` if it calls it. -/
  | poll (skb : Bool)
  | ndoOpen

/-- The last steps of `udp_core_ndo_open`. -/
def openTail : List OpenStep := [.other, .writeIer0, .writeGie, .writeRes false, .napiEnable]

/-- The steps of `udp_core_ndo_open` between its first write and its last ones: the DMA area and the
port range, the loop that empties and closes every ring, and the loop that opens the listed ones. -/
def openLoops (ports : List BufferIdx) : List OpenStep :=
  List.replicate 4 .other ++
    (List.range maxUdpPorts).flatMap (fun n => [.notifyPopRx (BitVec.ofNat 10 n), .clearSocket (BitVec.ofNat 10 n)]) ++
    ports.map .openSocket

/-- `udp_core_ndo_open`. -/
def openSteps (ports : List BufferIdx) : List OpenStep := .writeRes true :: (openLoops ports ++ openTail)

namespace WakeUp

/-- The interrupt line. -/
def interruptLine (s : WakeUp) : Bool := s.gie && s.isr

/-- The state in which `udp_core_ndo_open` is called: the interrupt is disabled and NAPI too. -/
def start (rings : BufferIdx → CircularBuffer bufferRxLength) (opensock : BufferIdx → Bool)
    (isr ier res requested rstUser : Bool) (ports : List BufferIdx) : WakeUp where
  rings := rings
  opensock := opensock
  isr := isr
  ier := ier
  gie := false
  res := res
  requested := requested
  rstUser := rstUser
  napiEnabled := false
  napiScheduled := false
  handler := .idle
  poll := .idle
  opening := openSteps ports

/-- A pop pulse; the rings do not count while they are held in reset. -/
def popRing (s : WakeUp) (idx : BufferIdx) : BufferIdx → CircularBuffer bufferRxLength :=
  if s.rstUser then s.rings else Function.update s.rings idx ((s.rings idx).step false true)

/-- A push pulse, which is recorded if the interrupt is enabled in `IER0`. -/
def push (s : WakeUp) (idx : BufferIdx) : WakeUp :=
  { s with
    rings := Function.update s.rings idx ((s.rings idx).step true false)
    isr := s.isr || s.ier }

/-- A step of the handler; `napi_schedule` has no effect while NAPI is disabled. -/
def stepHandler (s : WakeUp) : WakeUp :=
  match s.handler with
  | .idle => s
  | .disable => { s with gie := false, handler := .schedule }
  | .schedule => { s with napiScheduled := s.napiScheduled || s.napiEnabled, handler := .acknowledge }
  | .acknowledge => { s with isr := !s.isr, handler := .idle }

/-- The end of a pass over the ports; a poll that has used up its budget stays scheduled. -/
def endPass (budget : ℕ) (packetFound : Bool) (processed : ℕ) : PollStage :=
  if packetFound && decide (processed < budget) then .reading 0 false processed
  else if processed < budget then .completing
  else .idle

/-- A step of the poll. -/
def stepPoll (ports : List BufferIdx) (budget : ℕ) (s : WakeUp) (skb : Bool) : WakeUp :=
  match s.poll with
  | .idle => s
  | .reading port packetFound processed =>
    match ports[port]? with
    | none => { s with poll := endPass budget packetFound processed }
    | some idx =>
      if budget ≤ processed then { s with poll := endPass budget packetFound processed }
      else if (s.rings idx).empty then { s with poll := .reading (port + 1) packetFound processed }
      else if skb then { s with poll := .popping port processed }
      else { s with poll := endPass budget true processed }
  | .popping port processed =>
    { s with
      rings := match ports[port]? with
        | none => s.rings
        | some idx => s.popRing idx
      poll := .reading (port + 1) true (processed + 1) }
  | .completing => { s with napiScheduled := false, poll := .enabling }
  | .enabling => { s with gie := true, poll := .idle }

/-- A step of `udp_core_ndo_open`. -/
def stepOpen (s : WakeUp) : WakeUp :=
  match s.opening with
  | [] => s
  | step :: rest =>
    let t := { s with opening := rest }
    match step with
    | .writeRes true => { t with res := true, requested := true }
    | .writeRes false => { t with res := false }
    | .other => t
    | .notifyPopRx idx => { t with rings := s.popRing idx }
    | .clearSocket idx => { t with opensock := Function.update s.opensock idx false }
    | .openSocket idx => { t with opensock := Function.update s.opensock idx true }
    | .writeIer0 => { t with ier := true }
    | .writeGie => { t with gie := true }
    | .napiEnable => { t with napiEnabled := true }

/-- One step. -/
def step (ports : List BufferIdx) (budget : ℕ) (s : WakeUp) : WakeEvent → WakeUp
  | .push idx => s.push idx
  | .reset => { s with rstUser := true, rings := fun _ => .reset _ }
  | .release => { s with rstUser := false, requested := s.res }
  | .interrupt => { s with handler := .disable }
  | .handler => s.stepHandler
  | .pollStart => { s with poll := .reading 0 false 0 }
  | .poll skb => s.stepPoll ports budget skb
  | .ndoOpen => s.stepOpen

/-- When a step can be taken. -/
def Enabled (s : WakeUp) : WakeEvent → Prop
  | .push idx => s.opensock idx = true ∧ s.rstUser = false
  | .reset => s.requested = true
  | .release => s.rstUser = true
  | .interrupt => s.handler = .idle ∧ s.interruptLine = true
  | .handler => s.handler ≠ .idle
  | .pollStart => s.napiScheduled = true ∧ s.poll = .idle
  | .poll _ => s.poll ≠ .idle
  | .ndoOpen => s.opening ≠ []

/-- All interleavings of the device, the handler, the poll and `udp_core_ndo_open`. -/
def machine (ports : List BufferIdx) (budget : ℕ) : Clocked.Machine WakeUp WakeEvent where
  step := step ports budget
  legal := Enabled

/-- A packet waits in an open ring. -/
def Waiting (s : WakeUp) : Prop := ∃ idx, s.opensock idx = true ∧ (s.rings idx).empty = false

/-- Once the interface is open, a waiting packet that no context is about to handle holds the
interrupt line high. -/
def Awake (s : WakeUp) : Prop :=
  s.opening = [] → s.handler = .idle → s.poll = .idle → s.napiScheduled = false → s.Waiting →
    s.interruptLine = true

/-- The poll still comes to a waiting packet: it is scheduled and has not started, it has found a
packet in its current pass, or there is one in a ring that the pass has not reached. -/
def Ahead (ports : List BufferIdx) (s : WakeUp) : Prop :=
  match s.poll with
  | .idle => s.napiScheduled = true
  | .reading port packetFound _ => packetFound = true ∨ ∃ idx ∈ ports.drop port, (s.rings idx).empty = false
  | .popping _ _ => True
  | .completing | .enabling => False

/-- The handler calls `napi_schedule` only while NAPI is enabled, and writes `ISR0` only while the
poll still comes to every packet that waits. When `udp_core_ndo_open` sets `IER0`, no packet waits
that has not raised the interrupt. -/
def InTime (ports : List BufferIdx) (s : WakeUp) (e : WakeEvent) : Prop :=
  match e with
  | .handler =>
    (s.handler = .schedule → s.napiEnabled = true) ∧
      (s.handler = .acknowledge → s.Waiting → s.Ahead ports)
  | .ndoOpen => s.opening.head? = some .writeIer0 → s.Waiting → s.isr = true
  | _ => True

/-- The invariant of the runs in which the handler is in time. -/
structure Handshake (ports : List BufferIdx) (s : WakeUp) : Prop where
  suffix : s.opening <:+ openSteps ports
  listed : ∀ idx, s.opensock idx = true → .clearSocket idx ∈ s.opening ∨ idx ∈ ports
  ier : .writeIer0 ∉ s.opening → s.ier = true
  quiet : .writeGie ∈ s.opening →
    s.gie = false ∧ s.handler = .idle ∧ s.poll = .idle ∧ s.napiScheduled = false
  isr : s.handler ≠ .idle → s.isr = true
  running : s.poll ≠ .idle → s.poll ≠ .enabling → s.napiScheduled = true
  gie : .writeGie ∉ s.opening →
    s.gie = true ∨ s.handler = .schedule ∨ s.napiScheduled = true ∨ s.poll ≠ .idle
  seen : .writeIer0 ∉ s.opening → s.Waiting → s.isr = true ∨ s.Ahead ports

variable {ports : List BufferIdx} {budget : ℕ} {s : WakeUp}

/-- Where `udp_core_ndo_open` is: at its first write, in its loops, or in one of its last steps. -/
theorem suffix_openSteps {l : List OpenStep} (h : l <:+ openSteps ports) :
    l = openSteps ports ∨ (∃ rest, rest <:+ openLoops ports ∧ l = rest ++ openTail) ∨
      l = [.writeIer0, .writeGie, .writeRes false, .napiEnable] ∨
      l = [.writeGie, .writeRes false, .napiEnable] ∨ l = [.writeRes false, .napiEnable] ∨
      l = [.napiEnable] ∨ l = [] := by
  rcases List.suffix_cons_iff.mp h with hfirst | hlater
  · exact Or.inl hfirst
  · right
    rcases List.suffix_or_suffix_of_suffix hlater (List.suffix_append _ _) with hshort | ⟨rest, rfl⟩
    · simp only [openTail, List.suffix_cons_iff, List.suffix_nil] at hshort
      rcases hshort with rfl | hshort
      · exact Or.inl ⟨[], List.nil_suffix, rfl⟩
      · exact Or.inr hshort
    · exact Or.inl ⟨rest, List.suffix_append_self_iff.mp hlater, rfl⟩

/-- Every socket is going to be closed when `udp_core_ndo_open` is called. -/
theorem clearSocket_mem (ports : List BufferIdx) (idx : BufferIdx) :
    OpenStep.clearSocket idx ∈ openSteps ports := by
  have hself : BitVec.ofNat 10 idx.toNat = idx := by simp
  have hlt : idx.toNat < maxUdpPorts := idx.isLt
  simp only [openSteps, openLoops, List.mem_cons, List.mem_append, List.mem_flatMap, List.mem_range]
  refine Or.inr (Or.inl (Or.inl (Or.inr ⟨idx.toNat, hlt, ?_⟩)))
  rw [hself]
  simp

/-- Before the call nothing is claimed but that the interrupt is off. -/
theorem handshake_start (rings : BufferIdx → CircularBuffer bufferRxLength) (opensock : BufferIdx → Bool)
    (isr ier res requested rstUser : Bool) (ports : List BufferIdx) :
    (start rings opensock isr ier res requested rstUser ports).Handshake ports where
  suffix := List.suffix_refl _
  listed idx _ := Or.inl (clearSocket_mem ports idx)
  ier hnot := absurd (show OpenStep.writeIer0 ∈ openSteps ports by simp [openSteps, openTail]) hnot
  quiet _ := ⟨rfl, rfl, rfl, rfl⟩
  isr hne := absurd rfl hne
  running hne := absurd rfl hne
  gie hnot := absurd (show OpenStep.writeGie ∈ openSteps ports by simp [openSteps, openTail]) hnot
  seen hnot :=
    absurd (show OpenStep.writeIer0 ∈ openSteps ports by simp [openSteps, openTail]) hnot

/-- Once `IER0` is set, no socket is closed any more. -/
theorem Handshake.recorded (h : s.Handshake ports) (hset : .writeIer0 ∉ s.opening) :
    s.ier = true ∧ ∀ idx, s.opensock idx = true → idx ∈ ports := by
  have hlate : s.opening = [.writeGie, .writeRes false, .napiEnable] ∨ s.opening = [.writeRes false, .napiEnable] ∨
      s.opening = [.napiEnable] ∨ s.opening = [] := by
    rcases suffix_openSteps h.suffix with heq | ⟨rest, -, heq⟩ | heq | hlate
    · simp [heq, openSteps, openTail] at hset
    · simp [heq, openTail] at hset
    · simp [heq] at hset
    · exact hlate
  refine ⟨h.ier hset, fun idx hopen => (h.listed idx hopen).resolve_left ?_⟩
  rcases hlate with heq | heq | heq | heq <;> simp [heq]

/-- After the interrupt is enabled, and only then, the contexts may be active. -/
theorem Handshake.enabled (h : s.Handshake ports)
    (hactive : s.gie = true ∨ s.handler ≠ .idle ∨ s.poll ≠ .idle ∨ s.napiScheduled = true) :
    .writeGie ∉ s.opening := by
  intro hmem
  obtain ⟨hgie, hhandler, hpoll, hscheduled⟩ := h.quiet hmem
  simp [hgie, hhandler, hpoll, hscheduled] at hactive

/-- A push is recorded in `ISR0`, once `IER0` is set. -/
theorem Handshake.push (h : s.Handshake ports) (idx : BufferIdx) : (s.push idx).Handshake ports where
  suffix := h.suffix
  listed := h.listed
  ier := h.ier
  quiet := h.quiet
  isr hne := by simp [WakeUp.push, h.isr hne]
  running := h.running
  gie := h.gie
  seen hset _ := by
    left
    simp [WakeUp.push, (h.recorded hset).1]

/-- No packet waits in a ring that is reset. -/
theorem Handshake.reset (h : s.Handshake ports) :
    ({ s with rstUser := true, rings := fun _ => .reset _ } : WakeUp).Handshake ports where
  suffix := h.suffix
  listed := h.listed
  ier := h.ier
  quiet := h.quiet
  isr := h.isr
  running := h.running
  gie := h.gie
  seen := by
    rintro - ⟨idx, -, hwaits⟩
    exact Bool.noConfusion hwaits

/-- The release of the reset leaves the rings. -/
theorem Handshake.release (h : s.Handshake ports) :
    ({ s with rstUser := false, requested := s.res } : WakeUp).Handshake ports :=
  ⟨h.suffix, h.listed, h.ier, h.quiet, h.isr, h.running, h.gie, h.seen⟩

/-- The handler is entered. -/
theorem Handshake.interrupt (h : s.Handshake ports) (hline : s.interruptLine = true) :
    ({ s with handler := .disable } : WakeUp).Handshake ports := by
  simp only [interruptLine, Bool.and_eq_true] at hline
  have henabled := h.enabled (Or.inl hline.1)
  exact
    { suffix := h.suffix
      listed := h.listed
      ier := h.ier
      quiet := fun hmem => absurd hmem henabled
      isr := fun _ => hline.2
      running := h.running
      gie := fun _ => Or.inl hline.1
      seen := h.seen }

/-- A step of the handler, provided that it is in time. -/
theorem Handshake.handler (h : s.Handshake ports) (hactive : s.handler ≠ .idle)
    (hintime : s.InTime ports .handler) : s.stepHandler.Handshake ports := by
  obtain ⟨hschedule, hacknowledge⟩ := hintime
  have henabled := h.enabled (Or.inr (Or.inl hactive))
  have hisr := h.isr hactive
  cases hstage : s.handler with
  | idle => exact absurd hstage hactive
  | disable =>
    simp only [stepHandler, hstage]
    exact
      { suffix := h.suffix
        listed := h.listed
        ier := h.ier
        quiet := fun hmem => absurd hmem henabled
        isr := fun _ => hisr
        running := h.running
        gie := fun _ => Or.inr (Or.inl rfl)
        seen := h.seen }
  | schedule =>
    have hscheduled : (s.napiScheduled || s.napiEnabled) = true := by simp [hschedule hstage]
    simp only [stepHandler, hstage, hscheduled]
    exact
      { suffix := h.suffix
        listed := h.listed
        ier := h.ier
        quiet := fun hmem => absurd hmem henabled
        isr := fun _ => hisr
        running := fun _ _ => rfl
        gie := fun _ => Or.inr (Or.inr (Or.inl rfl))
        seen := fun _ _ => Or.inl hisr }
  | acknowledge =>
    have hgie := h.gie henabled
    rw [hstage] at hgie
    simp only [stepHandler, hstage]
    exact
      { suffix := h.suffix
        listed := h.listed
        ier := h.ier
        quiet := fun hmem => absurd hmem henabled
        isr := fun hne => absurd rfl hne
        running := h.running
        gie := fun _ => hgie.imp_right fun hrest => Or.inr (hrest.resolve_left (by simp))
        seen := fun _ hwaiting => Or.inr (hacknowledge hstage hwaiting) }

/-- A new pass reads every ring in which a packet can wait. -/
theorem Handshake.restarts (h : s.Handshake ports) (hset : .writeIer0 ∉ s.opening)
    (hwaiting : s.Waiting) (processed : ℕ) :
    ({ s with poll := .reading 0 false processed } : WakeUp).Ahead ports := by
  obtain ⟨idx, hopen, hempty⟩ := hwaiting
  exact Or.inr ⟨idx, (h.recorded hset).2 idx hopen, hempty⟩

/-- The poll is entered. -/
theorem Handshake.pollStart (h : s.Handshake ports) (hscheduled : s.napiScheduled = true) :
    ({ s with poll := .reading 0 false 0 } : WakeUp).Handshake ports := by
  have henabled := h.enabled (Or.inr (Or.inr (Or.inr hscheduled)))
  exact
    { suffix := h.suffix
      listed := h.listed
      ier := h.ier
      quiet := fun hmem => absurd hmem henabled
      isr := h.isr
      running := fun _ _ => hscheduled
      gie := fun _ => Or.inr (Or.inr (Or.inr (by simp)))
      seen := fun hset hwaiting => Or.inr (h.restarts hset hwaiting 0) }

/-- A step of the poll that leaves the registers and the rings and does not end it. -/
theorem Handshake.pollMoves (h : s.Handshake ports) (hactive : s.poll ≠ .idle)
    (hscheduled : s.napiScheduled = true) (next : PollStage)
    (hseen : .writeIer0 ∉ s.opening → s.Waiting → s.Ahead ports →
      ({ s with poll := next } : WakeUp).Ahead ports) :
    ({ s with poll := next } : WakeUp).Handshake ports where
  suffix := h.suffix
  listed := h.listed
  ier := h.ier
  quiet hmem := absurd hmem (h.enabled (Or.inr (Or.inr (Or.inl hactive))))
  isr := h.isr
  running _ _ := hscheduled
  gie _ := Or.inr (Or.inr (Or.inl hscheduled))
  seen hset hwaiting := (h.seen hset hwaiting).imp_right (hseen hset hwaiting)

/-- The end of a pass: another one follows, or the poll stays scheduled, unless nothing was found. -/
theorem Handshake.endPass (h : s.Handshake ports) {port processed : ℕ} {packetFound : Bool}
    (hpoll : s.poll = .reading port packetFound processed) (found : Bool)
    (hfound : s.Ahead ports → found = true ∨ budget ≤ processed) :
    ({ s with poll := WakeUp.endPass budget found processed } : WakeUp).Handshake ports := by
  have hactive : s.poll ≠ .idle := by simp [hpoll]
  have hscheduled := h.running hactive (by simp [hpoll])
  refine h.pollMoves hactive hscheduled _ fun hset hwaiting hahead => ?_
  by_cases hlt : processed < budget
  · have hyes : found = true := (hfound hahead).resolve_right (by omega)
    simp only [WakeUp.endPass, hyes, hlt, decide_true, Bool.and_self, if_true]
    exact h.restarts hset hwaiting processed
  · simp only [WakeUp.endPass, hlt, decide_false, Bool.and_false, Bool.false_eq_true, if_false]
    exact hscheduled

/-- A step of the poll. -/
theorem Handshake.poll (h : s.Handshake ports) (hactive : s.poll ≠ .idle) (skb : Bool) :
    (s.stepPoll ports budget skb).Handshake ports := by
  have henabled := h.enabled (Or.inr (Or.inr (Or.inl hactive)))
  cases hpoll : s.poll with
  | idle => exact absurd hpoll hactive
  | reading port packetFound processed =>
    have hscheduled := h.running hactive (by simp [hpoll])
    have hahead : s.Ahead ports →
        packetFound = true ∨ ∃ idx ∈ ports.drop port, (s.rings idx).empty = false := by
      intro hahead
      simpa [Ahead, hpoll] using hahead
    cases hport : ports[port]? with
    | none =>
      simp only [stepPoll, hpoll, hport]
      refine h.endPass hpoll packetFound fun hseen => ?_
      have hdrop : ports.drop port = [] := List.drop_eq_nil_of_le (List.getElem?_eq_none_iff.mp hport)
      left
      simpa [hdrop] using hahead hseen
    | some idx =>
      simp only [stepPoll, hpoll, hport]
      by_cases hbudget : budget ≤ processed
      · rw [if_pos hbudget]
        exact h.endPass hpoll packetFound fun _ => Or.inr hbudget
      rw [if_neg hbudget]
      cases hempty : (s.rings idx).empty with
      | true =>
        simp only [if_true]
        refine h.pollMoves hactive hscheduled _ fun _ _ hseen => ?_
        refine (hahead hseen).imp_right ?_
        rintro ⟨other, hother, hwaits⟩
        -- the ring that was read is empty, so the packet waits in a later one
        obtain ⟨hlt, rfl⟩ := List.getElem?_eq_some_iff.mp hport
        rw [List.drop_eq_getElem_cons hlt, List.mem_cons] at hother
        rcases hother with rfl | hother
        · simp [hempty] at hwaits
        · exact ⟨other, hother, hwaits⟩
      | false =>
        simp only [Bool.false_eq_true, if_false]
        cases skb with
        | true => exact h.pollMoves hactive hscheduled _ fun _ _ _ => trivial
        | false => exact h.endPass hpoll true fun _ => Or.inl rfl
  | popping port processed =>
    have hscheduled := h.running hactive (by simp [hpoll])
    simp only [stepPoll, hpoll]
    exact
      { suffix := h.suffix
        listed := h.listed
        ier := h.ier
        quiet := fun hmem => absurd hmem henabled
        isr := h.isr
        running := fun _ _ => hscheduled
        gie := fun _ => Or.inr (Or.inr (Or.inl hscheduled))
        seen := fun _ _ => Or.inr (Or.inl rfl) }
  | completing =>
    simp only [stepPoll, hpoll]
    exact
      { suffix := h.suffix
        listed := h.listed
        ier := h.ier
        quiet := fun hmem => absurd hmem henabled
        isr := h.isr
        running := fun _ hne => absurd rfl hne
        gie := fun _ => Or.inr (Or.inr (Or.inr (by simp)))
        seen := fun hset hwaiting =>
          Or.inl ((h.seen hset hwaiting).resolve_right (by simp [Ahead, hpoll])) }
  | enabling =>
    simp only [stepPoll, hpoll]
    exact
      { suffix := h.suffix
        listed := h.listed
        ier := h.ier
        quiet := fun hmem => absurd hmem henabled
        isr := h.isr
        running := fun hne => absurd rfl hne
        gie := fun _ => Or.inl rfl
        seen := fun hset hwaiting =>
          Or.inl ((h.seen hset hwaiting).resolve_right (by simp [Ahead, hpoll])) }

/-- A step of the loops of `udp_core_ndo_open`, before the interrupt is set up. -/
theorem Handshake.openLoop (h : s.Handshake ports) {step : OpenStep} {rest : List OpenStep}
    (hloops : step :: rest <:+ openLoops ports) (hopening : s.opening = step :: rest ++ openTail) :
    s.stepOpen.Handshake ports := by
  have hquiet := h.quiet (by simp [hopening, openTail])
  have hsuffix : rest ++ openTail <:+ openSteps ports := by
    rw [openSteps, ← List.cons_append]
    exact List.suffix_append_self_iff.mpr
      (((List.suffix_cons _ _).trans hloops).trans (List.suffix_cons _ _))
  have hlisted (idx : BufferIdx) (hnot : step ≠ .clearSocket idx) (hopen : s.opensock idx = true) :
      .clearSocket idx ∈ rest ++ openTail ∨ idx ∈ ports := by
    have hbefore := h.listed idx hopen
    rw [hopening, List.cons_append, List.mem_cons] at hbefore
    exact hbefore.imp_left fun hmem => hmem.resolve_left fun heq => hnot heq.symm
  have hstep : step ∈ openLoops ports := hloops.mem List.mem_cons_self
  -- what no step of the loops changes; a packet may come into any ring meanwhile
  have hframe (t : WakeUp) (hopening' : t.opening = rest ++ openTail) (hgie : t.gie = s.gie)
      (hhandler : t.handler = s.handler) (hpoll : t.poll = s.poll) (hscheduled : t.napiScheduled = s.napiScheduled)
      (hsock : ∀ idx, t.opensock idx = true → .clearSocket idx ∈ rest ++ openTail ∨ idx ∈ ports) :
      t.Handshake ports := by
    refine ⟨hopening' ▸ hsuffix, hopening' ▸ hsock, fun hnot => ?_, fun _ => ?_, fun hactive => ?_, fun hactive => ?_,
      fun hnot => ?_, fun hnot => ?_⟩
    · simp [hopening', openTail] at hnot
    · rw [hgie, hhandler, hpoll, hscheduled]
      exact hquiet
    · exact absurd (hhandler.trans hquiet.2.1) hactive
    · exact absurd (hpoll.trans hquiet.2.2.1) hactive
    · simp [hopening', openTail] at hnot
    · simp [hopening', openTail] at hnot
  cases step with
  | other =>
    simp only [stepOpen, hopening, List.cons_append]
    exact hframe _ rfl rfl rfl rfl rfl fun idx => hlisted idx (by simp)
  | notifyPopRx ring =>
    simp only [stepOpen, hopening, List.cons_append]
    exact hframe _ rfl rfl rfl rfl rfl fun idx => hlisted idx (by simp)
  | clearSocket ring =>
    simp only [stepOpen, hopening, List.cons_append]
    refine hframe _ rfl rfl rfl rfl rfl fun idx hopen => ?_
    by_cases hring : idx = ring
    · simp [hring] at hopen
    · exact hlisted idx (by simp [Ne.symm hring]) (by simpa [hring] using hopen)
  | openSocket ring =>
    simp only [stepOpen, hopening, List.cons_append]
    refine hframe _ rfl rfl rfl rfl rfl fun idx hopen => ?_
    by_cases hring : idx = ring
    · right
      rw [hring]
      simpa [openLoops] using hstep
    · exact hlisted idx (by simp) (by simpa [hring] using hopen)
  | writeRes value => simp [openLoops] at hstep
  | writeIer0 => simp [openLoops] at hstep
  | writeGie => simp [openLoops] at hstep
  | napiEnable => simp [openLoops] at hstep

/-- A step of `udp_core_ndo_open`, provided that no packet waits unnoticed when `IER0` is set. -/
theorem Handshake.ndoOpen (h : s.Handshake ports) (hintime : s.InTime ports .ndoOpen) :
    s.stepOpen.Handshake ports := by
  rcases suffix_openSteps h.suffix with heq | ⟨rest, hrest, heq⟩ | heq | heq | heq | heq | heq
  · -- the reset is requested
    have hquiet := h.quiet (by simp [heq, openSteps, openTail])
    simp only [stepOpen, heq, openSteps]
    exact
      { suffix := List.suffix_cons _ _
        listed := fun idx _ => Or.inl (by simpa [openSteps] using clearSocket_mem ports idx)
        ier := fun hnot => absurd hnot (by simp [openTail])
        quiet := fun _ => hquiet
        isr := fun hactive => absurd hquiet.2.1 hactive
        running := fun hactive => absurd hquiet.2.2.1 hactive
        gie := fun hnot => absurd hnot (by simp [openTail])
        seen := fun hnot => absurd hnot (by simp [openTail]) }
  · cases rest with
    | cons step rest => exact h.openLoop hrest heq
    | nil =>
      rw [List.nil_append] at heq
      have hlisted : ∀ idx, s.opensock idx = true → idx ∈ ports := fun idx hopen =>
        (h.listed idx hopen).resolve_left (by simp [heq, openTail])
      have hquiet := h.quiet (by simp [heq, openTail])
      simp only [stepOpen, heq, openTail]
      exact
        { suffix := ((List.suffix_cons _ _).trans (heq ▸ h.suffix))
          listed := fun idx hopen => Or.inr (hlisted idx hopen)
          ier := fun hnot => absurd hnot (by simp)
          quiet := fun _ => hquiet
          isr := h.isr
          running := h.running
          gie := fun hnot => absurd hnot (by simp)
          seen := fun hnot => absurd hnot (by simp) }
  · -- the packets that wait now have raised the interrupt
    have hlisted : ∀ idx, s.opensock idx = true → idx ∈ ports := fun idx hopen =>
      (h.listed idx hopen).resolve_left (by simp [heq])
    have hquiet := h.quiet (by simp [heq])
    simp only [stepOpen, heq]
    exact
      { suffix := ((List.suffix_cons _ _).trans (heq ▸ h.suffix))
        listed := fun idx hopen => Or.inr (hlisted idx hopen)
        ier := fun _ => rfl
        quiet := fun _ => hquiet
        isr := h.isr
        running := h.running
        gie := fun hnot => absurd hnot (by simp)
        seen := fun _ hwaiting => Or.inl (hintime (by rw [heq]; rfl) hwaiting) }
  · have hset : .writeIer0 ∉ s.opening := by simp [heq]
    obtain ⟨hier, hlisted⟩ := h.recorded hset
    have hseen := h.seen hset
    simp only [stepOpen, heq]
    exact
      { suffix := ((List.suffix_cons _ _).trans (heq ▸ h.suffix))
        listed := fun idx hopen => Or.inr (hlisted idx hopen)
        ier := fun _ => hier
        quiet := fun hmem => absurd hmem (by simp)
        isr := h.isr
        running := h.running
        gie := fun _ => Or.inl rfl
        seen := fun _ => hseen }
  · -- the request is withdrawn, and the reset may still be to come
    have hset : .writeIer0 ∉ s.opening := by simp [heq]
    obtain ⟨hier, hlisted⟩ := h.recorded hset
    have hgie := h.gie (by simp [heq])
    have hseen := h.seen hset
    simp only [stepOpen, heq]
    exact
      { suffix := ((List.suffix_cons _ _).trans (heq ▸ h.suffix))
        listed := fun idx hopen => Or.inr (hlisted idx hopen)
        ier := fun _ => hier
        quiet := fun hmem => absurd hmem (by simp)
        isr := h.isr
        running := h.running
        gie := fun _ => hgie
        seen := fun _ => hseen }
  · have hset : .writeIer0 ∉ s.opening := by simp [heq]
    obtain ⟨hier, hlisted⟩ := h.recorded hset
    have hgie := h.gie (by simp [heq])
    have hseen := h.seen hset
    simp only [stepOpen, heq]
    exact
      { suffix := List.nil_suffix
        listed := fun idx hopen => Or.inr (hlisted idx hopen)
        ier := fun _ => hier
        quiet := fun hmem => absurd hmem (by simp)
        isr := h.isr
        running := h.running
        gie := fun _ => hgie
        seen := fun _ => hseen }
  · rw [stepOpen, heq]
    exact h

/-- Every step keeps the handshake, provided that the driver is in time. -/
theorem Handshake.step (h : s.Handshake ports) {e : WakeEvent} (henabled : s.Enabled e)
    (hintime : s.InTime ports e) : (s.step ports budget e).Handshake ports := by
  cases e with
  | push idx => exact h.push idx
  | reset => exact h.reset
  | release => exact h.release
  | interrupt => exact h.interrupt henabled.2
  | handler => exact h.handler henabled hintime
  | pollStart => exact h.pollStart henabled.1
  | poll skb => exact h.poll henabled skb
  | ndoOpen => exact h.ndoOpen hintime

/-- A packet that no context is about to handle has raised the interrupt. -/
theorem Handshake.awake (h : s.Handshake ports) : s.Awake := by
  intro hopened hhandler hpoll hscheduled hwaiting
  have hgie := h.gie (by simp [hopened])
  have hseen := h.seen (by simp [hopened]) hwaiting
  simp only [hhandler, hpoll, hscheduled, Ahead] at hgie hseen
  simp only [interruptLine, Bool.and_eq_true]
  exact ⟨by simpa using hgie, by simpa using hseen⟩

/-- In every interleaving in which the driver is in time, no packet waits unnoticed. -/
theorem awake_of_inTime (ports : List BufferIdx) (budget : ℕ)
    (rings : BufferIdx → CircularBuffer bufferRxLength) (opensock : BufferIdx → Bool)
    (isr ier res requested rstUser : Bool) :
    ((machine ports budget).restrict (InTime ports)).Always (start rings opensock isr ier res requested rstUser ports)
      (fun s _ => s.Awake) :=
  Clocked.Machine.always_of_invariant (handshake_start rings opensock isr ier res requested rstUser ports)
    (fun _ _ h hi => h.step hi.1 hi.2) (fun _ _ h _ => h.awake)

section Runs

/-- The sockets after a step of the loops. -/
def socketsAfter (opensock : BufferIdx → Bool) : OpenStep → BufferIdx → Bool
  | .clearSocket idx => Function.update opensock idx false
  | .openSocket idx => Function.update opensock idx true
  | _ => opensock

/-- The loops of `udp_core_ndo_open` run undisturbed, with the rings held in reset. -/
theorem reachable_loops (ports : List BufferIdx) (budget : ℕ) {loops tail : List OpenStep}
    (hloops : ∀ step ∈ loops, step ∈ openLoops ports) {s : WakeUp} (hreset : s.rstUser = true)
    (hopening : s.opening = loops ++ tail) : ((machine ports budget).restrict (InTime ports)).Reachable s
      { s with opening := tail, opensock := loops.foldl socketsAfter s.opensock } := by
  induction loops generalizing s with
  | nil =>
    rw [List.nil_append] at hopening
    subst hopening
    exact .refl _ _
  | cons step rest ih =>
    have hmem := hloops step List.mem_cons_self
    have hstep : s.stepOpen = { s with opening := rest ++ tail, opensock := socketsAfter s.opensock step } := by
      cases step with
      | notifyPopRx idx => simp [stepOpen, hopening, popRing, hreset, socketsAfter]
      | other | clearSocket idx | openSocket idx => simp [stepOpen, hopening, socketsAfter]
      | writeRes value => simp [openLoops] at hmem
      | writeIer0 | writeGie | napiEnable => simp [openLoops] at hmem
    have henabled : s.Enabled .ndoOpen := by simp [Enabled, hopening]
    have hintime : s.InTime ports .ndoOpen := by
      intro hhead
      rw [hopening] at hhead
      obtain rfl := Option.some.inj hhead
      simp [openLoops] at hmem
    obtain ⟨events, hlegal, hrun⟩ := ih (fun x hx => hloops x (List.mem_cons_of_mem _ hx))
      (s := s.stepOpen) (by simp [hstep, hreset]) (by simp [hstep])
    refine ⟨.ndoOpen :: events, ⟨⟨henabled, hintime⟩, hlegal⟩, ?_⟩
    rw [Clocked.Machine.run_cons]
    exact hrun.trans (by simp [hstep])

/-- After the first boot, with the socket of the first ring listed. -/
def booted : WakeUp := start (fun _ => .reset _) (fun _ => false) false false false false true [0]

/-- The interface is about to be set up, with the given sockets. -/
def looped (opensock : BufferIdx → Bool) : WakeUp :=
  { booted with res := true, requested := true, opensock := opensock, opening := openTail }

/-- It comes to that, with the first ring open. -/
theorem reachable_looped : ∃ opensock : BufferIdx → Bool, opensock 0 = true ∧
    ((machine [0] 64).restrict (InTime [0])).Reachable booted (looped opensock) := by
  have hloops : ((machine [0] 64).restrict (InTime [0])).Reachable booted.stepOpen
      (looped ((openLoops [0]).foldl socketsAfter booted.opensock)) :=
    reachable_loops [0] 64 (fun _ hx => hx) rfl rfl
  obtain ⟨events, hlegal, hrun⟩ := hloops
  refine ⟨_, ?_, .ndoOpen :: events, ⟨⟨List.cons_ne_nil _ _, ?_⟩, hlegal⟩, hrun⟩
  · simp [openLoops, socketsAfter]
  · exact fun hhead => absurd (Option.some.inj hhead) nofun

/-- The interface is opened and a packet arrives; the poll pops it, and another one arrives before the interrupt is
enabled again. -/
def served : List WakeEvent :=
  List.replicate 5 WakeEvent.ndoOpen ++ [.release, .push 0, .interrupt, .handler, .handler, .handler, .pollStart] ++
    List.replicate 6 (WakeEvent.poll true) ++ [.push 0, .poll true]

/-- The interrupt line is high for it. -/
theorem awake_served : ∃ t, ((machine [0] 64).restrict (InTime [0])).Reachable booted t ∧ t.opening = [] ∧ t.Waiting ∧
    t.interruptLine = true := by
  obtain ⟨opensock, hopen, events, hbefore, hrun⟩ := reachable_looped
  have hlegal : ((machine [0] 64).restrict (InTime [0])).Legal (looped opensock) served := by
    refine ⟨⟨List.cons_ne_nil _ _, fun h => absurd (Option.some.inj h) nofun⟩, ⟨List.cons_ne_nil _ _, ?_⟩,
      ⟨List.cons_ne_nil _ _, fun h => absurd (Option.some.inj h) nofun⟩,
      ⟨List.cons_ne_nil _ _, fun h => absurd (Option.some.inj h) nofun⟩,
      ⟨List.cons_ne_nil _ _, fun h => absurd (Option.some.inj h) nofun⟩, ⟨rfl, trivial⟩, ⟨⟨hopen, rfl⟩, trivial⟩,
      ⟨⟨rfl, rfl⟩, trivial⟩, ⟨nofun, nofun, nofun⟩, ⟨nofun, fun _ => rfl, nofun⟩, ⟨nofun, nofun, fun _ _ => rfl⟩,
      ⟨⟨rfl, rfl⟩, trivial⟩, ⟨nofun, trivial⟩, ⟨nofun, trivial⟩, ⟨nofun, trivial⟩, ⟨nofun, trivial⟩, ⟨nofun, trivial⟩,
      ⟨nofun, trivial⟩, ⟨⟨hopen, rfl⟩, trivial⟩, ⟨nofun, trivial⟩, trivial⟩
    rintro - ⟨idx, -, hwaits⟩
    exact Bool.noConfusion hwaits
  have hreach : ((machine [0] 64).restrict (InTime [0])).Reachable booted ((machine [0] 64).run (looped opensock) served) := by
    refine ⟨events ++ served, (Clocked.Machine.legal_append _ _ _ _).mpr ⟨hbefore, ?_⟩, ?_⟩
    · rw [hrun]
      exact hlegal
    · rw [Clocked.Machine.run_append, hrun]
      rfl
  have hwaiting : ((machine [0] 64).run (looped opensock) served).Waiting := ⟨0, hopen, rfl⟩
  exact ⟨_, hreach, rfl, hwaiting, awake_of_inTime [0] 64 _ _ _ _ _ _ _ _ hreach (.push 0) ⟨⟨hopen, rfl⟩, trivial⟩ rfl rfl
    rfl rfl hwaiting⟩

/-- The reset is released and a packet arrives; the handler runs before NAPI is enabled. -/
def early : List WakeEvent :=
  List.replicate 4 .ndoOpen ++ [.release, .push 0, .interrupt, .handler, .handler, .handler, .ndoOpen]

/-- The handler that runs before `napi_enable` leaves the interrupt off for good. -/
theorem not_awake : ¬ ∀ (ports : List BufferIdx) (budget : ℕ)
    (rings : BufferIdx → CircularBuffer bufferRxLength) (opensock : BufferIdx → Bool)
    (isr ier res requested rstUser : Bool),
    (machine ports budget).Always (start rings opensock isr ier res requested rstUser ports) (fun s _ => s.Awake) := by
  intro h
  obtain ⟨opensock, hopen, events, hbefore, hrun⟩ := reachable_looped
  have hlegal : (machine [0] 64).Legal (looped opensock) early :=
    ⟨List.cons_ne_nil _ _, List.cons_ne_nil _ _, List.cons_ne_nil _ _, List.cons_ne_nil _ _, rfl, ⟨hopen, rfl⟩,
      ⟨rfl, rfl⟩, nofun, nofun, nofun, List.cons_ne_nil _ _, trivial⟩
  have hreach : (machine [0] 64).Reachable booted ((machine [0] 64).run (looped opensock) early) := by
    refine ⟨events ++ early, (Clocked.Machine.legal_append _ _ _ _).mpr ⟨?_, ?_⟩, ?_⟩
    · exact Clocked.Machine.Legal.mono ((machine [0] 64).restrict (InTime [0])) (machine [0] 64) rfl hbefore fun _ _ _ h => h.1
    · rw [Clocked.Machine.restrict_run] at hrun
      rw [hrun]
      exact hlegal
    · rw [Clocked.Machine.run_append]
      rw [Clocked.Machine.restrict_run] at hrun
      rw [hrun]
  have hline := h [0] 64 _ _ _ _ _ _ _ _ hreach (.push 0) ⟨hopen, rfl⟩ rfl rfl rfl rfl ⟨0, hopen, rfl⟩
  exact Bool.false_ne_true hline

end Runs

end WakeUp

end Kernel

end UdpIpCore
