import UdpIpCore.Kernel.DataPath

/-!
# The receive poll and NAPI

`udp_core_rx_poll` with its budget, the allocation of socket buffers and the end of the poll. A
pass looks at every opened buffer; the passes go on while packets are found and the budget lasts.
-/

namespace UdpIpCore

open Interaction

namespace Kernel

/-- `processed` and `packet_found`. -/
structure NapiProgress where
  processed : ℕ
  packetFound : Bool

/-- The `for` loop over the opened sockets. -/
def napiPollPass (budget : ℕ) : List BufferIdx → NapiProgress → NetCode NapiProgress
  | [], s => pure s
  | bufferId :: rest, s =>
    if budget ≤ s.processed then pure s
    else do
      let reg ← accesses (Udriver.readReg (ConfigRegs.bufferRxCtrl bufferId.toNat))
      if reg.getLsbD bufferEmptyOffset then napiPollPass budget rest s
      else
        let packetPointer := bufferRxSlotHdrData bufferId.toNat (reg.extractLsb' bufferTailOffset 5).toNat
        let header ← accesses (Udriver.xrtBORead packetPointer packetHeaderSizeBytes)
        let payloadSizeBytes := Udriver.payloadSizeBytes header
        let skb ← Program.command (NetCmd.netdevAllocSkb (payloadSizeBytes + pktHlen))
        if !skb then pure { s with packetFound := true }
        else
          -- `udp_core_pkt_decompose` copies the payload into the socket buffer
          let payload ← accesses (Udriver.xrtBORead (packetPointer + packetHeaderSizeBytes) payloadSizeBytes)
          Program.command (NetCmd.napiGroReceive bufferId ⟨header, payload⟩)
          Program.command (NetCmd.rxPackets (payloadSizeBytes + pktHlen))
          accesses (Udriver.notifyPopToRxBuffer bufferId.toNat)
          napiPollPass budget rest ⟨s.processed + 1, true⟩

/-- The condition of the `do` loop. -/
def NapiProgress.goesOn (s : NapiProgress) (budget : ℕ) : Bool := s.packetFound && decide (s.processed < budget)

/-- The `do` loop; nothing is returned by a poll that goes on after the given number of passes. -/
def napiPollLoop (budget : ℕ) (ports : List BufferIdx) : ℕ → NapiProgress → NetCode (Option NapiProgress)
  | 0, _ => pure none
  | passes + 1, s => do
    let s ← napiPollPass budget ports { s with packetFound := false }
    if s.goesOn budget then napiPollLoop budget ports passes s else return some s

/-- `udp_core_rx_poll`. -/
def napiPoll (budget : ℕ) (ports : List BufferIdx) (passes : ℕ) : NetCode (Option ℕ) := do
  match ← napiPollLoop budget ports passes ⟨0, false⟩ with
  | none => return none
  | some s =>
    if s.processed < budget then
      Program.command NetCmd.napiComplete
      accesses (Udriver.writeReg RegAddr.gie 1)
    return some s.processed

section Steps

variable {idx : BufferIdx} {d d' : SharedRings} {h h' h'' : NetHost} {more more' : List NetEvent}
  {used used' first before : ℕ} {slot slot' : Slot}

/-- Unless the ring has been pushed when full since it counted `before` of these pushes, the packet in `slot` waits at
its tail. -/
structure Fronts (idx : BufferIdx) (first : ℕ) (slot : Slot) (before : ℕ) (d : SharedRings) : Prop where
  le : before ≤ (d.rx idx).overruns
  holds : (d.rx idx).overruns = before → ∃ rest, SharedRings.RxHolds idx first (slot :: rest) d

/-- It waits as long as nothing is popped. -/
theorem Fronts.flow (hfront : Fronts idx first slot before d) (hflow : SharedRings.RxFlow idx d d') :
    Fronts idx first slot before d' where
  le := Nat.le_trans hfront.le hflow.overruns
  holds := fun hover => by
    have hle := hfront.le
    have hmore := hflow.overruns
    obtain ⟨rest, hholds⟩ := hfront.holds (by omega)
    obtain ⟨first', waiting', arrivals, hholds', -, -, hsame⟩ := hflow.flows _ _ hholds
    obtain ⟨rfl, rfl⟩ := hsame (by omega)
    exact ⟨rest ++ arrivals, hholds'⟩

/-- Some steps that pop no ring, with what was seen of them and the allocations they took. -/
structure Saw (h : NetHost) (more : List NetEvent) (used : ℕ) (h' : NetHost) : Prop where
  flow : ∀ idx, SharedRings.RxFlow idx h.device h'.device
  events : h'.events = h.events ++ more
  skbs : ∀ k, h'.skbs k = h.skbs (k + used)

/-- Nothing has happened. -/
theorem Saw.refl (h : NetHost) : Saw h [] 0 h :=
  ⟨fun idx => .refl idx _, (List.append_nil _).symm, fun _ => rfl⟩

/-- One thing after the other. -/
theorem Saw.trans (h₁ : Saw h more used h') (h₂ : Saw h' more' used' h'') :
    Saw h (more ++ more') (used' + used) h'' where
  flow := fun idx => (h₁.flow idx).trans (h₂.flow idx)
  events := by rw [h₂.events, h₁.events, List.append_assoc]
  skbs := fun k => by rw [h₂.skbs, h₁.skbs, Nat.add_assoc]

/-- Some steps of which one pops the slot from the ring. -/
structure Pops (idx : BufferIdx) (slot : Slot) (h : NetHost) (more : List NetEvent) (used : ℕ) (h' : NetHost) : Prop where
  passes : SharedRings.RxPasses idx [slot] h.device h'.device
  others : ∀ other ≠ idx, SharedRings.RxFlow other h.device h'.device
  events : h'.events = h.events ++ more
  skbs : ∀ k, h'.skbs k = h.skbs (k + used)

/-- Something else, then a pop. -/
theorem Saw.pops (hsaw : Saw h more used h') (hpops : Pops idx slot h' more' used' h'') :
    Pops idx slot h (more ++ more') (used' + used) h'' where
  passes := (hsaw.flow idx).passes.trans hpops.passes
  others := fun other hne => (hsaw.flow other).trans (hpops.others other hne)
  events := by rw [hpops.events, hsaw.events, List.append_assoc]
  skbs := fun k => by rw [hpops.skbs, hsaw.skbs, Nat.add_assoc]

/-- A pop, then something else. -/
theorem Pops.saw (hpops : Pops idx slot h more used h') (hsaw : Saw h' more' used' h'') :
    Pops idx slot h (more ++ more') (used' + used) h'' where
  passes := hpops.passes.trans (hsaw.flow idx).passes
  others := fun other hne => (hpops.others other hne).trans (hsaw.flow other)
  events := by rw [hsaw.events, hpops.events, List.append_assoc]
  skbs := fun k => by rw [hsaw.skbs, hpops.skbs, Nat.add_assoc]

/-- A packet that was copied, delivered and popped: the pushes into the full ring when its control word was read, both
times, and when it was popped, and the slot that was popped. -/
structure Take where
  before : ℕ
  packet : UdpPacket
  between : ℕ
  slot : Slot
  after : ℕ

/-- What is seen of it. -/
def Take.events (idx : BufferIdx) (t : Take) : List NetEvent :=
  [.readFilled idx t.before, .delivered idx t.packet, .readFilled idx t.between, .popped idx t.slot t.after]

/-- The packet that was delivered is the one that was popped. -/
def Take.Right (t : Take) : Prop := t.slot.Shows t.packet

/-- Nothing was pushed into the full ring from the first read of the control word to the pop. -/
def Take.Undisturbed (t : Take) : Prop := t.after = t.before

end Steps

section Completion

/-- What is seen of the packets of the ring. -/
def NetEvent.ofRing (idx : BufferIdx) : NetEvent → Bool
  | .readFilled other _ | .delivered other _ | .popped other _ _ => other = idx
  | .readEmpty _ | .refused | .napiComplete | .enableGie => false

/-- The delivery of a packet. -/
def NetEvent.isDelivered : NetEvent → Bool
  | .delivered _ _ => true
  | .readEmpty _ | .readFilled _ _ | .refused | .popped _ _ _ | .napiComplete | .enableGie => false

/-- Packets of the ring were copied, delivered and popped one after the other, each of them once. -/
structure Taken (idx : BufferIdx) (d : SharedRings) (log : List NetEvent) (d' : SharedRings) (takes : List Take) : Prop where
  log : log.filter (NetEvent.ofRing idx) = takes.flatMap (Take.events idx)
  passes : SharedRings.RxPasses idx (takes.map Take.slot) d d'

/-- The next packets of the ring were delivered in order, and each of them was popped once, after that. -/
def InOrder (idx : BufferIdx) (d : SharedRings) (log : List NetEvent) (d' : SharedRings) : Prop :=
  ∃ takes, Taken idx d log d' takes ∧ ∀ t ∈ takes, t.Right

/-- No packet was pushed into the ring while it was full and one of its packets was on the way from the read of the control
word to the pop. -/
def Undisturbed (idx : BufferIdx) (log : List NetEvent) : Prop :=
  ∀ takes : List Take, log.filter (NetEvent.ofRing idx) = takes.flatMap (Take.events idx) → ∀ t ∈ takes, t.Undisturbed

/-- A poll of the buffers has returned `processed`. -/
structure Completed (budget : ℕ) (ports : List BufferIdx) (h : NetHost) (log : List NetEvent) (processed : ℕ)
    (h' : NetHost) : Prop where
  events : h'.events = h.events ++ log
  processed_le : processed ≤ budget
  delivered : log.countP NetEvent.isDelivered = processed
  complete : .napiComplete ∈ log ↔ processed < budget
  enable : .enableGie ∈ log ↔ processed < budget
  lastPass : processed < budget → ports.map .readEmpty ++ [.napiComplete, .enableGie] <:+ log
  taken : ∀ idx, ∃ takes, Taken idx h.device log h'.device takes ∧ ∀ t ∈ takes, t.Undisturbed → t.Right

/-- Some packets were delivered, and the poll goes on. -/
structure Polled (h : NetHost) (log : List NetEvent) (processed : ℕ) (h' : NetHost) : Prop where
  skbs : ∀ k, h'.skbs k = true
  events : h'.events = h.events ++ log
  delivered : log.countP NetEvent.isDelivered = processed
  going : .napiComplete ∉ log ∧ .enableGie ∉ log
  taken : ∀ idx, ∃ takes, Taken idx h.device log h'.device takes ∧ ∀ t ∈ takes, t.Undisturbed → t.Right

variable {h h' h'' : NetHost} {log more : List NetEvent} {processed budget used : ℕ} {idx : BufferIdx} {takes : List Take}

/-- Nothing of the ring is seen. -/
theorem Taken.saw (htaken : Taken idx h.device log h'.device takes) (hsaw : Saw h' more used h'')
    (hother : more.filter (NetEvent.ofRing idx) = []) : Taken idx h.device (log ++ more) h''.device takes where
  log := by rw [List.filter_append, htaken.log, hother, List.append_nil]
  passes := by
    have hpasses := htaken.passes.trans (hsaw.flow idx).passes
    rwa [List.append_nil] at hpasses

/-- Nothing was delivered yet. -/
theorem Polled.start (hskbs : ∀ k, h.skbs k = true) : Polled h [] 0 h :=
  ⟨hskbs, (List.append_nil _).symm, rfl, ⟨List.not_mem_nil, List.not_mem_nil⟩, fun idx =>
    ⟨[], ⟨rfl, (SharedRings.RxFlow.refl idx _).passes⟩, fun _ ht => absurd ht List.not_mem_nil⟩⟩

/-- A ring was read as empty. -/
theorem Polled.saw (hpolled : Polled h log processed h') (hsaw : Saw h' [.readEmpty idx] 0 h'') :
    Polled h (log ++ [.readEmpty idx]) processed h'' where
  skbs := fun k => (hsaw.skbs k).trans (hpolled.skbs _)
  events := by rw [hsaw.events, hpolled.events, List.append_assoc]
  delivered := by
    rw [List.countP_append, hpolled.delivered]
    rfl
  going := by simpa using hpolled.going
  taken := fun other => by
    obtain ⟨takes, htaken, hright⟩ := hpolled.taken other
    exact ⟨takes, htaken.saw hsaw rfl, hright⟩

/-- The end of a poll with budget left. -/
theorem Polled.complete {ports : List BufferIdx} (hpolled : Polled h log processed h') (hlt : processed < budget)
    (hempty : ports.map .readEmpty <:+ log) (hsaw : Saw h' [.napiComplete, .enableGie] 0 h'') :
    Completed budget ports h (log ++ [.napiComplete, .enableGie]) processed h'' where
  events := by rw [hsaw.events, hpolled.events, List.append_assoc]
  processed_le := Nat.le_of_lt hlt
  delivered := by
    rw [List.countP_append, hpolled.delivered]
    rfl
  complete := iff_of_true (by simp) hlt
  enable := iff_of_true (by simp) hlt
  lastPass := fun _ => by
    obtain ⟨earlier, rfl⟩ := hempty
    exact ⟨earlier, by rw [List.append_assoc]⟩
  taken := fun idx => by
    obtain ⟨takes, htaken, hright⟩ := hpolled.taken idx
    exact ⟨takes, htaken.saw hsaw rfl, hright⟩

/-- In a ring that is not disturbed what is delivered is what is popped. -/
theorem Completed.inOrder {ports : List BufferIdx} (hcompleted : Completed budget ports h log processed h')
    (hundisturbed : Undisturbed idx log) : InOrder idx h.device log h'.device := by
  obtain ⟨takes, htaken, hright⟩ := hcompleted.taken idx
  exact ⟨takes, htaken, fun t ht => hright t ht (hundisturbed takes htaken.log t ht)⟩

/-- The header of a packet that is delivered. -/
def NetEvent.deliveredHeader : NetEvent → Option (List (BitVec 8))
  | .delivered _ packet => some packet.header
  | _ => none

/-- The header in a slot that is popped. -/
def NetEvent.poppedHeader : NetEvent → Option (List (BitVec 8))
  | .popped _ slot _ => some ((List.range Udriver.packetHdrSizeBytes).map slot)
  | _ => none

/-- In order they are the same. -/
theorem InOrder.headers {d d' : SharedRings} (h : InOrder idx d log d') :
    (log.filter (NetEvent.ofRing idx)).filterMap NetEvent.deliveredHeader =
      (log.filter (NetEvent.ofRing idx)).filterMap NetEvent.poppedHeader := by
  obtain ⟨takes, htaken, hright⟩ := h
  rw [htaken.log]
  clear htaken
  induction takes with
  | nil => rfl
  | cons t takes ih =>
    have hheader : t.packet.header = (List.range Udriver.packetHdrSizeBytes).map t.slot := (hright t List.mem_cons_self).header
    rw [List.flatMap_cons, List.filterMap_append, List.filterMap_append, ih fun t' ht' => hright t' (List.mem_cons_of_mem t ht')]
    refine congrArg (· ++ _) ?_
    change [t.packet.header] = [(List.range Udriver.packetHdrSizeBytes).map t.slot]
    rw [hheader]

end Completion

section Accesses

variable {α β : Type} {alloc : ℕ → Bool}

/-- The accesses of a function of the data path, with the outcomes of the allocations and the packets that were
delivered. -/
def accessesOf (alloc : ℕ → Bool) : NetCode α → ℕ → List (BufferIdx × UdpPacket) →
    UserCode (α × ℕ × List (BufferIdx × UdpPacket))
  | .done a, allocs, received => .done (a, allocs, received)
  | .perform (.access c) next, allocs, received => .perform c fun r => accessesOf alloc (next r) allocs received
  | .perform (.netdevAllocSkb _) next, allocs, received => accessesOf alloc (next (alloc allocs)) (allocs + 1) received
  | .perform (.napiGroReceive bufferId packet) next, allocs, received =>
    accessesOf alloc (next ()) allocs (received ++ [(bufferId, packet)])
  | .perform (.rxPackets _) next, allocs, received | .perform .napiComplete next, allocs, received
  | .perform (.txPackets _) next, allocs, received | .perform .txDropped next, allocs, received
  | .perform .kfreeSkb next, allocs, received => accessesOf alloc (next ()) allocs received

/-- The accesses of a sequence. -/
theorem accessesOf_bind (p : NetCode α) (f : α → NetCode β) (allocs : ℕ) (received : List (BufferIdx × UdpPacket)) :
    accessesOf alloc (p >>= f) allocs received =
      accessesOf alloc p allocs received >>= fun r => accessesOf alloc (f r.1) r.2.1 r.2.2 := by
  induction p generalizing allocs received with
  | done a => rfl
  | perform c next ih =>
    cases c with
    | access c => exact congrArg (Program.perform c) (funext fun r => ih r allocs received)
    | netdevAllocSkb size => exact ih _ _ _
    | napiGroReceive bufferId packet => exact ih () _ _
    | rxPackets bytes => exact ih () _ _
    | napiComplete => exact ih () _ _
    | txPackets bytes => exact ih () _ _
    | txDropped => exact ih () _ _
    | kfreeSkb => exact ih () _ _

/-- Accesses to the device. -/
theorem accessesOf_accesses (p : UserCode α) (allocs : ℕ) (received : List (BufferIdx × UdpPacket)) :
    accessesOf alloc (accesses p) allocs received = p >>= fun a => pure (a, allocs, received) := by
  induction p with
  | done a => rfl
  | perform c next ih => exact congrArg (Program.perform c) (funext ih)

/-- The accesses of a pass are those of `rxPollPass`. -/
theorem accessesOf_pass (alloc : ℕ → Bool) (budget : ℕ) (ports : List BufferIdx) (p : PollProgress) :
    accessesOf alloc (napiPollPass budget ports ⟨p.processed, p.packetFound⟩) p.allocs p.received =
      rxPollPass budget alloc ports p >>= fun p' => pure (⟨p'.processed, p'.packetFound⟩, p'.allocs, p'.received) := by
  induction ports generalizing p with
  | nil => rfl
  | cons bufferId rest ih =>
    rw [napiPollPass, rxPollPass]
    split
    · rfl
    rw [accessesOf_bind, accessesOf_accesses, Program.bind_assoc, Program.bind_assoc]
    congr 1
    funext reg
    change accessesOf alloc (if reg.getLsbD bufferEmptyOffset = true then _ else _) p.allocs p.received = _
    split
    · exact ih p
    rw [accessesOf_bind, accessesOf_accesses, Program.bind_assoc, Program.bind_assoc]
    congr 1
    funext header
    change accessesOf alloc (if (!alloc p.allocs) = true then _ else _) (p.allocs + 1) p.received = _
    split
    · rfl
    rw [accessesOf_bind, accessesOf_accesses, Program.bind_assoc, Program.bind_assoc]
    congr 1
    funext payload
    change accessesOf alloc (accesses (Udriver.notifyPopToRxBuffer bufferId.toNat) >>= fun _ => _) (p.allocs + 1)
      (p.received ++ [(bufferId, ⟨header, payload⟩)]) = _
    rw [accessesOf_bind, accessesOf_accesses, Program.bind_assoc, Program.bind_assoc]
    congr 1
    funext _
    exact ih ⟨p.processed + 1, true, p.allocs + 1, p.received ++ [(bufferId, ⟨header, payload⟩)]⟩

/-- The accesses of the passes are those of `rxPollLoop`. -/
theorem accessesOf_loop (alloc : ℕ → Bool) (budget : ℕ) (ports : List BufferIdx) (passes : ℕ) (p : PollProgress) :
    accessesOf alloc (napiPollLoop budget ports passes ⟨p.processed, p.packetFound⟩) p.allocs p.received =
      rxPollLoop budget alloc ports passes p >>= fun r =>
        pure (if r.1 then some ⟨r.2.processed, r.2.packetFound⟩ else none, r.2.allocs, r.2.received) := by
  induction passes generalizing p with
  | zero => rfl
  | succ passes ih =>
    rw [napiPollLoop, rxPollLoop, accessesOf_bind, Program.bind_assoc]
    have hpass := accessesOf_pass alloc budget ports { p with packetFound := false }
    change accessesOf alloc (napiPollPass budget ports ⟨p.processed, false⟩) p.allocs p.received = _ at hpass
    rw [hpass, Program.bind_assoc]
    congr 1
    funext p'
    change accessesOf alloc (if (p'.packetFound && decide (p'.processed < budget)) = true then _ else _) p'.allocs
      p'.received = _
    split
    · exact ih p'
    · rfl

/-- The accesses of `udp_core_rx_poll` are those of `rxPoll`, and what it delivers is what `rxPoll` returns. -/
theorem accessesOf_napiPoll (budget : ℕ) (ports : List BufferIdx) (passes : ℕ) :
    (accessesOf alloc (napiPoll budget ports passes) 0 [] >>= fun r => pure r.2.2) =
      rxPoll budget alloc ports passes := by
  have hloop := accessesOf_loop alloc budget ports passes .start
  change accessesOf alloc (napiPollLoop budget ports passes ⟨0, false⟩) 0 [] = _ at hloop
  rw [napiPoll, rxPoll, accessesOf_bind, hloop, Program.bind_assoc, Program.bind_assoc]
  congr 1
  funext r
  obtain ⟨finished, p⟩ := r
  cases finished with
  | false => rfl
  | true =>
    change (accessesOf alloc (if p.processed < budget then _ else _) p.allocs p.received >>= fun r => pure r.2.2) =
      (if (true && decide (p.processed < budget)) = true then _ else _)
    by_cases hlt : p.processed < budget
    · rw [if_pos hlt, decide_eq_true hlt]
      rfl
    · rw [if_neg hlt, decide_eq_false hlt]
      rfl

end Accesses

end Kernel

end UdpIpCore
