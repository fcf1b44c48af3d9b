import UdpIpCore.Userspace.RxConsumer

/-!
# The receive poll of the kernel

`udp_core_rx_poll` as a program over single register and memory accesses. On any of the
rings it polls it is a consumer like `udriver_recv`: what it hands to the network stack from
that ring is what was pushed there, in order.
-/

namespace UdpIpCore

open Interaction

namespace Kernel

/-- What a poll has done so far. -/
structure PollProgress where
  processed : ℕ
  packetFound : Bool
  /-- The calls of `netdev_alloc_skb`. -/
  allocs : ℕ
  /-- The packets given to `napi_gro_receive`, with the ring each was read from. -/
  received : List (BufferIdx × UdpPacket)

/-- The progress at the start of a poll. -/
def PollProgress.start : PollProgress := ⟨0, false, 0, []⟩

/-- `BUFFER_RX_SLOT_HDR_DATA` from the start of the DMA area. -/
def bufferRxSlotHdrData (bufferId slot : ℕ) : ℕ :=
  Udriver.bufRxIdxOffsetBytes bufferId + slot * bufferElemMaxSize

/-- `PACKET_HEADER_SIZE_BYTES`. -/
abbrev packetHeaderSizeBytes : ℕ := 40

/-- The `for` loop over the opened sockets; `alloc` are the outcomes of `netdev_alloc_skb`. -/
def rxPollPass (budget : ℕ) (alloc : ℕ → Bool) : List BufferIdx → PollProgress → UserCode PollProgress
  | [], p => pure p
  | bufferId :: rest, p =>
    if budget ≤ p.processed then pure p
    else do
      let reg ← Udriver.readReg (ConfigRegs.bufferRxCtrl bufferId.toNat)
      if reg.getLsbD bufferEmptyOffset then rxPollPass budget alloc rest p
      else
        let packetPointer := bufferRxSlotHdrData bufferId.toNat (reg.extractLsb' bufferTailOffset 5).toNat
        let header ← Udriver.xrtBORead packetPointer packetHeaderSizeBytes
        if !alloc p.allocs then pure { p with packetFound := true, allocs := p.allocs + 1 }
        else
          -- `udp_core_pkt_decompose` copies the payload into the socket buffer
          let payload ← Udriver.xrtBORead (packetPointer + packetHeaderSizeBytes) (Udriver.payloadSizeBytes header)
          Udriver.notifyPopToRxBuffer bufferId.toNat
          rxPollPass budget alloc rest ⟨p.processed + 1, true, p.allocs + 1, p.received ++ [(bufferId, ⟨header, payload⟩)]⟩

/-- The `do` loop, cut after the given number of passes; while no socket buffer can be allocated it goes on. -/
def rxPollLoop (budget : ℕ) (alloc : ℕ → Bool) (ports : List BufferIdx) :
    ℕ → PollProgress → UserCode (Bool × PollProgress)
  | 0, p => pure (false, p)
  | passes + 1, p => do
    let p ← rxPollPass budget alloc ports { p with packetFound := false }
    if p.packetFound && decide (p.processed < budget) then rxPollLoop budget alloc ports passes p
    else return (true, p)

/-- `udp_core_rx_poll`; a poll with budget left enables the interrupt again. -/
def rxPoll (budget : ℕ) (alloc : ℕ → Bool) (ports : List BufferIdx) (passes : ℕ) :
    UserCode (List (BufferIdx × UdpPacket)) := do
  let (finished, p) ← rxPollLoop budget alloc ports passes .start
  if finished && decide (p.processed < budget) then Udriver.writeReg RegAddr.gie 1
  return p.received

/-- The packets of one ring. -/
def ofRing (idx : BufferIdx) (received : List (BufferIdx × UdpPacket)) : List (Option UdpPacket) :=
  (received.filter fun r => r.1 = idx).map fun r => some r.2

end Kernel

namespace RxRing

open Kernel

variable {idx : BufferIdx} {opened : Bool} {s s' : RxRing} {g : PsSignals} {j : RxRingInput}
  {results : List (Option UdpPacket)}

/-- A write of another register leaves the ring as a quiet cycle does. -/
theorem Settled.write_other (h : Settled idx opened results s) (hj : Producer idx s j)
    (hw : s.axi.wHs g.toAxiLiteMaster = true) (haddr : ConfigRegs.ringOf s.axi.waddr ≠ some idx)
    (hstore : g.store = none) : Settled idx opened results (s.step idx g j) := by
  have hpulse := h.low.pulse_eq
  have hpops : (s.step idx g j).pops = s.pops := by simp [RxRing.step, hpulse]
  have hword : (s.step idx g j).regs.bufrxTemp idx = s.regs.bufrxTemp idx := by
    simp [RxRing.step, ConfigRegs.clock, hw, ConfigRegs.write, haddr]
  have hopen : (s.step idx g j).regs.opensock idx = opened := by
    rw [ConfigRegs.opensock, hword]
    exact h.queue.stored.opensock
  have hpopped : (s.step idx g j).popped idx = s.popped idx := by rw [popped, hword, popped]
  refine ⟨?_, ?_⟩
  · rw [hpops]
    exact h.queue.step hj hstore (by simp [hpulse]) hopen
  · rw [hpopped]
    exact h.low.step _

/-- At any point of a poll: some packets were returned besides those of earlier calls. -/
def Polling (idx : BufferIdx) (opened : Bool) (results : List (Option UdpPacket)) (s : RxRing) : Prop :=
  ∃ more n, Returned idx opened (results ++ more) n s

/-- At the points where nothing is under way. -/
theorem Settled.polling {more : List (Option UdpPacket)} (h : Settled idx opened (results ++ more) s) :
    Polling idx opened results s := ⟨more, s.pops, h.queue⟩

/-- At the points where the next packet is read. -/
theorem Reading.polling {slot : Slot} {n : ℕ} {more : List (Option UdpPacket)}
    (h : Reading idx opened (results ++ more) slot n s) : Polling idx opened results s := h.settled.polling

/-- At the points where it is popped. -/
theorem Popping.polling {slot : Slot} {n : ℕ} {pulsed : Bool} {more : List (Option UdpPacket)}
    (h : Popping idx opened (results ++ more) slot n pulsed s) : Polling idx opened results s := ⟨more, n, h.queue⟩

/-- The control word of another ring is another word. -/
theorem ringOf_ne {bufferId : BufferIdx} (hne : bufferId ≠ idx) :
    ConfigRegs.ringOf (ConfigRegs.bufferRxCtrl bufferId.toNat) ≠ some idx := by
  rw [ConfigRegs.ringOf_toNat]
  exact fun h => hne (Option.some.inj h)

/-- A write of another register. -/
theorem outline_write_other {inv : RxRing → Prop} (hinv : ∀ s, Settled idx opened results s → inv s)
    {reg : RegAddr} {value : BitVec 32} (hreg : ConfigRegs.ringOf reg ≠ some idx) (h : Settled idx opened results s) :
    (Udriver.writeReg reg value).Outline (device idx).Quiet (device idx).Responds inv
      (fun _ => Settled idx opened results) s := by
  refine Udriver.outline_writeReg (Settled idx opened results) (Settled idx opened results) h
    (fun _ _ hs hq => (hs.quiet hq).1) hinv ?_ (fun _ _ hs hq => (hs.quiet hq).1) fun s hs => ⟨hinv s hs, hs⟩
  intro s g j hs hj hw haddr _ hstore
  exact hs.write_other hj hw (haddr ▸ hreg) hstore

/-- A read of another register. -/
theorem outline_read_other {inv : RxRing → Prop} (hinv : ∀ s, Settled idx opened results s → inv s)
    {reg : RegAddr} (h : Settled idx opened results s) :
    (Udriver.readReg reg).Outline (device idx).Quiet (device idx).Responds inv
      (fun _ => Settled idx opened results) s :=
  Udriver.outline_readReg (Settled idx opened results) (fun _ => Settled idx opened results) h
    (fun _ _ hs hq => (hs.quiet hq).1) hinv (fun _ _ _ hs hq => (hs.quiet hq).1)
    (fun _ _ _ hs hq => (hs.quiet hq).1) fun _ s hs => ⟨hinv s hs, hs⟩

/-- The bytes of another ring are read. -/
theorem outline_copy_other {inv : RxRing → Prop} (hinv : ∀ s, Settled idx opened results s → inv s)
    (h : Settled idx opened results s) (size offset : ℕ) :
    (Udriver.xrtBORead offset size).Outline (device idx).Quiet (device idx).Responds inv
      (fun _ => Settled idx opened results) s := by
  refine Udriver.outline_xrtBORead_any (Settled idx opened results) (fun _ _ hs hq => (hs.quiet hq).1) hinv ?_
    size offset s h
  rintro s offset b s' hs ⟨hq, -⟩
  exact (hs.quiet hq).1

/-- A packet of another ring is popped. -/
theorem outline_notifyPop_other {inv : RxRing → Prop} (hinv : ∀ s, Settled idx opened results s → inv s)
    {bufferId : BufferIdx} (hne : bufferId ≠ idx) (h : Settled idx opened results s) :
    (Udriver.notifyPopToRxBuffer bufferId.toNat).Outline (device idx).Quiet (device idx).Responds inv
      (fun _ => Settled idx opened results) s := by
  have hreg := ringOf_ne hne
  refine Program.Outline.bind ((outline_read_other hinv h).mono fun value s hs => ?_)
  refine Program.Outline.bind ((outline_write_other hinv hreg hs).mono fun _ s hs => ?_)
  refine Program.Outline.bind ((outline_write_other hinv hreg hs).mono fun _ s hs => ?_)
  exact outline_write_other hinv hreg hs

/-- The packets of a ring after one more of that ring. -/
theorem ofRing_append (received : List (BufferIdx × UdpPacket)) (bufferId : BufferIdx) (p : UdpPacket) :
    ofRing idx (received ++ [(bufferId, p)]) = ofRing idx received ++ if bufferId = idx then [some p] else [] := by
  by_cases hidx : bufferId = idx <;> simp [ofRing, hidx]

/-- A pass over the ports returns the next packets of the ring, whatever else it polls. -/
theorem outline_rxPollPass (budget : ℕ) (alloc : ℕ → Bool) (ports : List BufferIdx) (p : PollProgress)
    (h : Settled idx opened (results ++ ofRing idx p.received) s) :
    (rxPollPass budget alloc ports p).Outline (device idx).Quiet (device idx).Responds (Polling idx opened results)
      (fun p' => Settled idx opened (results ++ ofRing idx p'.received)) s := by
  induction ports generalizing p s with
  | nil =>
    exact .done (Settled idx opened (results ++ ofRing idx p.received)) h (fun _ _ hs hq => (hs.quiet hq).1)
      fun s hs => ⟨hs.polling, hs⟩
  | cons bufferId rest ih =>
    rw [rxPollPass]
    split
    · exact .done (Settled idx opened (results ++ ofRing idx p.received)) h (fun _ _ hs hq => (hs.quiet hq).1)
        fun s hs => ⟨hs.polling, hs⟩
    by_cases hidx : bufferId = idx
    · -- the ring itself: as `udriver_recv` does
      subst hidx
      refine Program.Outline.bind ((outline_readCtrl (fun _ => Settled.polling) h).mono ?_)
      rintro reg s ⟨hs, hnext⟩
      split
      · exact ih p hs
      rename_i hempty
      obtain ⟨slot, n, hreading, htail⟩ := hnext (by simpa using hempty)
      have hpolling := fun s
        (hs : Reading bufferId opened (results ++ ofRing bufferId p.received) slot n s) => hs.polling
      have hpointer : bufferRxSlotHdrData bufferId.toNat (reg.extractLsb' bufferTailOffset 5).toNat =
          slotOffset bufferId (n % bufferRxLength) := by rw [bufferRxSlotHdrData, htail, slotOffset]
      rw [hpointer]
      refine Program.Outline.bind ((outline_header hpolling hreading).mono ?_)
      rintro header s ⟨hheader, hs⟩
      split
      · exact .done _ hs.settled (fun _ _ hs hq => (hs.quiet hq).1) fun s hs => ⟨hs.polling, hs⟩
      refine Program.Outline.bind ((outline_payload hpolling hs hheader).mono ?_)
      rintro payload s ⟨hshows, hs⟩
      have hsettled (s : RxRing) (hs : Settled bufferId opened
          (results ++ ofRing bufferId p.received ++ [some ⟨header, payload⟩]) s) : Polling bufferId opened results s := by
        rw [List.append_assoc] at hs
        exact hs.polling
      refine Program.Outline.bind ((outline_notifyPopToRxBuffer hshows hpolling (fun _ _ hs => hs.polling)
        hsettled hs).mono fun _ s hs => ih _ ?_)
      rw [ofRing_append, if_pos rfl, ← List.append_assoc]
      exact hs
    · -- another ring: whatever is read there, this one stays as it is
      have hpolling := fun s (hs : Settled idx opened (results ++ ofRing idx p.received) s) => hs.polling
      refine Program.Outline.bind ((outline_read_other hpolling h).mono fun reg s hs => ?_)
      split
      · exact ih p hs
      refine Program.Outline.bind ((outline_copy_other hpolling hs _ _).mono fun header s hs => ?_)
      split
      · exact .done _ hs (fun _ _ hs hq => (hs.quiet hq).1) fun s hs => ⟨hs.polling, hs⟩
      refine Program.Outline.bind ((outline_copy_other hpolling hs _ _).mono fun payload s hs => ?_)
      refine Program.Outline.bind ((outline_notifyPop_other hpolling hidx hs).mono fun _ s hs => ih _ ?_)
      rw [ofRing_append, if_neg hidx, List.append_nil]
      exact hs

/-- The loop goes on doing so. -/
theorem outline_rxPollLoop (budget : ℕ) (alloc : ℕ → Bool) (ports : List BufferIdx) (passes : ℕ) (p : PollProgress)
    (h : Settled idx opened (results ++ ofRing idx p.received) s) :
    (rxPollLoop budget alloc ports passes p).Outline (device idx).Quiet (device idx).Responds
      (Polling idx opened results) (fun r => Settled idx opened (results ++ ofRing idx r.2.received)) s := by
  induction passes generalizing p s with
  | zero =>
    exact .done (Settled idx opened (results ++ ofRing idx p.received)) h (fun _ _ hs hq => (hs.quiet hq).1)
      fun s hs => ⟨hs.polling, hs⟩
  | succ passes ih =>
    refine Program.Outline.bind ((outline_rxPollPass budget alloc ports { p with packetFound := false } h).mono ?_)
    intro p' s hs
    split
    · exact ih p' hs
    · exact .done _ hs (fun _ _ hs hq => (hs.quiet hq).1) fun s hs => ⟨hs.polling, hs⟩

/-- `udp_core_rx_poll` returns the next packets of each ring it polls, and pops them. -/
theorem outline_rxPoll (budget : ℕ) (alloc : ℕ → Bool) (ports : List BufferIdx) (passes : ℕ)
    (h : Settled idx opened results s) :
    (rxPoll budget alloc ports passes).Outline (device idx).Quiet (device idx).Responds (Polling idx opened results)
      (fun received => Settled idx opened (results ++ ofRing idx received)) s := by
  have hstart : Settled idx opened (results ++ ofRing idx PollProgress.start.received) s := by
    simpa [ofRing, PollProgress.start] using h
  refine Program.Outline.bind ((outline_rxPollLoop budget alloc ports passes .start hstart).mono ?_)
  rintro ⟨finished, p⟩ s hs
  have hpolling := fun s (hs : Settled idx opened (results ++ ofRing idx p.received) s) => hs.polling
  have hdone (s : RxRing) (hs : Settled idx opened (results ++ ofRing idx p.received) s) :
      (Program.done p.received : UserCode (List (BufferIdx × UdpPacket))).Outline (device idx).Quiet
        (device idx).Responds (Polling idx opened results)
        (fun received => Settled idx opened (results ++ ofRing idx received)) s :=
    .done _ hs (fun _ _ hs hq => (hs.quiet hq).1) fun s hs => ⟨hs.polling, hs⟩
  have hgie : ConfigRegs.ringOf RegAddr.gie ≠ some idx := by
    have hnone : ConfigRegs.ringOf RegAddr.gie = none := by decide
    simp [hnone]
  dsimp only
  split
  · exact Program.Outline.bind ((outline_write_other hpolling hgie hs).mono fun _ s hs => hdone s hs)
  · exact hdone s hs

end RxRing

end UdpIpCore
