import Mathlib.Data.List.Forall2
import UdpIpCore.Rtl.CircularBuffer
import UdpIpCore.Rtl.PulseOnPosedge
import UdpIpCore.Userspace.Udriver

/-!
# One RX ring and its consumer

The producer fills the slot at the head of the ring and pushes it while the ring has
room. The consumer runs `udriver_recv` on the port. Between them lie the shared memory, the
indices and flags of the ring, and the control word whose popped bit the consumer writes
0, 1 and 0 from one stale copy.

The ring then is a bounded queue: what `udriver_recv` returns is what was pushed, in order.
-/

namespace UdpIpCore

open Interaction

/-- The packet in a slot. -/
def Slot.packet (slot : Slot) : UdpPacket :=
  let header := (List.range Udriver.packetHdrSizeBytes).map slot
  ⟨header, (List.range (Udriver.payloadSizeBytes header)).map fun k => slot (Udriver.packetHdrSizeBytes + k)⟩

/-- A packet that ends within the slot. -/
def Slot.Fits (slot : Slot) : Prop :=
  Udriver.packetHdrSizeBytes + Udriver.payloadSizeBytes ((List.range Udriver.packetHdrSizeBytes).map slot) ≤
    bufferElemMaxSize

instance (slot : Slot) : Decidable slot.Fits := inferInstanceAs (Decidable (_ ≤ _))

/-- The packet has the header in the slot and the length that stands there, and as far as the slot goes its bytes. -/
structure Slot.Shows (slot : Slot) (packet : UdpPacket) : Prop where
  header : packet.header = (List.range Udriver.packetHdrSizeBytes).map slot
  length : packet.payload.length = Udriver.payloadSizeBytes ((List.range Udriver.packetHdrSizeBytes).map slot)
  payload : ∀ k b, packet.payload[k]? = some b → Udriver.packetHdrSizeBytes + k < bufferElemMaxSize →
    b = slot (Udriver.packetHdrSizeBytes + k)

/-- If the packet in the slot ends within it, that is all of the packet. -/
theorem Slot.Shows.eq_packet {slot : Slot} {packet : UdpPacket} (h : slot.Shows packet) (hfits : slot.Fits) :
    packet = slot.packet := by
  have hlength := h.length
  rw [Slot.Fits] at hfits
  have hpayload : packet.payload = slot.packet.payload := by
    refine List.ext_getElem (hlength.trans (by rw [Slot.packet, List.length_map, List.length_range])) fun k hk hk' => ?_
    have hbyte := h.payload k _ (List.getElem?_eq_getElem hk) (by omega)
    rw [hbyte]
    simp only [Slot.packet, List.getElem_map, List.getElem_range]
  have hheader : packet.header = slot.packet.header := h.header
  cases packet
  cases hpacket : slot.packet
  rw [hpacket] at hheader hpayload
  rw [UdpPacket.mk.injEq]
  exact ⟨hheader, hpayload⟩

/-- Packets that are shown by slots in which they end are those in the slots. -/
theorem Slot.map_packet_eq {slots : List Slot} {packets : List UdpPacket} (h : List.Forall₂ Slot.Shows slots packets)
    (hfits : ∀ slot ∈ slots, slot.Fits) : packets = slots.map Slot.packet := by
  induction h with
  | nil => rfl
  | cons hshows _ ih =>
    rw [List.map_cons, ← ih fun slot hslot => hfits slot (List.mem_cons_of_mem _ hslot),
      hshows.eq_packet (hfits _ List.mem_cons_self)]

/-- All packets of a log end within their slots after a cycle that pushes no longer one. -/
theorem Slot.fits_of_push {log : List Slot} {push : Bool} {pushed slot : Slot} (hfits : ∀ slot ∈ log, slot.Fits)
    (hpush : push = true → pushed.Fits) (hslot : slot ∈ if push then log ++ [pushed] else log) : slot.Fits := by
  split at hslot
  · next hpushed =>
    rcases List.mem_append.mp hslot with hold | hnew
    · exact hfits slot hold
    · rw [List.mem_singleton.mp hnew]
      exact hpush hpushed
  · exact hfits slot hslot

/-- The same bytes, as far as a slot goes. -/
def Slot.Agrees (slot other : Slot) : Prop := ∀ off < bufferElemMaxSize, slot off = other off

/-- A packet is shown by every slot with the same bytes. -/
theorem Slot.Shows.congr {slot other : Slot} {packet : UdpPacket} (h : slot.Shows packet) (hagrees : slot.Agrees other) :
    other.Shows packet := by
  have hwords : (List.range Udriver.packetHdrSizeBytes).map slot = (List.range Udriver.packetHdrSizeBytes).map other :=
    List.map_congr_left fun k hk => hagrees k (Nat.lt_trans (List.mem_range.mp hk) (by decide))
  refine ⟨h.header.trans hwords, ?_, fun k b hb hk => (h.payload k b hb hk).trans (hagrees _ hk)⟩
  rw [← hwords]
  exact h.length

/-- One RX ring with the register file in front of it. -/
structure RxRing where
  regs : ConfigRegs
  axi : AxiLite
  popPulse : PulseOnPosedge
  ring : CircularBuffer bufferRxLength
  memory : ℕ → BitVec 8
  /-- The slots pushed so far, as they were at their push. -/
  pushed : List Slot
  /-- The number of pops so far. -/
  pops : ℕ

/-- One cycle of the producer and of the rest of the device. -/
structure RxRingInput where
  /-- The bytes the DMA writes. -/
  writes : ℕ → Option (BitVec 8)
  push : Bool
  /-- What a read shows of the other rings and registers. -/
  status : StatusInputs

namespace RxRing

variable (idx : BufferIdx)

/-- After the power-on reset, with the socket open or closed. -/
def start (opened : Bool) : RxRing where
  regs := { ConfigRegs.reset with
    bufrxTemp := fun _ => ConfigRegs.field (BitVec.ofBool opened) bufferOpensockOffset }
  axi := .reset
  popPulse := .reset
  ring := .reset bufferRxLength
  memory := fun _ => 0
  pushed := []
  pops := 0

/-- The address of a slot of the ring in the shared memory. -/
def slotOffset (index : ℕ) : ℕ := Udriver.bufRxIdxOffsetBytes idx.toNat + index * bufferElemMaxSize

/-- What a read shows. -/
def status (s : RxRing) (j : RxRingInput) : StatusInputs :=
  { j.status with bufrx := fun other => if other = idx then
      ⟨j.push, s.ring.full, s.ring.empty, BitVec.ofNat 5 s.ring.tailIndex, BitVec.ofNat 5 s.ring.headIndex⟩
    else j.status.bufrx other }

/-- The popped bit of the control word. -/
def popped (s : RxRing) : Bool := (s.regs.bufrxTemp idx).getLsbD bufferPoppedOffset

/-- The memory after the writes of the DMA in this cycle. -/
def filled (s : RxRing) (j : RxRingInput) (a : ℕ) : BitVec 8 := (j.writes a).getD (s.memory a)

/-- The slot at the head as the DMA leaves it in this cycle. -/
def headSlot (s : RxRing) (j : RxRingInput) : Slot :=
  fun k => s.filled j (slotOffset idx s.ring.headIndex + k)

/-- One clock edge. -/
def step (s : RxRing) (g : PsSignals) (j : RxRingInput) : RxRing where
  regs := s.regs.clock s.axi g.toAxiLiteMaster
  axi := s.axi.step g.toAxiLiteMaster (s.regs.read (s.status idx j))
  popPulse := s.popPulse.step (s.popped idx)
  ring := s.ring.step j.push s.popPulse.pulse
  memory :=
    match g.store with
    | some (offset, b) => fun a => if a = offset then b else s.filled j a
    | none => s.filled j
  pushed := if j.push then s.pushed ++ [s.headSlot idx j] else s.pushed
  pops := s.pops + s.popPulse.pulse.toNat

/-- The producer writes only the slot at the head of a ring with room, and pushes only there. -/
structure Producer (s : RxRing) (j : RxRingInput) : Prop where
  writes : ∀ a, j.writes a ≠ none →
    a < slotOffset idx 0 ∨ slotOffset idx bufferRxLength ≤ a ∨
      s.ring.full = false ∧ slotOffset idx s.ring.headIndex ≤ a ∧ a < slotOffset idx (s.ring.headIndex + 1)
  push : j.push = true → s.ring.full = false

/-- The ring as the PS sees it. -/
def device : Device RxRing RxRingInput where
  step := step idx
  legal := Producer idx
  axi := axi
  readValue := fun s j => s.regs.read (s.status idx j)
  load := memory
  axi_step := fun _ _ _ => rfl

/-- What holds at every point: the ring counts its pushes and pops, its unread slots hold what was
pushed into them, and the socket is as it was. -/
structure Stored (opened : Bool) (s : RxRing) : Prop where
  tracks : s.ring.Tracks s.pushed.length s.pops
  unread : ∀ k (hk : k < s.pushed.length), s.pops ≤ k → ∀ off < bufferElemMaxSize,
    s.memory (slotOffset idx (k % bufferRxLength) + off) = s.pushed[k] off
  opensock : s.regs.opensock idx = opened

variable {idx} {opened : Bool} {s : RxRing} {g : PsSignals} {j : RxRingInput}

/-- Slots do not overlap. -/
theorem slotOffset_lt {m n off : ℕ} (h : m < n) (hoff : off < bufferElemMaxSize) :
    slotOffset idx m + off < slotOffset idx n := by
  simp only [slotOffset, bufferElemMaxSize] at hoff ⊢
  omega

/-- The producer leaves every slot but a free head slot as it is. -/
theorem filled_of_producer (hj : Producer idx s j) {index off : ℕ} (hindex : index < bufferRxLength)
    (hhead : s.ring.full = false → index ≠ s.ring.headIndex) (hoff : off < bufferElemMaxSize) :
    s.filled j (slotOffset idx index + off) = s.memory (slotOffset idx index + off) := by
  rw [filled]
  cases hwrite : j.writes (slotOffset idx index + off) with
  | none => rfl
  | some b =>
    have hwritten : j.writes (slotOffset idx index + off) ≠ none := by simp [hwrite]
    rcases hj.writes _ hwritten with hbefore | hafter | ⟨hfull, hlow, hhigh⟩
    · exact absurd hbefore (by simp only [slotOffset]; omega)
    · exact absurd (slotOffset_lt hindex hoff) (Nat.not_lt.mpr hafter)
    · rcases Nat.lt_or_gt_of_ne (hhead hfull) with hlt | hgt
      · exact absurd (slotOffset_lt hlt hoff) (Nat.not_lt.mpr hlow)
      · simp only [slotOffset, bufferElemMaxSize] at hhigh
        omega

/-- One cycle keeps the ring a queue, provided that a pop finds it non-empty. -/
theorem Stored.step (h : Stored idx opened s) (hj : Producer idx s j) (hstore : g.store = none)
    (hpop : s.popPulse.pulse = true → s.pops < s.pushed.length)
    (hopen : (s.step idx g j).regs.opensock idx = opened) : Stored idx opened (s.step idx g j) := by
  have hmemory : (s.step idx g j).memory = s.filled j := by simp [RxRing.step, hstore]
  have hroom : j.push = true → s.pushed.length < s.pops + bufferRxLength := by
    intro hpush
    have hfull := hj.push hpush
    rw [h.tracks.full, decide_eq_false_iff_not] at hfull
    exact Nat.lt_of_le_of_ne h.tracks.fits hfull
  have hlength : (s.step idx g j).pushed.length = s.pushed.length + j.push.toNat := by
    cases hpush : j.push <;> simp [RxRing.step, hpush]
  refine ⟨?_, ?_, hopen⟩
  · rw [hlength]
    exact CircularBuffer.tracks_step (by decide) h.tracks (fun hpush => Or.inr (hroom hpush)) hpop
  · intro k hk hpops off hoff
    have hpops' : s.pops ≤ k := Nat.le_trans (Nat.le_add_right _ _) hpops
    rw [hmemory]
    by_cases hold : k < s.pushed.length
    · have hget : (s.step idx g j).pushed[k] = s.pushed[k] := by
        cases hpush : j.push <;> simp [RxRing.step, hpush, List.getElem_append_left hold]
      rw [hget, ← h.unread k hold hpops' off hoff]
      refine filled_of_producer hj (Nat.mod_lt _ (by decide)) (fun hfull => ?_) hoff
      -- an unread slot is not the head slot of a ring with room
      rw [h.tracks.full, decide_eq_false_iff_not] at hfull
      rw [h.tracks.head]
      intro heq
      have hfits := h.tracks.fits
      have hsame := (CircularBuffer.mod_eq_iff (Nat.le_of_lt hold) (by omega)).mp heq.symm
      omega
    · cases hpush : j.push with
      | false =>
        rw [hlength, hpush] at hk
        exact absurd hk hold
      | true =>
        rw [hlength, hpush] at hk
        have hlast : k = s.pushed.length := by simp at hk; omega
        subst hlast
        have hget : (s.step idx g j).pushed[s.pushed.length] = s.headSlot idx j := by
          simp [RxRing.step, hpush]
        rw [hget, headSlot, h.tracks.head]

/-- The packets among the results of `udriver_recv`. -/
def packetsOf (results : List (Option UdpPacket)) : List UdpPacket := results.filterMap id

variable (idx opened) in
/-- The queue with `n` packets returned. -/
structure Returned (results : List (Option UdpPacket)) (n : ℕ) (s : RxRing) : Prop where
  stored : Stored idx opened s
  returned : List.Forall₂ Slot.Shows (s.pushed.take n) (packetsOf results)
  le : n ≤ s.pushed.length

variable (idx opened) in
/-- Between two calls, and in a call up to the write that pops. -/
structure Settled (results : List (Option UdpPacket)) (s : RxRing) : Prop where
  queue : Returned idx opened results s.pops s
  low : s.popPulse.Low (s.popped idx) s.axi.wstate

variable (idx opened) in
/-- The next packet to return is in `slot`. -/
structure Reading (results : List (Option UdpPacket)) (slot : Slot) (n : ℕ) (s : RxRing) : Prop where
  settled : Settled idx opened results s
  pops : s.pops = n
  next : s.pushed[n]? = some slot

variable (idx opened) in
/-- The popped bit is high; the packet in `slot` is popped once. -/
structure Popping (results : List (Option UdpPacket)) (slot : Slot) (n : ℕ) (pulsed : Bool) (s : RxRing) :
    Prop where
  queue : Returned idx opened results n s
  high : s.popPulse.High (s.popped idx) s.axi.wstate pulsed
  pops : s.pops = n + pulsed.toNat
  next : s.pushed[n]? = some slot

variable (idx opened) in
/-- The property at every point of a call. -/
structure Received (results : List (Option UdpPacket)) (s : RxRing) : Prop where
  shows : List.Forall₂ Slot.Shows (s.pushed.take (packetsOf results).length) (packetsOf results)
  popsFilled : s.popPulse.pulse = true → s.ring.empty = false
  opensock : s.regs.opensock idx = opened
  popsOnce : (packetsOf results).length ≤ s.pops ∧ s.pops ≤ (packetsOf results).length + 1

variable {results : List (Option UdpPacket)} {slot : Slot} {n : ℕ} {pulsed : Bool} {s' : RxRing}

/-- Pushing keeps what was pushed. -/
theorem pushed_isPrefix : s.pushed <+: (s.step idx g j).pushed := by
  cases hpush : j.push <;> simp [RxRing.step, hpush]

/-- One cycle keeps the returned packets a prefix of the pushed ones. -/
theorem Returned.step (h : Returned idx opened results n s) (hj : Producer idx s j)
    (hstore : g.store = none) (hpop : s.popPulse.pulse = true → s.pops < s.pushed.length)
    (hopen : (s.step idx g j).regs.opensock idx = opened) :
    Returned idx opened results n (s.step idx g j) := by
  have hgrown : s.pushed <+: (s.step idx g j).pushed := pushed_isPrefix
  refine ⟨h.stored.step hj hstore hpop hopen, ?_, Nat.le_trans h.le hgrown.length_le⟩
  obtain ⟨rest, hrest⟩ := hgrown
  rw [← hrest, List.take_append_of_le_length h.le]
  exact h.returned

/-- So many packets are returned. -/
theorem Returned.length_eq (h : Returned idx opened results n s) : (packetsOf results).length = n := by
  rw [← h.returned.length_eq, List.length_take, Nat.min_eq_left h.le]

/-- The registers in a cycle without a write. -/
theorem regs_of_quiet (hw : s.axi.wHs g.toAxiLiteMaster = false) : (s.step idx g j).regs = s.regs := by
  simp [RxRing.step, ConfigRegs.clock, hw]

/-- The control word after a write of it. -/
theorem bufrxTemp_of_write (hw : s.axi.wHs g.toAxiLiteMaster = true)
    (haddr : s.axi.waddr = ConfigRegs.bufferRxCtrl idx.toNat) :
    (s.step idx g j).regs.bufrxTemp idx = g.wdata := by
  simp [RxRing.step, ConfigRegs.clock, hw, ConfigRegs.write, haddr, ConfigRegs.ringOf_toNat]

/-- Between two calls quiet cycles change nothing but what is pushed. -/
theorem Settled.quiet (h : Settled idx opened results s) (hs' : (device idx).Quiet s s') :
    Settled idx opened results s' ∧ s'.pops = s.pops ∧ s.pushed <+: s'.pushed := by
  obtain ⟨g, j, hj, hw, hstore, rfl⟩ := hs'
  have hpulse := h.low.pulse_eq
  have hpops : (s.step idx g j).pops = s.pops := by simp [RxRing.step, hpulse]
  have hregs : (s.step idx g j).regs = s.regs := regs_of_quiet hw
  refine ⟨⟨?_, ?_⟩, hpops, pushed_isPrefix⟩
  · change Returned idx opened results (s.step idx g j).pops (s.step idx g j)
    rw [hpops]
    exact h.queue.step hj hstore (by simp [hpulse]) (by rw [hregs, h.queue.stored.opensock])
  · have hpopped : (s.step idx g j).popped idx = s.popped idx := by rw [popped, hregs, popped]
    change (s.popPulse.step (s.popped idx)).Low ((s.step idx g j).popped idx) _
    rw [hpopped]
    exact h.low.step _

/-- A pushed slot stays where it is in the list. -/
theorem getElem?_of_isPrefix (hgrown : s.pushed <+: s'.pushed) (hnext : s.pushed[n]? = some slot) :
    s'.pushed[n]? = some slot := by
  obtain ⟨rest, hrest⟩ := hgrown
  rw [← hrest, List.getElem?_append_left (List.getElem?_eq_some_iff.mp hnext).1, hnext]

/-- While a packet is read, it stays the next one. -/
theorem Reading.quiet (h : Reading idx opened results slot n s) (hs' : (device idx).Quiet s s') :
    Reading idx opened results slot n s' := by
  obtain ⟨hsettled, hpops, hgrown⟩ := h.settled.quiet hs'
  exact ⟨hsettled, hpops.trans h.pops, getElem?_of_isPrefix hgrown h.next⟩

/-- The control word after a write of it, with the popped bit taken apart. -/
theorem popped_of_write (hw : s.axi.wHs g.toAxiLiteMaster = true)
    (haddr : s.axi.waddr = ConfigRegs.bufferRxCtrl idx.toNat) :
    (s.step idx g j).popped idx = g.wdata.getLsbD bufferPoppedOffset := by
  rw [popped, bufrxTemp_of_write hw haddr]

/-- The socket after a write of its control word. -/
theorem opensock_of_write (hw : s.axi.wHs g.toAxiLiteMaster = true)
    (haddr : s.axi.waddr = ConfigRegs.bufferRxCtrl idx.toNat)
    (hopen : g.wdata.getLsbD bufferOpensockOffset = opened) :
    (s.step idx g j).regs.opensock idx = opened := by
  rw [ConfigRegs.opensock, bufrxTemp_of_write hw haddr, hopen]

/-- The first write of `notify_pop_to_rx_buffer`: the popped bit stays low. -/
theorem Reading.write_clear (h : Reading idx opened results slot n s) (hj : Producer idx s j)
    (hw : s.axi.wHs g.toAxiLiteMaster = true) (haddr : s.axi.waddr = ConfigRegs.bufferRxCtrl idx.toNat)
    (hstore : g.store = none) (hpopped : g.wdata.getLsbD bufferPoppedOffset = false)
    (hopen : g.wdata.getLsbD bufferOpensockOffset = opened) :
    Reading idx opened results slot n (s.step idx g j) := by
  have hpulse := h.settled.low.pulse_eq
  have hpops : (s.step idx g j).pops = s.pops := by simp [RxRing.step, hpulse]
  refine ⟨⟨?_, ?_⟩, hpops.trans h.pops, getElem?_of_isPrefix pushed_isPrefix h.next⟩
  · rw [hpops]
    exact h.settled.queue.step hj hstore (by simp [hpulse]) (opensock_of_write hw haddr hopen)
  · rw [popped_of_write hw haddr, hpopped, ← h.settled.low.signal_eq]
    exact h.settled.low.step _

/-- The second write: the popped bit goes high. -/
theorem Reading.write_set (h : Reading idx opened results slot n s) (hj : Producer idx s j)
    (hw : s.axi.wHs g.toAxiLiteMaster = true) (haddr : s.axi.waddr = ConfigRegs.bufferRxCtrl idx.toNat)
    (hstore : g.store = none) (hpopped : g.wdata.getLsbD bufferPoppedOffset = true)
    (hopen : g.wdata.getLsbD bufferOpensockOffset = opened) :
    Popping idx opened results slot n false (s.step idx g j) := by
  have hpulse := h.settled.low.pulse_eq
  have hpops : (s.step idx g j).pops = s.pops := by simp [RxRing.step, hpulse]
  refine ⟨?_, ?_, hpops.trans h.pops, getElem?_of_isPrefix pushed_isPrefix h.next⟩
  · rw [← h.pops]
    exact h.settled.queue.step hj hstore (by simp [hpulse]) (opensock_of_write hw haddr hopen)
  · rw [popped_of_write hw haddr, hpopped]
    exact h.settled.low.high hw

/-- Quiet cycles give the one pulse of a high popped bit. -/
theorem Popping.quiet (h : Popping idx opened results slot n pulsed s) (hs' : (device idx).Quiet s s') :
    ∃ pulsed', Popping idx opened results slot n pulsed' s' := by
  obtain ⟨g, j, hj, hw, hstore, rfl⟩ := hs'
  obtain ⟨hhigh, honce⟩ := h.high.step g.toAxiLiteMaster
  have hregs : (s.step idx g j).regs = s.regs := regs_of_quiet hw
  have hpopped : (s.step idx g j).popped idx = s.popped idx := by rw [popped, hregs, popped]
  have hlt : n < s.pushed.length := (List.getElem?_eq_some_iff.mp h.next).1
  refine ⟨pulsed || s.popPulse.pulse, ?_, ?_, ?_, getElem?_of_isPrefix pushed_isPrefix h.next⟩
  · refine h.queue.step hj hstore (fun hpulse => ?_) (by rw [hregs, h.queue.stored.opensock])
    rw [h.pops, honce hpulse]
    exact hlt
  · change (s.popPulse.step (s.popped idx)).High ((s.step idx g j).popped idx) _ _
    rw [hpopped]
    exact hhigh
  · change s.pops + s.popPulse.pulse.toNat = _
    rw [h.pops]
    cases hpulse : s.popPulse.pulse with
    | false => rw [Bool.or_false, Bool.toNat_false, Nat.add_zero]
    | true => rw [honce hpulse, Bool.or_true, Bool.toNat_false, Nat.add_zero]

/-- The third write finds the packet popped, and the popped bit goes low. -/
theorem Popping.write_clear {packet : UdpPacket} (hshows : slot.Shows packet)
    (h : Popping idx opened results slot n pulsed s) (hj : Producer idx s j)
    (hw : s.axi.wHs g.toAxiLiteMaster = true) (haddr : s.axi.waddr = ConfigRegs.bufferRxCtrl idx.toNat)
    (hstore : g.store = none) (hpopped : g.wdata.getLsbD bufferPoppedOffset = false)
    (hopen : g.wdata.getLsbD bufferOpensockOffset = opened) :
    Settled idx opened (results ++ [some packet]) (s.step idx g j) := by
  obtain ⟨rfl, hpulse, hlow⟩ := h.high.low hw
  have hpops : (s.step idx g j).pops = n + 1 := by simp [RxRing.step, hpulse, h.pops]
  have hqueue := h.queue.step hj hstore (by simp [hpulse]) (opensock_of_write (j := j) hw haddr hopen)
  have hnext := getElem?_of_isPrefix (@pushed_isPrefix idx s g j) h.next
  refine ⟨⟨hqueue.stored, ?_, hqueue.stored.tracks.pops_le⟩, ?_⟩
  · have hsplit : packetsOf (results ++ [some packet]) = packetsOf results ++ [packet] := by simp [packetsOf]
    rw [hpops, List.take_add_one, hnext, hsplit]
    exact List.rel_append hqueue.returned (.cons hshows .nil)
  · rw [popped_of_write hw haddr, hpopped]
    exact hlow

/-- Between two calls every pop belongs to a returned packet. -/
theorem Settled.pops_eq (h : Settled idx opened results s) : s.pops = (packetsOf results).length :=
  h.queue.length_eq.symm

/-- Between two calls the property holds. -/
theorem Settled.received (h : Settled idx opened results s) : Received idx opened results s := by
  have hlength := h.pops_eq
  refine ⟨?_, by simp [h.low.pulse_eq], h.queue.stored.opensock, by omega, by omega⟩
  rw [← hlength]
  exact h.queue.returned

/-- At the return of a call the property holds. -/
theorem Settled.received_of_append {result : Option UdpPacket}
    (h : Settled idx opened (results ++ [result]) s) : Received idx opened results s := by
  have hsplit : packetsOf (results ++ [result]) = packetsOf results ++ result.toList := by
    cases result <;> simp [packetsOf]
  have hlength := h.pops_eq
  have hreceived := h.received
  rw [hsplit, List.length_append] at hlength
  have hone : result.toList.length ≤ 1 := by cases result <;> simp
  refine ⟨?_, hreceived.popsFilled, hreceived.opensock, by omega, by omega⟩
  have hshows := List.forall₂_take (packetsOf results).length hreceived.shows
  rwa [hsplit, List.take_left', List.take_take, List.length_append, Nat.min_eq_left (Nat.le_add_right _ _)] at hshows
  rfl

/-- While the packet is popped the property holds. -/
theorem Popping.received (h : Popping idx opened results slot n pulsed s) :
    Received idx opened results s := by
  have hlength := h.queue.length_eq
  have hlt : n < s.pushed.length := (List.getElem?_eq_some_iff.mp h.next).1
  have hpops := h.pops
  refine ⟨?_, fun hpulse => ?_, h.queue.stored.opensock, by omega, ?_⟩
  · rw [hlength]
    exact h.queue.returned
  · have hfirst := (h.high.step ⟨false, 0, false, 0, false, false, 0, false⟩).2 hpulse
    rw [hfirst, Bool.toNat_false, Nat.add_zero] at hpops
    rw [h.queue.stored.tracks.empty, decide_eq_false_iff_not, hpops]
    omega
  · have hle := Bool.toNat_le pulsed
    omega

/-- The bits the consumer writes back. -/
theorem getLsbD_maskClear (value : BitVec 32) :
    (value &&& Udriver.maskClear).getLsbD bufferPoppedOffset = false ∧
      (value &&& Udriver.maskClear).getLsbD bufferOpensockOffset = value.getLsbD bufferOpensockOffset := by
  have hpopped : Udriver.maskClear.getLsbD bufferPoppedOffset = false := by decide
  have hopen : Udriver.maskClear.getLsbD bufferOpensockOffset = true := by decide
  rw [BitVec.getLsbD_and, BitVec.getLsbD_and, hpopped, hopen, Bool.and_false, Bool.and_true]
  exact ⟨rfl, rfl⟩

theorem getLsbD_maskSet (value : BitVec 32) :
    (value ||| Udriver.maskSet).getLsbD bufferPoppedOffset = true ∧
      (value ||| Udriver.maskSet).getLsbD bufferOpensockOffset = value.getLsbD bufferOpensockOffset := by
  have hpopped : Udriver.maskSet.getLsbD bufferPoppedOffset = true := by decide
  have hopen : Udriver.maskSet.getLsbD bufferOpensockOffset = false := by decide
  rw [BitVec.getLsbD_or, BitVec.getLsbD_or, hpopped, hopen, Bool.or_true, Bool.or_false]
  exact ⟨rfl, rfl⟩

/-- A read of the control word. -/
theorem read_bufferRxCtrl : s.regs.read (s.status idx j) (ConfigRegs.bufferRxCtrl idx.toNat) =
    ConfigRegs.rxWord (s.regs.bufrxTemp idx) ⟨j.push, s.ring.full, s.ring.empty,
      BitVec.ofNat 5 s.ring.tailIndex, BitVec.ofNat 5 s.ring.headIndex⟩ := by
  rw [ConfigRegs.read, ConfigRegs.ringOf_toNat]
  simp [status]

/-- `notify_pop_to_rx_buffer` pops the packet that was read. -/
theorem outline_notifyPopToRxBuffer {inv : RxRing → Prop} {packet : UdpPacket} (hshows : slot.Shows packet)
    (hreading : ∀ s, Reading idx opened results slot n s → inv s)
    (hpopping : ∀ s pulsed, Popping idx opened results slot n pulsed s → inv s)
    (hsettled : ∀ s, Settled idx opened (results ++ [some packet]) s → inv s)
    (h : Reading idx opened results slot n s) :
    (Udriver.notifyPopToRxBuffer idx.toNat).Outline (device idx).Quiet (device idx).Responds
      inv (fun _ => Settled idx opened (results ++ [some packet])) s := by
  refine Program.Outline.bind (Udriver.outline_readReg (Reading idx opened results slot n)
    (fun value s => value.getLsbD bufferOpensockOffset = opened ∧ Reading idx opened results slot n s)
    h (fun _ _ => Reading.quiet) hreading ?_ (fun _ _ _ hs hq => ⟨hs.1, hs.2.quiet hq⟩)
    fun value s hs => ⟨hreading s hs.2, ?_⟩)
  · intro s j s' hs hq
    refine ⟨?_, hs.quiet hq⟩
    change (s.regs.read (s.status idx j) _).getLsbD _ = opened
    rw [read_bufferRxCtrl, ConfigRegs.getLsbD_rxWord_opensock]
    exact hs.settled.queue.stored.opensock
  obtain ⟨hopen, h⟩ := hs
  refine Program.Outline.bind (Udriver.outline_writeReg (Reading idx opened results slot n)
    (Reading idx opened results slot n) h (fun _ _ => Reading.quiet) hreading ?_
    (fun _ _ => Reading.quiet) fun s h => ⟨hreading s h, ?_⟩)
  · rintro s g j hs hj hw haddr hdata hstore
    refine hs.write_clear hj hw haddr hstore ?_ ?_ <;> rw [hdata]
    · exact (getLsbD_maskClear value).1
    · exact (getLsbD_maskClear value).2.trans hopen
  refine Program.Outline.bind (Udriver.outline_writeReg (Reading idx opened results slot n)
    (fun s => ∃ pulsed, Popping idx opened results slot n pulsed s) h (fun _ _ => Reading.quiet) hreading ?_
    (fun _ _ hs hq => hs.elim fun _ hs => hs.quiet hq)
    fun s h => ⟨h.elim fun pulsed hs => hpopping s pulsed hs, ?_⟩)
  · rintro s g j hs hj hw haddr hdata hstore
    refine ⟨false, hs.write_set hj hw haddr hstore ?_ ?_⟩ <;> rw [hdata]
    · exact (getLsbD_maskSet value).1
    · exact (getLsbD_maskSet value).2.trans hopen
  refine Udriver.outline_writeReg (fun s => ∃ pulsed, Popping idx opened results slot n pulsed s)
    (Settled idx opened (results ++ [some packet])) h (fun _ _ hs hq => hs.elim fun _ hs => hs.quiet hq)
    (fun s hs => hs.elim fun pulsed hs => hpopping s pulsed hs) ?_ (fun _ _ hs hq => (hs.quiet hq).1)
    fun s h => ⟨hsettled s h, h⟩
  · rintro s g j ⟨pulsed, hs⟩ hj hw haddr hdata hstore
    refine hs.write_clear hshows hj hw haddr hstore ?_ ?_ <;> rw [hdata]
    · exact (getLsbD_maskClear value).1
    · exact (getLsbD_maskClear value).2.trans hopen

/-- The bytes of the next packet in memory. -/
theorem Reading.load (h : Reading idx opened results slot n s) {off : ℕ} (hoff : off < bufferElemMaxSize) :
    s.memory (slotOffset idx (n % bufferRxLength) + off) = slot off := by
  obtain ⟨hlt, hget⟩ := List.getElem?_eq_some_iff.mp h.next
  rw [h.settled.queue.stored.unread n hlt (Nat.le_of_eq h.pops) off hoff, hget]

/-- A call that returns nothing leaves the queue. -/
theorem Settled.append_none (h : Settled idx opened results s) :
    Settled idx opened (results ++ [none]) s := by
  have hsame : packetsOf (results ++ [none]) = packetsOf results := by simp [packetsOf]
  exact ⟨⟨h.queue.stored, hsame ▸ h.queue.returned, h.queue.le⟩, h.low⟩

/-- The control word of a ring that is not empty points at the next packet. -/
theorem Settled.reading_of_read (h : Settled idx opened results s) (hs' : (device idx).Quiet s s')
    (hempty : ((device idx).readValue s j (ConfigRegs.bufferRxCtrl idx.toNat)).getLsbD bufferEmptyOffset =
      false) :
    ∃ slot n, Reading idx opened results slot n s' ∧
      (((device idx).readValue s j (ConfigRegs.bufferRxCtrl idx.toNat)).extractLsb'
        bufferTailOffset 5).toNat = n % bufferRxLength := by
  have hread : (device idx).readValue s j (ConfigRegs.bufferRxCtrl idx.toNat) = _ := read_bufferRxCtrl
  have htracks := h.queue.stored.tracks
  rw [hread, ConfigRegs.getLsbD_rxWord_empty, htracks.empty, decide_eq_false_iff_not] at hempty
  have hlt : s.pops < s.pushed.length := Nat.lt_of_le_of_ne htracks.pops_le (Ne.symm hempty)
  have hnext : Reading idx opened results s.pushed[s.pops] s.pops s :=
    ⟨h, rfl, List.getElem?_eq_getElem hlt⟩
  refine ⟨s.pushed[s.pops], s.pops, hnext.quiet hs', ?_⟩
  rw [hread, ConfigRegs.extractLsb'_rxWord_tail, BitVec.toNat_ofNat, htracks.tail]
  exact Nat.mod_eq_of_lt (Nat.mod_lt _ (by decide))

/-- The control word is read: if it shows a packet, that is the next one. -/
theorem outline_readCtrl {inv : RxRing → Prop} (hinv : ∀ s, Settled idx opened results s → inv s)
    (h : Settled idx opened results s) :
    (Udriver.readReg (ConfigRegs.bufferRxCtrl idx.toNat)).Outline (device idx).Quiet (device idx).Responds inv
      (fun reg s => Settled idx opened results s ∧ (reg.getLsbD bufferEmptyOffset = false →
        ∃ slot n, Reading idx opened results slot n s ∧
          (reg.extractLsb' bufferTailOffset 5).toNat = n % bufferRxLength)) s := by
  refine Udriver.outline_readReg (Settled idx opened results)
    (fun reg s => Settled idx opened results s ∧ (reg.getLsbD bufferEmptyOffset = false →
      ∃ slot n, Reading idx opened results slot n s ∧
        (reg.extractLsb' bufferTailOffset 5).toNat = n % bufferRxLength))
    h (fun _ _ hs hq => (hs.quiet hq).1) hinv
    (fun s j s' hs hq => ⟨(hs.quiet hq).1, hs.reading_of_read hq⟩) ?_ fun reg s hs => ⟨hinv s hs.1, hs⟩
  rintro reg s s' ⟨hs, hnext⟩ hq
  refine ⟨(hs.quiet hq).1, fun hempty => ?_⟩
  obtain ⟨slot, n, hreading, htail⟩ := hnext hempty
  exact ⟨slot, n, hreading.quiet hq, htail⟩

/-- The header of the next packet is read. -/
theorem outline_header {inv : RxRing → Prop} (hinv : ∀ s, Reading idx opened results slot n s → inv s)
    (h : Reading idx opened results slot n s) :
    (Udriver.xrtBORead (slotOffset idx (n % bufferRxLength)) Udriver.packetHdrSizeBytes).Outline (device idx).Quiet
      (device idx).Responds inv (fun header s => header = (List.range Udriver.packetHdrSizeBytes).map slot ∧
        Reading idx opened results slot n s) s :=
  Udriver.outline_xrtBORead (Reading idx opened results slot n) slot (fun _ _ => Reading.quiet) hinv _ _ s h
    fun s hs k hk => hs.load (Nat.lt_trans hk (by decide))

/-- The payload of the next packet is read, and bytes behind the slot if it does not end within. -/
theorem outline_payload {inv : RxRing → Prop} (hinv : ∀ s, Reading idx opened results slot n s → inv s)
    (h : Reading idx opened results slot n s) {header : List (BitVec 8)}
    (hheader : header = (List.range Udriver.packetHdrSizeBytes).map slot) :
    (Udriver.xrtBORead (slotOffset idx (n % bufferRxLength) + Udriver.packetHdrSizeBytes)
      (Udriver.payloadSizeBytes header)).Outline (device idx).Quiet (device idx).Responds inv
      (fun payload s => slot.Shows ⟨header, payload⟩ ∧ Reading idx opened results slot n s) s := by
  refine (Udriver.outline_xrtBORead_such (Reading idx opened results slot n)
    (fun k b => Udriver.packetHdrSizeBytes + k < bufferElemMaxSize → b = slot (Udriver.packetHdrSizeBytes + k))
    (fun _ _ => Reading.quiet) hinv _ _ s h ?_).mono ?_
  · rintro s k b s' hs - ⟨hq, rfl⟩
    rw [Nat.add_assoc]
    exact ⟨fun hk => hs.load hk, hs.quiet hq⟩
  · rintro payload s ⟨⟨hlength, hpayload⟩, hs⟩
    refine ⟨⟨hheader, ?_, hpayload⟩, hs⟩
    rw [← hheader]
    exact hlength

/-- `udriver_recv` returns the next packet if the ring holds one, and pops it. -/
theorem outline_udriverRecv {inv : RxRing → Prop} (hsettled : ∀ s, Settled idx opened results s → inv s)
    (hpopping : ∀ s slot n pulsed, Popping idx opened results slot n pulsed s → inv s)
    (hreturned : ∀ s result, Settled idx opened (results ++ [result]) s → inv s)
    (h : Settled idx opened results s) :
    (Udriver.udriverRecv idx.toNat).Outline (device idx).Quiet (device idx).Responds
      inv (fun result => Settled idx opened (results ++ [result])) s := by
  refine Program.Outline.bind ((outline_readCtrl hsettled h).mono ?_)
  rintro reg s ⟨hs, hnext⟩
  cases hempty : reg.getLsbD bufferEmptyOffset with
  | true =>
    exact .done (Settled idx opened results) hs (fun _ _ hs hq => (hs.quiet hq).1)
      fun s hs => ⟨hsettled s hs, hs.append_none⟩
  | false =>
    obtain ⟨slot, n, hreading, htail⟩ := hnext hempty
    have hread := fun s (hs : Reading idx opened results slot n s) => hsettled s hs.settled
    change Program.Outline _ _ _ _ (Udriver.xrtBORead (Udriver.bufRxIdxOffsetBytes idx.toNat +
      (reg.extractLsb' bufferTailOffset 5).toNat * bufferElemMaxSize) Udriver.packetHdrSizeBytes >>= _) s
    rw [htail]
    refine Program.Outline.bind ((outline_header hread hreading).mono ?_)
    rintro header s ⟨hheader, hs⟩
    refine Program.Outline.bind ((outline_payload hread hs hheader).mono ?_)
    rintro payload s ⟨hshows, hs⟩
    refine Program.Outline.bind ((outline_notifyPopToRxBuffer hshows hread (fun s pulsed hs => hpopping s slot n pulsed hs)
      (fun s hs => hreturned s _ hs) hs).mono fun _ s hs => ?_)
    exact .done (Settled idx opened (results ++ [some ⟨header, payload⟩])) hs (fun _ _ hs hq => (hs.quiet hq).1)
      fun s hs => ⟨hreturned s _ hs, hs⟩

variable (idx opened)

/-- One consumer on the port, and the device. -/
def consumer : Clocked.Machine (System RxRing (Option UdpPacket)) (PsInput Unit × RxRingInput) :=
  System.machine (device idx) fun _ => Udriver.udriverRecv idx.toNat

/-- What was returned is a prefix of what was pushed, each returned packet was popped once and from a
ring that held it, and the socket is as it was. -/
structure InOrder (s : System RxRing (Option UdpPacket)) (_ : PsInput Unit × RxRingInput) : Prop where
  inOrder : packetsOf s.ps.results <+: s.device.pushed.map Slot.packet
  received : Received idx opened s.ps.results s.device
  popsOnce : s.ps.pending = none → s.device.pops = (packetsOf s.ps.results).length

/-- After the power-on reset the ring is empty. -/
theorem settled_start : Settled idx opened [] (start opened) where
  queue := by
    refine ⟨⟨CircularBuffer.tracks_reset (by decide), fun k hk => absurd hk (Nat.not_lt_zero k), ?_⟩,
      .nil, Nat.le_refl _⟩
    · have hbit : (ConfigRegs.field (BitVec.ofBool opened) bufferOpensockOffset).getLsbD
          bufferOpensockOffset = opened := by cases opened <;> decide
      exact hbit
  low := by
    have hbit : (ConfigRegs.field (BitVec.ofBool opened) bufferOpensockOffset).getLsbD
        bufferPoppedOffset = false := by cases opened <;> decide
    exact ⟨hbit, Or.inl rfl⟩

/-- Only packets that end within their slot are pushed. -/
def PushesFit (s : System RxRing (Option UdpPacket)) (i : PsInput Unit × RxRingInput) : Prop :=
  i.2.push = true → (s.device.headSlot idx i.2).Fits

instance (s : System RxRing (Option UdpPacket)) (i : PsInput Unit × RxRingInput) : Decidable (PushesFit idx s i) :=
  inferInstanceAs (Decidable (_ → _))

/-- What holds of the ring at every point of a call. -/
def Consuming : System RxRing (Option UdpPacket) → Prop := System.Inv (device idx) (Settled idx opened) (Received idx opened)

variable {idx opened}

/-- Whatever the producer and the bus do, `udriver_recv` shows the pushed packets. -/
theorem Consuming.step {s : System RxRing (Option UdpPacket)} {i : PsInput Unit × RxRingInput}
    (h : Consuming idx opened s) (hi : (consumer idx).legal s i) : Consuming idx opened ((consumer idx).step s i) :=
  System.inv_step (fun _ _ _ hs hq => (hs.quiet hq).1) (fun _ _ _ hs => outline_udriverRecv (fun _ hs => hs.received)
    (fun _ _ _ _ hs => hs.received) (fun _ _ hs => hs.received_of_append) hs) s i h hi

variable (idx opened) in
/-- And all packets that were pushed end within their slots. -/
structure ConsumingFits (s : System RxRing (Option UdpPacket)) : Prop where
  consuming : Consuming idx opened s
  fits : ∀ slot ∈ s.device.pushed, slot.Fits

/-- Then the packets are returned in order. -/
theorem ConsumingFits.inOrder {s : System RxRing (Option UdpPacket)} (h : ConsumingFits idx opened s)
    (i : PsInput Unit × RxRingInput) : InOrder idx opened s i := by
  have hreceived : Received idx opened s.ps.results s.device := h.consuming.always fun _ _ hs => hs.received
  refine ⟨?_, hreceived, fun hidle => (h.consuming.idle hidle).pops_eq⟩
  rw [Slot.map_packet_eq hreceived.shows fun slot hslot => h.fits slot (List.mem_of_mem_take hslot)]
  exact (List.take_prefix _ _).map _

/-- A cycle keeps it so, if it pushes no longer packet. -/
theorem ConsumingFits.step {s : System RxRing (Option UdpPacket)} {i : PsInput Unit × RxRingInput}
    (h : ConsumingFits idx opened s) (hi : (consumer idx).legal s i) (hpushes : PushesFit idx s i) :
    ConsumingFits idx opened ((consumer idx).step s i) where
  consuming := h.consuming.step hi
  fits := fun _ hslot => Slot.fits_of_push h.fits hpushes hslot

variable (idx opened)

/-- Whatever the producer and the bus do, `udriver_recv` returns the pushed packets in order, if they end within their
slots. -/
theorem returns_of_pushesFit :
    ((consumer idx).restrict (PushesFit idx)).Always ⟨Ps.start, start opened⟩ (InOrder idx opened) := by
  have hstart : ConsumingFits idx opened ⟨Ps.start, start opened⟩ :=
    ⟨System.inv_start (Or.inr rfl) (Or.inr rfl) (settled_start idx opened), fun _ hslot => absurd hslot List.not_mem_nil⟩
  exact Clocked.Machine.always_of_invariant hstart (fun s i h hi => h.step hi.1 hi.2) fun s i h _ => h.inOrder i

section Runs

/-- A cycle in which every access is made at once. -/
def cycle (call : Option Unit) : PsInput Unit × RxRingInput :=
  (⟨true, true, true, true, true, true, call⟩, ⟨fun _ => none, false, .idle⟩)

/-- A cycle in which a slot is written and pushed. -/
def arrival (index : ℕ) (slot : Slot) : PsInput Unit × RxRingInput :=
  (⟨true, true, true, true, true, true, none⟩, ⟨fun a =>
    if slotOffset 0 index ≤ a ∧ a < slotOffset 0 (index + 1) then some (slot (a - slotOffset 0 index)) else none,
    true, .idle⟩)

/-- The ring with pushed slots in the cycles in which its memory is read. -/
def ringWith (axi : AxiLite) (memory : ℕ → BitVec 8) (pushed : List Slot) : RxRing :=
  { start true with
    axi := axi
    ring := ⟨pushed.length, 0, false, false⟩
    memory := memory
    pushed := pushed }

/-- The bus between two accesses. -/
def quietBus (rdata : BitVec 32) : AxiLite := ⟨.wrIdle, 0, .rdIdle, rdata⟩

variable (axi : AxiLite) (rdata : BitVec 32) (memory : ℕ → BitVec 8) (slot : Slot) (pushed : List Slot)

/-- The popped bit is low. -/
theorem popPulse_ringWith :
    (ringWith axi memory pushed).popPulse.step ((ringWith axi memory pushed).popped 0) = .reset := by
  have hlow : (start true).popped 0 = false := by decide
  exact congrArg (PulseOnPosedge.step .reset) hlow

/-- The first packet comes. -/
theorem step_first : (consumer 0).step ⟨Ps.start, start true⟩ (arrival 0 slot) =
    ⟨Ps.start, ringWith (quietBus 0) (fun a => ((arrival 0 slot).2.writes a).getD 0)
      [fun k => ((arrival 0 slot).2.writes (slotOffset 0 0 + k)).getD 0]⟩ := rfl

/-- The second packet comes. -/
theorem step_second (first : Slot) : (consumer 0).step ⟨Ps.start, ringWith (quietBus 0) memory [first]⟩ (arrival 1 slot) =
    ⟨Ps.start, ringWith (quietBus 0) (fun a => ((arrival 1 slot).2.writes a).getD (memory a))
      [first, fun k => ((arrival 1 slot).2.writes (slotOffset 0 1 + k)).getD (memory (slotOffset 0 1 + k))]⟩ := by
  change System.mk _ (RxRing.step 0 _ _ _) = _
  rw [RxRing.step, popPulse_ringWith]
  rfl

/-- A cycle in which nothing comes and no register is accessed. -/
theorem step_ringWith :
    (device 0).step (ringWith (quietBus rdata) memory pushed) ⟨⟨false, 0, false, 0, true, false, 0, true⟩, none⟩
      (cycle none).2 = ringWith (quietBus rdata) memory pushed := by
  change RxRing.step 0 _ _ _ = _
  rw [RxRing.step, popPulse_ringWith]
  rfl

/-- The call is made. -/
theorem step_call : (consumer 0).step ⟨Ps.start, ringWith (quietBus 0) memory pushed⟩ (cycle (some ())) =
    ⟨Ps.start.resume (Udriver.udriverRecv 0), ringWith (quietBus 0) memory pushed⟩ :=
  congrArg (System.mk _) (step_ringWith 0 memory pushed)

/-- The control word of the ring. -/
def controlWord (pushed : List Slot) : BitVec 32 :=
  (ringWith (quietBus 0) (fun _ => 0) pushed).regs.read ((ringWith (quietBus 0) (fun _ => 0) pushed).status 0 (cycle none).2)
    (ConfigRegs.bufferRxCtrl 0)

/-- A program that reads it first. -/
def readingCtrl (next : BitVec 32 → UserCode (Option UdpPacket)) : UserCode (Option UdpPacket) :=
  .perform (.readReg (ConfigRegs.bufferRxCtrl 0)) next

/-- It is read. -/
theorem run_read (next : BitVec 32 → UserCode (Option UdpPacket)) :
    (consumer 0).run ⟨Ps.start.resume (readingCtrl next), ringWith (quietBus 0) memory pushed⟩
      (List.replicate 2 (cycle none)) =
      ⟨Ps.start.resume (next (controlWord pushed)), ringWith (quietBus (controlWord pushed)) memory pushed⟩ := by
  have hfirst : (consumer 0).step ⟨Ps.start.resume (readingCtrl next), ringWith (quietBus 0) memory pushed⟩ (cycle none) =
      ⟨⟨some (readingCtrl next), .effected, []⟩, ringWith ⟨.wrIdle, 0, .rdData, controlWord pushed⟩ memory pushed⟩ := by
    change System.mk _ (RxRing.step 0 _ _ _) = _
    rw [RxRing.step, popPulse_ringWith]
    rfl
  rw [List.replicate, List.replicate, List.replicate, Clocked.Machine.run_cons, hfirst]
  generalize controlWord pushed = value
  change System.mk _ (RxRing.step 0 (ringWith ⟨.wrIdle, 0, .rdData, value⟩ memory pushed) _ _) = _
  rw [RxRing.step, popPulse_ringWith]
  rfl

/-- Bytes are loaded one after the other. -/
theorem run_loads (size off : ℕ) (rest : List (BitVec 8) → UserCode (Option UdpPacket)) :
    (consumer 0).run ⟨Ps.start.resume (Udriver.xrtBORead off size >>= rest), ringWith (quietBus rdata) memory pushed⟩
      (List.replicate size (cycle none)) =
    ⟨Ps.start.resume (rest ((List.range size).map fun k => memory (off + k))), ringWith (quietBus rdata) memory pushed⟩ := by
  induction size generalizing off rest with
  | zero => rfl
  | succ size ih =>
    have hstep : (consumer 0).step
        ⟨Ps.start.resume (Udriver.xrtBORead off (size + 1) >>= rest), ringWith (quietBus rdata) memory pushed⟩
        (cycle none) = ⟨Ps.start.resume ((Udriver.xrtBORead (off + 1) size >>= fun r => pure (memory off :: r)) >>= rest),
          ringWith (quietBus rdata) memory pushed⟩ :=
      congrArg (System.mk _) (step_ringWith rdata memory pushed)
    rw [List.replicate_succ, Clocked.Machine.run_cons, hstep, Program.bind_assoc, ih, List.range_succ_eq_map,
      List.map_cons, List.map_map]
    simp only [Function.comp_def, Nat.add_zero, Nat.succ_eq_add_one, Nat.add_assoc, Nat.add_comm 1]
    rfl

/-- The header that is read. -/
def headerAt (memory : ℕ → BitVec 8) : List (BitVec 8) :=
  (List.range Udriver.packetHdrSizeBytes).map fun k => memory (slotOffset 0 0 + k)

/-- The packet that is read. -/
def packetAt (memory : ℕ → BitVec 8) : UdpPacket :=
  ⟨headerAt memory, (List.range (Udriver.payloadSizeBytes (headerAt memory))).map fun k =>
    memory (slotOffset 0 0 + Udriver.packetHdrSizeBytes + k)⟩

/-- `udriver_recv` from the header on. -/
def readPacket : UserCode (Option UdpPacket) := do
  let header ← Udriver.xrtBORead (slotOffset 0 0) Udriver.packetHdrSizeBytes
  let payload ← Udriver.xrtBORead (slotOffset 0 0 + Udriver.packetHdrSizeBytes) (Udriver.payloadSizeBytes header)
  Udriver.notifyPopToRxBuffer 0
  return some ⟨header, payload⟩

/-- The control word shows a packet in the first slot. -/
theorem run_readCtrl :
    (consumer 0).run ⟨Ps.start.resume (Udriver.udriverRecv 0), ringWith (quietBus 0) memory pushed⟩
      (List.replicate 2 (cycle none)) = ⟨Ps.start.resume readPacket, ringWith (quietBus (controlWord pushed)) memory pushed⟩ := by
  have hword : controlWord pushed = ConfigRegs.rxWord _ _ := @read_bufferRxCtrl 0 _ _
  have hempty : (controlWord pushed).getLsbD bufferEmptyOffset = false := by
    rw [hword, ConfigRegs.getLsbD_rxWord_empty]
    rfl
  have htail : ((controlWord pushed).extractLsb' bufferTailOffset 5).toNat = 0 := by
    rw [hword, ConfigRegs.extractLsb'_rxWord_tail]
    rfl
  have hrecv : Udriver.udriverRecv 0 = readingCtrl fun reg =>
      if reg.getLsbD bufferEmptyOffset then return none
      else do
        let header ← Udriver.xrtBORead (Udriver.bufRxIdxOffsetBytes 0 +
          (reg.extractLsb' bufferTailOffset 5).toNat * bufferElemMaxSize) Udriver.packetHdrSizeBytes
        let payload ← Udriver.xrtBORead (Udriver.bufRxIdxOffsetBytes 0 +
          (reg.extractLsb' bufferTailOffset 5).toNat * bufferElemMaxSize + Udriver.packetHdrSizeBytes)
          (Udriver.payloadSizeBytes header)
        Udriver.notifyPopToRxBuffer 0
        return some ⟨header, payload⟩ := rfl
  rw [hrecv, run_read, hempty, htail]
  rfl

/-- The packet at the tail is read. -/
theorem run_readPacket :
    (consumer 0).run ⟨Ps.start.resume readPacket, ringWith (quietBus rdata) memory pushed⟩
      (List.replicate Udriver.packetHdrSizeBytes (cycle none) ++
        List.replicate (Udriver.payloadSizeBytes (headerAt memory)) (cycle none)) =
    ⟨Ps.start.resume (Udriver.notifyPopToRxBuffer 0 >>= fun _ => pure (some (packetAt memory))),
      ringWith (quietBus rdata) memory pushed⟩ := by
  rw [readPacket, Clocked.Machine.run_append, run_loads, ← headerAt, run_loads]
  rfl

/-- A packet with a byte. -/
def byteSlot : Slot := fun k => if k = 0 then 1 else if k = 40 then 7 else 0

/-- A packet with a byte more than fits a slot. -/
def longSlot : Slot := fun k => if k = 0 then 0xD9 else if k = 1 then 7 else 0

/-- Two packets come, and a call is made. -/
def arriving (slot : Slot) : List (PsInput Unit × RxRingInput) := [arrival 0 slot, arrival 1 byteSlot, cycle (some ())]

/-- The memory then. -/
def arrivedMemory (slot : Slot) (a : ℕ) : BitVec 8 :=
  ((arrival 1 byteSlot).2.writes a).getD (((arrival 0 slot).2.writes a).getD 0)

/-- The slots that were pushed. -/
def arrivedSlots (slot : Slot) : List Slot :=
  [fun k => ((arrival 0 slot).2.writes (slotOffset 0 0 + k)).getD 0, fun k => arrivedMemory slot (slotOffset 0 1 + k)]

theorem run_arriving : (consumer 0).run ⟨Ps.start, start true⟩ (arriving slot) =
    ⟨Ps.start.resume (Udriver.udriverRecv 0), ringWith (quietBus 0) (arrivedMemory slot) (arrivedSlots slot)⟩ := by
  rw [arriving, Clocked.Machine.run_cons, step_first, Clocked.Machine.run_cons, step_second, Clocked.Machine.run_cons,
    step_call]
  rfl

/-- The whole call. -/
def receiving (slot : Slot) : List (PsInput Unit × RxRingInput) :=
  arriving slot ++ (List.replicate 2 (cycle none) ++ (List.replicate Udriver.packetHdrSizeBytes (cycle none) ++
    List.replicate (Udriver.payloadSizeBytes (headerAt (arrivedMemory slot))) (cycle none)) ++ List.replicate 11 (cycle none))

/-- What it comes to. -/
theorem run_receiving : (consumer 0).run ⟨Ps.start, start true⟩ (receiving slot) = (consumer 0).run
    ⟨Ps.start.resume (Udriver.notifyPopToRxBuffer 0 >>= fun _ => pure (some (packetAt (arrivedMemory slot)))),
      ringWith (quietBus (controlWord (arrivedSlots slot))) (arrivedMemory slot) (arrivedSlots slot)⟩
    (List.replicate 11 (cycle none)) := by
  rw [receiving, Clocked.Machine.run_append, run_arriving, Clocked.Machine.run_append, Clocked.Machine.run_append,
    run_readCtrl, run_readPacket]

/-- A slot is written into a ring with room. -/
theorem producer_arrival {s : RxRing} {index : ℕ} (hhead : s.ring.headIndex = index) (hfull : s.ring.full = false) :
    Producer 0 s (arrival index slot).2 := by
  refine ⟨fun a ha => ?_, fun _ => hfull⟩
  by_cases hin : slotOffset 0 index ≤ a ∧ a < slotOffset 0 (index + 1)
  · rw [hhead]
    exact Or.inr (Or.inr ⟨hfull, hin⟩)
  · simp only [arrival, hin, if_false, ne_eq, not_true] at ha

/-- Cycles in which nothing comes are legal. -/
theorem legal_cycles {m : Clocked.Machine (System RxRing (Option UdpPacket)) (PsInput Unit × RxRingInput)}
    (hcycle : ∀ s call, m.legal s (cycle call)) {inputs : List (PsInput Unit × RxRingInput)}
    (hinputs : ∀ i ∈ inputs, i = cycle none) (s : System RxRing (Option UdpPacket)) : m.Legal s inputs := by
  induction inputs generalizing s with
  | nil => trivial
  | cons i rest ih =>
    refine ⟨?_, ih (fun j hj => hinputs j (List.mem_cons_of_mem i hj)) _⟩
    rw [hinputs i List.mem_cons_self]
    exact hcycle s none

/-- Nothing is written, and nothing pushed. -/
theorem producer_cycle (s : RxRing) (call : Option Unit) : Producer 0 s (cycle call).2 := by
  have hnone (a : ℕ) : (cycle call).2.writes a = none := rfl
  have hpush : (cycle call).2.push = false := rfl
  exact ⟨fun a ha => absurd (hnone a) ha, fun h => Bool.noConfusion (hpush.symm.trans h)⟩

/-- The call is legal wherever the arrivals are. -/
theorem legal_receiving {m : Clocked.Machine (System RxRing (Option UdpPacket)) (PsInput Unit × RxRingInput)}
    (harriving : m.Legal ⟨Ps.start, start true⟩ (arriving slot)) (hcycle : ∀ s call, m.legal s (cycle call)) :
    m.Legal ⟨Ps.start, start true⟩ (receiving slot) := by
  refine (m.legal_append _ _ _).mpr ⟨harriving, legal_cycles hcycle (fun i hi => ?_) _⟩
  simp only [List.mem_append, List.mem_replicate] at hi
  obtain (⟨-, hi⟩ | ⟨-, hi⟩ | ⟨-, hi⟩) | ⟨-, hi⟩ := hi <;> exact hi

/-- The arrivals are. -/
theorem producer_arriving : (consumer 0).Legal ⟨Ps.start, start true⟩ (arriving slot) := by
  refine ⟨producer_arrival slot rfl rfl, ?_⟩
  rw [step_first]
  exact ⟨producer_arrival byteSlot rfl rfl, producer_cycle _ _, trivial⟩

/-- A packet with one byte is returned. -/
theorem returns_byteSlot :
    let s := (consumer 0).run ⟨Ps.start, start true⟩ (receiving byteSlot)
    packetsOf s.ps.results = [byteSlot.packet] ∧ InOrder 0 true s (cycle none) := by
  have hpushes : ((consumer 0).restrict (PushesFit 0)).Legal ⟨Ps.start, start true⟩ (arriving byteSlot) := by
    obtain ⟨hfirst, hsecond, hcall, -⟩ := producer_arriving byteSlot
    exact ⟨⟨hfirst, by decide +kernel⟩, ⟨hsecond, by decide +kernel⟩, ⟨hcall, nofun⟩, trivial⟩
  refine ⟨?_, returns_of_pushesFit 0 true _ ⟨receiving byteSlot, legal_receiving byteSlot hpushes fun s call =>
    ⟨producer_cycle _ _, nofun⟩, rfl⟩ (cycle none) ⟨producer_cycle _ _, nofun⟩⟩
  rw [run_receiving]
  decide +kernel

/-- Of a packet that is longer than its slot a byte of the next slot is returned. -/
theorem not_inOrder_long : ¬ ∀ (idx : BufferIdx) (opened : Bool),
    (consumer idx).Always ⟨Ps.start, start opened⟩ (InOrder idx opened) := by
  intro hall
  have hinOrder := (hall 0 true _ ⟨receiving longSlot, legal_receiving longSlot (producer_arriving longSlot) fun s call =>
    producer_cycle _ _, rfl⟩ (cycle none) (producer_cycle _ _)).inOrder
  have hpushed : ((consumer 0).run ⟨Ps.start, start true⟩ (receiving longSlot)).device.pushed =
      arrivedSlots longSlot := by
    rw [run_receiving]
    rfl
  have hlast : (packetsOf ((consumer 0).run ⟨Ps.start, start true⟩ (receiving longSlot)).ps.results).map
      (fun p => p.payload[2008]?) = [some 1] := by
    rw [run_receiving]
    decide +kernel
  have hbyte := hinOrder.map fun p : UdpPacket => p.payload[2008]?
  rw [hlast, hpushed, List.map_map] at hbyte
  exact absurd hbyte (by decide +kernel)

end Runs

end RxRing

end UdpIpCore
