import Mathlib.Data.List.Forall2
import UdpIpCore.Userspace.TxRing

/-!
# The sender

`udriver_send` over the TX ring: it fills the slot at the head while the ring has room and
writes the pushed register 0, 1 and 0. Whatever the bus and the read DMA do meanwhile, the
slots are fetched in the order of the calls, each once, and carry their packets.
-/

namespace UdpIpCore

open Interaction

/-- A packet with its header, and a payload of any size. -/
structure TxPacket extends UdpPacket where
  header_length : header.length = Udriver.packetHdrSizeBytes

namespace TxPacket

/-- The bytes `udriver_send` writes. -/
def bytes (p : TxPacket) : List (BitVec 8) := p.header ++ p.payload

/-- The packet is no longer than a slot. -/
def Fits (p : TxPacket) : Prop := Udriver.packetHdrSizeBytes + p.payload.length ≤ bufferElemMaxSize

instance (p : TxPacket) : Decidable p.Fits := inferInstanceAs (Decidable (_ ≤ _))

/-- The slot starts with the bytes of the packet. -/
def In (p : TxPacket) (slot : Slot) : Prop := ∀ k b, p.bytes[k]? = some b → slot k = b

theorem length_bytes (p : TxPacket) : p.bytes.length = Udriver.packetHdrSizeBytes + p.payload.length := by
  rw [bytes, List.length_append, p.header_length]

/-- A packet that fits ends with the slot. -/
theorem Fits.length_bytes {p : TxPacket} (h : p.Fits) : p.bytes.length ≤ bufferElemMaxSize := by
  rw [p.length_bytes]
  exact h

/-- What is fetched of a slot starts with the bytes of its packet. -/
theorem In.isPrefix {p : TxPacket} {slot : Slot} (h : p.In slot) (hfits : p.Fits) : p.bytes <+: TxRing.slotBytes slot := by
  rw [List.prefix_iff_getElem?]
  intro k hk
  have hlt : k < bufferElemMaxSize := Nat.lt_of_lt_of_le hk hfits.length_bytes
  rw [TxRing.slotBytes, List.getElem?_map, List.getElem?_range hlt, Option.map_some]
  exact congrArg some (h k _ (List.getElem?_eq_getElem hk))

end TxPacket

namespace TxRing

variable {s s' : TxRing} {g : PsSignals} {j : TxRingInput} {results : List (TxPacket × Bool)}
  {pkt : TxPacket} {m k : ℕ} {pulsed : Bool}

/-- One call of `udriver_send`, with the packet it was made for. -/
def send (p : TxPacket) : UserCode (TxPacket × Bool) := do
  let accepted ← Udriver.udriverSend p.toUdpPacket
  return (p, accepted)

/-- The packets `udriver_send` has accepted. -/
def sent (results : List (TxPacket × Bool)) : List TxPacket := (results.filter (·.2)).map (·.1)

/-- The pushed slots carry the accepted packets, and that of the call in progress if it has pushed. -/
structure Queue (results : List (TxPacket × Bool)) (inflight : List TxPacket) (s : TxRing) : Prop where
  stored : s.Stored
  carried : List.Forall₂ TxPacket.In (sent results ++ inflight) s.pushed
  fits : ∀ p ∈ sent results ++ inflight, p.Fits

/-- Between two calls, and in a call up to the write that pushes. -/
structure Settled (results : List (TxPacket × Bool)) (s : TxRing) : Prop where
  queue : Queue results [] s
  low : s.pushPulse.Low s.regs.buftxPushed s.axi.wstate

/-- The first `k` bytes of the packet are in the free slot at the head. -/
structure Filling (results : List (TxPacket × Bool)) (pkt : TxPacket) (m k : ℕ) (s : TxRing) : Prop where
  settled : Settled results s
  fits : pkt.Fits
  head : s.pushed.length = m
  room : m < s.fetched.length + bufferTxLength
  filled : ∀ i < k, ∀ b, pkt.bytes[i]? = some b → s.memory (slotOffset (m % bufferTxLength) + i) = b

/-- The pushed bit is high; the packet is pushed once. -/
structure Pushing (results : List (TxPacket × Bool)) (pkt : TxPacket) (pulsed : Bool) (s : TxRing) :
    Prop where
  queue : Queue results (if pulsed then [pkt] else []) s
  fits : pkt.Fits
  high : s.pushPulse.High s.regs.buftxPushed s.axi.wstate pulsed
  ready : pulsed = false → s.pushed.length < s.fetched.length + bufferTxLength ∧
    ∀ i b, pkt.bytes[i]? = some b → s.memory (slotOffset (s.pushed.length % bufferTxLength) + i) = b

/-- The registers in a cycle without a write. -/
theorem regs_of_quiet (hw : s.axi.wHs g.toAxiLiteMaster = false) : (s.step g j).regs = s.regs := by
  simp [TxRing.step, ConfigRegs.clock, hw]

/-- The pushed bit after a write of it. -/
theorem buftxPushed_of_write (hw : s.axi.wHs g.toAxiLiteMaster = true)
    (haddr : s.axi.waddr = RegAddr.buftxPushed) :
    (s.step g j).regs.buftxPushed = g.wdata.getLsbD 0 := by
  simp [TxRing.step, ConfigRegs.clock, hw, ConfigRegs.write, haddr]

/-- The count of fetched slots only grows. -/
theorem fetched_le : s.fetched.length ≤ (s.step g j).fetched.length := by
  cases hlast : s.dma.rlastHs j.dma <;> simp [TxRing.step, hlast]

/-- Without a push pulse nothing is pushed. -/
theorem pushed_of_low (hpulse : s.pushPulse.pulse = false) : (s.step g j).pushed = s.pushed := by
  simp [TxRing.step, hpulse]

/-- One cycle without a push pulse in which the PS writes into no pushed slot. -/
theorem Queue.step_low {inflight : List TxPacket} (h : Queue results inflight s) (hj : s.dma.Legal j.dma)
    (hpulse : s.pushPulse.pulse = false) (hstore : ∀ off b, g.store = some (off, b) → ¬ s.Unread off) :
    Queue results inflight (s.step g j) := by
  refine ⟨h.stored.step hj (by simp [hpulse]) fun off b hwrite => ⟨hstore off b hwrite, hpulse⟩, ?_, h.fits⟩
  rw [pushed_of_low hpulse]
  exact h.carried

/-- Between two calls quiet cycles change nothing but what is fetched. -/
theorem Settled.quiet (h : Settled results s) (hs' : device.Quiet s s') :
    Settled results s' ∧ s'.pushed = s.pushed ∧ s.fetched.length ≤ s'.fetched.length ∧
      s'.memory = s.memory := by
  obtain ⟨g, j, hj, hw, hstore, rfl⟩ := hs'
  have hpulse := h.low.pulse_eq
  have hregs : (s.step g j).regs = s.regs := regs_of_quiet hw
  refine ⟨⟨h.queue.step_low hj hpulse (by simp [hstore]), ?_⟩, pushed_of_low hpulse, fetched_le,
    by simp [device, TxRing.step, hstore]⟩
  change (s.pushPulse.step s.regs.buftxPushed).Low (s.step g j).regs.buftxPushed _
  rw [hregs]
  exact h.low.step _

/-- While the slot is filled, quiet cycles keep its bytes. -/
theorem Filling.quiet (h : Filling results pkt m k s) (hs' : device.Quiet s s') :
    Filling results pkt m k s' := by
  obtain ⟨hsettled, hpushed, hfetched, hmemory⟩ := h.settled.quiet hs'
  refine ⟨hsettled, h.fits, by rw [hpushed, h.head],
    Nat.lt_of_lt_of_le h.room (Nat.add_le_add_right hfetched _), ?_⟩
  rw [hmemory]
  exact h.filled

/-- The slot at the head of a ring with room is none that was pushed and not fetched. -/
theorem Filling.not_unread (h : Filling results pkt m k s) {off : ℕ} (hoff : off < bufferElemMaxSize) :
    ¬ s.Unread (slotOffset (m % bufferTxLength) + off) := by
  rintro ⟨n, hn, hle, hlow, hhigh⟩
  rw [h.head] at hn
  have hroom := h.room
  have hdiff : m % bufferTxLength ≠ n % bufferTxLength := by
    intro heq
    have hsame := (CircularBuffer.mod_eq_iff (Nat.le_of_lt hn) (by omega)).mp heq
    omega
  simp only [slotOffset, bufferElemMaxSize] at hlow hhigh hoff
  omega

/-- The next byte of the packet is written. -/
theorem Filling.store (h : Filling results pkt m k s) (hj : s.dma.Legal j.dma)
    (hw : s.axi.wHs g.toAxiLiteMaster = false) {b : BitVec 8} (hb : pkt.bytes[k]? = some b)
    (hstore : g.store = some (slotOffset (m % bufferTxLength) + k, b)) :
    Filling results pkt m (k + 1) (s.step g j) := by
  have hpulse := h.settled.low.pulse_eq
  have hregs : (s.step g j).regs = s.regs := regs_of_quiet hw
  have hk : k < bufferElemMaxSize :=
    Nat.lt_of_lt_of_le (List.getElem?_eq_some_iff.mp hb).1 h.fits.length_bytes
  have hmemory : ∀ a, (s.step g j).memory a =
      if a = slotOffset (m % bufferTxLength) + k then b else s.memory a := by
    intro a
    simp [TxRing.step, hstore]
  refine ⟨⟨h.settled.queue.step_low hj hpulse ?_, ?_⟩, h.fits, ?_, ?_, ?_⟩
  · intro off b' hwrite
    obtain ⟨rfl, -⟩ := Prod.mk.inj (Option.some.inj (hwrite.symm.trans hstore))
    exact h.not_unread hk
  · change (s.pushPulse.step s.regs.buftxPushed).Low (s.step g j).regs.buftxPushed _
    rw [hregs]
    exact h.settled.low.step _
  · rw [pushed_of_low hpulse, h.head]
  · exact Nat.lt_of_lt_of_le h.room (Nat.add_le_add_right fetched_le _)
  · intro i hi b' hb'
    rw [hmemory]
    by_cases hik : i = k
    · subst hik
      rw [if_pos rfl]
      exact Option.some.inj (hb.symm.trans hb')
    · rw [if_neg (by omega)]
      exact h.filled i (by omega) b' hb'

/-- The first write of the pushed register: the bit stays low. -/
theorem Filling.write_clear (h : Filling results pkt m k s) (hj : s.dma.Legal j.dma)
    (hw : s.axi.wHs g.toAxiLiteMaster = true) (haddr : s.axi.waddr = RegAddr.buftxPushed)
    (hdata : g.wdata = 0) (hstore : g.store = none) : Filling results pkt m k (s.step g j) := by
  have hpulse := h.settled.low.pulse_eq
  have hmemory : (s.step g j).memory = s.memory := by simp [TxRing.step, hstore]
  refine ⟨⟨h.settled.queue.step_low hj hpulse (by simp [hstore]), ?_⟩, h.fits, ?_, ?_, ?_⟩
  · have hbit : (s.step g j).regs.buftxPushed = s.regs.buftxPushed := by
      rw [buftxPushed_of_write hw haddr, hdata, h.settled.low.signal_eq]
      rfl
    rw [hbit]
    exact h.settled.low.step _
  · rw [pushed_of_low hpulse, h.head]
  · exact Nat.lt_of_lt_of_le h.room (Nat.add_le_add_right fetched_le _)
  · rw [hmemory]
    exact h.filled

/-- The second write, with the whole packet in the slot: the bit goes high. -/
theorem Filling.write_set (h : Filling results pkt m pkt.bytes.length s) (hj : s.dma.Legal j.dma)
    (hw : s.axi.wHs g.toAxiLiteMaster = true) (haddr : s.axi.waddr = RegAddr.buftxPushed)
    (hdata : g.wdata = 1) (hstore : g.store = none) : Pushing results pkt false (s.step g j) := by
  have hpulse := h.settled.low.pulse_eq
  have hmemory : (s.step g j).memory = s.memory := by simp [TxRing.step, hstore]
  refine ⟨h.settled.queue.step_low hj hpulse (by simp [hstore]), h.fits, ?_, fun _ => ?_⟩
  · have hbit : (s.step g j).regs.buftxPushed = true := by
      rw [buftxPushed_of_write hw haddr, hdata]
      rfl
    rw [hbit]
    exact h.settled.low.high hw
  · rw [pushed_of_low hpulse, hmemory, h.head]
    refine ⟨Nat.lt_of_lt_of_le h.room (Nat.add_le_add_right fetched_le _), fun i b hb => ?_⟩
    exact h.filled i (List.getElem?_eq_some_iff.mp hb).1 b hb

/-- Quiet cycles give the one pulse of a high pushed bit, and it pushes the packet. -/
theorem Pushing.quiet (h : Pushing results pkt pulsed s) (hs' : device.Quiet s s') :
    ∃ pulsed', Pushing results pkt pulsed' s' := by
  obtain ⟨g, j, hj, hw, hstore, rfl⟩ := hs'
  obtain ⟨hhigh, honce⟩ := h.high.step g.toAxiLiteMaster
  have hregs : (s.step g j).regs = s.regs := regs_of_quiet hw
  have hmemory : (s.step g j).memory = s.memory := by simp [TxRing.step, hstore]
  have hroom : s.pushPulse.pulse = true → s.pushed.length < s.fetched.length + bufferTxLength :=
    fun hpulse => (h.ready (honce hpulse)).1
  have hstored : (s.step g j).Stored := h.queue.stored.step hj hroom (by simp [hstore])
  have hhigh' : (s.step g j).pushPulse.High (s.step g j).regs.buftxPushed (s.step g j).axi.wstate
      (pulsed || s.pushPulse.pulse) := by
    rw [hregs]
    exact hhigh
  refine ⟨pulsed || s.pushPulse.pulse, ⟨hstored, ?_, ?_⟩, h.fits, hhigh', ?_⟩
  · cases hpulse : s.pushPulse.pulse with
    | false =>
      change List.Forall₂ _ _ (s.step g j).pushed
      rw [Bool.or_false, pushed_of_low hpulse]
      exact h.queue.carried
    | true =>
      have hfirst := honce hpulse
      subst hfirst
      have hin : pkt.In s.headSlot := by
        intro i b hb
        rw [headSlot, h.queue.stored.tracks.head]
        exact (h.ready rfl).2 i b hb
      have happend : (s.step g j).pushed = s.pushed ++ [s.headSlot] := by simp [TxRing.step, hpulse]
      have hcarried : List.Forall₂ TxPacket.In (sent results) s.pushed := by simpa using h.queue.carried
      change List.Forall₂ _ _ (s.step g j).pushed
      rw [happend]
      exact List.rel_append hcarried (.cons hin .nil)
  · intro p hp
    rcases List.mem_append.mp hp with hsent | hlast
    · exact h.queue.fits p (List.mem_append_left _ hsent)
    · obtain rfl : p = pkt := by
        cases hpulsed : pulsed || s.pushPulse.pulse <;> simp_all
      exact h.fits
  · intro hnone
    simp only [Bool.or_eq_false_iff] at hnone
    obtain ⟨hroom', hbytes⟩ := h.ready hnone.1
    have hpushed : (s.step g j).pushed = s.pushed := pushed_of_low hnone.2
    have hfetched : s.fetched.length ≤ (s.step g j).fetched.length := fetched_le
    change (s.step g j).pushed.length < (s.step g j).fetched.length + bufferTxLength ∧ ∀ i b, _ →
      (s.step g j).memory (slotOffset ((s.step g j).pushed.length % bufferTxLength) + i) = b
    rw [hpushed, hmemory]
    exact ⟨by omega, hbytes⟩

/-- The third write finds the packet pushed, and the bit goes low. -/
theorem Pushing.write_clear (h : Pushing results pkt pulsed s) (hj : s.dma.Legal j.dma)
    (hw : s.axi.wHs g.toAxiLiteMaster = true) (haddr : s.axi.waddr = RegAddr.buftxPushed)
    (hdata : g.wdata = 0) (hstore : g.store = none) : Settled (results ++ [(pkt, true)]) (s.step g j) := by
  obtain ⟨rfl, hpulse, hlow⟩ := h.high.low hw
  have hqueue : Queue results [pkt] (s.step g j) := h.queue.step_low hj hpulse (by simp [hstore])
  have hsent : sent (results ++ [(pkt, true)]) = sent results ++ [pkt] := by simp [sent]
  refine ⟨⟨hqueue.stored, ?_, ?_⟩, ?_⟩
  · rw [hsent, List.append_nil]
    exact hqueue.carried
  · rw [hsent, List.append_nil]
    exact hqueue.fits
  · have hbit : (s.step g j).regs.buftxPushed = false := by
      rw [buftxPushed_of_write hw haddr, hdata]
      rfl
    rw [hbit]
    exact hlow

/-- A call that finds the ring full leaves the queue. -/
theorem Settled.append_false (h : Settled results s) : Settled (results ++ [(pkt, false)]) s := by
  have hsame : sent (results ++ [(pkt, false)]) = sent results := by simp [sent]
  refine ⟨⟨h.queue.stored, ?_, ?_⟩, h.low⟩ <;> rw [hsame]
  · exact h.queue.carried
  · exact h.queue.fits

/-- The property at every point of a call: the slots fetched so far start with the packets accepted
first, in order, and the read DMA asked for the slots one after the other. The packet of the call in
progress may have been pushed already. -/
structure Delivers (results : List (TxPacket × Bool)) (inflight : List TxPacket) (s : TxRing) : Prop where
  pushed : s.pushed.length = (sent results ++ inflight).length
  inOrder : List.Forall₂ (fun (p : TxPacket) bytes => p.bytes <+: bytes)
    ((sent results ++ inflight).take s.fetched.length) s.fetched
  whole : ∀ bytes ∈ s.fetched, bytes.length = bufferElemMaxSize
  descriptors : s.accepted = (List.range s.accepted.length).map fun k =>
    DmaReadControl.slotAddr s.sharedMemBase (k % bufferTxLength)
  once : s.fetched.length ≤ s.accepted.length ∧ s.accepted.length ≤ s.fetched.length + 1 ∧
    s.accepted.length ≤ s.pushed.length
  kept : s.rewritten = false

/-- At every point at most the packet of the call in progress is pushed and not yet accepted. -/
def Delivering (results : List (TxPacket × Bool)) (s : TxRing) : Prop :=
  ∃ inflight, inflight.length ≤ 1 ∧ Delivers results inflight s

/-- One descriptor at most is ahead of the fetched slots. -/
theorem Stored.accepted_le (h : s.Stored) : s.fetched.length ≤ s.accepted.length ∧
    s.accepted.length ≤ s.fetched.length + 1 ∧ s.accepted.length ≤ s.pushed.length := by
  have hle := h.tracks.pops_le
  cases h.transfer with
  | idle hcount => omega
  | accepted hcount hlt => omega
  | requested hcount hlt => omega
  | draining hcount => omega

/-- The queue delivers its packets. -/
theorem Queue.delivers {inflight : List TxPacket} (h : Queue results inflight s) :
    Delivers results inflight s := by
  refine ⟨h.carried.length_eq.symm, ?_, ?_, h.stored.accepted, h.stored.accepted_le, h.stored.rewritten⟩
  · rw [h.stored.fetched, List.length_map, List.length_take, Nat.min_eq_left h.stored.tracks.pops_le,
      List.forall₂_map_right_iff]
    have hboth := (List.forall₂_and_left _ _).mpr ⟨h.fits, h.carried⟩
    exact (List.forall₂_take _ hboth).imp fun p slot hp => hp.2.isPrefix hp.1
  · intro bytes hbytes
    rw [h.stored.fetched] at hbytes
    obtain ⟨slot, -, rfl⟩ := List.mem_map.mp hbytes
    rw [slotBytes, List.length_map, List.length_range]

/-- At every point the pushed slots carry the accepted packets, and at most that of the call in progress. -/
def Queueing (results : List (TxPacket × Bool)) (s : TxRing) : Prop :=
  ∃ inflight, inflight.length ≤ 1 ∧ Queue results inflight s

/-- Then the packets are delivered. -/
theorem Queueing.delivering (h : Queueing results s) : Delivering results s := by
  obtain ⟨inflight, hone, hqueue⟩ := h
  exact ⟨inflight, hone, hqueue.delivers⟩

/-- Between two calls the pushed slots carry the accepted packets. -/
theorem Settled.queueing (h : Settled results s) : Queueing results s := ⟨[], Nat.zero_le 1, h.queue⟩

/-- Between two calls the property holds. -/
theorem Settled.delivering (h : Settled results s) : Delivering results s := h.queueing.delivering

/-- So they do while the packet is pushed. -/
theorem Pushing.queueing (h : Pushing results pkt pulsed s) : Queueing results s :=
  ⟨_, by cases pulsed <;> simp, h.queue⟩

/-- So they do at the return of a call. -/
theorem Settled.queueing_of_append {accepted : Bool} (h : Settled (results ++ [(pkt, accepted)]) s) :
    Queueing results s := by
  have hsplit : sent (results ++ [(pkt, accepted)]) ++ [] =
      sent results ++ if accepted then [pkt] else [] := by
    cases accepted <;> simp [sent]
  refine ⟨if accepted then [pkt] else [], by cases accepted <;> simp, h.queue.stored, ?_, ?_⟩ <;> rw [← hsplit]
  · exact h.queue.carried
  · exact h.queue.fits

/-- The head as the sender reads it. -/
theorem readValue_head (h : s.Stored) :
    (device.readValue s j RegAddr.buftxHead).toNat = s.pushed.length % bufferTxLength := by
  have hread : device.readValue s j RegAddr.buftxHead = (BitVec.ofNat 5 s.ring.headIndex).setWidth 32 := rfl
  have hlt : s.pushed.length % bufferTxLength < 32 := Nat.mod_lt _ (by decide)
  rw [hread, h.tracks.head, BitVec.toNat_setWidth, BitVec.toNat_ofNat, Nat.mod_eq_of_lt hlt,
    Nat.mod_eq_of_lt (by omega)]

/-- The full flag as the sender reads it. -/
theorem room_of_readValue (h : s.Stored) (hfull : device.readValue s j RegAddr.buftxFull = 0) :
    s.pushed.length < s.fetched.length + bufferTxLength := by
  have hread : device.readValue s j RegAddr.buftxFull = (BitVec.ofBool s.ring.full).setWidth 32 := rfl
  have hnot : s.ring.full = false := by
    rw [hread] at hfull
    cases hflag : s.ring.full with
    | false => rfl
    | true => simp [hflag] at hfull
  rw [h.tracks.full, decide_eq_false_iff_not] at hnot
  exact Nat.lt_of_le_of_ne h.tracks.fits hnot

/-- The three writes of `udriver_send` push the packet in the slot at the head. -/
theorem outline_push (h : Filling results pkt m pkt.bytes.length s) :
    (do
      Udriver.writeReg RegAddr.buftxPushed 0
      Udriver.writeReg RegAddr.buftxPushed 1
      Udriver.writeReg RegAddr.buftxPushed 0
      return true).Outline device.Quiet device.Responds (Queueing results)
      (fun result => Settled (results ++ [(pkt, result)])) s := by
  have hquiet := fun s s' (hs : Filling results pkt m pkt.bytes.length s) (hq : device.Quiet s s') => hs.quiet hq
  have hfilling := fun s (hs : Filling results pkt m pkt.bytes.length s) => hs.settled.queueing
  have hsettled := fun s s' (hs : Settled (results ++ [(pkt, true)]) s) (hq : device.Quiet s s') => (hs.quiet hq).1
  refine Program.Outline.bind (Udriver.outline_writeReg _ (Filling results pkt m pkt.bytes.length) h hquiet
    hfilling (fun s g j hs hj hw haddr hdata hstore => hs.write_clear hj hw haddr hdata hstore) hquiet
    fun s hs => ⟨hfilling s hs, ?_⟩)
  refine Program.Outline.bind (Udriver.outline_writeReg _ (fun s => ∃ pulsed, Pushing results pkt pulsed s)
    hs hquiet hfilling (fun s g j hs hj hw haddr hdata hstore => ⟨false, hs.write_set hj hw haddr hdata hstore⟩)
    (fun _ _ hs hq => hs.elim fun _ hs => hs.quiet hq) fun s hs => ⟨hs.elim fun _ hs => hs.queueing, ?_⟩)
  refine Program.Outline.bind (Udriver.outline_writeReg (fun s => ∃ pulsed, Pushing results pkt pulsed s)
    (Settled (results ++ [(pkt, true)])) hs (fun _ _ hs hq => hs.elim fun _ hs => hs.quiet hq)
    (fun _ hs => hs.elim fun _ hs => hs.queueing)
    (fun s g j hs hj hw haddr hdata hstore =>
      hs.elim fun _ hs => hs.write_clear hj hw haddr hdata hstore) hsettled
    fun s hs => ⟨hs.queueing_of_append, ?_⟩)
  exact .done _ hs hsettled fun s hs => ⟨hs.queueing_of_append, hs⟩

/-- `udriver_send` pushes a packet that fits, unless it finds the ring full. -/
theorem outline_queueing {p : TxPacket} (hfits : p.Fits) (h : Settled results s) :
    (send p).Outline device.Quiet device.Responds (Queueing results)
      (fun result => Settled (results ++ [result])) s := by
  have hquiet := fun s s' (hs : Settled results s) (hq : device.Quiet s s') => (hs.quiet hq).1
  have hqueueing := fun s (hs : Settled results s) => hs.queueing
  refine Program.Outline.bind (Program.Outline.bind (Udriver.outline_readReg (Settled results)
    (fun full s => Settled results s ∧
      (full = 0 → s.pushed.length < s.fetched.length + bufferTxLength)) h hquiet hqueueing
    (fun s j s' hs hq => ?_) (fun full s s' hs hq => ?_) fun full s hs => ⟨hqueueing s hs.1, ?_⟩))
  · obtain ⟨hs', hpushed, hfetched, -⟩ := hs.quiet hq
    refine ⟨hs', fun hfull => ?_⟩
    have hroom := room_of_readValue hs.queue.stored hfull
    rw [hpushed]
    omega
  · obtain ⟨hs', hpushed, hfetched, -⟩ := hs.1.quiet hq
    refine ⟨hs', fun hfull => ?_⟩
    have hroom := hs.2 hfull
    rw [hpushed]
    omega
  obtain ⟨hs, hroom⟩ := hs
  by_cases hfull : full = 0
  · rw [if_neg (not_not.mpr hfull)]
    have hfilling : Filling results p s.pushed.length 0 s :=
      ⟨hs, hfits, rfl, hroom hfull, fun i hi => absurd hi (Nat.not_lt_zero i)⟩
    generalize s.pushed.length = m at hfilling
    have hquiet := fun k s s' (hs : Filling results p m k s) (hq : device.Quiet s s') => hs.quiet hq
    have hqueueing := fun k s (hs : Filling results p m k s) => hs.settled.queueing
    refine Program.Outline.bind (Udriver.outline_readReg (Filling results p m 0)
      (fun head s => Filling results p m 0 s ∧ head.toNat = m % bufferTxLength) hfilling (hquiet 0)
      (hqueueing 0) (fun s j s' hs hq => ⟨hs.quiet hq, ?_⟩)
      (fun _ s s' hs hq => ⟨hs.1.quiet hq, hs.2⟩) fun head s hs => ⟨hqueueing 0 s hs.1, ?_⟩)
    · rw [← hs.head]
      exact readValue_head hs.settled.queue.stored
    obtain ⟨hs, hhead⟩ := hs
    have hwrite := Udriver.outline_xrtBOWrite (Filling results p m) p.bytes (slotOffset (m % bufferTxLength))
      hquiet hqueueing fun k s g j b hs hj hw hb hstore => hs.store hj hw hb hstore
    simp only [hhead]
    refine Program.Outline.bind ((hwrite p.header 0 s hs ?_).mono fun _ s hs => ?_)
    · intro i b hb
      rw [Nat.zero_add, TxPacket.bytes, List.getElem?_append_left (List.getElem?_eq_some_iff.mp hb).1, hb]
    rw [Nat.zero_add, p.header_length] at hs
    refine Program.Outline.bind ((hwrite p.payload _ s hs ?_).mono fun _ s hs => ?_)
    · intro i b hb
      rw [TxPacket.bytes, ← p.header_length, List.getElem?_append_right (Nat.le_add_right _ _),
        Nat.add_sub_cancel_left, hb]
    rw [← p.length_bytes] at hs
    refine (outline_push hs).mono fun accepted s hs => ?_
    exact .done (Settled (results ++ [(p, accepted)])) hs (fun _ _ hs hq => (hs.quiet hq).1)
      fun s hs => ⟨hs.queueing_of_append, hs⟩
  · rw [if_pos hfull]
    have hfalse := fun s s' (hs : Settled (results ++ [(p, false)]) s) (hq : device.Quiet s s') => (hs.quiet hq).1
    exact .done _ hs.append_false hfalse fun s hs => ⟨hs.queueing_of_append, .done _ hs hfalse
      fun s hs => ⟨hs.queueing_of_append, hs⟩⟩

/-- The PS with one `udriver_send` after the other, and the device. -/
def sender : Clocked.Machine (System TxRing (TxPacket × Bool)) (PsInput TxPacket × TxRingInput) :=
  System.machine device send

/-- The accepted packets are fetched in order and each once; between two calls all pushed slots are
those of accepted packets. -/
structure InOrder (s : System TxRing (TxPacket × Bool)) (_ : PsInput TxPacket × TxRingInput) : Prop where
  delivering : Delivering s.ps.results s.device
  settled : s.ps.pending = none → Delivers s.ps.results [] s.device

/-- After reset the ring is empty. -/
theorem settled_start (page : BitVec 21) : Settled [] (start page) where
  queue := by
    refine ⟨⟨CircularBuffer.tracks_reset (by decide), ?_, fun k hk => absurd hk (Nat.not_lt_zero k), rfl,
      rfl, ?_, rfl⟩, .nil, fun _ hp => absurd hp List.not_mem_nil⟩
    · have hbase : (start page).sharedMemBase.toNat = page.toNat * 2 ^ 11 := by
        change (page ++ (0 : BitVec 11)).toNat = _
        rw [BitVec.toNat_append, Nat.shiftLeft_eq]
        exact Nat.or_zero _
      rw [hbase]
      exact Nat.mul_mod_left _ _
    · exact .idle rfl rfl (fun h => Bool.noConfusion h) ⟨rfl, rfl, rfl, rfl, rfl, rfl, rfl⟩ rfl
  low := ⟨rfl, Or.inl rfl⟩

/-- `udriver_send` is called only with packets that fit a slot. -/
def Fitting (i : PsInput TxPacket) : Prop := ∀ p, i.call = some p → p.Fits

instance (i : PsInput TxPacket) : Decidable (Fitting i) := inferInstanceAs (Decidable (∀ p ∈ i.call, p.Fits))

/-- What holds of the ring at every point of a call, in runs whose packets fit. -/
theorem inv_of_reachable {page : BitVec 21} {s : System TxRing (TxPacket × Bool)}
    (h : (sender.restrict fun _ i => Fitting i.1).Reachable ⟨Ps.start, start page⟩ s) : System.Inv device Settled Queueing s := by
  refine Clocked.Machine.invariant (System.inv_start (Or.inr rfl) (Or.inr rfl) (settled_start page)) ?_ h
  intro s i hs hi
  exact System.inv_step_call hs hi.1 (fun _ _ _ hs hq => (hs.quiet hq).1)
    fun _ _ p hcall hsettled => outline_queueing (hi.2 p hcall) hsettled

/-- Whatever the bus and the read DMA do, the packets `udriver_send` accepts are fetched in order, if they fit. -/
theorem delivers_of_fitting (page : BitVec 21) :
    (sender.restrict fun _ i => Fitting i.1).Always ⟨Ps.start, start page⟩ InOrder := by
  intro s hs _ _
  have hinv := inv_of_reachable hs
  exact ⟨(hinv.always fun _ _ hs => hs.queueing).delivering, fun hidle => (hinv.idle hidle).queue.delivers⟩

instance (s : System TxRing (TxPacket × Bool)) (i : PsInput TxPacket × TxRingInput) : Decidable (sender.legal s i) :=
  inferInstanceAs (Decidable (s.device.dma.Legal i.2.dma))

instance (s : System TxRing (TxPacket × Bool)) (i : PsInput TxPacket × TxRingInput) :
    Decidable ((sender.restrict fun _ i => Fitting i.1).legal s i) :=
  inferInstanceAs (Decidable (s.device.dma.Legal i.2.dma ∧ Fitting i.1))

section Runs

/-- A cycle in which every access of the PS is made at once. -/
def cycle (call : Option TxPacket) (beat : Bool) : PsInput TxPacket × TxRingInput :=
  (⟨true, true, true, true, true, true, call⟩, ⟨⟨true, beat, false⟩, .idle⟩)

/-- The call is made, and finds room. -/
def calling (p : TxPacket) : List (PsInput TxPacket × TxRingInput) :=
  cycle (some p) false :: (List.replicate 2 (cycle none false) ++ List.replicate 2 (cycle none false))

/-- The slot is filled. -/
def writing (p : TxPacket) : List (PsInput TxPacket × TxRingInput) :=
  List.replicate p.header.length (cycle none false) ++ List.replicate p.payload.length (cycle none false)

/-- It is pushed and fetched. -/
def fetching : List (PsInput TxPacket × TxRingInput) :=
  List.replicate 14 (cycle none false) ++ List.replicate 256 (cycle none true)

/-- A whole call, and the fetch of its slot. -/
def sending (p : TxPacket) : List (PsInput TxPacket × TxRingInput) := (calling p ++ writing p) ++ fetching

/-- A packet with one byte. -/
def bytePacket : TxPacket := ⟨⟨1 :: List.replicate 39 0, [7]⟩, rfl⟩

/-- It is fetched. -/
theorem delivers_bytePacket :
    let s := sender.run ⟨Ps.start, start 0⟩ (sending bytePacket)
    s.device.fetched.length = 1 ∧ InOrder s (cycle none false) :=
  ⟨by decide +kernel, delivers_of_fitting 0 _ ⟨sending bytePacket, by decide +kernel, rfl⟩ _ (by decide +kernel)⟩

/-- An empty ring in the cycles in which its memory is written. -/
def emptyRing (memory : ℕ → BitVec 8) : TxRing :=
  { start 0 with
    axi := ⟨.wrIdle, 0, .rdIdle, 0⟩
    memory := memory
    ctrl := ⟨false, false, DmaReadControl.slotAddr (start 0).sharedMemBase 0⟩
    dma := { AxiDmaRd.reset with readDescReady := true } }

/-- The memory after bytes are written. -/
def written (memory : ℕ → BitVec 8) : ℕ → List (BitVec 8) → ℕ → BitVec 8
  | _, [] => memory
  | off, b :: rest => written (fun a => if a = off then b else memory a) (off + 1) rest

/-- The end of `udriver_send`. -/
def notifyPush : UserCode Bool := do
  Udriver.writeReg RegAddr.buftxPushed 0
  Udriver.writeReg RegAddr.buftxPushed 1
  Udriver.writeReg RegAddr.buftxPushed 0
  return true

/-- The call is made. -/
theorem step_call (p : TxPacket) :
    sender.step ⟨Ps.start, start 0⟩ (cycle (some p) false) = ⟨Ps.start.resume (send p), emptyRing fun _ => 0⟩ := rfl

/-- A register is read that shows zero. -/
theorem run_read (reg : RegAddr) (hzero : (emptyRing fun _ => 0).regs.read ((emptyRing fun _ => 0).status (cycle none false).2) reg = 0)
    (next : BitVec 32 → UserCode (TxPacket × Bool)) :
    sender.run ⟨Ps.start.resume (.perform (.readReg reg) next), emptyRing fun _ => 0⟩ (List.replicate 2 (cycle none false)) =
      ⟨Ps.start.resume (next 0), emptyRing fun _ => 0⟩ := by
  have hfirst : sender.step ⟨Ps.start.resume (.perform (.readReg reg) next), emptyRing fun _ => 0⟩ (cycle none false) =
      ⟨⟨some (.perform (.readReg reg) next), .effected, []⟩, { emptyRing fun _ => 0 with axi := ⟨.wrIdle, 0, .rdData, 0⟩ }⟩ := by
    rw [← hzero]
    rfl
  rw [List.replicate, List.replicate, List.replicate, Clocked.Machine.run_cons, hfirst]
  rfl

/-- A byte is written. -/
theorem step_store (memory : ℕ → BitVec 8) (off : ℕ) (b : BitVec 8) :
    device.step (emptyRing memory) ⟨⟨false, 0, false, 0, true, false, 0, true⟩, some (off, b)⟩ (cycle none false).2 =
      emptyRing fun a => if a = off then b else memory a := by
  have hread : ¬ (emptyRing memory).Unread off := fun ⟨k, hk, _⟩ => absurd hk (Nat.not_lt_zero k)
  change TxRing.step _ _ _ = _
  rw [TxRing.step]
  simp only [hread, decide_false, Bool.or_false]
  rfl

/-- Bytes are written one after the other. -/
theorem run_stores (bytes : List (BitVec 8)) (rest : Unit → UserCode (TxPacket × Bool)) (memory : ℕ → BitVec 8) (off : ℕ) :
    sender.run ⟨Ps.start.resume (Udriver.xrtBOWrite off bytes >>= rest), emptyRing memory⟩
      (List.replicate bytes.length (cycle none false)) = ⟨Ps.start.resume (rest ()), emptyRing (written memory off bytes)⟩ := by
  induction bytes generalizing off memory with
  | nil => rfl
  | cons b bytes ih =>
    have hstep : sender.step ⟨Ps.start.resume (Udriver.xrtBOWrite off (b :: bytes) >>= rest), emptyRing memory⟩
        (cycle none false) = ⟨Ps.start.resume (Udriver.xrtBOWrite (off + 1) bytes >>= rest),
          emptyRing fun a => if a = off then b else memory a⟩ :=
      congrArg (System.mk _) (step_store memory off b)
    rw [List.length_cons, List.replicate_succ, Clocked.Machine.run_cons, hstep]
    exact ih _ _

/-- The rest of a call that has found the ring empty. -/
def filling (p : TxPacket) : UserCode Bool := do
  Udriver.xrtBOWrite (slotOffset 0) p.header
  Udriver.xrtBOWrite (slotOffset 0 + Udriver.packetHdrSizeBytes) p.payload
  notifyPush

/-- A call finds the ring empty. -/
theorem run_call (p : TxPacket) :
    sender.run ⟨Ps.start, start 0⟩ (calling p) =
      ⟨Ps.start.resume (filling p >>= fun accepted => pure (p, accepted)), emptyRing fun _ => 0⟩ := by
  rw [calling, Clocked.Machine.run_cons, step_call, Clocked.Machine.run_append]
  refine (congrArg (fun s => sender.run s _) (run_read RegAddr.buftxFull (by decide) _)).trans ?_
  exact run_read RegAddr.buftxHead (by decide) _

/-- The packet is written into the first slot. -/
theorem run_filling (p : TxPacket) :
    sender.run ⟨Ps.start.resume (filling p >>= fun accepted => pure (p, accepted)), emptyRing fun _ => 0⟩
      (writing p) =
    ⟨Ps.start.resume (notifyPush >>= fun accepted => pure (p, accepted)),
      emptyRing (written (written (fun _ => 0) (slotOffset 0) p.header) (slotOffset 0 + Udriver.packetHdrSizeBytes) p.payload)⟩ := by
  rw [filling, writing, Program.bind_assoc, Clocked.Machine.run_append, run_stores, Program.bind_assoc, run_stores]

/-- A packet with a byte more than fits a slot. -/
def longPacket : TxPacket := ⟨⟨0xD9 :: 7 :: List.replicate 38 0, List.replicate 2009 0⟩, rfl⟩

/-- The slot is filled, and beyond. -/
def filled : System TxRing (TxPacket × Bool) :=
  ⟨Ps.start.resume (notifyPush >>= fun accepted => pure (longPacket, accepted)), emptyRing (written
    (written (fun _ => 0) (slotOffset 0) longPacket.header) (slotOffset 0 + Udriver.packetHdrSizeBytes) longPacket.payload)⟩

theorem run_filled : sender.run ⟨Ps.start, start 0⟩ (calling longPacket ++ writing longPacket) = filled := by
  rw [Clocked.Machine.run_append, run_call, run_filling]
  rfl

/-- Cycles without a beat are legal. -/
theorem legal_of_quiet {inputs : List (PsInput TxPacket × TxRingInput)}
    (hquiet : ∀ i ∈ inputs, i.2.dma.beat = false ∧ i.2.dma.tlastHs = false) (s : System TxRing (TxPacket × Bool)) :
    sender.Legal s inputs := by
  induction inputs generalizing s with
  | nil => trivial
  | cons i rest ih =>
    obtain ⟨hbeat, htlast⟩ := hquiet i List.mem_cons_self
    refine ⟨⟨fun h => ?_, fun h => ?_⟩, ih (fun j hj => hquiet j (List.mem_cons_of_mem i hj)) _⟩
    · exact Bool.noConfusion (hbeat.symm.trans h)
    · exact Bool.noConfusion (htlast.symm.trans h)

/-- Such a packet is accepted, and its slot is fetched without its last byte. -/
theorem not_delivers_long : ¬ ∀ page, sender.Always ⟨Ps.start, start page⟩ InOrder := by
  intro hall
  have hfilling : sender.Legal ⟨Ps.start, start 0⟩ (calling longPacket ++ writing longPacket) := by
    refine legal_of_quiet (fun i hi => ?_) _
    simp only [calling, writing, List.mem_append, List.mem_cons, List.mem_replicate] at hi
    obtain (rfl | ⟨-, rfl⟩ | ⟨-, rfl⟩) | ⟨-, rfl⟩ | ⟨-, rfl⟩ := hi <;> exact ⟨rfl, rfl⟩
  have hlegal : sender.Legal ⟨Ps.start, start 0⟩ (sending longPacket) := by
    refine (Clocked.Machine.legal_append _ _ _ _).mpr ⟨hfilling, ?_⟩
    rw [run_filled]
    decide +kernel
  have hend : sender.run ⟨Ps.start, start 0⟩ (sending longPacket) = sender.run filled fetching := by
    rw [sending, Clocked.Machine.run_append, run_filled]
  have hinOrder := hall 0 _ ⟨sending longPacket, hlegal, hend⟩ (cycle none false) ⟨nofun, nofun⟩
  have hfetched : (sender.run filled fetching).device.fetched.length = 1 := by decide +kernel
  have hidle : (sender.run filled fetching).ps.pending = none := Option.isNone_iff_eq_none.mp (by decide +kernel)
  have hsent : (sent (sender.run filled fetching).ps.results).map (fun p => p.bytes.length) = [2049] := by decide +kernel
  have hdelivers := hinOrder.settled hidle
  obtain ⟨bytes, hbytes⟩ := List.length_eq_one_iff.mp hfetched
  obtain ⟨p, hp, hlength⟩ := List.map_eq_singleton_iff.mp hsent
  have hprefix := hdelivers.inOrder
  rw [hp, hbytes] at hprefix
  cases hprefix with
  | cons hfirst _ =>
    have hwhole := hdelivers.whole bytes (by rw [hbytes]; exact List.mem_singleton.mpr rfl)
    have hle := hfirst.length_le
    rw [hlength, hwhole] at hle
    exact absurd hle (by decide)

end Runs

end TxRing

end UdpIpCore
