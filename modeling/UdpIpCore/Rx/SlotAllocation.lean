import Mathlib.Algebra.GroupWithZero.Nat
import UdpIpCore.Rx.SlotRun

/-!
# One slot for each frame

A descriptor takes its address and its length from live signals: the head of the selected
ring as it was one cycle earlier, and the length of the header that is presented. They
are the packet's own when the earlier frames of its ring were handed over in time and the
presented length reaches to the end of its payload.
-/

namespace UdpIpCore

/-- The payload bytes of a packet, those with `tkeep`. -/
def Packet.bytes (p : Packet) : ℕ := (p.payload.map fun b => (List.range 8).countP b.tkeep.getLsbD).sum

namespace SlotRun

variable {R : AxisRegister}

/-- The live signals that a descriptor is made of are those of its packet: the index register serves it, the
earlier frames of its ring were handed over when the address was registered, the ring has room, and the
presented `udp_length` is not shorter than its payload. -/
structure OwnSlot (lower : BitVec 16) (t : SlotRun R) (i : StoreCycle) : Prop extends t.IndexHeld i where
  room : t.RoomLeft lower i
  counted : t.store.accepting i = true → ∀ p ∈ t.nextPacket,
    ∀ q ∈ (t.started.take t.accepted).drop t.before, ring lower q ≠ ring lower p
  covered : t.store.accepting i = true → ∀ p ∈ t.nextPacket,
    40 + p.bytes ≤ bufferElemMaxSize → p.bytes ≤ i.hdr.udpLength.toNat

instance (lower : BitVec 16) (t : SlotRun R) (i : StoreCycle) : Decidable (t.OwnSlot lower i) :=
  decidable_of_iff (t.IndexHeld i ∧ t.RoomLeft lower i ∧
    (t.store.accepting i = true → ∀ p ∈ t.nextPacket,
      ∀ q ∈ (t.started.take t.accepted).drop t.before, ring lower q ≠ ring lower p) ∧
    (t.store.accepting i = true → ∀ p ∈ t.nextPacket,
      40 + p.bytes ≤ bufferElemMaxSize → p.bytes ≤ i.hdr.udpLength.toNat))
    ⟨fun ⟨h₁, h₂, h₃, h₄⟩ => ⟨h₁, h₂, h₃, h₄⟩, fun ⟨h₁, h₂, h₃, h₄⟩ => ⟨h₁, h₂, h₃, h₄⟩⟩

instance (lower : BitVec 16) (base : BitVec 32) (t : SlotRun R) (i : StoreCycle) :
    Decidable (((machine R lower base).restrict (OwnSlot lower)).legal t i) :=
  inferInstanceAs (Decidable ((machine R lower base).legal t i ∧ t.OwnSlot lower i))

/-- The slot of a packet: that of its ring after the earlier frames of the ring. -/
def ownSlotAddr (lower : BitVec 16) (base : BitVec 32) (earlier : List Packet) (p : Packet) : BitVec 32 :=
  DmaWriteControl.slotAddr base (ring lower p) (ringCount lower earlier (ring lower p) % bufferRxLength)

/-- Packet `k` was popped by the PS. -/
def Popped (lower : BitVec 16) (t : SlotRun R) (k : ℕ) : Prop :=
  ∀ p ∈ t.started[k]?, ringCount lower (t.started.take k) (ring lower p) < t.pops (ring lower p)

/-- One descriptor for each frame, with the frame's own slot and a length that covers it. -/
structure Allocated (lower : BitVec 16) (base : BitVec 32) (t : SlotRun R) : Prop where
  /-- The beats that left toward the DMA were taken for the descriptors, a whole frame for each before the
  next one. -/
  taken : t.store.dma.jobs.flatMap WriteJob.taken = t.store.path.front.out
  framed : ∀ j ∈ t.store.dma.finished, j.Framed
  current : ∀ j ∈ t.store.dma.current, j.Framed ∨ j.Open
  forwarded : t.accepted ≤ t.started.length ∧ t.started <+: t.rx.checked
  slot : t.store.Described fun earlier p desc => desc.addr = ownSlotAddr lower base earlier p
  covers : t.store.Described fun _ p desc => 40 + p.bytes ≤ bufferElemMaxSize → 40 + p.bytes ≤ desc.len.toNat
  /-- Of two packets in one slot the first one was popped. -/
  unshared : ∀ k k' d d', k < k' → t.descs[k]? = some d → t.descs[k']? = some d' → d.addr = d'.addr →
    t.Popped lower k

/-- What the descriptor of a packet was when it was accepted. -/
structure Allotted (lower : BitVec 16) (base : BitVec 32) (pops : BufferIdx → ℕ) (earlier : List Packet)
    (p : Packet) (desc : WriteDesc) : Prop where
  slot : desc.addr = ownSlotAddr lower base earlier p
  covers : 40 + p.bytes ≤ bufferElemMaxSize → 40 + p.bytes ≤ desc.len.toNat
  room : ringCount lower earlier (ring lower p) < pops (ring lower p) + bufferRxLength

section Cycle

variable {lower : BitVec 16} {base : BitVec 32} {t : SlotRun R} {i : StoreCycle}

/-- When the earlier frames of its ring were handed over in time, the registered address counts them all. -/
theorem Tracked.ringCount_before (h : t.Tracked lower base) (i : StoreCycle) {idx : BufferIdx}
    (hcounted : ∀ q ∈ (t.started.take t.accepted).drop t.before, ring lower q ≠ idx) :
    ringCount lower (t.started.take t.before) idx = ringCount lower (t.started.take t.accepted) idx := by
  have hle : t.before ≤ t.accepted := by
    have hcompleted := (h.completed_le i).1
    have hbefore := h.before_le
    omega
  have hnone : ((t.started.take t.accepted).drop t.before).countP (fun p => decide (ring lower p = idx)) = 0 := by
    rw [List.countP_eq_zero]
    intro q hq
    rw [decide_eq_true_eq]
    exact hcounted q hq
  have hsplit := List.take_append_drop t.before (t.started.take t.accepted)
  rw [List.take_take, Nat.min_eq_left hle] at hsplit
  rw [ringCount, ringCount, ← hsplit, List.countP_append, hnone, Nat.add_zero]

/-- The descriptor that is accepted is the packet's own. -/
theorem Tracked.allotted (h : t.Tracked lower base) (hown : t.OwnSlot lower i) (haccepting : t.store.accepting i = true)
    {p : Packet} (hp : t.nextPacket = some p) :
    Allotted lower base t.pops (t.started.take t.accepted) p (t.store.desc i) where
  slot := by
    obtain ⟨⟨hidle, -⟩, hvalid⟩ := RxStore.accepting_iff.mp haccepting
    have hsampled := h.sampled hvalid hidle p hp
    rwa [h.ringCount_before i (hown.counted haccepting p hp)] at hsampled
  covers := by
    intro hfits
    have hcovered := hown.covered haccepting p hp hfits
    have hlen : (t.store.desc i).len.toNat = min (i.hdr.udpLength.toNat + 40) 2048 :=
      DmaWriteControl.toNat_lenBytes i.hdr.udpLength
    rw [bufferElemMaxSize] at hfits
    omega
  room := hown.room haccepting p hp

/-- Later pops leave room. -/
theorem Allotted.mono {pops pops' : BufferIdx → ℕ} {earlier : List Packet} {p : Packet} {desc : WriteDesc}
    (h : Allotted lower base pops earlier p desc) (hpops : ∀ idx, pops idx ≤ pops' idx) :
    Allotted lower base pops' earlier p desc where
  slot := h.slot
  covers := h.covers
  room := Nat.lt_of_lt_of_le h.room (Nat.add_le_add_right (hpops _) _)

/-- The descriptors stay the packets' own. -/
theorem Tracked.described_step (h : t.Tracked lower base) (hown : t.OwnSlot lower i)
    (hdescribed : t.store.Described (Allotted lower base t.pops)) :
    (t.step i).store.Described (Allotted lower base (t.step i).pops) := by
  have hstep := h.fed.described_step (i := i) hdescribed fun haccepting p hp => h.allotted hown haccepting hp
  intro k p desc hp hdesc
  exact (hstep k p desc hp hdesc).mono fun idx => Nat.le_add_right _ _

/-- Of two packets of one slot the first one was popped when the second descriptor was accepted. -/
theorem popped_of_same_slot (hdescribed : t.store.Described (Allotted lower base t.pops))
    (hbegun : t.accepted ≤ t.started.length) {k k' : ℕ} {d d' : WriteDesc} (hk : k < k')
    (hd : t.descs[k]? = some d) (hd' : t.descs[k']? = some d') (haddr : d.addr = d'.addr) : t.Popped lower k := by
  intro p hp
  have hlength : k' < t.started.length := by
    have hlt := (List.getElem?_eq_some_iff.mp hd').1
    rw [descs, List.length_map] at hlt
    exact Nat.lt_of_lt_of_le hlt hbegun
  have hp' : t.started[k']? = some t.started[k'] := List.getElem?_eq_getElem hlength
  have hfirst := hdescribed k p d hp hd
  have hsecond := hdescribed k' _ d' hp' hd'
  have hroom := hsecond.room
  rw [hfirst.slot, hsecond.slot] at haddr
  obtain ⟨hring, hslot⟩ := DmaWriteControl.slotAddr_inj (Nat.mod_lt _ (by decide)) (Nat.mod_lt _ (by decide)) haddr
  rw [← hring] at hslot hroom
  -- the second packet comes after the first one, and the two differ by a multiple of the ring's length
  have hmore : ringCount lower (t.started.take k) (ring lower p) + 1 ≤
      ringCount lower (t.started.take k') (ring lower p) := by
    have hlt := (List.getElem?_eq_some_iff.mp hp).1
    have hown : ringCount lower (t.started.take (k + 1)) (ring lower p) =
        ringCount lower (t.started.take k) (ring lower p) + 1 := by
      rw [ringCount, ← List.take_append_getElem hlt, List.countP_append, List.countP_singleton, ringCount,
        (List.getElem?_eq_some_iff.mp hp).2, if_pos (decide_eq_true rfl)]
    rw [← hown]
    exact (List.take_sublist_take_left hk).countP_le
  have hroom' : ringCount lower (t.started.take k') (ring lower p) <
      t.pops (ring lower p) + bufferRxLength := hroom
  have hslot' : ringCount lower (t.started.take k') (ring lower p) % bufferRxLength =
      ringCount lower (t.started.take k) (ring lower p) % bufferRxLength := hslot.symm
  by_contra hnot
  have hequal := (CircularBuffer.mod_eq_iff (by omega) (by omega)).mp hslot'
  omega

end Cycle

/-- In every run in which each descriptor is made of its packet's own signals, every frame has a descriptor of
its own, in the next slot of its ring and long enough. -/
theorem allocated_of_ownSlot (R : AxisRegister) (lower : BitVec 16) (base : BitVec 32) (p : Packet) {t : SlotRun R}
    (h : ((machine R lower base).restrict (OwnSlot lower)).Reachable (start R p) t) : t.Allocated lower base := by
  have hinv : t.Tracked lower base ∧ t.store.Described (Allotted lower base t.pops) := by
    refine @Clocked.Machine.invariant _ _ _ _ (fun t => t.Tracked lower base ∧
      t.store.Described (Allotted lower base t.pops)) ⟨tracked_start lower base p, ?_⟩ ?_ _ h
    · simp [RxStore.Described, start, RxStore.start, DmaWrRun.start, DmaWrRun.jobs]
    · rintro t i ⟨htracked, hdescribed⟩ ⟨hlegal, hown⟩
      exact ⟨htracked.step hlegal hown.toIndexHeld, htracked.described_step hown hdescribed⟩
  obtain ⟨htracked, hdescribed⟩ := hinv
  exact {
    taken := htracked.fed.taken
    framed := fun j hj => (htracked.fed.tracked.served j hj).framed
    current := fun j hj => DmaWrRun.current_framed htracked.fed.tracked hj
    forwarded := ⟨htracked.fed.begun, htracked.aligned.paced.behind⟩
    slot := fun k p desc hp hdesc => (hdescribed k p desc hp hdesc).slot
    covers := fun k p desc hp hdesc => (hdescribed k p desc hp hdesc).covers
    unshared := fun k k' d d' hk hd hd' haddr =>
      popped_of_same_slot hdescribed htracked.fed.begun hk hd hd' haddr }

/-- The state after two packets. -/
def afterTwo (wready : Bool) : SlotRun .twoDeep :=
  (machine .twoDeep 7400 0).run (start .twoDeep oneBeat) (packetCycles wready ++ packetCycles wready)

/-- With a free write channel two packets have a slot each. -/
theorem allocated_afterTwo : (afterTwo true).accepted = 2 ∧ (afterTwo true).Allocated 7400 0 :=
  ⟨by decide +kernel, allocated_of_ownSlot .twoDeep 7400 0 oneBeat
    ⟨packetCycles true ++ packetCycles true, by decide +kernel, rfl⟩⟩

/-- While the first frame waits for the write channel, the second one is given the same slot. -/
theorem not_allocated :
    ¬ (machine .twoDeep 7400 0).Always (start .twoDeep oneBeat) fun t _ => t.Allocated 7400 0 := by
  refine Clocked.Machine.not_always_of_run (packetCycles false ++ packetCycles false) (cycle false none false)
    (by decide +kernel) (by decide +kernel) fun h => ?_
  have hpacket : ((machine .twoDeep 7400 0).run (start .twoDeep oneBeat)
      (packetCycles false ++ packetCycles false)).store.path.front.started[1]? = some oneBeat := by decide +kernel
  have hdesc : ((machine .twoDeep 7400 0).run (start .twoDeep oneBeat)
      (packetCycles false ++ packetCycles false)).descs[1]? = some ⟨true, 0, 56⟩ := by decide +kernel
  exact absurd (h.slot 1 oneBeat _ hpacket hdesc) (by decide +kernel)

end SlotRun

end UdpIpCore
