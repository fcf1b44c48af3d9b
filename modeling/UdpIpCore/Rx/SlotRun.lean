import UdpIpCore.Rx.BufferSelect
import UdpIpCore.Rx.RxStore

/-!
# The slots of the RX rings

Frames are stored in the order in which they were forwarded. The ring controllers count
the bursts that were handed over completely, and the address of the next slot follows
their head one cycle later. As long as the index register serves every frame that is not
handed over yet, the rings count their own frames and the registered address is that of
the ring the next descriptor is for.
-/

namespace UdpIpCore

/-- The RX path and its write DMA with what a statement about slots counts. -/
structure SlotRun (R : AxisRegister) where
  store : RxStore R
  /-- The bursts that were handed over one cycle earlier, when the slot address was registered. -/
  before : ℕ
  /-- The push pulses of each ring. -/
  pushes : BufferIdx → ℕ
  /-- The pop pulses of each ring. -/
  pops : BufferIdx → ℕ

namespace SlotRun

variable {R : AxisRegister}

/-- After reset, with an idle source whose header registers hold the fields of `p`. -/
def start (R : AxisRegister) (p : Packet) : SlotRun R := ⟨.start R p, 0, fun _ => 0, fun _ => 0⟩

/-- The packets whose frame was started, in the order of the frames. -/
def started (t : SlotRun R) : List Packet := t.store.path.front.started

/-- The filter with its source. -/
def rx (t : SlotRun R) : FilterRun R := t.store.path.front.rx

/-- The bursts that were handed over to their last beat. -/
def completed (t : SlotRun R) : ℕ := t.store.dma.completed

/-- The descriptors that were accepted so far. -/
def accepted (t : SlotRun R) : ℕ := t.store.dma.jobs.length

/-- The descriptors in the order in which they were accepted. -/
def descs (t : SlotRun R) : List WriteDesc := t.store.dma.jobs.map WriteJob.desc

/-- The last beat of a burst is handed over. -/
def completes (t : SlotRun R) (i : StoreCycle) : Bool := t.store.dma.engine.wlastHs i.slave

/-- The push pulse of a ring. -/
def pushed (t : SlotRun R) (i : StoreCycle) (idx : BufferIdx) : Bool := t.store.path.pushedArr (t.store.rxCycle i) idx

/-- One clock edge. -/
def step (t : SlotRun R) (i : StoreCycle) : SlotRun R where
  store := t.store.step i
  before := t.completed
  pushes := fun idx => t.pushes idx + (t.pushed i idx).toNat
  pops := fun idx => t.pops idx + (i.popped idx).toNat

/-- The ring of a packet's own destination port, for a range that begins at `lower`. -/
def ring (lower : BitVec 16) (p : Packet) : BufferIdx := (⟨lower, 0, 0⟩ : PortConfig).bufferOffset p.hdr.destPort

/-- How many of the packets belong to a ring. -/
def ringCount (lower : BitVec 16) (packets : List Packet) (idx : BufferIdx) : ℕ :=
  packets.countP fun p => decide (ring lower p = idx)

/-- The RX path behind any source; sockets are opened and closed at any time, the port range begins at
`lower` and the shared memory at `base`. -/
def machine (R : AxisRegister) (lower : BitVec 16) (base : BitVec 32) : Clocked.Machine (SlotRun R) StoreCycle where
  step := step
  legal := fun t i => t.store.path.front.EnvLegal (t.store.frontCycle i) ∧ RxStore.Aligned i ∧
    i.sharedMemBase = base ∧ i.config.udpPortRangeLower = lower

instance (lower : BitVec 16) (base : BitVec 32) (t : SlotRun R) (i : StoreCycle) :
    Decidable ((machine R lower base).legal t i) := inferInstanceAs (Decidable (_ ∧ _ ∧ _ ∧ _))

/-- The index register is written for the next packet only when no frame of another ring still needs it, and
the two samples of each port test agree. -/
structure IndexHeld (t : SlotRun R) (i : StoreCycle) : Prop where
  samples : t.store.path.front.SamplesAgree (t.store.frontCycle i)
  indexFree : t.rx.filter.state = .checkPort →
    ∀ p ∈ t.rx.forwarded.drop (t.completed + (t.completes i).toNat),
      i.config.bufferOffset p.hdr.destPort = i.config.bufferOffset i.hdr.destPort

instance (t : SlotRun R) (i : StoreCycle) : Decidable (t.IndexHeld i) :=
  decidable_of_iff (t.store.path.front.SamplesAgree (t.store.frontCycle i) ∧
    (t.rx.filter.state = .checkPort → ∀ p ∈ t.rx.forwarded.drop (t.completed + (t.completes i).toNat),
      i.config.bufferOffset p.hdr.destPort = i.config.bufferOffset i.hdr.destPort))
    ⟨fun h => ⟨h.1, h.2⟩, fun h => ⟨h.samples, h.indexFree⟩⟩

/-- The packet of the next descriptor, if its frame was started. -/
def nextPacket (t : SlotRun R) : Option Packet := t.started[t.accepted]?

/-- A descriptor is accepted for a ring only while fewer than `BUFFER_RX_LENGTH` of the ring's earlier packets
are not popped. -/
def RoomLeft (lower : BitVec 16) (t : SlotRun R) (i : StoreCycle) : Prop :=
  t.store.accepting i = true → ∀ p ∈ t.nextPacket,
    ringCount lower (t.started.take t.accepted) (ring lower p) < t.pops (ring lower p) + bufferRxLength

instance (lower : BitVec 16) (t : SlotRun R) (i : StoreCycle) : Decidable (t.RoomLeft lower i) :=
  inferInstanceAs (Decidable (_ → _))

/-- What holds between any two cycles of a run that holds the index. -/
structure Tracked (lower : BitVec 16) (base : BitVec 32) (t : SlotRun R) : Prop where
  fed : t.store.Fed
  aligned : t.store.path.front.Aligned
  before_le : t.before ≤ t.completed
  selects : t.rx.Selects ⟨lower, 0, 0⟩ (· ∈ t.rx.checked.drop t.completed)
  pushes_eq : ∀ idx, t.pushes idx = ringCount lower (t.started.take t.completed) idx
  heads : ∀ idx, (t.store.path.rings idx).headIndex = t.pushes idx % bufferRxLength
  /-- While the controller asks for a descriptor, the registered address is one of the next packet's ring. -/
  sampled : t.store.path.wrCtrl.valid = true → t.store.dma.engine.state = .idle →
    ∀ p, t.started[t.accepted]? = some p → t.store.path.wrCtrl.nextSlotAddr =
      DmaWriteControl.slotAddr base (ring lower p)
        (ringCount lower (t.started.take t.before) (ring lower p) % bufferRxLength)

/-- The run starts tracked. -/
theorem tracked_start (lower : BitVec 16) (base : BitVec 32) (p : Packet) : (start R p).Tracked lower base where
  fed := RxStore.fed_start p
  aligned := FrontEnd.aligned_start p
  before_le := Nat.le_refl _
  selects := by
    intro q hq
    have hchecked : (start R p).rx.checked = [] := FilterRun.checked_start p
    simp [hchecked] at hq
  pushes_eq := by
    intro idx
    rfl
  heads := by
    intro idx
    rfl
  sampled := by simp [start, RxStore.start, RxPath.start, DmaWriteControl.reset]

section Cycle

variable {lower : BitVec 16} {base : BitVec 32} {t : SlotRun R} {i : StoreCycle}

/-- The bursts that are handed over were requested, and each for a started frame. -/
theorem Tracked.completed_le (h : t.Tracked lower base) (i : StoreCycle) :
    t.completed + (t.completes i).toNat ≤ t.accepted ∧ t.accepted ≤ t.started.length :=
  ⟨DmaWrRun.completed_add_le h.fed.tracked i.slave, h.fed.begun⟩

/-- Started frames stay. -/
theorem started_step : (t.step i).started =
    t.started ++ if t.store.path.front.starts then [t.store.path.front.prev] else [] := FrontEnd.started_step

/-- The packets of the frames handed over so far do not change. -/
theorem take_started_step {n : ℕ} (hn : n ≤ t.started.length) :
    (t.step i).started.take n = t.started.take n := by
  rw [started_step, List.take_append_of_le_length hn]

/-- One more burst is counted when its last beat is handed over. -/
theorem completed_step : (t.step i).completed = t.completed + (t.completes i).toNat :=
  DmaWrRun.completed_step (i := t.store.dmaCycle i)

/-- A started frame that is not handed over still needs the index register. -/
theorem Tracked.select_eq (h : t.Tracked lower base) {k : ℕ} {p : Packet} (hp : t.started[k]? = some p)
    (hk : t.completed ≤ k) : t.store.path.bufferSelectIdx = ring lower p := by
  refine h.selects p ?_
  obtain ⟨more, hmore⟩ := h.aligned.paced.behind
  have hchecked : t.rx.checked[k]? = some p := by
    rw [rx, ← hmore]
    exact List.getElem?_append_left (List.getElem?_eq_some_iff.mp hp).1 ▸ hp
  rw [List.mem_iff_getElem?]
  exact ⟨k - t.completed, by rw [List.getElem?_drop, Nat.add_sub_cancel' hk, hchecked]⟩

/-- A legal cycle has the offsets of the range. -/
theorem bufferOffset_eq (hlegal : (machine R lower base).legal t i) :
    i.config.bufferOffset = (⟨lower, 0, 0⟩ : PortConfig).bufferOffset := by
  funext port
  rw [PortConfig.bufferOffset, hlegal.2.2.2, PortConfig.bufferOffset]

/-- The index stays with the frames that are not handed over. -/
theorem Tracked.selects_step (h : t.Tracked lower base) (hlegal : (machine R lower base).legal t i)
    (hheld : t.IndexHeld i) : (t.step i).rx.Selects ⟨lower, 0, 0⟩ (· ∈ (t.step i).rx.checked.drop (t.step i).completed) := by
  have hstage := h.aligned.paced.stage
  rw [completed_step]
  refine FilterRun.selects_step h.selects (bufferOffset_eq hlegal)
    (FrontEnd.destPort_of_checkPort hstage hlegal.1.2) (fun hcheck p hp => ?_) fun hcheck p hp => ?_
  · have hchecked : (t.step i).rx.checked = t.rx.checked := FilterRun.checked_step hstage hlegal.1.1 hcheck
    rw [hchecked] at hp
    exact List.drop_subset_drop_left _ (Nat.le_add_right _ _) hp
  · have hchecked : (t.step i).rx.checked = t.rx.forwarded ++ _ :=
      FilterRun.checked_step_of_checkPort hstage hlegal.1.1 hcheck
    rw [hchecked, List.drop_append, List.mem_append] at hp
    rcases hp with hp | hp
    · exact Or.inr (hheld.indexFree hcheck p hp)
    · have hmem := List.mem_of_mem_drop hp
      split at hmem
      · exact Or.inl (List.mem_singleton.mp hmem)
      · simp at hmem

/-- A ring is pushed exactly when the last beat of a frame of its own is handed over. -/
theorem Tracked.pushed_eq (h : t.Tracked lower base) (idx : BufferIdx) : t.pushed i idx =
    (t.completes i && (t.started[t.completed]?).any fun p => decide (ring lower p = idx)) := by
  have hpushed : t.pushed i idx = if idx = t.store.path.bufferSelectIdx then t.completes i else false := rfl
  rw [hpushed]
  cases hcompletes : t.completes i with
  | false => rw [ite_self, Bool.false_and]
  | true =>
    obtain ⟨hcompleted, haccepted⟩ := h.completed_le i
    rw [hcompletes, Bool.toNat_true] at hcompleted
    have hget : t.started[t.completed]? = some _ := List.getElem?_eq_getElem (show _ < _ by omega)
    rw [hget, Option.any_some, Bool.true_and, h.select_eq hget (Nat.le_refl _)]
    by_cases hidx : idx = ring lower t.started[t.completed]
    · rw [if_pos hidx, decide_eq_true hidx.symm]
    · rw [if_neg hidx, decide_eq_false (Ne.symm hidx)]

/-- The push pulses count the frames of the ring that were handed over. -/
theorem Tracked.pushes_step (h : t.Tracked lower base) (idx : BufferIdx) : (t.step i).pushes idx =
    ringCount lower ((t.step i).started.take (t.step i).completed) idx := by
  have hpushes : (t.step i).pushes idx = t.pushes idx + (t.pushed i idx).toNat := rfl
  obtain ⟨hcompleted, haccepted⟩ := h.completed_le i
  rw [hpushes, completed_step, take_started_step (Nat.le_trans hcompleted haccepted), h.pushes_eq idx, h.pushed_eq]
  cases hcompletes : t.completes i with
  | false => rw [Bool.false_and, Bool.toNat_false, Nat.add_zero, Nat.add_zero]
  | true =>
    rw [hcompletes, Bool.toNat_true] at hcompleted
    have hlt : t.completed < t.started.length := by omega
    have htake : t.started.take (t.completed + 1) = t.started.take t.completed ++ [t.started[t.completed]] :=
      (List.take_append_getElem hlt).symm
    rw [Bool.toNat_true, Bool.true_and, List.getElem?_eq_getElem hlt, Option.any_some, htake, ringCount, ringCount,
      List.countP_append, List.countP_singleton]
    cases decide (ring lower t.started[t.completed] = idx) <;> rfl

/-- The head of a ring counts its push pulses. -/
theorem Tracked.heads_step (h : t.Tracked lower base) (idx : BufferIdx) :
    ((t.step i).store.path.rings idx).headIndex = (t.step i).pushes idx % bufferRxLength := by
  have hhead : ((t.step i).store.path.rings idx).headIndex = if t.pushed i idx then
      CircularBuffer.indexNext bufferRxLength (t.store.path.rings idx).headIndex
    else (t.store.path.rings idx).headIndex := rfl
  have hpushes : (t.step i).pushes idx = t.pushes idx + (t.pushed i idx).toNat := rfl
  rw [hhead, hpushes, h.heads idx]
  cases t.pushed i idx with
  | false => rfl
  | true => exact CircularBuffer.indexNext_mod (by decide) _

/-- The address that is registered for the next descriptor is one of its packet's ring. -/
theorem Tracked.sampled_step (h : t.Tracked lower base) (hlegal : (machine R lower base).legal t i)
    (hvalid : (t.step i).store.path.wrCtrl.valid = true) (hidle : (t.step i).store.dma.engine.state = .idle)
    {p : Packet} (hp : (t.step i).started[(t.step i).accepted]? = some p) :
    (t.step i).store.path.wrCtrl.nextSlotAddr = DmaWriteControl.slotAddr base (ring lower p)
      (ringCount lower ((t.step i).started.take (t.step i).before) (ring lower p) % bufferRxLength) := by
  obtain ⟨hidleBefore, haxis⟩ := h.fed.waits_of_asks hvalid
  have haccepting : t.store.accepting i = false := by
    by_contra hnot
    have hstate := RxStore.state_step_of_idle (i := i) hidleBefore
    rw [Bool.not_eq_false] at hnot
    rw [hnot, if_pos rfl] at hstate
    exact absurd (hstate.symm.trans hidle) (by simp)
  have hlength : (t.step i).accepted = t.accepted := by
    have hjobs := h.fed.length_jobs_step (i := i)
    rwa [haccepting, Bool.toNat_false, Nat.add_zero] at hjobs
  have hlt : t.accepted < t.started.length := h.fed.lt_length_started hidleBefore haxis
  obtain ⟨hcompleted, -⟩ := h.completed_le i
  rw [hlength, started_step, List.getElem?_append_left hlt] at hp
  have hselect := h.select_eq hp (by omega)
  have haddr : (t.step i).store.path.wrCtrl.nextSlotAddr = DmaWriteControl.slotAddr i.sharedMemBase
      t.store.path.bufferSelectIdx (t.store.path.rings t.store.path.bufferSelectIdx).headIndex := rfl
  have hbefore : (t.step i).before = t.completed := rfl
  rw [haddr, hlegal.2.2.1, hselect, h.heads, h.pushes_eq, hbefore,
    take_started_step (by omega)]

/-- Every cycle that holds the index keeps the run tracked. -/
theorem Tracked.step (h : t.Tracked lower base) (hlegal : (machine R lower base).legal t i) (hheld : t.IndexHeld i) :
    (t.step i).Tracked lower base where
  fed := h.fed.step hlegal.2.1
  aligned := FrontEnd.aligned_step h.aligned hlegal.1 hheld.samples
  before_le := by
    rw [completed_step]
    exact Nat.le_add_right _ _
  selects := h.selects_step hlegal hheld
  pushes_eq := h.pushes_step
  heads := h.heads_step
  sampled := fun hvalid hidle _ hp => h.sampled_step hlegal hvalid hidle hp

end Cycle

/-- A one-beat packet for port 7400. -/
def oneBeat : Packet := .single ⟨0, 0, 0, 7400, 16⟩ 0 0xFF

/-- A cycle in which the header of such a packet is presented, in front of a write channel that takes data if
`wready`. -/
def cycle (drive : Bool) (next : Option Packet) (wready : Bool) : StoreCycle where
  config := ⟨7400, 7500, 1⟩
  hdr := ⟨0, 0, 0, 7400, 16⟩
  drive := drive
  next := next
  sharedMemBase := 0
  slave := ⟨true, wready, true⟩
  popped := fun _ => false

/-- A packet is announced, checked and moved. -/
def packetCycles (wready : Bool) : List StoreCycle :=
  [cycle false (some oneBeat) wready, cycle false none wready, cycle false none wready, cycle true none wready] ++
    List.replicate 14 (cycle false none wready)

end SlotRun

end UdpIpCore
