import UdpIpCore.Rtl.AxiDmaWrRun
import UdpIpCore.Rx.RxPath

/-!
# The RX path with its write DMA

The controller asks for a descriptor while a beat waits at the input of the DMA. The DMA
accepts one for each frame, whatever the header, the configuration and the write channel
do: the jobs of the DMA are the frames of the adder, one by one.
-/

namespace UdpIpCore

/-- The RX path and the write DMA behind it. -/
structure RxStore (R : AxisRegister) where
  path : RxPath R
  dma : DmaWrRun

/-- What surrounds them in one cycle; `hdr` are the `rx_hdr_*` wires. -/
structure StoreCycle where
  config : PortConfig
  hdr : UdpHeader
  drive : Bool
  next : Option Packet
  sharedMemBase : BitVec 32
  slave : AxiWriteSlave
  /-- The pop pulses of the PS, one per ring. -/
  popped : BufferIdx → Bool

namespace RxStore

variable {R : AxisRegister}

/-- After reset, with an idle source whose header registers hold the fields of `p`. -/
def start (R : AxisRegister) (p : Packet) : RxStore R := ⟨.start R p, .start⟩

/-- The beat at the input of the DMA. -/
def axis (t : RxStore R) : Option Beat := R.out t.path.front.adder.axisRegister

/-- The descriptor as it stands at the DMA; its length is that of the presented header. -/
def desc (t : RxStore R) (i : StoreCycle) : WriteDesc :=
  ⟨t.path.wrCtrl.valid, t.path.wrCtrl.nextSlotAddr, DmaWriteControl.lenBytes i.hdr.udpLength⟩

/-- The adder's and filter's side of a cycle. -/
def frontCycle (t : RxStore R) (i : StoreCycle) : FrontCycle :=
  ⟨i.config, i.hdr, i.drive, i.next, t.dma.engine.dataTready⟩

/-- The RX path's side of a cycle. -/
def rxCycle (t : RxStore R) (i : StoreCycle) : RxCycle :=
  ⟨t.frontCycle i, i.sharedMemBase, t.dma.engine.descReady, t.dma.engine.wlastHs i.slave, i.popped⟩

/-- The DMA's side of a cycle. -/
def dmaCycle (t : RxStore R) (i : StoreCycle) : DmaWrCycle := ⟨t.desc i, t.axis, i.slave⟩

/-- A descriptor is accepted. -/
def accepting (t : RxStore R) (i : StoreCycle) : Bool := t.dma.engine.accepts (t.desc i)

/-- One clock edge. -/
def step (t : RxStore R) (i : StoreCycle) : RxStore R := ⟨t.path.step (t.rxCycle i), t.dma.step (t.dmaCycle i)⟩

/-- The shared memory begins at a slot boundary. -/
def Aligned (i : StoreCycle) : Prop := i.sharedMemBase.toNat % bufferElemMaxSize = 0

instance (i : StoreCycle) : Decidable (Aligned i) := inferInstanceAs (Decidable (_ = _))

/-- The jobs of the DMA are the frames of the adder. -/
structure Fed (t : RxStore R) : Prop where
  tracked : t.dma.Tracked
  lasts : t.path.front.LastsCounted
  ends : t.path.front.EndsFrames
  taken : t.dma.jobs.flatMap WriteJob.taken = t.path.front.out
  idle : t.dma.engine.descReady = true → t.dma.engine.state = .idle
  /-- The controller asks for a waiting beat; after its acceptance it asks one cycle too long. -/
  asks : t.path.wrCtrl.valid = true → (t.dma.engine.state = .idle ∧ t.axis.isSome = true) ∨
    (t.dma.engine.state = .start ∧ t.dma.engine.descReady = false)
  slot : t.path.wrCtrl.nextSlotAddr.toNat % bufferElemMaxSize = 0
  begun : t.dma.jobs.length ≤ t.path.front.started.length

/-- The run starts without descriptors. -/
theorem fed_start (p : Packet) : (start R p).Fed where
  tracked := DmaWrRun.tracked_start
  lasts := FrontEnd.lastsCounted_start p
  ends := FrontEnd.endsFrames_start p
  taken := rfl
  idle := by simp [start, DmaWrRun.start, AxiDmaWr.reset]
  asks := by simp [start, RxPath.start, DmaWriteControl.reset]
  slot := by simp [start, RxPath.start, DmaWriteControl.reset]
  begun := Nat.zero_le _

/-- Each accepted descriptor stands in a relation to the packets before its own one and to that packet. -/
def Described (t : RxStore R) (relation : List Packet → Packet → WriteDesc → Prop) : Prop :=
  ∀ (k : ℕ) (p : Packet) (desc : WriteDesc), t.path.front.started[k]? = some p →
    (t.dma.jobs.map WriteJob.desc)[k]? = some desc → relation (t.path.front.started.take k) p desc

section Cycle

variable {t : RxStore R} {i : StoreCycle}

/-- The parts of an acceptance. -/
theorem accepting_iff : t.accepting i = true ↔
    (t.dma.engine.state = .idle ∧ t.dma.engine.descReady = true) ∧ t.path.wrCtrl.valid = true := by
  simp [accepting, AxiDmaWr.accepts, desc]

/-- A descriptor that is accepted is for a slot. -/
theorem Fed.legal (h : t.Fed) : t.dma.Legal (t.dmaCycle i) := by
  intro _
  have hlen := DmaWriteControl.toNat_lenBytes i.hdr.udpLength
  refine ⟨h.slot, ?_, ?_⟩
  · change 0 < (DmaWriteControl.lenBytes i.hdr.udpLength).toNat
    omega
  · change (DmaWriteControl.lenBytes i.hdr.udpLength).toNat ≤ 2048
    omega

/-- While the DMA is idle no beat is taken. -/
theorem Fed.not_ready (h : t.Fed) (hidle : t.dma.engine.state = .idle) : t.dma.engine.dataTready = false :=
  h.tracked.room.not_ready (by simp [hidle]) (by simp [hidle])

/-- With the DMA idle, the frames taken so far were the jobs so far. -/
theorem Fed.length_jobs (h : t.Fed) (hidle : t.dma.engine.state = .idle) :
    t.dma.jobs.length = t.path.front.out.countP Beat.tlast := by
  have hcurrent : t.dma.current = none := (AxiDmaWr.serves_idle_iff hidle).mp h.tracked.serves
  have hone (jobs : List WriteJob) (hjobs : ∀ j ∈ jobs, j.Framed) :
      (jobs.flatMap WriteJob.taken).countP Beat.tlast = jobs.length := by
    induction jobs with
    | nil => rfl
    | cons j jobs ih =>
      rw [List.flatMap_cons, List.countP_append, (hjobs j List.mem_cons_self).countP,
        ih fun j' hj' => hjobs j' (List.mem_cons_of_mem j hj'), List.length_cons, Nat.add_comm]
  rw [← h.taken, DmaWrRun.jobs, hcurrent, Option.toList_none, List.append_nil]
  exact (hone _ fun j hj => (h.tracked.served j hj).framed).symm

/-- A beat that waits at the idle DMA is the first one of a frame without a descriptor. -/
theorem Fed.lt_length_started (h : t.Fed) (hidle : t.dma.engine.state = .idle) (haxis : t.axis.isSome = true) :
    t.dma.jobs.length < t.path.front.started.length := by
  obtain ⟨b, hb⟩ := Option.isSome_iff_exists.mp haxis
  have hheld : t.path.front.held ≠ [] := by
    intro hnil
    have hhead := R.out_head _ b hb
    simp [show R.contents t.path.front.adder.axisRegister = [] from hnil] at hhead
  rw [h.length_jobs hidle]
  exact FrontEnd.lt_length_started h.lasts h.ends hheld

/-- The descriptor that is accepted is for a frame whose first beat waits. -/
theorem Fed.accepting (h : t.Fed) (haccepting : t.accepting i = true) :
    t.axis.isSome = true ∧ t.dma.jobs.length = t.path.front.out.countP Beat.tlast ∧
      t.dma.jobs.length < t.path.front.started.length := by
  obtain ⟨⟨hidle, -⟩, hvalid⟩ := accepting_iff.mp haccepting
  have haxis : t.axis.isSome = true := by
    rcases h.asks hvalid with ⟨-, haxis⟩ | ⟨hstart, -⟩
    · exact haxis
    · simp [hidle] at hstart
  exact ⟨haxis, h.length_jobs hidle, h.lt_length_started hidle haxis⟩

/-- The controller asks after a cycle in which a beat waited at the idle DMA. -/
theorem Fed.waits_of_asks (h : t.Fed) (hvalid : (t.step i).path.wrCtrl.valid = true) :
    t.dma.engine.state = .idle ∧ t.axis.isSome = true := by
  have hnext : (t.step i).path.wrCtrl.valid =
      if !t.dma.engine.descReady then false else if t.axis.isSome then true else t.path.wrCtrl.valid := rfl
  rw [hnext] at hvalid
  have hready : t.dma.engine.descReady = true := by
    by_contra hnot
    simp [hnot] at hvalid
  have hidle := h.idle hready
  refine ⟨hidle, ?_⟩
  by_contra hnot
  simp only [hready, hnot, Bool.not_true, Bool.false_eq_true, if_false] at hvalid
  rcases h.asks hvalid with ⟨-, haxis⟩ | ⟨hstart, -⟩
  · exact hnot haxis
  · simp [hidle] at hstart

/-- From the idle state the DMA leaves with an acceptance only. -/
theorem state_step_of_idle (hidle : t.dma.engine.state = .idle) :
    (t.step i).dma.engine.state = if t.accepting i then .start else .idle := by
  change t.dma.engine.stateNext (t.desc i) t.axis = _
  rw [AxiDmaWr.stateNext, hidle]
  rfl

/-- The controller goes on asking for the same beat or stops asking. -/
theorem Fed.asks_step (h : t.Fed) (hvalid : (t.step i).path.wrCtrl.valid = true) :
    ((t.step i).dma.engine.state = .idle ∧ (t.step i).axis.isSome = true) ∨
      ((t.step i).dma.engine.state = .start ∧ (t.step i).dma.engine.descReady = false) := by
  obtain ⟨hidle, haxis⟩ := h.waits_of_asks hvalid
  have hstate := state_step_of_idle (i := i) hidle
  cases haccepting : t.accepting i with
  | true =>
    rw [haccepting, if_pos rfl] at hstate
    have hstart : t.dma.engine.stateNext (t.desc i) t.axis = .start := hstate
    refine Or.inr ⟨hstate, ?_⟩
    change (decide (t.dma.engine.stateNext (t.desc i) t.axis = .idle) && t.dma.engine.activeCountAv) = false
    simp [hstart]
  | false =>
    rw [haccepting, if_neg (by simp)] at hstate
    obtain ⟨b, hb⟩ := Option.isSome_iff_exists.mp haxis
    have hstays : (t.step i).axis = some b := by
      change R.out (R.step t.path.front.adder.axisRegister _ t.dma.engine.dataTready) = some b
      rw [h.not_ready hidle]
      exact R.out_stable _ _ b hb
    exact Or.inl ⟨hstate, by rw [hstays]; rfl⟩

/-- The descriptors after a cycle. -/
theorem Fed.descs_step (h : t.Fed) : (t.step i).dma.jobs.map WriteJob.desc =
    t.dma.jobs.map WriteJob.desc ++ if t.accepting i then [t.desc i] else [] :=
  DmaWrRun.descs_step (i := t.dmaCycle i) h.tracked.serves

/-- Each accepted descriptor is one more job. -/
theorem Fed.length_jobs_step (h : t.Fed) :
    (t.step i).dma.jobs.length = t.dma.jobs.length + (t.accepting i).toNat := by
  have hlength := congrArg List.length (h.descs_step (i := i))
  rw [List.length_append, List.length_map, List.length_map] at hlength
  rw [hlength]
  cases t.accepting i <;> rfl

/-- Whatever happens in a cycle, the jobs stay the frames. -/
theorem Fed.step (h : t.Fed) (haligned : Aligned i) : (t.step i).Fed where
  tracked := h.tracked.step h.legal
  lasts := FrontEnd.lastsCounted_step h.lasts
  ends := FrontEnd.endsFrames_step h.ends
  taken := by
    have htaken := DmaWrRun.flatMap_taken_step (i := t.dmaCycle i) h.tracked.serves h.tracked.room
    rw [h.taken] at htaken
    exact htaken
  idle := by
    intro hready
    have hnext : (decide (t.dma.engine.stateNext (t.desc i) t.axis = .idle) && t.dma.engine.activeCountAv) = true :=
      hready
    rw [Bool.and_eq_true, decide_eq_true_eq] at hnext
    exact hnext.1
  asks := h.asks_step
  slot := DmaWriteControl.slotAddr_mod haligned _ _
  begun := by
    have hstarted : (t.step i).path.front.started = t.path.front.started ++ _ := FrontEnd.started_step
    rw [h.length_jobs_step, hstarted, List.length_append]
    have hbegun := h.begun
    cases haccepting : t.accepting i with
    | false =>
      simp only [Bool.toNat_false]
      omega
    | true =>
      have hlt := (h.accepting haccepting).2.2
      simp only [Bool.toNat_true]
      omega

/-- A relation that holds of each descriptor when it is accepted goes on to hold. -/
theorem Fed.described_step {relation : List Packet → Packet → WriteDesc → Prop} (h : t.Fed)
    (hdescribed : t.Described relation) (haccept : t.accepting i = true → ∀ p,
      t.path.front.started[t.dma.jobs.length]? = some p →
        relation (t.path.front.started.take t.dma.jobs.length) p (t.desc i)) : (t.step i).Described relation := by
  intro k p desc hp hdesc
  have hbegun := h.begun
  have hstarted : (t.step i).path.front.started = t.path.front.started ++ _ := FrontEnd.started_step
  rw [h.descs_step, List.getElem?_append, List.length_map] at hdesc
  rw [hstarted] at hp ⊢
  by_cases hk : k < t.dma.jobs.length
  · rw [if_pos hk] at hdesc
    rw [List.getElem?_append_left (by omega)] at hp
    rw [List.take_append_of_le_length (by omega)]
    exact hdescribed k p desc hp hdesc
  · rw [if_neg hk] at hdesc
    cases haccepting : t.accepting i with
    | false => simp [haccepting] at hdesc
    | true =>
      rw [haccepting, if_pos rfl, List.getElem?_singleton] at hdesc
      split at hdesc
      · have hlast : k = t.dma.jobs.length := by omega
        have hlt := (h.accepting haccepting).2.2
        subst hlast
        rw [List.getElem?_append_left hlt] at hp
        rw [List.take_append_of_le_length (by omega), ← Option.some.inj hdesc]
        exact haccept haccepting p hp
      · simp at hdesc

end Cycle

end RxStore

end UdpIpCore
