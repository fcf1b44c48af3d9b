import UdpIpCore.Rtl.AxiDmaRd
import UdpIpCore.Rtl.AxiDmaWrRun
import UdpIpCore.Rtl.CircularBuffer
import UdpIpCore.Rtl.DmaReadControl
import UdpIpCore.Rtl.UserRstHandler

/-!
# Resets and transfers under way

The user reset clears the rings and the DMA controls, but not the DMA engines. The busy flags
that hold it back follow the beats of a transfer, not its descriptor, and do not count: a
transfer is cut exactly if the reset is granted while an engine or its control still has work.
-/

namespace UdpIpCore

/-- One clock edge with the reset. -/
def DmaWriteControl.stepRst (c : DmaWriteControl) (rstGlobal ready axisTvalid : Bool) (sharedMemBase : BitVec 32)
    (bufferSelectIdx : BufferIdx) (headIndex : ℕ) : DmaWriteControl where
  valid := if rstGlobal || !ready then false else if axisTvalid then true else c.valid
  nextSlotAddr := slotAddr sharedMemBase bufferSelectIdx headIndex

/-- One clock edge with the reset; it also opens the lock. -/
def DmaReadControl.stepRst (c : DmaReadControl) (rstGlobal ready tlastHs txEmpty : Bool) (sharedMemBase : BitVec 32)
    (tailIndex : ℕ) : DmaReadControl where
  locked := if rstGlobal || tlastHs then false else if c.valid && ready then true else c.locked
  valid := if rstGlobal || c.locked then false else if !txEmpty then true else c.valid
  nextSlotAddr := slotAddr sharedMemBase tailIndex

/-- One clock edge with the reset. -/
def CircularBuffer.stepRst {length : ℕ} (b : CircularBuffer length) (rstGlobal pushed popped : Bool) :
    CircularBuffer length :=
  if rstGlobal then .reset length else b.step pushed popped

namespace CircularBuffer

variable {length : ℕ} {b : CircularBuffer length} {rstGlobal pushed popped : Bool}

/-- The head stays an index of the ring. -/
theorem headIndex_stepRst_lt (h : b.headIndex < length) : (b.stepRst rstGlobal pushed popped).headIndex < length := by
  cases rstGlobal with
  | true => exact Nat.lt_of_le_of_lt (Nat.zero_le _) h
  | false =>
    cases pushed with
    | true => exact indexNext_lt h
    | false => exact h

/-- The tail stays an index of the ring. -/
theorem tailIndex_stepRst_lt (h : b.tailIndex < length) : (b.stepRst rstGlobal pushed popped).tailIndex < length := by
  cases rstGlobal with
  | true => exact Nat.lt_of_le_of_lt (Nat.zero_le _) h
  | false =>
    cases popped with
    | true => exact indexNext_lt h
    | false => exact h

end CircularBuffer

namespace AxiDmaWr

variable {e : AxiDmaWr} {desc : WriteDesc} {axis : Option Beat} {slave : AxiWriteSlave}

/-- No accepted descriptor has beats to be passed on. -/
def Spent (e : AxiDmaWr) : Prop := e.state = .idle ∨ e.state = .dropData

instance (e : AxiDmaWr) : Decidable e.Spent := inferInstanceAs (Decidable (_ ∨ _))

/-- Nothing is passed on once a descriptor is spent. -/
theorem Spent.entering (h : e.Spent) : e.entering axis = [] := by
  apply entering_of_not
  · rcases h with hstate | hstate <;> simp [writes, hstate]
  · rcases h with hstate | hstate <;> simp [fills, hstate]

/-- A descriptor is spent with a beat that is passed on. -/
theorem entering_of_spent_step (hroom : e.Room) (hnot : ¬ e.Spent) (hspent : (e.step desc axis slave).Spent) :
    e.entering axis ≠ [] := by
  have hfifo : e.outFifo.length < 32 := Nat.lt_of_le_of_lt hroom.room (by decide)
  have hentering (hpass : (e.writes axis || e.fills) = true) : e.entering axis ≠ [] := by
    rw [entering, if_pos hfifo, wInt]
    cases hwrites : e.writes axis with
    | true => simp
    | false =>
      rw [hwrites, Bool.false_or] at hpass
      simp [hpass]
  have hnext : (e.step desc axis slave).state = e.stateNext desc axis := rfl
  rw [Spent, hnext] at hspent
  cases hstate : e.state with
  | idle => exact absurd (Or.inl hstate) hnot
  | dropData => exact absurd (Or.inr hstate) hnot
  | start => cases hstarts : e.starts axis <;> simp [stateNext, hstate, hstarts] at hspent
  | write =>
    apply hentering
    by_contra hidle
    have hwrites : e.writes axis = false := by
      by_contra hwrites
      simp [hwrites] at hidle
    simp [stateNext, hstate, hwrites] at hspent
  | finishBurst =>
    apply hentering
    by_contra hidle
    have hready : e.wreadyInt = false := by
      by_contra hready
      simp [fills, hstate, hready] at hidle
    simp [stateNext, hstate, hready] at hspent

/-- An engine with nothing left to do after a cycle has had nothing left but the beat it hands over. -/
theorem spent_step_iff (hroom : e.Room) :
    (e.step desc axis slave).Spent ∧ (e.step desc axis slave).pending = [] ↔
      e.Spent ∧ e.accepts desc = false ∧ e.pending.length = (e.wHs slave).toList.length := by
  have hbalance := congrArg List.length (handed_append_pending e desc axis slave)
  rw [List.length_append, List.length_append] at hbalance
  have hnext : (e.step desc axis slave).state = e.stateNext desc axis := rfl
  constructor
  · intro hdrained
    obtain ⟨hspent, hpending⟩ := hdrained
    rw [hpending, List.length_nil] at hbalance
    have hbeat : (e.wHs slave).toList.length ≤ e.pending.length := by
      rw [wHs, pending]
      cases slave.wready <;> simp
    have hentering : e.entering axis = [] := List.eq_nil_of_length_eq_zero (by omega)
    have hbefore : e.Spent := by
      by_contra hnot
      exact entering_of_spent_step hroom hnot hspent hentering
    refine ⟨hbefore, ?_, by omega⟩
    by_contra haccepts
    have hidle := idle_of_accepts (by simpa using haccepts)
    rw [Spent, hnext] at hspent
    simp [stateNext, hidle, haccepts] at hspent
  · intro hspare
    obtain ⟨hspent, haccepts, hpending⟩ := hspare
    rw [hspent.entering, List.length_nil] at hbalance
    refine ⟨?_, List.eq_nil_of_length_eq_zero (by omega)⟩
    rw [Spent, hnext]
    rcases hspent with hstate | hstate
    · simp [stateNext, hstate, haccepts]
    · cases haxis : axis.any Beat.tlast <;> simp [stateNext, hstate, haxis]

end AxiDmaWr

namespace DmaWrRun

open AxiDmaWr WriteJob

/-- All bursts are handed over exactly when the engine has nothing left to do. -/
theorem Tracked.completed_eq_iff {s : DmaWrRun} (h : s.Tracked) :
    s.completed = s.jobs.length ↔ s.engine.Spent ∧ s.engine.pending = [] := by
  have hframes (hspent : s.engine.Spent) : ∀ frame ∈ s.jobs.map WriteJob.passed, Framing.Frame WBeat.wlast frame := by
    intro frame hframe
    obtain ⟨j, hj, rfl⟩ := List.mem_map.mp hframe
    have hpassed : j.Passed (burstLength j.len) := by
      rw [jobs, List.mem_append, Option.mem_toList] at hj
      rcases hj with hfinished | hcurrent
      · exact (h.served j hfinished).passed
      · have hserves := h.serves
        rw [hcurrent] at hserves
        rcases hspent with hstate | hstate
        · simp [Serves, hstate] at hserves
        · simp only [Serves, hstate] at hserves
          exact hserves.2.2.2.passed
    rw [hpassed]
    exact frame_burst j.len j.taken
  have hcount (hspent : s.engine.Spent) : s.completed = s.jobs.length ↔ s.engine.pending = [] := by
    have hall := Framing.countP_eq_length_iff (hframes hspent) (h.handed.trans (List.flatMap_def ..))
    rwa [List.length_map] at hall
  constructor
  · intro hall
    have hspent : s.engine.Spent := by
      by_contra hnot
      obtain ⟨hidle, hdrop⟩ := not_or.mp hnot
      obtain ⟨j, hj⟩ := exists_of_serves hidle h.serves
      have hle := completed_add_le_finished h hdrop ⟨false, false, false⟩
      rw [hall, jobs, hj, List.length_append] at hle
      simp only [Option.toList_some, List.length_singleton] at hle
      omega
    exact ⟨hspent, (hcount hspent).mp hall⟩
  · intro hdrained
    exact (hcount hdrained.1).mpr hdrained.2

end DmaWrRun

/-- The controller around both DMA engines. -/
structure CutRun where
  core : ResetCore
  wr : DmaWrRun
  wrCtrl : DmaWriteControl
  rd : AxiDmaRd
  rdCtrl : DmaReadControl
  rxRings : BufferIdx → CircularBuffer bufferRxLength
  txRing : CircularBuffer bufferTxLength
  /-- The read descriptors that were accepted. -/
  rdAccepted : ℕ
  /-- The `rlast` handshakes so far. -/
  rdPopped : ℕ
  /-- The streams that were taken to their last beat. -/
  rdEnded : ℕ
  /-- The write descriptors that were accepted before the last reset. -/
  wrMark : ℕ
  /-- The read descriptors that were accepted before the last reset. -/
  rdMark : ℕ

/-- One cycle of the surroundings. -/
structure CutCycle where
  /-- A register write of the PS. -/
  write : Option (RegAddr × BitVec 32)
  axis : Option Beat
  /-- `rx_hdr_udp_length`. -/
  udpLength : BitVec 16
  bufferSelectIdx : BufferIdx
  slave : AxiWriteSlave
  rd : AxiDmaRdInput
  /-- The last payload beat taken by the UDP stack. -/
  txLast : Bool
  /-- The pop pulses of the PS, one per ring. -/
  rxPopped : BufferIdx → Bool
  /-- The push pulse of the PS. -/
  txPushed : Bool

namespace CutRun

/-- After the power-on reset. -/
def start : CutRun where
  core := .start
  wr := .start
  wrCtrl := .reset
  rd := .reset
  rdCtrl := .reset
  rxRings := fun _ => .reset _
  txRing := .reset _
  rdAccepted := 0
  rdPopped := 0
  rdEnded := 0
  wrMark := 0
  rdMark := 0

/-- The shared memory the controller works with. -/
def sharedMemBase (t : CutRun) : BitVec 32 := t.core.latched.sharedMemBaseAddress

/-- What the write DMA sees of a cycle. -/
def wrCycle (t : CutRun) (i : CutCycle) : DmaWrCycle where
  desc := ⟨t.wrCtrl.valid, t.wrCtrl.nextSlotAddr, DmaWriteControl.lenBytes i.udpLength⟩
  axis := i.axis
  slave := i.slave

/-- A write descriptor is accepted. -/
def wrAccepts (t : CutRun) (i : CutCycle) : Bool := t.wr.engine.accepts (t.wrCycle i).desc

/-- A read descriptor is accepted. -/
def rdAccepts (t : CutRun) : Bool := t.rd.accepts t.rdCtrl.valid

/-- `dma_wr_ctrl_pushed_i`, which is also `dma_wr_data_axi_last`. -/
def pushed (t : CutRun) (i : CutCycle) : Bool := t.wr.engine.wlastHs i.slave

/-- `dma_rd_ctrl_popped_i`. -/
def popped (t : CutRun) (i : CutCycle) : Bool := t.rd.rlastHs i.rd

/-- What the reset and the busy flags see of a cycle. -/
def resetCycle (t : CutRun) (i : CutCycle) : ResetCycle where
  write := i.write
  events :=
    { wrBeat := t.wr.engine.takes i.axis
      wrLast := t.pushed i
      rdAddr := t.rd.arvalid && i.rd.arready
      txLast := i.txLast
      txPopped := t.popped i }

/-- One clock edge. -/
def step (t : CutRun) (i : CutCycle) : CutRun where
  core := t.core.step (t.resetCycle i)
  wr := t.wr.step (t.wrCycle i)
  wrCtrl := t.wrCtrl.stepRst t.core.rstGlobal t.wr.engine.descReady i.axis.isSome t.sharedMemBase i.bufferSelectIdx
    (t.rxRings i.bufferSelectIdx).headIndex
  rd := t.rd.step t.rdCtrl.valid t.rdCtrl.nextSlotAddr i.rd
  rdCtrl := t.rdCtrl.stepRst t.core.rstGlobal t.rd.readDescReady i.rd.tlastHs t.txRing.empty t.sharedMemBase
    t.txRing.tailIndex
  rxRings := fun idx =>
    (t.rxRings idx).stepRst t.core.rstGlobal (if idx = i.bufferSelectIdx then t.pushed i else false) (i.rxPopped idx)
  txRing := t.txRing.stepRst t.core.rstGlobal i.txPushed (t.popped i)
  rdAccepted := t.rdAccepted + t.rdAccepts.toNat
  rdPopped := t.rdPopped + (t.popped i).toNat
  rdEnded := t.rdEnded + i.rd.tlastHs.toNat
  wrMark := if t.core.rstGlobal then t.wr.jobs.length else t.wrMark
  rdMark := if t.core.rstGlobal then t.rdAccepted else t.rdMark

/-- The PS publishes an area that starts at a slot, and the read data come as they were asked for. -/
structure Legal (t : CutRun) (i : CutCycle) : Prop where
  shmem : ∀ value, i.write = some (RegAddr.shmem, value) → value.toNat % bufferElemMaxSize = 0
  rd : t.rd.Legal i.rd

/-- Any frames, any register writes and any stalls. -/
def machine : Clocked.Machine CutRun CutCycle where
  step := step
  legal := Legal

/-- Every descriptor that was accepted has finished: its last beat was handed over, or its burst and its stream
ended. -/
structure Whole (t : CutRun) : Prop where
  wr : t.wr.completed = t.wr.jobs.length
  popped : t.rdPopped = t.rdAccepted
  ended : t.rdEnded = t.rdAccepted

/-- While the reset is up no transfer is under way and none is accepted; a pulse after it is of a transfer that was
accepted after it. -/
structure Uncut (t : CutRun) (i : CutCycle) : Prop where
  whole : (t.step i).core.rstGlobal = true → (t.step i).Whole
  accepts : t.core.rstGlobal = true → t.wrAccepts i = false ∧ t.rdAccepts = false
  pushed : t.pushed i = true → t.wrMark ≤ t.wr.completed
  popped : t.popped i = true → t.rdMark ≤ t.rdPopped

/-- The reset handler asserts the reset, or goes on with it. -/
def Grants (t : CutRun) : Prop :=
  t.core.handler.enable = false ∨
    t.core.handler.rstRequested = true ∧ t.core.flags.rxBusy = false ∧ t.core.flags.txBusy = false

instance (t : CutRun) : Decidable t.Grants := inferInstanceAs (Decidable (_ ∨ _))

/-- What the low busy flags stand for: the write DMA has nothing left but the beat it hands over, and the stream of
the read DMA that was locked ends. -/
structure Drained (t : CutRun) (i : CutCycle) : Prop where
  spent : t.wr.engine.Spent
  pending : t.wr.engine.pending.length = (t.wr.engine.wHs i.slave).toList.length
  locked : t.rdCtrl.locked = true → i.rd.tlastHs = true

/-- The engines are drained when the reset is granted, and are offered no descriptor then nor while it is up. -/
structure Waits (t : CutRun) (i : CutCycle) : Prop where
  drained : t.Grants → t.Drained i
  wrOffer : t.Grants ∨ t.core.rstGlobal = true →
    ¬ (t.wr.engine.state = .idle ∧ t.wr.engine.descReady = true ∧ t.wrCtrl.valid = true)
  rdOffer : t.Grants ∨ t.core.rstGlobal = true → ¬ (t.rd.readDescReady = true ∧ t.rdCtrl.valid = true)

/-- Every index is one of its ring, and every address that of a slot. -/
structure Slots (t : CutRun) : Prop where
  wr : t.wr.Tracked
  shmem : t.core.regs.sharedMem.toNat % bufferElemMaxSize = 0
  base : t.sharedMemBase.toNat % bufferElemMaxSize = 0
  wrSlot : t.wrCtrl.nextSlotAddr.toNat % bufferElemMaxSize = 0
  rdSlot : t.rdCtrl.nextSlotAddr.toNat % bufferElemMaxSize = 0
  heads : ∀ idx, (t.rxRings idx).headIndex < bufferRxLength
  tail : t.txRing.tailIndex < bufferTxLength

/-- What holds between any two cycles. -/
structure Tracked (t : CutRun) : Prop extends Slots t where
  transfers : t.rdAccepted = t.rdEnded + t.rd.transfers
  popped : t.rdPopped = t.rdEnded + t.rd.streams.length
  ready : t.rd.readDescReady = true → t.rd.axiStart = false
  /-- The lock is closed while a transfer is under way. -/
  locked : t.rdAccepted = t.rdEnded + t.rdCtrl.locked.toNat
  /-- The valid flag falls a cycle after the lock. -/
  starting : t.rdCtrl.locked = true → t.rdCtrl.valid = true → t.rd.axiStart = true
  whole : t.core.rstGlobal = true → t.Whole
  wrMark : t.wrMark ≤ t.wr.completed
  rdMark : t.rdMark ≤ t.rdPopped

/-- After the power-on reset every address is 0. -/
theorem slots_start : start.Slots where
  wr := DmaWrRun.tracked_start
  shmem := rfl
  base := rfl
  wrSlot := rfl
  rdSlot := rfl
  heads := fun _ => Nat.succ_pos _
  tail := Nat.succ_pos _

/-- Nothing was accepted. -/
theorem tracked_start : start.Tracked where
  toSlots := slots_start
  transfers := rfl
  popped := rfl
  ready := fun h => absurd h (by simp [start, AxiDmaRd.reset])
  locked := rfl
  starting := fun h => absurd h (by simp [start, DmaReadControl.reset])
  whole := fun _ => ⟨rfl, rfl, rfl⟩
  wrMark := Nat.le_refl _
  rdMark := Nat.le_refl _

section Cycle

variable {t : CutRun} {i : CutCycle}

/-- The reset after a cycle. -/
theorem rstGlobal_step_iff : (t.step i).core.rstGlobal = true ↔ t.Grants := by
  have hnext : (t.step i).core.rstGlobal = if !t.core.handler.enable then true
      else t.core.handler.rstRequested && !(t.core.flags.rxBusy || t.core.flags.txBusy) := rfl
  rw [hnext, Grants]
  cases t.core.handler.enable <;> simp

/-- A write descriptor that waits while the DMA is ready is accepted. -/
theorem wrAccepts_eq_false_iff : t.wrAccepts i = false ↔
    ¬ (t.wr.engine.state = .idle ∧ t.wr.engine.descReady = true ∧ t.wrCtrl.valid = true) := by
  rw [← Bool.not_eq_true, not_iff_not, wrAccepts, AxiDmaWr.accepts, Bool.and_eq_true, Bool.and_eq_true,
    decide_eq_true_eq, and_assoc]
  rfl

/-- A read descriptor that waits while the DMA is ready is accepted. -/
theorem Tracked.rdAccepts_eq (h : t.Tracked) : t.rdAccepts = (t.rd.readDescReady && t.rdCtrl.valid) := by
  rw [rdAccepts, AxiDmaRd.accepts]
  cases hready : t.rd.readDescReady with
  | false => simp
  | true => rw [h.ready hready, Bool.not_false, Bool.true_and]

/-- The descriptors of the controller are for slots. -/
theorem Slots.legal (h : t.Slots) (i : CutCycle) : t.wr.Legal (t.wrCycle i) := by
  intro _
  have hlen := DmaWriteControl.toNat_lenBytes i.udpLength
  refine ⟨h.wrSlot, ?_, ?_⟩
  · change 0 < (DmaWriteControl.lenBytes i.udpLength).toNat
    omega
  · change (DmaWriteControl.lenBytes i.udpLength).toNat ≤ 2048
    omega

/-- The write transfers are all finished after a cycle exactly when the engine was drained and took no descriptor. -/
theorem Tracked.wr_whole_iff (h : t.Tracked) (i : CutCycle) :
    (t.step i).wr.completed = (t.step i).wr.jobs.length ↔
      t.wr.engine.Spent ∧ t.wrAccepts i = false ∧
        t.wr.engine.pending.length = (t.wr.engine.wHs i.slave).toList.length := by
  have hnext : (t.step i).wr.Tracked := h.wr.step (h.legal i)
  rw [hnext.completed_eq_iff]
  exact AxiDmaWr.spent_step_iff h.wr.room

/-- The transfers of the read DMA after a cycle. -/
theorem Tracked.transfers_step (h : t.Tracked) (hlegal : t.Legal i) :
    (t.step i).rdAccepted = (t.step i).rdEnded + (t.step i).rd.transfers := by
  have hstep := AxiDmaRd.transfers_step hlegal.rd t.rdCtrl.valid t.rdCtrl.nextSlotAddr
  have hbefore := h.transfers
  change t.rdAccepted + (t.rd.accepts t.rdCtrl.valid).toNat = t.rdEnded + i.rd.tlastHs.toNat +
    (t.rd.step t.rdCtrl.valid t.rdCtrl.nextSlotAddr i.rd).transfers
  omega

/-- The streams of the read DMA after a cycle. -/
theorem Tracked.popped_step (h : t.Tracked) (hlegal : t.Legal i) :
    (t.step i).rdPopped = (t.step i).rdEnded + (t.step i).rd.streams.length := by
  have hstep := AxiDmaRd.length_streams_step hlegal.rd t.rdCtrl.valid t.rdCtrl.nextSlotAddr
  have hbefore := h.popped
  change t.rdPopped + (t.rd.rlastHs i.rd).toNat = t.rdEnded + i.rd.tlastHs.toNat +
    (t.rd.step t.rdCtrl.valid t.rdCtrl.nextSlotAddr i.rd).streams.length
  omega

/-- A stream ends only while the lock is closed. -/
theorem Tracked.locked_of_tlastHs (h : t.Tracked) (hlegal : t.Legal i) (htlast : i.rd.tlastHs = true) :
    t.rdCtrl.locked = true ∧ t.rdAccepts = false := by
  have hpos := hlegal.rd.streams_pos htlast
  have htransfers := h.transfers
  have hlocked := h.locked
  have hone := t.rdCtrl.locked.toNat_le
  simp only [AxiDmaRd.transfers] at htransfers
  have hclosed : t.rdCtrl.locked = true := by
    by_contra hopen
    rw [Bool.not_eq_true] at hopen
    rw [hopen, Bool.toNat_false] at hlocked
    omega
  refine ⟨hclosed, ?_⟩
  rw [h.rdAccepts_eq, Bool.and_eq_false_iff]
  by_contra hboth
  obtain ⟨-, hvalid⟩ := not_or.mp hboth
  have hstart := h.starting hclosed (by simpa using hvalid)
  rw [hstart, Bool.toNat_true] at htransfers
  omega

/-- A descriptor is accepted only while the lock is open. -/
theorem Tracked.locked_of_rdAccepts (h : t.Tracked) (haccepts : t.rdAccepts = true) : t.rdCtrl.locked = false := by
  rw [h.rdAccepts_eq, Bool.and_eq_true] at haccepts
  by_contra hclosed
  have hstart := h.starting (by simpa using hclosed) haccepts.2
  rw [h.ready haccepts.1] at hstart
  exact absurd hstart Bool.false_ne_true

/-- The lock counts the transfer under way after a cycle in which no descriptor is accepted during a reset. -/
theorem Tracked.locked_step (h : t.Tracked) (hlegal : t.Legal i)
    (haccepts : t.core.rstGlobal = true → t.rdAccepts = false) :
    (t.step i).rdAccepted = (t.step i).rdEnded + (t.step i).rdCtrl.locked.toNat := by
  have hbefore := h.locked
  have hlocked : (t.step i).rdCtrl.locked = if t.core.rstGlobal || i.rd.tlastHs then false
      else if t.rdCtrl.valid && t.rd.readDescReady then true else t.rdCtrl.locked := rfl
  change t.rdAccepted + t.rdAccepts.toNat = t.rdEnded + i.rd.tlastHs.toNat + (t.step i).rdCtrl.locked.toNat
  rw [hlocked]
  cases htlast : i.rd.tlastHs with
  | true =>
    obtain ⟨hclosed, hnone⟩ := h.locked_of_tlastHs hlegal htlast
    rw [hnone, Bool.or_true, if_pos rfl, hbefore, hclosed]
  | false =>
    cases hrst : t.core.rstGlobal with
    | true =>
      have hwhole := (h.whole hrst).ended
      rw [haccepts hrst, hwhole]
      rfl
    | false =>
      rw [Bool.or_false, if_neg Bool.false_ne_true, Bool.and_comm, ← h.rdAccepts_eq]
      cases hnow : t.rdAccepts with
      | true =>
        rw [h.locked_of_rdAccepts hnow] at hbefore
        rw [hbefore]
        rfl
      | false => exact hbefore

/-- The engine starts in the one cycle in which the valid flag outlives the lock. -/
theorem Tracked.starting_step (h : t.Tracked) (hclosed : (t.step i).rdCtrl.locked = true)
    (hvalid : (t.step i).rdCtrl.valid = true) : (t.step i).rd.axiStart = true := by
  have hlocked : (t.step i).rdCtrl.locked = if t.core.rstGlobal || i.rd.tlastHs then false
      else if t.rdCtrl.valid && t.rd.readDescReady then true else t.rdCtrl.locked := rfl
  have hvalidNext : (t.step i).rdCtrl.valid = if t.core.rstGlobal || t.rdCtrl.locked then false
      else if !t.txRing.empty then true else t.rdCtrl.valid := rfl
  have hstart : (t.step i).rd.axiStart = if t.rd.axiStart then t.rd.arvalid else t.rdAccepts := rfl
  have hopen : t.rdCtrl.locked = false := by
    by_contra hbefore
    simp [hvalidNext, hbefore] at hvalid
  have hoffer : (t.rdCtrl.valid && t.rd.readDescReady) = true := by
    by_contra hoffer
    simp [hlocked, hoffer, hopen] at hclosed
  have haccepts : t.rdAccepts = true := by rw [h.rdAccepts_eq, Bool.and_comm, hoffer]
  rw [hstart, h.ready (Bool.and_eq_true_iff.mp hoffer).2, haccepts]
  rfl

/-- The read transfers are all finished after a cycle exactly when the lock opened and no descriptor was accepted. -/
theorem Tracked.rd_whole_iff (h : t.Tracked) (hlegal : t.Legal i) :
    (t.step i).rdEnded = (t.step i).rdAccepted ↔
      (t.rdCtrl.locked = true → i.rd.tlastHs = true) ∧ t.rdAccepts = false := by
  have hbefore := h.locked
  change t.rdEnded + i.rd.tlastHs.toNat = t.rdAccepted + t.rdAccepts.toNat ↔ _
  rw [hbefore]
  cases htlast : i.rd.tlastHs with
  | true =>
    obtain ⟨hclosed, hnone⟩ := h.locked_of_tlastHs hlegal htlast
    simp [hclosed, hnone]
  | false =>
    cases hlocked : t.rdCtrl.locked <;> cases haccepts : t.rdAccepts <;> simp [Nat.add_assoc]

/-- With all streams ended, all bursts have ended. -/
theorem popped_of_ended (htransfers : t.rdAccepted = t.rdEnded + t.rd.transfers)
    (hpopped : t.rdPopped = t.rdEnded + t.rd.streams.length) (hended : t.rdEnded = t.rdAccepted) :
    t.rdPopped = t.rdAccepted := by
  simp only [AxiDmaRd.transfers] at htransfers
  omega

/-- The transfers after a cycle in which the reset is granted. -/
theorem Tracked.whole_step_iff (h : t.Tracked) (hlegal : t.Legal i) :
    (t.step i).Whole ↔ t.Drained i ∧ t.wrAccepts i = false ∧ t.rdAccepts = false := by
  constructor
  · intro hwhole
    obtain ⟨hspent, hwr, hpending⟩ := (h.wr_whole_iff i).mp hwhole.wr
    obtain ⟨hlocked, hrd⟩ := (h.rd_whole_iff hlegal).mp hwhole.ended
    exact ⟨⟨hspent, hpending, hlocked⟩, hwr, hrd⟩
  · intro hidle
    obtain ⟨hdrained, hwr, hrd⟩ := hidle
    have hended := (h.rd_whole_iff hlegal).mpr ⟨hdrained.locked, hrd⟩
    exact
      { wr := (h.wr_whole_iff i).mpr ⟨hdrained.spent, hwr, hdrained.pending⟩
        popped := popped_of_ended (h.transfers_step hlegal) (h.popped_step hlegal) hended
        ended := hended }

/-- The area the PS publishes starts at a slot, after every cycle. -/
theorem Slots.shmem_step (h : t.Slots) (hlegal : t.Legal i) :
    (t.step i).core.regs.sharedMem.toNat % bufferElemMaxSize = 0 := by
  have hregs : (t.step i).core.regs = t.core.regsNext (t.resetCycle i) := rfl
  rw [hregs, ResetCore.regsNext]
  cases hwrite : i.write with
  | none => simpa [resetCycle, hwrite] using h.shmem
  | some access =>
    obtain ⟨reg, value⟩ := access
    have hnext : (t.core.regs.write reg value).sharedMem =
        if reg = RegAddr.shmem then value else t.core.regs.sharedMem := rfl
    simp only [resetCycle, hwrite, hnext]
    split
    · rename_i hreg
      exact hlegal.shmem value (hreg ▸ hwrite)
    · exact h.shmem

/-- The controller works with an area that starts at a slot. -/
theorem Slots.base_step (h : t.Slots) : (t.step i).sharedMemBase.toNat % bufferElemMaxSize = 0 := by
  have hnext : (t.step i).sharedMemBase = if t.core.rstGlobal then t.core.regs.sharedMem else t.sharedMemBase := by
    change (t.core.step (t.resetCycle i)).latched.sharedMemBaseAddress = _
    rw [ResetCore.step]
    cases t.core.rstGlobal <;> rfl
  rw [hnext]
  split
  · exact h.shmem
  · exact h.base

/-- Every cycle leaves the indices and the addresses as they are to be. -/
theorem Slots.step (h : t.Slots) (hlegal : t.Legal i) : (t.step i).Slots where
  wr := h.wr.step (h.legal i)
  shmem := h.shmem_step hlegal
  base := h.base_step
  wrSlot := DmaWriteControl.slotAddr_mod h.base _ _
  rdSlot := DmaReadControl.slotAddr_mod h.base _
  heads := fun idx => CircularBuffer.headIndex_stepRst_lt (h.heads idx)
  tail := CircularBuffer.tailIndex_stepRst_lt h.tail

/-- What holds is kept by a cycle that keeps the transfers whole. -/
theorem Tracked.step (h : t.Tracked) (hlegal : t.Legal i)
    (hwhole : (t.step i).core.rstGlobal = true → (t.step i).Whole)
    (haccepts : t.core.rstGlobal = true → t.rdAccepts = false) : (t.step i).Tracked where
  toSlots := h.toSlots.step hlegal
  transfers := h.transfers_step hlegal
  popped := h.popped_step hlegal
  ready := AxiDmaRd.axiStart_of_ready_step
  locked := h.locked_step hlegal haccepts
  starting := h.starting_step
  whole := hwhole
  wrMark := by
    have hcompleted : (t.step i).wr.completed = t.wr.completed + (t.wr.engine.wlastHs i.slave).toNat :=
      DmaWrRun.completed_step
    have hmark : (t.step i).wrMark = if t.core.rstGlobal then t.wr.jobs.length else t.wrMark := rfl
    have hbefore := h.wrMark
    rw [hcompleted, hmark]
    split
    · rename_i hrst
      rw [← (h.whole hrst).wr]
      exact Nat.le_add_right _ _
    · omega
  rdMark := by
    have hmark : (t.step i).rdMark = if t.core.rstGlobal then t.rdAccepted else t.rdMark := rfl
    have hbefore := h.rdMark
    change (t.step i).rdMark ≤ t.rdPopped + (t.popped i).toNat
    rw [hmark]
    split
    · rename_i hrst
      rw [← (h.whole hrst).popped]
      exact Nat.le_add_right _ _
    · omega

/-- A reset that waits cuts no transfer. -/
theorem Tracked.uncut_of_waits (h : t.Tracked) (hlegal : t.Legal i) (hwaits : t.Waits i) :
    (t.step i).Tracked ∧ t.Uncut i := by
  have hnone (hrst : t.Grants ∨ t.core.rstGlobal = true) : t.wrAccepts i = false ∧ t.rdAccepts = false := by
    refine ⟨wrAccepts_eq_false_iff.mpr (hwaits.wrOffer hrst), ?_⟩
    have hoffer := hwaits.rdOffer hrst
    rw [h.rdAccepts_eq]
    by_contra hboth
    exact hoffer (Bool.and_eq_true_iff.mp (by simpa using hboth))
  have hwhole (hnext : (t.step i).core.rstGlobal = true) : (t.step i).Whole := by
    have hgrants := rstGlobal_step_iff.mp hnext
    exact (h.whole_step_iff hlegal).mpr ⟨hwaits.drained hgrants, hnone (Or.inl hgrants)⟩
  exact ⟨h.step hlegal hwhole fun hrst => (hnone (Or.inr hrst)).2,
    { whole := hwhole
      accepts := fun hrst => hnone (Or.inr hrst)
      pushed := fun _ => h.wrMark
      popped := fun _ => h.rdMark }⟩

/-- A reset that does not wait cuts a transfer. -/
theorem Tracked.waits_of_uncut (h : t.Tracked) (hlegal : t.Legal i) (huncut : t.Uncut i) : t.Waits i := by
  have hgranted (hgrants : t.Grants) : t.Drained i ∧ t.wrAccepts i = false ∧ t.rdAccepts = false :=
    (h.whole_step_iff hlegal).mp (huncut.whole (rstGlobal_step_iff.mpr hgrants))
  have hnone (hrst : t.Grants ∨ t.core.rstGlobal = true) : t.wrAccepts i = false ∧ t.rdAccepts = false := by
    rcases hrst with hgrants | hrst
    · exact (hgranted hgrants).2
    · exact huncut.accepts hrst
  exact
    { drained := fun hgrants => (hgranted hgrants).1
      wrOffer := fun hrst => wrAccepts_eq_false_iff.mp (hnone hrst).1
      rdOffer := fun hrst hoffer => by
        have hrd := (hnone hrst).2
        rw [h.rdAccepts_eq, hoffer.1, hoffer.2] at hrd
        exact absurd hrd (by simp) }

end Cycle

/-- In every run no reset cuts a transfer exactly if the busy flags are low only over engines that are drained, and
the engines are offered no descriptor when the reset is granted nor while it is up. -/
theorem uncut_throughout_iff {inputs : List CutCycle} (hlegal : machine.Legal start inputs) :
    machine.Throughout Uncut start inputs ↔ (machine.restrict Waits).Legal start inputs :=
  Clocked.Machine.throughout_iff Tracked (fun _ _ ht hi hwaits => ht.uncut_of_waits hi hwaits)
    (fun _ _ ht hi hnot huncut => hnot (ht.waits_of_uncut hi huncut)) tracked_start hlegal

instance (t : CutRun) (i : CutCycle) : Decidable (machine.legal t i) :=
  decidable_of_iff
    ((i.write.all fun access => decide (access.1 = RegAddr.shmem → access.2.toNat % bufferElemMaxSize = 0)) = true ∧
      t.rd.Legal i.rd)
    ⟨fun h => ⟨fun value hvalue => by simpa [hvalue] using h.1, h.2⟩,
    fun h => ⟨(Option.all_eq_true _ _).mpr fun access haccess => decide_eq_true fun hreg =>
      h.shmem access.2 (by rw [← hreg]; exact haccess), h.rd⟩⟩

instance (t : CutRun) (i : CutCycle) : Decidable (t.Drained i) :=
  decidable_of_iff (t.wr.engine.Spent ∧ t.wr.engine.pending.length = (t.wr.engine.wHs i.slave).toList.length ∧
    (t.rdCtrl.locked = true → i.rd.tlastHs = true))
    ⟨fun h => ⟨h.1, h.2.1, h.2.2⟩, fun h => ⟨h.spent, h.pending, h.locked⟩⟩

instance (t : CutRun) (i : CutCycle) : Decidable (t.Waits i) :=
  decidable_of_iff ((t.Grants → t.Drained i) ∧
    (t.Grants ∨ t.core.rstGlobal = true →
      ¬ (t.wr.engine.state = .idle ∧ t.wr.engine.descReady = true ∧ t.wrCtrl.valid = true)) ∧
    (t.Grants ∨ t.core.rstGlobal = true → ¬ (t.rd.readDescReady = true ∧ t.rdCtrl.valid = true)))
    ⟨fun h => ⟨h.1, h.2.1, h.2.2⟩, fun h => ⟨h.drained, h.wrOffer, h.rdOffer⟩⟩

instance (t : CutRun) (i : CutCycle) : Decidable ((machine.restrict Waits).legal t i) :=
  inferInstanceAs (Decidable (machine.legal t i ∧ t.Waits i))

/-- A cycle with a beat at the write DMA, on a write channel that is always ready. -/
def offers (axis : Option Beat) : CutCycle :=
  ⟨none, axis, 8, 0, ⟨true, true, true⟩, ⟨false, false, false⟩, false, fun _ => false, false⟩

/-- A cycle with a register write. -/
def writes (reg : RegAddr) (value : BitVec 32) (axis : Option Beat) : CutCycle :=
  { offers axis with write := some (reg, value) }

/-- The PS publishes its area and takes the device out of the reset. -/
def boot : List CutCycle :=
  [writes RegAddr.shmem 0x10000000 none, writes RegAddr.res 1 none, writes RegAddr.res 0 none] ++
    List.replicate 4 (offers none)

/-- A beat of a frame. -/
def beat (tlast : Bool) : Option Beat := some ⟨0, 0xFF, tlast, false⟩

/-- A frame of six beats, from the cycle in which its first one waits. -/
def receives : List CutCycle := List.replicate 8 (offers (beat false)) ++ [offers (beat true)]

/-- The PS resets the device. -/
def resets : List CutCycle := [writes RegAddr.res 1 none, writes RegAddr.res 0 none] ++ List.replicate 4 (offers none)

/-- A reset after a frame was handed over. -/
theorem uncut_received :
    machine.Throughout Uncut start (boot ++ receives ++ List.replicate 4 (offers none) ++ resets) :=
  (uncut_throughout_iff (by decide +kernel)).mpr (by decide +kernel)

/-- The request comes with the first beat of a frame: its descriptor is accepted, and the reset is granted before the
beat is taken. -/
theorem not_uncut : ¬ machine.Always start Uncut := by
  refine Clocked.Machine.not_always_of_run (boot ++ [writes RegAddr.res 1 (beat false), offers (beat false)])
    (offers (beat false)) (by decide +kernel) (by decide +kernel) fun huncut => ?_
  have hwhole := huncut.whole (by decide +kernel)
  exact absurd hwhole.wr (by decide +kernel)

end CutRun

end UdpIpCore
