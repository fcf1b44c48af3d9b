import Mathlib.Data.List.Basic
import UdpIpCore.Rtl.AxiDmaRdRun
import UdpIpCore.Tx.HeaderOrder

/-!
# The stream of the read DMA

The data path of `axi_dma_rd`: every beat that is taken from the slave is passed to an output FIFO,
which drops what it has no room for. The beats are only asked for while the FIFO is less than half
full, so none is dropped, and the slots leave on the stream as they were read, whatever the slave
and the header remover do.
-/

namespace UdpIpCore

/-- The read DMA with its data path, and the data it has taken and given. -/
structure DmaRdStream where
  run : DmaRdRun
  /-- `axis_cmd_last_cycle_offset_reg` and `last_cycle_offset_reg`. -/
  axisCmdLastCycleOffset : ℕ
  lastCycleOffset : ℕ
  /-- The beats between `out_fifo_rd_ptr_reg` and `out_fifo_wr_ptr_reg`. -/
  outFifo : List Beat
  outFifoHalfFull : Bool
  /-- The output register, while `m_axis_read_data_tvalid_reg`. -/
  axisReg : Option Beat
  /-- The data of the beats taken on the R channel. -/
  rdata : List (BitVec 64)
  /-- The beats taken on the stream. -/
  delivered : List Beat

/-- One cycle around the read DMA and its stream. -/
structure RdStreamCycle where
  desc : Option ReadDesc
  arready : Bool
  rvalid : Bool
  /-- `m_axi_rdata`, valid or not. -/
  rdata : BitVec 64
  /-- `m_axis_read_data_tready`. -/
  axisReady : Bool

namespace DmaRdStream

/-- After the power-on reset. -/
def start : DmaRdStream := ⟨.start, 0, 0, [], false, none, [], []⟩

/-- What the rest of the DMA sees of a cycle. -/
def cycle (t : DmaRdStream) (i : RdStreamCycle) : DmaRdCycle := ⟨i.desc, i.arready, i.rvalid, !t.outFifoHalfFull⟩

/-- `m_axis_read_data_tkeep_int`. -/
def tkeepInt (t : DmaRdStream) : BitVec 8 :=
  if t.run.engine.outputLastCycle && decide (0 < t.lastCycleOffset) then 0xFF >>> (8 - t.lastCycleOffset) else 0xFF

/-- The beat offered to the output FIFO, while `m_axis_read_data_tvalid_int`. -/
def axisInt (t : DmaRdStream) (i : RdStreamCycle) : Option Beat :=
  if t.run.engine.transfers (t.cycle i) then some ⟨i.rdata, t.tkeepInt, t.run.engine.outputLastCycle, false⟩ else none

/-- The output register takes the next beat of the FIFO. -/
def shifts (t : DmaRdStream) (i : RdStreamCycle) : Bool := decide (t.outFifo ≠ []) && (t.axisReg.isNone || i.axisReady)

/-- One clock edge. -/
def step (t : DmaRdStream) (i : RdStreamCycle) : DmaRdStream where
  run := t.run.step (t.cycle i)
  axisCmdLastCycleOffset :=
    ((t.run.engine.accepts (t.cycle i)).map fun desc => desc.len.toNat % 8).getD t.axisCmdLastCycleOffset
  lastCycleOffset := if t.run.engine.axisRead then t.lastCycleOffset else t.axisCmdLastCycleOffset
  -- a full FIFO drops the beat
  outFifo :=
    (if t.shifts i then t.outFifo.tail else t.outFifo) ++
      if t.outFifo.length < 32 then (t.axisInt i).toList else []
  outFifoHalfFull := decide (16 ≤ t.outFifo.length)
  axisReg := if t.shifts i then t.outFifo.head? else if i.axisReady then none else t.axisReg
  rdata := t.rdata ++ if t.run.engine.rHs (t.cycle i) then [i.rdata] else []
  delivered := t.delivered ++ if i.axisReady then t.axisReg.toList else []

/-- The descriptors are for slots, and the slave delivers only what is due. -/
def machine : Clocked.Machine DmaRdStream RdStreamCycle where
  step := step
  legal := fun t i => t.run.Legal (t.cycle i)

/-- The beats of the slots whose words were read: all bytes are kept, and the last word of a slot ends its frame. -/
def slotBeats (rdata : List (BitVec 64)) : List Beat :=
  rdata.mapIdx fun m word => ⟨word, 0xFF, decide ((m + 1) % TxSlot.beats = 0), false⟩

/-- The stream so far and the beats under way are those of the words that were read. -/
def Streams (t : DmaRdStream) : Prop := t.delivered ++ t.axisReg.toList ++ t.outFifo = slotBeats t.rdata

/-- The FIFO is never more than half full, but for the beats that were asked for before. -/
structure Room (t : DmaRdStream) : Prop where
  fifo : t.outFifo.length ≤ 18
  halfFull : t.outFifoHalfFull = false → t.outFifo.length ≤ 16
  rready : t.run.engine.rready = true → t.outFifo.length ≤ 17

/-- What is known in every state. -/
structure Inv (t : DmaRdStream) : Prop where
  tracked : t.run.Tracked
  room : t.Room
  count : ∃ k, t.run.Progress k ∧ t.rdata.length = TxSlot.beats * t.run.finished + k
  cmdOffset : t.axisCmdLastCycleOffset = 0
  offset : t.lastCycleOffset = 0
  streams : t.Streams

/-- After reset nothing was read. -/
theorem inv_start : start.Inv where
  tracked := DmaRdRun.tracked_start
  room := ⟨by decide, by decide, by decide⟩
  count := ⟨0, ⟨by simp [start, DmaRdRun.start, AxiDmaRdBursts.reset], fun _ => rfl, ⟨0, rfl⟩, rfl⟩, rfl⟩
  cmdOffset := rfl
  offset := rfl
  streams := rfl

variable {t : DmaRdStream} {i : RdStreamCycle}

/-- One more word was read. -/
theorem slotBeats_append (rdata : List (BitVec 64)) (word : BitVec 64) : slotBeats (rdata ++ [word]) =
    slotBeats rdata ++ [⟨word, 0xFF, decide ((rdata.length + 1) % TxSlot.beats = 0), false⟩] := by
  simp [slotBeats, List.mapIdx_append]

/-- Every beat that is passed on was taken from the slave in the same cycle. -/
theorem Inv.transfers_eq (h : t.Inv) : t.run.engine.transfers (t.cycle i) = t.run.engine.rHs (t.cycle i) := by
  obtain ⟨k, hp, -⟩ := h.count
  rw [AxiDmaRdBursts.transfers]
  cases hread : t.run.engine.axisRead with
  | true => rw [(hp.busy hread).inputActive, Bool.true_and, Bool.not_true, Bool.or_false]
  | false =>
    have hready : t.run.engine.rready = false := by
      rw [← Bool.not_eq_true]
      exact fun hr => absurd (h.tracked.ready hr) (by simp [hread])
    rw [AxiDmaRdBursts.rHs, hready, Bool.false_and, Bool.false_and]

/-- The words that were read are those of the slots that ended and of the one that is read. -/
theorem Inv.count_step (h : t.Inv) (hlegal : t.run.Legal (t.cycle i)) :
    ∃ k, (t.step i).run.Progress k ∧ (t.step i).rdata.length = TxSlot.beats * (t.step i).run.finished + k := by
  obtain ⟨k, hp, hcount⟩ := h.count
  have hrdata : (t.step i).rdata.length = t.rdata.length + (t.run.engine.rHs (t.cycle i)).toNat := by
    cases hrHs : t.run.engine.rHs (t.cycle i) <;> simp [step, hrHs]
  have hfinished : (t.step i).run.finished = t.run.finished + (t.run.engine.finishes (t.cycle i)).toNat := rfl
  have hends : t.run.engine.finishes (t.cycle i) = (t.run.engine.rHs (t.cycle i) && t.run.engine.outputLastCycle) := by
    rw [AxiDmaRdBursts.finishes, h.transfers_eq]
  cases hread : t.run.engine.axisRead with
  | false =>
    obtain ⟨hnext, -⟩ := DmaRdRun.progress_of_idle h.tracked hp hread (i := t.cycle i)
    have hnone : t.run.engine.rHs (t.cycle i) = false := by
      rw [← h.transfers_eq, AxiDmaRdBursts.transfers, hread, Bool.false_and]
    have hk := hp.idle hread
    refine ⟨0, hnext, ?_⟩
    rw [hrdata, hfinished, hends, hnone, hcount, hk]
    rfl
  | true =>
    cases hrHs : t.run.engine.rHs (t.cycle i) with
    | false =>
      refine ⟨k, (DmaRdRun.progress_of_wait h.tracked hp hread hrHs).1, ?_⟩
      rw [hrdata, hfinished, hends, hrHs, hcount]
      rfl
    | true =>
      have hne : t.run.due ≠ [] := hlegal.rvalid (Bool.and_eq_true_iff.mp hrHs).2
      have hbusy := hp.busy hread
      have hfits := hbusy.fits
      rw [hrHs, Bool.true_and, hbusy.lastCycle] at hends
      by_cases hlast : k = 255
      · subst hlast
        refine ⟨0, (DmaRdRun.progress_of_last h.tracked hp hread hrHs).1, ?_⟩
        rw [hrdata, hfinished, hends, hrHs, hcount]
        simp only [TxSlot.beats, decide_true, Bool.toNat_true]
        omega
      · refine ⟨k + 1, (DmaRdRun.progress_of_beat h.tracked hp hread hrHs hne (by omega)).1, ?_⟩
        rw [hrdata, hfinished, hends, hrHs, hcount, decide_eq_false hlast]
        simp only [TxSlot.beats, Bool.toNat_true, Bool.toNat_false]
        omega

/-- The beat offered to the FIFO is that of the word that is read. -/
theorem Inv.slotBeats_step (h : t.Inv) : slotBeats (t.step i).rdata = slotBeats t.rdata ++ (t.axisInt i).toList := by
  obtain ⟨k, hp, hcount⟩ := h.count
  have hrdata : (t.step i).rdata = t.rdata ++ if t.run.engine.rHs (t.cycle i) then [i.rdata] else [] := rfl
  rw [hrdata, axisInt, h.transfers_eq]
  cases hrHs : t.run.engine.rHs (t.cycle i) with
  | false => simp
  | true =>
    have hread : t.run.engine.axisRead = true := h.tracked.ready (Bool.and_eq_true_iff.mp hrHs).1
    have hbusy := hp.busy hread
    have hfits := hbusy.fits
    have hlast : decide ((t.rdata.length + 1) % TxSlot.beats = 0) = t.run.engine.outputLastCycle := by
      rw [hbusy.lastCycle, hcount, decide_eq_decide]
      simp only [TxSlot.beats]
      omega
    have hkeep : t.tkeepInt = 0xFF := by simp [tkeepInt, h.offset]
    rw [if_pos rfl, if_pos rfl, slotBeats_append, hlast, hkeep, Option.toList_some]

/-- The FIFO keeps its room. -/
theorem Inv.room_step (h : t.Inv) : (t.step i).Room := by
  have hroom := h.room
  have hpushed : ((t.axisInt i).toList).length = (t.run.engine.rHs (t.cycle i)).toNat := by
    rw [axisInt, h.transfers_eq]
    cases t.run.engine.rHs (t.cycle i) <;> rfl
  have hkept : (if t.shifts i then t.outFifo.tail else t.outFifo).length ≤ t.outFifo.length := by
    split
    · rw [List.length_tail]
      exact Nat.sub_le _ _
    · exact Nat.le_refl _
  have hfifo : (t.step i).outFifo.length ≤ t.outFifo.length + (t.run.engine.rHs (t.cycle i)).toNat := by
    have hlength : (t.step i).outFifo.length = (if t.shifts i then t.outFifo.tail else t.outFifo).length +
        (if t.outFifo.length < 32 then (t.axisInt i).toList else []).length := List.length_append
    have hnew : (if t.outFifo.length < 32 then (t.axisInt i).toList else []).length ≤
        (t.run.engine.rHs (t.cycle i)).toNat := by
      rw [← hpushed]
      split
      · exact Nat.le_refl _
      · exact Nat.zero_le _
    omega
  have hle := Bool.toNat_le (t.run.engine.rHs (t.cycle i))
  have hasked : t.run.engine.rHs (t.cycle i) = true → t.outFifo.length ≤ 17 := fun hrHs =>
    hroom.rready (Bool.and_eq_true_iff.mp hrHs).1
  refine ⟨?_, fun hhalf => ?_, fun hrready => ?_⟩
  · cases hrHs : t.run.engine.rHs (t.cycle i) with
    | false =>
      rw [hrHs] at hfifo
      exact Nat.le_trans hfifo hroom.fifo
    | true =>
      have hroom := hasked hrHs
      omega
  · have hbelow : ¬ 16 ≤ t.outFifo.length := of_decide_eq_false hhalf
    omega
  · have hready : t.outFifoHalfFull = false := by
      have hnext : (t.step i).run.engine.rready = if t.run.engine.axisRead then
          if t.run.engine.finishes (t.cycle i) then false
          else !t.outFifoHalfFull && t.run.engine.inputActiveNext (t.cycle i)
        else t.run.engine.axisCmdValid && !t.outFifoHalfFull := rfl
      rw [hnext] at hrready
      by_contra hfull
      rw [Bool.not_eq_false] at hfull
      simp [hfull] at hrready
    have hbelow := hroom.halfFull hready
    omega

/-- Nothing is lost on the way from the slave to the stream. -/
theorem Inv.streams_step (h : t.Inv) : (t.step i).Streams := by
  have hfits : t.outFifo.length < 32 := Nat.lt_of_le_of_lt h.room.fifo (by decide)
  have hmoved : (t.step i).delivered ++ (t.step i).axisReg.toList ++ (if t.shifts i then t.outFifo.tail else t.outFifo) =
      t.delivered ++ t.axisReg.toList ++ t.outFifo := by
    cases hfifo : t.outFifo with
    | nil => cases hreg : t.axisReg <;> cases hready : i.axisReady <;> simp [step, shifts, hfifo, hreg, hready]
    | cons b rest => cases hreg : t.axisReg <;> cases hready : i.axisReady <;> simp [step, shifts, hfifo, hreg, hready]
  have hnext : (t.step i).outFifo = (if t.shifts i then t.outFifo.tail else t.outFifo) ++ (t.axisInt i).toList := by
    show _ ++ (if t.outFifo.length < 32 then (t.axisInt i).toList else []) = _
    rw [if_pos hfits]
  rw [Streams, h.slotBeats_step, hnext, ← List.append_assoc, hmoved, h.streams]

/-- Every cycle keeps what is known. -/
theorem Inv.step (h : t.Inv) (hlegal : t.run.Legal (t.cycle i)) : (t.step i).Inv where
  tracked := h.tracked.step hlegal
  room := h.room_step
  count := h.count_step hlegal
  cmdOffset := by
    have hnext : (t.step i).axisCmdLastCycleOffset =
        ((t.run.engine.accepts (t.cycle i)).map fun desc => desc.len.toNat % 8).getD t.axisCmdLastCycleOffset := rfl
    rw [hnext]
    cases haccepts : t.run.engine.accepts (t.cycle i) with
    | none => exact h.cmdOffset
    | some desc =>
      rw [Option.map_some, Option.getD_some, (hlegal.desc desc haccepts).2]
      rfl
  offset := by
    show (if t.run.engine.axisRead then t.lastCycleOffset else t.axisCmdLastCycleOffset) = 0
    rw [h.offset, h.cmdOffset, ite_self]
  streams := h.streams_step

/-- What is known holds in every run. -/
theorem inv_of_reachable {t : DmaRdStream} (h : machine.Reachable start t) : t.Inv :=
  Clocked.Machine.invariant inv_start (fun _ _ ht hi => ht.step hi) h

/-- In every run the words that were read leave on the stream, in order and cut into slots, and the FIFO has room. -/
theorem streams_of_reachable {t : DmaRdStream} (h : machine.Reachable start t) : t.Streams ∧ t.Room :=
  ⟨(inv_of_reachable h).streams, (inv_of_reachable h).room⟩

section Witness

instance (s : DmaRdRun) (i : DmaRdCycle) : Decidable (s.Legal i) :=
  decidable_of_iff ((∀ desc ∈ (s.engine.accepts i).toList, desc.addr.toNat % bufferElemMaxSize = 0 ∧ desc.len = 2048) ∧
      (i.rvalid = true → s.due ≠ []))
    ⟨fun h => ⟨fun desc hdesc => h.1 desc (Option.mem_toList.mpr hdesc), h.2⟩,
      fun h => ⟨fun desc hdesc => h.desc desc (Option.mem_toList.mp hdesc), h.rvalid⟩⟩

instance (t : DmaRdStream) (i : RdStreamCycle) : Decidable (machine.legal t i) :=
  inferInstanceAs (Decidable (t.run.Legal (t.cycle i)))

/-- A slot is asked for, and the slave answers before the stream is taken. -/
def oneSlot : List RdStreamCycle :=
  List.replicate 2 ⟨some ⟨0x800, 2048⟩, true, false, 0, false⟩ ++ List.replicate 3 ⟨none, true, false, 0, false⟩ ++
    List.replicate 40 ⟨none, true, true, 7, false⟩

/-- The FIFO fills up to its limit while nothing is taken. -/
theorem streams_oneSlot : (machine.run start oneSlot).outFifo.length = 18 ∧ (machine.run start oneSlot).Streams ∧
    (machine.run start oneSlot).Room :=
  ⟨by decide +kernel, streams_of_reachable ⟨oneSlot, by decide +kernel, rfl⟩⟩

end Witness

end DmaRdStream

end UdpIpCore
