import UdpIpCore.Progress
import UdpIpCore.Rtl.AxiDmaRdStream

/-!
# The progress of the read DMA

With a slave that delivers what is due and a stream that is always taken, every slot that was asked
for leaves the read DMA in time. A beat comes in every cycle, but for the cycles in which the output
FIFO gets below its limit and for three between two slots.
-/

namespace UdpIpCore

namespace DmaRdStream

/-- The slave answers at once, and the stream is taken. -/
structure Prompt (t : DmaRdStream) (i : RdStreamCycle) : Prop where
  arready : i.arready = true
  rvalid : i.rvalid = decide (t.run.due ≠ [])
  axisReady : i.axisReady = true

/-- The read DMA in such surroundings. -/
def eager : Clocked.Machine DmaRdStream RdStreamCycle := machine.restrict Prompt

/-- The FIFO was half full in the last cycle. -/
def Lagging (t : DmaRdStream) : Prop := t.outFifoHalfFull = true → 15 ≤ t.outFifo.length

/-- The cycles in which the FIFO holds up the next beat. -/
def stall (t : DmaRdStream) : ℕ :=
  if 16 ≤ t.outFifo.length ∨ t.outFifoHalfFull = true then t.outFifo.length - 13 else (!t.run.engine.rready).toNat

/-- The cycles until the address of a burst is taken. -/
def asking (t : DmaRdStream) : ℕ := if t.run.due ≠ [] then 0 else if t.run.engine.arvalid then 1 else 2

/-- The cycles in which the first `n` slots are read. -/
def readLeft (n : ℕ) (t : DmaRdStream) : ℕ :=
  TxSlot.beats * n - t.rdata.length + 3 * (n - t.run.finished) + t.stall + t.asking

/-- What is known while the first `n` slots are read. -/
structure Reads (n : ℕ) (t : DmaRdStream) : Prop where
  inv : t.Inv
  lagging : t.Lagging
  asked : n ≤ t.run.descs.length

variable {t : DmaRdStream} {i : RdStreamCycle} {n : ℕ}

/-- The FIFO after a cycle. -/
theorem length_outFifo_step (h : t.Inv) (hready : i.axisReady = true) :
    (t.step i).outFifo.length = t.outFifo.length - 1 + (t.run.engine.rHs (t.cycle i)).toNat := by
  have hfits : t.outFifo.length < 32 := Nat.lt_of_le_of_lt h.room.fifo (by decide)
  have hpushed : ((t.axisInt i).toList).length = (t.run.engine.rHs (t.cycle i)).toNat := by
    rw [axisInt, h.transfers_eq]
    cases t.run.engine.rHs (t.cycle i) <;> rfl
  have hkept : (if t.shifts i then t.outFifo.tail else t.outFifo).length = t.outFifo.length - 1 := by
    rw [shifts, hready, Bool.or_true, Bool.and_true]
    cases t.outFifo <;> rfl
  show (_ ++ (if t.outFifo.length < 32 then (t.axisInt i).toList else [])).length = _
  rw [if_pos hfits, List.length_append, hkept, hpushed]

/-- The FIFO loses one beat in a cycle at most. -/
theorem lagging_step (t : DmaRdStream) (i : RdStreamCycle) : (t.step i).Lagging := by
  intro hhalf
  have hfull : 16 ≤ t.outFifo.length := of_decide_eq_true hhalf
  have hlength : (t.step i).outFifo.length = (if t.shifts i then t.outFifo.tail else t.outFifo).length +
      (if t.outFifo.length < 32 then (t.axisInt i).toList else []).length := List.length_append
  have hkept : t.outFifo.length - 1 ≤ (if t.shifts i then t.outFifo.tail else t.outFifo).length := by
    split
    · rw [List.length_tail]
    · exact Nat.sub_le _ _
  omega

/-- The descriptors stay. -/
theorem Reads.step (h : t.Reads n) (hlegal : t.run.Legal (t.cycle i)) : (t.step i).Reads n where
  inv := h.inv.step hlegal
  lagging := lagging_step t i
  asked := by
    show n ≤ (t.run.descs ++ _).length
    rw [List.length_append]
    exact Nat.le_add_right_of_le h.asked

/-- While some of them are to be read, a transfer runs or is about to. -/
theorem Reads.outstanding (h : t.Reads n) (hleft : t.rdata.length < TxSlot.beats * n) :
    t.run.engine.axisRead = true ∨ t.run.engine.axisCmdValid = true := by
  obtain ⟨k, -, hcount⟩ := h.inv.count
  have haccepted := h.inv.tracked.accepted
  have hasked := h.asked
  by_contra hnone
  rw [not_or, Bool.not_eq_true, Bool.not_eq_true] at hnone
  rw [hnone.1, hnone.2] at haccepted
  simp only [TxSlot.beats, Bool.toNat_false] at hleft hcount haccepted
  omega

/-- Then something is due, or its address is about to be taken. -/
theorem Reads.asks (h : t.Reads n) (hleft : t.rdata.length < TxSlot.beats * n) (hdue : t.run.due = []) :
    t.run.engine.arvalid = true ∨ t.run.engine.axiStart = true := by
  obtain ⟨k, hp, -⟩ := h.inv.count
  have hpopped := hp.popped
  have horder := congrArg List.length h.inv.tracked.order
  have haccepted := h.inv.tracked.accepted
  have hfinished := h.inv.tracked.finished
  by_contra hnone
  rw [not_or, Bool.not_eq_true, Bool.not_eq_true] at hnone
  have hasked : DmaRdRun.asked t.run.engine = [] := by rw [DmaRdRun.asked, hnone.1, hnone.2]; rfl
  rw [hasked, List.append_nil, List.length_map] at horder
  rw [hdue, List.length_nil] at hpopped
  rcases h.outstanding hleft with hread | hcmd
  · rw [hread, Bool.toNat_true] at haccepted
    omega
  · rw [hcmd, Bool.toNat_true] at haccepted
    omega

/-- `m_axi_rready` after a cycle. -/
theorem rready_step (t : DmaRdStream) (i : RdStreamCycle) : (t.step i).run.engine.rready =
    if t.run.engine.axisRead then
      if t.run.engine.finishes (t.cycle i) then false
      else !t.outFifoHalfFull && t.run.engine.inputActiveNext (t.cycle i)
    else t.run.engine.axisCmdValid && !t.outFifoHalfFull := rfl

/-- What is due after a cycle. -/
theorem due_step (t : DmaRdStream) (i : RdStreamCycle) : (t.step i).run.due =
    (if t.run.engine.rHs (t.cycle i) then DmaRdRun.delivered t.run.due else t.run.due) ++
      if t.run.engine.arHs (t.cycle i) then [t.run.engine.arlen + 1] else [] := rfl

/-- No address is waited for where something is due. -/
theorem asking_of_due (h : t.run.due ≠ []) : t.asking = 0 := if_pos h

theorem asking_le (t : DmaRdStream) : t.asking ≤ 2 := by
  rw [asking]
  split
  · exact Nat.zero_le _
  · split <;> decide

/-- In a cycle without a beat the address comes nearer. -/
theorem Reads.asking_step (h : t.Reads n) (hleft : t.rdata.length < TxSlot.beats * n) (hi : t.Prompt i)
    (hnone : t.run.engine.rHs (t.cycle i) = false) :
    (t.step i).asking ≤ t.asking ∧ (t.run.due = [] → (t.step i).asking < t.asking) := by
  have hdue := due_step t i
  rw [hnone, if_neg Bool.false_ne_true] at hdue
  by_cases hempty : t.run.due = []
  · have hless : (t.step i).asking < t.asking := by
      cases har : t.run.engine.arvalid with
      | true =>
        have harHs : t.run.engine.arHs (t.cycle i) = true := by
          rw [AxiDmaRdBursts.arHs, har]
          exact hi.arready
        rw [harHs, if_pos rfl] at hdue
        rw [asking_of_due (by rw [hdue]; simp), asking, if_neg (not_not.mpr hempty), if_pos har]
        decide
      | false =>
        have hstart : t.run.engine.axiStart = true := (h.asks hleft hempty).resolve_left (by rw [har]; decide)
        have hrequests : t.run.engine.requests = true := by rw [AxiDmaRdBursts.requests, hstart, har]; rfl
        have hnext : (t.step i).run.engine.arvalid = true := by
          show (t.run.engine.requests || _) = true
          rw [hrequests]
          rfl
        have hnow : t.asking = 2 := by rw [asking, if_neg (not_not.mpr hempty), if_neg (by rw [har]; decide)]
        rw [hnow, asking, if_pos hnext]
        split <;> decide
    exact ⟨Nat.le_of_lt hless, fun _ => hless⟩
  · refine ⟨?_, fun hdue => absurd hdue hempty⟩
    rw [asking_of_due (by rw [hdue]; simp [hempty])]
    exact Nat.zero_le _

/-- In a cycle without a beat the FIFO gets nearer to its limit, or the next beat may come. -/
theorem Reads.stall_step (h : t.Reads n) (hleft : t.rdata.length < TxSlot.beats * n) (hi : t.Prompt i)
    (hnone : t.run.engine.rHs (t.cycle i) = false) :
    (t.step i).stall ≤ t.stall ∧ (t.run.engine.rready = false → (t.step i).stall < t.stall) := by
  have hlength := length_outFifo_step h.inv hi.axisReady
  rw [hnone, Bool.toNat_false, Nat.add_zero] at hlength
  have hhalf : (t.step i).outFifoHalfFull = decide (16 ≤ t.outFifo.length) := rfl
  have hready : t.outFifoHalfFull = false → (t.step i).run.engine.rready = true := by
    intro hbelow
    obtain ⟨k, hp, -⟩ := h.inv.count
    rw [rready_step, hbelow]
    cases hread : t.run.engine.axisRead with
    | true =>
      have htransfers : t.run.engine.transfers (t.cycle i) = false := h.inv.transfers_eq.trans hnone
      have hinput : t.run.engine.inputActiveNext (t.cycle i) = true := by
        rw [AxiDmaRdBursts.inputActiveNext, htransfers]
        exact (hp.busy hread).inputActive
      rw [if_pos rfl, AxiDmaRdBursts.finishes, htransfers, hinput]
      rfl
    | false =>
      have hcmd : t.run.engine.axisCmdValid = true := (h.outstanding hleft).resolve_left (by rw [hread]; decide)
      rw [if_neg Bool.false_ne_true, hcmd]
      rfl
  by_cases hfull : 16 ≤ t.outFifo.length ∨ t.outFifoHalfFull = true
  · have hmany : 15 ≤ t.outFifo.length := by
      rcases hfull with hfull | hfull
      · omega
      · exact h.lagging hfull
    have hless : (t.step i).stall < t.stall := by
      have hbit := Bool.toNat_le (!(t.step i).run.engine.rready)
      rw [stall, stall, if_pos hfull, hlength]
      split <;> omega
    exact ⟨Nat.le_of_lt hless, fun _ => hless⟩
  · rw [not_or, Bool.not_eq_true] at hfull
    have hnext : (t.step i).stall = 0 := by
      rw [stall, hlength, hhalf, hready hfull.2, if_neg]
      · rfl
      · rw [decide_eq_true_eq]
        omega
    rw [hnext]
    refine ⟨Nat.zero_le _, fun hwait => ?_⟩
    rw [stall, if_neg (by rw [hfull.2]; simpa using hfull.1), hwait]
    decide

/-- So the next beat comes nearer. -/
theorem Reads.wait_step (h : t.Reads n) (hleft : t.rdata.length < TxSlot.beats * n) (hi : t.Prompt i)
    (hnone : t.run.engine.rHs (t.cycle i) = false) : readLeft n (t.step i) < readLeft n t := by
  obtain ⟨hstall, hready⟩ := h.stall_step hleft hi hnone
  obtain ⟨hasking, hdue⟩ := h.asking_step hleft hi hnone
  have hrdata : (t.step i).rdata = t.rdata := by
    show t.rdata ++ _ = _
    rw [hnone, if_neg Bool.false_ne_true, List.append_nil]
  have hfinished : (t.step i).run.finished = t.run.finished := by
    show t.run.finished + _ = _
    rw [AxiDmaRdBursts.finishes, h.inv.transfers_eq, hnone]
    rfl
  have hless : (t.step i).stall < t.stall ∨ (t.step i).asking < t.asking := by
    rw [AxiDmaRdBursts.rHs, Bool.and_eq_false_iff] at hnone
    rcases hnone with hwait | hidle
    · exact Or.inl (hready hwait)
    · have hrvalid := hi.rvalid
      change i.rvalid = false at hidle
      rw [hidle] at hrvalid
      exact Or.inr (hdue (by simpa using hrvalid.symm))
  rw [readLeft, readLeft, hrdata, hfinished]
  omega

/-- A beat does not fill the FIFO any more than it is. -/
theorem stall_beat (h : t.Inv) (hlagging : t.Lagging) (hready : i.axisReady = true)
    (hbeat : t.run.engine.rHs (t.cycle i) = true) :
    (t.step i).stall ≤ t.stall + (t.run.engine.finishes (t.cycle i)).toNat := by
  have hlength := length_outFifo_step h hready
  rw [hbeat, Bool.toNat_true] at hlength
  have hhalf : (t.step i).outFifoHalfFull = decide (16 ≤ t.outFifo.length) := rfl
  obtain ⟨k, hp, -⟩ := h.count
  have hread : t.run.engine.axisRead = true := h.tracked.ready (Bool.and_eq_true_iff.mp hbeat).1
  by_cases hfull : 16 ≤ t.outFifo.length
  · rw [stall, stall, if_pos (Or.inl (by omega)), if_pos (Or.inl hfull)]
    omega
  · have hnext : (t.step i).stall = (!(t.step i).run.engine.rready).toNat := by
      rw [stall, if_neg]
      rw [hhalf, decide_eq_true_eq]
      omega
    rw [hnext, rready_step, if_pos hread]
    cases hlast : t.run.engine.finishes (t.cycle i) with
    | true => exact Nat.le_add_left _ _
    | false =>
      have hbusy := hp.busy hread
      have hinput := hbusy.input
      have htransfers : t.run.engine.transfers (t.cycle i) = true := h.transfers_eq.trans hbeat
      have hmore : k ≠ 255 := by
        rw [AxiDmaRdBursts.finishes, htransfers, hbusy.lastCycle, Bool.true_and] at hlast
        exact of_decide_eq_false hlast
      have hfits := hbusy.fits
      have hactive : t.run.engine.inputActiveNext (t.cycle i) = true := by
        rw [AxiDmaRdBursts.inputActiveNext, htransfers, hbusy.inputActive, Bool.true_and, if_pos rfl]
        exact decide_eq_true (by omega)
      rw [hactive, if_neg Bool.false_ne_true, Bool.and_true, Bool.not_not]
      cases hbelow : t.outFifoHalfFull with
      | false => exact Nat.zero_le _
      | true =>
        have hmany := hlagging hbelow
        rw [stall, if_pos (Or.inr hbelow), Bool.toNat_true]
        omega

/-- Nor is an address waited for before the end of the slot. -/
theorem asking_beat (h : t.Inv) (hlegal : t.run.Legal (t.cycle i)) (hbeat : t.run.engine.rHs (t.cycle i) = true) :
    (t.step i).asking ≤ 2 * (t.run.engine.finishes (t.cycle i)).toNat := by
  obtain ⟨k, hp, -⟩ := h.count
  have hread : t.run.engine.axisRead = true := h.tracked.ready (Bool.and_eq_true_iff.mp hbeat).1
  have hbusy := hp.busy hread
  have hfits := hbusy.fits
  have hlast : t.run.engine.finishes (t.cycle i) = decide (k = 255) := by
    rw [AxiDmaRdBursts.finishes, h.transfers_eq, hbeat, hbusy.lastCycle, Bool.true_and]
  by_cases hk : k = 255
  · rw [hlast, decide_eq_true hk]
    exact asking_le _
  · obtain ⟨m, hdelivered, -⟩ := DmaRdRun.delivered_of_progress hp (hlegal.rvalid (Bool.and_eq_true_iff.mp hbeat).2) (by omega)
    have hdue := due_step t i
    rw [hbeat, if_pos rfl, hdelivered] at hdue
    rw [asking_of_due (by rw [hdue]; simp)]
    exact Nat.zero_le _

/-- A beat is one of those to come. -/
theorem Reads.beat_step (h : t.Reads n) (hleft : t.rdata.length < TxSlot.beats * n) (hlegal : t.run.Legal (t.cycle i))
    (hi : t.Prompt i) (hbeat : t.run.engine.rHs (t.cycle i) = true) : readLeft n (t.step i) < readLeft n t := by
  have hstall := stall_beat h.inv h.lagging hi.axisReady hbeat
  have hasking := asking_beat h.inv hlegal hbeat
  have hrdata : (t.step i).rdata.length = t.rdata.length + 1 := by
    show (t.rdata ++ _).length = _
    rw [hbeat, if_pos rfl, List.length_append, List.length_singleton]
  have hfinished : (t.step i).run.finished = t.run.finished + (t.run.engine.finishes (t.cycle i)).toNat := rfl
  have hbelow : t.run.finished < n := by
    obtain ⟨k, -, hcount⟩ := h.inv.count
    simp only [TxSlot.beats] at hleft hcount
    omega
  rw [readLeft, readLeft, hrdata, hfinished]
  cases hlast : t.run.engine.finishes (t.cycle i) with
  | false =>
    rw [hlast, Bool.toNat_false] at hstall hasking
    rw [Bool.toNat_false]
    omega
  | true =>
    rw [hlast, Bool.toNat_true] at hstall hasking
    rw [Bool.toNat_true]
    omega

/-- The work that is left is that of two slots at most. -/
theorem Reads.readLeft_le (h : t.Reads n) (hn : n = t.run.descs.length) : readLeft n t ≤ 525 := by
  obtain ⟨k, -, hcount⟩ := h.inv.count
  have haccepted := h.inv.tracked.accepted
  have hread := Bool.toNat_le t.run.engine.axisRead
  have hcmd := Bool.toNat_le t.run.engine.axisCmdValid
  have hasking := t.asking_le
  have hfifo := h.inv.room.fifo
  have hstall : t.stall ≤ 5 := by
    have hready := Bool.toNat_le (!t.run.engine.rready)
    rw [stall]
    split <;> omega
  simp only [readLeft, TxSlot.beats] at hcount ⊢
  omega

/-- The slots that were asked for are read. -/
theorem reads_within (n : ℕ) : eager.LeadsTo 525 (fun t => t.Reads n ∧ n = t.run.descs.length)
    fun t => t.Reads n ∧ TxSlot.beats * n ≤ t.rdata.length := by
  have hmeasure := Clocked.Machine.LeadsTo.of_measure (m := eager) (n := 525) (P := Reads n)
    (Q := fun t => t.Reads n ∧ TxSlot.beats * n ≤ t.rdata.length) (readLeft n) ?_ ?_
  · exact hmeasure.mono (Nat.le_refl _) (fun t ht => ⟨ht.1, ht.1.readLeft_le ht.2⟩) fun _ h => h
  · intro t ht hzero
    rw [readLeft] at hzero
    exact ⟨ht, by omega⟩
  · rintro t i ht hnot ⟨hlegal, hi⟩
    have hleft : t.rdata.length < TxSlot.beats * n := Nat.lt_of_not_le fun hle => hnot ⟨ht, hle⟩
    refine ⟨ht.step hlegal, ?_⟩
    cases hbeat : t.run.engine.rHs (t.cycle i) with
    | false => exact ht.wait_step hleft hi hbeat
    | true => exact ht.beat_step hleft hlegal hi hbeat

/-- The cycles in which the first `n` slots leave the FIFO. -/
def sendLeft (n : ℕ) (t : DmaRdStream) : ℕ :=
  if TxSlot.beats * n ≤ t.delivered.length then 0 else TxSlot.beats * n - t.delivered.length + t.axisReg.isNone.toNat

/-- The beats that were read are on the stream, in the register or in the FIFO. -/
theorem length_rdata (h : t.Inv) : t.rdata.length = t.delivered.length + t.axisReg.toList.length + t.outFifo.length := by
  have hstreams := congrArg List.length h.streams
  rw [slotBeats, List.length_mapIdx, List.length_append, List.length_append] at hstreams
  exact hstreams.symm

/-- The register and the FIFO are emptied in a few cycles. -/
theorem sendLeft_le (h : t.Inv) (hread : TxSlot.beats * n ≤ t.rdata.length) : sendLeft n t ≤ 19 := by
  have hlength := length_rdata h
  have hfifo := h.room.fifo
  rw [sendLeft]
  split
  · exact Nat.zero_le _
  · cases hreg : t.axisReg with
    | none =>
      rw [hreg, Option.toList_none, List.length_nil] at hlength
      rw [Option.isNone_none, Bool.toNat_true]
      omega
    | some b =>
      rw [hreg, Option.toList_some, List.length_singleton] at hlength
      rw [Option.isNone_some, Bool.toNat_false]
      omega

/-- A beat leaves in every cycle, once the register is filled. -/
theorem sendLeft_step (h : t.Inv) (hready : i.axisReady = true) (hread : TxSlot.beats * n ≤ t.rdata.length)
    (hleft : ¬ TxSlot.beats * n ≤ t.delivered.length) : sendLeft n (t.step i) < sendLeft n t := by
  have hlength := length_rdata h
  have hdelivered : (t.step i).delivered.length = t.delivered.length + t.axisReg.toList.length := by
    show (t.delivered ++ if i.axisReady then t.axisReg.toList else []).length = _
    rw [hready, if_pos rfl, List.length_append]
  have hreg : (t.step i).axisReg = t.outFifo.head? := by
    show (if t.shifts i then t.outFifo.head? else if i.axisReady then none else t.axisReg) = _
    rw [shifts, hready, Bool.or_true, Bool.and_true, if_pos rfl]
    cases t.outFifo <;> rfl
  rw [sendLeft, sendLeft, if_neg hleft, hdelivered, hreg]
  split
  · omega
  · next hmore =>
    cases hfifo : t.outFifo with
    | nil =>
      rw [hfifo, List.length_nil] at hlength
      omega
    | cons b rest =>
      rw [List.head?_cons, Option.isNone_some, Bool.toNat_false]
      cases hnow : t.axisReg with
      | none =>
        rw [Option.isNone_none, Bool.toNat_true, Option.toList_none, List.length_nil]
        omega
      | some b' =>
        rw [hnow, Option.toList_some, List.length_singleton] at hmore
        rw [Option.isNone_some, Bool.toNat_false, Option.toList_some, List.length_singleton]
        omega

/-- What was read leaves on the stream. -/
theorem sends_within (n : ℕ) : eager.LeadsTo 19 (fun t => t.Reads n ∧ TxSlot.beats * n ≤ t.rdata.length)
    fun t => t.Streams ∧ TxSlot.beats * n ≤ t.delivered.length := by
  have hmeasure := Clocked.Machine.LeadsTo.of_measure (m := eager) (n := 19)
    (P := fun t => t.Reads n ∧ TxSlot.beats * n ≤ t.rdata.length)
    (Q := fun t => t.Streams ∧ TxSlot.beats * n ≤ t.delivered.length) (sendLeft n) ?_ ?_
  · exact hmeasure.mono (Nat.le_refl _) (fun t ht => ⟨ht, sendLeft_le ht.1.inv ht.2⟩) fun _ h => h
  · intro t ht hzero
    rw [sendLeft] at hzero
    refine ⟨ht.1.inv.streams, ?_⟩
    split at hzero
    · assumption
    · omega
  · rintro t i ⟨ht, hread⟩ hnot ⟨hlegal, hi⟩
    have hleft : ¬ TxSlot.beats * n ≤ t.delivered.length := fun hle => hnot ⟨ht.inv.streams, hle⟩
    refine ⟨⟨ht.step hlegal, Nat.le_trans hread ?_⟩, sendLeft_step ht.inv hi.axisReady hread hleft⟩
    show t.rdata.length ≤ (t.rdata ++ _).length
    rw [List.length_append]
    exact Nat.le_add_right _ _

/-- Whatever came before, the slots that were asked for have left on the stream in time. -/
theorem delivers_within (n : ℕ) : eager.LeadsTo 544
    (fun t => machine.Reachable start t ∧ t.run.descs.length = n)
    fun t => t.Streams ∧ TxSlot.beats * n ≤ t.delivered.length := by
  refine ((reads_within n).trans (sends_within n)).mono (Nat.le_refl _) ?_ fun _ h => h
  rintro t ⟨hreach, hn⟩
  have hlagging : t.Lagging := by
    refine Clocked.Machine.invariant (m := machine) ?_ (fun t i _ _ => lagging_step t i) hreach
    exact fun hhalf => Bool.noConfusion hhalf
  exact ⟨⟨inv_of_reachable hreach, hlagging, Nat.le_of_eq hn.symm⟩, hn.symm⟩

section Runs

/-- A cycle in which the slave delivers what is due and the stream is taken. -/
def answered (t : DmaRdStream) : RdStreamCycle := ⟨none, true, decide (t.run.due ≠ []), 7, true⟩

/-- Such cycles, one after the other. -/
def answering : ℕ → DmaRdStream → List RdStreamCycle
  | 0, _ => []
  | n + 1, t => t.answered :: answering n (t.step t.answered)

@[simp] theorem length_answering (n : ℕ) (t : DmaRdStream) : (answering n t).length = n := by
  induction n generalizing t with
  | zero => rfl
  | succ n ih => rw [answering, List.length_cons, ih]

theorem legal_answering (n : ℕ) (t : DmaRdStream) : eager.Legal t (answering n t) := by
  induction n generalizing t with
  | zero => trivial
  | succ n ih =>
    refine ⟨⟨⟨fun desc hdesc => ?_, fun hvalid => of_decide_eq_true hvalid⟩, ⟨rfl, rfl, rfl⟩⟩, ih _⟩
    have hnone : t.run.engine.accepts (t.cycle t.answered) = none := by
      unfold AxiDmaRdBursts.accepts
      split <;> rfl
    rw [hnone] at hdesc
    exact absurd hdesc (Option.some_ne_none desc).symm

/-- A slot leaves in time after the stream was held up. -/
theorem delivers_oneSlot : (machine.run start oneSlot).delivered = [] ∧ ∃ k ≤ 544,
    256 ≤ (eager.run (machine.run start oneSlot) ((answering 544 (machine.run start oneSlot)).take k)).delivered.length := by
  obtain ⟨k, hk, -, hdelivered⟩ := delivers_within 1 _ _ ⟨⟨oneSlot, by decide +kernel, rfl⟩, by decide +kernel⟩
    (legal_answering 544 _) (by rw [length_answering])
  exact ⟨by decide +kernel, k, hk, hdelivered⟩

end Runs

end DmaRdStream

end UdpIpCore
