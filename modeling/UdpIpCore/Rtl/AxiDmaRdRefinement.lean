import UdpIpCore.Rtl.AxiDmaRd
import UdpIpCore.Rtl.AxiDmaRdStream
import UdpIpCore.Simulation

/-!
# The two models of the read DMA

The ring is proved against a read DMA that counts the beats of its bursts and knows the streams that
have not ended by their age. The registers of the DMA with its output FIFO run as that one does:
each cycle is one of it, with the same handshakes.
-/

namespace UdpIpCore

namespace AxiDmaRd

/-- One cycle of the read DMA, with the address of the descriptor that is valid. -/
structure Cycle where
  desc : Option (BitVec 32)
  input : AxiDmaRdInput

/-- The read DMA on its own. -/
def machine : Clocked.Machine AxiDmaRd Cycle where
  step := fun e i => e.step i.desc.isSome (i.desc.getD 0) i.input
  legal := fun e i => e.Legal i.input

/-- The address is not looked at without a descriptor. -/
theorem step_of_invalid (e : AxiDmaRd) (i : AxiDmaRdInput) (addr addr' : BitVec 32) :
    e.step false addr i = e.step false addr' i := by
  have hnone : e.accepts false = false := Bool.and_false _
  rw [step, step, hnone]
  rfl

end AxiDmaRd

namespace DmaRdStream

/-- The last beat of the stream is taken. -/
def tlastHs (t : DmaRdStream) (i : RdStreamCycle) : Bool := i.axisReady && t.axisReg.any Beat.tlast

/-- What the read DMA does in a cycle, as the ring sees it. -/
def abstract (t : DmaRdStream) (i : RdStreamCycle) : AxiDmaRd.Cycle where
  desc := i.desc.map ReadDesc.addr
  input := ⟨i.arready, t.run.engine.rHs (t.cycle i), t.tlastHs i⟩

/-- The streams that have not ended, by their last beats. -/
def ending (t : DmaRdStream) : List Beat := (t.axisReg.toList ++ t.outFifo).filter Beat.tlast

/-- The registers are those of the read DMA that the ring sees. -/
structure Refines (t : DmaRdStream) (e : AxiDmaRd) : Prop where
  readDescReady : e.readDescReady = t.run.engine.readDescReady
  axiStart : e.axiStart = t.run.engine.axiStart
  addr : t.run.engine.axiStart = true → e.addr = t.run.engine.addr
  arvalid : e.arvalid = t.run.engine.arvalid
  araddr : e.araddr = t.run.engine.araddr
  axisCmdValid : e.axisCmdValid = t.run.engine.axisCmdValid
  axisRead : e.axisRead = t.run.engine.axisRead
  beats : t.run.Progress e.beats
  bursts : e.bursts = (t.run.ar.drop t.run.popped).map Prod.fst
  streams : e.streams.length = t.ending.length
  aged : ∀ age ∈ e.streams, 1 ≤ age
  shown : t.axisReg.any Beat.tlast = true → ∃ age rest, e.streams = age :: rest ∧ 2 ≤ age

variable {t : DmaRdStream} {e : AxiDmaRd} {i : RdStreamCycle}

/-- Both are idle after reset. -/
theorem refines_start : start.Refines .reset where
  readDescReady := rfl
  axiStart := rfl
  addr := fun h => absurd h Bool.false_ne_true
  arvalid := rfl
  araddr := rfl
  axisCmdValid := rfl
  axisRead := rfl
  beats := ⟨fun h => absurd h Bool.false_ne_true, fun _ => rfl, ⟨0, rfl⟩, rfl⟩
  bursts := rfl
  streams := rfl
  aged := fun _ h => absurd h List.not_mem_nil
  shown := fun h => absurd h Bool.false_ne_true

/-- A descriptor is accepted by both. -/
theorem Refines.accepts_eq (h : t.Refines e) :
    e.accepts (t.abstract i).desc.isSome = (t.run.engine.accepts (t.cycle i)).isSome := by
  rw [AxiDmaRd.accepts, AxiDmaRdBursts.accepts, h.axiStart, h.readDescReady]
  cases t.run.engine.axiStart <;> cases t.run.engine.readDescReady <;> cases hdesc : i.desc <;> simp [abstract, cycle, hdesc]

/-- Data come while a burst is read. -/
theorem axisRead_of_rHs (h : t.Inv) (hrHs : t.run.engine.rHs (t.cycle i) = true) : t.run.engine.axisRead = true :=
  h.tracked.ready (Bool.and_eq_true_iff.mp hrHs).1

/-- The last beat of a burst is the last one that is passed on. -/
theorem Refines.rlastHs_eq (h : t.Refines e) (hinv : t.Inv) (hlegal : t.run.Legal (t.cycle i)) :
    e.rlastHs (t.abstract i).input = t.run.rlastHs (t.cycle i) := by
  rw [(hinv.tracked.reading_step hlegal).2, AxiDmaRdBursts.finishes, hinv.transfers_eq]
  show (t.run.engine.rHs (t.cycle i) && _) = _
  cases hrHs : t.run.engine.rHs (t.cycle i) with
  | false => rfl
  | true =>
    rw [(h.beats.busy (axisRead_of_rHs hinv hrHs)).lastCycle, Bool.true_and, Bool.true_and, decide_eq_decide]
    exact Nat.succ_inj

/-- The bursts that are under way. -/
theorem Refines.length_bursts (h : t.Refines e) : e.bursts.length = t.run.due.length := by
  have hpopped := h.beats.popped
  rw [h.bursts, List.length_map, List.length_drop]
  omega

/-- What the read DMA does is what the ring may assume. -/
theorem Refines.legal (h : t.Refines e) (hinv : t.Inv) (hlegal : t.run.Legal (t.cycle i)) :
    e.Legal (t.abstract i).input where
  beat := by
    intro hrHs
    refine ⟨h.axisRead.trans (axisRead_of_rHs hinv hrHs), fun hnone => ?_⟩
    have hdue := hlegal.rvalid (Bool.and_eq_true_iff.mp hrHs).2
    have hlength := h.length_bursts
    rw [hnone] at hlength
    exact hdue (List.eq_nil_of_length_eq_zero hlength.symm)
  tlastHs := fun htlast => h.shown (Bool.and_eq_true_iff.mp htlast).2

/-- The beats of a burst after a cycle. -/
theorem Refines.beats_step (h : t.Refines e) (hinv : t.Inv) (hlegal : t.run.Legal (t.cycle i)) :
    (t.step i).run.Progress (if t.run.rlastHs (t.cycle i) then 0 else e.beats + (t.run.engine.rHs (t.cycle i)).toNat) := by
  have hlast := h.rlastHs_eq hinv hlegal
  cases hrHs : t.run.engine.rHs (t.cycle i) with
  | false =>
    have hnone : t.run.rlastHs (t.cycle i) = false := by rw [DmaRdRun.rlastHs, hrHs, Bool.and_false]
    rw [hnone]
    cases hread : t.run.engine.axisRead with
    | false =>
      have hzero := h.beats.idle hread
      rw [hzero]
      exact (DmaRdRun.progress_of_idle hinv.tracked h.beats hread).1
    | true => exact (DmaRdRun.progress_of_wait hinv.tracked h.beats hread hrHs).1
  | true =>
    have hread := axisRead_of_rHs hinv hrHs
    have hfits := (h.beats.busy hread).fits
    rw [AxiDmaRd.rlastHs] at hlast
    change (t.run.engine.rHs (t.cycle i) && _) = _ at hlast
    rw [hrHs, Bool.true_and] at hlast
    rw [← hlast]
    by_cases hend : e.beats = 255
    · have hprogress := h.beats
      rw [hend] at hprogress ⊢
      exact (DmaRdRun.progress_of_last hinv.tracked hprogress hread hrHs).1
    · rw [decide_eq_false (by simp only [AxiDmaRd.burstBeats]; omega)]
      exact (DmaRdRun.progress_of_beat hinv.tracked h.beats hread hrHs
        (hlegal.rvalid (Bool.and_eq_true_iff.mp hrHs).2) (by omega)).1

/-- The addresses of the bursts after a cycle. -/
theorem Refines.bursts_step (h : t.Refines e) (hlegal : t.run.Legal (t.cycle i)) :
    (if t.run.rlastHs (t.cycle i) then e.bursts.tail else e.bursts) ++
        (if e.arvalid && i.arready then [e.araddr] else []) =
      ((t.step i).run.ar.drop (t.step i).run.popped).map Prod.fst := by
  have hpopped := h.beats.popped
  have har : (t.step i).run.ar =
      t.run.ar ++ if t.run.engine.arHs (t.cycle i) then [(t.run.engine.araddr, t.run.engine.arlen)] else [] := rfl
  have hnew : (if e.arvalid && i.arready then [e.araddr] else []) =
      (if t.run.engine.arHs (t.cycle i) then [(t.run.engine.araddr, t.run.engine.arlen)] else []).map Prod.fst := by
    rw [h.arvalid, h.araddr]
    show (if t.run.engine.arHs (t.cycle i) then _ else _) = _
    cases t.run.engine.arHs (t.cycle i) <;> rfl
  have hpop : (t.step i).run.popped = t.run.popped + (t.run.rlastHs (t.cycle i)).toNat := rfl
  rw [hnew, har, hpop]
  cases hlast : t.run.rlastHs (t.cycle i) with
  | false =>
    rw [Bool.toNat_false, Nat.add_zero, List.drop_append_of_le_length (by omega), List.map_append, ← h.bursts]
    rfl
  | true =>
    have hvalid : i.rvalid = true := (Bool.and_eq_true_iff.mp (Bool.and_eq_true_iff.mp hlast).2).2
    have hpos : 0 < t.run.due.length := List.length_pos_of_ne_nil (hlegal.rvalid hvalid)
    rw [Bool.toNat_true, List.drop_append_of_le_length (by omega), List.map_append, if_pos rfl, h.bursts, ← List.map_tail,
      List.tail_drop]

/-- The beats that are left once one may have been taken. -/
def left (t : DmaRdStream) (i : RdStreamCycle) : List Beat :=
  (t.step i).axisReg.toList ++ if t.shifts i then t.outFifo.tail else t.outFifo

/-- One beat leaves at most. -/
theorem left_eq (t : DmaRdStream) (i : RdStreamCycle) :
    t.left i = (if i.axisReady then [] else t.axisReg.toList) ++ t.outFifo := by
  cases hold : t.outFifo with
  | nil => cases hreg : t.axisReg <;> cases hready : i.axisReady <;> simp [left, step, shifts, hold, hreg, hready]
  | cons b rest => cases hreg : t.axisReg <;> cases hready : i.axisReady <;> simp [left, step, shifts, hold, hreg, hready]

/-- The streams that end later. -/
theorem filter_left (t : DmaRdStream) (i : RdStreamCycle) :
    ((t.left i).filter Beat.tlast).length + (t.tlastHs i).toNat = t.ending.length := by
  have htaken : ((if i.axisReady then [] else t.axisReg.toList).filter Beat.tlast).length + (t.tlastHs i).toNat =
      (t.axisReg.toList.filter Beat.tlast).length := by
    rw [tlastHs]
    cases hreg : t.axisReg with
    | none => cases i.axisReady <;> rfl
    | some b => cases hready : i.axisReady <;> cases hlast : b.tlast <;> simp [hlast]
  rw [left_eq, ending, List.filter_append, List.filter_append, List.length_append, List.length_append, ← htaken]
  omega

/-- The beat that ends a slot is offered to the FIFO with the end of the burst. -/
theorem filter_axisInt (h : t.Inv) (hlegal : t.run.Legal (t.cycle i)) :
    ((t.axisInt i).toList.filter Beat.tlast).length = (t.run.rlastHs (t.cycle i)).toNat := by
  rw [(h.tracked.reading_step hlegal).2, AxiDmaRdBursts.finishes, axisInt]
  cases t.run.engine.transfers (t.cycle i) with
  | false => rfl
  | true => cases hlast : t.run.engine.outputLastCycle <;> simp

/-- The streams that end after a cycle. -/
theorem ending_step (h : t.Inv) (hlegal : t.run.Legal (t.cycle i)) :
    (t.step i).ending.length + (t.tlastHs i).toNat = t.ending.length + (t.run.rlastHs (t.cycle i)).toNat := by
  have hfits : t.outFifo.length < 32 := Nat.lt_of_le_of_lt h.room.fifo (by decide)
  have hfifo : (t.step i).outFifo = (if t.shifts i then t.outFifo.tail else t.outFifo) ++ (t.axisInt i).toList := by
    show _ ++ (if t.outFifo.length < 32 then (t.axisInt i).toList else []) = _
    rw [if_pos hfits]
  have hnext : (t.step i).ending = (t.left i ++ (t.axisInt i).toList).filter Beat.tlast := by
    rw [ending, hfifo, ← List.append_assoc]
    rfl
  have hleft := filter_left t i
  rw [hnext, List.filter_append, List.length_append, filter_axisInt h hlegal]
  omega

/-- The streams after a cycle, with the one that ends left out. -/
theorem Refines.length_kept (h : t.Refines e) (i : RdStreamCycle) :
    (if t.tlastHs i then e.streams.tail else e.streams).length = ((t.left i).filter Beat.tlast).length := by
  have hleft := filter_left t i
  have hstreams := h.streams
  cases htlast : t.tlastHs i with
  | false =>
    rw [htlast, Bool.toNat_false] at hleft
    rw [if_neg Bool.false_ne_true]
    omega
  | true =>
    rw [htlast, Bool.toNat_true] at hleft
    rw [if_pos rfl, List.length_tail]
    omega

/-- A last beat that is shown was in the FIFO for a cycle. -/
theorem Refines.shown_step (h : t.Refines e) (hlast : (t.step i).axisReg.any Beat.tlast = true) :
    ∃ age rest, (if t.tlastHs i then e.streams.tail else e.streams) = age :: rest ∧ 1 ≤ age := by
  have hlength := h.length_kept i
  have hpos : 0 < ((t.left i).filter Beat.tlast).length := by
    cases hreg : (t.step i).axisReg with
    | none => simp [hreg] at hlast
    | some b =>
      rw [hreg, Option.any_some] at hlast
      rw [left, hreg, Option.toList_some, List.singleton_append, List.filter_cons_of_pos hlast]
      exact Nat.succ_pos _
  have haged : ∀ age ∈ (if t.tlastHs i then e.streams.tail else e.streams), 1 ≤ age := by
    intro age hage
    split at hage
    · exact h.aged age (List.mem_of_mem_tail hage)
    · exact h.aged age hage
  cases hkept : (if t.tlastHs i then e.streams.tail else e.streams) with
  | nil =>
    rw [hkept] at hlength
    exact absurd hlength (Nat.ne_of_lt hpos)
  | cons age rest => exact ⟨age, rest, rfl, haged age (by rw [hkept]; exact List.mem_cons_self)⟩

/-- The whole slot is asked for at once. -/
theorem opWordCount_eq (h : t.Inv) (hstart : t.run.engine.axiStart = true) :
    t.run.engine.opWordCount - t.run.engine.trWordCount = 0 := by
  rw [h.tracked.trWordCount hstart, (h.tracked.starting hstart).1]

/-- The address in `AXI_STATE_START` after a cycle. -/
theorem Refines.addr_step (h : t.Refines e) (hinv : t.Inv) (hnext : (t.step i).run.engine.axiStart = true) :
    (AxiDmaRd.machine.step e (t.abstract i)).addr = (t.step i).run.engine.addr := by
  have haddr : (t.step i).run.engine.addr = (t.run.engine.accepts (t.cycle i)).elim
      (if t.run.engine.requests then t.run.engine.addr + BitVec.ofNat 32 t.run.engine.trWordCount
        else t.run.engine.addr) fun desc => desc.addr >>> 3 <<< 3 := by
    change (t.run.engine.step (t.cycle i)).addr = _
    rw [AxiDmaRdBursts.step]
    cases t.run.engine.accepts (t.cycle i) <;> rfl
  have hstart : (t.step i).run.engine.axiStart = if t.run.engine.axiStart then
      !t.run.engine.requests || decide (0 < t.run.engine.opWordCount - t.run.engine.trWordCount)
    else (t.run.engine.accepts (t.cycle i)).isSome := rfl
  show (if e.accepts (t.abstract i).desc.isSome then ((t.abstract i).desc.getD 0) >>> 3 <<< 3 else e.addr) = _
  rw [h.accepts_eq, haddr]
  cases haccepts : t.run.engine.accepts (t.cycle i) with
  | some desc =>
    have hdesc : i.desc = some desc := by
      rw [AxiDmaRdBursts.accepts] at haccepts
      split at haccepts
      · exact haccepts
      · exact absurd haccepts (Option.some_ne_none desc).symm
    simp [abstract, hdesc]
  | none =>
    rw [hstart, haccepts] at hnext
    cases hold : t.run.engine.axiStart with
    | false =>
      rw [hold] at hnext
      exact absurd hnext Bool.false_ne_true
    | true =>
      rw [hold, opWordCount_eq hinv hold] at hnext
      have hwait : t.run.engine.requests = false := by simpa using hnext
      rw [hwait]
      exact h.addr hold

/-- Each cycle of the registers is one of the read DMA that the ring sees. -/
theorem Refines.step (h : t.Refines e) (hinv : t.Inv) (hlegal : t.run.Legal (t.cycle i)) :
    (t.step i).Refines (AxiDmaRd.machine.step e (t.abstract i)) := by
  have haccepts := h.accepts_eq (i := i)
  have hlast := h.rlastHs_eq hinv hlegal
  have hstreams : (AxiDmaRd.machine.step e (t.abstract i)).streams =
      ((if t.tlastHs i then e.streams.tail else e.streams) ++
        (if e.rlastHs (t.abstract i).input then [0] else [])).map (· + 1) := rfl
  have hrequests : t.run.engine.requests = (t.run.engine.axiStart && !t.run.engine.arvalid) := rfl
  refine ⟨?_, ?_, ?_, ?_, ?_, ?_, ?_, ?_, ?_, ?_, ?_, ?_⟩
  · show (if e.axiStart then _ else !e.accepts _ && _) = if t.run.engine.axiStart then _ else _
    rw [haccepts, h.axiStart, h.arvalid, h.axisCmdValid]
    cases hstart : t.run.engine.axiStart with
    | true =>
      rw [opWordCount_eq hinv hstart, hrequests, hstart]
      simp
    | false => cases t.run.engine.accepts (t.cycle i) <;> rfl
  · show (if e.axiStart then _ else e.accepts _) = if t.run.engine.axiStart then _ else _
    rw [haccepts, h.axiStart, h.arvalid]
    cases hstart : t.run.engine.axiStart with
    | true =>
      rw [opWordCount_eq hinv hstart, hrequests, hstart]
      simp
    | false => rfl
  · exact h.addr_step hinv
  · show (if e.axiStart && !e.arvalid then true else e.arvalid && !i.arready) = (_ || _)
    rw [h.axiStart, h.arvalid, hrequests]
    cases t.run.engine.axiStart <;> cases t.run.engine.arvalid <;> rfl
  · show (if e.axiStart && !e.arvalid then e.addr else e.araddr) = if t.run.engine.requests then _ else _
    rw [h.axiStart, h.arvalid, hrequests, h.araddr]
    cases hstart : t.run.engine.axiStart with
    | true => rw [h.addr hstart]
    | false => rfl
  · show (if e.accepts _ then true else _) = (_ || _)
    rw [haccepts, h.axisCmdValid, h.axisRead]
    cases t.run.engine.accepts (t.cycle i) <;> rfl
  · show (if e.axisRead then !e.rlastHs _ else e.axisCmdValid) = if t.run.engine.axisRead then _ else _
    rw [h.axisRead, h.axisCmdValid, hlast, (hinv.tracked.reading_step hlegal).2]
  · show (t.step i).run.Progress (if e.rlastHs _ then 0 else e.beats + (t.run.engine.rHs (t.cycle i)).toNat)
    rw [hlast]
    exact h.beats_step hinv hlegal
  · rw [← h.bursts_step hlegal, ← hlast]
    rfl
  · have hlength := AxiDmaRd.length_streams_step (h.legal hinv hlegal) (t.abstract i).desc.isSome ((t.abstract i).desc.getD 0)
    have hending := ending_step hinv hlegal
    have hold := h.streams
    rw [hlast] at hlength
    change _ + (t.tlastHs i).toNat = _ at hlength
    show (e.step _ _ _).streams.length = _
    omega
  · intro age hage
    rw [hstreams] at hage
    obtain ⟨former, -, rfl⟩ := List.mem_map.mp hage
    exact Nat.succ_pos former
  · intro hshown
    obtain ⟨age, rest, hkept, hage⟩ := h.shown_step hshown
    exact ⟨age + 1, _, by rw [hstreams, hkept]; rfl, Nat.succ_le_succ hage⟩

/-- Every run of the registers is matched. -/
theorem simulates : machine.Simulates AxiDmaRd.machine fun t e => t.Inv ∧ t.Refines e :=
  Clocked.Machine.Simulates.with_invariant (fun _ _ ht hi => ht.step hi) fun t _ i ht hr hi =>
    ⟨t.abstract i, hr.legal ht hi, hr.step ht hi⟩

/-- The read DMA that the ring sees takes the cycle, with the same handshakes. -/
structure Matches (t : DmaRdStream) (i : RdStreamCycle) (e : AxiDmaRd) : Prop where
  legal : AxiDmaRd.machine.legal e (t.abstract i)
  accepts : e.accepts i.desc.isSome = (t.run.engine.accepts (t.cycle i)).isSome
  rlastHs : e.rlastHs (t.abstract i).input = t.run.rlastHs (t.cycle i)
  next : (t.step i).Refines (AxiDmaRd.machine.step e (t.abstract i))

/-- In every run the registers are those of the read DMA that the ring sees, and every further cycle is one of it. -/
theorem matches_of_reachable (h : machine.Reachable start t) :
    ∃ e, AxiDmaRd.machine.Reachable .reset e ∧ t.Refines e ∧ ∀ i, machine.legal t i → t.Matches i e := by
  obtain ⟨e, he, hinv, hrefines⟩ := simulates.reachable ⟨inv_start, refines_start⟩ h
  refine ⟨e, he, hrefines, fun i hi => ⟨hrefines.legal hinv hi, ?_, hrefines.rlastHs_eq hinv hi, hrefines.step hinv hi⟩⟩
  rw [← hrefines.accepts_eq, abstract, Option.isSome_map]

/-- So it is while the stream is not taken. -/
theorem matches_oneSlot : ∃ e, AxiDmaRd.machine.Reachable .reset e ∧ (machine.run start oneSlot).Refines e ∧
    ∀ i, machine.legal (machine.run start oneSlot) i → (machine.run start oneSlot).Matches i e :=
  matches_of_reachable ⟨oneSlot, by decide +kernel, rfl⟩

end DmaRdStream

end UdpIpCore
