import UdpIpCore.Rtl.AxiDmaWrRun
import UdpIpCore.Rtl.UserRstHandler

/-!
# The busy flags

`rx_busy` rises with every beat the write DMA takes and falls with the last beat of a burst;
`tx_busy` rises with a read address and falls with the second of two events. Neither counts.
A frame that is cut goes on after its burst, and two events in one cycle are seen as one:
in these two cases a flag stays up with nothing left to be done.
-/

namespace UdpIpCore

/-- The controller around the write DMA, with the number of TX slots that were started, popped and sent. -/
structure BusyRun where
  dma : DmaWrRun
  core : ResetCore
  starts : ℕ
  pops : ℕ
  tlasts : ℕ

/-- One cycle of the surroundings. -/
structure BusyCycle where
  dma : DmaWrCycle
  write : Option (RegAddr × BitVec 32)
  rdAddr : Bool
  txLast : Bool
  txPopped : Bool

namespace BusyRun

/-- After the power-on reset. -/
def start : BusyRun := ⟨.start, .start, 0, 0, 0⟩

/-- What the controller sees of a cycle. -/
def cycle (t : BusyRun) (i : BusyCycle) : ResetCycle where
  write := i.write
  events :=
    { wrBeat := t.dma.engine.takes i.dma.axis
      wrLast := t.dma.engine.wlastHs i.dma.slave
      rdAddr := i.rdAddr
      txLast := i.txLast
      txPopped := i.txPopped }

/-- One clock edge; the user reset does not reach the DMA. -/
def step (t : BusyRun) (i : BusyCycle) : BusyRun where
  dma := t.dma.step i.dma
  core := t.core.step (t.cycle i)
  starts := t.starts + i.rdAddr.toNat
  pops := t.pops + i.txPopped.toNat
  tlasts := t.tlasts + i.txLast.toNat

/-- Every descriptor is for a slot, and a slot is sent and popped once, after it was started. -/
structure Legal (t : BusyRun) (i : BusyCycle) : Prop where
  slot : t.dma.Legal i.dma
  popped : i.txPopped = true → t.pops < t.starts
  sent : i.txLast = true → t.tlasts < t.starts

/-- Any frames, any slots and any stalls. -/
def machine : Clocked.Machine BusyRun BusyCycle where
  step := step
  legal := Legal

/-- The frames taken so far were taken to their ends, and their bursts were handed over. -/
structure RxQuiet (t : BusyRun) : Prop where
  handed : t.dma.finished.length ≤ t.dma.completed
  between : ∀ j ∈ t.dma.current, j.taken = []

/-- The slots started so far were sent and popped. -/
structure TxQuiet (t : BusyRun) : Prop where
  popped : t.pops = t.starts
  sent : t.tlasts = t.starts

/-- The flags are low when nothing is left to be done, `tx_busy_out` is low when the next slot is under way, and a
reset that is requested is granted. -/
structure Clears (t : BusyRun) : Prop where
  rx : t.RxQuiet → t.core.flags.rxBusy = false
  tx : t.TxQuiet → t.core.flags.txBusy = false
  out : t.TxQuiet → ∀ i, Legal t i → (t.step i).core.flags.txBusyOut = false
  granted : t.RxQuiet → t.TxQuiet → t.core.handler.rstRequested = true → ∀ i, (t.step i).core.rstGlobal = true

/-- The property after each cycle. -/
def ClearsAlways (t : BusyRun) (i : BusyCycle) : Prop := (t.step i).Clears

/-- A frame that was cut ends when all bursts so far are handed over, the one of this cycle included. -/
structure Trails (t : BusyRun) (i : BusyCycle) : Prop where
  dropping : t.dma.engine.state = .dropData
  ends : i.dma.axis.any Beat.tlast = true
  handed : t.dma.finished.length < t.dma.completed + (t.dma.engine.wlastHs i.dma.slave).toNat

/-- The last slot that was started is sent and popped in one cycle, with `tx_busy` up and nothing else under way. -/
structure Coincide (t : BusyRun) (i : BusyCycle) : Prop where
  sent : i.txLast = true ∧ t.tlasts + 1 = t.starts
  popped : i.txPopped = true ∧ t.pops + 1 = t.starts
  alone : i.rdAddr = false
  busy : t.core.flags.txBusy = true
  first : t.core.flags.txBusyOut = false

/-- Neither of the two happens outside a reset. -/
def Apart (t : BusyRun) (i : BusyCycle) : Prop := t.core.rstGlobal = false → ¬ t.Trails i ∧ ¬ t.Coincide i

/-- What holds between any two cycles. -/
structure Tracked (t : BusyRun) : Prop where
  dma : t.dma.Tracked
  core : t.core.Sound
  pops : t.pops ≤ t.starts
  tlasts : t.tlasts ≤ t.starts
  rx : t.RxQuiet → t.core.flags.rxBusy = false
  tx : t.TxQuiet → t.core.flags.txBusy = false
  /-- With one event left to come, the other one is remembered. -/
  half : t.pops + t.tlasts + 1 = t.starts + t.starts → t.core.flags.txBusy = true → t.core.flags.txBusyOut = true

/-- Nothing was started. -/
theorem tracked_start : start.Tracked where
  dma := DmaWrRun.tracked_start
  core := ResetCore.sound_start
  pops := Nat.le_refl _
  tlasts := Nat.le_refl _
  rx := fun _ => rfl
  tx := fun _ => rfl
  half := fun h => by simp [start] at h

section Cycle

variable {t : BusyRun} {i : BusyCycle}

/-- `rx_busy` after a cycle. -/
theorem rxBusy_step : (t.step i).core.flags.rxBusy =
    if t.core.rstGlobal then false else if t.dma.engine.takes i.dma.axis then true
    else if t.dma.engine.wlastHs i.dma.slave then false else t.core.flags.rxBusy := rfl

/-- `tx_busy` after a cycle. -/
theorem txBusy_step : (t.step i).core.flags.txBusy =
    if t.core.rstGlobal then false else if i.rdAddr then true
    else if t.core.flags.txBusyOut && (i.txLast || i.txPopped) then false else t.core.flags.txBusy := rfl

/-- `tx_busy_out` after a cycle. -/
theorem txBusyOut_step : (t.step i).core.flags.txBusyOut =
    if t.core.rstGlobal then false else if i.txLast || i.txPopped then true
    else if !t.core.flags.txBusy then false else t.core.flags.txBusyOut := rfl

/-- The job in progress advances as long as the DMA does not end it. -/
theorem current_step {j : WriteJob} (hj : t.dma.current = some j) (hidle : t.dma.engine.state ≠ .idle)
    (hgoes : t.dma.engine.stateNext i.dma.desc i.dma.axis ≠ .idle) :
    (t.step i).dma.current = some (j.advance t.dma.engine i.dma.axis) := by
  have haccepts : t.dma.engine.accepts i.dma.desc = false := by simp [AxiDmaWr.accepts, hidle]
  change (t.dma.step i.dma).current = _
  simp only [DmaWrRun.step, haccepts, hj, Option.map_some, if_neg hgoes, Bool.false_eq_true, if_false]

/-- A job that ends is finished. -/
theorem finished_step {j : WriteJob} (hj : t.dma.current = some j)
    (hends : t.dma.engine.stateNext i.dma.desc i.dma.axis = .idle) :
    (t.step i).dma.finished = t.dma.finished ++ [j.advance t.dma.engine i.dma.axis] := by
  change (t.dma.step i.dma).finished = _
  simp only [DmaWrRun.step, hj, Option.map_some, if_pos hends, Option.toList_some]

/-- The bursts handed over after a cycle. -/
theorem completed_step : (t.step i).dma.completed = t.dma.completed + (t.dma.engine.wlastHs i.dma.slave).toNat :=
  DmaWrRun.completed_step

/-- A beat is dropped to the end of the frame. -/
theorem takes_of_dropData (h : t.dma.Tracked) (hstate : t.dma.engine.state = .dropData)
    (hends : i.dma.axis.any Beat.tlast = true) : t.dma.engine.takes i.dma.axis = true := by
  obtain ⟨j, hj⟩ := AxiDmaWr.exists_of_serves (by simp [hstate]) h.serves
  have hserves := h.serves
  rw [hj] at hserves
  simp only [AxiDmaWr.Serves, hstate] at hserves
  rw [AxiDmaWr.takes, hserves.2.1, Bool.true_and]
  cases haxis : i.dma.axis with
  | none => simp [haxis] at hends
  | some b => rfl

/-- If the reception is quiet after a cycle, no frame ended in it unless it was cut. -/
theorem quiet_before (h : t.Tracked) (hquiet : (t.step i).RxQuiet) (htrails : ¬ t.Trails i) :
    t.dma.engine.takes i.dma.axis = false ∧
      (t.dma.engine.wlastHs i.dma.slave = false → t.RxQuiet) := by
  have hhanded := hquiet.handed
  rw [completed_step] at hhanded
  by_cases hidle : t.dma.engine.state = .idle
  · have hcurrent : t.dma.current = none := (AxiDmaWr.serves_idle_iff hidle).mp h.dma.serves
    have hready := h.dma.room.not_ready (by simp [hidle]) (by simp [hidle])
    refine ⟨by rw [AxiDmaWr.takes, hready, Bool.false_and], fun hlast => ⟨?_, by simp [hcurrent]⟩⟩
    have hfinished : (t.step i).dma.finished = t.dma.finished := by
      change (t.dma.step i.dma).finished = _
      simp [DmaWrRun.step, hcurrent]
    rw [hfinished, hlast] at hhanded
    exact hhanded
  · obtain ⟨j, hj⟩ := AxiDmaWr.exists_of_serves hidle h.dma.serves
    by_cases hends : t.dma.engine.stateNext i.dma.desc i.dma.axis = .idle
    · -- a frame ends: its burst is not handed over yet, or it was cut
      rw [finished_step hj hends, List.length_append, List.length_singleton] at hhanded
      by_cases hstate : t.dma.engine.state = .dropData
      · refine absurd ⟨hstate, ?_, hhanded⟩ htrails
        by_contra hlast
        simp [AxiDmaWr.stateNext, hstate, hlast] at hends
      · have hle := DmaWrRun.completed_add_le_finished h.dma hstate i.dma.slave
        omega
    · have hcurrent := current_step hj hidle hends
      have htaken : j.taken ++ t.dma.engine.taking i.dma.axis = [] := hquiet.between _ hcurrent
      obtain ⟨hbefore, htaking⟩ := List.append_eq_nil_iff.mp htaken
      refine ⟨?_, fun hlast => ⟨?_, fun j' hj' => ?_⟩⟩
      · rw [AxiDmaWr.takes]
        cases hready : t.dma.engine.dataTready with
        | false => rfl
        | true =>
          rw [AxiDmaWr.taking, hready, if_pos rfl] at htaking
          cases haxis : i.dma.axis with
          | none => rfl
          | some b => simp [haxis] at htaking
      · have hfinished : (t.step i).dma.finished = t.dma.finished := by
          change (t.dma.step i.dma).finished = _
          simp [DmaWrRun.step, hends]
        rw [hfinished, hlast] at hhanded
        exact hhanded
      · rw [hj] at hj'
        obtain rfl := Option.some.inj hj'
        exact hbefore

/-- `rx_busy` is low once the reception is quiet. -/
theorem Tracked.rx_step (h : t.Tracked) (hapart : t.Apart i) (hquiet : (t.step i).RxQuiet) :
    (t.step i).core.flags.rxBusy = false := by
  rw [rxBusy_step]
  cases hrst : t.core.rstGlobal with
  | true => rfl
  | false =>
    obtain ⟨htakes, hbefore⟩ := quiet_before h hquiet (hapart hrst).1
    rw [htakes, if_neg (by simp), if_neg (by simp)]
    cases hlast : t.dma.engine.wlastHs i.dma.slave with
    | true => rfl
    | false => exact h.rx (hbefore hlast)

/-- The counts after a cycle. -/
theorem counts_step : (t.step i).starts = t.starts + i.rdAddr.toNat ∧ (t.step i).pops = t.pops + i.txPopped.toNat ∧
    (t.step i).tlasts = t.tlasts + i.txLast.toNat := ⟨rfl, rfl, rfl⟩

/-- `tx_busy` is low once the transmission is quiet. -/
theorem Tracked.tx_step (h : t.Tracked) (hlegal : t.Legal i) (hapart : t.Apart i) (hquiet : (t.step i).TxQuiet) :
    (t.step i).core.flags.txBusy = false := by
  obtain ⟨hpopped, hsent⟩ := hquiet
  obtain ⟨hstarts, hpops, htlasts⟩ := counts_step (t := t) (i := i)
  have hlepops := h.pops
  have hletlasts := h.tlasts
  rw [txBusy_step]
  cases hrst : t.core.rstGlobal with
  | true => rfl
  | false =>
    cases hstart : i.rdAddr with
    | true =>
      -- a slot that starts leaves something to be done
      exfalso
      rw [hstarts, hpops, hstart] at hpopped
      cases hpop : i.txPopped with
      | false => simp [hpop] at hpopped; omega
      | true =>
        have hlt := hlegal.popped hpop
        simp [hpop] at hpopped
        omega
    | false =>
      rw [hstarts, hpops, hstart] at hpopped
      rw [hstarts, htlasts, hstart] at hsent
      cases hpop : i.txPopped with
      | false =>
        cases hlast : i.txLast with
        | false =>
          simp only [hpop, hlast, Bool.toNat_false, Nat.add_zero] at hpopped hsent
          simp [h.tx ⟨hpopped, hsent⟩]
        | true =>
          simp only [hpop, hlast, Bool.toNat_false, Bool.toNat_true, Nat.add_zero] at hpopped hsent
          have hhalf := h.half (by omega)
          cases hbusy : t.core.flags.txBusy with
          | false => simp
          | true => simp [hhalf hbusy]
      | true =>
        cases hlast : i.txLast with
        | false =>
          simp only [hpop, hlast, Bool.toNat_false, Bool.toNat_true, Nat.add_zero] at hpopped hsent
          have hhalf := h.half (by omega)
          cases hbusy : t.core.flags.txBusy with
          | false => simp
          | true => simp [hhalf hbusy]
        | true =>
          simp only [hpop, hlast, Bool.toNat_true, Bool.toNat_false, Nat.add_zero] at hpopped hsent
          cases hbusy : t.core.flags.txBusy with
          | false => simp
          | true =>
            cases hout : t.core.flags.txBusyOut with
            | true => simp
            | false => exact absurd ⟨⟨hlast, hsent⟩, ⟨hpop, hpopped⟩, hstart, hbusy, hout⟩ (hapart hrst).2

/-- With one event left to come, the other one is remembered. -/
theorem Tracked.half_step (h : t.Tracked)
    (hhalf : (t.step i).pops + (t.step i).tlasts + 1 = (t.step i).starts + (t.step i).starts)
    (hbusy : (t.step i).core.flags.txBusy = true) : (t.step i).core.flags.txBusyOut = true := by
  obtain ⟨hstarts, hpops, htlasts⟩ := counts_step (t := t) (i := i)
  have hlepops := h.pops
  have hletlasts := h.tlasts
  rw [hstarts, hpops, htlasts] at hhalf
  rw [txBusy_step] at hbusy
  rw [txBusyOut_step]
  cases hrst : t.core.rstGlobal with
  | true => simp [hrst] at hbusy
  | false =>
    cases hevent : i.txLast || i.txPopped with
    | true => rfl
    | false =>
      obtain ⟨hlast, hpop⟩ := Bool.or_eq_false_iff.mp hevent
      rw [hlast, hpop, Bool.toNat_false, Nat.add_zero, Nat.add_zero] at hhalf
      cases hstart : i.rdAddr with
      | true =>
        rw [hstart, Bool.toNat_true] at hhalf
        omega
      | false =>
        rw [hstart, Bool.toNat_false, Nat.add_zero] at hhalf
        have hbefore : t.core.flags.txBusy = true := by simpa [hrst, hstart, hevent] using hbusy
        simp [hbefore, h.half hhalf hbefore]

/-- A cycle in which neither of the two happens keeps the flags truthful. -/
theorem Tracked.step (h : t.Tracked) (hlegal : t.Legal i) (hapart : t.Apart i) : (t.step i).Tracked where
  dma := h.dma.step hlegal.slot
  core := h.core.step
  pops := by
    have hle := h.pops
    have hlt := hlegal.popped
    change t.pops + i.txPopped.toNat ≤ t.starts + i.rdAddr.toNat
    cases hpop : i.txPopped with
    | false => simp only [Bool.toNat_false]; omega
    | true => simp only [Bool.toNat_true]; have := hlt hpop; omega
  tlasts := by
    have hle := h.tlasts
    have hlt := hlegal.sent
    change t.tlasts + i.txLast.toNat ≤ t.starts + i.rdAddr.toNat
    cases hlast : i.txLast with
    | false => simp only [Bool.toNat_false]; omega
    | true => simp only [Bool.toNat_true]; have := hlt hlast; omega
  rx := h.rx_step hapart
  tx := h.tx_step hlegal hapart
  half := h.half_step

/-- Truthful flags clear. -/
theorem Tracked.clears (h : t.Tracked) : t.Clears where
  rx := h.rx
  tx := h.tx
  out := by
    intro hquiet i hlegal
    have hlast : i.txLast = false := by
      by_contra hlast
      have hlt := hlegal.sent (by simpa using hlast)
      exact absurd hquiet.sent (Nat.ne_of_lt hlt)
    have hpop : i.txPopped = false := by
      by_contra hpop
      have hlt := hlegal.popped (by simpa using hpop)
      exact absurd hquiet.popped (Nat.ne_of_lt hlt)
    rw [txBusyOut_step, hlast, hpop, h.tx hquiet]
    cases t.core.rstGlobal <;> rfl
  granted := by
    intro hrx htx hrequested i
    have hgranted : (t.core.step (t.cycle i)).rstGlobal = !t.core.busy := h.core.rstGlobal_step_of_requested hrequested
    change (t.core.step (t.cycle i)).rstGlobal = true
    rw [hgranted, ResetCore.busy, BusyFlags.busy, h.rx hrx, h.tx htx]
    rfl

/-- A frame that ends after its burst leaves `rx_busy` up. -/
theorem Tracked.not_clears_of_trails (h : t.Tracked) (hrst : t.core.rstGlobal = false) (htrails : t.Trails i) :
    ¬ (t.step i).Clears := by
  intro hclears
  obtain ⟨j, hj⟩ := AxiDmaWr.exists_of_serves (by simp [htrails.dropping]) h.dma.serves
  have hends : t.dma.engine.stateNext i.dma.desc i.dma.axis = .idle := by
    rw [AxiDmaWr.stateNext, htrails.dropping]
    exact if_pos htrails.ends
  have hquiet : (t.step i).RxQuiet := by
    refine ⟨?_, fun j' hj' => ?_⟩
    · rw [finished_step hj hends, completed_step, List.length_append, List.length_singleton]
      exact htrails.handed
    · have haccepts : t.dma.engine.accepts i.dma.desc = false := by simp [AxiDmaWr.accepts, htrails.dropping]
      have hnone : (t.step i).dma.current = none := by
        change (t.dma.step i.dma).current = none
        simp [DmaWrRun.step, haccepts, hends]
      simp [hnone] at hj'
  have hlow := hclears.rx hquiet
  rw [rxBusy_step, hrst, takes_of_dropData h.dma htrails.dropping htrails.ends] at hlow
  exact absurd hlow (by simp)

/-- A slot that is sent and popped at once leaves `tx_busy` up. -/
theorem not_clears_of_coincide (hrst : t.core.rstGlobal = false) (h : t.Coincide i) : ¬ (t.step i).Clears := by
  intro hclears
  obtain ⟨hstarts, hpops, htlasts⟩ := counts_step (t := t) (i := i)
  have hquiet : (t.step i).TxQuiet := by
    refine ⟨?_, ?_⟩
    · rw [hstarts, hpops, h.alone, h.popped.1]
      exact h.popped.2
    · rw [hstarts, htlasts, h.alone, h.sent.1]
      exact h.sent.2
  have hlow := hclears.tx hquiet
  rw [txBusy_step, hrst, h.alone, h.first, h.busy] at hlow
  exact absurd hlow (by simp)

end Cycle

/-- In every run the flags clear exactly if no frame that is cut ends after its burst was handed over, and the last
slot under way is not sent and popped at once. -/
theorem clearsAlways_iff_apart {inputs : List BusyCycle} (hlegal : machine.Legal start inputs) :
    machine.Throughout ClearsAlways start inputs ↔ (machine.restrict Apart).Legal start inputs := by
  refine Clocked.Machine.throughout_iff Tracked (fun t i ht hi hapart => ?_) (fun t i ht _ hnot hclears => ?_)
    tracked_start hlegal
  · have hnext := ht.step hi hapart
    exact ⟨hnext, hnext.clears⟩
  · rw [Apart, Classical.not_imp, not_and_or, not_not, not_not] at hnot
    obtain ⟨hrst, htrails | hcoincide⟩ := hnot
    · exact ht.not_clears_of_trails hrst htrails hclears
    · exact not_clears_of_coincide hrst hcoincide hclears

instance (s : DmaWrRun) (i : DmaWrCycle) : Decidable (s.Legal i) := inferInstanceAs (Decidable (_ → _ ∧ _ ∧ _))

instance (t : BusyRun) (i : BusyCycle) : Decidable (machine.legal t i) :=
  decidable_of_iff (t.dma.Legal i.dma ∧ (i.txPopped = true → t.pops < t.starts) ∧ (i.txLast = true → t.tlasts < t.starts))
    ⟨fun h => ⟨h.1, h.2.1, h.2.2⟩, fun h => ⟨h.slot, h.popped, h.sent⟩⟩

instance (t : BusyRun) (i : BusyCycle) : Decidable (t.Trails i) :=
  decidable_of_iff (t.dma.engine.state = .dropData ∧ i.dma.axis.any Beat.tlast = true ∧
    t.dma.finished.length < t.dma.completed + (t.dma.engine.wlastHs i.dma.slave).toNat)
    ⟨fun h => ⟨h.1, h.2.1, h.2.2⟩, fun h => ⟨h.dropping, h.ends, h.handed⟩⟩

instance (t : BusyRun) (i : BusyCycle) : Decidable (t.Coincide i) :=
  decidable_of_iff ((i.txLast = true ∧ t.tlasts + 1 = t.starts) ∧ (i.txPopped = true ∧ t.pops + 1 = t.starts) ∧
    i.rdAddr = false ∧ t.core.flags.txBusy = true ∧ t.core.flags.txBusyOut = false)
    ⟨fun h => ⟨h.1, h.2.1, h.2.2.1, h.2.2.2.1, h.2.2.2.2⟩, fun h => ⟨h.sent, h.popped, h.alone, h.busy, h.first⟩⟩

instance (t : BusyRun) (i : BusyCycle) : Decidable ((machine.restrict Apart).legal t i) :=
  inferInstanceAs (Decidable (machine.legal t i ∧ (_ → _ ∧ _)))

/-- A cycle with a descriptor and a beat, on a write channel that is always ready. -/
def offers (desc : WriteDesc) (axis : Option Beat) : BusyCycle :=
  ⟨⟨desc, axis, ⟨true, true, true⟩⟩, none, false, false, false⟩

/-- A cycle with a register write. -/
def writes (reg : RegAddr) (value : BitVec 32) : BusyCycle := { offers ⟨false, 0, 0⟩ none with write := some (reg, value) }

/-- The device is taken out of the reset. -/
def boot : List BusyCycle :=
  [writes RegAddr.res 1, writes RegAddr.res 0] ++ List.replicate 4 (offers ⟨false, 0, 0⟩ none)

/-- A descriptor of some bytes is followed by a frame of some beats, on a write channel that is always ready. -/
def receives (len : BitVec 20) (beats : ℕ) : List BusyCycle :=
  [offers ⟨true, 0, len⟩ none, offers ⟨false, 0, 0⟩ (some ⟨0, 0xFF, false, false⟩)] ++
    List.replicate (beats - 1) (offers ⟨false, 0, 0⟩ (some ⟨0, 0xFF, false, false⟩)) ++
    [offers ⟨false, 0, 0⟩ (some ⟨0, 0xFF, true, false⟩)]

/-- A slot is started, popped and sent. -/
def sends : List BusyCycle :=
  [{ offers ⟨false, 0, 0⟩ none with rdAddr := true }, { offers ⟨false, 0, 0⟩ none with txPopped := true },
    { offers ⟨false, 0, 0⟩ none with txLast := true }]

/-- A frame of two beats is written, and one slot is sent. -/
theorem clearsAlways_two : machine.Throughout ClearsAlways start
    (boot ++ receives 16 2 ++ List.replicate 4 (offers ⟨false, 0, 0⟩ none) ++ sends) :=
  (clearsAlways_iff_apart (by decide +kernel)).mpr (by decide +kernel)

/-- A frame of 265 beats for a slot of 256: the last beat is dropped when the burst was handed over. -/
theorem not_clearsAlways : ¬ machine.Always start ClearsAlways := by
  refine Clocked.Machine.not_always_of_run (boot ++ (receives 2048 265).dropLast)
    (offers ⟨false, 0, 0⟩ (some ⟨0, 0xFF, true, false⟩)) (by decide +kernel) (by decide +kernel) fun hclears => ?_
  have hstate : (machine.step (machine.run start (boot ++ (receives 2048 265).dropLast))
      (offers ⟨false, 0, 0⟩ (some ⟨0, 0xFF, true, false⟩))).core.flags.rxBusy = true := by decide +kernel
  have hlow := hclears.rx ⟨by decide +kernel, by decide +kernel⟩
  exact absurd (hstate.symm.trans hlow) (by simp)

end BusyRun

end UdpIpCore
