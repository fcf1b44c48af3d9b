import Mathlib.Algebra.Group.Nat.Defs
import UdpIpCore.Clocked
import UdpIpCore.Framing
import UdpIpCore.Rtl.CircularBuffer

/-!
# The registers of the circular buffer controller

`circular_buffer` with its reset and with indices of `INDEX_WIDTH` bits, for any length the
indices can count. It stands for two counters that never lie further apart than the length:
head and tail are what is left of them modulo the length, and the flags tell the two cases
apart in which head and tail meet.
-/

namespace UdpIpCore

/-- The pushes and the pops of a buffer: nothing is popped before it was pushed, and no more than a buffer full is
left in between. -/
structure BoundedCounters (length : ℕ) where
  pushes : ℕ
  pops : ℕ
  pops_le : pops ≤ pushes
  fits : pushes ≤ pops + length

/-- The registers of `circular_buffer`. -/
structure CircularBufferRegs (indexWidth : ℕ) where
  headIndex : BitVec indexWidth
  tailIndex : BitVec indexWidth
  full : Bool
  empty : Bool
deriving DecidableEq

/-- The inputs of `circular_buffer` in one cycle. -/
structure BufferCycle where
  rst : Bool
  /-- `data_pushed_i`. -/
  pushed : Bool
  /-- `data_popped_i`. -/
  popped : Bool
deriving DecidableEq

namespace CircularBufferRegs

variable {indexWidth : ℕ}

/-- `head_index_next` and `tail_index_next`. -/
def indexNext (length : ℕ) (index : BitVec indexWidth) : BitVec indexWidth :=
  if index.toNat < length - 1 then index + 1 else 0

/-- One clock edge. -/
def step (length : ℕ) (b : CircularBufferRegs indexWidth) (i : BufferCycle) : CircularBufferRegs indexWidth where
  headIndex := if i.rst then 0 else if i.pushed then indexNext length b.headIndex else b.headIndex
  full :=
    if i.rst then false
    else if !i.pushed && i.popped then false
    else if i.pushed && !i.popped then decide (indexNext length b.headIndex = b.tailIndex)
    else b.full
  tailIndex := if i.rst then 0 else if i.popped then indexNext length b.tailIndex else b.tailIndex
  empty :=
    if i.rst then true
    else if i.pushed && !i.popped then false
    else if i.popped && !i.pushed then decide (indexNext length b.tailIndex = b.headIndex)
    else b.empty

/-- The controller under resets at any time, pushes while it is not full and pops while it is not empty. -/
def machine (indexWidth length : ℕ) : Clocked.Machine (CircularBufferRegs indexWidth) BufferCycle where
  step := step length
  legal := fun b i => i.rst = false → (i.pushed = true → b.full = false) ∧ (i.popped = true → b.empty = false)

/-- The registers show a pair of counters. -/
structure Represents {length : ℕ} (b : CircularBufferRegs indexWidth) (c : BoundedCounters length) : Prop where
  head : b.headIndex.toNat = c.pushes % length
  tail : b.tailIndex.toNat = c.pops % length
  full : b.full = true ↔ (c.pushes : ℤ) - c.pops = length
  empty : b.empty = true ↔ c.pushes = c.pops

/-- The indices as numbers. -/
def counted (length : ℕ) (b : CircularBufferRegs indexWidth) : CircularBuffer length :=
  ⟨b.headIndex.toNat, b.tailIndex.toNat, b.full, b.empty⟩

variable {length : ℕ} {b : CircularBufferRegs indexWidth} {i : BufferCycle} {pushes pops : ℕ}

/-- An index that can count to the length does not wrap before it. -/
theorem toNat_indexNext (hlength : 1 ≤ length) (hwidth : length ≤ 2 ^ indexWidth) (index : BitVec indexWidth) :
    (indexNext length index).toNat = CircularBuffer.indexNext length index.toNat := by
  rw [indexNext, CircularBuffer.indexNext]
  split
  · rename_i hlt
    have hfits : index.toNat + 1 < 2 ^ indexWidth := by omega
    have hone : (1 : BitVec indexWidth).toNat = 1 := by
      have hbase : 1 < 2 ^ indexWidth := by omega
      change (BitVec.ofNat indexWidth 1).toNat = 1
      rw [BitVec.toNat_ofNat, Nat.mod_eq_of_lt hbase]
    rw [BitVec.toNat_add, hone, Nat.mod_eq_of_lt hfits]
  · exact BitVec.toNat_zero

/-- With its reset low the controller counts as the numbers do. -/
theorem counted_step (hlength : 1 ≤ length) (hwidth : length ≤ 2 ^ indexWidth) (hrst : i.rst = false) :
    (b.step length i).counted length = (b.counted length).step i.pushed i.popped := by
  have hhead := toNat_indexNext hlength hwidth b.headIndex
  have htail := toNat_indexNext hlength hwidth b.tailIndex
  have hfull : decide (indexNext length b.headIndex = b.tailIndex) =
      decide (CircularBuffer.indexNext length b.headIndex.toNat = b.tailIndex.toNat) := by
    rw [decide_eq_decide, ← BitVec.toNat_inj, hhead]
  have hempty : decide (indexNext length b.tailIndex = b.headIndex) =
      decide (CircularBuffer.indexNext length b.tailIndex.toNat = b.headIndex.toNat) := by
    rw [decide_eq_decide, ← BitVec.toNat_inj, htail]
  obtain ⟨rst, pushed, popped⟩ := i
  obtain rfl : rst = false := hrst
  cases pushed with
  | false =>
    cases popped with
    | false => rfl
    | true => exact congrArg₂ (CircularBuffer.mk b.headIndex.toNat · false ·) htail hempty
  | true =>
    cases popped with
    | false => exact congrArg₂ (CircularBuffer.mk · b.tailIndex.toNat · false) hhead hfull
    | true => exact congrArg₂ (CircularBuffer.mk · · b.full b.empty) hhead htail

/-- A reset clears the registers, whatever they held. -/
theorem counted_step_of_rst (hrst : i.rst = true) : (b.step length i).counted length = .reset length := by
  simp [counted, step, CircularBuffer.reset, hrst]

/-- A cycle without a reset counts what is pushed and popped. -/
theorem tracks_step (hlength : 1 ≤ length) (hwidth : length ≤ 2 ^ indexWidth)
    (h : (b.counted length).Tracks pushes pops) (hlegal : (machine indexWidth length).legal b i) (hrst : i.rst = false) :
    ((b.step length i).counted length).Tracks (pushes + i.pushed.toNat) (pops + i.popped.toNat) := by
  obtain ⟨hpush, hpop⟩ := hlegal hrst
  rw [counted_step hlength hwidth hrst]
  refine CircularBuffer.tracks_step hlength h (fun hpushed => Or.inr ?_) fun hpopped => ?_
  · have hroom : decide (pushes = pops + length) = false := h.full.symm.trans (hpush hpushed)
    exact Nat.lt_of_le_of_ne h.fits (of_decide_eq_false hroom)
  · have hcontent : decide (pushes = pops) = false := h.empty.symm.trans (hpop hpopped)
    exact Nat.lt_of_le_of_ne h.pops_le (Ne.symm (of_decide_eq_false hcontent))

/-- The cycles since the last reset with a push, and those with a pop. -/
def pushesSince (inputs : List BufferCycle) : ℕ := (Framing.sinceEnd BufferCycle.rst inputs).countP BufferCycle.pushed
def popsSince (inputs : List BufferCycle) : ℕ := (Framing.sinceEnd BufferCycle.rst inputs).countP BufferCycle.popped

/-- What is counted after one more cycle. -/
theorem since_append_singleton (inputs : List BufferCycle) (i : BufferCycle) :
    pushesSince (inputs ++ [i]) = (if i.rst then 0 else pushesSince inputs + i.pushed.toNat) ∧
      popsSince (inputs ++ [i]) = if i.rst then 0 else popsSince inputs + i.popped.toNat := by
  rw [pushesSince, popsSince, Framing.sinceEnd_append_singleton]
  cases i.rst with
  | true => exact ⟨rfl, rfl⟩
  | false =>
    rw [if_neg Bool.false_ne_true, List.countP_append, List.countP_append, List.countP_singleton, List.countP_singleton]
    exact ⟨by cases i.pushed <;> rfl, by cases i.popped <;> rfl⟩

/-- After a reset the registers count the pushes and the pops since the last reset. -/
theorem tracks_run (hlength : 1 ≤ length) (hwidth : length ≤ 2 ^ indexWidth) (b : CircularBufferRegs indexWidth)
    {first : BufferCycle} (hfirst : first.rst = true) {inputs : List BufferCycle}
    (hlegal : (machine indexWidth length).Legal (b.step length first) inputs) :
    (((machine indexWidth length).run (b.step length first) inputs).counted length).Tracks
      (pushesSince (first :: inputs)) (popsSince (first :: inputs)) := by
  induction inputs using List.reverseRecOn with
  | nil =>
    obtain ⟨hpushes, hpops⟩ := since_append_singleton [] first
    rw [List.nil_append, if_pos hfirst] at hpushes hpops
    rw [hpushes, hpops, Clocked.Machine.run_nil, counted_step_of_rst hfirst]
    exact CircularBuffer.tracks_reset hlength
  | append_singleton inputs i ih =>
    obtain ⟨hbefore, hi, -⟩ := ((machine indexWidth length).legal_append _ inputs [i]).mp hlegal
    obtain ⟨hpushes, hpops⟩ := since_append_singleton (first :: inputs) i
    rw [← List.cons_append, hpushes, hpops, Clocked.Machine.run_append, Clocked.Machine.run_cons,
      Clocked.Machine.run_nil]
    change ((((machine indexWidth length).run _ inputs).step length i).counted length).Tracks _ _
    cases hrst : i.rst with
    | true =>
      rw [counted_step_of_rst hrst]
      exact CircularBuffer.tracks_reset hlength
    | false => exact tracks_step hlength hwidth (ih hbefore) hi hrst

/-- For any length the indices can count, and in every run after a reset, the registers show the bounded pair of the
pushes and the pops since the last reset. -/
theorem represents_run (hlength : 1 ≤ length) (hwidth : length ≤ 2 ^ indexWidth) (b : CircularBufferRegs indexWidth)
    {first : BufferCycle} (hfirst : first.rst = true) {inputs : List BufferCycle}
    (hlegal : (machine indexWidth length).Legal (b.step length first) inputs) :
    ∃ c : BoundedCounters length, c.pushes = pushesSince (first :: inputs) ∧ c.pops = popsSince (first :: inputs) ∧
      ((machine indexWidth length).run (b.step length first) inputs).Represents c := by
  have htracks := tracks_run hlength hwidth b hfirst hlegal
  refine ⟨⟨_, _, htracks.pops_le, htracks.fits⟩, rfl, rfl, ⟨htracks.head, htracks.tail, ?_, ?_⟩⟩
  · have hfull : ((machine indexWidth length).run (b.step length first) inputs).full =
        decide (pushesSince (first :: inputs) = popsSince (first :: inputs) + length) := htracks.full
    rw [hfull, decide_eq_true_eq]
    change _ ↔ (pushesSince (first :: inputs) : ℤ) - popsSince (first :: inputs) = length
    omega
  · have hempty : ((machine indexWidth length).run (b.step length first) inputs).empty =
        decide (pushesSince (first :: inputs) = popsSince (first :: inputs)) := htracks.empty
    rw [hempty, decide_eq_true_eq]

section Witness

instance (b : CircularBufferRegs indexWidth) (i : BufferCycle) : Decidable ((machine indexWidth length).legal b i) :=
  inferInstanceAs (Decidable (_ → (_ → _) ∧ (_ → _)))

/-- Three pushes fill the buffer, two pops make room, and a cycle pushes and pops at once; head and tail have both
gone round. -/
def goingRound : List BufferCycle :=
  List.replicate 3 ⟨false, true, false⟩ ++ List.replicate 2 ⟨false, false, true⟩ ++ [⟨false, true, true⟩]

/-- A length that is no power of two, from registers that hold anything. -/
theorem represents_goingRound :
    ∃ c : BoundedCounters 3, c.pushes = 4 ∧ c.pops = 3 ∧
      ((machine 2 3).run (step 3 ⟨3, 1, true, true⟩ ⟨true, true, true⟩) goingRound).Represents c := by
  have hlegal : (machine 2 3).Legal (step 3 ⟨3, 1, true, true⟩ ⟨true, true, true⟩) goingRound := by decide
  exact represents_run (by decide) (by decide) _ rfl hlegal

end Witness

end CircularBufferRegs

end UdpIpCore
