import Mathlib.Data.Nat.Init

/-!
# The circular buffer controller

`circular_buffer` keeps the indices and flags of a ring whose slots lie in memory. Its
purpose is to count: as long as nothing is pushed to a full ring and nothing is popped
from an empty one, the registers are functions of the number of pushes and pops.
-/

namespace UdpIpCore

/-- The registers of `circular_buffer`; the indices stay below `BUFFER_LENGTH`. -/
structure CircularBuffer (length : ℕ) where
  headIndex : ℕ
  tailIndex : ℕ
  full : Bool
  empty : Bool
deriving DecidableEq

namespace CircularBuffer

variable {length : ℕ}

/-- The state after `rst_i`. -/
def reset (length : ℕ) : CircularBuffer length := ⟨0, 0, false, true⟩

/-- `head_index_next` and `tail_index_next`. -/
def indexNext (length index : ℕ) : ℕ := if index < length - 1 then index + 1 else 0

/-- One clock edge with `rst_i` low. -/
def step (b : CircularBuffer length) (pushed popped : Bool) : CircularBuffer length where
  headIndex := if pushed then indexNext length b.headIndex else b.headIndex
  tailIndex := if popped then indexNext length b.tailIndex else b.tailIndex
  full :=
    if !pushed && popped then false
    else if pushed && !popped then decide (indexNext length b.headIndex = b.tailIndex)
    else b.full
  empty :=
    if pushed && !popped then false
    else if popped && !pushed then decide (indexNext length b.tailIndex = b.headIndex)
    else b.empty

/-- The next index is that of a slot. -/
theorem indexNext_lt {index : ℕ} (h : index < length) : indexNext length index < length := by
  rw [indexNext]
  split <;> omega

/-- The registers after the given numbers of pushes and pops. -/
structure Tracks (b : CircularBuffer length) (pushes pops : ℕ) : Prop where
  head : b.headIndex = pushes % length
  tail : b.tailIndex = pops % length
  pops_le : pops ≤ pushes
  fits : pushes ≤ pops + length
  full : b.full = decide (pushes = pops + length)
  empty : b.empty = decide (pushes = pops)

/-- After reset nothing was pushed or popped. -/
theorem tracks_reset (hlength : 0 < length) : (reset length).Tracks 0 0 where
  head := (Nat.zero_mod _).symm
  tail := (Nat.zero_mod _).symm
  pops_le := Nat.le_refl _
  fits := Nat.zero_le _
  full := (decide_eq_false (by omega)).symm
  empty := rfl

/-- The index wraps like a counter modulo the length. -/
theorem indexNext_mod (hlength : 0 < length) (n : ℕ) :
    indexNext length (n % length) = (n + 1) % length := by
  have hlt := Nat.mod_lt n hlength
  rw [indexNext, ← Nat.mod_add_mod]
  split
  · exact (Nat.mod_eq_of_lt (by omega)).symm
  · have hend : n % length + 1 = length := by omega
    rw [hend, Nat.mod_self]

/-- Two counters that differ by less than the length agree modulo the length only if equal. -/
theorem mod_eq_iff {m n : ℕ} (hle : n ≤ m) (hlt : m < n + length) :
    m % length = n % length ↔ m = n := by
  refine ⟨fun h => ?_, fun h => by rw [h]⟩
  have hdvd := Nat.dvd_of_mod_eq_zero (Nat.sub_mod_eq_zero_of_mod_eq h)
  have hzero := Nat.eq_zero_of_dvd_of_lt hdvd (by omega)
  omega

/-- A push only to a ring with room and a pop only from a ring with content are counted. -/
theorem tracks_step {b : CircularBuffer length} {pushes pops : ℕ} {pushed popped : Bool}
    (hlength : 0 < length) (h : b.Tracks pushes pops)
    (hpush : pushed = true → popped = true ∨ pushes < pops + length)
    (hpop : popped = true → pops < pushes) :
    (b.step pushed popped).Tracks (pushes + pushed.toNat) (pops + popped.toNat) := by
  obtain ⟨hhead, htail, hle, hfits, hfull, hempty⟩ := h
  have hheadNext : indexNext length b.headIndex = (pushes + 1) % length := by
    rw [hhead, indexNext_mod hlength]
  have htailNext : indexNext length b.tailIndex = (pops + 1) % length := by
    rw [htail, indexNext_mod hlength]
  cases pushed with
  | false =>
    cases popped with
    | false => exact ⟨hhead, htail, hle, hfits, hfull, hempty⟩
    | true =>
      have hlt := hpop rfl
      refine ⟨hhead, htailNext, hlt, by simp; omega, ?_, ?_⟩
      · exact (decide_eq_false (by simp; omega)).symm
      · have hmeet : pushes % length = (pops + 1) % length ↔ pushes = pops + 1 :=
          mod_eq_iff (by omega) (by omega)
        change decide (indexNext length b.tailIndex = b.headIndex) = decide (pushes = pops + 1)
        rw [htailNext, hhead, decide_eq_decide]
        exact eq_comm.trans hmeet
  | true =>
    cases popped with
    | false =>
      have hlt := (hpush rfl).resolve_left (by simp)
      refine ⟨hheadNext, htail, by simp; omega, by simp; omega, ?_, ?_⟩
      · have hmeet : (pops + length) % length = (pushes + 1) % length ↔ pops + length = pushes + 1 :=
          mod_eq_iff (by omega) (by omega)
        rw [Nat.add_mod_right] at hmeet
        change decide (indexNext length b.headIndex = b.tailIndex) = decide (pushes + 1 = pops + length)
        rw [hheadNext, htail, decide_eq_decide]
        exact eq_comm.trans (hmeet.trans eq_comm)
      · exact (decide_eq_false (by simp; omega)).symm
    | true =>
      have hlt := hpop rfl
      refine ⟨hheadNext, htailNext, by simp; omega, by simp; omega, ?_, ?_⟩
      · change b.full = decide (pushes + 1 = pops + 1 + length)
        rw [hfull, decide_eq_decide]
        omega
      · change b.empty = decide (pushes + 1 = pops + 1)
        rw [hempty, decide_eq_decide]
        omega

/-- A push to a full ring leaves only the pushed slot: the head goes past the tail. -/
theorem tracks_overrun {b : CircularBuffer length} {pops : ℕ} (hlength : 1 < length)
    (h : b.Tracks (pops + length) pops) : (b.step true false).Tracks (pops + length + 1) (pops + length) := by
  have hhead : indexNext length b.headIndex = (pops + length + 1) % length := by
    rw [h.head, indexNext_mod (by omega)]
  have htail : b.tailIndex = (pops + length) % length := by rw [h.tail, Nat.add_mod_right]
  have hapart : (pops + length + 1) % length ≠ (pops + length) % length := fun heq => by
    have hmeet := (mod_eq_iff (Nat.le_succ (pops + length)) (by omega)).mp heq
    omega
  refine ⟨hhead, htail, by omega, by omega, ?_, (decide_eq_false (by omega)).symm⟩
  change decide (indexNext length b.headIndex = b.tailIndex) = _
  rw [hhead, htail, decide_eq_false hapart, decide_eq_false (by omega)]

/-- A pop from an empty ring leaves all slots but one: the tail goes past the head. -/
theorem tracks_underrun {b : CircularBuffer length} {pops : ℕ} (hlength : 1 < length) (h : b.Tracks pops pops) :
    (b.step false true).Tracks (pops + length) (pops + 1) := by
  have hhead : b.headIndex = (pops + length) % length := by rw [h.head, Nat.add_mod_right]
  have htail : indexNext length b.tailIndex = (pops + 1) % length := by rw [h.tail, indexNext_mod (by omega)]
  have hapart : (pops + 1) % length ≠ pops % length := fun heq => by
    have hmeet := (mod_eq_iff (Nat.le_succ pops) (by omega)).mp heq
    omega
  refine ⟨hhead, htail, by omega, by omega, (decide_eq_false (by omega)).symm, ?_⟩
  change decide (indexNext length b.tailIndex = b.headIndex) = _
  rw [htail, h.head, decide_eq_false hapart, decide_eq_false (by omega)]

/-- The registers are those after some pushes and pops. -/
def Counting (b : CircularBuffer length) : Prop := ∃ pushes pops, b.Tracks pushes pops

/-- They are in every state, also in one that a push to a full ring or a pop from an empty one has left. -/
theorem Counting.step {b : CircularBuffer length} (hlength : 1 < length) (h : b.Counting) (pushed popped : Bool)
    (hone : pushed = false ∨ popped = false) : (b.step pushed popped).Counting := by
  obtain ⟨pushes, pops, htracks⟩ := h
  have hle := htracks.pops_le
  have hfits := htracks.fits
  by_cases hover : pushed = true ∧ pushes = pops + length
  · obtain ⟨rfl, rfl⟩ := hover
    obtain rfl := hone.resolve_left Bool.noConfusion
    exact ⟨_, _, tracks_overrun hlength htracks⟩
  by_cases hunder : popped = true ∧ pushes = pops
  · obtain ⟨rfl, rfl⟩ := hunder
    obtain rfl := hone.resolve_right Bool.noConfusion
    exact ⟨_, _, tracks_underrun hlength htracks⟩
  refine ⟨_, _, tracks_step (by omega) htracks (fun hpushed => Or.inr ?_) fun hpopped => ?_⟩
  · have hne : pushes ≠ pops + length := fun heq => hover ⟨hpushed, heq⟩
    omega
  · have hne : pushes ≠ pops := fun heq => hunder ⟨hpopped, heq⟩
    omega

/-- The head is the index of a slot. -/
theorem Counting.head_lt {b : CircularBuffer length} (hlength : 0 < length) (h : b.Counting) : b.headIndex < length := by
  obtain ⟨pushes, pops, htracks⟩ := h
  rw [htracks.head]
  exact Nat.mod_lt _ hlength

end CircularBuffer

end UdpIpCore
