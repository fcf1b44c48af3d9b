import Mathlib.Algebra.Group.Nat.Defs
import Mathlib.Data.Nat.Basic

/-!
# Lanes of a word

A word of several lanes of the same width: what is read from one lane after another one was
written, and after the word was shifted by whole lanes.
-/

namespace Lanes

variable {m w : ℕ}

/-- Lane `i` of a word. -/
def lane (w : ℕ) (x : BitVec m) (i : ℕ) : BitVec w := x.extractLsb' (i * w) w

/-- The word with lane `i` replaced. -/
def setLane (x : BitVec m) (i : ℕ) (v : BitVec w) : BitVec m :=
  (x &&& ~~~((BitVec.allOnes w).setWidth m <<< (i * w))) ||| v.setWidth m <<< (i * w)

/-- The bits of a lane. -/
theorem getLsbD_lane (x : BitVec m) (i : ℕ) {j : ℕ} (hj : j < w) : (lane w x i).getLsbD j = x.getLsbD (i * w + j) := by
  rw [lane, BitVec.getLsbD_extractLsb', decide_eq_true hj, Bool.true_and]

/-- There is nothing beyond the last lane. -/
theorem lane_of_le (x : BitVec m) {i : ℕ} (hi : m ≤ i * w) : lane w x i = 0#w := by
  apply BitVec.eq_of_getLsbD_eq
  intro j hj
  rw [getLsbD_lane _ _ hj, BitVec.getLsbD_of_ge _ _ (by omega), BitVec.getLsbD_zero]

/-- The bits of the word with a lane replaced. -/
theorem getLsbD_setLane (x : BitVec m) (i : ℕ) (v : BitVec w) {j : ℕ} (hj : j < m) : (setLane x i v).getLsbD j =
    if i * w ≤ j ∧ j < i * w + w then v.getLsbD (j - i * w) else x.getLsbD j := by
  simp only [setLane, BitVec.getLsbD_or, BitVec.getLsbD_and, BitVec.getLsbD_not, BitVec.getLsbD_shiftLeft,
    BitVec.getLsbD_setWidth, BitVec.getLsbD_allOnes, hj, decide_true, Bool.true_and]
  by_cases hlow : j < i * w
  · rw [if_neg (by omega)]
    simp [hlow]
  · by_cases hhigh : j < i * w + w
    · have hin : j - i * w < w := by omega
      rw [if_pos (by omega)]
      simp [hlow, hin, show j - i * w < m by omega]
    · have hout : ¬ j - i * w < w := by omega
      have hzero : v.getLsbD (j - i * w) = false := BitVec.getLsbD_of_ge v _ (by omega)
      rw [if_neg (by omega)]
      simp [hlow, hout, hzero]

/-- The lane that was replaced. -/
theorem lane_setLane_self {x : BitVec m} {i : ℕ} (v : BitVec w) (hi : (i + 1) * w ≤ m) : lane w (setLane x i v) i = v := by
  apply BitVec.eq_of_getLsbD_eq
  intro j hj
  rw [Nat.succ_mul] at hi
  rw [getLsbD_lane _ _ hj, getLsbD_setLane _ _ _ (by omega), if_pos (by omega), Nat.add_sub_cancel_left]

/-- The other lanes stay. -/
theorem lane_setLane_of_ne {x : BitVec m} {i k : ℕ} (v : BitVec w) (hk : k ≠ i) :
    lane w (setLane x i v) k = lane w x k := by
  apply BitVec.eq_of_getLsbD_eq
  intro j hj
  rw [getLsbD_lane _ _ hj, getLsbD_lane _ _ hj]
  by_cases hm : k * w + j < m
  · rw [getLsbD_setLane _ _ _ hm, if_neg]
    rcases Nat.lt_or_gt_of_ne hk with hlt | hgt
    · have hbelow : (k + 1) * w ≤ i * w := Nat.mul_le_mul_right w hlt
      rw [Nat.succ_mul] at hbelow
      omega
    · have habove : (i + 1) * w ≤ k * w := Nat.mul_le_mul_right w hgt
      rw [Nat.succ_mul] at habove
      omega
  · rw [BitVec.getLsbD_of_ge _ _ (by omega), BitVec.getLsbD_of_ge _ _ (by omega)]

/-- The lowest lane of a narrow word. -/
theorem lane_setWidth_zero (v : BitVec w) (h : w ≤ m) : lane w (v.setWidth m) 0 = v := by
  apply BitVec.eq_of_getLsbD_eq
  intro j hj
  rw [getLsbD_lane _ _ hj, Nat.zero_mul, Nat.zero_add, BitVec.getLsbD_setWidth, decide_eq_true (by omega), Bool.true_and]

/-- The other lanes of a narrow word are zero. -/
theorem lane_setWidth_of_pos (v : BitVec w) {i : ℕ} (hi : 0 < i) : lane w (v.setWidth m) i = 0#w := by
  apply BitVec.eq_of_getLsbD_eq
  intro j hj
  have hle : 1 * w ≤ i * w := Nat.mul_le_mul_right w hi
  rw [getLsbD_lane _ _ hj, BitVec.getLsbD_setWidth, BitVec.getLsbD_of_ge v _ (by omega), Bool.and_false,
    BitVec.getLsbD_zero]

/-- A word shifted by one lane. -/
theorem lane_ushiftRight (x : BitVec m) (i : ℕ) : lane w (x >>> w) i = lane w x (i + 1) := by
  apply BitVec.eq_of_getLsbD_eq
  intro j hj
  rw [getLsbD_lane _ _ hj, getLsbD_lane _ _ hj, BitVec.getLsbD_ushiftRight]
  congr 1
  rw [Nat.succ_mul]
  omega

/-- The lowest lane is what is left of the word in a narrow register. -/
theorem setWidth_eq_lane (x : BitVec m) : x.setWidth w = lane w x 0 := by
  apply BitVec.eq_of_getLsbD_eq
  intro j hj
  rw [getLsbD_lane _ _ hj, BitVec.getLsbD_setWidth, decide_eq_true hj, Bool.true_and, Nat.zero_mul, Nat.zero_add]

/-- A word is known by its lanes. -/
theorem eq_of_lanes {n : ℕ} {x y : BitVec (n * w)} (h : ∀ i < n, lane w x i = lane w y i) : x = y := by
  apply BitVec.eq_of_getLsbD_eq
  intro j hj
  have hw : 0 < w := Nat.pos_of_ne_zero fun hzero => by simp [hzero] at hj
  have hmod : j % w < w := Nat.mod_lt j hw
  have hbit := congrArg (fun v => v.getLsbD (j % w)) (h (j / w) (Nat.div_lt_of_lt_mul (by rwa [Nat.mul_comm])))
  simp only [getLsbD_lane _ _ hmod, Nat.div_add_mod'] at hbit
  exact hbit

/-- A word is zero exactly if all its lanes are. -/
theorem eq_zero_iff {n : ℕ} (x : BitVec (n * w)) : x = 0#_ ↔ ∀ i < n, lane w x i = 0#w := by
  have hzero (i : ℕ) : lane w (0#(n * w)) i = 0#w := by
    apply BitVec.eq_of_getLsbD_eq
    intro j hj
    rw [getLsbD_lane _ _ hj, BitVec.getLsbD_zero, BitVec.getLsbD_zero]
  constructor
  · rintro rfl i -
    exact hzero i
  · intro h
    exact eq_of_lanes fun i hi => (h i hi).trans (hzero i).symm

end Lanes
