import Mathlib.Data.List.Induction

/-!
# Shift registers

A register into which bits are shifted at the lower end: what it holds after some of them, and
what it gives out at the upper end.
-/

namespace ShiftRegister

variable {n v : ℕ}

/-- The register after some bits were shifted in. -/
theorem getLsbD_foldl (bits : List Bool) (w : BitVec n) {j : ℕ} (hj : j < n) : (bits.foldl BitVec.shiftConcat w).getLsbD j =
    if j < bits.length then bits.reverse[j]?.getD false else w.getLsbD (j - bits.length) := by
  induction bits using List.reverseRecOn generalizing j with
  | nil => rfl
  | append_singleton bits b ih =>
    rw [List.foldl_append, List.foldl_cons, List.foldl_nil, BitVec.getLsbD_shiftConcat, decide_eq_true hj, Bool.true_and, List.length_append,
      List.length_singleton, List.reverse_concat]
    cases j with
    | zero => simp
    | succ j =>
      rw [if_neg (Nat.succ_ne_zero j), Nat.add_sub_cancel, ih (Nat.lt_of_succ_lt hj), List.getElem?_cons_succ]
      simp only [Nat.add_lt_add_iff_right, Nat.add_sub_add_right]

/-- The bit that is shifted out next. -/
theorem getMsbD_foldl {bits : List Bool} {w : BitVec n} (hlength : bits.length < n) :
    (bits.foldl BitVec.shiftConcat w).getMsbD 0 = w.getMsbD bits.length := by
  rw [BitVec.getMsbD_eq_getLsbD, BitVec.getMsbD_eq_getLsbD, getLsbD_foldl bits w (by omega), if_neg (by omega)]
  simp [hlength, show 0 < n by omega]

/-- The lower part of the register is that of the bits that came last. -/
theorem setWidth_foldl {bits : List Bool} {w : BitVec n} (hv : v ≤ n) (hlength : v ≤ bits.length) :
    (bits.foldl BitVec.shiftConcat w).setWidth v = (bits.drop (bits.length - v)).foldl BitVec.shiftConcat 0 := by
  apply BitVec.eq_of_getLsbD_eq
  intro j hj
  rw [BitVec.getLsbD_setWidth, decide_eq_true hj, Bool.true_and, getLsbD_foldl bits w (by omega), getLsbD_foldl _ _ hj,
    if_pos (by omega), if_pos (by rw [List.length_drop]; omega), List.reverse_drop, List.getElem?_take_of_lt (by omega)]

end ShiftRegister
