import Mathlib.Data.List.Basic
import Mathlib.Data.BitVec

/-!
# Byte order

Values of several bytes in the memory of a little-endian machine, and the byte swaps
between such a machine and network order.
-/

namespace ByteOrder

/-- The bytes of a value, the lowest one first. -/
def leBytes {w : ℕ} (n : ℕ) (x : BitVec w) : List (BitVec 8) := (List.range n).map fun i => x.extractLsb' (8 * i) 8

/-- A load of two bytes. -/
def load16 (memory : ℕ → BitVec 8) (a : ℕ) : BitVec 16 := memory (a + 1) ++ memory a

/-- A load of four bytes. -/
def load32 (memory : ℕ → BitVec 8) (a : ℕ) : BitVec 32 := load16 memory (a + 2) ++ load16 memory a

/-- A load of eight bytes. -/
def load64 (memory : ℕ → BitVec 8) (a : ℕ) : BitVec 64 := load32 memory (a + 4) ++ load32 memory a

/-- `htons` and `ntohs`. -/
def swap16 (x : BitVec 16) : BitVec 16 := x.extractLsb' 0 8 ++ x.extractLsb' 8 8

/-- `htonl` and `ntohl`. -/
def swap32 (x : BitVec 32) : BitVec 32 := swap16 (x.extractLsb' 0 16) ++ swap16 (x.extractLsb' 16 16)

@[simp] theorem length_leBytes {w : ℕ} (n : ℕ) (x : BitVec w) : (leBytes n x).length = n := by simp [leBytes]

/-- Two halves make the whole. -/
theorem append_extractLsb' {v w : ℕ} (x : BitVec (v + w)) : x.extractLsb' w v ++ x.extractLsb' 0 w = x := by
  apply BitVec.eq_of_getLsbD_eq
  intro i hi
  rw [BitVec.getLsbD_append]
  split
  · rename_i hlow
    rw [BitVec.getLsbD_extractLsb', Nat.zero_add, decide_eq_true hlow, Bool.true_and]
  · rename_i hhigh
    have hindex : i - w < v := by omega
    have hback : w + (i - w) = i := by omega
    rw [BitVec.getLsbD_extractLsb', decide_eq_true hindex, Bool.true_and, hback]

/-- The lower half of two. -/
theorem extractLsb'_append_low {v w : ℕ} (x : BitVec v) (y : BitVec w) : (x ++ y).extractLsb' 0 w = y := by
  apply BitVec.eq_of_getLsbD_eq
  intro i hi
  rw [BitVec.getLsbD_extractLsb', Nat.zero_add, decide_eq_true hi, Bool.true_and, BitVec.getLsbD_append, if_pos hi]

/-- The upper half of two. -/
theorem extractLsb'_append_high {v w : ℕ} (x : BitVec v) (y : BitVec w) : (x ++ y).extractLsb' w v = x := by
  apply BitVec.eq_of_getLsbD_eq
  intro i hi
  have hhigh : ¬ w + i < w := by omega
  rw [BitVec.getLsbD_extractLsb', decide_eq_true hi, Bool.true_and, BitVec.getLsbD_append, if_neg hhigh,
    Nat.add_sub_cancel_left]

/-- Swapping twice gives the value back. -/
@[simp] theorem swap16_swap16 (x : BitVec 16) : swap16 (swap16 x) = x := by
  rw [swap16, swap16, extractLsb'_append_low, extractLsb'_append_high]
  exact @append_extractLsb' 8 8 x

/-- Swapping twice gives the value back. -/
@[simp] theorem swap32_swap32 (x : BitVec 32) : swap32 (swap32 x) = x := by
  rw [swap32, swap32, extractLsb'_append_low, extractLsb'_append_high, swap16_swap16, swap16_swap16]
  exact @append_extractLsb' 16 16 x

/-- A load of a value that was stored. -/
theorem load16_of_bytes {memory : ℕ → BitVec 8} {a : ℕ} {x : BitVec 16}
    (h : ∀ i b, (leBytes 2 x)[i]? = some b → memory (a + i) = b) : load16 memory a = x := by
  have hlow : memory (a + 0) = x.extractLsb' 0 8 := h 0 _ rfl
  have hhigh : memory (a + 1) = x.extractLsb' 8 8 := h 1 _ rfl
  rw [Nat.add_zero] at hlow
  rw [load16, hlow, hhigh]
  exact @append_extractLsb' 8 8 x

/-- The halves of a value that was stored are its lower and its upper bytes. -/
theorem load32_of_bytes {memory : ℕ → BitVec 8} {a : ℕ} {x : BitVec 32}
    (h : ∀ i b, (leBytes 4 x)[i]? = some b → memory (a + i) = b) : load32 memory a = x := by
  have hhalf (n k : ℕ) (hk : k < 2) : (x.extractLsb' (16 * n) 16).extractLsb' (8 * k) 8 = x.extractLsb' (8 * (2 * n + k)) 8 := by
    apply BitVec.eq_of_getLsbD_eq
    intro i hi
    have hindex : 8 * k + i < 16 := by omega
    have hsame : 16 * n + (8 * k + i) = 8 * (2 * n + k) + i := by omega
    rw [BitVec.getLsbD_extractLsb', BitVec.getLsbD_extractLsb', BitVec.getLsbD_extractLsb', decide_eq_true hi,
      decide_eq_true hindex, Bool.true_and, Bool.true_and, Bool.true_and, hsame]
  have hload (n : ℕ) (hn : n < 2) : load16 memory (a + 2 * n) = x.extractLsb' (16 * n) 16 := by
    refine load16_of_bytes fun i b hb => ?_
    have hi : i < 2 := by
      have hlt := (List.getElem?_eq_some_iff.mp hb).1
      rwa [length_leBytes] at hlt
    rw [Nat.add_assoc]
    refine h _ _ ?_
    rw [leBytes, List.getElem?_map, List.getElem?_range (by omega)] at hb ⊢
    rw [← hb, Option.map_some, Option.map_some, hhalf n i hi]
  have hlow : load16 memory (a + 0) = x.extractLsb' 0 16 := hload 0 (by decide)
  have hhigh : load16 memory (a + 2) = x.extractLsb' 16 16 := hload 1 (by decide)
  rw [Nat.add_zero] at hlow
  rw [load32, hlow, hhigh]
  exact @append_extractLsb' 16 16 x

/-- The bytes of a load of two. -/
theorem extractLsb'_load16 (memory : ℕ → BitVec 8) (a : ℕ) {j : ℕ} (hj : j < 2) :
    (load16 memory a).extractLsb' (8 * j) 8 = memory (a + j) := by
  match j with
  | 0 => exact extractLsb'_append_low _ _
  | 1 => exact extractLsb'_append_high _ _

/-- The bytes of a load of four. -/
theorem extractLsb'_load32 (memory : ℕ → BitVec 8) (a : ℕ) {j : ℕ} (hj : j < 4) :
    (load32 memory a).extractLsb' (8 * j) 8 = memory (a + j) := by
  rw [load32]
  by_cases hlow : j < 2
  · rw [BitVec.extractLsb'_append_eq_of_add_le (by omega), extractLsb'_load16 memory a hlow]
  · have hstart : 8 * j - 16 = 8 * (j - 2) := by omega
    have hplace : a + 2 + (j - 2) = a + j := by omega
    rw [BitVec.extractLsb'_append_eq_of_le (by omega), hstart, extractLsb'_load16 memory _ (by omega), hplace]

/-- The bytes of a load of eight. -/
theorem extractLsb'_load64 (memory : ℕ → BitVec 8) (a : ℕ) {j : ℕ} (hj : j < 8) :
    (load64 memory a).extractLsb' (8 * j) 8 = memory (a + j) := by
  rw [load64]
  by_cases hlow : j < 4
  · rw [BitVec.extractLsb'_append_eq_of_add_le (by omega), extractLsb'_load32 memory a hlow]
  · have hstart : 8 * j - 32 = 8 * (j - 4) := by omega
    have hplace : a + 4 + (j - 4) = a + j := by omega
    rw [BitVec.extractLsb'_append_eq_of_le (by omega), hstart, extractLsb'_load32 memory _ (by omega), hplace]

end ByteOrder
