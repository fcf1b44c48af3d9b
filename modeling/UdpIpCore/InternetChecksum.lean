import Mathlib.Data.BitVec
import Mathlib.Algebra.BigOperators.Group.List.Basic

/-!
# The Internet checksum

The checksum of a list of 16-bit words is the complement of their ones' complement sum. Once
it stands in place of a word that was zero, the checksum of the words is zero.
-/

namespace InternetChecksum

/-- `csum_fold` before the complement: the carries are added back, twice. -/
def csumFold (sum : ℕ) : ℕ :=
  let once := sum % 65536 + sum / 65536
  once % 65536 + once / 65536

/-- The sum of some words. -/
def total (words : List (BitVec 16)) : ℕ := (words.map BitVec.toNat).sum

/-- The checksum of some words. -/
def checksum (words : List (BitVec 16)) : BitVec 16 := ~~~BitVec.ofNat 16 (csumFold (total words))

/-- A fold of a sum without too many carries is a word. -/
theorem csumFold_lt {sum : ℕ} (h : sum < 2 ^ 32) : csumFold sum < 65536 := by
  simp only [csumFold]
  omega

/-- Adding the complement of the fold makes the fold all ones. -/
theorem csumFold_add_complement {sum : ℕ} (h : sum < 2 ^ 31) : csumFold (sum + (65535 - csumFold sum)) = 65535 := by
  simp only [csumFold]
  omega

/-- The checksum as a number. -/
theorem toNat_checksum {words : List (BitVec 16)} (h : total words < 2 ^ 31) :
    (checksum words).toNat = 65535 - csumFold (total words) := by
  have hlt : csumFold (total words) < 65536 := csumFold_lt (by omega)
  rw [checksum, BitVec.toNat_not, BitVec.toNat_ofNat, Nat.mod_eq_of_lt hlt]

/-- Words that contain the checksum of the rest verify. -/
theorem checksum_of_inserted {words words' : List (BitVec 16)} (h : total words < 2 ^ 31)
    (htotal : total words' = total words + (checksum words).toNat) : checksum words' = 0 := by
  rw [checksum, htotal, toNat_checksum h, csumFold_add_complement h]
  rfl

/-- A sum of few words has few carries. -/
theorem total_lt {words : List (BitVec 16)} (h : words.length ≤ 32767) : total words < 2 ^ 31 := by
  have hle : total words ≤ words.length * 65535 := by
    induction words with
    | nil => exact Nat.le_refl _
    | cons x words ih =>
      have hx := x.isLt
      have hrest := ih (by simp only [List.length_cons] at h; omega)
      simp only [total, List.map_cons, List.sum_cons, List.length_cons] at hrest ⊢
      omega
  omega

end InternetChecksum
