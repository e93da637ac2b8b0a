/-
Words as octets, and rows of them.

Whatever is written as a row of pieces of one width is read piece by piece, each by its
number.
-/
import ExternalSort.Bytes.Little
import Mathlib.Algebra.Ring.Nat

namespace ExternalSort.Bytes

/-- What is left behind a part that was taken, also where less was there than asked for. -/
theorem drop_length_take (xs : Bytes) (n : Nat) : xs.drop (xs.take n).length = xs.drop n := by
  rw [List.length_take]
  by_cases hle : n ≤ xs.length
  · rw [Nat.min_eq_left hle]
  · rw [Nat.min_eq_right (by omega), List.drop_length, List.drop_of_length_le (by omega)]

/-- What is kept of a longer part that was taken, and what is behind that part. -/
theorem drop_take_append_drop {n m : Nat} (h : n ≤ m) (xs : Bytes) :
    (xs.take m).drop n ++ xs.drop m = xs.drop n := by
  by_cases hle : m ≤ xs.length
  · have hlen : n ≤ (xs.take m).length := by
      rw [List.length_take]
      omega
    rw [← List.drop_append_of_le_length hlen, List.take_append_drop]
  · rw [List.take_of_length_le (by omega), List.drop_of_length_le (by omega : xs.length ≤ m),
      List.append_nil]

theorem length_flatten_of_width {xss : List Bytes} {width : Nat}
    (hw : ∀ xs ∈ xss, xs.length = width) : xss.flatten.length = xss.length * width := by
  rw [List.length_flatten, List.map_congr_left hw, List.map_const', List.sum_replicate_nat]

/-- In a row of pieces of equal width each stands at its number times the width. -/
theorem flatten_part {xss : List Bytes} {width : Nat} (hw : ∀ xs ∈ xss, xs.length = width)
    (i : Nat) (hi : i < xss.length) : (xss.flatten.drop (width * i)).take width = xss[i] := by
  induction xss generalizing i with
  | nil => exact absurd hi (Nat.not_lt_zero i)
  | cons xs r ih =>
    have hxs : xs.length = width := hw xs (List.mem_cons_self ..)
    cases i with
    | zero => rw [Nat.mul_zero, List.drop_zero, List.flatten_cons, ← hxs, List.take_left]; rfl
    | succ i =>
      have hsplit : width * (i + 1) = xs.length + width * i := by
        rw [hxs, Nat.mul_succ, Nat.add_comm]
      rw [List.flatten_cons, hsplit, ← List.drop_drop, List.drop_left, List.getElem_cons_succ]
      exact ih (fun ys hys => hw ys (List.mem_cons_of_mem _ hys)) i (Nat.lt_of_succ_lt_succ hi)

namespace Little

/-- A number that fits a word is read back from it. -/
theorem toNat_ofNat_of_lt {width v : Nat} (h : v < Nat.pow 256 width) :
    toNat (ofNat width v) = v := by
  rw [toNat_ofNat, Nat.mod_eq_of_lt h]

/-- A difference of small numbers, written modulo the size of a word, is read back with its
sign. -/
theorem toInt_ofNat_sub {a b : Nat} (ha : a < 2 ^ 31) (hb : b < 2 ^ 31) :
    toInt 4 (ofNat 4 ((2 ^ 32 + a - b) % 2 ^ 32)) = (a : Int) - b := by
  have hword : (2 ^ 32 + a - b) % 2 ^ 32 < Nat.pow 256 4 := Nat.mod_lt _ (by decide)
  rw [toInt, toNat_ofNat_of_lt hword, BitVec.toInt_ofNat']
  rcases Nat.lt_or_ge a b with h | h
  · rw [Nat.mod_eq_of_lt (by omega), Int.bmod_def]
    omega
  · rw [show (2 ^ 32 + a - b) % 2 ^ 32 = a - b by omega, Int.bmod_def]
    omega

/-- A number in the lower half of what a word can hold is read back from a word with a sign. -/
theorem toInt_ofNat_of_lt {width n : Nat} (hn : n < 2 ^ (8 * width - 1)) :
    toInt width (ofNat width n) = n := by
  cases width with
  | zero =>
    obtain rfl : n = 0 := Nat.lt_one_iff.1 hn
    rfl
  | succ width =>
    have hhalf : 2 ^ (8 * (width + 1)) = 2 * 2 ^ (8 * (width + 1) - 1) := by
      rw [← Nat.pow_succ']
      rfl
    have hpow : Nat.pow 256 (width + 1) = 2 ^ (8 * (width + 1)) :=
      (Nat.pow_mul 2 8 (width + 1)).symm
    rw [toInt, toNat_ofNat_of_lt (by omega), BitVec.toInt_ofNat', Int.bmod_def, hhalf]
    generalize 2 ^ (8 * (width + 1) - 1) = half at hn
    rw [Int.emod_eq_of_lt (by omega) (by omega), if_pos (by omega)]

end Little
end ExternalSort.Bytes
