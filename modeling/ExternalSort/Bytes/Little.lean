/-
Machine words as octets, least significant octet first.

Lengths, offsets and cell values are all written this way, so one pair of functions
serves them: `ofNat width v` writes the low `width` octets of `v`, and `toNat` reads
any number of octets back.
-/
namespace ExternalSort

/-- A run of octets. -/
abbrev Bytes := List UInt8

namespace Bytes.Little

/-- The low `width` octets of `v`, least significant first. -/
def ofNat : Nat → Nat → Bytes
  | 0, _ => []
  | width + 1, v => UInt8.ofNat v :: ofNat width (v / 256)

/-- The number that octets spell, least significant first. -/
def toNat : Bytes → Nat
  | [] => 0
  | b :: r => b.toNat + 256 * toNat r

@[simp] theorem length_ofNat (width v : Nat) : (ofNat width v).length = width := by
  induction width generalizing v with
  | zero => rfl
  | succ n ih => simp [ofNat, ih]

/-- What `ofNat` writes is read back, as far as the width reaches. -/
theorem toNat_ofNat (width v : Nat) : toNat (ofNat width v) = v % Nat.pow 256 width := by
  induction width generalizing v with
  | zero => simp [ofNat, toNat, Nat.mod_one]
  | succ n ih =>
    have h : (UInt8.ofNat v).toNat = v % 256 := by simp
    rw [ofNat, toNat, ih, h, Nat.pow_eq, Nat.pow_eq, Nat.pow_succ, Nat.mul_comm _ 256, Nat.mod_mul]

/-- The signed number that the octets of a word of `width` octets spell in two's complement. -/
def toInt (width : Nat) (bs : Bytes) : Int :=
  (BitVec.ofNat (8 * width) (toNat bs)).toInt

end Bytes.Little
end ExternalSort
