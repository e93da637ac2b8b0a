/-
Powers of two and of ten.

Sizes of words and limits are powers of two; the scales of binary and decimal numbers are
powers with an exponent of either sign, and those are kept as quotients of naturals.
-/
namespace ExternalSort.Binary

/-- Two to the power of `n`: how many words of `n` bits there are. -/
def twoTo (n : Nat) : Nat := Nat.pow 2 n

/-- Ten to the power of `n`: how many numbers have at most `n` digits. -/
def tenTo (n : Nat) : Nat := Nat.pow 10 n

/-- A power of two as a quotient. -/
def twoPower (e : Int) : Nat × Nat := if 0 ≤ e then (twoTo e.toNat, 1) else (1, twoTo (-e).toNat)

/-- A power of ten as a quotient. -/
def tenPower (e : Int) : Nat × Nat := if 0 ≤ e then (tenTo e.toNat, 1) else (1, tenTo (-e).toNat)

end ExternalSort.Binary
