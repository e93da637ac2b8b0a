/-
Binary floating point on the bits.

A value is a word: a sign, an exponent field, a fraction field.  Nothing here uses
machine arithmetic.  A finite word stands for `m · 2 ^ q` with natural `m` and integer
`q`, and `ofRatio` goes the other way: it rounds a quotient of naturals to the nearest
word, a tie to the even one.

The step from `m` and `q` to a word is a single sum.  With `q` counted from the scale of
the smallest words, the word without its sign is `(q - least) · 2 ^ fraction + m`: the
leading bit of `m` falls into the exponent field, and a carry out of `m` moves the word
to the next exponent by itself.
-/
import ExternalSort.Binary.Power

namespace ExternalSort.Binary

/-- The two interchange formats. -/
inductive Precision where
  | single
  | double
  deriving DecidableEq, Repr

namespace Precision

/-- Bits of the fraction field. -/
def fraction : Precision → Nat
  | .single => 23
  | .double => 52

/-- Bits of the exponent field. -/
def exponent : Precision → Nat
  | .single => 8
  | .double => 11

/-- Octets of a word. -/
def octets : Precision → Nat
  | .single => 4
  | .double => 8

/-- Bits of a word. -/
def bits (p : Precision) : Nat := 8 * p.octets

/-- The scale of the words nearest to zero: their last place is worth two to this power. -/
def least (p : Precision) : Int := 2 - twoTo (p.exponent - 1) - p.fraction

/-- The word of positive infinity. -/
def infinity (p : Precision) : Nat := (twoTo p.exponent - 1) * twoTo p.fraction

/-- The bit that a result sets in a word that is no number. -/
def quiet (p : Precision) : Nat := twoTo (p.fraction - 1)

end Precision

/-- What a word without its sign stands for. -/
inductive Magnitude where
  /-- No number; the fraction field is kept. -/
  | notNumber (payload : Nat)
  /-- Infinity. -/
  | infinite
  /-- The number `m · 2 ^ q`. -/
  | finite (m : Nat) (q : Int)
  deriving DecidableEq, Repr

/-- A word of a format. -/
abbrev Word (p : Precision) := BitVec p.bits

namespace Word

variable {p : Precision}

/-- Whether the sign bit is set. -/
def isNegative (w : Word p) : Bool := w.msb

/-- The word without its sign, as a number. -/
def unsigned (w : Word p) : Nat := w.toNat % twoTo (p.bits - 1)

/-- What the word without its sign stands for. -/
def magnitude (w : Word p) : Magnitude :=
  let field := w.unsigned / twoTo p.fraction
  let low := w.unsigned % twoTo p.fraction
  if field = twoTo p.exponent - 1 then
    if low = 0 then .infinite else .notNumber low
  else if field = 0 then .finite low p.least
  else .finite (twoTo p.fraction + low) (p.least + field - 1)

/-- The word with a sign and the given rest. -/
def withSign (p : Precision) (negative : Bool) (unsigned : Nat) : Word p :=
  BitVec.ofNat p.bits (if negative then twoTo (p.bits - 1) + unsigned else unsigned)

/-- The key of the total order: as integers, keys rise from negative words that are no
numbers over negative infinity, zero and positive infinity to positive ones. -/
def orderKey (w : Word p) : Int :=
  if w.isNegative then -1 - (w.unsigned : Int) else w.unsigned

end Word

/-- The quotient to the nearest natural number, a half to the even one. -/
def roundDiv (num den : Nat) : Nat :=
  let q := num / den
  let twice := 2 * (num % den)
  if twice < den then q
  else if twice = den then q + q % 2
  else q + 1

/-- The exponent of the greatest power of two that is at most `num / den`. -/
def floorLog2 (num den : Nat) : Int :=
  let e := (num.log2 : Int) - den.log2
  let (a, b) := twoPower e
  if num * b < den * a then e - 1 else e

/-- The unsigned word nearest to `num / den`; infinity where the quotient is too large. -/
def ofRatio (p : Precision) (num den : Nat) : Nat :=
  if num = 0 ∨ den = 0 then 0
  else
    let q := max (floorLog2 num den - p.fraction) p.least
    let (a, b) := twoPower q
    let m := roundDiv (num * b) (den * a)
    min ((q - p.least).toNat * twoTo p.fraction + m) p.infinity

/-- The word nearest to an integer. -/
def ofInt (p : Precision) (v : Int) : Word p := .withSign p (v < 0) (ofRatio p v.natAbs 1)

/-- The word nearest to `m · 2 ^ q`, without its sign. -/
def ofScaled (p : Precision) (m : Nat) (q : Int) : Nat :=
  let (a, b) := twoPower q
  ofRatio p (m * a) b

/-- The same number in another format; where there is none, the payload keeps its leading
bits and the quiet bit is set. -/
def convert {p : Precision} (r : Precision) (w : Word p) : Word r :=
  if p = r then BitVec.ofNat r.bits w.toNat
  else .withSign r w.isNegative (match w.magnitude with
    | .infinite => r.infinity
    | .finite m q => ofScaled r m q
    | .notNumber payload =>
      let moved := if p.fraction ≤ r.fraction then payload * twoTo (r.fraction - p.fraction)
        else payload / twoTo (p.fraction - r.fraction)
      r.infinity + (if moved < r.quiet then moved + r.quiet else moved))

/-- The integer part of a finite word; none where there is no number. -/
def truncate? {p : Precision} (w : Word p) : Option Int :=
  match w.magnitude with
  | .finite m q =>
    let (a, b) := twoPower q
    let n := m * a / b
    some (if w.isNegative then -(n : Int) else n)
  | _ => none

end ExternalSort.Binary
