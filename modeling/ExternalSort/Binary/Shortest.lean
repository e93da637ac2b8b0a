/-
The fewest digits that read back.

The reals that round to a word form an interval around `m · 2 ^ q`: half a place on
either side, a quarter place below where the word is the first of its exponent, and the
ends belong to it exactly if `m` is even.  For one digit, two digits and so on the two
neighbours of the value on the grid of that many digits are tried; the first grid with a
neighbour inside the interval wins, and of two neighbours inside the nearer, of two
equally near the even one.
-/
import ExternalSort.Binary.Format

namespace ExternalSort.Binary

/-- A decimal number `digits · 10 ^ exponent`. -/
structure Decimal where
  digits : Nat
  exponent : Int
  deriving DecidableEq, Repr

/-- The exponent of the greatest power of ten that is at most `num / den`.  The estimate
from the binary logarithm is off by at most one. -/
def floorLog10 (num den : Nat) : Int :=
  let e := Int.fdiv (floorLog2 num den * 30103) 100000
  let (a, b) := tenPower e
  if num * b < den * a then e - 1
  else
    let (a, b) := tenPower (e + 1)
    if num * b < den * a then e else e + 1

/-- The interval of the reals that round to a word, in quarters of its last place. -/
structure Interval where
  low : Nat
  value : Nat
  high : Nat
  /-- Whether the ends belong to it. -/
  closed : Bool

/-- The interval of the word for `m · 2 ^ q`. -/
def Interval.of (p : Precision) (m : Nat) (q : Int) : Interval where
  low := if m = twoTo p.fraction ∧ p.least < q then 4 * m - 1 else 4 * m - 2
  value := 4 * m
  high := 4 * m + 2
  closed := m % 2 == 0

/-- Whether `x` lies in the interval when one quarter place is worth `unit`. -/
def Interval.holds (i : Interval) (unit x : Nat) : Bool :=
  if i.closed then i.low * unit ≤ x && x ≤ i.high * unit
  else i.low * unit < x && x < i.high * unit

/-- The number on the grid of `n` digits that reads back, if there is one. -/
def onGrid? (i : Interval) (q lead : Int) (n : Nat) : Option Decimal :=
  let place := lead - n + 1
  let (ta, tb) := tenPower place
  let (a, b) := twoPower (q - 2)
  -- Over the common denominator `b * tb` a quarter place is `a * tb` and a grid step `ta * b`.
  let unit := a * tb
  let step := ta * b
  let v := i.value * unit
  let d := v / step
  let below := i.holds unit (d * step)
  let above := i.holds unit ((d + 1) * step)
  let digits? :=
    if below && above then
      let down := v - d * step
      let up := (d + 1) * step - v
      if down < up then some d
      else if up < down then some (d + 1)
      else some (d + d % 2)
    else if below then some d
    else if above then some (d + 1)
    else none
  digits?.map (⟨·, place⟩)

/-- Tries the grids of `n`, `n + 1`, … digits, `fuel` of them at most. -/
def firstGrid (i : Interval) (q lead : Int) (n : Nat) : Nat → Option Decimal
  | 0 => none
  | fuel + 1 => match onGrid? i q lead n with
    | some d => some d
    | none => firstGrid i q lead (n + 1) fuel

/-- The number without trailing zeros in its digits. -/
def Decimal.trim (d : Decimal) : Nat → Decimal
  | 0 => d
  | fuel + 1 =>
    if d.digits % 10 = 0 ∧ d.digits ≠ 0 then Decimal.trim ⟨d.digits / 10, d.exponent + 1⟩ fuel
    else d

/-- The shortest decimal that reads back as `m · 2 ^ q`.  Seventeen digits always do. -/
def shortest (p : Precision) (m : Nat) (q : Int) : Decimal :=
  if m = 0 then ⟨0, 0⟩
  else
    let (a, b) := twoPower q
    match firstGrid (.of p m q) q (floorLog10 (m * a) b) 1 17 with
    | some d => d.trim 17
    | none => ⟨0, 0⟩

end ExternalSort.Binary
