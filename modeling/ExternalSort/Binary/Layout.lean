/-
How a floating point number is laid out as text.

The digits are always the fewest that read back; what differs between outputs is where
positional writing ends and whether a positive exponent carries a sign.  Each output has
one `Layout` value, and the three of this library stand together here.
-/
import ExternalSort.Binary.Shortest
import ExternalSort.Text.Numeral

namespace ExternalSort.Binary

open ExternalSort.Text

/-- The decisions of one output. -/
structure Layout where
  /-- The least exponent of the leading digit that is written positionally. -/
  least : Int
  /-- The greatest such exponent. -/
  greatest : Int
  /-- Whether a positive exponent carries a plus sign. -/
  plus : Bool

/-- Text cells made of double cells. -/
def Layout.doubleCell : Layout := ⟨-5, 15, false⟩

/-- Text cells made of single cells. -/
def Layout.singleCell : Layout := ⟨-6, 12, false⟩

/-- Numbers quoted in messages about a document. -/
def Layout.message : Layout := ⟨-5, 15, true⟩

/-- Digits with a point before position `point`, at least one digit on either side. -/
def positional (digits : List Char) (point : Int) : List Char :=
  if point ≤ 0 then
    ['0', '.'] ++ List.replicate (-point).toNat '0' ++ digits
  else
    let n := point.toNat
    if digits.length ≤ n then
      digits ++ List.replicate (n - digits.length) '0' ++ ['.', '0']
    else digits.take n ++ ['.'] ++ digits.drop n

/-- One digit, a point if more follow, and the exponent. -/
def scientific (layout : Layout) (digits : List Char) (lead : Int) : List Char :=
  digits.take 1 ++ (if digits.length ≤ 1 then [] else '.' :: digits.drop 1) ++ ['e'] ++
    (if layout.plus && 0 ≤ lead then ['+'] else []) ++ (Numeral.ofInt lead).toList

/-- A positive decimal in a layout. -/
def Decimal.render (layout : Layout) (d : Decimal) : List Char :=
  let digits := (Numeral.ofNat d.digits).toList
  let lead := d.exponent + digits.length - 1
  if layout.least ≤ lead ∧ lead ≤ layout.greatest then positional digits (lead + 1)
  else scientific layout digits lead

/-- A word in a layout. -/
def Word.render {p : Precision} (layout : Layout) (w : Word p) : String :=
  let sign := if w.isNegative then "-" else ""
  match w.magnitude with
  | .notNumber _ => "NaN"
  | .infinite => sign ++ "inf"
  | .finite 0 _ => sign ++ "0.0"
  | .finite m q => sign ++ String.ofList ((shortest p m q).render layout)

end ExternalSort.Binary
