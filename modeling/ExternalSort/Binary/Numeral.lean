/-
Floating point numbers from text.

A numeral is a sign, digits with at most one point and at least one digit, and an
exponent; or one of the names of infinity and of no number, in any letter case.  The
value is rounded once, from the exact decimal.  Exponents far outside the range of the
format settle the result before any power is formed.
-/
import ExternalSort.Binary.Layout
import ExternalSort.Text.Blank

namespace ExternalSort.Binary

open ExternalSort.Text

/-- The unsigned word nearest to a decimal. -/
def ofDecimal (p : Precision) (d : Decimal) : Nat :=
  if d.digits = 0 then 0
  else
    let lead := d.exponent + (Numeral.ofNat d.digits).length
    if 400 < lead then p.infinity
    else if lead < -400 then 0
    else
      let (a, b) := tenPower d.exponent
      ofRatio p (d.digits * a) b

/-- The text after a sign, and whether the sign was a minus. -/
def splitSign : List Char → Bool × List Char
  | '-' :: r => (true, r)
  | '+' :: r => (false, r)
  | r => (false, r)

/-- The exponent part after its letter: one sign and at least one digit, to the end. -/
def exponent? (cs : List Char) : Option Int :=
  let (negative, r) := splitSign cs
  (Numeral.digits? r).map fun n => if negative then -(n : Int) else n

/-- A decimal numeral without its sign. -/
def decimal? (cs : List Char) : Option Decimal :=
  let whole := cs.takeWhile Numeral.isDigit
  let afterWhole := cs.dropWhile Numeral.isDigit
  let (part, afterPart) := match afterWhole with
    | '.' :: r => (r.takeWhile Numeral.isDigit, r.dropWhile Numeral.isDigit)
    | r => ([], r)
  match Numeral.digits? (whole ++ part) with
  | none => none
  | some digits =>
    match afterPart with
    | [] => some ⟨digits, -(part.length : Int)⟩
    | e :: r =>
      if e = 'e' ∨ e = 'E' then (exponent? r).map fun x => ⟨digits, x - part.length⟩
      else none

/-- The word that a numeral spells. -/
def ofText? (p : Precision) (cs : List Char) : Option (Word p) :=
  let (negative, r) := splitSign cs
  let folded := foldCase r
  (if folded = "nan".toList then some (p.infinity + p.quiet)
    else if folded = "inf".toList ∨ folded = "infinity".toList then some p.infinity
    else (decimal? r).map (ofDecimal p)).map (.withSign p negative)

end ExternalSort.Binary
