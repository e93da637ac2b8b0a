/-
Numbers of a document.

A number without fraction and exponent that fits into 64 bits is exact.  Every other is a
double: as many leading digits as fit into 64 bits make an integer, which is rounded and
then multiplied or divided by the power of ten that remains, each step rounded; that is
what messages quote.  A result beyond the doubles is refused, one below them is zero.
-/
import ExternalSort.Binary.Numeral
import ExternalSort.Json.Lexeme

namespace ExternalSort.Json

open ExternalSort.Binary ExternalSort.Text

/-- A number as it was read. -/
inductive Number where
  | natural (n : Nat)
  | negative (v : Int)
  | double (w : Word .double)
  deriving DecidableEq, Repr

/-- The number as messages show it. -/
def Number.found : Number → Found
  | .natural n => .integer n
  | .negative v => .integer v
  | .double w => .number w

/-- The greatest natural number that is kept exactly. -/
def greatestNatural : Nat := twoTo 64 - 1

/-- Takes leading digits while the number they make fits; gives it and the digits left. -/
def gather (value : Nat) : List Char → Nat × List Char
  | [] => (value, [])
  | c :: r =>
    let next := 10 * value + (Numeral.digit? c).getD 0
    if greatestNatural < next then (value, c :: r) else gather next r

/-- `a · b` or `a / b` of finite unsigned words, rounded. -/
def scaled (multiply : Bool) (a b : Nat) : Nat :=
  match Word.magnitude (.withSign .double false a), Word.magnitude (.withSign .double false b) with
  | .finite m q, .finite n r =>
    if multiply then ofScaled .double (m * n) (q + r)
    else
      let (x, y) := twoPower (q - r)
      ofRatio .double (m * x) (n * y)
  | _, _ => Precision.double.infinity

/-- A word times a power of ten, in steps that the doubles hold; none where the result is
beyond them.  More than three steps are never needed. -/
def timesPower? (word : Nat) (exponent : Int) : Nat → Option Nat
  | 0 => some 0
  | fuel + 1 =>
    let power (e : Int) := ofDecimal .double ⟨1, e⟩
    if exponent.natAbs ≤ 308 then
      if 0 ≤ exponent then
        let r := scaled true word (power exponent)
        if r = Precision.double.infinity then none else some r
      else some (scaled false word (power (-exponent)))
    else if word = 0 then some 0
    else if 0 ≤ exponent then none
    else timesPower? (scaled false word (power 308)) (exponent + 308) fuel

/-- The double for `significand · 10 ^ exponent`. -/
def double (isNegative : Bool) (significand : Nat) (exponent : Int) : Except Flaw Number :=
  match timesPower? (ofRatio .double significand 1) exponent 4 with
  | some w => .ok (.double (.withSign .double isNegative w))
  | none => .error .numberRange

/-- The exact number, or the double where there is no exact one. -/
def exact (isNegative : Bool) (n : Nat) : Except Flaw Number :=
  if isNegative then
    if 1 ≤ n ∧ n ≤ twoTo 63 then .ok (.negative (-(n : Int))) else double true n 0
  else .ok (.natural n)

/-- One or more digits, and what follows them. -/
def someDigits (cs : List Char) : Except Flaw (List Char × List Char) :=
  match cs.takeWhile Numeral.isDigit, cs with
  | [], [] => .error .endInValue
  | [], _ => .error .invalidNumber
  | ds, _ => .ok (ds, cs.dropWhile Numeral.isDigit)

/-- Applies an exponent to what was read before it, if one follows. -/
def withExponent (isNegative : Bool) (significand : Nat) (exponent : Int) (cs : List Char) :
    Except Flaw (Number × List Char) :=
  match cs with
  | e :: r =>
    if e = 'e' ∨ e = 'E' then do
      let (down, r) := splitSign r
      let (digits, rest) ← someDigits r
      let n := (Numeral.digits? digits).getD 0
      if twoTo 31 - 1 < n then
        if significand ≠ 0 ∧ ¬down then .error .numberRange
        else .ok (.double (.withSign .double isNegative 0), rest)
      else do
        let x ← double isNegative significand (if down then exponent - n else exponent + n)
        .ok (x, rest)
    else do .ok (← double isNegative significand exponent, cs)
  | [] => do .ok (← double isNegative significand exponent, [])

/-- A number after its sign. -/
def number (isNegative : Bool) (cs : List Char) : Except Flaw (Number × List Char) := do
  let (whole, rest) ← someDigits cs
  if whole.head? = some '0' ∧ 1 < whole.length then .error .invalidNumber
  else
    let (significand, lost) := gather 0 whole
    match rest with
    | '.' :: r => do
      let (part, rest) ← someDigits r
      let (significand, left) := gather significand part
      let taken := part.length - left.length
      withExponent isNegative significand (lost.length - taken) rest
    | c :: _ =>
      if lost = [] ∧ c ≠ 'e' ∧ c ≠ 'E' then do .ok (← exact isNegative significand, rest)
      else withExponent isNegative significand lost.length rest
    | [] =>
      if lost = [] then do .ok (← exact isNegative significand, [])
      else withExponent isNegative significand lost.length []

/-- A number with its sign. -/
def signedNumber (cs : List Char) : Except Flaw (Number × List Char) :=
  match cs with
  | '-' :: r => number true r
  | _ => number false cs

end ExternalSort.Json
