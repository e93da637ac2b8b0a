/-
Whole numbers as decimal text.

A numeral is one optional sign and at least one digit, nothing else: no blank, no
separator, no other base.  Readers differ in whether a minus sign is allowed and in the
range they admit, so both are arguments.
-/
namespace ExternalSort.Text.Numeral

/-- The value of a decimal digit. -/
def digit? (c : Char) : Option Nat :=
  if '0' ≤ c ∧ c ≤ '9' then some (c.toNat - '0'.toNat) else none

/-- Whether a character is one of the ten ASCII digits. -/
def isDigit (c : Char) : Bool := (digit? c).isSome

/-- Adds the digits to the number read so far; none as soon as a character is no digit. -/
def digitsFrom (value : Nat) : List Char → Option Nat
  | [] => some value
  | c :: r => match digit? c with
    | some d => digitsFrom (10 * value + d) r
    | none => none

/-- The number that a run of one or more digits spells. -/
def digits? : List Char → Option Nat
  | [] => none
  | cs => digitsFrom 0 cs

/-- An unsigned numeral, with at most one plus sign, up to `limit`. -/
def unsigned? (limit : Nat) (cs : List Char) : Option Nat :=
  (match cs with
    | '+' :: r => digits? r
    | r => digits? r).filter (· ≤ limit)

/-- A signed numeral within `lo … hi`. -/
def signed? (lo hi : Int) (cs : List Char) : Option Int :=
  (match cs with
    | '+' :: r => (digits? r).map Int.ofNat
    | '-' :: r => (digits? r).map fun n => -Int.ofNat n
    | r => (digits? r).map Int.ofNat).filter fun v => lo ≤ v ∧ v ≤ hi

/-- A number in decimal. -/
def ofNat (n : Nat) : String := toString n

/-- A signed number in decimal, with a minus sign if it is negative. -/
def ofInt (v : Int) : String :=
  if v < 0 then "-" ++ ofNat v.natAbs else ofNat v.natAbs

/-- A number with at least `width` digits, zeros in front. -/
def padded (width n : Nat) : String :=
  let s := ofNat n
  String.ofList (List.replicate (width - s.length) '0') ++ s

/-- A number in lower-case hexadecimal. -/
def hex (n : Nat) : String := String.ofList (Nat.toDigits 16 n)

end ExternalSort.Text.Numeral
