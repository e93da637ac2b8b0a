/-
Dates as text.

Printing gives year, month and day with dashes between; a year outside 0 … 9999 carries
its sign.  Reading takes more spellings: the printed one, years with a sign, months and
days of one digit, eight digits in a row, and a full timestamp, whose offset moves it to
the day it has in universal time.  What is none of these is no date.
-/
import ExternalSort.Binary.Power
import ExternalSort.Calendar.Day
import ExternalSort.Text.Blank
import ExternalSort.Text.Numeral

namespace ExternalSort.Calendar

open ExternalSort.Text

/-- The years that dates can have. -/
def leastYear : Int := -262143

/-- The last of the years that dates can have. -/
def greatestYear : Int := 262142

/-- Whether the year is one that dates can have. -/
def yearInRange (year : Int) : Bool := leastYear ≤ year && year ≤ greatestYear

/-- Two digits with the value they spell. -/
def twoDigits? (a b : Char) : Option Nat := Numeral.digits? [a, b]

/-- The date printed: four digits of the year, or its sign and at least four digits. -/
def Date.render (d : Date) : String :=
  let year :=
    if 0 ≤ d.year ∧ d.year ≤ 9999 then Numeral.padded 4 d.year.natAbs
    else (if d.year < 0 then "-" else "+") ++ Numeral.padded 4 d.year.natAbs
  s!"{year}-{Numeral.padded 2 d.month}-{Numeral.padded 2 d.day}"

/-- The text of a day, unless its year is outside the range of dates. -/
def render? (days : Int) : Option String :=
  let d := Date.ofDays days
  if yearInRange d.year then some d.render else none

/-- The day of a date that exists and whose year is in range. -/
def dayOf? (year : Int) (month day : Nat) : Option Int :=
  let d : Date := ⟨year, month, day⟩
  if d.isValid && yearInRange year then some d.toDays else none

/-- A year with a sign, a month and a day, with dashes between them. -/
def signedDate? (negative : Bool) (cs : List Char) : Option Int :=
  let year := cs.takeWhile Numeral.isDigit
  if year.length < 4 then none
  else match cs.dropWhile Numeral.isDigit with
    | '-' :: r =>
      match r.dropWhile (· ≠ '-') with
      | '-' :: day => do
        let y ← Numeral.digits? year
        let m ← Numeral.unsigned? (Binary.twoTo 32 - 1) (r.takeWhile (· ≠ '-'))
        let d ← Numeral.unsigned? (Binary.twoTo 32 - 1) day
        dayOf? (if negative then -(y : Int) else y) m d
      | _ => none
    | _ => none

/-- A date of at most ten octets: a year of four digits, then month and day of one or two
digits with dashes before them, or month and day of two digits each without.  After a day
with a dash before it there may be anything but digits. -/
def shortDate? (cs : List Char) : Option Int :=
  match cs with
  | a :: b :: c :: e :: '-' :: r =>
    let month := r.takeWhile Numeral.isDigit
    match r.dropWhile Numeral.isDigit with
    | '-' :: s =>
      let day := s.takeWhile Numeral.isDigit
      if month.length ≤ 2 ∧ day.length ≤ 2 ∧ (s.dropWhile Numeral.isDigit).all (!Numeral.isDigit ·)
      then do
        dayOf? (← Numeral.digits? [a, b, c, e]) (← Numeral.digits? month) (← Numeral.digits? day)
      else none
    | _ => none
  | [a, b, c, e, m, n, d, f] => do
    dayOf? (← Numeral.digits? [a, b, c, e]) (← Numeral.digits? [m, n]) (← Numeral.digits? [d, f])
  | _ => none

/-- A time of day in seconds; the sixtieth second of a minute counts as its last. -/
def secondsOfDay? (h1 h2 m1 m2 s1 s2 : Char) : Option Nat := do
  let h ← twoDigits? h1 h2
  let m ← twoDigits? m1 m2
  let s ← twoDigits? s1 s2
  if h < 24 && m < 60 && s ≤ 60 then some (3600 * h + 60 * m + min s 59) else none

/-- A time of day and what follows it: `HH:MM:SS` with an optional fraction, or `HHMMSS`
with no digit among the two characters after it. -/
def timeOfDay? (cs : List Char) : Option (Nat × List Char) :=
  match cs with
  | h1 :: h2 :: ':' :: m1 :: m2 :: ':' :: s1 :: s2 :: r => do
    let t ← secondsOfDay? h1 h2 m1 m2 s1 s2
    match r with
    | '.' :: f =>
      if (f.takeWhile Numeral.isDigit).isEmpty then none
      else some (t, f.dropWhile Numeral.isDigit)
    | _ => some (t, r)
  | h1 :: h2 :: m1 :: m2 :: s1 :: s2 :: r =>
    if (r.take 2).any Numeral.isDigit then none
    else (secondsOfDay? h1 h2 m1 m2 s1 s2).map (·, r)
  | _ => none

/-- An offset of hours and minutes with a sign, less than a day. -/
def signedOffset? (sign h1 h2 m1 m2 : Char) : Option Int := do
  let seconds := 3600 * (← twoDigits? h1 h2) + 60 * (← twoDigits? m1 m2)
  if 86400 ≤ seconds then none
  else if sign = '+' then some seconds
  else if sign = '-' then some (-(seconds : Int))
  else none

/-- The offset from universal time in seconds: nothing, `Z`, or blanks and a sign with
hours and optional minutes. -/
def offset? (cs : List Char) : Option Int :=
  match cs with
  | [] => some 0
  | ['Z'] | ['z'] => some 0
  | _ => match cs.dropWhile isBlank with
    | [s, h1, h2, ':', m1, m2] => signedOffset? s h1 h2 m1 m2
    | [s, h1, h2, m1, m2] => signedOffset? s h1 h2 m1 m2
    | [s, h1, h2] => signedOffset? s h1 h2 '0' '0'
    | _ => none

/-- A timestamp: a date of ten characters, a separator, a time of day and an offset. -/
def timestamp? (cs : List Char) : Option Int :=
  match cs with
  | a :: b :: c :: e :: '-' :: m :: n :: '-' :: d :: f :: sep :: r => do
    let days ← dayOf? (← Numeral.digits? [a, b, c, e]) (← twoDigits? m n) (← twoDigits? d f)
    if sep = 'T' ∨ sep = 't' ∨ sep = ' ' then
      let (seconds, rest) ← timeOfDay? r
      let offset ← offset? rest
      some (Int.fdiv (days * 86400 + seconds - offset) 86400)
    else none
  | _ => none

/-- The day that a text spells. -/
def ofText? (s : String) : Option Int :=
  match s.toList with
  | '-' :: r => signedDate? true r
  | '+' :: r => signedDate? false r
  | cs => if s.utf8ByteSize ≤ 10 then shortDate? cs else timestamp? cs

end ExternalSort.Calendar
