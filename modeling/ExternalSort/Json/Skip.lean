/-
Values that nobody asked for.

An unknown key may carry any value.  The value is passed over: its shape is checked, its
numbers and texts only as far as is needed to find their ends, and it may be nested as
deep as it likes.
-/
import ExternalSort.Json.Number

namespace ExternalSort.Json

open ExternalSort.Text

/-- Passes what follows a backslash; a number is only counted off. -/
def skipEscape (cs : List Char) : Except Flaw (List Char) :=
  match cs with
  | [] => .error .endInText
  | c :: r =>
    if c = 'u' then do
      let (_, rest) ← fourHex r
      .ok rest
    else match simpleEscape? c with
      | some _ => .ok r
      | none => .error .invalidEscape

/-- Passes the rest of a text after its opening quote. -/
def skipTextFrom : Nat → List Char → Except Flaw (List Char)
  | 0, _ => .error .endInText
  | _, [] => .error .endInText
  | fuel + 1, c :: r =>
    if c = '"' then .ok r
    else if c = '\\' then
      match skipEscape r with
      | .error f => .error f
      | .ok rest => skipTextFrom fuel rest
    else if c.toNat < 0x20 then .error .controlCharacter
    else skipTextFrom fuel r

/-- Passes the rest of a text after its opening quote. -/
def skipText (cs : List Char) : Except Flaw (List Char) := skipTextFrom (cs.length + 1) cs

/-- Passes one or more digits. -/
def skipDigits (cs : List Char) : Except Flaw (List Char) :=
  if (cs.takeWhile Numeral.isDigit).isEmpty then .error .invalidNumber
  else .ok (cs.dropWhile Numeral.isDigit)

/-- Passes an exponent, if one follows. -/
def skipExponent (cs : List Char) : Except Flaw (List Char) :=
  match cs with
  | e :: r =>
    if e = 'e' ∨ e = 'E' then skipDigits (Binary.splitSign r).2 else .ok cs
  | [] => .ok []

/-- Passes a number after its sign. -/
def skipNumber (cs : List Char) : Except Flaw (List Char) := do
  let rest ← skipDigits cs
  if cs.head? = some '0' ∧ 1 < (cs.takeWhile Numeral.isDigit).length then .error .invalidNumber
  else match rest with
    | '.' :: r => skipExponent (← skipDigits r)
    | _ => skipExponent rest

/-- Passes the key of an object and its colon. -/
def skipKey (cs : List Char) : Except Flaw (List Char) :=
  match skipBlank cs with
  | '"' :: r => do colon (← skipText r)
  | [] => .error .endInObject
  | _ => .error .keyNotText

mutual

/-- Passes a value.  The fuel bounds the number of values and marks, so the number of
characters left is enough. -/
def skipValue : Nat → List Char → Except Flaw (List Char)
  | 0, _ => .error .endInValue
  | fuel + 1, cs =>
    match skipBlank cs with
    | [] => .error .endInValue
    | 'n' :: r => word "ull".toList r
    | 't' :: r => word "rue".toList r
    | 'f' :: r => word "alse".toList r
    | '"' :: r => skipText r
    | '-' :: r => skipNumber r
    | '[' :: r => match skipBlank r with
      | [] => .error .endInList
      | ']' :: s => .ok s
      | s => skipItems fuel s
    | '\x7b' :: r => match skipBlank r with
      | [] => .error .endInObject
      | '\x7d' :: s => .ok s
      | s => skipMembers fuel s
    | c :: r => if Numeral.isDigit c then skipNumber (c :: r) else .error .expectedValue

/-- Passes the items of a list, one at least, and its end. -/
def skipItems : Nat → List Char → Except Flaw (List Char)
  | 0, _ => .error .endInValue
  | fuel + 1, cs => do
    let rest ← skipValue fuel cs
    match skipBlank rest with
    | ']' :: r => .ok r
    | ',' :: r => skipItems fuel r
    | [] => .error .endInList
    | _ => .error .expectedListEnd

/-- Passes the members of an object, one at least, and its end. -/
def skipMembers : Nat → List Char → Except Flaw (List Char)
  | 0, _ => .error .endInValue
  | fuel + 1, cs => do
    let value ← skipKey cs
    let rest ← skipValue fuel value
    match skipBlank rest with
    | '\x7d' :: r => .ok r
    | ',' :: r => skipMembers fuel r
    | [] => .error .endInObject
    | _ => .error .expectedObjectEnd

end

/-- Passes a value of any kind. -/
def skip (cs : List Char) : Except Flaw (List Char) := skipValue (2 * cs.length + 2) cs

end ExternalSort.Json
