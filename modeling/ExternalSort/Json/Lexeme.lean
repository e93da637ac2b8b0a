/-
The small parts of a document: blanks, words, texts and the marks between values.

Every function takes the characters left and gives back those left after it.  Where a
document is damaged the flaw that is reported is the first that a reader going from left
to right meets, so the functions are careful about the order of their tests.
-/
import ExternalSort.Json.Flaw
import ExternalSort.Text.Utf8

namespace ExternalSort.Json

/-- The characters that may stand between the parts. -/
def isBlank (c : Char) : Bool := c == ' ' || c == '\n' || c == '\t' || c == '\r'

/-- The characters after the blanks. -/
def skipBlank (cs : List Char) : List Char := cs.dropWhile isBlank

/-- Passes the given characters. -/
def word : List Char → List Char → Except Flaw (List Char)
  | [], cs => .ok cs
  | _ :: _, [] => .error .endInValue
  | w :: ws, c :: cs => if c = w then word ws cs else .error .expectedIdent

/-! ### Texts -/

/-- The value of a hexadecimal digit. -/
def hexDigit? (c : Char) : Option Nat :=
  if '0' ≤ c ∧ c ≤ '9' then some (c.toNat - 48)
  else if 'a' ≤ c ∧ c ≤ 'f' then some (c.toNat - 87)
  else if 'A' ≤ c ∧ c ≤ 'F' then some (c.toNat - 55)
  else none

/-- The number that four hexadecimal digits spell. -/
def fourHex? (cs : List Char) : Option (Nat × List Char) :=
  match cs with
  | a :: b :: c :: d :: r => do
    some (4096 * (← hexDigit? a) + 256 * (← hexDigit? b) + 16 * (← hexDigit? c) + (← hexDigit? d), r)
  | _ => none

/-- Four hexadecimal digits.  With fewer than four octets left the text ends too early,
otherwise it is the escape that is wrong. -/
def fourHex (cs : List Char) : Except Flaw (Nat × List Char) :=
  match fourHex? cs with
  | some r => .ok r
  | none =>
    if (String.ofList (cs.take 4)).utf8ByteSize < 4 then .error .endInText
    else .error .invalidEscape

/-- The second half of a character that needs two escapes. -/
def lowHalf (high : Nat) (cs : List Char) : Except Flaw (Char × List Char) :=
  match cs with
  | [] => .error .endInText
  | '\\' :: [] => .error .endInText
  | '\\' :: 'u' :: r => do
    let (low, rest) ← fourHex r
    if low < 0xDC00 ∨ 0xDFFF < low then .error .loneSurrogate
    else .ok (Char.ofNat (0x10000 + (high - 0xD800) * 1024 + (low - 0xDC00)), rest)
  | _ => .error .endOfHexEscape

/-- A character given by its number, the digits still to be read. -/
def numbered (cs : List Char) : Except Flaw (Char × List Char) := do
  let (n, rest) ← fourHex cs
  if 0xDC00 ≤ n ∧ n ≤ 0xDFFF then .error .loneSurrogate
  else if 0xD800 ≤ n ∧ n ≤ 0xDBFF then lowHalf n rest
  else .ok (Char.ofNat n, rest)

/-- The character that a letter after a backslash stands for. -/
def simpleEscape? (c : Char) : Option Char :=
  if c = '"' then some '"'
  else if c = '\\' then some '\\'
  else if c = '/' then some '/'
  else if c = 'b' then some '\x08'
  else if c = 'f' then some '\x0c'
  else if c = 'n' then some '\n'
  else if c = 'r' then some '\r'
  else if c = 't' then some '\t'
  else none

/-- What follows a backslash. -/
def escaped (cs : List Char) : Except Flaw (Char × List Char) :=
  match cs with
  | [] => .error .endInText
  | c :: r =>
    if c = 'u' then numbered r
    else match simpleEscape? c with
      | some d => .ok (d, r)
      | none => .error .invalidEscape

/-- The rest of a text after its opening quote, `read` being what was read of it, last
character first.  Each step passes at least one character. -/
def textFrom (read : List Char) : Nat → List Char → Except Flaw (String × List Char)
  | 0, _ => .error .endInText
  | _, [] => .error .endInText
  | fuel + 1, c :: r =>
    if c = '"' then .ok (String.ofList read.reverse, r)
    else if c = '\\' then
      match escaped r with
      | .error f => .error f
      | .ok (d, rest) => textFrom (d :: read) fuel rest
    else if c.toNat < 0x20 then .error .controlCharacter
    else textFrom (c :: read) fuel r

/-- The rest of a text after its opening quote. -/
def text (cs : List Char) : Except Flaw (String × List Char) := textFrom [] (cs.length + 1) cs

/-! ### Marks between values -/

/-- Passes the colon between a key and its value. -/
def colon (cs : List Char) : Except Flaw (List Char) :=
  match skipBlank cs with
  | ':' :: r => .ok r
  | [] => .error .endInObject
  | _ => .error .expectedColon

/-- Goes to the next item of a list, or finds the list at its end. -/
def nextItem (first : Bool) (cs : List Char) : Except Flaw (Option (List Char)) :=
  match skipBlank cs with
  | [] => .error .endInList
  | ']' :: _ => .ok none
  | c :: r =>
    if first then .ok (some (c :: r))
    else if c = ',' then
      match skipBlank r with
      | [] => .error .endInValue
      | ']' :: _ => .error .trailingComma
      | s => .ok (some s)
    else .error .expectedListEnd

/-- Goes to the next key of an object, past its opening quote, or finds the object at its
end. -/
def nextKey (first : Bool) (cs : List Char) : Except Flaw (Option (List Char)) :=
  match skipBlank cs with
  | [] => .error .endInObject
  | '\x7d' :: _ => .ok none
  | c :: r =>
    if first then
      if c = '"' then .ok (some r) else .error .keyNotText
    else if c = ',' then
      match skipBlank r with
      | '"' :: s => .ok (some s)
      | '\x7d' :: _ => .error .trailingComma
      | [] => .error .endInValue
      | _ => .error .keyNotText
    else .error .expectedObjectEnd

/-- Passes the bracket that ends a list all of whose places are filled. -/
def endList (cs : List Char) : Except Flaw (List Char) :=
  match skipBlank cs with
  | ']' :: r => .ok r
  | ',' :: r => match skipBlank r with
    | ']' :: _ => .error .trailingComma
    | _ => .error .trailingCharacters
  | [] => .error .endInList
  | _ => .error .trailingCharacters

/-- Passes the brace that ends an object. -/
def endObject (cs : List Char) : Except Flaw (List Char) :=
  match skipBlank cs with
  | '\x7d' :: r => .ok r
  | ',' :: _ => .error .trailingComma
  | [] => .error .endInObject
  | _ => .error .trailingCharacters

/-- After the value of a document there may be blanks only. -/
def endDocument (cs : List Char) : Except Flaw Unit :=
  match skipBlank cs with
  | [] => .ok ()
  | _ => .error .trailingCharacters

end ExternalSort.Json
