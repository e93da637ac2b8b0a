/-
Texts and numbers written into a document.

Quotes, backslashes and controls are escaped and nothing else: the document is in UTF-8.
-/
import ExternalSort.Text.Numeral

namespace ExternalSort.Json

/-- One digit of a number in lower-case hexadecimal. -/
def hexDigit (n : Nat) : Char := Nat.digitChar n

/-- One character of a text. -/
def escape (c : Char) : List Char :=
  if c = '"' then ['\\', '"']
  else if c = '\\' then ['\\', '\\']
  else if c = '\x08' then ['\\', 'b']
  else if c = '\x0c' then ['\\', 'f']
  else if c = '\n' then ['\\', 'n']
  else if c = '\r' then ['\\', 'r']
  else if c = '\t' then ['\\', 't']
  else if c.toNat < 0x20 then ['\\', 'u', '0', '0', hexDigit (c.toNat / 16), hexDigit (c.toNat % 16)]
  else [c]

/-- A text with its quotes. -/
def quote (s : String) : List Char := ['"'] ++ s.toList.flatMap escape ++ ['"']

/-- Parts with commas between them. -/
def commaSeparated : List (List Char) → List Char
  | [] => []
  | [p] => p
  | p :: ps => p ++ ',' :: commaSeparated ps

/-- A list of written values. -/
def list (items : List (List Char)) : List Char := ['['] ++ commaSeparated items ++ [']']

/-- An object of keys with written values. -/
def object (members : List (String × List Char)) : List Char :=
  ['\x7b'] ++ commaSeparated (members.map fun (k, v) => quote k ++ ':' :: v) ++ ['\x7d']

end ExternalSort.Json
