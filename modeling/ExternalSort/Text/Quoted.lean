/-
A text between quotes, as messages show it.

Quotes and backslashes get a backslash, the usual controls their letter, and every other
hidden character its number in braces.  The braces are given by number here because they
are plain characters of the output.
-/
import ExternalSort.Text.Hidden
import ExternalSort.Text.Numeral

namespace ExternalSort.Text.Quoted

/-- One character inside the quotes. -/
def escape (c : Char) : List Char :=
  if c = '"' then ['\\', '"']
  else if c = '\\' then ['\\', '\\']
  else if c = '\n' then ['\\', 'n']
  else if c = '\r' then ['\\', 'r']
  else if c = '\t' then ['\\', 't']
  else if c = '\x00' then ['\\', '0']
  else if Hidden.isHidden c then
    ['\\', 'u', '\x7b'] ++ (Numeral.hex c.toNat).toList ++ ['\x7d']
  else [c]

/-- The text in quotes. -/
def quote (s : String) : String :=
  "\"" ++ String.ofList (s.toList.flatMap escape) ++ "\""

end ExternalSort.Text.Quoted
