/-
Whole documents of any kind.

`check` reads a document as a value that is kept: its texts must be texts, its numbers
within the doubles, and lists and objects must not be nested more than 127 deep.
-/
import ExternalSort.Json.Skip

namespace ExternalSort.Json

open ExternalSort.Text

/-- How deep lists and objects may be nested in a value that is kept. -/
def greatestDepth : Nat := 127

mutual

/-- Reads a value that may hold lists and objects `depth` deep. -/
def checkValue : Nat → Nat → List Char → Except Flaw (List Char)
  | 0, _, _ => .error .endInValue
  | fuel + 1, depth, cs =>
    match skipBlank cs with
    | [] => .error .endInValue
    | 'n' :: r => word "ull".toList r
    | 't' :: r => word "rue".toList r
    | 'f' :: r => word "alse".toList r
    | '"' :: r => do .ok (← text r).2
    | '-' :: r => do .ok (← number true r).2
    | '[' :: r => if depth = 0 then .error .tooDeep else checkItems fuel (depth - 1) true r
    | '\x7b' :: r => if depth = 0 then .error .tooDeep else checkMembers fuel (depth - 1) true r
    | c :: r =>
      if Numeral.isDigit c then do .ok (← number false (c :: r)).2 else .error .expectedValue

/-- Reads the items of a list and its end. -/
def checkItems : Nat → Nat → Bool → List Char → Except Flaw (List Char)
  | 0, _, _, _ => .error .endInValue
  | fuel + 1, depth, first, cs => do
    match ← nextItem first cs with
    | none => endList cs
    | some r => checkItems fuel depth false (← checkValue fuel depth r)

/-- Reads the members of an object and its end. -/
def checkMembers : Nat → Nat → Bool → List Char → Except Flaw (List Char)
  | 0, _, _, _ => .error .endInValue
  | fuel + 1, depth, first, cs => do
    match ← nextKey first cs with
    | none => endObject cs
    | some r => do
      let (_, rest) ← text r
      checkMembers fuel depth false (← checkValue fuel depth (← colon rest))

end

/-- The flaw of a document, if it has one. -/
def check (document : String) : Except Flaw Unit := do
  let cs := document.toList
  endDocument (← checkValue (2 * cs.length + 2) greatestDepth cs)

end ExternalSort.Json
