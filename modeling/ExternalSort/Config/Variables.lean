/-
The configuration from variables.

Four variables override the standard settings.  A variable holds octets; only the
directories may be other than text.  The variables are looked at in a fixed order, and the
first that is wrong is the one reported.
-/
import ExternalSort.Config.Basic
import ExternalSort.Text.Numeral

namespace ExternalSort.SpillConfig

open Text

/-- The variable with the spill directories. -/
def directoriesVariable : String := "DBX_SPILL_DIRS"

/-- The variable with the operator's name. -/
def operatorVariable : String := "DBX_SPILL_OPERATOR_ID"

/-- The variable with the buffer size. -/
def bufferVariable : String := "DBX_SPILL_BUFFER_SIZE"

/-- The variable with the name of the compression. -/
def compressionVariable : String := "DBX_SPILL_COMPRESSION"

/-- The octet between two directories. -/
def listSeparator : UInt8 := 0x3A

/-- Octets cut at every occurrence of one of them. -/
def cutAt (separator : UInt8) : Bytes → List Bytes
  | [] => [[]]
  | b :: r =>
    if b = separator then [] :: cutAt separator r
    else match cutAt separator r with
      | [] => [[b]]
      | p :: ps => (b :: p) :: ps

/-- The directories in a list of them; empty parts name none. -/
def directoryList (value : Bytes) : List Storage.Path :=
  ((cutAt listSeparator value).filter (· ≠ [])).map Storage.Path.mk

/-- The text of a variable, if it is set. -/
def textOf (lookup : String → Option Bytes) (name : String) : Except Fault (Option String) :=
  match lookup name with
  | none => .ok none
  | some value => match Utf8.decode? value with
    | some s => .ok (some s)
    | none => .error (.arguments (.variableNotText name))

/-- The size that a text spells, blanks around it aside. -/
def sizeOf? (s : String) : Option Nat := Numeral.unsigned? greatestBuffer (trimBlank s)

/-- The configuration that the variables ask for. -/
def ofVariables (lookup : String → Option Bytes) : Except Fault SpillConfig := do
  let directories := (lookup directoriesVariable).map directoryList
  let operatorId ← textOf lookup operatorVariable
  let bufferSize ← match ← textOf lookup bufferVariable with
    | none => .ok none
    | some s => match sizeOf? s with
      | some n => .ok (some n)
      | none => .error (.arguments (.notSize bufferVariable s))
  let compression ← match ← textOf lookup compressionVariable with
    | none => .ok none
    | some s => match Compression.ofTyped? s with
      | some c => .ok (some c)
      | none => .error (.arguments (.unknownCodec compressionVariable s))
  (Draft.complete ⟨directories, operatorId, bufferSize, compression⟩).checked

end ExternalSort.SpillConfig
