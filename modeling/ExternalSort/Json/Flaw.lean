/-
What can be wrong with a document.

The first group are flaws of the text, the second of what it says.  The wording of all of
them is in `message`.
-/
import ExternalSort.Binary.Layout
import ExternalSort.Text.Quoted

namespace ExternalSort.Json

/-- A value that stands where another was expected, as far as a message shows it. -/
inductive Found where
  | null
  | boolean (value : Bool)
  | integer (value : Int)
  | number (value : Binary.Word .double)
  | text (value : String)
  | list
  | object
  deriving DecidableEq, Repr

/-- A value in words. -/
def Found.message : Found → String
  | .null => "null"
  | .boolean b => "boolean `" ++ (if b then "true" else "false") ++ "`"
  | .integer v => "integer `" ++ Text.Numeral.ofInt v ++ "`"
  | .number w => "floating point `" ++ w.render .message ++ "`"
  | .text s => "string " ++ Text.Quoted.quote s
  | .list => "sequence"
  | .object => "map"

/-- What is wrong with a document. -/
inductive Flaw where
  | endInValue
  | endInList
  | endInObject
  | endInText
  | expectedColon
  | expectedListEnd
  | expectedObjectEnd
  | expectedIdent
  | expectedValue
  | invalidEscape
  | invalidNumber
  | numberRange
  | controlCharacter
  | keyNotText
  | loneSurrogate
  | trailingComma
  | trailingCharacters
  | endOfHexEscape
  | tooDeep
  /-- Another kind of value than the expected one. -/
  | wrongType (found : Found) (expected : String)
  /-- The right kind of value, but not one of those expected. -/
  | wrongValue (found : Found) (expected : String)
  | unknownVariant (name : String) (known : List String)
  | duplicateField (name : String)
  deriving DecidableEq, Repr

/-- A name as messages set it off. -/
def ticked (name : String) : String := "`" ++ name ++ "`"

/-- A flaw in words. -/
def Flaw.message : Flaw → String
  | .endInValue => "EOF while parsing a value"
  | .endInList => "EOF while parsing a list"
  | .endInObject => "EOF while parsing an object"
  | .endInText => "EOF while parsing a string"
  | .expectedColon => "expected `:`"
  | .expectedListEnd => "expected `,` or `]`"
  | .expectedObjectEnd => "expected `,` or `\x7d`"
  | .expectedIdent => "expected ident"
  | .expectedValue => "expected value"
  | .invalidEscape => "invalid escape"
  | .invalidNumber => "invalid number"
  | .numberRange => "number out of range"
  | .controlCharacter =>
    "control character (\\u0000-\\u001F) found while parsing a string"
  | .keyNotText => "key must be a string"
  | .loneSurrogate => "lone leading surrogate in hex escape"
  | .trailingComma => "trailing comma"
  | .trailingCharacters => "trailing characters"
  | .endOfHexEscape => "unexpected end of hex escape"
  | .tooDeep => "recursion limit exceeded"
  | .wrongType found expected => "invalid type: " ++ found.message ++ ", expected " ++ expected
  | .wrongValue found expected => "invalid value: " ++ found.message ++ ", expected " ++ expected
  | .unknownVariant name known =>
    "unknown variant " ++ ticked name ++ ", expected one of " ++
      ", ".intercalate (known.map ticked)
  | .duplicateField name => "duplicate field " ++ ticked name

end ExternalSort.Json
