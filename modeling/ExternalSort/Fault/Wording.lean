/-
Failures in words.

`message` gives a failure as one text: a heading for its part and the cause.  `sources`
lists the failures behind it, nearest first, each in its own words; a failure of input or
output, or of the columnar format, stands there once more without the heading.
-/
import ExternalSort.Fault.Basic

namespace ExternalSort.Fault

/-- A storage failure in words. -/
def StorageCause.message : StorageCause → String
  | .afterFailure stage file => s!"an earlier {stage.name} of {file.display} failed"
  | .refused call => s!"{call} refused"
  | .note text => text

/-- A failure of shape in words. -/
def SchemaCause.message : SchemaCause → String
  | .notInTarget column => s!"column '{column}' is not part of the target schema"
  | .missingRequired column rows =>
    s!"cannot add non-nullable column '{column}' to {rows} existing rows"
  | .transferWidth incoming present =>
    s!"cannot transfer {incoming} columns into a container of {present}"
  | .note text => text

/-- A failure of written data in words. -/
def DataCause.message : DataCause → String
  | .document flaw => flaw.message
  | .pathNotText => "path contains invalid UTF-8 characters"
  | .noBatch => "spill frame holds no batch"
  | .frameTooLong length => s!"spill frame length {length} exceeds limit"
  | .batchTooLong length => s!"batch of {length} encoded bytes exceeds the spill frame limit"
  | .note text => text

/-- A senseless argument in words. -/
def ArgumentCause.message : ArgumentCause → String
  | .emptyBuffer => "spill buffer size must be positive"
  | .operatorId id => s!"invalid spill operator id '{id}'"
  | .variableNotText name => s!"{name}: value is not valid UTF-8"
  | .notSize name value => s!"{name}: '{value}' is not a size"
  | .unknownCodec name value => s!"{name}: unknown codec '{value}'"
  | .nullIndices => "selection indices must not contain nulls"
  | .sortColumn index width => s!"sort column {index} out of range ({width} columns)"
  | .tooManyRows rows => s!"{rows} rows exceed the selection vector limit of 4294967295"
  | .selectionIndex index rows => s!"selection index {index} out of range for {rows} rows"
  | .note text => text

/-- An operation at the wrong time: what was asked for, and why not now. -/
def OperationCause.parts : OperationCause → String × String
  | .addAfterFailure stage file =>
    ("cannot add a batch to a spilled run", s!"an earlier {stage.name} of {file.display} failed")
  | .addInPhase phase => ("cannot add a batch to a spilled run", s!"run is {phase.name}")
  | .readClosed => ("cannot read from a spilled run", "run is closed")
  | .note message context => (message, context)

/-- A missing operation in words. -/
def UnsupportedCause.message : UnsupportedCause → String
  | .selection => "batch groups do not expose a selection vector; use next_index"
  | .wideSelection => "batch groups do not support four-byte selection vectors"
  | .note text => text

/-- A failure of the library itself in words. -/
def InternalCause.message : InternalCause → String
  | .noReader phase => s!"spilled run has no reader in state {phase.name}"
  | .note text => text

/-- A failure in words. -/
def message : Fault → String
  | .storage c => "storage error: " ++ c.message
  | .schema c => "schema error: " ++ c.message
  | .columnar c => "arrow error: " ++ c.message
  | .io c => "io error: " ++ c.message
  | .typeMismatch expected actual => s!"type mismatch: expected {expected}, got {actual}"
  | .data c => "serialization error: " ++ c.message
  | .operation c => "invalid operation: " ++ c.parts.1 ++ "\nContext: " ++ c.parts.2
  | .arguments c => "invalid arguments: " ++ c.message
  | .unsupported c => "unsupported operation: " ++ c.message
  | .dataRead heading cause => "data read error: " ++ heading ++ ": " ++ cause.message
  | .internal c => "internal error: " ++ c.message

/-- The failures behind a failure, nearest first. -/
def sources : Fault → List String
  | .columnar c => [c.message]
  | .io c => [c.message]
  | .dataRead _ cause => cause.message :: cause.sources
  | _ => []

end ExternalSort.Fault
