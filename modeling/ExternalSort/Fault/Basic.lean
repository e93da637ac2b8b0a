/-
What can go wrong.

`Fault` divides failures by the part of the library that reports them.  Inside a part each
constructor names one cause and holds what a reader of the message wants to know; a
`note` is a failure in words that came from elsewhere.  The wording of all of them is one
function, `Fault.message`.
-/
import ExternalSort.Fault.Columnar
import ExternalSort.Fault.Io
import ExternalSort.Json.Flaw
import ExternalSort.Run.Phase
import ExternalSort.Storage.Path

namespace ExternalSort

namespace Fault

/-- Failures of the spill storage. -/
inductive StorageCause where
  /-- An earlier stage of the run in this file failed. -/
  | afterFailure (stage : Run.Stage) (file : Storage.Path)
  /-- A channel refuses a call. -/
  | refused (call : String)
  | note (text : String)
  deriving DecidableEq

/-- Failures about the shape of batches. -/
inductive SchemaCause where
  /-- A column would be dropped. -/
  | notInTarget (column : String)
  /-- A required column cannot be filled for rows that exist. -/
  | missingRequired (column : String) (rows : Nat)
  /-- Columns are transferred into a batch that has another number of them. -/
  | transferWidth (incoming present : Nat)
  | note (text : String)
  deriving DecidableEq

/-- Failures of writing data down and reading it back. -/
inductive DataCause where
  /-- A document is not well formed, or says something else than it should. -/
  | document (flaw : Json.Flaw)
  /-- A path that should be written into a document is no text. -/
  | pathNotText
  /-- A frame whose stream ends before a batch. -/
  | noBatch
  /-- A frame announces more octets than a frame may have. -/
  | frameTooLong (length : Nat)
  /-- A batch has more octets than a frame may have. -/
  | batchTooLong (length : Nat)
  | note (text : String)
  deriving DecidableEq

/-- Arguments that make no sense. -/
inductive ArgumentCause where
  | emptyBuffer
  | operatorId (id : String)
  | variableNotText (name : String)
  | notSize (name value : String)
  | unknownCodec (name value : String)
  | nullIndices
  | sortColumn (index width : Nat)
  | tooManyRows (rows : Nat)
  | selectionIndex (index rows : Nat)
  | note (text : String)
  deriving DecidableEq

/-- Operations at the wrong time. -/
inductive OperationCause where
  /-- Adding to a run that failed. -/
  | addAfterFailure (stage : Run.Stage) (file : Storage.Path)
  /-- Adding to a run that is no longer written. -/
  | addInPhase (phase : Run.Phase)
  /-- Reading from a closed run. -/
  | readClosed
  | note (message context : String)
  deriving DecidableEq

/-- Operations that a group does not have. -/
inductive UnsupportedCause where
  | selection
  | wideSelection
  | note (text : String)
  deriving DecidableEq

/-- Failures that only a flaw of the library itself could cause. -/
inductive InternalCause where
  | noReader (phase : Run.Phase)
  | note (text : String)
  deriving DecidableEq

end Fault

open Fault in
/-- A failure. -/
inductive Fault where
  | storage (cause : StorageCause)
  | schema (cause : SchemaCause)
  | columnar (cause : ColumnarFault)
  | io (cause : IoFault)
  | typeMismatch (expected actual : String)
  | data (cause : DataCause)
  | operation (cause : OperationCause)
  | arguments (cause : ArgumentCause)
  | unsupported (cause : UnsupportedCause)
  /-- Spilled data could not be read back; `heading` says what was being done. -/
  | dataRead (heading : String) (cause : Fault)
  | internal (cause : InternalCause)
  deriving DecidableEq

namespace Fault

/-- A failure to read spilled data, with its cause. -/
def whileReading (cause : Fault) : Fault :=
  .dataRead "Failure while reading spilled data" cause

/-- Whether data or the environment caused the failure, rather than the library. -/
def isUserFacing : Fault → Bool
  | .internal _ => false
  | _ => true

/-- A column that cannot be cast to the type of its target field. -/
def cannotCast (column : String) (target source : ColumnType) : Fault :=
  .typeMismatch s!"column '{column}': {target.name}" source.name

end Fault
end ExternalSort
