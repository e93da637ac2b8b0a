/-
Failures of columns, casts and streams.

Each constructor names a cause; `family` says which part of the columnar format reports
it and `detail` how.  The message is the two together.
-/
import ExternalSort.Schema
import ExternalSort.Text.Quoted
import ExternalSort.Text.Utf8

namespace ExternalSort.Fault

/-- The part of the columnar format that reports a failure. -/
inductive Family where
  | invalidArgument
  | io
  | parse
  | stream
  | schema
  | cast
  | compute
  | divideByZero
  | notYetImplemented
  deriving DecidableEq, Repr

/-- How a message of the family begins. -/
def Family.heading : Family → String
  | .invalidArgument => "Invalid argument error"
  | .io => "Io error"
  | .parse => "Parser error"
  | .stream => "Ipc error"
  | .schema => "Schema error"
  | .cast => "Cast error"
  | .compute => "Compute error"
  | .divideByZero => "Divide by zero error"
  | .notYetImplemented => "Not yet implemented"

/-- What is wrong with the buffers of a column. -/
inductive BufferFlaw where
  /-- Too few octets for the words of the column. -/
  | shortWords (needed index : Nat) (type : ColumnType) (present : Nat)
  /-- Too few octets for the bits of the column. -/
  | shortBits (needed : Nat) (type : ColumnType) (present : Nat)
  /-- Too few octets for the offsets of the column. -/
  | shortOffsets (needed : Nat) (type : ColumnType) (present : Nat)
  /-- Too few octets for the bits that tell missing cells. -/
  | shortValidity (present needed : Nat)
  /-- The first or the last offset is negative. -/
  | negativeEnd (index : Nat) (offset : Int) (type : ColumnType)
  /-- The first offset is beyond the values. -/
  | firstBeyond (offset : Nat) (type : ColumnType) (length : Nat)
  /-- The last offset is beyond the values. -/
  | lastBeyond (offset : Nat) (type : ColumnType) (length : Nat)
  /-- The first offset is greater than the last. -/
  | reversed (first : Nat) (type : ColumnType) (last : Nat)
  /-- An offset between them is negative. -/
  | negative (offset : Int) (index : Nat)
  /-- An offset between them is beyond the values. -/
  | beyond (index offset limit : Nat)
  /-- An offset is less than the one before it. -/
  | falling (slot before after : Nat)
  /-- A cell of a text column begins or ends inside a character. -/
  | splitCharacter (index : Nat)
  /-- A cell of a text column is no text. -/
  | notText (index first last : Nat) (defect : Text.Utf8.Defect)
  /-- A buffer lies outside the body. -/
  | outside (offset length body : Nat)
  deriving DecidableEq, Repr

/-- The causes of failure. -/
inductive ColumnarFault where
  /-- As many columns as fields are needed. -/
  | columnCount (columns fields : Nat)
  /-- A batch without columns needs a number of rows. -/
  | noRowCount
  /-- A field that is not nullable has missing cells. -/
  | missingInRequired (column : String)
  /-- The columns are not equally long. -/
  | unequalLengths
  /-- The columns are not as long as the number of rows says. -/
  | rowCount
  /-- A column has another type than its field. -/
  | columnType (expected actual : ColumnType) (index : Nat)
  /-- Columns of the type that holds nothing cannot be sorted by. -/
  | noNaturalOrder
  /-- A day outside the range of dates has no text. -/
  | dayOutOfRange (days : Int)
  /-- A stream ends inside a part that it announced. -/
  | shortStream
  /-- The table of a message is damaged. -/
  | brokenTable
  /-- The first message of a stream is no schema. -/
  | notSchema
  /-- A schema stands where a batch is read. -/
  | lateSchema
  /-- A message of a kind that is not read. -/
  | otherMessage (kind : String)
  /-- A batch message lists no buffers. -/
  | noBuffers
  /-- A batch message lists no nodes. -/
  | noNodes
  /-- A field has no node in its batch message. -/
  | nodeMissing (field : Field)
  /-- A batch message lists too few buffers. -/
  | bufferMissing
  /-- A column that holds nothing with a number of missing cells unlike its length. -/
  | nullCount (field : Field) (missing length : Nat)
  /-- A type that no column here has. -/
  | unknownType (text : String)
  /-- The buffers of a column do not fit it. -/
  | buffer (flaw : BufferFlaw)
  /-- A method of compression without a name. -/
  | unknownMethod (number : Int)
  /-- A compressed body that cannot be expanded. -/
  | expansion (text : String)
  /-- Division by zero. -/
  | divideByZero
  /-- A failure in words only. -/
  | note (family : Family) (text : String)
  deriving DecidableEq, Repr

/-- A field as messages write it out. -/
def fieldText (f : Field) : String :=
  "Field \x7b name: " ++ Text.Quoted.quote f.name ++ ", data_type: " ++ f.type.name ++
    ", nullable: " ++ (if f.nullable then "true" else "false") ++
    ", dict_id: 0, dict_is_ordered: false, metadata: \x7b" ++
    ", ".intercalate (f.metadata.pairs.map fun p =>
      Text.Quoted.quote p.1 ++ ": " ++ Text.Quoted.quote p.2) ++ "\x7d \x7d"

namespace ColumnarFault

/-- The part of the format that reports the failure. -/
def family : ColumnarFault → Family
  | .columnCount .. | .noRowCount | .missingInRequired _ | .unequalLengths | .rowCount
  | .columnType .. | .noNaturalOrder | .otherMessage _ | .buffer _ => .invalidArgument
  | .dayOutOfRange _ => .cast
  | .shortStream => .io
  | .brokenTable | .notSchema => .parse
  | .lateSchema | .noBuffers | .noNodes | .bufferMissing | .expansion _ => .stream
  | .nodeMissing _ | .nullCount .. => .schema
  | .unknownType _ | .unknownMethod _ => .notYetImplemented
  | .divideByZero => .divideByZero
  | .note family _ => family

end ColumnarFault

/-- A flaw of buffers in words. -/
def BufferFlaw.message : BufferFlaw → String
  | .shortWords needed index type present =>
    s!"Need at least {needed} bytes in buffers[{index}] in array of type {type.name}, but got {present}"
  | .shortBits needed type present =>
    s!"Need at least {needed} bytes for bitmap in buffers[0] in array of type {type.name}, " ++
      s!"but got {present}"
  | .shortOffsets needed type present =>
    s!"Buffer 0 of {type.name} isn't large enough. Expected {needed} bytes got {present}"
  | .shortValidity present needed =>
    s!"null_bit_buffer size too small. got {present} needed {needed}"
  | .negativeEnd index offset type =>
    s!"Error converting offset[{index}] ({Text.Numeral.ofInt offset}) to usize for {type.name}"
  | .firstBeyond offset type length =>
    s!"First offset {offset} of {type.name} is larger than values length {length}"
  | .lastBeyond offset type length =>
    s!"Last offset {offset} of {type.name} is larger than values length {length}"
  | .reversed first type last =>
    s!"First offset {first} in {type.name} is smaller than last offset {last}"
  | .negative offset index =>
    s!"Offset invariant failure: Could not convert offset {Text.Numeral.ofInt offset} " ++
      s!"to usize at position {index}"
  | .beyond index offset limit =>
    s!"Offset invariant failure: offset at position {index} out of bounds: {offset} > {limit}"
  | .falling slot before after =>
    s!"Offset invariant failure: non-monotonic offset at slot {slot}: {before} > {after}"
  | .splitCharacter index => s!"incomplete utf-8 byte sequence from index {index}"
  | .notText index first last defect =>
    s!"Invalid UTF8 sequence at string index {index} ({first}..{last}): {defect.message}"
  | .outside offset length body =>
    s!"Buffer of {length} bytes at {offset} exceeds the body of {body} bytes"

namespace ColumnarFault

/-- What the failure is about. -/
def detail : ColumnarFault → String
  | .columnCount columns fields =>
    s!"number of columns({columns}) must match number of fields({fields}) in schema"
  | .noRowCount => "must either specify a row count or at least one column"
  | .missingInRequired column =>
    s!"Column '{column}' is declared as non-nullable but contains null values"
  | .unequalLengths => "all columns in a record batch must have the same length"
  | .rowCount => "all columns in a record batch must have the specified row count"
  | .columnType expected actual index =>
    s!"column types must match schema types, expected {expected.name} but found {actual.name} " ++
      s!"at column index {index}"
  | .noNaturalOrder => "The data type type Null has no natural order"
  | .dayOutOfRange days =>
    s!"Failed to convert {Text.Numeral.ofInt days} to temporal for Date32"
  | .shortStream => "failed to fill whole buffer"
  | .brokenTable => "Unable to get root as message"
  | .notSchema => "Unable to read IPC message as schema"
  | .lateSchema => "Not expecting a schema when messages are read"
  | .otherMessage kind =>
    s!"Reading types other than record batches not yet supported, unable to read {kind} "
  | .noBuffers => "Unable to get buffers from IPC RecordBatch"
  | .noNodes => "Unable to get field nodes from IPC RecordBatch"
  | .nodeMissing field =>
    s!"Invalid data for schema. {fieldText field} refers to node not found in schema"
  | .bufferMissing => "Buffer count mismatched with metadata"
  | .nullCount field missing length =>
    s!"Field {fieldText field} of NullArray has unequal null_count {missing} and len {length}"
  | .unknownType text => text
  | .unknownMethod number =>
    s!"compression type <UNKNOWN {Text.Numeral.ofInt number}> not supported "
  | .buffer flaw => flaw.message
  | .expansion text => text
  | .divideByZero => ""
  | .note _ text => text

/-- The failure in words. -/
def message (c : ColumnarFault) : String :=
  match c with
  | .divideByZero => c.family.heading
  | _ => c.family.heading ++ ": " ++ c.detail

end ColumnarFault
end ExternalSort.Fault
