/-
Writing a stream.

A stream is a schema message, a batch message and an end mark.  A message is a marker, the
length of its table, the table filled up with zeros, and a body.  The table says of what
kind the message is and how long its body.
-/
import ExternalSort.Batch.Basic
import ExternalSort.Config.Compression
import ExternalSort.Stream.Body
import ExternalSort.Stream.Schema

namespace ExternalSort.Stream

open FlatTable

/-- The octets that begin a message. -/
def marker : Bytes := [0xFF, 0xFF, 0xFF, 0xFF]

/-- The kinds of messages that a table announces, as numbers. -/
def schemaKind : Nat := 1

/-- The number of the kind of batches. -/
def batchKind : Nat := 3

/-- The version of the format that is written. -/
def version : Nat := 4

/-- The table of a message whose header stands at the place of the draft. -/
def messageTable (kind bodyLength : Nat) (d : Draft) : Bytes :=
  let header := d.place
  let d := d.table ([(0, .word 2 version), (1, .word 1 kind)] ++
    (if bodyLength = 0 then [] else [(3, .word 8 bodyLength)]) ++ [(2, .link header)])
  d.finish d.place

/-- A message. -/
def message (table body : Bytes) : Bytes :=
  let length := padded (table.length + 8) - 8
  marker ++ Bytes.Little.ofNat 4 length ++
    (table ++ List.replicate (length - table.length) 0) ++ body

/-- The end of a stream. -/
def endMark : Bytes := marker ++ [0, 0, 0, 0]

/-- The schema message. -/
def schemaMessage (s : Schema) : Bytes :=
  message (messageTable schemaKind 0 (writeSchema s .empty)) []

/-- A buffer as it stands in the body.  In a compressed body it says that it is stored as
it is. -/
def stored (compression : Compression) (b : Bytes) : Bytes :=
  if compression = .none ∨ b.isEmpty then b else List.replicate 8 0xFF ++ b

/-- Two words of eight octets. -/
def pairOctets (a b : Nat) : Bytes := Bytes.Little.ofNat 8 a ++ Bytes.Little.ofNat 8 b

/-- Writes the table of a batch. -/
def writeBatch (compression : Compression) (b : Batch) (extents : List Extent) (d : Draft) :
    Draft :=
  let (d, codec) := match compression.codec? with
    | none => (d, [])
    | some n =>
      let d := d.table (if n = 0 then [] else [(0, .word 1 n)])
      (d, [(3, Entry.link d.place)])
  let d := d.structs 8 (extents.map fun e => pairOctets e.offset e.length)
  let buffers := d.place
  let d := d.structs 8 (b.columns.map fun c => pairOctets (nodeOf c).length (nodeOf c).missing)
  let nodes := d.place
  d.table ((if b.rows = 0 then [] else [(0, .word 8 b.rows)]) ++
    [(1, .link nodes), (2, .link buffers)] ++ codec)

/-- The batch message. -/
def batchMessage (compression : Compression) (b : Batch) : Bytes :=
  let buffers := (b.columns.flatMap buffersOf).map (stored compression)
  let body := bodyOf buffers
  message (messageTable batchKind body.length
    (writeBatch compression b (extentsFrom 0 buffers) .empty)) body

/-- The stream of a batch. -/
def write (compression : Compression) (b : Batch) : Bytes :=
  schemaMessage b.schema ++ batchMessage compression b ++ endMark

end ExternalSort.Stream
