/-
Reading a stream of any origin.

A stream is read up to its first batch, and what follows is not looked at.  The marker of
a message may be missing.  Where the next message would start, the end of the octets and a
length of zero both end the stream.
-/
import ExternalSort.Stream.Catalogue
import ExternalSort.Stream.Column
import ExternalSort.Stream.Writer

namespace ExternalSort.Stream

open FlatTable

/-- What reading a stream comes to; a stream may end before it has a batch. -/
abbrev Outcome (α : Type) := Except Fault.ColumnarFault α

/-- The first `n` octets and the rest. -/
def split (n : Nat) (bs : Bytes) : Outcome (Bytes × Bytes) :=
  let part := bs.take n
  if part.length = n then .ok (part, bs.drop n) else .error .shortStream

/-- The length of the table of the message at the start, and what follows it.  A negative
length is longer than any stream. -/
def tableLength (bs : Bytes) : Outcome (Nat × Bytes) := do
  let (first, rest) ← split 4 bs
  if first = marker then
    let (second, rest) ← split 4 rest
    .ok (Bytes.Little.toNat second, rest)
  else .ok (Bytes.Little.toNat first, rest)

/-- The table of a message. -/
def readTable (bs : Bytes) : Outcome Table :=
  match messageTable? bs with
  | some t => .ok t
  | none => .error .brokenTable

/-! ### Schemas -/

/-- The column type that the table of a type describes. -/
def readType (number : Nat) (t : Option Table) : Outcome ColumnType :=
  let word (slot width default : Nat) : Nat := t.elim default (·.word slot width default)
  let other : Outcome ColumnType := .error (.unknownType s!"Type {number} is not supported")
  match number with
  | 1 => .ok .null
  | 2 =>
    let signed := word 1 1 0 != 0
    match word 0 4 0 with
    | 8 => .ok (.int ⟨signed, .one⟩)
    | 16 => .ok (.int ⟨signed, .two⟩)
    | 32 => .ok (.int ⟨signed, .four⟩)
    | 64 => .ok (.int ⟨signed, .eight⟩)
    | _ => other
  | 3 => match word 0 2 0 with
    | 1 => .ok (.float .single)
    | 2 => .ok (.float .double)
    | _ => other
  | 4 => .ok .binary
  | 5 => .ok (.text .narrow)
  | 6 => .ok .bool
  | 8 => if word 0 2 1 = 0 then .ok .date else other
  | 20 => .ok (.text .wide)
  | _ => other

/-- The pairs in the tables of a list; one that lacks its key or its value does not count. -/
def readMetadata (t : Table) (slot : Nat) : Metadata :=
  .ofList (((t.tables? slot).getD []).filterMap fun pair => do
    some (← pair.text? 0, ← pair.text? 1))

/-- The field in a table. -/
def readField (t : Table) : Outcome Field := do
  let type ← readType (t.word 2 1 0) (t.table? 3)
  match t.text? 0, t.field? 4 with
  | some name, none => .ok ⟨name, type, t.word 1 1 0 != 0, readMetadata t 6⟩
  | none, _ => .error (.unknownType "a field without a name")
  | _, some _ => .error (.unknownType "a field with a dictionary")

/-- The schema in a table. -/
def readSchemaTable (t : Table) : Outcome Schema :=
  match t.tables? 1 with
  | none => .error (.unknownType "a schema without fields")
  | some fields => do
    .ok ⟨← fields.mapM readField, readMetadata t 2⟩

/-- The schema at the start of a stream, and what follows it. -/
def readSchema (bs : Bytes) : Outcome (Schema × Bytes) := do
  let (length, rest) ← tableLength bs
  let (octets, rest) ← split length rest
  let t ← readTable octets
  match t.word 1 1 0, t.table? 2 with
  | 1, some header => .ok (← readSchemaTable header, rest)
  | _, _ => .error .notSchema

/-! ### Batches -/

/-- A pair of words of eight octets. -/
def pairOf (bs : Bytes) : Nat × Nat :=
  (Bytes.Little.toNat (bs.take 8), Bytes.Little.toNat (bs.drop 8))

/-- A buffer as it stands in a body, taken out.  One that reaches beyond the body ends the
reading with a fault, also where a reader would stop for good. -/
def slice (body : Bytes) (e : Extent) : Outcome Bytes :=
  if e.offset + e.length ≤ body.length then .ok ((body.drop e.offset).take e.length)
  else .error (.buffer (.outside e.offset e.length body.length))

/-- A buffer of a compressed body.  Only buffers that are stored as they are can be read. -/
def unstored (bs : Bytes) : Outcome Bytes :=
  if bs.isEmpty then .ok bs
  else do
    let (length, rest) ← split 8 bs
    if length = List.replicate 8 0xFF then .ok rest
    else if Bytes.Little.toNat length = 0 then .ok []
    else .error (.expansion "a buffer that is not stored as it is")

/-- Takes the buffers of a column off the list. -/
def takeBuffers (fetch : Extent → Outcome Bytes) :
    Nat → List Extent → Outcome (List Bytes × List Extent)
  | 0, es => .ok ([], es)
  | _ + 1, [] => .error .bufferMissing
  | n + 1, e :: es => do
    let b ← fetch e
    let (bs, rest) ← takeBuffers fetch n es
    .ok (b :: bs, rest)

/-- Reads the columns of the fields from nodes and buffers. -/
def readColumns (fetch : Extent → Outcome Bytes) :
    List Field → List Node → List Extent → Outcome (List Column)
  | [], _, _ => .ok []
  | f :: _, [], _ => .error (.nodeMissing f)
  | f :: fs, n :: ns, es => do
    let layout := layoutOf f.type
    if layout = .nothing ∧ n.length ≠ n.missing then .error (.nullCount f n.missing n.length)
    else
      let (buffers, es) ← takeBuffers fetch layout.bufferCount es
      let c ← (readColumn f.type n buffers).mapError .buffer
      .ok (c :: (← readColumns fetch fs ns es))

/-- What the table of a batch says. -/
structure BatchHeader where
  rows : Nat
  nodes : List Node
  extents : List Extent
  compressed : Bool

/-- Whether a body is compressed.  Of the methods of compression two have names. -/
def readCompression : Option Table → Outcome Bool
  | none => .ok false
  | some t =>
    let number := t.word 0 1 0
    if number < 2 then .ok true
    else .error (.unknownMethod (Bytes.Little.toInt 1 (Bytes.Little.ofNat 1 number)))

/-- What the table of a batch says. -/
def batchHeader (t : Table) : Outcome BatchHeader :=
  match t.structs? 2 16, t.structs? 1 16 with
  | none, _ => .error .noBuffers
  | _, none => .error .noNodes
  | some buffers, some nodes => do
    .ok {
      rows := t.word 0 8 0
      nodes := nodes.map fun b => ⟨(pairOf b).1, (pairOf b).2⟩
      extents := buffers.map fun b => ⟨(pairOf b).1, (pairOf b).2⟩
      compressed := ← readCompression (t.table? 3) }

/-- The batch that a header and a body make. -/
def assemble (schema : Schema) (h : BatchHeader) (body : Bytes) : Outcome Batch := do
  let fetch (e : Extent) : Outcome Bytes := do
    let b ← slice body e
    if h.compressed then unstored b else .ok b
  let columns ← readColumns fetch schema.fields h.nodes h.extents
  Batch.build schema columns (some h.rows)

/-- The name of a kind of message that is not read. -/
def otherKind : Nat → String
  | 2 => "DictionaryBatch"
  | 4 => "Tensor"
  | 5 => "SparseTensor"
  | n => toString n

/-- The table of the next message and what follows it; none at the end of the stream. -/
def nextTable (bs : Bytes) : Outcome (Option (Table × Bytes)) :=
  if (bs.take 4).length < 4 then .ok none
  else do
    let (length, rest) ← tableLength bs
    if length = 0 then .ok none
    else
      let (octets, rest) ← split length rest
      .ok (some (← readTable octets, rest))

/-- The length of the body that a message announces. -/
def bodyLength (t : Table) : Nat := t.word 3 8 0

/-- The first batch of what follows the schema, if there is one. -/
def readBatch (schema : Schema) (bs : Bytes) : Outcome (Option Batch) := do
  match ← nextTable bs with
  | none => .ok none
  | some (t, rest) =>
    match t.word 1 1 0, t.table? 2 with
    | 0, _ => .ok none
    | 1, _ => .error .lateSchema
    | 3, some header => do
      let (body, _) ← split (bodyLength t) rest
      .ok (some (← assemble schema (← batchHeader header) body))
    | n, _ => .error (.otherMessage (otherKind n))

/-- Reads a stream up to its first batch. -/
def read (bs : Bytes) : Outcome (Option Batch) := do
  let (s, rest) ← readSchema bs
  readBatch s rest

end ExternalSort.Stream
