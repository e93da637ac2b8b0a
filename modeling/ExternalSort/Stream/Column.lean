/-
Columns read from buffers of any origin.

The buffers of a column are checked against the number of its cells before a cell is
read: words and bits must be there, offsets must lie inside the values and must not fall,
and every cell of a text column must be text.  The order of the checks decides which flaw
of several is reported.
-/
import ExternalSort.Fault.Columnar
import ExternalSort.Stream.Body

namespace ExternalSort.Stream

open Fault

/-- The eight bits of an octet, the least first. -/
def octetBits (b : UInt8) : List Bool := (List.range 8).map fun i => b.toNat.testBit i

/-- The first `count` of the bits packed into octets. -/
def unpackBits (count : Nat) (bs : Bytes) : List Bool := (bs.flatMap octetBits).take count

/-- The first `count` words of `width` octets. -/
def takeWords (width : Nat) : Nat → Bytes → List Nat
  | 0, _ => []
  | count + 1, bs => Bytes.Little.toNat (bs.take width) :: takeWords width count (bs.drop width)

/-- Cells with those taken out that a validity buffer marks as missing. -/
def mask {α : Type} (valid : Option (List Bool)) (values : List (Option α)) : List (Option α) :=
  match valid with
  | none => values
  | some bits => List.zipWith (fun b v => if b then v else none) bits values

/-- The value for a word. -/
def ofWord : (t : ColumnType) → Nat → Option t.Value
  | .int k, n => some (BitVec.ofNat k.bits n)
  | .float p, n => some (BitVec.ofNat p.bits n)
  | .date, n => some (BitVec.ofNat 32 n)
  | .bool, n => some (n != 0)
  | _, _ => none

/-- The value for octets. -/
def ofPiece : (t : ColumnType) → Bytes → Option t.Value
  | .text _, bs => Text.Utf8.decode? bs
  | .binary, bs => some bs
  | _, _ => none

/-- The offsets of a column, read as signed words. -/
def takeOffsets (width count : Nat) (bs : Bytes) : List Int :=
  (takeWords width count bs).map fun n => Bytes.Little.toInt width (Bytes.Little.ofNat width n)

/-- Checks the first and the last offset. -/
def checkEnds (t : ColumnType) (length limit : Nat) (offsets : List Int) :
    Except BufferFlaw Unit :=
  match offsets.head?, offsets.getLast? with
  | some first, some last =>
    if first < 0 then .error (.negativeEnd 0 first t)
    else if last < 0 then .error (.negativeEnd length last t)
    else if limit < first.toNat then .error (.firstBeyond first.toNat t limit)
    else if limit < last.toNat then .error (.lastBeyond last.toNat t limit)
    else if last < first then .error (.reversed first.toNat t last.toNat)
    else .ok ()
  | _, _ => .ok ()

/-- Whether a position in octets that are text lies between two characters. -/
def isBoundary (values : Bytes) (position : Nat) : Bool :=
  match values[position]? with
  | some b => b < 0x80 || 0xBF < b
  | none => position == values.length

/-- Checks that the octets of a cell are text, given whether all octets together are. -/
def checkText (values : Bytes) (wholeIsText : Bool) (index first last : Nat) :
    Except BufferFlaw Unit :=
  if wholeIsText then
    if isBoundary values first && isBoundary values last then .ok ()
    else .error (.splitCharacter index)
  else match Text.Utf8.defect? ((values.drop first).take (last - first)) with
    | none => .ok ()
    | some d => .error (.notText index first last d)

/-- Goes through the offsets after the first and takes out the cells between them. -/
def takePieces (check : Nat → Nat → Nat → Except BufferFlaw Unit) (values : Bytes)
    (index before : Nat) : List Int → Except BufferFlaw (List Bytes)
  | [] => .ok []
  | after :: r =>
    if after < 0 then .error (.negative after (index + 1))
    else if values.length < after.toNat then .error (.beyond (index + 1) after.toNat values.length)
    else if after.toNat < before then .error (.falling index before after.toNat)
    else do
      check index before after.toNat
      let rest ← takePieces check values (index + 1) after.toNat r
      .ok ((values.drop before).take (after.toNat - before) :: rest)

/-- The cells of a column of offsets and octets. -/
def readPieces (t : ColumnType) (width length : Nat) (offsets values : Bytes) :
    Except BufferFlaw (List Bytes) :=
  if offsets.length < length * width then
    .error (.shortWords (length * width) 0 t offsets.length)
  else if length = 0 ∧ offsets = [] then .ok []
  else if offsets.length < (length + 1) * width then
    .error (.shortOffsets ((length + 1) * width) t offsets.length)
  else
    let ends := takeOffsets width (length + 1) offsets
    let check := match t with
      | .text _ => checkText values (Text.Utf8.defect? values).isNone
      | _ => fun _ _ _ => .ok ()
    match ends with
    | [] => .ok []
    | first :: rest => do
      checkEnds t length values.length ends
      takePieces check values 0 first.toNat rest

/-- The bits that tell which cells are there, if the node says that some are not. -/
def readValidity (node : Node) (buffer : Bytes) : Except BufferFlaw (Option (List Bool)) :=
  if node.missing = 0 ∨ Binary.twoTo 63 ≤ node.missing then .ok none
  else if buffer.length < (node.length + 7) / 8 then
    .error (.shortValidity buffer.length ((node.length + 7) / 8))
  else .ok (some (unpackBits node.length buffer))

/-- A column of a type from its node and its buffers, of which there are as many as the
layout of the type has. -/
def readColumn (t : ColumnType) (node : Node) (buffers : List Bytes) :
    Except BufferFlaw Column :=
  match layoutOf t, buffers with
  | .nothing, _ => .ok (.absent t node.length)
  | .bits, [v, values] =>
    if values.length < (node.length + 7) / 8 then
      .error (.shortBits ((node.length + 7) / 8) t values.length)
    else do
      let valid ← readValidity node v
      .ok ⟨t, mask valid ((unpackBits node.length values).map fun b => ofWord t b.toNat)⟩
  | .words width, [v, values] =>
    if values.length < node.length * width then
      .error (.shortWords (node.length * width) 0 t values.length)
    else do
      let valid ← readValidity node v
      .ok ⟨t, mask valid ((takeWords width node.length values).map (ofWord t))⟩
  | .pieces width, [v, offsets, values] => do
    let valid ← readValidity node v
    let pieces ← readPieces t width node.length offsets values
    .ok ⟨t, mask valid (pieces.map (ofPiece t))⟩
  | _, _ => .ok (.absent t 0)

end ExternalSort.Stream
