/-
Schemas in a stream.

Every type has a number, and most have a table with what the number leaves open.  The
tables of a field are written in a fixed order, so that a schema has one form.
-/
import ExternalSort.FlatTable.Draft
import ExternalSort.Schema
import ExternalSort.Text.Utf8

namespace ExternalSort.Stream

open FlatTable

/-- The number of a type's kind. -/
def kindNumber : ColumnType → Nat
  | .null => 1
  | .int _ => 2
  | .float _ => 3
  | .binary => 4
  | .text .narrow => 5
  | .bool => 6
  | .date => 8
  | .text .wide => 20

/-- The fields of a type's table: the size and sign of integers, the precision of floating
point numbers, the unit of dates. -/
def typeFields : ColumnType → List (Nat × Entry)
  | .int k => (if k.signed then [(1, .word 1 1)] else []) ++ [(0, .word 4 k.bits)]
  | .float .single => [(0, .word 2 1)]
  | .float .double => [(0, .word 2 2)]
  | .date => [(0, .word 2 0)]
  | _ => []

/-- Whether the empty list of children is written before the table of the type. -/
def childrenFirst : ColumnType → Bool
  | .int _ | .float _ => true
  | _ => false

/-- Writes the table of a type and its empty list of children; gives their places. -/
def writeType (t : ColumnType) (d : Draft) : Draft × Nat × Nat :=
  if childrenFirst t then
    let d := d.links []
    let children := d.place
    let d := d.table (typeFields t)
    (d, d.place, children)
  else
    let d := d.table (typeFields t)
    let table := d.place
    let d := d.links []
    (d, table, d.place)

/-- Writes things one after the other and gives their places. -/
def writeAll {α : Type} (write : α → Draft → Draft) (xs : List α) (d : Draft) :
    Draft × List Nat :=
  let (d, places) := xs.foldl (fun (d, places) x => (write x d, (write x d).place :: places)) (d, [])
  (d, places.reverse)

/-- Writes a pair of metadata. -/
def writePair (p : String × String) (d : Draft) : Draft :=
  let d := d.text (Text.Utf8.encode p.1)
  let key := d.place
  let d := d.text (Text.Utf8.encode p.2)
  d.table [(0, .link key), (1, .link d.place)]

/-- Writes the pairs of metadata and the list of them, if there are any. -/
def writeMetadata (m : Metadata) (d : Draft) : Draft :=
  if m.pairs.isEmpty then d
  else
    let (d, pairs) := writeAll writePair m.pairs d
    d.links pairs

/-- The field of a table that refers to metadata at a place, if there is any. -/
def metadataEntry (slot : Nat) (m : Metadata) (place : Nat) : List (Nat × Entry) :=
  if m.pairs.isEmpty then [] else [(slot, .link place)]

/-- Writes a field. -/
def writeField (f : Field) (d : Draft) : Draft :=
  let d := writeMetadata f.metadata d
  let pairs := d.place
  let d := d.text (Text.Utf8.encode f.name)
  let name := d.place
  let (d, type, children) := writeType f.type d
  d.table ([(0, .link name), (2, .word 1 (kindNumber f.type))] ++
    (if f.nullable then [(1, .word 1 1)] else []) ++ [(5, .link children), (3, .link type)] ++
    metadataEntry 6 f.metadata pairs)

/-- Writes a schema. -/
def writeSchema (s : Schema) (d : Draft) : Draft :=
  let (d, fields) := writeAll writeField s.fields d
  let d := d.links fields
  let list := d.place
  let d := writeMetadata s.metadata d
  d.table ([(1, .link list)] ++ metadataEntry 2 s.metadata d.place)

end ExternalSort.Stream
