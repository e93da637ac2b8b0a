/-
Batches.

A batch has a schema, a column for each field and a number of rows.  The number stands on
its own, because a batch without columns can have rows too.  `Valid` is what every batch
should satisfy; `build` is the one way from parts to a batch that checks it.  A batch that
was reshaped need not be valid: casts may leave cells missing in a field that requires
them, and that shows when the batch is next checked.
-/
import ExternalSort.Column.Basic
import ExternalSort.Fault.Basic

namespace ExternalSort

/-- A batch of rows. -/
structure Batch where
  schema : Schema
  columns : List Column
  rows : Nat
  deriving DecidableEq

/-- Where a field stands in a schema, and what it holds. -/
structure FieldPlace where
  index : Nat
  type : ColumnType
  nullable : Bool
  deriving DecidableEq, Repr

/-- The place of the first field with a name. -/
def Schema.place? (s : Schema) (name : String) : Option FieldPlace := do
  let i ← s.indexOf? name
  let f ← s.fields[i]?
  some ⟨i, f.type, f.nullable⟩

namespace Batch

open Fault

/-- The columns fit the schema and the number of rows, and no required cell is missing. -/
structure Valid (b : Batch) : Prop where
  /-- One column per field, of the field's type. -/
  types : b.columns.map (·.type) = b.schema.fields.map (·.type)
  /-- Every column is as long as the batch has rows. -/
  lengths : ∀ c ∈ b.columns, c.length = b.rows
  /-- A field that is not nullable has a value in every row, unless its type has none. -/
  required : ∀ p ∈ b.schema.fields.zip b.columns, p.1.nullable = false → p.2.lacksValue = false

/-- The first field that is not nullable and lacks a value. -/
def firstLacking? (fields : List Field) (columns : List Column) : Option Field :=
  ((fields.zip columns).find? fun p => !p.1.nullable && p.2.lacksValue).map (·.1)

/-- The first place where the type of a column is not that of its field. -/
def firstMistyped? (index : Nat) : List Field → List Column → Option ColumnarFault
  | f :: fs, c :: cs =>
    if f.type = c.type then firstMistyped? (index + 1) fs cs
    else some (.columnType f.type c.type index)
  | _, _ => none

/-- Puts a batch together.  Without a number of rows the first column gives it. -/
def build (schema : Schema) (columns : List Column) (rows : Option Nat) :
    Except ColumnarFault Batch :=
  if columns.length ≠ schema.fields.length then
    .error (.columnCount columns.length schema.fields.length)
  else match rows.or (columns.head?.map Column.length) with
    | none => .error .noRowCount
    | some n => match firstLacking? schema.fields columns with
      | some f => .error (.missingInRequired f.name)
      | none =>
        if columns.any fun c => c.length != n then
          .error (if rows.isSome then .rowCount else .unequalLengths)
        else match firstMistyped? 0 schema.fields columns with
          | some fault => .error fault
          | none => .ok ⟨schema, columns, n⟩

/-- Checks a batch as it stands. -/
def check (b : Batch) : Except ColumnarFault Batch := build b.schema b.columns (some b.rows)

/-- The batch with a schema and no rows. -/
def empty (schema : Schema) : Batch := ⟨schema, schema.fields.map fun f => .empty f.type, 0⟩

/-- The batch with nothing at all. -/
def shell : Batch := empty .empty

/-- Whether there are no rows. -/
def isEmpty (b : Batch) : Bool := b.rows == 0

/-- The column at a place. -/
def column? (b : Batch) (i : Nat) : Option Column := b.columns[i]?

/-- The column of the first field with a name. -/
def columnNamed? (b : Batch) (name : String) : Option Column := do
  b.columns[(← b.schema.indexOf? name)]?

/-- What the batch is reckoned to occupy. -/
def footprint (b : Batch) : Nat := b.columns.foldl (fun n c => n + c.footprint) 0

/-- The batch without its rows; schema and shape stay. -/
def zeroed (b : Batch) : Batch :=
  { b with columns := List.zipWith (fun _ f => .empty f.type) b.columns b.schema.fields, rows := 0 }

/-- Moves columns into the places of others, one by one.  Where each of them was, an empty
column of its type stays. -/
def moveColumns : List Column → List Column → List Column × List Column
  | _ :: targets, c :: sources =>
    let (targets, sources) := moveColumns targets sources
    (c :: targets, .empty c.type :: sources)
  | targets, sources => (targets, sources)

/-- Moves the rows of `source` into `target`, which takes over the schema too.  Gives the
filled target and the emptied source. -/
def transfer (target source : Batch) : Except Fault (Batch × Batch) :=
  if target.columns.length ≠ source.columns.length then
    .error (.schema (.transferWidth source.columns.length target.columns.length))
  else
    let (filled, emptied) := moveColumns target.columns source.columns
    .ok (⟨source.schema, filled, source.rows⟩, ⟨source.schema, emptied, 0⟩)

/-- The rows at the given places, in their order. -/
def gather (b : Batch) (places : List Nat) : Except OutOfRange Batch :=
  (b.columns.mapM (Column.gather · places)).map fun cs => ⟨b.schema, cs, places.length⟩

/-- One row: the cell of every column, with the column's type. -/
def row (b : Batch) (i : Nat) : List ((t : ColumnType) × Option t.Value) :=
  b.columns.map fun c => ⟨c.type, c.cell i⟩

end Batch
end ExternalSort
