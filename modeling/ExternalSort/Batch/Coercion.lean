/-
Reshaping a batch to a target schema.

Fields are matched by name.  The columns of the result follow the target: a column of
another type is cast, a target field without a column is filled with missing cells.  A
column is never dropped: a field that the target does not have is refused.
-/
import ExternalSort.Batch.Basic
import ExternalSort.Column.Cast

namespace ExternalSort.Batch

/-- The column for a target field. -/
def coerceColumn (b : Batch) (f : Field) : Except Fault Column :=
  match b.columnNamed? f.name with
  | none =>
    if 0 < b.rows ∧ f.nullable = false then .error (.schema (.missingRequired f.name b.rows))
    else .ok (.absent f.type b.rows)
  | some c =>
    if c.type = f.type then .ok c
    else if c.type.castable f.type then (c.cast f.type).mapError .columnar
    else .error (.cannotCast f.name f.type c.type)

/-- The first field of the batch that the target does not have. -/
def firstDropped? (b : Batch) (target : Schema) : Option Field :=
  b.schema.fields.find? fun f => (target.indexOf? f.name).isNone

/-- The batch in the shape of the target schema. -/
def coerce (b : Batch) (target : Schema) : Except Fault Batch :=
  if b.schema = target then .ok b
  else match b.firstDropped? target with
    | some f => .error (.schema (.notInTarget f.name))
    | none => (target.fields.mapM b.coerceColumn).map fun cs => ⟨target, cs, b.rows⟩

end ExternalSort.Batch
