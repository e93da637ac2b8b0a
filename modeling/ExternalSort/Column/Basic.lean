/-
Columns.

A column is a list of cells of one type; a cell may be missing.  The type stands in the
column itself, so that a column can be asked for its type and a list of columns may hold
several.
-/
import ExternalSort.Column.Type
import ExternalSort.Text.Utf8

namespace ExternalSort

/-- A place in a column that does not exist. -/
structure OutOfRange where
  /-- How many places there are. -/
  length : Nat
  /-- The place that was asked for. -/
  index : Nat
  deriving DecidableEq, Repr

/-- The failure in words. -/
def OutOfRange.message (o : OutOfRange) : String :=
  s!"index out of bounds: the len is {o.length} but the index is {o.index}"

/-- A column. -/
structure Column where
  type : ColumnType
  cells : List (Option type.Value)
  deriving DecidableEq

namespace Column

/-- The number of cells. -/
def length (c : Column) : Nat := c.cells.length

/-- The column of a type without cells. -/
def empty (t : ColumnType) : Column := ⟨t, []⟩

/-- The column of a type with `n` missing cells. -/
def absent (t : ColumnType) (n : Nat) : Column := ⟨t, List.replicate n none⟩

/-- How many cells are missing. -/
def missing (c : Column) : Nat := c.cells.countP Option.isNone

/-- Whether a cell is missing that a type with values could have filled. -/
def lacksValue (c : Column) : Bool := c.type != .null && c.cells.any Option.isNone

/-- The cell at a place, if there is such a place. -/
def pick {α : Type} (cells : Array α) (i : Nat) : Except OutOfRange α :=
  match cells[i]? with
  | some x => .ok x
  | none => .error ⟨cells.size, i⟩

/-- The cells at the given places, in their order.  A column that holds nothing has a
missing cell at every place. -/
def gather (c : Column) (places : List Nat) : Except OutOfRange Column :=
  if c.type = .null then .ok ⟨c.type, places.map fun _ => none⟩
  else (places.mapM (pick c.cells.toArray)).map fun cells => ⟨c.type, cells⟩

/-- The cell in a row. -/
def cell (c : Column) (row : Nat) : Option c.type.Value := (c.cells[row]?).join

/-- The octets of a value. -/
def valueSize : (t : ColumnType) → t.Value → Nat
  | .null, _ => 0
  | .bool, _ => 1
  | .int k, _ => k.size.octets
  | .float p, _ => p.octets
  | .text _, s => s.utf8ByteSize
  | .binary, bs => bs.length
  | .date, _ => 4

/-- What a column is reckoned to occupy: a constant for the column, and its values. -/
def footprint (c : Column) : Nat :=
  c.cells.foldl (fun n x => n + x.elim 0 (valueSize c.type)) 64

end Column
end ExternalSort
