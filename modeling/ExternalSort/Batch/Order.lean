/-
Sorting a batch.

Rows are compared by the listed columns, the first first; rows that compare equal keep
their order.  The result is a selection: no row is moved.  The list is checked before
anything is sorted, and so are the number of rows and the types.
-/
import ExternalSort.Batch.Selection
import ExternalSort.Column.Order

namespace ExternalSort

/-- A column to sort by, rising or falling. -/
structure SortKey where
  column : Nat
  ascending : Bool
  deriving DecidableEq, Repr

/-- The order of two rows by several columns. -/
def compareRowsBy : List (Column × Bool) → Nat → Nat → Ordering
  | [], _, _ => .eq
  | (c, ascending) :: r, i, j => (c.compareRows ascending i j).then (compareRowsBy r i j)

namespace Batch

/-- The columns that sort keys name. -/
def sortColumns (b : Batch) (keys : List SortKey) : Except Fault (List (Column × Bool)) :=
  keys.mapM fun k =>
    match b.column? k.column with
    | some c => .ok (c, k.ascending)
    | none => .error (.arguments (.sortColumn k.column b.columns.length))

/-- The rows in the order of the keys. -/
def sort (b : Batch) (keys : List SortKey) : Except Fault Selection := do
  let columns ← b.sortColumns keys
  if Selection.greatestCount < b.rows then .error (.arguments (.tooManyRows b.rows))
  else if columns.any fun c => c.1.type == .null then .error (.columnar .noNaturalOrder)
  else
    .ok ⟨(List.range b.rows).mergeSort fun i j => (compareRowsBy columns i j).isLE⟩

end Batch
end ExternalSort
