/-
Runs held in memory.

A resident run is a batch and, as a rule, a selection that gives its rows their sorted
order.  The rows are not moved until the run is merged or spilled.
-/
import ExternalSort.Batch.Order
import ExternalSort.Group.Cursor

namespace ExternalSort.Group

/-- A batch in memory with the order of its rows. -/
structure Resident where
  cursor : Cursor
  selection : Option Selection
  /-- What the run is reckoned to occupy. -/
  size : Nat

namespace Resident

/-- A run of a batch in the order of a selection, all of whose rows the batch has. -/
def ofBatch (b : Batch) (selection : Option Selection) (size : Nat) : Except Fault Resident :=
  match selection.bind Selection.greatest? with
  | some row =>
    if b.rows ≤ row then .error (.arguments (.selectionIndex row b.rows))
    else .ok ⟨.ofBatch b, selection, size⟩
  | none => .ok ⟨.ofBatch b, selection, size⟩

/-- A run of a batch in the order of sort keys. -/
def sorted (b : Batch) (keys : List SortKey) : Except Fault Resident := do
  ofBatch b (some (← b.sort keys)) b.footprint

/-- How many rows the run delivers. -/
def count (r : Resident) : Nat := r.selection.elim r.cursor.batch.rows Selection.count

/-- The next row of the batch. -/
def next (r : Resident) : Except OutOfRange (Option Nat) × Resident :=
  let (position, cursor) := r.cursor.advance r.count
  let row := match r.selection, position with
    | some s, some p => (s.row p).map some
    | _, p => .ok p
  (row, { r with cursor })

/-- The rows copied out in their order, as before spilling. -/
def materialize (r : Resident) : Except OutOfRange Batch :=
  match r.selection with
  | none => .ok r.cursor.batch
  | some s => r.cursor.batch.gather s.rows

/-- Lets go of the rows and of their order. -/
def close (r : Resident) : Resident :=
  { r with cursor := r.cursor.release, selection := r.selection.map fun _ => .cleared }

end Resident
end ExternalSort.Group
