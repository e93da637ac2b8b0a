/-
The cursor that every group of rows has.

A group shows one batch at a time and a pointer to the row that comes next.  It may have
a target schema, to which the batch at hand and all later ones are reshaped.  A group
with nothing but a cursor is already complete: its rows are those of its batch.
-/
import ExternalSort.Batch.Coercion
import ExternalSort.Batch.Selection

namespace ExternalSort.Group

/-- The batch at hand, the next row and the target schema. -/
structure Cursor where
  batch : Batch
  pointer : Nat
  target : Option Schema

namespace Cursor

/-- The cursor at the first row of a batch. -/
def ofBatch (b : Batch) : Cursor := ⟨b, 0, none⟩

/-- Reshapes the batch at hand and keeps the schema for later ones. -/
def setSchema (c : Cursor) (s : Schema) : Except Fault Cursor :=
  (c.batch.coerce s).map fun b => { c with batch := b, target := some s }

/-- A schema that can be set reshapes the batch at hand, and the pointer stays. -/
theorem setSchema_eq_ok {c c' : Cursor} {s : Schema} (h : c.setSchema s = .ok c') :
    ∃ b, c.batch.coerce s = .ok b ∧ c' = { c with batch := b, target := some s } := by
  unfold setSchema at h
  cases hcoerce : c.batch.coerce s with
  | error f =>
    rw [hcoerce] at h
    cases h
  | ok b =>
    rw [hcoerce] at h
    exact ⟨b, rfl, (Except.ok.inj h).symm⟩

/-- A step over `count` rows: the row at the pointer, or none behind the last. -/
def advance (c : Cursor) (count : Nat) : Option Nat × Cursor :=
  if count ≤ c.pointer then (none, c)
  else (some c.pointer, { c with pointer := c.pointer + 1 })

/-- A step leaves the batch at hand as it is. -/
@[simp] theorem batch_advance (c : Cursor) (count : Nat) : (c.advance count).2.batch = c.batch := by
  unfold advance
  split <;> rfl

theorem pointer_advance (c : Cursor) (count : Nat) : (c.advance count).2.pointer
    = if count ≤ c.pointer then c.pointer else c.pointer + 1 := by
  unfold advance
  split <;> rfl

/-- The next row of the batch at hand. -/
def next (c : Cursor) : Option Nat × Cursor := c.advance c.batch.rows

/-- Puts another batch in place and starts at its first row. -/
def replace (c : Cursor) (b : Batch) : Cursor := { c with batch := b, pointer := 0 }

/-- Lets go of the rows; the shape stays. -/
def release (c : Cursor) : Cursor := { c with batch := c.batch.zeroed, pointer := 0 }

end Cursor

/-- Groups have one pointer and at most one selection; selections over several batches are
not offered. -/
def supportsWideSelection : Bool := false

/-- A group does not show its selection. -/
def selection : Except Fault Selection := .error (.unsupported .selection)

/-- A group has no selection over several batches. -/
def wideSelection : Except Fault Selection := .error (.unsupported .wideSelection)

end ExternalSort.Group
