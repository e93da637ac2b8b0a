/-
Selections.

A selection names rows of a batch in some order, repetitions and omissions allowed.  It
is how a sorted order is held without moving a row.
-/
import ExternalSort.Batch.Basic
import ExternalSort.Binary.Power

namespace ExternalSort

/-- Rows of a batch, in order. -/
structure Selection where
  rows : List Nat
  deriving DecidableEq, Repr

namespace Selection

/-- The greatest number of rows that a selection can address. -/
def greatestCount : Nat := Binary.twoTo 32 - 1

/-- A selection from places some of which may be missing. -/
def ofPlaces (places : List (Option Nat)) : Except Fault Selection :=
  match places.mapM id with
  | some rows => .ok ⟨rows⟩
  | none => .error (.arguments .nullIndices)

/-- How many rows are selected. -/
def count (s : Selection) : Nat := s.rows.length

/-- Whether none is. -/
def isEmpty (s : Selection) : Bool := s.rows.isEmpty

/-- The row at a position. -/
def row (s : Selection) (position : Nat) : Except OutOfRange Nat :=
  match s.rows[position]? with
  | some r => .ok r
  | none => .error ⟨s.count, position⟩

/-- The greatest row that is selected. -/
def greatest? (s : Selection) : Option Nat := s.rows.max?

/-- The selection of nothing. -/
def cleared : Selection := ⟨[]⟩

end Selection
end ExternalSort
