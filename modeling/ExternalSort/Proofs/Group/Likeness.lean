/-
Runs in memory and runs in files.

Whoever merges runs is not to notice which of them were spilled.  A resident run delivers
the rows of its batch in the order of its selection and never moves one; to spill it, its
rows are copied out in that order, written, and read back one after the other.  A target
schema reshapes the one batch as a whole and the other when it is read.  Both ways the same
rows come out in the same order, and then none any more: the order of a resident run is
what its copy is picked by, and rows that were picked are reshaped as the batch is.
-/
import ExternalSort.Proofs.Batch.Gathering
import ExternalSort.Proofs.Frame.Breadth
import ExternalSort.Proofs.Run.RoundTrip

namespace ExternalSort.Group.Resident

/-- The cells of a row, each with the type of its column. -/
abbrev Cells := List ((t : ColumnType) × Option t.Value)

/-! ### Rows in memory -/

/-- The rows of the batch that a run delivers, in order. -/
def order (r : Resident) : List Nat :=
  r.selection.elim (List.range r.cursor.batch.rows) Selection.rows

/-- What so many requests for rows are answered, each row by its cells. -/
def asked : Nat → Resident → List (Except OutOfRange (Option Cells))
  | 0, _ => []
  | n + 1, r => r.next.1.map (·.map r.cursor.batch.row) :: asked n r.next.2

theorem count_eq (r : Resident) : r.count = r.order.length := by
  unfold count order
  cases r.selection with
  | none => exact List.length_range.symm
  | some s => rfl

/-- The next row is the one at the pointer, in order. -/
theorem next_eq (r : Resident) : r.next = (.ok r.order[r.cursor.pointer]?,
    { r with cursor := (r.cursor.advance r.order.length).2 }) := by
  unfold next
  rw [count_eq]
  unfold Cursor.advance
  by_cases hend : r.order.length ≤ r.cursor.pointer
  · rw [if_pos hend, List.getElem?_eq_none hend]
    cases r.selection <;> rfl
  · have hlt : r.cursor.pointer < r.order.length := Nat.lt_of_not_le hend
    rw [if_neg hend]
    obtain ⟨cursor, selection, size⟩ := r
    cases selection with
    | none =>
      have hrow : (List.range cursor.batch.rows)[cursor.pointer]? = some cursor.pointer := by
        rw [List.getElem?_range]
        rwa [order, Option.elim_none, List.length_range] at hlt
      exact congrArg (fun row => (Except.ok row, _)) hrow.symm
    | some s =>
      have hplace : cursor.pointer < s.rows.length := hlt
      have hrow : s.rows[cursor.pointer]? = some s.rows[cursor.pointer] :=
        List.getElem?_eq_getElem hplace
      simp only [Selection.row, hrow, order, Option.elim_some]
      rfl

/-- A step through a list: what comes later is the same, counted from the new pointer. -/
theorem getElem?_advance {α : Type} (xs : List α) (c : Cursor) (i : Nat) :
    xs[(c.advance xs.length).2.pointer + i]? = xs[c.pointer + (i + 1)]? := by
  rw [Cursor.pointer_advance]
  by_cases hend : xs.length ≤ c.pointer
  · rw [if_pos hend, List.getElem?_eq_none (by omega), List.getElem?_eq_none (by omega)]
  · rw [if_neg hend, Nat.add_right_comm, Nat.add_assoc]

/-- A step leaves the order of the rows. -/
theorem order_advance (r : Resident) (n : Nat) :
    order { r with cursor := (r.cursor.advance n).2 } = r.order := by
  rw [order, show Resident.cursor { r with cursor := (r.cursor.advance n).2 } = _ from rfl,
    Cursor.batch_advance]
  rfl

variable {b : Batch} {selection : Option Selection}

/-- A selection of rows that exist makes a run. -/
theorem ofBatch_of_lt (h : ∀ s ∈ selection, ∀ i ∈ s.rows, i < b.rows) (size : Nat) :
    ofBatch b selection size = .ok ⟨.ofBatch b, selection, size⟩ := by
  unfold ofBatch
  cases hgreatest : selection.bind Selection.greatest? with
  | none => rfl
  | some row =>
    obtain ⟨s, hs, hrow⟩ := Option.bind_eq_some_iff.1 hgreatest
    have hlt : row < b.rows := h s hs row (List.max?_mem hrow)
    exact if_neg (Nat.not_le.2 hlt)

/-- The copy has the rows that the run delivers, in their order. -/
theorem materialize_of_lt (hb : b.Shaped) (h : ∀ s ∈ selection, ∀ i ∈ s.rows, i < b.rows)
    (size : Nat) : materialize ⟨.ofBatch b, selection, size⟩
      = .ok (b.taken (order ⟨.ofBatch b, selection, size⟩)) := by
  cases selection with
  | none => exact congrArg Except.ok (Batch.taken_range hb).symm
  | some s => exact Batch.gather_of_lt hb (h s rfl)

end ExternalSort.Group.Resident

namespace ExternalSort.Run

open Storage

variable {ω κ ρ : Type} {c : Channel ω κ ρ} {R : Reliable c} {r : Run κ ρ} {s : ω}
  {bs : List Batch}

/-! ### Rows in a file -/

end ExternalSort.Run

namespace ExternalSort.Group

open Storage

variable {ω κ ρ : Type} {c : Channel ω κ ρ}

/-- A batch of three rows. -/
def three : Batch where
  schema := ⟨[⟨"x", .int .int32, false, .empty⟩], .empty⟩
  columns := [⟨.int .int32, [some 7, some 5, some 9]⟩]
  rows := 3

/-- A schema with wider words and with a field more. -/
def wider : Schema := ⟨[⟨"y", .bool, true, .empty⟩, ⟨"x", .int .int64, true, .empty⟩], .empty⟩

/-- A row in that schema. -/
def wide (w : BitVec 64) : Resident.Cells := [⟨.bool, none⟩, ⟨.int .int64, some w⟩]

end ExternalSort.Group
