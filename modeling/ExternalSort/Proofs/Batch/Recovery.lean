/-
When the rows can be reshaped as their husk was.

Reshaping an emptied batch tries everything that depends on the schemas alone: that no
column is dropped, and that every column whose type changes can be cast at all.  Two things
only rows can show.  A target field that has no column is filled with missing cells, which a
required field refuses as soon as there is a row; and a cast between types that exists in
general fails for a day that no text is written for.  So where the husk could be reshaped
the rows can, exactly if neither is the case.
-/
import ExternalSort.Proofs.Batch.Gathering

namespace ExternalSort

/-! ### Cells that cannot be cast -/

/-- A day is cast to a text exactly if one is written for it. -/
theorem ColumnType.castCell_day {w : OffsetWidth} {d : BitVec 32} :
    (∃ y, castCell .date (.text w) (some d) = .ok y) ↔ (Calendar.render? d.toInt).isSome := by
  unfold castCell castValue
  dsimp only
  cases Calendar.render? d.toInt with
  | some written => exact ⟨fun _ => rfl, fun _ => ⟨_, rfl⟩⟩
  | none =>
    constructor
    · rintro ⟨y, h⟩
      cases h
    · intro h
      cases h

/-- Only a day can fail to be cast, and only to a text. -/
theorem ColumnType.castCell_eq_error {s t : ColumnType} {x : Option s.Value}
    {f : Fault.ColumnarFault} (h : s.castCell t x = .error f) :
    ∃ (d : BitVec 32) (w : OffsetWidth), s = .date ∧ HEq x (some d) ∧ t = .text w ∧
      Calendar.render? d.toInt = none := by
  cases x with
  | none => exact nomatch h
  | some v =>
    cases s with
    | date =>
      cases t with
      | text w =>
        refine ⟨v, w, rfl, .rfl, rfl, Option.not_isSome_iff_eq_none.1 ?_⟩
        rw [← castCell_day]
        rintro ⟨y, hy⟩
        exact nomatch h.symm.trans hy
      | _ => cases h
    | _ => cases t <;> cases h

namespace Column

/-- The days of a column of dates. -/
def days : Column → List (BitVec 32)
  | ⟨.date, cells⟩ => cells.filterMap id
  | _ => []

/-- Every day of the column can be written, where the type is a text. -/
def Writes (c : Column) (t : ColumnType) : Prop :=
  ∀ w, t = .text w → ∀ d ∈ c.days, (Calendar.render? d.toInt).isSome

theorem cast_ok_iff_cells {c : Column} {t : ColumnType} :
    (∃ c', c.cast t = .ok c') ↔ ∀ x ∈ c.cells, ∃ y, c.type.castCell t x = .ok y := by
  rw [← Sequence.mapM_ok_iff]
  unfold cast
  cases c.cells.mapM (c.type.castCell t) with
  | error f => exact ⟨fun ⟨_, h⟩ => (nomatch h), fun ⟨_, h⟩ => (nomatch h)⟩
  | ok cells => exact ⟨fun _ => ⟨cells, rfl⟩, fun _ => ⟨_, rfl⟩⟩

/-- **A column is cast exactly if its days can be written**, where it is cast to text. -/
theorem cast_ok_iff {c : Column} {t : ColumnType} : (∃ c', c.cast t = .ok c') ↔ c.Writes t := by
  rw [cast_ok_iff_cells]
  obtain ⟨type, cells⟩ := c
  constructor
  · rintro hcast w rfl d hd
    cases type with
    | date =>
      obtain ⟨x, hx, rfl⟩ := List.mem_filterMap.1 hd
      exact ColumnType.castCell_day.1 (hcast (some d) hx)
    | _ => exact nomatch hd
  · intro hwrites x hx
    cases hcell : type.castCell t x with
    | ok y => exact ⟨y, rfl⟩
    | error f =>
      obtain ⟨d, w, rfl, hday, rfl, hnone⟩ := ColumnType.castCell_eq_error hcell
      obtain rfl := eq_of_heq hday
      have hsome := hwrites w rfl d (List.mem_filterMap.2 ⟨some d, hx, rfl⟩)
      rw [hnone] at hsome
      exact nomatch hsome

end Column

namespace Batch

variable {b : Batch} {target : Schema}

/-- The rows can have a target field: its column can be cast, or there is none and nothing
is required or there is no row. -/
def Fits (b : Batch) (f : Field) : Prop :=
  match b.columnNamed? f.name with
  | none => b.rows = 0 ∨ f.nullable = true
  | some c => c.Writes f.type

/-- Without another type there is nothing to be cast. -/
theorem writes_same {c : Column} : c.Writes c.type := by
  rintro w hw d hd
  obtain ⟨type, cells⟩ := c
  obtain rfl : type = .text w := hw
  exact nomatch hd

end Batch
end ExternalSort
