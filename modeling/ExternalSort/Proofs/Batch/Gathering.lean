/-
Rows picked out of a batch, before and after reshaping.

Which rows are picked, and in which order, has nothing to do with what the cells hold.  So
rows that are picked from a batch and then reshaped are those picked from the batch as it
was reshaped, and where the batch can be reshaped the rows can.  To say so, picking is
written down once as the batch that it comes to: `taken` never fails, and where the places
exist gathering gives it.  A batch that was emptied is the same batch with no row picked.
-/
import ExternalSort.Proofs.Batch.Coercion
import ExternalSort.Proofs.Batch.Obtained

namespace ExternalSort

/-! ### Columns -/

namespace Column

/-- The cells at the given places; where there is no such place, a missing one. -/
def taken (c : Column) (places : List Nat) : Column := ⟨c.type, places.map c.cell⟩

theorem cell_of_lt {c : Column} {i : Nat} (h : i < c.cells.length) : c.cell i = c.cells[i] := by
  rw [cell, List.getElem?_eq_getElem h]
  rfl

theorem cell_taken (c : Column) {places : List Nat} {i : Nat} (h : i < places.length) :
    (c.taken places).cell i = c.cell places[i] := by
  show (places.map c.cell)[i]?.join = _
  rw [List.getElem?_map, List.getElem?_eq_getElem h]
  rfl

/-- Where the places exist, gathering gives the cells at them. -/
theorem gather_of_lt {c : Column} {places : List Nat} (h : ∀ i ∈ places, i < c.length) :
    c.gather places = .ok (c.taken places) := by
  unfold gather
  by_cases hnull : c.type = .null
  · rw [if_pos hnull]
    obtain ⟨type, cells⟩ := c
    obtain rfl : type = .null := hnull
    have hcells : (places.map fun _ => none) = places.map (Column.mk .null cells).cell := by
      refine List.map_congr_left ?_
      intro i _
      cases hcell : (Column.mk .null cells).cell i with
      | none => rfl
      | some v => exact nomatch v
    exact congrArg (fun cells => Except.ok (Column.mk .null cells)) hcells
  · rw [if_neg hnull, Sequence.mapM_of_ok (g := c.cell)]
    · rfl
    · intro i hi
      have hlt := h i hi
      rw [pick, List.getElem?_toArray, List.getElem?_eq_getElem hlt, cell_of_lt hlt]

/-- Every cell in its place is the column itself. -/
theorem taken_range (c : Column) : c.taken (List.range c.length) = c := by
  have hcells : (List.range c.length).map c.cell = c.cells := by
    refine List.ext_getElem ?_ ?_
    · rw [List.length_map, List.length_range]
      rfl
    · intro i hi hi'
      rw [List.getElem_map, List.getElem_range, cell_of_lt hi']
  rw [taken, hcells]

theorem taken_absent (t : ColumnType) {n : Nat} {places : List Nat} :
    (absent t n).taken places = absent t places.length := by
  have hcells : places.map (absent t n).cell = List.replicate places.length none := by
    refine List.eq_replicate_iff.2 ⟨List.length_map .., ?_⟩
    intro x hx
    obtain ⟨i, -, rfl⟩ := List.mem_map.1 hx
    show (List.replicate n none)[i]?.join = none
    rw [List.getElem?_replicate]
    split <;> rfl
  exact congrArg (Column.mk t) hcells

/-- Cells that are picked are cast as they would have been in the column. -/
theorem cast_taken {c c' : Column} {t : ColumnType} {places : List Nat}
    (h : ∀ i ∈ places, i < c.length) (hcast : c.cast t = .ok c') :
    (c.taken places).cast t = .ok (c'.taken places) := by
  unfold cast at hcast ⊢
  cases hcells : c.cells.mapM (c.type.castCell t) with
  | error f =>
    rw [hcells] at hcast
    exact nomatch hcast
  | ok cells =>
    rw [hcells] at hcast
    obtain rfl := Except.ok.inj hcast
    obtain ⟨hlen, hitems⟩ := Sequence.getElem_of_mapM_eq_ok hcells
    have hpicked : (places.map c.cell).mapM (c.type.castCell t)
        = .ok (places.map (Column.mk t cells).cell) := by
      rw [List.mapM_map]
      refine Sequence.mapM_of_ok ?_
      intro i hi
      have hlt : i < c.length := h i hi
      have hlt' : i < (Column.mk t cells).length := Nat.lt_of_lt_of_eq hlt hlen.symm
      show c.type.castCell t (c.cell i) = _
      rw [cell_of_lt hlt, cell_of_lt hlt']
      exact hitems i hlt hlt'
    exact congrArg (Except.map (Column.mk t)) hpicked

end Column

/-! ### Batches -/

namespace Batch

variable {b b' : Batch} {places : List Nat} {target : Schema}

/-- The rows at the given places. -/
def taken (b : Batch) (places : List Nat) : Batch :=
  ⟨b.schema, b.columns.map (·.taken places), places.length⟩

theorem Shaped.lt_length (h : b.Shaped) (hplaces : ∀ i ∈ places, i < b.rows) {c : Column}
    (hc : c ∈ b.columns) : ∀ i ∈ places, i < c.length := by
  intro i hi
  rw [h.lengths c hc]
  exact hplaces i hi

/-- Where the rows exist, gathering gives them. -/
theorem gather_of_lt (h : b.Shaped) (hplaces : ∀ i ∈ places, i < b.rows) :
    b.gather places = .ok (b.taken places) := by
  rw [gather, Sequence.mapM_of_ok (g := (·.taken places))]
  · rfl
  · intro c hc
    exact Column.gather_of_lt (h.lt_length hplaces hc)

/-- Every row in its place is the batch itself. -/
theorem taken_range (h : b.Shaped) : b.taken (List.range b.rows) = b := by
  have hcolumns : b.columns.map (·.taken (List.range b.rows)) = b.columns := by
    refine (List.map_congr_left ?_).trans (List.map_id _)
    intro c hc
    rw [← h.lengths c hc]
    exact c.taken_range
  rw [taken, hcolumns, List.length_range]

/-- A batch without its rows is the batch with no row picked. -/
theorem zeroed_eq_taken (h : b.Shaped) : b.zeroed = b.taken [] := by
  have hcolumns : List.zipWith (fun _ f => Column.empty f.type) b.columns b.schema.fields
      = b.columns.map (·.taken []) := by
    refine List.ext_getElem ?_ ?_
    · rw [List.length_zipWith, List.length_map, h.columnCount, Nat.min_self]
    · intro i hi hi'
      rw [List.length_zipWith] at hi
      rw [List.getElem_zipWith, List.getElem_map]
      have htype := List.getElem_of_eq h.types (i := i) (by rw [List.length_map]; omega)
      rw [List.getElem_map, List.getElem_map] at htype
      rw [← htype]
      rfl
  rw [zeroed, hcolumns]
  rfl

/-- A row that was picked is the row at the place from which it was. -/
theorem row_taken (b : Batch) {i : Nat} (h : i < places.length) :
    (b.taken places).row i = b.row places[i] := by
  rw [row, taken, List.map_map]
  refine List.map_congr_left ?_
  intro c _
  exact congrArg (Sigma.mk c.type) (c.cell_taken h)

theorem columnNamed?_taken (b : Batch) (places : List Nat) (name : String) :
    (b.taken places).columnNamed? name = (b.columnNamed? name).map (·.taken places) := by
  unfold columnNamed?
  show (b.schema.indexOf? name).bind (fun i => (b.columns.map (·.taken places))[i]?)
    = ((b.schema.indexOf? name).bind fun i => b.columns[i]?).map (·.taken places)
  cases b.schema.indexOf? name with
  | none => rfl
  | some i => exact List.getElem?_map

/-- The column for a target field is picked from that of the whole batch. -/
theorem coerceColumn_taken (h : b.Shaped) (hplaces : ∀ i ∈ places, i < b.rows) {f : Field}
    {c : Column} (hc : b.coerceColumn f = .ok c) :
    (b.taken places).coerceColumn f = .ok (c.taken places) := by
  unfold coerceColumn at hc ⊢
  rw [columnNamed?_taken]
  cases hnamed : b.columnNamed? f.name with
  | none =>
    rw [hnamed] at hc
    simp only [Option.map_none] at hc ⊢
    split at hc
    · exact nomatch hc
    · rename_i hfilled
      obtain rfl := Except.ok.inj hc
      rw [Column.taken_absent]
      refine if_neg ?_
      rintro ⟨hpos, hnullable⟩
      -- A row that was picked is a row of the batch, so the batch has one.
      obtain ⟨i, hi⟩ := List.exists_mem_of_length_pos hpos
      exact hfilled ⟨Nat.zero_lt_of_lt (hplaces i hi), hnullable⟩
  | some c₀ =>
    rw [hnamed] at hc
    simp only [Option.map_some] at hc ⊢
    show (if c₀.type = f.type then _ else if c₀.type.castable f.type then _ else _) = _
    by_cases hsame : c₀.type = f.type
    · rw [if_pos hsame] at hc ⊢
      obtain rfl := Except.ok.inj hc
      rfl
    · rw [if_neg hsame] at hc ⊢
      by_cases hcastable : c₀.type.castable f.type
      · rw [if_pos hcastable] at hc ⊢
        cases hcast : c₀.cast f.type with
        | error e =>
          rw [hcast] at hc
          exact nomatch hc
        | ok c' =>
          rw [hcast] at hc
          obtain rfl := Except.ok.inj hc
          rw [Column.cast_taken (h.lt_length hplaces (mem_of_columnNamed? hnamed)) hcast]
          rfl
      · rw [if_neg hcastable] at hc
        exact nomatch hc

/-- **Rows that were picked are reshaped as the batch is**: where the batch can be reshaped
they can, and they are the rows of the batch as it was reshaped. -/
theorem coerce_taken (h : b.Shaped) (hplaces : ∀ i ∈ places, i < b.rows)
    (hcoerce : b.coerce target = .ok b') :
    (b.taken places).coerce target = .ok (b'.taken places) := by
  rcases coerce_eq_ok_iff.1 hcoerce with ⟨hsame, rfl⟩ | ⟨hne, hdropped, columns, hcolumns, rfl⟩
  · exact coerce_eq_ok_iff.2 (.inl ⟨hsame, rfl⟩)
  · refine coerce_eq_ok_iff.2 (.inr ⟨hne, hdropped, columns.map (·.taken places), ?_, rfl⟩)
    obtain ⟨hlen, hitems⟩ := Sequence.getElem_of_mapM_eq_ok hcolumns
    refine Sequence.mapM_eq_ok (by rw [List.length_map, hlen]) ?_
    intro i hi hi'
    rw [List.length_map] at hi'
    rw [List.getElem_map]
    exact coerceColumn_taken h hplaces (hitems i hi hi')

/-- The emptied batch can be reshaped wherever the batch can. -/
theorem coerce_zeroed (h : b.Shaped) (hcoerce : b.coerce target = .ok b') :
    b.zeroed.coerce target = .ok (b'.taken []) := by
  rw [zeroed_eq_taken h]
  exact coerce_taken h (fun i hi => (nomatch hi)) hcoerce

end Batch
end ExternalSort
