/-
Which cells go missing when a batch is reshaped.

A column whose type changes is cast, and a value that the new type cannot represent leaves a
missing cell, without a word.  So under a field that lets cells be missing, a cell of the
reshaped batch is missing exactly if the cell was missing before, or if its value is one of
those.  Whether a batch can be reshaped at all is seen from the two schemas and the number of
rows (`Schema.Admits`), and of the values only the days count that are to be text.

What becomes of such a value under a field that requires one is not said here.
-/
import ExternalSort.Proofs.Batch.Matching
import ExternalSort.Proofs.Column.Loss

namespace ExternalSort

/-- The cell that a cell becomes is missing exactly if that was missing, or if its value cannot
be represented. -/
theorem ColumnType.Becomes.none_iff {s t : ColumnType} {x : Option s.Value} {y : Option t.Value}
    (h : ColumnType.Becomes s t x y) (hcastable : s = t ∨ s.castable t) :
    y = none ↔ x = none ∨ ∃ v, x = some v ∧ ¬s.Represents t v := by
  unfold ColumnType.Becomes at h
  by_cases hsame : s = t
  · subst hsame
    obtain rfl := eq_of_heq (if_pos rfl ▸ h)
    refine ⟨.inl, ?_⟩
    rintro (hnone | ⟨v, -, hnot⟩)
    · exact hnone
    · exact absurd (s.represents_self v) hnot
  · rw [if_neg hsame] at h
    cases x with
    | none => exact iff_of_true (Except.ok.inj h).symm (.inl rfl)
    | some v =>
      have hlost := castValue_eq_none_iff (hcastable.resolve_left hsame) v
      rw [show s.castValue t v = .ok y from h, Except.ok.injEq] at hlost
      simpa using hlost

namespace Column

variable {c d : Column}

/-- A cell has a value that a type cannot represent. -/
def Loses (c : Column) (t : ColumnType) (row : Nat) : Prop :=
  ∃ v, c.cell row = some v ∧ ¬c.type.Represents t v

/-- A cast fails at a day for which no text is written. -/
theorem day_of_cast {t : ColumnType} {f : Fault.ColumnarFault} (h : c.cast t = .error f) :
    ∃ w, t = .text w ∧
      ∃ d ∈ c.days, Calendar.render? d.toInt = none ∧ f = .dayOutOfRange d.toInt := by
  obtain ⟨type, cells⟩ := c
  cases hcells : cells.mapM (type.castCell t) with
  | ok _ =>
    rw [cast, hcells] at h
    exact nomatch h
  | error e =>
    rw [cast, hcells] at h
    obtain rfl := Except.error.inj h
    obtain ⟨x, hx, hcell⟩ := Sequence.mapM_eq_error hcells
    obtain ⟨d, w, rfl, hday, rfl, hnone⟩ := ColumnType.castCell_eq_error hcell
    obtain rfl := eq_of_heq hday
    refine ⟨w, rfl, d, List.mem_filterMap.2 ⟨some d, hx, rfl⟩, hnone, ?_⟩
    unfold ColumnType.castCell ColumnType.castValue at hcell
    dsimp only at hcell
    rw [hnone] at hcell
    exact (Except.error.inj hcell).symm

end Column

/-- Columns of a schema, in so many rows, can be put into the shape of another as far as names,
types and requirements go.  No value is asked for. -/
structure Schema.Admits (source : Schema) (rows : Nat) (target : Schema) : Prop where
  /-- No column is dropped. -/
  kept : ∀ f ∈ source.fields, ∃ g ∈ target.fields, g.name = f.name
  castable : ∀ g ∈ target.fields, ∀ f ∈ source.fields, f.name = g.name →
    f.type = g.type ∨ f.type.castable g.type
  /-- Where there is no column of the name, cells may be missing, or there are none. -/
  filled : ∀ g ∈ target.fields, (∀ f ∈ source.fields, f.name ≠ g.name) → g.nullable ∨ rows = 0

namespace Batch

variable {b b' : Batch} {target : Schema}

/-- A field of the batch has a column, which has its type. -/
theorem exists_named (hb : b.Shaped) {f : Field} (hf : f ∈ b.schema.fields) :
    ∃ c, b.Named f.name c ∧ c.type = f.type := by
  obtain ⟨c, hc⟩ := Sequence.exists_mem_zip hb.columnCount hf
  exact ⟨c, ⟨f, hc, rfl⟩, hb.type_eq hc⟩

/-- A field is supplied exactly if schema and rows do for it, and if the days can be written
that are to be text under it. -/
theorem attains_iff_admits (hb : b.Shaped) :
    b.Attains target ↔ b.schema.Admits b.rows target ∧
      ∀ g ∈ target.fields, ∀ c, b.Named g.name c → c.Writes g.type := by
  constructor
  · rintro ⟨hkept, hsupplies⟩
    refine ⟨⟨hkept, fun g hg f hf hname => ?_, fun g hg hnone => ?_⟩, fun g hg c hc => ?_⟩
    · obtain ⟨c, hc, htype⟩ := exists_named hb hf
      exact htype ▸ ((hsupplies g hg).cast c (hname ▸ hc)).imp_right And.left
    · refine (hsupplies g hg).filled ?_
      rintro c ⟨f, hf, hname⟩
      exact hnone f (List.of_mem_zip hf).1 hname
    · rcases (hsupplies g hg).cast c hc with hsame | ⟨-, hcast⟩
      · exact hsame ▸ writes_same
      · exact Column.cast_ok_iff.1 hcast
  · rintro ⟨⟨hkept, hcastable, hfilled⟩, hwrites⟩
    refine ⟨hkept, fun g hg => ⟨fun c hc => ?_, fun hnone => hfilled g hg ?_⟩⟩
    · obtain ⟨f, hf, hname⟩ := hc
      have htypes := hcastable g hg f (List.of_mem_zip hf).1 hname
      rw [← hb.type_eq hf] at htypes
      exact htypes.imp_right (⟨·, Column.cast_ok_iff.2 (hwrites g hg c ⟨f, hf, hname⟩)⟩)
    · intro f hf hname
      obtain ⟨c, hc, -⟩ := exists_named hb hf
      exact hnone c (hname ▸ hc)

theorem day_of_coerceColumn {g : Field} {f : Fault.ColumnarFault}
    (h : b.coerceColumn g = .error (.columnar f)) :
    ∃ c, b.Named g.name c ∧ ∃ w, g.type = .text w ∧
      ∃ d ∈ c.days, Calendar.render? d.toInt = none ∧ f = .dayOutOfRange d.toInt := by
  unfold coerceColumn at h
  cases hnamed : b.columnNamed? g.name with
  | none =>
    rw [hnamed] at h
    dsimp only at h
    split at h <;> cases h
  | some c =>
    rw [hnamed] at h
    dsimp only at h
    split at h
    · cases h
    · split at h
      · cases hcast : c.cast g.type with
        | ok d =>
          rw [hcast] at h
          cases h
        | error e =>
          rw [hcast] at h
          obtain rfl := Fault.columnar.inj (Except.error.inj h)
          exact ⟨c, named_of_columnNamed? hnamed, Column.day_of_cast hcast⟩
      · cases h

/-- A fault of a cast comes from a day of a column that is to be text. -/
theorem day_of_coerce {f : Fault.ColumnarFault} (h : b.coerce target = .error (.columnar f)) :
    ∃ g ∈ target.fields, ∃ c, b.Named g.name c ∧ ∃ w, g.type = .text w ∧
      ∃ d ∈ c.days, Calendar.render? d.toInt = none ∧ f = .dayOutOfRange d.toInt := by
  unfold coerce at h
  split at h
  · cases h
  · split at h
    · cases h
    · cases hcolumns : target.fields.mapM b.coerceColumn with
      | ok columns =>
        rw [hcolumns] at h
        cases h
      | error e =>
        rw [hcolumns] at h
        obtain rfl : e = .columnar f := Except.error.inj h
        obtain ⟨g, hg, hcolumn⟩ := Sequence.mapM_eq_error hcolumns
        exact ⟨g, hg, day_of_coerceColumn hcolumn⟩

/-- Where names are distinct, every column is under a field of its name, in a type to which it
can be cast. -/
theorem castable_of_coerce (hb : b.Shaped) (hnames : (b.schema.fields.map (·.name)).Nodup)
    (h : b.coerce target = .ok b') {g : Field} (hg : g ∈ target.fields) {c : Column}
    (hc : b.Named g.name c) : c.type = g.type ∨ c.type.castable g.type := by
  rcases (coerce_ok_iff_attains hb hnames).1 ⟨b', h⟩ with rfl | hattains
  · obtain ⟨d, hd⟩ := Sequence.exists_mem_zip hb.columnCount hg
    rw [hc.unique hnames ⟨g, hd, rfl⟩]
    exact .inl (hb.type_eq hd)
  · exact ((hattains.supplies g hg).cast c hc).imp_right And.left

/-- No name is dropped. -/
theorem kept_of_coerce (h : b.coerce target = .ok b') (f : Field) (hf : f ∈ b.schema.fields) :
    ∃ g ∈ target.fields, g.name = f.name := by
  rcases coerce_eq_ok_iff.1 h with ⟨rfl, -⟩ | ⟨-, hdropped, -⟩
  · exact ⟨f, hf, rfl⟩
  · exact firstDropped?_eq_none_iff.1 hdropped f hf

/-- **A cell goes missing exactly if the target type cannot represent its value.**  When a batch
with distinct names is reshaped, every column is under a field of its name, and under each such
field that lets cells be missing, a cell is missing exactly if it was missing before, or if its
value is not among those of the type.  Where all columns are under fields that let cells be
missing, no such value makes the reshaping fail: it fails exactly if the schemas do not admit it,
or for a day that is to be text and for which none is written.  Such a day is the only cause of a
fault of the cast itself. -/
theorem missing_iff_unrepresentable (hb : b.Shaped)
    (hnames : (b.schema.fields.map (·.name)).Nodup) (target : Schema) :
    (∀ b', b.coerce target = .ok b' → ∀ p ∈ b.schema.fields.zip b.columns,
      (∃ q ∈ target.fields.zip b'.columns, q.1.name = p.1.name) ∧
      ∀ q ∈ target.fields.zip b'.columns, q.1.name = p.1.name →
        q.2.type = q.1.type ∧ q.2.length = b.rows ∧ (q.1.nullable →
          ∀ row, q.2.cell row = none ↔ p.2.cell row = none ∨ p.2.Loses q.1.type row)) ∧
    ((∀ g ∈ target.fields, ∀ f ∈ b.schema.fields, f.name = g.name → g.nullable) →
      ((∃ b', b.coerce target = .ok b') ↔ b.schema = target ∨
        b.schema.Admits b.rows target ∧ ∀ g ∈ target.fields, ∀ c, b.Named g.name c →
          ∀ w, g.type = .text w → ∀ d ∈ c.days, (Calendar.render? d.toInt).isSome)) ∧
    ∀ f, b.coerce target = .error (.columnar f) →
      ∃ g ∈ target.fields, ∃ c, b.Named g.name c ∧ ∃ w, g.type = .text w ∧
        ∃ d ∈ c.days, Calendar.render? d.toInt = none ∧ f = .dayOutOfRange d.toInt := by
  refine ⟨fun b' h p hp => ?_, fun _ => ?_, fun f h => day_of_coerce h⟩
  · have hfashioned := fashioned_of_coerce hb hnames h
    refine ⟨?_, fun q hq hname => ?_⟩
    · obtain ⟨g, hg, hname⟩ := kept_of_coerce h p.1 (List.of_mem_zip hp).1
      obtain ⟨d, hd⟩ := Sequence.exists_mem_zip hfashioned.width hg
      exact ⟨(g, d), hd, hname⟩
    · have hnamed : b.Named q.1.name p.2 := ⟨p.1, hp, hname.symm⟩
      have hsupplied := hfashioned.supplied q hq
      have hcastable := castable_of_coerce hb hnames h (List.of_mem_zip hq).1 hnamed
      refine ⟨hsupplied.type, hsupplied.length, fun _ row => ?_⟩
      rw [← hsupplied.type] at hcastable ⊢
      exact ((hsupplied.cast p.2 hnamed).2 row).none_iff hcastable
  · rw [coerce_ok_iff_attains hb hnames, attains_iff_admits hb]
    rfl

/-- A column of wide integers, one of them great and one missing. -/
def wide : Batch where
  schema := ⟨[⟨"x", .int .int64, true, .empty⟩], .empty⟩
  columns := [⟨.int .int64, [some 7, some 1099511627776, none]⟩]
  rows := 3

/-- The schema of a column of narrow integers. -/
def narrow : Schema := ⟨[⟨"x", .int .int32, true, .empty⟩], .empty⟩

/-- What comes of the wide integers as narrow ones. -/
def narrowed : Batch := ⟨narrow, [⟨.int .int32, [some 7, none, none]⟩], 3⟩

theorem coerce_wide : wide.coerce narrow = .ok narrowed := rfl

/-- The second of the wide integers has no narrow one, the first has. -/
theorem wide_loses : wide.Shaped ∧ (wide.schema.fields.map (·.name)).Nodup ∧
    wide.coerce narrow = .ok narrowed ∧ wide.columns[0].Loses (.int .int32) 1 ∧
    ¬wide.columns[0].Loses (.int .int32) 0 := by
  have hshaped : wide.Shaped := ⟨rfl, by decide⟩
  have hnames : (wide.schema.fields.map (·.name)).Nodup := by decide
  obtain ⟨-, hcells⟩ := (missing_iff_unrepresentable hshaped hnames narrow).1 narrowed coerce_wide
    (wide.schema.fields[0], wide.columns[0]) (List.mem_singleton_self _)
  obtain ⟨-, -, hmissing⟩ := hcells (narrow.fields[0], narrowed.columns[0])
    (List.mem_singleton_self _) rfl
  exact ⟨hshaped, hnames, coerce_wide, ((hmissing rfl 1).1 rfl).resolve_left (by decide),
    fun h => absurd ((hmissing rfl 0).2 (.inr h)) (by decide)⟩

/-- **A value may go missing in a reshaped batch**, though its cell was not missing before. -/
theorem reshaping_loses_values : ¬∀ (b : Batch) (target : Schema) (b' : Batch), b.Valid →
    (b.schema.fields.map (·.name)).Nodup → b.coerce target = .ok b' →
    ∀ p ∈ b.schema.fields.zip b.columns, ∀ q ∈ target.fields.zip b'.columns,
      q.1.name = p.1.name → ∀ row, q.2.cell row = none ↔ p.2.cell row = none := by
  intro h
  have hvalid : wide.Valid := ⟨rfl, by decide, by decide⟩
  have hlost := h wide narrow narrowed hvalid (by decide) coerce_wide _ (List.mem_singleton_self _)
    _ (List.mem_singleton_self _) rfl 1
  exact absurd (hlost.1 rfl) (by decide)

end Batch
end ExternalSort
