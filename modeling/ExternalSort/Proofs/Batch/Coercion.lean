/-
What reshaping keeps of a batch.

A batch that was reshaped has the target schema, one column for each of its fields, and the
rows that it had.  Its columns have the types and the length that they should have.  One
thing is not seen to: a target field that requires values gets its column whatever cells
are missing there.  So a valid batch stays valid exactly if reshaping leaves no such cell
missing.
-/
import ExternalSort.Batch.Coercion
import ExternalSort.Proofs.Batch.Valid
import ExternalSort.Proofs.Sequence

namespace ExternalSort.Batch

variable {b b' : Batch} {target : Schema}

/-- A batch is reshaped by staying as it is, or field by field. -/
theorem coerce_eq_ok_iff : b.coerce target = .ok b' ↔
    (b.schema = target ∧ b' = b) ∨
      (b.schema ≠ target ∧ b.firstDropped? target = none ∧
        ∃ columns, target.fields.mapM b.coerceColumn = .ok columns ∧
          b' = ⟨target, columns, b.rows⟩) := by
  unfold coerce
  by_cases hsame : b.schema = target
  · rw [if_pos hsame]
    constructor
    · intro h
      exact .inl ⟨hsame, (Except.ok.inj h).symm⟩
    · rintro (⟨-, rfl⟩ | ⟨hne, -⟩)
      · rfl
      · exact absurd hsame hne
  · rw [if_neg hsame]
    cases hdropped : b.firstDropped? target with
    | some f =>
      constructor
      · intro h
        exact nomatch h
      · rintro (⟨h, -⟩ | ⟨-, h, -⟩)
        · exact absurd h hsame
        · exact nomatch h
    | none =>
      cases hcolumns : target.fields.mapM b.coerceColumn with
      | error f =>
        constructor
        · intro h
          exact nomatch h
        · rintro (⟨h, -⟩ | ⟨-, -, columns, h, -⟩)
          · exact absurd h hsame
          · exact nomatch h
      | ok columns =>
        constructor
        · intro h
          exact .inr ⟨hsame, rfl, columns, rfl, (Except.ok.inj h).symm⟩
        · rintro (⟨h, -⟩ | ⟨-, -, columns', h, rfl⟩)
          · exact absurd h hsame
          · obtain rfl := Except.ok.inj h
            rfl

theorem schema_coerce (h : b.coerce target = .ok b') : b'.schema = target := by
  rcases coerce_eq_ok_iff.1 h with ⟨hsame, rfl⟩ | ⟨-, -, columns, -, rfl⟩
  · exact hsame
  · rfl

theorem rows_coerce (h : b.coerce target = .ok b') : b'.rows = b.rows := by
  rcases coerce_eq_ok_iff.1 h with ⟨-, rfl⟩ | ⟨-, -, columns, -, rfl⟩ <;> rfl

theorem columnCount_coerce (hb : b.columns.length = b.schema.fields.length)
    (h : b.coerce target = .ok b') : b'.columns.length = b'.schema.fields.length := by
  rcases coerce_eq_ok_iff.1 h with ⟨-, rfl⟩ | ⟨-, -, columns, hcolumns, rfl⟩
  · exact hb
  · exact (Sequence.getElem_of_mapM_eq_ok hcolumns).1

/-! ### Columns of the target -/

theorem mem_of_columnNamed? {name : String} {c : Column} (h : b.columnNamed? name = some c) :
    c ∈ b.columns := by
  unfold columnNamed? at h
  obtain ⟨i, -, hi⟩ := Option.bind_eq_some_iff.1 h
  exact List.mem_of_getElem? hi

/-- Every cell of a column has a value that the type can represent. -/
def CellsFill (c : Column) (t : ColumnType) : Prop :=
  ∀ x ∈ c.cells, if c.type = t then x.isSome else ∃ v, c.type.castCell t x = .ok (some v)

theorem cellsFill_same {c : Column} {t : ColumnType} (h : c.type = t) :
    CellsFill c t ↔ ∀ x ∈ c.cells, x.isSome :=
  forall₂_congr fun _ _ => by rw [if_pos h]

theorem cellsFill_cast {c : Column} {t : ColumnType} (h : c.type ≠ t) :
    CellsFill c t ↔ ∀ x ∈ c.cells, ∃ v, c.type.castCell t x = .ok (some v) :=
  forall₂_congr fun _ _ => by rw [if_neg h]

/-- Where a field requires values, the column of its name has one in every cell. -/
def Fills (b : Batch) (f : Field) : Prop :=
  f.nullable = false → f.type ≠ .null →
    ∀ c, b.columnNamed? f.name = some c → CellsFill c f.type

theorem cast_eq_ok {c c' : Column} {t : ColumnType} (h : c.cast t = .ok c') :
    c'.type = t ∧ c'.length = c.length ∧
      ((∀ x ∈ c'.cells, x.isSome) ↔ ∀ x ∈ c.cells, ∃ v, c.type.castCell t x = .ok (some v)) := by
  unfold Column.cast at h
  cases hcells : c.cells.mapM (c.type.castCell t) with
  | error f =>
    rw [hcells] at h
    exact nomatch h
  | ok cells =>
    rw [hcells] at h
    obtain rfl := Except.ok.inj h
    obtain ⟨hlen, hitems⟩ := Sequence.getElem_of_mapM_eq_ok hcells
    refine ⟨rfl, hlen, ?_, ?_⟩
    · intro hall x hx
      obtain ⟨i, hi, rfl⟩ := List.getElem_of_mem hx
      obtain ⟨v, hv⟩ := Option.isSome_iff_exists.1 (hall _ (List.getElem_mem (hlen ▸ hi)))
      exact ⟨v, hv ▸ hitems i hi (hlen ▸ hi)⟩
    · intro hall y hy
      obtain ⟨i, hi, rfl⟩ := List.getElem_of_mem hy
      obtain ⟨v, hv⟩ := hall _ (List.getElem_mem (hlen ▸ hi))
      have heq := (hitems i (hlen ▸ hi) hi).symm.trans hv
      rw [Except.ok.inj heq]
      rfl

/-- The column for a target field has its type and a cell for each row, and a required cell
is missing there exactly if reshaping leaves one missing. -/
theorem coerceColumn_eq_ok (hb : b.Shaped) {f : Field} {c' : Column}
    (h : b.coerceColumn f = .ok c') :
    c'.type = f.type ∧ c'.length = b.rows ∧
      ((f.nullable = false → c'.lacksValue = false) ↔ b.Fills f) := by
  unfold coerceColumn at h
  unfold Fills
  cases hnamed : b.columnNamed? f.name with
  | none =>
    rw [hnamed] at h
    simp only at h
    split at h
    · exact nomatch h
    · rename_i hfilled
      obtain rfl := Except.ok.inj h
      refine ⟨rfl, List.length_replicate .., fun _ _ _ c hc => (nomatch hc), ?_⟩
      intro _ hnullable
      refine lacksValue_eq_false.2 (.inr ?_)
      intro x hx
      obtain ⟨hrows, -⟩ := List.mem_replicate.1 hx
      exact absurd ⟨Nat.pos_of_ne_zero hrows, hnullable⟩ hfilled
  | some c =>
    rw [hnamed] at h
    simp only at h
    have hlength := hb.lengths c (mem_of_columnNamed? hnamed)
    by_cases hsame : c.type = f.type
    · rw [if_pos hsame] at h
      obtain rfl := Except.ok.inj h
      refine ⟨hsame, hlength, ?_⟩
      simp only [Option.some.injEq, forall_eq', cellsFill_same hsame, lacksValue_eq_false, hsame,
        ← Classical.or_iff_not_imp_left]
    · rw [if_neg hsame] at h
      split at h
      · cases hcast : c.cast f.type with
        | error e =>
          rw [hcast] at h
          exact nomatch h
        | ok c'' =>
          rw [hcast] at h
          obtain rfl := Except.ok.inj h
          obtain ⟨htype, hlen, hfills⟩ := cast_eq_ok hcast
          refine ⟨htype, hlen.trans hlength, ?_⟩
          simp only [Option.some.injEq, forall_eq', cellsFill_cast hsame, lacksValue_eq_false,
            htype, hfills, ← Classical.or_iff_not_imp_left]
      · exact nomatch h

/-! ### Shape and completeness of what was reshaped -/

/-- Reshaping leaves no required cell missing. -/
def KeepsRequired (b : Batch) (target : Schema) : Prop :=
  b.schema = target ∨ ∀ f ∈ target.fields, b.Fills f

theorem shaped_coerce (hb : b.Shaped) (h : b.coerce target = .ok b') : b'.Shaped := by
  rcases coerce_eq_ok_iff.1 h with ⟨-, rfl⟩ | ⟨-, -, columns, hcolumns, rfl⟩
  · exact hb
  · obtain ⟨hlen, hitems⟩ := Sequence.getElem_of_mapM_eq_ok hcolumns
    refine ⟨List.ext_getElem (by simpa using hlen) ?_, ?_⟩
    · intro i hi hi'
      rw [List.length_map] at hi hi'
      rw [List.getElem_map, List.getElem_map]
      exact (coerceColumn_eq_ok hb (hitems i hi' hi)).1
    · intro c hc
      obtain ⟨i, hi, rfl⟩ := List.getElem_of_mem hc
      exact (coerceColumn_eq_ok hb (hitems i (hlen ▸ hi) hi)).2.1

/-- **A valid batch stays valid exactly if reshaping leaves no required cell missing.** -/
theorem valid_coerce_iff (hb : b.Valid) (h : b.coerce target = .ok b') :
    b'.Valid ↔ b.KeepsRequired target := by
  have hshaped := (valid_iff.1 hb).1
  rw [valid_iff, and_iff_right (shaped_coerce hshaped h), KeepsRequired]
  rcases coerce_eq_ok_iff.1 h with ⟨hsame, rfl⟩ | ⟨hne, -, columns, hcolumns, rfl⟩
  · exact ⟨fun _ => .inl hsame, fun _ => hb.required⟩
  · obtain ⟨hlen, hitems⟩ := Sequence.getElem_of_mapM_eq_ok hcolumns
    rw [or_iff_right hne]
    constructor
    · intro hcomplete f hf
      obtain ⟨i, hi, rfl⟩ := List.getElem_of_mem hf
      have hi' : i < columns.length := hlen ▸ hi
      have hzip : (target.fields[i], columns[i]) ∈ target.fields.zip columns :=
        List.mem_iff_getElem.2 ⟨i, by rw [List.length_zip]; omega, List.getElem_zip⟩
      exact (coerceColumn_eq_ok hshaped (hitems i hi hi')).2.2.1 (hcomplete _ hzip)
    · intro hfills p hp
      obtain ⟨i, hi, rfl⟩ := List.getElem_of_mem hp
      change i < (target.fields.zip columns).length at hi
      rw [List.length_zip] at hi
      rw [List.getElem_zip]
      exact (coerceColumn_eq_ok hshaped (hitems i (by omega) (by omega))).2.2.2
        (hfills _ (List.getElem_mem _))

/-! ### Why a batch is not reshaped -/

/-- What can be wrong with a batch that is to be reshaped. -/
inductive Unfit : Fault → Prop where
  | dropped (column : String) : Unfit (.schema (.notInTarget column))
  | missing (column : String) (rows : Nat) : Unfit (.schema (.missingRequired column rows))
  | uncastable (column : String) (target source : ColumnType) :
      Unfit (.cannotCast column target source)
  | cast (cause : Fault.ColumnarFault) : Unfit (.columnar cause)

theorem unfit_of_coerceColumn {b : Batch} {field : Field} {f : Fault}
    (h : b.coerceColumn field = .error f) : Unfit f := by
  unfold coerceColumn at h
  split at h
  · split at h
    · obtain rfl := Except.error.inj h
      exact .missing _ _
    · exact nomatch h
  · rename_i column _
    split at h
    · exact nomatch h
    · split at h
      · cases hcast : column.cast field.type with
        | error f' =>
          rw [hcast] at h
          obtain rfl := Except.error.inj h
          exact .cast _
        | ok c =>
          rw [hcast] at h
          exact nomatch h
      · obtain rfl := Except.error.inj h
        exact .uncastable _ _ _

theorem unfit_of_coerce {b : Batch} {target : Schema} {f : Fault}
    (h : b.coerce target = .error f) : Unfit f := by
  unfold coerce at h
  split at h
  · exact nomatch h
  · split at h
    · obtain rfl := Except.error.inj h
      exact .dropped _
    · cases hcolumns : target.fields.mapM b.coerceColumn with
      | error f' =>
        rw [hcolumns] at h
        obtain rfl : f' = f := Except.error.inj h
        obtain ⟨field, -, hfield⟩ := Sequence.mapM_eq_error hcolumns
        exact unfit_of_coerceColumn hfield
      | ok columns =>
        rw [hcolumns] at h
        exact nomatch h

/-- A batch that cannot be reshaped is no fault of the library. -/
theorem isUserFacing_of_coerce {b : Batch} {target : Schema} {f : Fault}
    (h : b.coerce target = .error f) : f.isUserFacing := by
  cases unfit_of_coerce h <;> rfl

end ExternalSort.Batch
