/-
Columns of a batch and fields of a target schema, matched by name.

Reshaping looks names up twice: each name of the batch among the fields of the target, so
that no column is dropped, and each name of the target among the fields of the batch, to
find the cells.  Both look for the first field of a name.  Where the names of the batch are
distinct the first field is the only one.  Then reshaping can be told without any looking
up: which targets a batch can be put into the shape of (`Attains`), and which batch it then
is (`Fashioned`).

Where a name of the batch repeats, the cells of its first column stand under every field of
that name, and no column is found to be missing from the target that has the name at all.
So the columns behind the first are not dropped only if they become what the first does,
and if the target has as many fields of the name.
-/
import ExternalSort.Group.Operation
import ExternalSort.Proofs.Batch.Recovery

namespace ExternalSort

/-! ### What becomes of cells -/

/-- What a cell becomes in a column of another type: that to which it is cast.  In a column of
its own type it stays as it is. -/
def ColumnType.Becomes (s t : ColumnType) (x : Option s.Value) (y : Option t.Value) : Prop :=
  if s = t then HEq x y else s.castCell t x = .ok y

namespace Column

variable {c d e : Column}

/-- Every cell of a column becomes the cell of another in the same row. -/
def Becomes (c d : Column) : Prop :=
  d.length = c.length ∧ ∀ row, ColumnType.Becomes c.type d.type (c.cell row) (d.cell row)

theorem becomes_self (c : Column) : c.Becomes c :=
  ⟨rfl, fun _ => (if_pos rfl).mpr .rfl⟩

/-- Columns of a type that are equally long are equal if their cells are. -/
theorem ext_cell (htype : c.type = d.type) (hlength : c.length = d.length)
    (hcells : ∀ row, HEq (c.cell row) (d.cell row)) : c = d := by
  obtain ⟨t, xs⟩ := c
  obtain ⟨t', ys⟩ := d
  obtain rfl : t = t' := htype
  refine congrArg (Column.mk t) (List.ext_getElem hlength ?_)
  intro row hx hy
  have hcell := eq_of_heq (hcells row)
  rwa [cell_of_lt hx, cell_of_lt hy] at hcell

/-- A column becomes one column in each type. -/
theorem Becomes.unique (hd : c.Becomes d) (he : c.Becomes e) (htype : d.type = e.type) :
    d = e := by
  refine ext_cell htype (hd.1.trans he.1.symm) ?_
  intro row
  have hx := hd.2 row
  have hy := he.2 row
  obtain ⟨t, xs⟩ := d
  obtain ⟨t', ys⟩ := e
  obtain rfl : t = t' := htype
  unfold ColumnType.Becomes at hx hy
  by_cases hsame : c.type = t
  · rw [if_pos hsame] at hx hy
    exact hx.symm.trans hy
  · rw [if_neg hsame] at hx hy
    exact heq_of_eq (Except.ok.inj (hx.symm.trans hy))

theorem becomes_of_same (htype : d.type = c.type) : c.Becomes d ↔ d = c := by
  constructor
  · intro h
    exact h.unique c.becomes_self htype
  · rintro rfl
    exact d.becomes_self

theorem becomes_of_cast {t : ColumnType} (hne : c.type ≠ t) (h : c.cast t = .ok d) :
    d.type = t ∧ c.Becomes d := by
  unfold cast at h
  cases hcells : c.cells.mapM (c.type.castCell t) with
  | error f =>
    rw [hcells] at h
    exact nomatch h
  | ok cells =>
    rw [hcells] at h
    obtain rfl := Except.ok.inj h
    obtain ⟨hlen, hitems⟩ := Sequence.getElem_of_mapM_eq_ok hcells
    refine ⟨rfl, hlen, fun row => (if_neg hne).mpr ?_⟩
    show c.type.castCell t (c.cell row) = .ok (cell ⟨t, cells⟩ row)
    by_cases hrow : row < c.cells.length
    · have hrow' : row < (Column.mk t cells).cells.length := hlen ▸ hrow
      rw [cell_of_lt hrow, cell_of_lt hrow']
      exact hitems row hrow hrow'
    · have hnone : cells[row]? = none := List.getElem?_eq_none (by omega)
      rw [cell, cell, List.getElem?_eq_none (Nat.le_of_not_lt hrow), hnone]
      rfl

/-- A cast gives the column that a column becomes, and fails if it becomes none. -/
theorem cast_eq_ok_iff {t : ColumnType} (hne : c.type ≠ t) :
    c.cast t = .ok d ↔ d.type = t ∧ c.Becomes d := by
  refine ⟨becomes_of_cast hne, ?_⟩
  rintro ⟨rfl, hbecomes⟩
  have hcells : ∀ x ∈ c.cells, ∃ y, c.type.castCell d.type x = .ok y := by
    intro x hx
    obtain ⟨row, hrow, rfl⟩ := List.getElem_of_mem hx
    have hcell := (if_neg hne).mp (hbecomes.2 row)
    rw [cell_of_lt hrow] at hcell
    exact ⟨_, hcell⟩
  obtain ⟨e, he⟩ := cast_ok_iff_cells.2 hcells
  obtain ⟨htype, he'⟩ := becomes_of_cast hne he
  rw [he, he'.unique hbecomes htype]

end Column

namespace Batch

variable {b b' : Batch} {target : Schema} {name : String} {f : Field} {c d : Column}

theorem Shaped.type_eq (hb : b.Shaped) {p : Field × Column}
    (hp : p ∈ b.schema.fields.zip b.columns) : p.2.type = p.1.type := by
  obtain ⟨i, hi, rfl⟩ := List.getElem_of_mem hp
  rw [List.length_zip] at hi
  have htype := List.getElem_of_eq hb.types (i := i) (by rw [List.length_map]; omega)
  rw [List.getElem_zip]
  rwa [List.getElem_map, List.getElem_map] at htype

/-! ### Columns of a name -/

/-- A column stands under a field of a name. -/
def Named (b : Batch) (name : String) (c : Column) : Prop :=
  ∃ f : Field, (f, c) ∈ b.schema.fields.zip b.columns ∧ f.name = name

theorem named_iff_getElem? : b.Named name c ↔
    ∃ (i : Nat) (f : Field), b.schema.fields[i]? = some f ∧ b.columns[i]? = some c ∧
      f.name = name := by
  unfold Named
  simp only [List.mem_iff_getElem?, List.getElem?_zip_eq_some]
  constructor
  · rintro ⟨f, ⟨i, hf, hc⟩, hname⟩
    exact ⟨i, f, hf, hc, hname⟩
  · rintro ⟨i, f, hf, hc, hname⟩
    exact ⟨f, ⟨i, hf, hc⟩, hname⟩

theorem named_of_columnNamed? (h : b.columnNamed? name = some c) : b.Named name c := by
  obtain ⟨i, hi, hc⟩ := Option.bind_eq_some_iff.1 h
  obtain ⟨hlt, hname, -⟩ := List.findIdx?_eq_some_iff_getElem.1 hi
  exact named_iff_getElem?.2 ⟨i, _, List.getElem?_eq_getElem hlt, hc, beq_iff_eq.1 hname⟩

/-- A column is found by a name exactly if there is one of that name. -/
theorem columnNamed?_eq_none_iff (hb : b.Shaped) :
    b.columnNamed? name = none ↔ ∀ c, ¬b.Named name c := by
  constructor
  · intro hnone c hc
    obtain ⟨i, f, hf, -, hname⟩ := named_iff_getElem?.1 hc
    obtain ⟨hi, rfl⟩ := List.getElem?_eq_some_iff.1 hf
    cases hindex : b.schema.indexOf? name with
    | none =>
      have hother := List.findIdx?_eq_none_iff.1 hindex _ (List.getElem_mem hi)
      exact absurd hname (beq_eq_false_iff_ne.1 hother)
    | some j =>
      obtain ⟨hj, -⟩ := List.findIdx?_eq_some_iff_getElem.1 hindex
      have hj' : j < b.columns.length := hb.columnCount ▸ hj
      have hcolumn : b.columnNamed? name = some b.columns[j] :=
        Option.bind_eq_some_iff.2 ⟨j, hindex, List.getElem?_eq_getElem hj'⟩
      rw [hcolumn] at hnone
      exact nomatch hnone
  · intro hall
    cases h : b.columnNamed? name with
    | none => rfl
    | some c => exact absurd (named_of_columnNamed? h) (hall c)

theorem place_unique {fields : List Field} (hnames : (fields.map (·.name)).Nodup) {i j : Nat}
    {f g : Field} (hf : fields[i]? = some f) (hg : fields[j]? = some g) (h : f.name = g.name) :
    i = j := by
  obtain ⟨hi, -⟩ := List.getElem?_eq_some_iff.1 hf
  refine (List.getElem?_inj (by rwa [List.length_map]) hnames).1 ?_
  rw [List.getElem?_map, List.getElem?_map, hf, hg, Option.map_some, Option.map_some, h]

/-- Where names are distinct, there is one column of each name. -/
theorem Named.unique (hnames : (b.schema.fields.map (·.name)).Nodup) (hc : b.Named name c)
    (hd : b.Named name d) : c = d := by
  obtain ⟨i, f, hf, hc, hname⟩ := named_iff_getElem?.1 hc
  obtain ⟨j, g, hg, hd, hname'⟩ := named_iff_getElem?.1 hd
  obtain rfl := place_unique hnames hf hg (hname.trans hname'.symm)
  exact Option.some.inj (hc.symm.trans hd)

theorem columnNamed?_of_named (hb : b.Shaped) (hnames : (b.schema.fields.map (·.name)).Nodup)
    (hc : b.Named name c) : b.columnNamed? name = some c := by
  cases h : b.columnNamed? name with
  | none => exact absurd hc ((columnNamed?_eq_none_iff hb).1 h c)
  | some d => rw [(named_of_columnNamed? h).unique hnames hc]

/-! ### The column for a field -/

/-- The column that is found for a field is taken if its type is that of the field or can be
cast to it, and it gives the column that it becomes. -/
theorem coerceColumn_of_named (h : b.columnNamed? f.name = some c) :
    b.coerceColumn f = .ok d ↔
      (c.type = f.type ∨ c.type.castable f.type) ∧ d.type = f.type ∧ c.Becomes d := by
  unfold coerceColumn
  rw [h]
  dsimp only
  by_cases hsame : c.type = f.type
  · rw [if_pos hsame, and_iff_right (.inl hsame), Except.ok.injEq]
    constructor
    · rintro rfl
      exact ⟨hsame, c.becomes_self⟩
    · rintro ⟨htype, hbecomes⟩
      exact ((Column.becomes_of_same (htype.trans hsame.symm)).1 hbecomes).symm
  · rw [if_neg hsame]
    by_cases hcastable : c.type.castable f.type
    · rw [if_pos hcastable, and_iff_right (.inr hcastable), ← Column.cast_eq_ok_iff hsame]
      cases c.cast f.type with
      | error e => exact ⟨fun h => (nomatch h), fun h => (nomatch h)⟩
      | ok e => simp only [Except.mapError, Except.ok.injEq]
    · rw [if_neg hcastable]
      exact ⟨fun h => (nomatch h), fun h => absurd h.1 (by simp [hsame, hcastable])⟩

/-- Where no column is found for a field, cells are missing, unless they are required. -/
theorem coerceColumn_of_unnamed (h : b.columnNamed? f.name = none) :
    b.coerceColumn f = .ok d ↔ (f.nullable ∨ b.rows = 0) ∧ d = .absent f.type b.rows := by
  unfold coerceColumn
  rw [h]
  dsimp only
  by_cases hlacks : 0 < b.rows ∧ f.nullable = false
  · rw [if_pos hlacks]
    refine ⟨fun h => (nomatch h), ?_⟩
    rintro ⟨hnullable | hrows, -⟩
    · exact absurd hlacks.2 (by simp [hnullable])
    · exact absurd hlacks.1 (by omega)
  · rw [if_neg hlacks, Except.ok.injEq, eq_comm]
    refine (and_iff_right ?_).symm
    rcases Nat.eq_zero_or_pos b.rows with hrows | hrows
    · exact .inr hrows
    · exact .inl (Bool.of_not_eq_false fun h => hlacks ⟨hrows, h⟩)

/-- A batch has cells for a field of a target schema. -/
structure Supplies (b : Batch) (f : Field) : Prop where
  /-- A column of the name has the type of the field, or it is cast and no cell fails. -/
  cast : ∀ c, b.Named f.name c →
    c.type = f.type ∨ c.type.castable f.type ∧ ∃ d, c.cast f.type = .ok d
  /-- Where there is no such column, cells may be missing, or there are none. -/
  filled : (∀ c, ¬b.Named f.name c) → f.nullable ∨ b.rows = 0

/-- What the cells of a field of a target schema are. -/
structure Supplied (b : Batch) (f : Field) (d : Column) : Prop where
  type : d.type = f.type
  length : d.length = b.rows
  /-- They are what the cells of the column of that name become. -/
  cast : ∀ c, b.Named f.name c → c.Becomes d
  /-- Where there is no such column, they are missing. -/
  filled : (∀ c, ¬b.Named f.name c) → ∀ row, d.cell row = none

theorem Supplied.unique {d' : Column} (h : b.Supplied f d) (h' : b.Supplied f d') : d = d' := by
  have htype := h.type.trans h'.type.symm
  by_cases hnamed : ∃ c, b.Named f.name c
  · obtain ⟨c, hc⟩ := hnamed
    exact (h.cast c hc).unique (h'.cast c hc) htype
  · have hnone := not_exists.1 hnamed
    refine Column.ext_cell htype (h.length.trans h'.length.symm) fun row => ?_
    rw [h.filled hnone, h'.filled hnone, htype]

theorem coerceColumn_of_supplies (hb : b.Shaped) (h : b.Supplies f) :
    ∃ d, b.coerceColumn f = .ok d := by
  cases hnamed : b.columnNamed? f.name with
  | some c =>
    by_cases hsame : c.type = f.type
    · exact ⟨c, (coerceColumn_of_named hnamed).2 ⟨.inl hsame, hsame, c.becomes_self⟩⟩
    · obtain ⟨hcastable, d, hcast⟩ :=
        (h.cast c (named_of_columnNamed? hnamed)).resolve_left hsame
      exact ⟨d, (coerceColumn_of_named hnamed).2
        ⟨.inr hcastable, (Column.cast_eq_ok_iff hsame).1 hcast⟩⟩
  | none =>
    have hnone := (columnNamed?_eq_none_iff hb).1 hnamed
    exact ⟨_, (coerceColumn_of_unnamed hnamed).2 ⟨h.filled hnone, rfl⟩⟩

section Distinct

variable (hb : b.Shaped) (hnames : (b.schema.fields.map (·.name)).Nodup)

include hb hnames

/-- Where names are distinct, the column for a field is what the batch has cells for. -/
theorem supplied_of_coerceColumn (h : b.coerceColumn f = .ok d) :
    b.Supplies f ∧ b.Supplied f d := by
  obtain ⟨-, hlength, -⟩ := coerceColumn_eq_ok hb h
  cases hnamed : b.columnNamed? f.name with
  | some c =>
    obtain ⟨hcastable, htype, hbecomes⟩ := (coerceColumn_of_named hnamed).1 h
    have hc := named_of_columnNamed? hnamed
    refine ⟨⟨?_, fun hnone => absurd hc (hnone c)⟩,
      ⟨htype, hlength, ?_, fun hnone => absurd hc (hnone c)⟩⟩
    · intro e he
      obtain rfl := hc.unique hnames he
      by_cases hsame : c.type = f.type
      · exact .inl hsame
      · exact .inr ⟨hcastable.resolve_left hsame, d,
          (Column.cast_eq_ok_iff hsame).2 ⟨htype, hbecomes⟩⟩
    · intro e he
      obtain rfl := hc.unique hnames he
      exact hbecomes
  | none =>
    obtain ⟨hfilled, rfl⟩ := (coerceColumn_of_unnamed hnamed).1 h
    have hnone := (columnNamed?_eq_none_iff hb).1 hnamed
    refine ⟨⟨fun c hc => absurd hc (hnone c), fun _ => hfilled⟩,
      ⟨rfl, hlength, fun c hc => absurd hc (hnone c), fun _ row => ?_⟩⟩
    show (List.replicate b.rows none)[row]?.join = none
    rw [List.getElem?_replicate]
    split <;> rfl

end Distinct

/-! ### Whole schemas -/

/-- A batch can be put into the shape of another schema. -/
structure Attains (b : Batch) (target : Schema) : Prop where
  /-- No column is dropped. -/
  kept : ∀ f ∈ b.schema.fields, ∃ g ∈ target.fields, g.name = f.name
  supplies : ∀ g ∈ target.fields, b.Supplies g

/-- What a batch is in the shape of a schema. -/
structure Fashioned (b : Batch) (target : Schema) (b' : Batch) : Prop where
  schema : b'.schema = target
  rows : b'.rows = b.rows
  width : b'.columns.length = target.fields.length
  /-- Under every field stands what the batch has for it. -/
  supplied : ∀ p ∈ target.fields.zip b'.columns, b.Supplied p.1 p.2

theorem firstDropped?_eq_none_iff : b.firstDropped? target = none ↔
    ∀ f ∈ b.schema.fields, ∃ g ∈ target.fields, g.name = f.name := by
  rw [firstDropped?, List.find?_eq_none]
  refine forall₂_congr fun f _ => ?_
  rw [Schema.indexOf?, Option.isNone_iff_eq_none, List.findIdx?_eq_none_iff]
  simp only [beq_eq_false_iff_ne, ne_eq, not_forall, not_not, exists_prop]

theorem Fashioned.unique {b'' : Batch} (h : b.Fashioned target b') (h' : b.Fashioned target b'') :
    b' = b'' := by
  have hcolumns : b'.columns = b''.columns := by
    refine List.ext_getElem (h.width.trans h'.width.symm) fun i hi hi' => ?_
    have hfield : i < target.fields.length := h.width ▸ hi
    exact (h.supplied _ (Sequence.mem_zip hfield hi)).unique
      (h'.supplied _ (Sequence.mem_zip hfield hi'))
  have hschema := h.schema.trans h'.schema.symm
  have hrows := h.rows.trans h'.rows.symm
  obtain ⟨s, cs, n⟩ := b'
  obtain ⟨s', cs', n'⟩ := b''
  obtain rfl : s = s' := hschema
  obtain rfl : cs = cs' := hcolumns
  obtain rfl : n = n' := hrows
  rfl

section Distinct

variable (hb : b.Shaped) (hnames : (b.schema.fields.map (·.name)).Nodup)

include hb hnames

theorem fashioned_self : b.Fashioned b.schema b where
  schema := rfl
  rows := rfl
  width := hb.columnCount
  supplied p hp := by
    have hnamed : b.Named p.1.name p.2 := ⟨p.1, hp, rfl⟩
    refine ⟨hb.type_eq hp, hb.lengths p.2 (List.of_mem_zip hp).2, ?_,
      fun hnone => absurd hnamed (hnone p.2)⟩
    intro c hc
    rw [hc.unique hnames hnamed]
    exact p.2.becomes_self

theorem fashioned_of_mapM {columns : List Column}
    (h : target.fields.mapM b.coerceColumn = .ok columns) :
    b.Fashioned target ⟨target, columns, b.rows⟩ := by
  obtain ⟨hwidth, hitems⟩ := Sequence.mapM_eq_ok_iff.1 h
  exact ⟨rfl, rfl, hwidth, fun p hp => (supplied_of_coerceColumn hb hnames (hitems p hp)).2⟩

/-- Where names are distinct, a batch is reshaped exactly if it has that schema or can attain
it. -/
theorem coerce_ok_iff_attains :
    (∃ b', b.coerce target = .ok b') ↔ b.schema = target ∨ b.Attains target := by
  constructor
  · rintro ⟨b', h⟩
    rcases coerce_eq_ok_iff.1 h with ⟨hsame, -⟩ | ⟨-, hdropped, columns, hcolumns, -⟩
    · exact .inl hsame
    · refine .inr ⟨firstDropped?_eq_none_iff.1 hdropped, fun g hg => ?_⟩
      obtain ⟨d, hd⟩ := Sequence.mapM_ok_iff.1 ⟨columns, hcolumns⟩ g hg
      exact (supplied_of_coerceColumn hb hnames hd).1
  · intro h
    by_cases hsame : b.schema = target
    · exact ⟨b, coerce_eq_ok_iff.2 (.inl ⟨hsame, rfl⟩)⟩
    · have hattains := h.resolve_left hsame
      obtain ⟨columns, hcolumns⟩ := Sequence.mapM_ok_iff.2 fun g hg =>
        coerceColumn_of_supplies hb (hattains.supplies g hg)
      exact ⟨_, coerce_eq_ok_iff.2 (.inr ⟨hsame, firstDropped?_eq_none_iff.2 hattains.kept,
        columns, hcolumns, rfl⟩)⟩

theorem fashioned_of_coerce (h : b.coerce target = .ok b') : b.Fashioned target b' := by
  rcases coerce_eq_ok_iff.1 h with ⟨rfl, rfl⟩ | ⟨-, -, columns, hcolumns, rfl⟩
  · exact fashioned_self hb hnames
  · exact fashioned_of_mapM hb hnames hcolumns

end Distinct

/-- **A batch is reshaped by name, as a whole or not at all.**  For a batch with distinct names
and any target schema: it can be reshaped exactly if it has that schema already or attains it,
so that no name is missing from the target, every column of a name has the type of its field or
is cast without a failure, and a field without a column lets cells be missing or there are no
rows.  What comes of it has the target schema, as many rows, and under each field the cells
that those of the column of its name become, or missing ones; it is reshaped no further.  A
cursor whose batch cannot be reshaped keeps batch, pointer and target. -/
theorem reshaped_by_name (hb : b.Shaped) (hnames : (b.schema.fields.map (·.name)).Nodup)
    (target : Schema) :
    ((∃ b', b.coerce target = .ok b') ↔ b.schema = target ∨ b.Attains target) ∧
    (∀ b', b.coerce target = .ok b' ↔
      (b.schema = target ∨ b.Attains target) ∧ b.Fashioned target b') ∧
    (∀ b', b.coerce target = .ok b' → b'.coerce target = .ok b') ∧
    ∀ (pointer : Nat) (set : Option Schema),
      (∀ b', b.coerce target = .ok b' →
        Group.Cursor.perform ⟨b, pointer, set⟩ (.setSchema target)
          = (.done (.ok ()), ⟨b', pointer, some target⟩)) ∧
      ∀ f, b.coerce target = .error f →
        Group.Cursor.perform ⟨b, pointer, set⟩ (.setSchema target)
          = (.done (.error f), ⟨b, pointer, set⟩) := by
  have hexists : (∃ b', b.coerce target = .ok b') ↔ b.schema = target ∨ b.Attains target :=
    coerce_ok_iff_attains hb hnames
  refine ⟨hexists, fun b' => ⟨?_, ?_⟩, ?_, fun pointer set => ⟨?_, ?_⟩⟩
  · intro h
    exact ⟨hexists.1 ⟨b', h⟩, fashioned_of_coerce hb hnames h⟩
  · rintro ⟨hattains, hfashioned⟩
    obtain ⟨made, hmade⟩ := hexists.2 hattains
    rw [hmade, (fashioned_of_coerce hb hnames hmade).unique hfashioned]
  · intro b' h
    exact coerce_eq_ok_iff.2 (.inl ⟨schema_coerce h, rfl⟩)
  · intro b' h
    simp only [Group.Cursor.perform, Group.Cursor.setSchema, h, Except.map]
  · intro f h
    simp only [Group.Cursor.perform, Group.Cursor.setSchema, h, Except.map]

/-- A batch of two columns and two rows. -/
def labelled : Batch where
  schema := ⟨[⟨"x", .int .int32, true, .empty⟩, ⟨"y", .bool, false, .empty⟩], .empty⟩
  columns := [⟨.int .int32, [some 7, none]⟩, ⟨.bool, [some true, some false]⟩]
  rows := 2

/-- A schema with the names in another order, other types and a field more. -/
def relabelled : Schema :=
  ⟨[⟨"y", .int .int32, false, .empty⟩, ⟨"z", .date, true, .empty⟩, ⟨"x", .int .int64, true, .empty⟩], .empty⟩

theorem labelled_by_name : labelled.Shaped ∧ (labelled.schema.fields.map (·.name)).Nodup ∧
    labelled.Attains relabelled ∧ ∃ b', labelled.coerce relabelled = .ok b' ∧
      labelled.Fashioned relabelled b' ∧
      b'.row 0 = [⟨.int .int32, some 1⟩, ⟨.date, none⟩, ⟨.int .int64, some 7⟩] ∧
      b'.row 1 = [⟨.int .int32, some 0⟩, ⟨.date, none⟩, ⟨.int .int64, none⟩] := by
  have hshaped : labelled.Shaped := ⟨rfl, by decide⟩
  have hnames : (labelled.schema.fields.map (·.name)).Nodup := by decide
  obtain ⟨made, hmade⟩ : ∃ made, labelled.coerce relabelled = .ok made := ⟨_, rfl⟩
  obtain ⟨hiff, hfashioned, -, -⟩ := reshaped_by_name hshaped hnames relabelled
  refine ⟨hshaped, hnames, (hiff.1 ⟨made, hmade⟩).resolve_left (by decide), made, hmade,
    ((hfashioned made).1 hmade).2, ?_, ?_⟩ <;>
  · obtain rfl := Except.ok.inj hmade
    rfl

/-! ### Names that repeat -/

/-- A way to tell the columns of a batch in another batch: each has a place of its own there,
under a field of its name, where its cells are what they become. -/
structure Placed (b b' : Batch) (place : Nat → Nat) : Prop where
  apart : ∀ i < b.columns.length, ∀ j < b.columns.length, place i = place j → i = j
  kept : ∀ i f c, b.schema.fields[i]? = some f → b.columns[i]? = some c →
    ∃ g d, b'.schema.fields[place i]? = some g ∧ b'.columns[place i]? = some d ∧
      g.name = f.name ∧ c.Becomes d

/-- The fields of a target schema spare every column: each has a field of its name for its own,
and becomes there what the first column of that name does. -/
structure Spares (b : Batch) (target : Schema) (place : Nat → Nat) : Prop where
  apart : ∀ i < b.columns.length, ∀ j < b.columns.length, place i = place j → i = j
  alike : ∀ i f c, b.schema.fields[i]? = some f → b.columns[i]? = some c →
    ∃ g first, target.fields[place i]? = some g ∧ g.name = f.name ∧
      b.columnNamed? f.name = some first ∧
      ∃ d : Column, d.type = g.type ∧ c.Becomes d ∧ first.Becomes d

theorem placed_self (b : Batch) : Placed b b id where
  apart _ _ _ _ h := h
  kept _ f c hf hc := ⟨f, c, hf, hc, rfl, c.becomes_self⟩

theorem columnNamed?_of_field (hb : b.Shaped) {i : Nat} (hf : b.schema.fields[i]? = some f)
    (hc : b.columns[i]? = some c) : ∃ first, b.columnNamed? f.name = some first := by
  cases h : b.columnNamed? f.name with
  | some first => exact ⟨first, rfl⟩
  | none =>
    exact absurd (named_iff_getElem?.2 ⟨i, f, hf, hc, rfl⟩) ((columnNamed?_eq_none_iff hb).1 h c)

/-- Under a field of a name that the batch has stands what the first column of the name
becomes. -/
theorem becomes_of_mapM {columns : List Column} (h : target.fields.mapM b.coerceColumn = .ok columns)
    {j : Nat} {g : Field} (hg : target.fields[j]? = some g)
    (hc : b.columnNamed? g.name = some c) :
    ∃ d, columns[j]? = some d ∧ d.type = g.type ∧ c.Becomes d := by
  obtain ⟨hj, rfl⟩ := List.getElem?_eq_some_iff.1 hg
  obtain ⟨hlen, hitems⟩ := Sequence.getElem_of_mapM_eq_ok h
  have hj' : j < columns.length := hlen ▸ hj
  obtain ⟨-, htype, hbecomes⟩ := (coerceColumn_of_named hc).1 (hitems j hj hj')
  exact ⟨_, List.getElem?_eq_getElem hj', htype, hbecomes⟩

/-- Where the schema changes, the columns can be told in the reshaped batch exactly if the
target spares them. -/
theorem placed_iff_spares (hb : b.Shaped) {columns : List Column} {place : Nat → Nat}
    (h : target.fields.mapM b.coerceColumn = .ok columns) :
    Placed b ⟨target, columns, b.rows⟩ place ↔ b.Spares target place := by
  constructor
  · rintro ⟨hapart, hkept⟩
    refine ⟨hapart, fun i f c hf hc => ?_⟩
    obtain ⟨g, d, hg, hd, hname, hbecomes⟩ := hkept i f c hf hc
    obtain ⟨first, hfirst⟩ := columnNamed?_of_field hb hf hc
    obtain ⟨e, he, htype, hstands⟩ := becomes_of_mapM h hg (hname ▸ hfirst)
    obtain rfl : d = e := Option.some.inj (hd.symm.trans he)
    exact ⟨g, first, hg, hname, hfirst, d, htype, hbecomes, hstands⟩
  · rintro ⟨hapart, halike⟩
    refine ⟨hapart, fun i f c hf hc => ?_⟩
    obtain ⟨g, first, hg, hname, hfirst, d, htype, hbecomes, hstands⟩ := halike i f c hf hc
    obtain ⟨e, he, htype', hstands'⟩ := becomes_of_mapM h hg (hname ▸ hfirst)
    obtain rfl := hstands.unique hstands' (htype.trans htype'.symm)
    exact ⟨g, d, hg, he, hname, hbecomes⟩

/-- Columns whose names are distinct are spared by a target that has every name. -/
theorem exists_spares (hb : b.Shaped) (hnames : (b.schema.fields.map (·.name)).Nodup)
    (hkept : ∀ f ∈ b.schema.fields, ∃ g ∈ target.fields, g.name = f.name) {columns : List Column}
    (h : target.fields.mapM b.coerceColumn = .ok columns) : ∃ place, b.Spares target place := by
  have hsome : ∀ i : Nat, ∃ p : Nat, ∀ f, b.schema.fields[i]? = some f →
      ∃ g, target.fields[p]? = some g ∧ g.name = f.name := by
    intro i
    cases hf : b.schema.fields[i]? with
    | none => exact ⟨0, fun f h => (nomatch h)⟩
    | some f =>
      obtain ⟨g, hg, hname⟩ := hkept f (List.mem_of_getElem? hf)
      obtain ⟨p, hp⟩ := List.mem_iff_getElem?.1 hg
      refine ⟨p, fun f' hf' => ⟨g, hp, ?_⟩⟩
      rw [hname, Option.some.inj hf']
  obtain ⟨place, hplace⟩ := Classical.axiomOfChoice hsome
  refine ⟨place, ⟨fun i hi j hj hij => ?_, fun i f c hf hc => ?_⟩⟩
  · have hf := List.getElem?_eq_getElem (l := b.schema.fields) (hb.columnCount ▸ hi)
    have hg := List.getElem?_eq_getElem (l := b.schema.fields) (hb.columnCount ▸ hj)
    obtain ⟨f, hf', hname⟩ := hplace i _ hf
    obtain ⟨g, hg', hname'⟩ := hplace j _ hg
    rw [hij, hg'] at hf'
    obtain rfl := Option.some.inj hf'
    exact place_unique hnames hf hg (hname.symm.trans hname')
  · obtain ⟨g, hg, hname⟩ := hplace i f hf
    have hfirst := columnNamed?_of_named hb hnames (named_iff_getElem?.2 ⟨i, f, hf, hc, rfl⟩)
    obtain ⟨d, -, htype, hbecomes⟩ := becomes_of_mapM h hg (hname ▸ hfirst)
    exact ⟨g, c, hg, hname, hfirst, d, htype, hbecomes, hbecomes⟩

/-- The first column whose name the target does not have is named when it is refused. -/
theorem coerce_of_notInTarget {i : Nat} (hf : b.schema.fields[i]? = some f)
    (hnone : ∀ g ∈ target.fields, g.name ≠ f.name)
    (hfirst : ∀ j < i, ∀ e, b.schema.fields[j]? = some e → ∃ g ∈ target.fields, g.name = e.name) :
    b.coerce target = .error (.schema (.notInTarget f.name)) := by
  obtain ⟨hi, rfl⟩ := List.getElem?_eq_some_iff.1 hf
  have hne : b.schema ≠ target := by
    rintro rfl
    exact hnone _ (List.getElem_mem hi) rfl
  have hdropped : b.firstDropped? target = some b.schema.fields[i] := by
    refine List.find?_eq_some_iff_getElem.2 ⟨?_, i, hi, rfl, fun j hj => ?_⟩
    · rw [Schema.indexOf?, Option.isNone_iff_eq_none, List.findIdx?_eq_none_iff]
      exact fun g hg => beq_eq_false_iff_ne.2 (hnone g hg)
    · obtain ⟨g, hg, hname⟩ := hfirst j hj _ (List.getElem?_eq_getElem (by omega))
      rw [Bool.not_eq_true', Option.isNone_eq_false_iff, Schema.indexOf?, List.findIdx?_isSome,
        List.any_eq_true]
      exact ⟨g, hg, beq_iff_eq.2 hname⟩
  rw [coerce, if_neg hne, hdropped]

/-- **No column is dropped or doubled exactly if the target spares every one.**  A column whose
name the target does not have is refused by name.  Where a batch is reshaped, all its columns
can be told in what comes of it if their names are distinct.  In general they can exactly if the
batch had that schema already, or if the target has a field for each of them and they become
there what the first column of their name does. -/
theorem no_column_dropped_iff (hb : b.Shaped) (target : Schema) :
    (∀ (i : Nat) (f : Field), b.schema.fields[i]? = some f →
      (∀ g ∈ target.fields, g.name ≠ f.name) →
      (∀ j < i, ∀ e, b.schema.fields[j]? = some e → ∃ g ∈ target.fields, g.name = e.name) →
      b.coerce target = .error (.schema (.notInTarget f.name))) ∧
    ∀ b', b.coerce target = .ok b' →
      ((b.schema.fields.map (·.name)).Nodup → ∃ place, Placed b b' place) ∧
      ((∃ place, Placed b b' place) ↔ b.schema = target ∨ ∃ place, b.Spares target place) := by
  refine ⟨fun i f hf hnone hfirst => coerce_of_notInTarget hf hnone hfirst, fun b' h => ?_⟩
  rcases coerce_eq_ok_iff.1 h with ⟨hsame, rfl⟩ | ⟨hne, hdropped, columns, hcolumns, rfl⟩
  · exact ⟨fun _ => ⟨id, placed_self b'⟩, fun _ => .inl hsame, fun _ => ⟨id, placed_self b'⟩⟩
  · have hiff : (∃ place, Placed b ⟨target, columns, b.rows⟩ place) ↔
        ∃ place, b.Spares target place :=
      exists_congr fun place => placed_iff_spares hb hcolumns
    refine ⟨fun hnames => hiff.2 ?_, ?_⟩
    · exact exists_spares hb hnames (firstDropped?_eq_none_iff.1 hdropped) hcolumns
    · rw [hiff, or_iff_right hne]

/-- The two columns stand in the places where their names are. -/
theorem labelled_placed : labelled.Shaped ∧ ∃ b', labelled.coerce relabelled = .ok b' ∧
    ∃ place, Placed labelled b' place := by
  have hshaped : labelled.Shaped := ⟨rfl, by decide⟩
  exact ⟨hshaped, _, rfl, ((no_column_dropped_iff hshaped relabelled).2 _ rfl).1 (by decide)⟩

/-- A batch with two columns of one name. -/
def twins : Batch where
  schema := ⟨[⟨"x", .int .int32, false, .empty⟩, ⟨"x", .int .int32, false, .empty⟩], .empty⟩
  columns := [⟨.int .int32, [some 7]⟩, ⟨.int .int32, [some 5]⟩]
  rows := 1

/-- **The second of two columns of one name is dropped** by a target that has the name once. -/
theorem twin_is_dropped : twins.Valid ∧ ∃ target b', twins.coerce target = .ok b' ∧
    b'.columns = [⟨.int .int32, [some 7]⟩] ∧ ¬∃ place, Placed twins b' place := by
  refine ⟨⟨rfl, by decide, by decide⟩, ⟨[⟨"x", .int .int32, false, .empty⟩], .empty⟩, _, rfl, rfl, ?_⟩
  rintro ⟨place, hapart, hkept⟩
  have hfirst : ∀ i < 2, place i = 0 := by
    intro i hi
    obtain ⟨g, d, hg, -⟩ := hkept i _ _
      (List.getElem?_eq_getElem (show i < twins.schema.fields.length from hi))
      (List.getElem?_eq_getElem (show i < twins.columns.length from hi))
    obtain ⟨hlt, -⟩ := List.getElem?_eq_some_iff.1 hg
    exact Nat.lt_one_iff.1 hlt
  exact absurd (hapart 0 (by decide) 1 (by decide)
    ((hfirst 0 (by decide)).trans (hfirst 1 (by decide)).symm)) (by decide)

end Batch
end ExternalSort
