/-
Batches that programs can come by.

A batch is put together, read, or made from batches at hand; `Obtained` lists the ways.
Whatever the way, its columns fit its schema and its number of rows.  Whether it is valid
too depends on how batches were reshaped: that alone can leave a required cell missing, and
it goes unnoticed until the batch is next checked.  So validity is shown for the batches on
whose way no reshaping did that, and reshaping a valid batch is shown to do it in no other
case.

A valid batch is a batch to everything else: the check gives it back, it is encoded, and
what keeps a run from taking it lies with the run.
-/
import ExternalSort.Group.Resident
import ExternalSort.Proofs.Batch.Coercion
import ExternalSort.Proofs.Run.Adding

namespace ExternalSort

/-! ### Gathered cells -/

theorem Column.gather_eq_ok {c c' : Column} {places : List Nat} (h : c.gather places = .ok c') :
    c'.type = c.type ∧ c'.length = places.length ∧
      (c.lacksValue = false → c'.lacksValue = false) := by
  unfold gather at h
  by_cases hnull : c.type = .null
  · rw [if_pos hnull] at h
    obtain rfl := Except.ok.inj h
    exact ⟨rfl, List.length_map .., fun _ => Batch.lacksValue_eq_false.2 (.inl hnull)⟩
  · rw [if_neg hnull] at h
    cases hcells : places.mapM (pick c.cells.toArray) with
    | error f =>
      rw [hcells] at h
      exact nomatch h
    | ok cells =>
      rw [hcells] at h
      obtain rfl := Except.ok.inj h
      obtain ⟨hlen, hitems⟩ := Sequence.getElem_of_mapM_eq_ok hcells
      refine ⟨rfl, hlen, fun hlacks => Batch.lacksValue_eq_false.2 (.inr ?_)⟩
      intro x hx
      have hall := (Batch.lacksValue_eq_false.1 hlacks).resolve_left hnull
      obtain ⟨i, hi, rfl⟩ := List.getElem_of_mem hx
      have hpick := hitems i (hlen ▸ hi) hi
      unfold pick at hpick
      split at hpick
      · rename_i y hy
        rw [← Except.ok.inj hpick]
        rw [List.getElem?_toArray] at hy
        exact hall y (List.mem_of_getElem? hy)
      · exact nomatch hpick

namespace Batch

variable {b b' : Batch}

/-! ### What the single ways keep -/

theorem shaped_empty (schema : Schema) : (empty schema).Shaped := by
  refine ⟨?_, ?_⟩
  · simp only [empty, List.map_map]
    rfl
  · intro c hc
    obtain ⟨f, -, rfl⟩ := List.mem_map.1 hc
    rfl

theorem Shaped.columnCount (h : b.Shaped) : b.columns.length = b.schema.fields.length := by
  have := congrArg List.length h.types
  rwa [List.length_map, List.length_map] at this

theorem shaped_zeroed (h : b.Shaped) : b.zeroed.Shaped := by
  have hcount := h.columnCount
  refine ⟨List.ext_getElem ?_ ?_, ?_⟩
  · simp only [zeroed, List.length_map, List.length_zipWith]
    omega
  · intro i hi hi'
    simp only [zeroed, List.getElem_map, List.getElem_zipWith]
    rfl
  · intro c hc
    obtain ⟨i, hi, rfl⟩ := List.getElem_of_mem hc
    simp only [zeroed, List.getElem_zipWith]
    rfl

theorem transfer_eq_ok {target source : Batch} {p : Batch × Batch}
    (h : target.transfer source = .ok p) : p = (source, { source with
      columns := source.columns.map fun c => .empty c.type, rows := 0 }) := by
  by_cases hwidth : target.columns.length = source.columns.length
  · rw [transfer_eq hwidth] at h
    exact (Except.ok.inj h).symm
  · rw [transfer, if_pos hwidth] at h
    cases h

theorem shaped_emptied (h : b.Shaped) :
    ({ b with columns := b.columns.map fun c => .empty c.type, rows := 0 } : Batch).Shaped := by
  refine ⟨?_, ?_⟩
  · rw [← h.types, List.map_map]
    rfl
  · intro c hc
    obtain ⟨c', -, rfl⟩ := List.mem_map.1 hc
    rfl

theorem gather_eq_ok {places : List Nat} (h : b.gather places = .ok b') :
    (b.Shaped → b'.Shaped) ∧ (b.Complete → b'.Complete) := by
  unfold gather at h
  cases hcolumns : b.columns.mapM (Column.gather · places) with
  | error f =>
    rw [hcolumns] at h
    exact nomatch h
  | ok columns =>
    rw [hcolumns] at h
    obtain rfl := Except.ok.inj h
    obtain ⟨hlen, hitems⟩ := Sequence.getElem_of_mapM_eq_ok hcolumns
    have hone := fun i hi hi' => Column.gather_eq_ok (hitems i hi hi')
    constructor
    · intro hshaped
      constructor
      · rw [← hshaped.types]
        refine List.ext_getElem (by simpa using hlen) ?_
        intro i hi hi'
        rw [List.length_map] at hi hi'
        rw [List.getElem_map, List.getElem_map]
        exact (hone i hi' hi).1
      · intro c hc
        obtain ⟨i, hi, rfl⟩ := List.getElem_of_mem hc
        exact (hone i (hlen ▸ hi) hi).2.1
    · intro hcomplete p hp hrequired
      obtain ⟨i, hi, rfl⟩ := List.getElem_of_mem hp
      change i < (b.schema.fields.zip columns).length at hi
      rw [List.length_zip] at hi
      rw [List.getElem_zip] at hrequired ⊢
      refine (hone i (by omega) (by omega)).2.2 (hcomplete (b.schema.fields[i], b.columns[i]) ?_
        hrequired)
      exact List.mem_iff_getElem.2 ⟨i, by rw [List.length_zip]; omega, List.getElem_zip⟩

theorem setSchema_eq_ok {c c' : Group.Cursor} {target : Schema} (h : c.setSchema target = .ok c') :
    c.batch.coerce target = .ok c'.batch := by
  obtain ⟨husk, hcoerce, rfl⟩ := Group.Cursor.setSchema_eq_ok h
  exact hcoerce

theorem materialize_eq_ok {r : Group.Resident} (h : r.materialize = .ok b) :
    (r.cursor.batch.Shaped → b.Shaped) ∧ (r.cursor.batch.Complete → b.Complete) := by
  unfold Group.Resident.materialize at h
  split at h
  · obtain rfl := Except.ok.inj h
    exact ⟨id, id⟩
  · exact gather_eq_ok h

/-! ### All of them -/

/-- The ways in which a batch is come by.  `admits` says which batches are reshaped to which
schemas on the way. -/
inductive Obtained (admits : Batch → Schema → Prop) : Batch → Prop where
  | build {schema : Schema} {columns : List Column} {rows : Option Nat} {made : Batch} :
      build schema columns rows = .ok made → Obtained admits made
  | empty (schema : Schema) : Obtained admits (empty schema)
  | shell : Obtained admits shell
  | zeroed {batch : Batch} : Obtained admits batch → Obtained admits batch.zeroed
  | filled {target source : Batch} {p : Batch × Batch} : Obtained admits target →
      Obtained admits source → target.transfer source = .ok p → Obtained admits p.1
  | emptied {target source : Batch} {p : Batch × Batch} : Obtained admits target →
      Obtained admits source → target.transfer source = .ok p → Obtained admits p.2
  | coerced {batch made : Batch} {target : Schema} : Obtained admits batch → admits batch target →
      batch.coerce target = .ok made → Obtained admits made
  | reset {cursor made : Group.Cursor} {target : Schema} : Obtained admits cursor.batch →
      admits cursor.batch target → cursor.setSchema target = .ok made → Obtained admits made.batch
  | materialized {run : Group.Resident} {made : Batch} : Obtained admits run.cursor.batch →
      run.materialize = .ok made → Obtained admits made
  | decoded {codec : Codec} {octets : Bytes} {made : Batch} : codec.decode octets = .ok made →
      Obtained admits made

variable {admits : Batch → Schema → Prop}

/-- The columns of a batch always fit its schema and its number of rows. -/
theorem Obtained.shaped (h : Obtained admits b) : b.Shaped := by
  induction h with
  | build hbuild => exact (valid_iff.1 (build_eq_ok_iff.1 hbuild).1).1
  | empty schema => exact shaped_empty schema
  | shell => exact shaped_empty .empty
  | zeroed _ ih => exact shaped_zeroed ih
  | filled _ _ htransfer _ ih => exact transfer_eq_ok htransfer ▸ ih
  | emptied _ _ htransfer _ ih => exact transfer_eq_ok htransfer ▸ shaped_emptied ih
  | coerced _ _ hcoerce ih => exact shaped_coerce ih hcoerce
  | reset _ _ hset ih => exact shaped_coerce ih (setSchema_eq_ok hset)
  | materialized _ hrows ih => exact (materialize_eq_ok hrows).1 ih
  | decoded hdecode => exact (valid_iff.1 (Codec.valid_of_decode hdecode)).1

/-- Where no reshaping left a required cell missing, none is. -/
theorem Obtained.valid (hadmits : ∀ b target, admits b target → b.KeepsRequired target)
    (h : Obtained admits b) : b.Valid := by
  have hshaped := @Obtained.shaped
  induction h with
  | build hbuild => exact (build_eq_ok_iff.1 hbuild).1
  | empty schema => exact valid_iff.2 ⟨shaped_empty schema, (shaped_empty schema).complete rfl⟩
  | shell => exact valid_iff.2 ⟨shaped_empty .empty, (shaped_empty .empty).complete rfl⟩
  | zeroed h _ =>
    have hzeroed := shaped_zeroed (hshaped h)
    exact valid_iff.2 ⟨hzeroed, hzeroed.complete rfl⟩
  | filled _ _ htransfer _ ih => exact transfer_eq_ok htransfer ▸ ih
  | emptied _ h htransfer _ _ =>
    have hemptied := shaped_emptied (hshaped h)
    exact transfer_eq_ok htransfer ▸ valid_iff.2 ⟨hemptied, hemptied.complete rfl⟩
  | coerced _ hkeeps hcoerce ih => exact (valid_coerce_iff ih hcoerce).2 (hadmits _ _ hkeeps)
  | reset _ hkeeps hset ih =>
    exact (valid_coerce_iff ih (setSchema_eq_ok hset)).2 (hadmits _ _ hkeeps)
  | materialized _ hrows ih =>
    obtain ⟨hshape, hcomplete⟩ := materialize_eq_ok hrows
    obtain ⟨hshaped, hfilled⟩ := valid_iff.1 ih
    exact valid_iff.2 ⟨hshape hshaped, hcomplete hfilled⟩
  | decoded hdecode => exact Codec.valid_of_decode hdecode

/-- **What can be come by is a batch, unless reshaping made it lack something.**  Its columns
fit its schema and its number of rows in every case.  Where no reshaping on the way left a
required cell missing, it is valid: the check gives it back, it is encoded, and a run refuses
it only for what lies elsewhere.  And a valid batch becomes one that is not valid exactly if
it is reshaped so that a required cell is missing. -/
theorem obtained_is_batch (h : Obtained admits b) :
    b.Shaped ∧
    ((∀ b target, admits b target → b.KeepsRequired target) →
      b.Valid ∧ b.check = .ok b ∧
      (∀ codec : Codec, codec.encode b = .ok (Stream.write codec.compression b)) ∧
      ∀ {ω κ ρ : Type} (c : Storage.Channel ω κ ρ) (r : Run κ ρ) (s : ω) (f : Fault),
        (r.add c b s).1 = .error f → Run.Reason r b f) ∧
    (b.Valid → ∀ target made, b.coerce target = .ok made →
      (made.Valid ↔ b.KeepsRequired target)) := by
  refine ⟨h.shaped, ?_, fun hvalid _ _ hcoerce => valid_coerce_iff hvalid hcoerce⟩
  intro hadmits
  have hvalid := h.valid hadmits
  exact ⟨hvalid, hvalid.check, fun _ => Codec.encode_eq_ok_iff.2 ⟨hvalid, rfl⟩,
    fun c r s f => Run.reason_of_valid hvalid⟩

/-! ### One cell -/

/-- A batch of one cell, which may be missing. -/
def lone (cell : Option (ColumnType.int .int32).Value) : Batch where
  schema := ⟨[⟨"x", .int .int32, true, .empty⟩], .empty⟩
  columns := [⟨.int .int32, [cell]⟩]
  rows := 1

/-- The schema of that batch, with the cell required. -/
def strict : Schema := ⟨[⟨"x", .int .int32, false, .empty⟩], .empty⟩

theorem obtained_lone {admits : Batch → Schema → Prop}
    (cell : Option (ColumnType.int .int32).Value) : Obtained admits (lone cell) :=
  .build (show build (lone cell).schema (lone cell).columns none = .ok (lone cell) from rfl)

theorem coerce_lone (cell : Option (ColumnType.int .int32).Value) :
    (lone cell).coerce strict = .ok { lone cell with schema := strict } := rfl

theorem seven_in_strict : ∃ made, (lone (some 7)).coerce strict = .ok made ∧
    Obtained KeepsRequired made ∧ made.Valid := by
  have hkeeps : (lone (some 7)).KeepsRequired strict := by
    refine .inr ?_
    intro f hf _ _ c hc
    obtain rfl := List.mem_singleton.1 hf
    obtain rfl : (⟨.int .int32, [some 7]⟩ : Column) = c := Option.some.inj hc
    refine (cellsFill_same rfl).2 ?_
    intro x hx
    obtain rfl := List.mem_singleton.1 hx
    rfl
  have hmade := Obtained.coerced (obtained_lone _) hkeeps (coerce_lone (some 7))
  exact ⟨_, coerce_lone _, hmade, ((obtained_is_batch hmade).2.1 fun _ _ h => h).1⟩

/-- **A missing cell gets into a field that requires one**, and the batch is refused only when
it is next checked. -/
theorem missing_in_strict : ∃ made, (lone none).coerce strict = .ok made ∧
    Obtained (fun _ _ => True) made ∧ ¬made.Valid ∧
    made.check = .error (.missingInRequired "x") ∧
    (⟨.none⟩ : Codec).encode made = .error (.columnar (.missingInRequired "x")) := by
  have hcheck : ({ lone none with schema := strict } : Batch).check
      = .error (.missingInRequired "x") := rfl
  refine ⟨_, coerce_lone none, .coerced (obtained_lone none) trivial (coerce_lone none),
    ?_, hcheck, rfl⟩
  intro hvalid
  rw [hvalid.check] at hcheck
  exact nomatch hcheck

end Batch
end ExternalSort
