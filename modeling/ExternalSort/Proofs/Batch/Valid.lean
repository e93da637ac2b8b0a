/-
Valid batches are those that can be built.

`Batch.build` checks its parts one after the other and reports the first flaw.  What
remains when all checks have passed is `Batch.Valid`, and nothing is refused that satisfies
it.  Everything that keeps batches valid, and everything that only valid batches survive,
goes through this equivalence.
-/
import ExternalSort.Batch.Basic

namespace ExternalSort.Batch

open Fault

/-! ### The checks one by one -/

theorem firstLacking?_eq_none {fields : List Field} {columns : List Column} :
    firstLacking? fields columns = none ↔
      ∀ p ∈ fields.zip columns, p.1.nullable = false → p.2.lacksValue = false := by
  rw [firstLacking?, Option.map_eq_none_iff, List.find?_eq_none]
  refine forall₂_congr ?_
  intro p _
  cases p.1.nullable <;> simp

theorem firstMistyped?_eq_none {fields : List Field} {columns : List Column} (index : Nat)
    (hlen : columns.length = fields.length) :
    firstMistyped? index fields columns = none ↔ columns.map (·.type) = fields.map (·.type) := by
  induction fields generalizing index columns with
  | nil =>
    rw [List.length_eq_zero_iff.1 hlen]
    exact ⟨fun _ => rfl, fun _ => rfl⟩
  | cons f fs ih =>
    cases columns with
    | nil => exact absurd hlen (by simp)
    | cons c cs =>
      rw [firstMistyped?, List.map_cons, List.map_cons, List.cons.injEq]
      by_cases htype : f.type = c.type
      · rw [if_pos htype, ih (index + 1) (Nat.succ.inj hlen)]
        exact ⟨fun h => ⟨htype.symm, h⟩, fun h => h.2⟩
      · rw [if_neg htype]
        exact ⟨fun h => (nomatch h), fun h => absurd h.1.symm htype⟩

theorem any_length_ne {columns : List Column} {n : Nat} :
    (columns.any fun c => c.length != n) = false ↔ ∀ c ∈ columns, c.length = n := by
  rw [List.any_eq_false]
  exact forall₂_congr fun c _ => by simp

/-! ### All of them -/

/-- **A batch is built exactly if it is valid**, and it is made of what was given. -/
theorem build_eq_ok_iff {schema : Schema} {columns : List Column} {rows : Option Nat} {b : Batch} :
    build schema columns rows = .ok b ↔ b.Valid ∧ b.schema = schema ∧ b.columns = columns ∧
      rows.or (columns.head?.map Column.length) = some b.rows := by
  unfold build
  constructor
  · intro h
    by_cases hcount : columns.length ≠ schema.fields.length
    · rw [if_pos hcount] at h
      exact nomatch h
    rw [if_neg hcount] at h
    cases hrows : rows.or (columns.head?.map Column.length) with
    | none => rw [hrows] at h; exact nomatch h
    | some n =>
      rw [hrows] at h
      cases hlacking : firstLacking? schema.fields columns with
      | some f => simp only [hlacking] at h; exact nomatch h
      | none =>
        simp only [hlacking] at h
        cases hlengths : columns.any fun c => c.length != n with
        | true => rw [hlengths] at h; exact nomatch h
        | false =>
          rw [hlengths] at h
          cases htypes : firstMistyped? 0 schema.fields columns with
          | some fault => rw [htypes] at h; exact nomatch h
          | none =>
            rw [htypes] at h
            obtain rfl := Except.ok.inj h
            exact ⟨⟨(firstMistyped?_eq_none 0 (Decidable.not_not.1 hcount)).1 htypes,
              any_length_ne.1 hlengths, firstLacking?_eq_none.1 hlacking⟩, rfl, rfl, rfl⟩
  · rintro ⟨hvalid, rfl, rfl, hrows⟩
    have hcount : b.columns.length = b.schema.fields.length := by
      have := congrArg List.length hvalid.types
      rwa [List.length_map, List.length_map] at this
    rw [if_neg (fun h => h hcount), hrows]
    simp only [firstLacking?_eq_none.2 hvalid.required, any_length_ne.2 hvalid.lengths,
      (firstMistyped?_eq_none 0 hcount).2 hvalid.types]
    rfl

theorem check_eq_ok_iff {b b' : Batch} : b.check = .ok b' ↔ b.Valid ∧ b' = b := by
  rw [check, build_eq_ok_iff]
  constructor
  · rintro ⟨hvalid, hschema, hcolumns, hrows⟩
    have heq : b' = b := by
      obtain ⟨s, cs, n⟩ := b'
      obtain rfl : b.rows = n := Option.some.inj hrows
      obtain rfl : s = b.schema := hschema
      obtain rfl : cs = b.columns := hcolumns
      rfl
    exact ⟨heq ▸ hvalid, heq⟩
  · rintro ⟨hvalid, rfl⟩
    exact ⟨hvalid, rfl, rfl, rfl⟩

theorem Valid.check {b : Batch} (h : b.Valid) : b.check = .ok b := check_eq_ok_iff.2 ⟨h, rfl⟩

theorem Valid.columnCount {b : Batch} (h : b.Valid) :
    b.columns.length = b.schema.fields.length := by
  have := congrArg List.length h.types
  rwa [List.length_map, List.length_map] at this

/-! ### Shape and completeness -/

/-- The columns fit the schema and the number of rows. -/
structure Shaped (b : Batch) : Prop where
  types : b.columns.map (·.type) = b.schema.fields.map (·.type)
  lengths : ∀ c ∈ b.columns, c.length = b.rows

/-- No required cell is missing. -/
def Complete (b : Batch) : Prop :=
  ∀ p ∈ b.schema.fields.zip b.columns, p.1.nullable = false → p.2.lacksValue = false

theorem valid_iff {b : Batch} : b.Valid ↔ b.Shaped ∧ b.Complete :=
  ⟨fun h => ⟨⟨h.types, h.lengths⟩, h.required⟩, fun h => ⟨h.1.types, h.1.lengths, h.2⟩⟩

theorem lacksValue_eq_false {c : Column} :
    c.lacksValue = false ↔ c.type = .null ∨ ∀ x ∈ c.cells, x.isSome := by
  unfold Column.lacksValue
  rw [Bool.and_eq_false_iff, List.any_eq_false, bne_eq_false_iff_eq]
  refine or_congr_right (forall₂_congr ?_)
  intro x _
  cases x <;> simp

/-- Without rows nothing is missing. -/
theorem Shaped.complete {b : Batch} (h : b.Shaped) (hrows : b.rows = 0) : b.Complete := by
  intro p hp _
  have hnil : p.2.cells = [] :=
    List.length_eq_zero_iff.1 ((h.lengths p.2 (List.of_mem_zip hp).2).trans hrows)
  refine lacksValue_eq_false.2 (.inr ?_)
  intro x hx
  rw [hnil] at hx
  exact nomatch hx

/-- All columns are moved if there is a place for each, and nothing stays in the places. -/
theorem moveColumns_eq {targets sources : List Column} (h : targets.length = sources.length) :
    moveColumns targets sources = (sources, sources.map fun c => .empty c.type) := by
  induction targets generalizing sources with
  | nil =>
    rw [List.length_eq_zero_iff.1 h.symm]
    rfl
  | cons t targets ih =>
    cases sources with
    | nil => exact absurd h (by simp)
    | cons c sources => rw [moveColumns, ih (Nat.succ.inj h), List.map_cons]

/-- Between batches of equal width rows are always moved. -/
theorem transfer_eq {target source : Batch} (h : target.columns.length = source.columns.length) :
    target.transfer source = .ok (source,
      { source with columns := source.columns.map fun c => .empty c.type, rows := 0 }) := by
  rw [transfer, if_neg fun hne => hne h, moveColumns_eq h]

end ExternalSort.Batch
