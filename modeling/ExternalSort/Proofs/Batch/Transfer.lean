/-
Rows that are moved from one batch into another.

A transfer moves columns one by one, from place to place, and takes schema and number of rows
along.  It needs as many places as there are columns and asks for nothing else: what the target
held before, and under which schema, does not matter.  What stays behind is made from the
columns, while a batch that lets go of its rows makes its columns from its schema; for a batch
whose columns have the types of its fields these are the same.

A run moves every batch that it reads into its husk.  The number of columns of the husk may be
another, but then the husk gives way to an empty batch of the new shape first.  A batch that was
read has a column for each of its fields, reshaped or not, so this move is never refused.
-/
import ExternalSort.Proofs.Group.Fitting

namespace ExternalSort

namespace Batch

variable {b target source : Batch}

/-- The target and the source as an attempt to move the rows leaves them. -/
def transferred (target source : Batch) : Batch × Batch :=
  match target.transfer source with
  | .ok both => both
  | .error _ => (target, source)

/-! ### What stays behind -/

/-- A batch that let go of its rows is the empty batch of its schema. -/
theorem zeroed_eq_empty (h : b.Shaped) : b.zeroed = empty b.schema := by
  have hcolumns : List.zipWith (fun (_ : Column) f => Column.empty f.type) b.columns b.schema.fields
      = b.schema.fields.map fun f => .empty f.type := by
    refine List.ext_getElem ?_ ?_
    · rw [List.length_zipWith, List.length_map, h.columnCount, Nat.min_self]
    · intro i hi hi'
      rw [List.getElem_zipWith, List.getElem_map]
  rw [zeroed, hcolumns]
  rfl

/-- Empty columns are the same whether their types are those of the columns or of the fields. -/
theorem map_empty_columns (h : b.Shaped) :
    b.columns.map (fun c => .empty c.type) = b.schema.fields.map fun f => Column.empty f.type := by
  have hboth := congrArg (List.map Column.empty) h.types
  rw [List.map_map, List.map_map] at hboth
  exact hboth

/-- The source of a transfer is left as if it had let go of its rows. -/
theorem transfer_shaped (h : source.Shaped)
    (hwidth : target.columns.length = source.columns.length) :
    target.transfer source = .ok (source, source.zeroed) := by
  rw [transfer_eq hwidth, map_empty_columns h, zeroed_eq_empty h]
  rfl

theorem transfer_refused (hwidth : target.columns.length ≠ source.columns.length) :
    target.transfer source
      = .error (.schema (.transferWidth source.columns.length target.columns.length)) :=
  if_pos hwidth

end Batch

namespace Run

open Storage

variable {ω κ ρ : Type} {r : Run κ ρ} {b b' : Batch}

/-- The husk that is to take a batch: the one at hand, unless its width is another. -/
def vessel (r : Run κ ρ) (b : Batch) : Batch :=
  if r.cursor.batch.columns.length = b.columns.length then r.cursor.batch else .empty b.schema

/-- The husk has a place for every column of a batch, whatever it was before. -/
theorem width_vessel (r : Run κ ρ) (hb : b.Shaped) :
    (r.vessel b).columns.length = b.columns.length := by
  unfold vessel
  by_cases hsame : r.cursor.batch.columns.length = b.columns.length
  · rw [if_pos hsame, hsame]
  · rw [if_neg hsame, hb.columnCount]
    exact List.length_map ..

/-- To receive a batch is to reshape it and to move its rows into the husk. -/
theorem receive_eq (r : Run κ ρ) (b : Batch) :
    r.receive b = match r.shaped b with
      | .error f => .error f
      | .ok b' => ((r.vessel b').transfer b').map fun both =>
          { r with pending := r.pending - 1, cursor := { r.cursor with batch := both.1 } } :=
  rfl

/-- Only reshaping keeps a batch from being received. -/
theorem receive_shaped (hb : b.Shaped) :
    r.receive b = (r.shaped b).map fun b' =>
      { r with pending := r.pending - 1, cursor := { r.cursor with batch := b' } } := by
  cases hshape : r.shaped b with
  | error f => exact receive_error hshape
  | ok b' => exact receive_ok hshape (fitting_shaped hb hshape 0).shaped.columnCount

/-- Once a batch was read, loading it fails only where reshaping it fails. -/
theorem load_of_read {c : Channel ω κ ρ} {s t u : ω} {q : Run κ ρ} {source left : ρ}
    (hready : r.hollow.prepare c s = (.ok source, q, t))
    (hread : Frame.read q.codec c.source (source, t) = (.ok b, left, u)) :
    (r.load c s).1 = (q.shaped b).map fun _ => () := by
  unfold load
  rw [hready]
  dsimp only
  rw [hread]
  dsimp only
  rw [receive_shaped (Batch.valid_iff.1 (valid_of_read hread)).1]
  show _ = (({ q with medium := .reading left } : Run κ ρ).shaped b).map fun _ => ()
  cases ({ q with medium := .reading left } : Run κ ρ).shaped b <;> rfl

/-- A run has no fault of its own to add to those of reshaping. -/
theorem unfit_of_shaped {f : Fault} (h : r.shaped b = .error f) : Batch.Unfit f := by
  unfold shaped at h
  cases htarget : r.cursor.target with
  | none =>
    rw [htarget] at h
    exact nomatch h
  | some schema =>
    rw [htarget] at h
    exact Batch.unfit_of_coerce h

end Run

namespace Batch

variable {source : Batch}

/-- **Moving rows loses nothing and leaves nothing behind.**  Take a valid batch as the source and
any batch as the target.  If they have equally many columns, the target becomes what the source
was, in schema, columns and number of rows, and the source becomes what it would have become by
letting go of its rows: the empty batch of its schema, so that every column is in one of the two.
Otherwise the move is refused for the number of columns, and both stay what they were.

A run is never refused this.  Whatever is in its husk, every batch that was decoded and could be
reshaped is moved into the husk whole; so to receive a decoded batch, and to load one that was
read from the file, fails exactly where reshaping it fails, and not for the number of columns. -/
theorem rows_move_whole (hsource : source.Valid) (target : Batch) :
    (target.columns.length = source.columns.length →
      target.transfer source = .ok (source, source.zeroed) ∧
      target.transferred source = (source, source.zeroed) ∧ source.zeroed = empty source.schema ∧
      ∀ i c, source.zeroed.column? i = some c → c.cells = []) ∧
    (target.columns.length ≠ source.columns.length →
      target.transfer source
        = .error (.schema (.transferWidth source.columns.length target.columns.length)) ∧
      target.transferred source = (target, source)) ∧
    ∀ {ω κ ρ : Type} (r : Run κ ρ),
      (∀ (codec : Codec) (octets : Bytes) (b : Batch), codec.decode octets = .ok b →
        (∀ b', r.shaped b = .ok b' →
          (r.vessel b').transfer b' = .ok (b', b'.zeroed) ∧
          r.receive b = ((r.vessel b').transfer b').map fun both =>
            { r with pending := r.pending - 1, cursor := { r.cursor with batch := both.1 } }) ∧
        ∀ f, r.shaped b = .error f → r.receive b = .error f) ∧
      ∀ (c : Storage.Channel ω κ ρ) (s t u : ω) (q : Run κ ρ) (opened left : ρ) (b : Batch),
        r.hollow.prepare c s = (.ok opened, q, t) →
        Frame.read q.codec c.source (opened, t) = (.ok b, left, u) →
        (r.load c s).1 = (q.shaped b).map (fun _ => ()) ∧
        ∀ m n, (r.load c s).1 ≠ .error (.schema (.transferWidth m n)) := by
  have hshaped := (valid_iff.1 hsource).1
  refine ⟨fun hwidth => ?_, fun hwidth => ?_, fun r => ⟨?_, ?_⟩⟩
  · have hmoved := transfer_shaped hshaped hwidth
    refine ⟨hmoved, by rw [transferred, hmoved], zeroed_eq_empty hshaped, ?_⟩
    intro i c hc
    rw [zeroed_eq_empty hshaped, column?, empty, List.getElem?_map] at hc
    obtain ⟨f, -, rfl⟩ := Option.map_eq_some_iff.1 hc
    rfl
  · have hrefused := transfer_refused hwidth
    exact ⟨hrefused, by rw [transferred, hrefused]⟩
  · intro codec octets b hdecode
    have hb := (valid_iff.1 (Codec.valid_of_decode hdecode)).1
    refine ⟨fun b' hshape => ⟨?_, ?_⟩, fun f hshape => Run.receive_error hshape⟩
    · have hfits := (Run.fitting_shaped hb hshape 0).shaped
      exact transfer_shaped hfits (r.width_vessel hfits)
    · rw [r.receive_eq, hshape]
  · intro c s t u q opened left b hready hread
    have hload := Run.load_of_read hready hread
    refine ⟨hload, fun m n hrefused => ?_⟩
    rw [hload] at hrefused
    cases hshape : q.shaped b with
    | error f =>
      rw [hshape] at hrefused
      obtain rfl : f = .schema (.transferWidth m n) := Except.error.inj hrefused
      cases Run.unfit_of_shaped hshape
    | ok b' =>
      rw [hshape] at hrefused
      cases hrefused

/-- A batch of another shape, with as many columns as the batch of two rows. -/
def label : Batch where
  schema := ⟨[⟨"y", .binary, true, .empty⟩], .empty⟩
  columns := [⟨.binary, [none, some [7], none]⟩]
  rows := 3

/-- The batch of two rows moves into a batch of another shape, and not into one without columns;
and a run whose husk has no columns loads it from its file. -/
theorem pair_moves_whole : Run.pair.Valid ∧
    label.transferred Run.pair = (Run.pair, empty Run.pair.schema) ∧
    shell.transferred Run.pair = (shell, Run.pair) ∧
    ∃ (r : Run Storage.FileSink Storage.FileSource) (s : Storage.Site),
      r.cursor.batch.columns = [] ∧ (r.load Storage.Site.channel s).1 = .ok () := by
  have hvalid := Run.writable_pair.valid
  obtain ⟨hmoved, hrefused, -⟩ := rows_move_whole hvalid label
  obtain ⟨-, hshell, hruns⟩ := rows_move_whole hvalid shell
  refine ⟨hvalid, (hmoved rfl).2.2.1 ▸ (hmoved rfl).2.1, (hshell (by decide)).2, ?_⟩
  obtain ⟨r₀, s₁, answers, r, s, hcreate, hhistory, htaken, -, -⟩ :=
    Run.taken_alone Run.writable_pair
  obtain ⟨hlaid, -, hcodec, -⟩ := Run.known_of_history Storage.Site.reliable hcreate (by decide)
    hhistory htaken
  let bare : Run Storage.FileSink Storage.FileSource := { r with cursor := .ofBatch .shell }
  have hholding : Run.Holding Storage.Site.reliable bare.hollow s
      (Run.frames r.codec [Run.pair]) := hlaid.holding
  obtain ⟨opened, t, hready, hreading⟩ := Run.prepare_holding hholding
  obtain ⟨left, hread, -⟩ := Frame.read_gives (Storage.Site.reliable.source bare.path) r.codec
    (s := (opened, t)) hreading
  have htake := Frame.take_ofBatch (by decide) (hcodec.symm ▸ Run.writable_pair) []
  rw [show Run.frames r.codec [Run.pair] = Frame.ofBatch r.codec Run.pair ++ [] from rfl,
    htake] at hread
  have hload := ((hruns bare).2 _ _ _ _ _ _ _ _ hready hread).1
  exact ⟨bare, s, rfl, hload⟩

end Batch
end ExternalSort
