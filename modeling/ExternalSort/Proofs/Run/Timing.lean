/-
When the target schema is set does not matter.

A schema that is set reshapes the batch at hand, and every later one as it is loaded.  So to
set it changes a run in its cursor only, and it makes no difference whether that is done
before a request or behind it: where the run goes on to hold some batch, it would hold that
batch reshaped, at the same row, with the same file behind it.  This is `Aimed`: the second
run is the first with the schema set.  Every request keeps it, and rows are shown at the same
places, in the second run reshaped.  From the moment at which the schema is set in the first
run too, the two are one.

What it takes is that every batch can be reshaped.  A batch that cannot would be met at
another time, or in only one of the runs.
-/
import ExternalSort.Proofs.Batch.Gathering
import ExternalSort.Proofs.Run.Acceptance
import ExternalSort.Proofs.Storage.Passing
import Mathlib.Data.List.Forall2

namespace ExternalSort

open Storage

namespace Batch

/-- An emptied batch is reshaped to the reshaped batch, emptied. -/
theorem zeroed_coerce {b b' : Batch} {S : Schema} (hb : b.Shaped) (h : b.coerce S = .ok b') :
    b.zeroed.coerce S = .ok b'.zeroed := by
  rw [coerce_zeroed hb h, zeroed_eq_taken (shaped_coerce hb h)]

/-- The batch with nothing at all can be reshaped to every schema. -/
theorem shell_coerce (S : Schema) : ∃ b, shell.coerce S = .ok b := by
  by_cases hsame : shell.schema = S
  · exact ⟨shell, coerce_eq_ok_iff.2 (.inl ⟨hsame, rfl⟩)⟩
  · obtain ⟨columns, hcolumns⟩ := Sequence.mapM_ok_iff.2 fun f (_ : f ∈ S.fields) =>
      (⟨.absent f.type 0, rfl⟩ : ∃ column, shell.coerceColumn f = .ok column)
    exact ⟨_, coerce_eq_ok_iff.2 (.inr ⟨hsame, rfl, columns, hcolumns, rfl⟩)⟩

end Batch

/-! ### Cursors -/

/-- The second cursor is the first with a schema set, where none was set before. -/
structure Group.Cursor.Aimed (S : Schema) (x y : Group.Cursor) : Prop where
  plain : x.target = none
  target : y.target = some S
  pointer : y.pointer = x.pointer
  shaped : x.batch.Shaped
  coerced : x.batch.coerce S = .ok y.batch

namespace Group.Cursor.Aimed

variable {S : Schema} {x y : Group.Cursor}

theorem rows (h : x.Aimed S y) : y.batch.rows = x.batch.rows := Batch.rows_coerce h.coerced

theorem place (h : x.Aimed S y) (pointer : Nat) : Aimed S { x with pointer } { y with pointer } :=
  ⟨h.plain, h.target, rfl, h.shaped, h.coerced⟩

theorem fill (h : x.Aimed S y) {b b' : Batch} (hb : b.Shaped) (hcoerce : b.coerce S = .ok b') :
    Aimed S { x with batch := b } { y with batch := b' } :=
  ⟨h.plain, h.target, h.pointer, hb, hcoerce⟩

theorem hollow (h : x.Aimed S y) :
    Aimed S { x with batch := x.batch.zeroed } { y with batch := y.batch.zeroed } :=
  h.fill (Batch.shaped_zeroed h.shaped) (Batch.zeroed_coerce h.shaped h.coerced)

theorem advance (h : x.Aimed S y) (count : Nat) :
    (y.advance count).1 = (x.advance count).1 ∧
      Aimed S (x.advance count).2 (y.advance count).2 := by
  unfold Cursor.advance
  rw [h.pointer]
  split
  · exact ⟨rfl, h⟩
  · exact ⟨rfl, h.place _⟩

/-- To set the schema in the first cursor gives the second. -/
theorem setSchema (h : x.Aimed S y) : x.setSchema S = .ok y := by
  obtain ⟨batch, pointer, target⟩ := y
  obtain ⟨-, htarget, hpointer, -, hcoerced⟩ := h
  obtain rfl : target = some S := htarget
  obtain rfl : pointer = x.pointer := hpointer
  rw [Cursor.setSchema, hcoerced]
  rfl

end Group.Cursor.Aimed

namespace Run

variable {ω κ ρ : Type} {c : Channel ω κ ρ} {R : Reliable c} {S : Schema} {r r' : Run κ ρ}
  {s s' : ω} {bs : List Batch}

/-! ### Runs -/

/-- The second run is the first with a schema set, where none was set before. -/
inductive Aimed (S : Schema) : Run κ ρ → Run κ ρ → Prop where
  | intro {cursor cursor' codec path pending medium failed} : cursor.Aimed S cursor' →
      Aimed S ⟨cursor, codec, path, pending, medium, failed⟩
        ⟨cursor', codec, path, pending, medium, failed⟩

/-- A batch that can be written, and reshaped. -/
structure Suits (codec : Codec) (S : Schema) (b : Batch) : Prop where
  writable : Frame.Writable codec b
  rows : b.rows < 2 ^ 64
  coerces : ∃ b', b.coerce S = .ok b'

/-- A run that has batches in its file, all of which can be reshaped. -/
structure Stock (R : Reliable c) (S : Schema) (r : Run κ ρ) (s : ω) (bs : List Batch) : Prop where
  pending : r.pending = bs.length
  suits : ∀ b ∈ bs, Suits r.codec S b
  holding : Holding R r s (frames r.codec bs)

/-- Two runs beside each other, the second with the schema set: the states behind them are the
same, and unless they failed or are closed all that they will load can be reshaped. -/
structure Abreast (R : Reliable c) (S : Schema) (x y : Run κ ρ × ω) : Prop where
  state : y.2 = x.2
  aimed : Aimed S x.1 y.1
  stock : x.1.failed = none → x.1.phase ≠ .closed → ∃ bs, Stock R S x.1 x.2 bs

/-- Answers beside each other: a row has the same place and stands in the same batch reshaped,
everything else is the same. -/
inductive Alongside (S : Schema) : Answer → Answer → Prop where
  | done (outcome : Except Fault Unit) : Alongside S (.done outcome) (.done outcome)
  | count (outcome : Except Fault Nat) : Alongside S (.count outcome) (.count outcome)
  | place (place : Option Nat) : Alongside S (.place place) (.place place)
  | fault (f : Fault) : Alongside S (.row (.error f)) (.row (.error f))
  | none : Alongside S (.row (.ok none)) (.row (.ok none))
  | row {place : Nat} {b b' : Batch} : b.coerce S = .ok b' →
      Alongside S (.row (.ok (some (place, b)))) (.row (.ok (some (place, b'))))

/-- Requests that no reshaping stands against: batches that are added can be reshaped, and no
other schema is set. -/
def Operation.Fits (codec : Codec) (S : Schema) : Operation → Prop
  | .add b => Suits codec S b
  | .setSchema _ => False
  | _ => True

namespace Aimed

theorem cursor (h : Aimed S r r') : r.cursor.Aimed S r'.cursor := by
  obtain ⟨hcursor⟩ := h
  exact hcursor

theorem codec (h : Aimed S r r') : r'.codec = r.codec := by
  obtain ⟨-⟩ := h
  rfl

theorem phase (h : Aimed S r r') : r'.phase = r.phase := by
  obtain ⟨-⟩ := h
  rfl

theorem setSchema (h : Aimed S r r') : r.setSchema S = .ok r' := by
  obtain ⟨hcursor⟩ := h
  rw [Run.setSchema, hcursor.setSchema]
  rfl

theorem count (h : Aimed S r r') : r'.count = r.count := by
  obtain ⟨hcursor⟩ := h
  exact hcursor.rows

theorem place (h : Aimed S r r') (pointer : Nat) :
    Aimed S { r with cursor := { r.cursor with pointer } }
      { r' with cursor := { r'.cursor with pointer } } := by
  obtain ⟨hcursor⟩ := h
  exact ⟨hcursor.place pointer⟩

/-- Runs that fail together stay beside each other. -/
theorem spoil (h : Aimed S r r') (stage : Stage) :
    Aimed S { r.hollow with failed := some stage } { r'.hollow with failed := some stage } := by
  obtain ⟨hcursor⟩ := h
  exact ⟨hcursor.hollow⟩

end Aimed

namespace Abreast

/-! ### Writing -/

theorem add (h : Abreast R S (r, s) (r', s')) {b : Batch} (hb : Suits r.codec S b) :
    Same (Abreast R S) (r.add c b s) (r'.add c b s') := by
  obtain ⟨hstate, haimed, hstock⟩ := h
  obtain rfl : s' = s := hstate
  obtain @⟨cursor, cursor', codec, path, pending, medium, failed, hcursor⟩ := haimed
  cases failed with
  | some stage => exact ⟨rfl, rfl, ⟨hcursor⟩, hstock⟩
  | none =>
    cases medium with
    | idle | reading _ | closed => exact ⟨rfl, rfl, ⟨hcursor⟩, hstock⟩
    | writing sink =>
      obtain ⟨bs, hpending, hsuits, hholding⟩ := hstock rfl Phase.noConfusion
      obtain ⟨-, ⟨k, t⟩, hwrite, htaken⟩ | ⟨hnot, -⟩ :=
        Frame.write_takes (R.sink path) codec b (s := (sink, s')) hholding
      · obtain ⟨b', hcoerce⟩ := hb.coerces
        have hshaped := (Batch.valid_iff.1 hb.writable.valid).1
        have hhusk := Batch.zeroed_coerce hshaped hcoerce
        simp only [Run.add, hwrite, shaped, hcursor.plain, hcursor.target, Option.elim_none,
          Option.elim_some, hhusk]
        refine ⟨rfl, rfl, ⟨(hcursor.fill (Batch.shaped_zeroed hshaped) hhusk).place 0⟩,
          fun _ _ => ⟨bs ++ [b], ?_, ?_, ?_⟩⟩
        · rw [List.length_append]
          exact congrArg (· + 1) hpending
        · exact List.forall_mem_append.2 ⟨hsuits, List.forall_mem_singleton.2 hb⟩
        · show R.writing path k t (frames codec (bs ++ [b]))
          rw [frames_concat]
          exact htaken
      · exact absurd hb.writable hnot

theorem finish (h : Abreast R S (r, s) (r', s')) :
    Same (Abreast R S) (r.finish c s) (r'.finish c s') := by
  obtain ⟨rfl, @⟨cursor, cursor', codec, path, pending, medium, failed, hcursor⟩, hstock⟩ := h
  cases medium with
  | idle | reading _ | closed => exact ⟨rfl, rfl, ⟨hcursor⟩, hstock⟩
  | writing sink =>
    refine ⟨rfl, rfl, ⟨hcursor⟩, fun hfailed _ => ?_⟩
    obtain ⟨bs, hpending, hsuits, hholding⟩ := hstock hfailed Phase.noConfusion
    obtain ⟨n, medium, s', hfinish, hholding', -⟩ := finish_holding hholding
    rw [hfinish]
    exact ⟨bs, hpending, hsuits, hholding'⟩

theorem close (h : Abreast R S (r, s) (r', s')) :
    Same (Abreast R S) (r.close c s) (r'.close c s') := by
  obtain ⟨rfl, @⟨cursor, cursor', codec, path, pending, medium, failed, hcursor⟩, hstock⟩ := h
  cases medium with
  | closed => exact ⟨rfl, rfl, ⟨hcursor⟩, hstock⟩
  | writing _ | idle | reading _ =>
    exact ⟨rfl, rfl, ⟨hcursor.hollow.place 0⟩, fun _ hopen => absurd rfl hopen⟩

/-! ### Reading -/

/-- A batch is read back into both cursors, in the second reshaped, or into neither. -/
theorem readBack_aimed {x y : Group.Cursor} (h : x.Aimed S y) {b b' : Batch}
    (hcoerce : b.coerce S = .ok b') :
    (∃ f, readBack x.target b = .error f ∧ readBack y.target b = .error f) ∨
      (readBack x.target b = .ok b ∧ readBack y.target b = .ok b') := by
  rw [h.plain, h.target]
  unfold readBack Codec.reread
  split
  · exact .inr ⟨rfl, hcoerce⟩
  · exact .inl ⟨_, rfl, rfl⟩

/-- The next batch is loaded into both runs, in the second reshaped, or into neither for the
same fault. -/
theorem load (h : Aimed S r r') {b : Batch} (hfailed : r.failed = none)
    (hstock : Stock R S r s (b :: bs)) :
    (∃ f q q' t, r.load c s = (.error f, q, t) ∧ r'.load c s = (.error f, q', t) ∧ Aimed S q q') ∨
      ∃ q q' t, r.load c s = (.ok (), q, t) ∧ r'.load c s = (.ok (), q', t) ∧ Aimed S q q' ∧
        Stock R S q t bs ∧ q.failed = none := by
  obtain @⟨cursor, cursor', codec, path, pending, medium, failed, hcursor⟩ := h
  obtain ⟨hpending, hsuits, hholding⟩ := hstock
  obtain ⟨hb, hbs⟩ := List.forall_mem_cons.1 hsuits
  obtain ⟨b', hcoerce⟩ := hb.coerces
  have hshaped := (Batch.valid_iff.1 hb.writable.valid).1
  obtain ⟨source, t, hreading, hload⟩ := load_reading (c := c) hholding
  have hone := hload cursor
  have hone' := hload cursor'
  simp only [frames_cons, loadOne_whole hb.rows hb.writable] at hone hone'
  rw [frames_cons, Frame.take_ofBatch hb.rows hb.writable] at hreading
  rcases readBack_aimed hcursor hcoerce with ⟨f, hread, hread'⟩ | ⟨hread, hread'⟩
  · rw [hread] at hone
    rw [hread'] at hone'
    exact .inl ⟨f, _, _, t, hone, hone', ⟨hcursor.hollow⟩⟩
  · rw [hread] at hone
    rw [hread'] at hone'
    refine .inr ⟨_, _, t, hone, hone', ⟨hcursor.fill hshaped hcoerce⟩, ⟨?_, hbs, hreading⟩, hfailed⟩
    exact (congrArg (· - 1) hpending).trans (Nat.succ_sub_one _)

/-- What a run has in its file has nothing to do with its cursor. -/
theorem cursor (h : Abreast R S (r, s) (r', s')) {x y : Group.Cursor} (hcursor : x.Aimed S y) :
    Abreast R S ({ r with cursor := x }, s) ({ r' with cursor := y }, s') := by
  obtain ⟨hstate, ⟨-⟩, hstock⟩ := h
  refine ⟨hstate, ⟨hcursor⟩, fun hfailed hopen => ?_⟩
  obtain ⟨bs, hbs⟩ := hstock hfailed hopen
  exact ⟨bs, hbs.pending, hbs.suits, hbs.holding⟩

theorem loadRow (h : Aimed S r r') (hfailed : r.failed = none) (hstock : Stock R S r s bs) :
    Same (Abreast R S) (Run.loadRow c bs.length r s) (Run.loadRow c bs.length r' s) := by
  induction bs generalizing r r' s with
  | nil => exact ⟨rfl, rfl, h, fun _ _ => ⟨[], hstock⟩⟩
  | cons b bs ih =>
    rcases load h hfailed hstock with ⟨f, q, q', t, hload, hload', haimed⟩ |
      ⟨q, q', t, hload, hload', haimed, hleft, hhealthy⟩
    · rw [List.length_cons, loadRow_error hload, loadRow_error hload']
      exact ⟨rfl, rfl, haimed.spoil .read, fun hfailed => nomatch hfailed⟩
    · by_cases hrows : 0 < q.count
      · have hrows' : 0 < q'.count := haimed.count.symm ▸ hrows
        rw [List.length_cons, loadRow_rows hload hrows, loadRow_rows hload' hrows']
        exact ⟨rfl, rfl, haimed.place 1, fun _ _ => ⟨bs, hleft.pending, hleft.suits, hleft.holding⟩⟩
      · have hrows' : ¬0 < q'.count := haimed.count.symm ▸ hrows
        rw [List.length_cons, loadRow_empty hload hrows, loadRow_empty hload' hrows']
        exact ih haimed hhealthy hleft

theorem next (h : Abreast R S (r, s) (r', s')) :
    Same (Abreast R S) (r.next c s) (r'.next c s') := by
  obtain ⟨hstate, haimed, hstock⟩ := id h
  obtain rfl : s' = s := hstate
  have hcount : r'.count = r.count := haimed.count
  obtain @⟨cursor, cursor', codec, path, pending, medium, failed, hcursor⟩ := haimed
  unfold Run.next isClosed phase
  dsimp only
  split
  · exact ⟨rfl, h⟩
  · cases failed with
    | some stage => exact ⟨rfl, h⟩
    | none =>
      simp only [hcount, hcursor.pointer]
      split
      · obtain ⟨hrow, hnext⟩ := hcursor.advance cursor.batch.rows
        rw [Group.Cursor.next, Group.Cursor.next, hcursor.rows]
        exact ⟨congrArg Except.ok hrow.symm, h.cursor hnext⟩
      · obtain ⟨bs, hbs⟩ := hstock rfl (mt beq_iff_eq.2 ‹_›)
        obtain rfl : pending = bs.length := hbs.pending
        exact loadRow ⟨hcursor⟩ rfl hbs

/-! ### Whole histories -/

/-- **Every request is answered alike by runs beside each other**, and they stay so. -/
theorem perform (h : Abreast R S (r, s) (r', s')) {op : Operation} (hop : op.Fits r.codec S) :
    Alongside S (Run.perform c r s op).1 (Run.perform c r' s' op).1 ∧
      Abreast R S (Run.perform c r s op).2 (Run.perform c r' s' op).2 := by
  cases op with
  | add b =>
    obtain ⟨houtcome, hleft⟩ := h.add hop
    refine ⟨?_, hleft⟩
    show Alongside S (.done (r.add c b s).1) (.done (r'.add c b s').1)
    rw [← houtcome]
    exact .done _
  | finish =>
    obtain ⟨houtcome, hleft⟩ := h.finish
    refine ⟨?_, hleft⟩
    show Alongside S (.count (r.finish c s).1) (.count (r'.finish c s').1)
    rw [← houtcome]
    exact .count _
  | next =>
    obtain ⟨houtcome, hleft⟩ := h.next
    refine ⟨?_, hleft⟩
    show Alongside S (.row ((r.next c s).1.map _)) (.row ((r'.next c s').1.map _))
    rw [← houtcome]
    match (r.next c s).1 with
    | .error f => exact .fault f
    | .ok none => exact .none
    | .ok (some i) => exact .row hleft.aimed.cursor.coerced
  | setSchema target => exact hop.elim
  | close =>
    obtain ⟨houtcome, hleft⟩ := h.close
    refine ⟨?_, hleft⟩
    show Alongside S (.done (r.close c s).1) (.done (r'.close c s').1)
    rw [← houtcome]
    exact .done _
  | advance count =>
    obtain ⟨hplace, hcursor⟩ := h.aimed.cursor.advance count
    refine ⟨?_, h.cursor hcursor⟩
    show Alongside S (.place (r.cursor.advance count).1) (.place (r'.cursor.advance count).1)
    rw [hplace]
    exact .place _
  | release => exact ⟨.done _, h.cursor (h.aimed.cursor.hollow.place 0)⟩

/-- Whole histories are answered alike by runs beside each other. -/
theorem performAll {ops : List Operation} (hops : ∀ op ∈ ops, op.Fits r.codec S)
    (h : Abreast R S (r, s) (r', s')) :
    List.Forall₂ (Alongside S) (Run.performAll c ops r s).1 (Run.performAll c ops r' s').1 ∧
      Abreast R S (Run.performAll c ops r s).2 (Run.performAll c ops r' s').2 := by
  induction ops generalizing r r' s s' with
  | nil => exact ⟨.nil, h⟩
  | cons op ops ih =>
    obtain ⟨hop, hrest⟩ := List.forall_mem_cons.1 hops
    obtain ⟨hanswer, hleft⟩ := h.perform hop
    rw [← (kept_perform (c := c) r s op).codec] at hrest
    obtain ⟨hanswers, hend⟩ := ih hrest hleft
    exact ⟨.cons hanswer hanswers, hend⟩

end Abreast

/-- To set the schema in the first of two runs beside each other makes one of them. -/
theorem Abreast.meet (h : Abreast R S (r, s) (r', s')) :
    Run.perform c r s (.setSchema S) = (.done (.ok ()), r', s') := by
  obtain ⟨hstate, haimed, -⟩ := h
  obtain rfl : s' = s := hstate
  rw [Run.perform, haimed.setSchema]

/-- A new run and the same with a schema set are beside each other. -/
theorem abreast_create {path : Path} {codec : Codec} {s₀ s₁ : ω} {r₀ : Run κ ρ} (R : Reliable c)
    (hcreate : create c path codec s₀ = (.ok r₀, s₁)) (S : Schema) :
    ∃ r, Abreast R S (r₀, s₁) (r, s₁) := by
  obtain ⟨b, hcoerce⟩ := Batch.shell_coerce S
  obtain ⟨sink, rfl, hopen⟩ := create_eq_ok hcreate
  have hcursor : Group.Cursor.Aimed S (.ofBatch .shell) ⟨b, 0, some S⟩ :=
    ⟨rfl, rfl, rfl, Batch.shaped_empty .empty, hcoerce⟩
  exact ⟨⟨⟨b, 0, some S⟩, codec, path, 0, .writing sink, none⟩, rfl, ⟨hcursor⟩, fun _ _ => ⟨[], rfl, fun b hb => (nomatch hb), R.openOutput hopen⟩⟩

/-! ### Batches that are taken -/

theorem fits_of_split {codec : Codec} (hbs : ∀ b ∈ bs, Suits codec S b) {reads : List Operation}
    (hreads : ∀ op ∈ reads, op.Reads) {op : Operation} (hop : op ∈ bs.map .add ++ reads) :
    op.Fits codec S := by
  rcases List.mem_append.1 hop with hop | hop
  · obtain ⟨b, hb, rfl⟩ := List.mem_map.1 hop
    exact hbs b hb
  · have hreads := hreads op hop
    cases op with
    | next | finish => exact trivial
    | _ => exact hreads.elim

theorem offered_reads {reads : List Operation} (hreads : ∀ op ∈ reads, op.Reads) :
    offered reads = [] := by
  refine List.filterMap_eq_nil_iff.2 fun op hop => ?_
  have hreads := hreads op hop
  cases op with
  | next | finish => rfl
  | _ => exact hreads.elim

/-- Under a target schema a run takes every batch that can be reshaped. -/
theorem allTaken_suits {bs' : List Batch} (h : Laid R r s bs) (hphase : r.phase = .writing)
    (htarget : r.cursor.target = some S) (hsuits : ∀ b ∈ bs', Suits r.codec S b)
    {reads : List Operation} (hreads : offered reads = []) :
    AllTaken (bs'.map .add ++ reads) (performAll c (bs'.map .add ++ reads) r s).1 := by
  induction bs' generalizing r s bs with
  | nil => exact allTaken_of_offered_nil hreads _
  | cons b bs' ih =>
    obtain ⟨hb, hrest⟩ := List.forall_mem_cons.1 hsuits
    obtain ⟨b', hcoerce⟩ := hb.coerces
    have hhusk := Batch.zeroed_coerce (Batch.valid_iff.1 hb.writable.valid).1 hcoerce
    have hadd := add_shaped h hphase hb.writable (by rw [shaped, htarget]; exact hhusk)
    have hstays : (perform c r s (.add b)).2.1.cursor.target = some S :=
      target_stays trivial (fun _ h => Operation.noConfusion h) htarget
    rw [← (kept_add (c := c) r b s).codec] at hrest
    refine List.forall_mem_cons.2 ⟨fun _ _ => congrArg Answer.done hadd, ?_⟩
    exact ih (laid_add h (pending_add hadd)) ((phase_add r b s).trans hphase) hstays hrest

/-- Answers beside each other tell the same of what was taken. -/
theorem allTaken_alongside {answers answers' : List Answer}
    (h : List.Forall₂ (Alongside S) answers answers') {ops : List Operation}
    (htaken : AllTaken ops answers') : AllTaken ops answers := by
  induction h generalizing ops with
  | nil => exact htaken
  | cons hanswer hanswers ih =>
    cases ops with
    | nil => exact fun p hp => nomatch hp
    | cons op ops =>
      obtain ⟨htake, hrest⟩ := List.forall_mem_cons.1 htaken
      refine List.forall_mem_cons.2 ⟨fun b hb => ?_, ih hrest⟩
      cases (htake b hb : _ = Answer.done _)
      cases hanswer
      rfl

theorem allTaken_append {early late : List Operation} {before after : List Answer}
    (hlength : before.length = early.length) : AllTaken (early ++ late) (before ++ after) ↔
      AllTaken early before ∧ AllTaken late after := by
  unfold AllTaken
  rw [List.zip_append hlength.symm]
  exact List.forall_mem_append

/-! ### The moment at which the schema is set -/

/-- **When a target schema is set makes no difference.**  Batches that can all be reshaped are
added, then rows are requested; the schema is set somewhere between these requests, or in front
of all of them.  It is set in both runs and every batch is taken in both.  Until it is set in the
first run, the answers are the same but for the shape of the batches in which the rows stand;
from then on they are the same, and both runs end as one. -/
theorem schema_set_any_time (R : Reliable c) {codec : Codec} {path : Path} {s₀ s₁ : ω}
    {r₀ : Run κ ρ} (hcreate : create c path codec s₀ = (.ok r₀, s₁)) {bs : List Batch}
    (hbs : ∀ b ∈ bs, Suits codec S b) {reads : List Operation} (hreads : ∀ op ∈ reads, op.Reads)
    {early late : List Operation} (hsplit : early ++ late = bs.map .add ++ reads) :
    ∃ before before' after left,
      performAll c (early ++ .setSchema S :: late) r₀ s₁
        = (before ++ .done (.ok ()) :: after, left) ∧
      performAll c (.setSchema S :: (early ++ late)) r₀ s₁
        = (.done (.ok ()) :: (before' ++ after), left) ∧
      before.length = early.length ∧ List.Forall₂ (Alongside S) before before' ∧
      AllTaken early before ∧ AllTaken early before' ∧ AllTaken late after := by
  obtain ⟨r, habreast⟩ := abreast_create R hcreate S
  obtain ⟨hphase, -, rfl⟩ := fresh_create hcreate
  have hfits : ∀ op ∈ early, op.Fits r₀.codec S := fun op hop =>
    fits_of_split hbs hreads (hsplit ▸ List.mem_append_left late hop)
  obtain ⟨hanswers, hmid⟩ := habreast.performAll hfits
  -- In the second run the schema is set when the first batch comes.
  obtain ⟨hlaid, htarget⟩ := (laid_create (R := R) hcreate).set habreast.aimed.setSchema
  have htaken : AllTaken (early ++ late) (performAll c (early ++ late) r s₁).1 := by
    rw [hsplit]
    exact allTaken_suits hlaid (habreast.aimed.phase.trans hphase) htarget
      (habreast.aimed.codec.symm ▸ hbs) (offered_reads hreads)
  rw [performAll_append, allTaken_append (length_performAll early r s₁)] at htaken
  obtain ⟨hbefore', hafter⟩ := htaken
  refine ⟨_, _, _, (performAll c late (performAll c early r s₁).2.1 (performAll c early r s₁).2.2).2,
    ?_, ?_, length_performAll early r₀ s₁, hanswers, allTaken_alongside hanswers hbefore',
    hbefore', hafter⟩
  · rw [performAll_append, performAll_cons, hmid.meet]
  · rw [performAll_cons, habreast.meet, performAll_append]

/-- The schema of the pair with wider numbers. -/
def wider : Schema := ⟨[⟨"x", .int .int64, false, .empty⟩], .empty⟩

theorem suits_pair : Suits ⟨.none⟩ wider pair :=
  ⟨writable_pair, by decide, ⟨⟨wider, [⟨.int .int64, [some 7, some 5]⟩], 2⟩, by decide⟩⟩

/-- The schema is set between the two rows of a batch. -/
theorem wider_within_pair : ∃ r₀ s₁, create Site.channel ⟨[97]⟩ ⟨.none⟩ blank = (.ok r₀, s₁) ∧
    ∃ before before' after left,
      performAll Site.channel ([.add pair, .finish, .next] ++ .setSchema wider :: [.next, .next])
          r₀ s₁ = (before ++ .done (.ok ()) :: after, left) ∧
      performAll Site.channel (.setSchema wider :: ([.add pair, .finish, .next] ++ [.next, .next]))
          r₀ s₁ = (.done (.ok ()) :: (before' ++ after), left) ∧
      before.length = 3 ∧ List.Forall₂ (Alongside wider) before before' ∧
      AllTaken [.add pair, .finish, .next] before ∧
      AllTaken [.add pair, .finish, .next] before' ∧ AllTaken [.next, .next] after := by
  obtain ⟨r₀, s₁, hcreate⟩ : ∃ r₀ s₁, create Site.channel ⟨[97]⟩ ⟨.none⟩ blank = (.ok r₀, s₁) :=
    ⟨_, _, rfl⟩
  exact ⟨r₀, s₁, hcreate, schema_set_any_time Site.reliable hcreate
    (List.forall_mem_singleton.2 suits_pair)
    (show ∀ op ∈ [.finish, .next, .next, .next], Operation.Reads op by decide) rfl⟩

end Run
end ExternalSort
