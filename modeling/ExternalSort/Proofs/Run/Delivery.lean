/-
What a run has still to deliver.

A run that has not failed holds octets: those that its sink took, those that are stored, or
those that its source has left to give.  These octets, the number of batches that are
pending and the target schema decide everything that requests for rows will be answered,
so the answers are computed from them here: `loads` is what loading batch after batch comes
to, `delivered` are the rows of the batches before the first fault.

`Awaiting` ties a run to the rows that are still due.  The first of them is what the next
request is answered, and the run then awaits the others; where none is due, the run is at
its end or meets its fault.  Ending the writing changes nothing of that.
-/
import ExternalSort.Proofs.Batch.Coercion
import ExternalSort.Proofs.Frame
import ExternalSort.Proofs.Run.History
import ExternalSort.Proofs.Storage.Reliable

namespace ExternalSort.Run

open Storage

/-! ### Batches in octets -/

/-- What loading a batch from octets comes to, and the octets behind it. -/
def loadOne (codec : Codec) (target : Option Schema) (bs : Bytes) : Except Fault Batch × Bytes :=
  match Frame.take codec bs with
  | (.error f, rest) => (.error f, rest)
  | (.ok b, rest) => (target.elim (.ok b) b.coerce, rest)

/-- The octets behind a batch have nothing to do with its shape. -/
theorem snd_loadOne (codec : Codec) (target : Option Schema) (bs : Bytes) :
    (loadOne codec target bs).2 = (Frame.take codec bs).2 := by
  unfold loadOne
  split <;> rename_i htake <;> rw [htake]

/-- What loading up to `n` batches one after the other comes to, up to the first fault, and
the octets behind them. -/
def loads (codec : Codec) (target : Option Schema) :
    Nat → Bytes → List (Except Fault Batch) × Bytes
  | 0, bs => ([], bs)
  | n + 1, bs => match loadOne codec target bs with
    | (.error f, rest) => ([.error f], rest)
    | (.ok b, rest) => (.ok b :: (loads codec target n rest).1, (loads codec target n rest).2)

/-- The rows of a batch, each with the batch in which it stands. -/
def rowsOf (b : Batch) : List (Nat × Batch) := (List.range b.rows).map (·, b)

/-- The rows of the batches before the first fault. -/
def delivered : List (Except Fault Batch) → List (Nat × Batch)
  | .ok b :: more => rowsOf b ++ delivered more
  | _ => []

/-- The first fault. -/
def firstFault? : List (Except Fault Batch) → Option Fault
  | .ok _ :: more => firstFault? more
  | .error f :: _ => some f
  | [] => none

/-- The rows from the pointer of a cursor on. -/
def remaining (c : Group.Cursor) : List (Nat × Batch) :=
  (List.range' c.pointer (c.batch.rows - c.pointer)).map (·, c.batch)

/-- A batch that was loaded has a column for each field of its schema. -/
theorem columnCount_loadOne {codec : Codec} {target : Option Schema} {bs rest : Bytes} {b : Batch}
    (h : loadOne codec target bs = (.ok b, rest)) :
    b.columns.length = b.schema.fields.length := by
  have hdecoded : ∀ {b rest}, Frame.take codec bs = (.ok b, rest) →
      b.columns.length = b.schema.fields.length := by
    intro b rest htake
    unfold Frame.take at htake
    split at htake
    · exact nomatch (Prod.mk.inj htake).1
    · dsimp only at htake
      split at htake
      · exact nomatch (Prod.mk.inj htake).1
      · split at htake
        · exact nomatch (Prod.mk.inj htake).1
        · exact (Codec.valid_of_decode (Prod.mk.inj htake).1).columnCount
  unfold loadOne at h
  split at h
  · exact nomatch (Prod.mk.inj h).1
  · rename_i b₀ rest₀ htake
    have hcount := hdecoded htake
    cases target with
    | none =>
      obtain rfl : b₀ = b := Except.ok.inj (Prod.mk.inj h).1
      exact hcount
    | some t => exact Batch.columnCount_coerce hcount (Prod.mk.inj h).1

variable {ω κ ρ : Type} {c : Channel ω κ ρ} {R : Reliable c} {r : Run κ ρ} {s : ω} {bs : Bytes}

/-- The octets of a run: those it has taken, those it has stored or those it has left to
give. -/
def Holding (R : Reliable c) (r : Run κ ρ) (s : ω) (bs : Bytes) : Prop :=
  match r.medium with
  | .writing sink => R.writing r.path sink s bs
  | .idle => R.stored r.path s bs
  | .reading source => R.reading r.path source s bs
  | .closed => False

/-- An idle run has what is stored in its file. -/
theorem holding_idle (h : r.phase = .idle) : Holding R r s bs ↔ R.stored r.path s bs := by
  obtain ⟨cursor, codec, path, pending, medium, failed⟩ := r
  cases medium with
  | idle => exact Iff.rfl
  | _ => exact nomatch h

/-! ### Ending the writing, opening the source, loading -/

theorem finish_holding (h : Holding R r s bs) :
    ∃ n medium s', r.finish c s = (.ok n, { r with medium }, s') ∧
      Holding R { r with medium } s' bs ∧ medium.phase ≠ .writing := by
  obtain ⟨cursor, codec, path, pending, medium, failed⟩ := r
  cases medium with
  | writing sink =>
    obtain ⟨s', hclose, hstored⟩ := R.closeSink h
    refine ⟨c.written sink, .idle, s', ?_, hstored, fun h => (nomatch h)⟩
    simp only [finish, retireSink, hclose]
    rfl
  | idle => exact ⟨0, .idle, s, rfl, h, fun h => (nomatch h)⟩
  | reading source => exact ⟨0, .reading source, s, rfl, h, fun h => (nomatch h)⟩
  | closed => exact h.elim

theorem prepare_holding (h : Holding R r s bs) :
    ∃ source s', r.prepare c s = (.ok source, { r with medium := .reading source }, s') ∧
      R.reading r.path source s' bs := by
  obtain ⟨n, medium, s', hfinish, hholding, hphase⟩ := finish_holding h
  unfold prepare
  rw [hfinish]
  cases medium with
  | writing sink => exact absurd rfl hphase
  | idle =>
    obtain ⟨source, s'', hopen, hreading⟩ := R.openInput hholding
    refine ⟨source, s'', ?_, hreading⟩
    simp only [hopen]
  | reading source => exact ⟨source, s', rfl, hholding⟩
  | closed => exact hholding.elim

theorem receive_error {b : Batch} {f : Fault} (h : r.shaped b = .error f) :
    r.receive b = .error f := by
  rw [receive, h]

/-- A husk of another width gives way to an empty one of the batch's own shape, so a batch
that has a column for each of its fields is always received. -/
theorem receive_ok {b b' : Batch} (h : r.shaped b = .ok b')
    (hwidth : b'.columns.length = b'.schema.fields.length) :
    r.receive b = .ok { r with
      pending := r.pending - 1
      cursor := { r.cursor with batch := b' } } := by
  have hsame : (if r.cursor.batch.columns.length = b'.columns.length then r.cursor.batch
      else .empty b'.schema).columns.length = b'.columns.length := by
    split
    · assumption
    · rw [hwidth]
      exact List.length_map ..
  rw [receive, h]
  exact congrArg (Except.map _) (Batch.transfer_eq hsame)

/-- To end the writing and to open the source have nothing to do with the cursor. -/
theorem prepare_cursor (c : Channel ω κ ρ) (r : Run κ ρ) (cursor : Group.Cursor) (s : ω) :
    prepare c { r with cursor } s
      = ((r.prepare c s).1, { (r.prepare c s).2.1 with cursor }, (r.prepare c s).2.2) := by
  obtain ⟨_, codec, path, pending, medium, failed⟩ := r
  cases medium with
  | writing sink =>
    simp only [prepare, finish]
    cases (retireSink c sink s).1 with
    | error f => rfl
    | ok _ =>
      simp only [Except.map]
      cases hopen : c.openInput path (retireSink c sink s).2 with
      | mk outcome t => cases outcome <;> rfl
  | idle =>
    simp only [prepare, finish]
    cases hopen : c.openInput path s with
    | mk outcome t => cases outcome <;> rfl
  | reading source => rfl
  | closed => rfl

/-- What follows a load, whatever the cursor is: the batch in the husk, or the fault with the
husk empty. -/
theorem load_reading (h : Holding R r s bs) :
    ∃ source s', R.reading r.path source s' (Frame.take r.codec bs).2 ∧
      ∀ cursor : Group.Cursor,
        load c { r with cursor } s = match (loadOne r.codec cursor.target bs).1 with
          | .error f => (.error f, { r with
              medium := .reading source
              cursor := { cursor with batch := cursor.batch.zeroed } }, s')
          | .ok b => (.ok (), { r with
              medium := .reading source
              pending := r.pending - 1
              cursor := { cursor with batch := b } }, s') := by
  obtain ⟨source, s', hprepare, hreading⟩ := prepare_holding h
  obtain ⟨⟨source', s''⟩, hread, hrest⟩ := Frame.read_gives (R.source r.path) r.codec
    (s := (source, s')) hreading
  refine ⟨source', s'', hrest, fun cursor => ?_⟩
  have hhollow := prepare_cursor c r { cursor with batch := cursor.batch.zeroed } s
  rw [hprepare] at hhollow
  have hcount := @columnCount_loadOne r.codec cursor.target bs
  change prepare c (hollow { r with cursor }) s = _ at hhollow
  unfold load
  rw [hhollow]
  simp only [hread]
  unfold loadOne at hcount ⊢
  cases htake : Frame.take r.codec bs with
  | mk outcome rest =>
    rw [htake] at hcount
    cases outcome with
    | error f => rfl
    | ok b =>
      simp only at hcount ⊢
      cases hshape : cursor.target.elim (.ok b) b.coerce with
      | error f =>
        rw [receive_error (r := ⟨{ cursor with batch := cursor.batch.zeroed }, r.codec, r.path,
          r.pending, .reading source', r.failed⟩) hshape]
      | ok b' =>
        rw [hshape] at hcount
        rw [receive_ok (r := ⟨{ cursor with batch := cursor.batch.zeroed }, r.codec, r.path,
          r.pending, .reading source', r.failed⟩) hshape (hcount rfl)]

/-- What follows a load. -/
theorem load_holding (h : Holding R r s bs) :
    ∃ source s', R.reading r.path source s' (loadOne r.codec r.cursor.target bs).2 ∧
      r.load c s = match (loadOne r.codec r.cursor.target bs).1 with
        | .error f => (.error f, { r.hollow with medium := .reading source }, s')
        | .ok b => (.ok (), { r with
            medium := .reading source
            pending := r.pending - 1
            cursor := { r.cursor with batch := b } }, s') := by
  obtain ⟨source, s', hreading, hload⟩ := load_reading h
  exact ⟨source, s', snd_loadOne .. ▸ hreading, hload r.cursor⟩

/-! ### What is due -/

/-- A run that is about to deliver certain rows, and then has no more or meets a fault.
Behind the batches that are pending there are the octets `beyond`. -/
structure Awaiting (R : Reliable c) (r : Run κ ρ) (s : ω) (rows : List (Nat × Batch))
    (fault : Option Fault) (beyond : Bytes) : Prop where
  healthy : r.failed = none
  ahead : ∃ bs, Holding R r s bs ∧
    rows = remaining r.cursor ++ delivered (loads r.codec r.cursor.target r.pending bs).1 ∧
    fault = firstFault? (loads r.codec r.cursor.target r.pending bs).1 ∧
    beyond = (loads r.codec r.cursor.target r.pending bs).2

/-- A run that has failed at a stage: it is not closed and shows no row. -/
structure Spoiled (stage : Stage) (r : Run κ ρ) : Prop where
  failed : r.failed = some stage
  shows : r.count = 0
  phase : r.isClosed = false

/-- What a request for a row comes to where certain rows are due: the first of them, the end,
or the fault. -/
inductive Turn (R : Reliable c) (beyond : Bytes) : List (Nat × Batch) → Option Fault →
    Except Fault (Option (Nat × Batch)) → Run κ ρ → ω → Prop where
  | row {first rest fault r' s'} : Awaiting R r' s' rest fault beyond →
      Turn R beyond (first :: rest) fault (.ok (some first)) r' s'
  | last {r' s'} : r'.pending = 0 → Awaiting R r' s' [] none beyond →
      Turn R beyond [] none (.ok none) r' s'
  | fault {f r' s'} : Spoiled .read r' →
      Turn R beyond [] (some f) (.error (.whileReading f)) r' s'

theorem Holding.open (h : Holding R r s bs) : r.isClosed = false := by
  unfold Holding at h
  unfold isClosed phase
  cases hmedium : r.medium with
  | closed => rw [hmedium] at h; exact h.elim
  | _ => rfl

theorem remaining_nil {cursor : Group.Cursor} (h : cursor.batch.rows ≤ cursor.pointer) :
    remaining cursor = [] := by
  rw [remaining, Nat.sub_eq_zero_of_le h]
  rfl

/-- Behind the first row of a batch come the others. -/
theorem rowsOf_cons {b : Batch} (h : 0 < b.rows) (target : Option Schema) :
    rowsOf b = (0, b) :: remaining { batch := b, pointer := 1, target } := by
  obtain ⟨n, hn⟩ := Nat.exists_eq_succ_of_ne_zero (Nat.ne_of_gt h)
  rw [rowsOf, remaining, hn, List.range_eq_range', Nat.succ_sub_one, List.range'_succ]
  rfl

section LoadRow

variable {n : Nat} {r' : Run κ ρ} {s' : ω}

theorem loadRow_error {f : Fault} (h : r.load c s = (.error f, r', s')) :
    loadRow c (n + 1) r s
      = (.error (.whileReading f), { r'.hollow with failed := some .read }, s') := by
  rw [loadRow, h]

theorem loadRow_rows (h : r.load c s = (.ok (), r', s')) (hrows : 0 < r'.count) :
    loadRow c (n + 1) r s
      = (.ok (some 0), { r' with cursor := { r'.cursor with pointer := 1 } }, s') := by
  rw [loadRow, h]
  exact if_pos hrows

theorem loadRow_empty (h : r.load c s = (.ok (), r', s')) (hrows : ¬0 < r'.count) :
    loadRow c (n + 1) r s = loadRow c n r' s' := by
  rw [loadRow, h]
  exact if_neg hrows

end LoadRow

/-- Loading batches until one has rows gives the first row that is due. -/
theorem loadRow_turn {n : Nat} (hhealthy : r.failed = none) (hholding : Holding R r s bs)
    (hn : r.pending = n) (hempty : r.cursor.batch.rows ≤ r.cursor.pointer) :
    Turn R (loads r.codec r.cursor.target n bs).2
      (delivered (loads r.codec r.cursor.target n bs).1)
      (firstFault? (loads r.codec r.cursor.target n bs).1)
      ((loadRow c n r s).1.map (·.map (·, (loadRow c n r s).2.1.cursor.batch)))
      (loadRow c n r s).2.1 (loadRow c n r s).2.2 := by
  induction n generalizing r s bs with
  | zero =>
    refine .last hn ⟨hhealthy, bs, hholding, ?_, ?_, ?_⟩
    · show [] = remaining r.cursor ++ delivered (loads r.codec r.cursor.target r.pending bs).1
      rw [hn, remaining_nil hempty]
      rfl
    · show none = firstFault? (loads r.codec r.cursor.target r.pending bs).1
      rw [hn]
      rfl
    · show bs = (loads r.codec r.cursor.target r.pending bs).2
      rw [hn]
      rfl
  | succ n ih =>
    obtain ⟨source, s', hreading, hload⟩ := load_holding hholding
    rw [loads]
    cases hone : loadOne r.codec r.cursor.target bs with
    | mk outcome rest =>
      rw [hone] at hreading hload
      cases outcome with
      | error f =>
        rw [loadRow_error hload]
        exact .fault ⟨rfl, rfl, rfl⟩
      | ok b =>
        obtain rfl : n = r.pending - 1 := by omega
        by_cases hrows : 0 < b.rows
        · rw [loadRow_rows hload hrows]
          simp only [delivered, firstFault?, rowsOf_cons hrows r.cursor.target]
          exact .row ⟨hhealthy, rest, hreading, rfl, rfl, rfl⟩
        · have hnone : b.rows = 0 := Nat.eq_zero_of_not_pos hrows
          have hnext := @ih { r with
              medium := .reading source
              pending := r.pending - 1
              cursor := { r.cursor with batch := b } } s' rest hhealthy hreading rfl
            (show b.rows ≤ r.cursor.pointer by omega)
          rw [loadRow_empty hload hrows]
          simp only [delivered, firstFault?, rowsOf, hnone]
          exact hnext

/-- **A request for a row is answered with the row that is due.** -/
theorem nextRow_awaiting {rows : List (Nat × Batch)} {fault : Option Fault} {beyond : Bytes}
    (h : Awaiting R r s rows fault beyond) :
    Turn R beyond rows fault (r.nextRow c s).1 (r.nextRow c s).2.1 (r.nextRow c s).2.2 := by
  obtain ⟨hhealthy, bs, hholding, rfl, rfl, rfl⟩ := h
  by_cases hpointer : r.cursor.pointer < r.count
  · have hrows : r.cursor.pointer < r.cursor.batch.rows := hpointer
    have hnext : r.nextRow c s = (.ok (some (r.cursor.pointer, r.cursor.batch)),
        { r with cursor := { r.cursor with pointer := r.cursor.pointer + 1 } }, s) := by
      unfold nextRow next
      rw [hholding.open, hhealthy]
      simp only [Bool.false_eq_true, if_false, if_pos hpointer, Group.Cursor.next,
        Group.Cursor.advance, if_neg (Nat.not_le.2 hrows)]
      rfl
    have hfirst : remaining r.cursor = (r.cursor.pointer, r.cursor.batch)
        :: remaining { r.cursor with pointer := r.cursor.pointer + 1 } := by
      obtain ⟨k, hk⟩ := Nat.exists_eq_add_of_lt hrows
      rw [remaining, remaining, show r.cursor.batch.rows - r.cursor.pointer = k + 1 by omega,
        show r.cursor.batch.rows - (r.cursor.pointer + 1) = k by omega, List.range'_succ]
      rfl
    rw [hnext, hfirst]
    exact .row ⟨hhealthy, bs, hholding, rfl, rfl, rfl⟩
  · have hrows : r.cursor.batch.rows ≤ r.cursor.pointer := Nat.not_lt.1 hpointer
    have hnext : r.nextRow c s = ((loadRow c r.pending r s).1.map
        (·.map (·, (loadRow c r.pending r s).2.1.cursor.batch)), (loadRow c r.pending r s).2) := by
      unfold nextRow next
      rw [hholding.open, hhealthy]
      simp only [Bool.false_eq_true, if_false, if_neg hpointer]
    rw [hnext, remaining_nil hrows, List.nil_append]
    exact loadRow_turn hhealthy hholding rfl hrows

/-- Ending the writing leaves the same rows due. -/
theorem finish_awaiting {rows : List (Nat × Batch)} {fault : Option Fault} {beyond : Bytes}
    (h : Awaiting R r s rows fault beyond) :
    Awaiting R (r.finish c s).2.1 (r.finish c s).2.2 rows fault beyond := by
  obtain ⟨hhealthy, bs, hholding, hrows, hfault, hbeyond⟩ := h
  obtain ⟨n, medium, s', hfinish, hholding', -⟩ := finish_holding hholding
  rw [hfinish]
  exact ⟨hhealthy, bs, hholding', hrows, hfault, hbeyond⟩

/-! ### Whole histories of reading -/

/-- Operations that read on: requests for rows, and the end of writing at any time. -/
def Operation.Reads : Operation → Prop
  | .next | .finish => True
  | _ => False

instance : DecidablePred Operation.Reads
  | .next | .finish => isTrue trivial
  | .add _ | .setSchema _ | .close | .advance _ | .release => isFalse id

/-- How many rows are requested. -/
def requests : List Operation → Nat
  | [] => 0
  | .next :: ops => requests ops + 1
  | _ :: ops => requests ops

/-- The answers to requests for rows. -/
def rowAnswers (answers : List Answer) : List (Except Fault (Option (Nat × Batch))) :=
  answers.filterMap fun
    | .row outcome => some outcome
    | _ => none

/-- What the requests for rows are answered one after the other where certain rows are due:
the rows, then that there is none, or the fault and after it that there was one. -/
def due (path : Path) : List (Nat × Batch) → Option Fault → Nat →
    Except Fault (Option (Nat × Batch))
  | row :: _, _, 0 => .ok (some row)
  | _ :: rest, fault, n + 1 => due path rest fault n
  | [], none, _ => .ok none
  | [], some f, 0 => .error (.whileReading f)
  | [], some _, _ + 1 => .error (.whileReading (.storage (.afterFailure .read path)))

/-- The answers to the first `n` requests. -/
def schedule (path : Path) (rows : List (Nat × Batch)) (fault : Option Fault) (n : Nat) :
    List (Except Fault (Option (Nat × Batch))) :=
  (List.range n).map (due path rows fault)

theorem schedule_succ (path : Path) (rows : List (Nat × Batch)) (fault : Option Fault) (n : Nat) :
    schedule path rows fault (n + 1)
      = due path rows fault 0 :: (List.range n).map fun i => due path rows fault (i + 1) := by
  rw [schedule, List.range_succ_eq_map, List.map_cons, List.map_map]
  rfl

/-- A run that has failed answers every request with that. -/
theorem performAll_spoiled {ops : List Operation} (hops : ∀ op ∈ ops, op.Reads)
    (h : Spoiled .read r) :
    rowAnswers (performAll c ops r s).1 = (List.range (requests ops)).map (fun _ =>
        .error (.whileReading (.storage (.afterFailure .read r.path)))) ∧
      Spoiled .read (performAll c ops r s).2.1 := by
  induction ops generalizing r s with
  | nil => exact ⟨rfl, h⟩
  | cons op ops ih =>
    obtain ⟨hop, hrest⟩ := List.forall_mem_cons.1 hops
    cases op with
    | next =>
      have hnext : r.nextRow c s
          = (.error (.whileReading (.storage (.afterFailure .read r.path))), r, s) := by
        unfold nextRow next
        simp only [h.phase, Bool.false_eq_true, if_false, h.failed]
        rfl
      obtain ⟨hanswers, hspoiled⟩ := ih hrest h (s := s)
      rw [performAll_cons, perform_next, hnext]
      refine ⟨?_, hspoiled⟩
      show _ :: rowAnswers (performAll c ops r s).1 = _
      rw [hanswers, requests, List.range_succ_eq_map, List.map_cons, List.map_map]
      rfl
    | finish =>
      have hfinish : Spoiled .read (r.finish c s).2.1 := by
        unfold finish
        split
        · exact ⟨h.failed, h.shows, rfl⟩
        · exact h
      have hpath := (kept_finish (c := c) r s).path
      obtain ⟨hanswers, hspoiled⟩ := ih hrest hfinish (s := (r.finish c s).2.2)
      rw [hpath] at hanswers
      exact ⟨hanswers, hspoiled⟩
    | _ => exact hop.elim

/-- What is left once all that was due was asked for: a run that has failed, or nothing
pending and the octets beyond in front of the source. -/
def Settled (R : Reliable c) (beyond : Bytes) (r : Run κ ρ) (s : ω) : Option Fault → Prop
  | some _ => Spoiled .read r
  | none => r.pending = 0 ∧ Holding R r s beyond

/-- A run at its end stays there, and what is beyond is not touched. -/
theorem performAll_ended {ops : List Operation} (hops : ∀ op ∈ ops, op.Reads) {beyond : Bytes}
    (hpending : r.pending = 0) (h : Awaiting R r s [] none beyond) :
    Settled R beyond (performAll c ops r s).2.1 (performAll c ops r s).2.2 none := by
  induction ops generalizing r s with
  | nil =>
    obtain ⟨-, bs, hholding, -, -, hbeyond⟩ := h
    rw [hpending, loads] at hbeyond
    exact ⟨hpending, hbeyond ▸ hholding⟩
  | cons op ops ih =>
    obtain ⟨hop, hrest⟩ := List.forall_mem_cons.1 hops
    cases op with
    | next =>
      have hturn := nextRow_awaiting h
      rw [performAll_cons, perform_next]
      generalize r.nextRow c s = step at hturn ⊢
      obtain ⟨outcome, r', s'⟩ := step
      cases hturn with
      | last hpending' h' => exact ih hrest hpending' h'
    | finish =>
      obtain ⟨-, bs, hholding, -, -, -⟩ := id h
      obtain ⟨n, medium, s', hfinish, -, -⟩ := finish_holding hholding
      have hpending' : (r.finish c s).2.1.pending = 0 := by
        rw [hfinish]
        exact hpending
      exact ih hrest hpending' (finish_awaiting h)
    | _ => exact hop.elim

/-- **What is due is what requests are answered**, however many there are and whenever the
writing is ended between them. -/
theorem performAll_awaiting {ops : List Operation} (hops : ∀ op ∈ ops, op.Reads)
    {rows : List (Nat × Batch)} {fault : Option Fault} {beyond : Bytes}
    (h : Awaiting R r s rows fault beyond) :
    rowAnswers (performAll c ops r s).1 = schedule r.path rows fault (requests ops) ∧
      (rows.length < requests ops →
        Settled R beyond (performAll c ops r s).2.1 (performAll c ops r s).2.2 fault) := by
  induction ops generalizing r s rows with
  | nil => exact ⟨rfl, fun h => absurd h (Nat.not_lt_zero _)⟩
  | cons op ops ih =>
    obtain ⟨hop, hrest⟩ := List.forall_mem_cons.1 hops
    cases op with
    | next =>
      have hturn := nextRow_awaiting h
      have hpath : (r.nextRow c s).2.1.path = r.path := (kept_next (c := c) r s).path
      rw [performAll_cons, perform_next, requests, schedule_succ]
      clear h
      generalize r.nextRow c s = step at hturn hpath ⊢
      obtain ⟨outcome, r', s'⟩ := step
      change r'.path = r.path at hpath
      change outcome :: rowAnswers (performAll c ops r' s').1 = _ ∧ _
      cases hturn with
      | row h' =>
        obtain ⟨hanswers, hlater⟩ := ih hrest h'
        rw [hpath] at hanswers
        exact ⟨congrArg _ hanswers, fun hlt => hlater (Nat.lt_of_succ_lt_succ hlt)⟩
      | last hpending h' =>
        obtain ⟨hanswers, -⟩ := ih hrest h'
        rw [hpath] at hanswers
        refine ⟨?_, fun _ => performAll_ended hrest hpending h'⟩
        rw [hanswers, schedule]
        rfl
      | fault hspoiled =>
        obtain ⟨hanswers, hspoiled'⟩ := performAll_spoiled hrest hspoiled (c := c) (s := s')
        rw [hpath] at hanswers
        refine ⟨?_, fun _ => hspoiled'⟩
        rw [hanswers]
        rfl
    | finish =>
      have hpath := (kept_finish (c := c) r s).path
      obtain ⟨hanswers, hlater⟩ := ih hrest (finish_awaiting h)
      rw [hpath] at hanswers
      exact ⟨hanswers, hlater⟩
    | _ => exact hop.elim

/-! ### Requests and nothing else -/

/-- What so many requests for rows are answered. -/
def asked (c : Channel ω κ ρ) (n : Nat) (r : Run κ ρ) (s : ω) :
    List (Except Fault (Option (Nat × Batch))) :=
  rowAnswers (performAll c (List.replicate n .next) r s).1

theorem asked_succ (n : Nat) (r : Run κ ρ) (s : ω) :
    asked c (n + 1) r s
      = (r.nextRow c s).1 :: asked c n (r.nextRow c s).2.1 (r.nextRow c s).2.2 := rfl

end ExternalSort.Run
