/-
The ways that a request for a row can take.

A request is refused, or answered from the husk, or batches are loaded until one has rows.
A load may stop at five points: the sink cannot be closed, the file not be opened, the frame
not be read, the batch not be reshaped, or all is well.  Each of these is a case here, with
the run and the state that it leaves, so what a request does is read off the cases.
-/
import ExternalSort.Proofs.Run.Ending

namespace ExternalSort.Run

open Storage

variable {ω κ ρ : Type} {c : Channel ω κ ρ} {r : Run κ ρ} {s : ω}

/-- The writing of a run has ended before, or ends now. -/
inductive Rested (c : Channel ω κ ρ) (r : Run κ ρ) (s : ω) : ω → Prop where
  | idle : r.medium = .idle → Rested c r s s
  | ended {sink : κ} {s' : ω} : r.medium = .writing sink → retireSink c sink s = (.ok (), s') →
      Rested c r s s'

/-- The ways to the point where the source is open. -/
inductive Preparing (c : Channel ω κ ρ) (r : Run κ ρ) (s : ω) :
    Except Fault ρ × Run κ ρ × ω → Prop where
  | unfinished {sink : κ} {f : Fault} {s' : ω} : r.medium = .writing sink →
      retireSink c sink s = (.error f, s') →
      Preparing c r s (.error f, { r with medium := .idle }, s')
  | unopened {f : Fault} {t s' : ω} : Rested c r s t → c.openInput r.path t = (.error f, s') →
      Preparing c r s (.error f, { r with medium := .idle }, s')
  | opened {source : ρ} {t s' : ω} : Rested c r s t → c.openInput r.path t = (.ok source, s') →
      Preparing c r s (.ok source, { r with medium := .reading source }, s')
  | open {source : ρ} : r.medium = .reading source →
      Preparing c r s (.ok source, { r with medium := .reading source }, s)

/-- Once the writing has ended, the file is opened. -/
theorem prepare_rested {t : ω} (h : Rested c r s t) :
    r.prepare c s = match c.openInput r.path t with
      | (.error f, s') => (.error f, { r with medium := .idle }, s')
      | (.ok source, s') => (.ok source, { r with medium := .reading source }, s') := by
  obtain ⟨cursor, codec, path, pending, medium, failed⟩ := r
  cases h with
  | idle hmedium =>
    obtain rfl : medium = .idle := hmedium
    rfl
  | ended hmedium hretire =>
    obtain rfl : medium = .writing _ := hmedium
    simp only [prepare, finish, hretire]
    rfl

theorem prepare_preparing (hopen : r.phase ≠ .closed) (s : ω) :
    Preparing c r s (r.prepare c s) := by
  have hopened : ∀ {t}, Rested c r s t → Preparing c r s (r.prepare c s) := by
    intro t ht
    rw [prepare_rested ht]
    cases hopen : c.openInput r.path t with
    | mk outcome s' =>
      cases outcome with
      | error f => exact .unopened ht hopen
      | ok source => exact .opened ht hopen
  cases hmedium : r.medium with
  | closed =>
    rw [phase, hmedium] at hopen
    exact absurd rfl hopen
  | reading source =>
    have hprepare : r.prepare c s = (.ok source, { r with medium := .reading source }, s) := by
      obtain ⟨cursor, codec, path, pending, medium, failed⟩ := r
      obtain rfl : medium = .reading source := hmedium
      rfl
    rw [hprepare]
    exact .open hmedium
  | idle => exact hopened (.idle hmedium)
  | writing sink =>
    cases hretire : retireSink c sink s with
    | mk outcome t =>
      cases outcome with
      | ok _ => exact hopened (.ended hmedium hretire)
      | error f =>
        have hprepare : r.prepare c s = (.error f, { r with medium := .idle }, t) := by
          simp only [prepare, finish, hmedium, hretire]
          rfl
        rw [hprepare]
        exact .unfinished hmedium hretire

/-- The ways to load a batch. -/
inductive Loading (c : Channel ω κ ρ) (r : Run κ ρ) (s : ω) :
    Except Fault Unit × Run κ ρ × ω → Prop where
  | unready {f : Fault} {q : Run κ ρ} {s' : ω} : Preparing c r.hollow s (.error f, q, s') →
      Loading c r s (.error f, q, s')
  | unread {source source' : ρ} {q : Run κ ρ} {t s' : ω} {f : Fault} :
      Preparing c r.hollow s (.ok source, q, t) →
      Frame.read r.codec c.source (source, t) = (.error f, source', s') →
      Loading c r s (.error f, { r.hollow with medium := .reading source' }, s')
  | unshaped {source source' : ρ} {q : Run κ ρ} {t s' : ω} {b : Batch} {f : Fault} :
      Preparing c r.hollow s (.ok source, q, t) →
      Frame.read r.codec c.source (source, t) = (.ok b, source', s') → r.shaped b = .error f →
      Loading c r s (.error f, { r.hollow with medium := .reading source' }, s')
  | loaded {source source' : ρ} {q : Run κ ρ} {t s' : ω} {b b' : Batch} :
      Preparing c r.hollow s (.ok source, q, t) →
      Frame.read r.codec c.source (source, t) = (.ok b, source', s') → r.shaped b = .ok b' →
      Loading c r s (.ok (), { r with
        medium := .reading source'
        pending := r.pending - 1
        cursor := { r.cursor with batch := b' } }, s')

/-- A run with its source open is what it was, but for the source. -/
theorem Preparing.eq_of_ok {source : ρ} {q : Run κ ρ} {t : ω}
    (h : Preparing c r s (.ok source, q, t)) : q = { r with medium := .reading source } := by
  cases h <;> rfl

/-- A batch that was read from a frame is valid. -/
theorem valid_of_read {σ : Type} {codec : Codec} {source : ByteSource σ} {x x' : σ} {b : Batch}
    (hread : Frame.read codec source x = (.ok b, x')) : b.Valid := by
  unfold Frame.read at hread
  split at hread
  · exact nomatch (Prod.mk.inj hread).1
  · dsimp only at hread
    split at hread
    · exact nomatch (Prod.mk.inj hread).1
    · split at hread
      · exact nomatch (Prod.mk.inj hread).1
      · split at hread
        · exact nomatch (Prod.mk.inj hread).1
        · exact Codec.valid_of_decode (Prod.mk.inj hread).1

/-- A batch that was read from a frame has a column for each field, in any shape. -/
theorem width_of_read {σ : Type} {codec : Codec} {source : ByteSource σ} {x x' : σ}
    {b b' : Batch} (hread : Frame.read codec source x = (.ok b, x')) (hshape : r.shaped b = .ok b') :
    b'.columns.length = b'.schema.fields.length := by
  have hvalid := valid_of_read hread
  unfold shaped at hshape
  cases htarget : r.cursor.target with
  | none =>
    rw [htarget] at hshape
    obtain rfl := Except.ok.inj hshape
    exact hvalid.columnCount
  | some target =>
    rw [htarget] at hshape
    exact Batch.columnCount_coerce hvalid.columnCount hshape

theorem load_loading (hopen : r.phase ≠ .closed) (s : ω) : Loading c r s (r.load c s) := by
  have hprepare := prepare_preparing (c := c) (r := r.hollow) hopen s
  unfold load
  generalize r.hollow.prepare c s = step at hprepare ⊢
  obtain ⟨outcome, q, t⟩ := step
  cases outcome with
  | error f => exact .unready hprepare
  | ok source =>
    obtain rfl := hprepare.eq_of_ok
    dsimp only
    cases hread : Frame.read r.hollow.codec c.source (source, t) with
    | mk outcome left =>
      obtain ⟨source', s'⟩ := left
      cases outcome with
      | error f => exact .unread hprepare hread
      | ok b =>
        dsimp only
        cases hshape : r.shaped b with
        | error f =>
          rw [receive_error (r := { r.hollow with medium := .reading source' }) hshape]
          exact .unshaped hprepare hread hshape
        | ok b' =>
          rw [receive_ok (r := { r.hollow with medium := .reading source' }) hshape
            (width_of_read hread hshape)]
          exact .loaded hprepare hread hshape

/-- The ways to load batches until one has rows. -/
inductive Searching (c : Channel ω κ ρ) :
    Run κ ρ → ω → Except Fault (Option Nat) × Run κ ρ × ω → Prop where
  | none {r : Run κ ρ} {s : ω} : r.pending = 0 → Searching c r s (.ok none, r, s)
  | failed {r q : Run κ ρ} {s t : ω} {f : Fault} : 0 < r.pending → Loading c r s (.error f, q, t) →
      Searching c r s (.error (.whileReading f), { q.hollow with failed := some .read }, t)
  | row {r q : Run κ ρ} {s t : ω} : 0 < r.pending → Loading c r s (.ok (), q, t) → 0 < q.count →
      Searching c r s (.ok (some 0), { q with cursor := { q.cursor with pointer := 1 } }, t)
  | more {r q : Run κ ρ} {s t : ω} {left : Except Fault (Option Nat) × Run κ ρ × ω} :
      0 < r.pending → Loading c r s (.ok (), q, t) → q.count = 0 → Searching c q t left →
      Searching c r s left

/-- A run that was loaded is being read, and a batch less is pending. -/
theorem Loading.of_ok {q : Run κ ρ} {t : ω} (h : Loading c r s (.ok (), q, t)) :
    q.phase = .reading ∧ q.pending = r.pending - 1 ∧ q.failed = r.failed := by
  cases h
  exact ⟨rfl, rfl, rfl⟩

theorem loadRow_searching {n : Nat} (hopen : r.phase ≠ .closed) (hn : r.pending = n) (s : ω) :
    Searching c r s (loadRow c n r s) := by
  induction n generalizing r s with
  | zero => exact .none hn
  | succ n ih =>
    have hload := load_loading (c := c) hopen s
    have hpending : 0 < r.pending := by omega
    cases hstep : r.load c s with
    | mk outcome left =>
      obtain ⟨q, t⟩ := left
      rw [hstep] at hload
      cases outcome with
      | error f =>
        rw [loadRow_error hstep]
        exact .failed hpending hload
      | ok _ =>
        obtain ⟨hphase, hless, -⟩ := hload.of_ok
        by_cases hrows : 0 < q.count
        · rw [loadRow_rows hstep hrows]
          exact .row hpending hload hrows
        · rw [loadRow_empty hstep hrows]
          refine .more hpending hload (Nat.eq_zero_of_not_pos hrows) (ih ?_ (by omega) t)
          rw [hphase]
          exact fun h => (nomatch h)

/-- The ways to answer a request for a row. -/
inductive Asking (c : Channel ω κ ρ) (r : Run κ ρ) (s : ω) :
    Except Fault (Option Nat) × Run κ ρ × ω → Prop where
  | closed : r.phase = .closed → Asking c r s (.error (.operation .readClosed), r, s)
  | failed {stage : Stage} : r.phase ≠ .closed → r.failed = some stage →
      Asking c r s (.error (.whileReading (.storage (.afterFailure stage r.path))), r, s)
  | husk : r.phase ≠ .closed → r.failed = none → r.cursor.pointer < r.count →
      Asking c r s (.ok (some r.cursor.pointer),
        { r with cursor := { r.cursor with pointer := r.cursor.pointer + 1 } }, s)
  | search {left : Except Fault (Option Nat) × Run κ ρ × ω} : r.phase ≠ .closed →
      r.failed = none → r.count ≤ r.cursor.pointer → Searching c r s left → Asking c r s left

theorem next_asking (c : Channel ω κ ρ) (r : Run κ ρ) (s : ω) : Asking c r s (r.next c s) := by
  unfold next
  by_cases hclosed : r.phase = .closed
  · rw [if_pos (by rw [isClosed, hclosed]; rfl)]
    exact .closed hclosed
  · rw [if_neg (by rw [isClosed, beq_iff_eq]; exact hclosed)]
    cases hfailed : r.failed with
    | some stage => exact .failed hclosed hfailed
    | none =>
      dsimp only
      by_cases hpointer : r.cursor.pointer < r.count
      · have hrows : ¬r.cursor.batch.rows ≤ r.cursor.pointer := Nat.not_le.2 hpointer
        have hhusk := Asking.husk (c := c) (s := s) hclosed hfailed hpointer
        simp only [if_pos hpointer, Group.Cursor.next, Group.Cursor.advance, if_neg hrows]
        rwa [hfailed] at hhusk
      · rw [if_neg hpointer]
        exact .search hclosed hfailed (Nat.not_lt.1 hpointer) (loadRow_searching hclosed rfl s)

/-! ### Phases -/

theorem Preparing.rank {outcome : Except Fault ρ} {q : Run κ ρ} {t : ω}
    (h : Preparing c r s (outcome, q, t)) : r.phase.rank ≤ q.phase.rank ∧ q.phase ≠ .closed := by
  have hrested : ∀ {t}, Rested c r s t → r.phase.rank ≤ 1 := by
    intro t ht
    cases ht with
    | idle hmedium => rw [phase, hmedium]; exact Nat.le_refl 1
    | ended hmedium _ => rw [phase, hmedium]; exact Nat.zero_le 1
  cases h with
  | unfinished hmedium _ => exact ⟨by rw [phase, hmedium]; exact Nat.zero_le _, Phase.noConfusion⟩
  | unopened ht _ => exact ⟨hrested ht, Phase.noConfusion⟩
  | opened ht _ => exact ⟨Nat.le_succ_of_le (hrested ht), Phase.noConfusion⟩
  | «open» hmedium => exact ⟨by rw [phase, hmedium]; exact Nat.le_refl _, Phase.noConfusion⟩

theorem Loading.rank {outcome : Except Fault Unit} {q : Run κ ρ} {t : ω}
    (h : Loading c r s (outcome, q, t)) : r.phase.rank ≤ q.phase.rank ∧ q.phase ≠ .closed := by
  have hready : ∀ {source q t}, Preparing c r.hollow s (.ok source, q, t) → r.phase.rank ≤ 2 := by
    intro source q t h
    have hrank := h.rank.1
    rw [h.eq_of_ok] at hrank
    exact hrank
  cases h with
  | unready h => exact h.rank
  | unread h _ => exact ⟨hready h, fun h => (nomatch h)⟩
  | unshaped h _ _ => exact ⟨hready h, fun h => (nomatch h)⟩
  | loaded h _ _ => exact ⟨hready h, fun h => (nomatch h)⟩

theorem Searching.rank {left : Except Fault (Option Nat) × Run κ ρ × ω} (h : Searching c r s left)
    (hopen : r.phase ≠ .closed) : r.phase.rank ≤ left.2.1.phase.rank ∧ left.2.1.phase ≠ .closed := by
  induction h with
  | none => exact ⟨Nat.le_refl _, hopen⟩
  | failed _ hload => exact hload.rank
  | row _ hload _ => exact hload.rank
  | more _ hload _ _ ih =>
    obtain ⟨hrank, hnot⟩ := hload.rank
    obtain ⟨hlater, hlast⟩ := ih hnot
    exact ⟨Nat.le_trans hrank hlater, hlast⟩

theorem Phase.writing_of_rank_le {a b : Phase} (h : a.rank ≤ b.rank) (hb : b = .writing) :
    a = .writing := by
  subst hb
  cases a with
  | writing => rfl
  | idle | reading | closed => exact absurd h (by decide)

theorem Phase.closed_of_rank_le {a b : Phase} (h : a.rank ≤ b.rank) (ha : a = .closed) :
    b = .closed := by
  subst ha
  cases b with
  | closed => rfl
  | writing | idle | reading => exact absurd h (by decide)

/-- **A run never goes back to an earlier phase**, and only closing it closes it. -/
theorem rank_perform (c : Channel ω κ ρ) (r : Run κ ρ) (s : ω) (op : Operation) :
    r.phase.rank ≤ (perform c r s op).2.1.phase.rank ∧
      (op ≠ .close → r.phase ≠ .closed → (perform c r s op).2.1.phase ≠ .closed) := by
  cases op with
  | add b =>
    have hphase : (perform c r s (.add b)).2.1.phase = r.phase := phase_add r b s
    rw [hphase]
    exact ⟨Nat.le_refl _, fun _ h => h⟩
  | finish =>
    show _ ≤ (r.finish c s).2.1.phase.rank ∧ (_ → _ → (r.finish c s).2.1.phase ≠ _)
    by_cases hphase : r.phase = .writing
    · rw [phase_finish hphase, hphase]
      exact ⟨Nat.zero_le _, fun _ _ h => (nomatch h)⟩
    · rw [finish_of_phase_ne hphase]
      exact ⟨Nat.le_refl _, fun _ h => h⟩
  | next =>
    have hnext := next_asking c r s
    show _ ≤ (r.next c s).2.1.phase.rank ∧ (_ → _ → (r.next c s).2.1.phase ≠ _)
    generalize r.next c s = left at hnext ⊢
    cases hnext with
    | closed _ | failed _ _ | husk _ _ _ => exact ⟨Nat.le_refl _, fun _ h => h⟩
    | search hopen _ _ h => exact ⟨(h.rank hopen).1, fun _ _ => (h.rank hopen).2⟩
  | setSchema target =>
    rcases perform_setSchema (c := c) r s target with ⟨f, -, h⟩ | ⟨husk, -, h⟩ <;> rw [h] <;>
      exact ⟨Nat.le_refl _, fun _ h => h⟩
  | close =>
    refine ⟨?_, fun h => absurd rfl h⟩
    show _ ≤ (r.close c s).2.1.phase.rank
    unfold close
    split
    · exact Nat.le_refl _
    · show r.phase.rank ≤ 3
      cases r.phase <;> decide
  | advance count => exact ⟨Nat.le_refl _, fun _ h => h⟩
  | release => exact ⟨Nat.le_refl _, fun _ h => h⟩

end ExternalSort.Run
