/-
Writing that is ended, or ends itself.

Who asks a run for rows need not end the writing before: the first request does it.  A run
that is being written shows no row, so that request either loads a batch or finds that there
is none; and to load a batch the run closes its sink exactly as an explicit end would have
done.  So it makes no difference which way the writing ends as long as closing the sink
succeeds, or no batch is pending, or the run has failed before.

Where closing fails and batches are pending the two ways part.  A request that runs into the
failure spoils the run, and no row is ever given.  An explicit end reports the failure, but
leaves the run idle and sound, and whatever the file then yields is delivered.
-/
import ExternalSort.Proofs.Run.RoundTrip
import ExternalSort.Storage.Faulty

namespace ExternalSort.Run

open Storage

variable {ω κ ρ : Type} {c : Channel ω κ ρ} {r r' : Run κ ρ} {s s' : ω}

/-! ### Requests and nothing else -/

/-- What so many requests for rows are answered, up to the causes of failures. -/
def seen (c : Channel ω κ ρ) (n : Nat) (r : Run κ ρ) (s : ω) :
    List (Option (Option (Nat × Batch))) :=
  (asked c n r s).map Except.toOption

/-- A run that a request leaves as it was gives the same answer for ever. -/
theorem asked_still {answer : Except Fault (Option (Nat × Batch))}
    (h : r.nextRow c s = (answer, r, s)) (n : Nat) :
    asked c n r s = List.replicate n answer := by
  induction n with
  | zero => rfl
  | succ n ih => rw [asked_succ, h, ih, List.replicate_succ]

/-- A run that has failed answers nothing but faults. -/
theorem asked_failed {stage : Stage} (h : r.failed = some stage) (s : ω) (n : Nat) :
    ∃ f, asked c n r s = List.replicate n (.error f) := by
  obtain ⟨f, hnext⟩ := nextRow_failed (c := c) h s
  exact ⟨f, asked_still hnext n⟩

theorem seen_failed {stage : Stage} (h : r.failed = some stage) (s : ω) (n : Nat) :
    seen c n r s = List.replicate n none := by
  obtain ⟨f, hasked⟩ := asked_failed (c := c) h s n
  rw [seen, hasked, List.map_replicate]
  rfl

/-- A run that fails at once answers nothing but faults. -/
theorem asked_spoiled {f : Fault} {stage : Stage} (h : r.nextRow c s = (.error f, r', s'))
    (hfailed : r'.failed = some stage) (n : Nat) :
    ∀ answer ∈ asked c n r s, ∃ f, answer = .error f := by
  cases n with
  | zero => exact fun _ h => (nomatch h)
  | succ n =>
    obtain ⟨f', hasked⟩ := asked_failed (c := c) hfailed s' n
    rw [asked_succ, h, hasked]
    intro answer hanswer
    rcases List.mem_cons.1 hanswer with rfl | hanswer
    · exact ⟨f, rfl⟩
    · exact ⟨f', List.eq_of_mem_replicate hanswer⟩

theorem seen_of_errors {n : Nat} (h : ∀ answer ∈ asked c n r s, ∃ f, answer = .error f) :
    seen c n r s = List.replicate (asked c n r s).length none := by
  refine List.eq_replicate_iff.2 ⟨List.length_map .., ?_⟩
  intro x hx
  obtain ⟨answer, hanswer, rfl⟩ := List.mem_map.1 hx
  obtain ⟨f, rfl⟩ := h answer hanswer
  rfl

theorem length_asked (n : Nat) (r : Run κ ρ) (s : ω) : (asked c n r s).length = n := by
  induction n generalizing r s with
  | zero => rfl
  | succ n ih => rw [asked_succ, List.length_cons, ih]

/-! ### A run that is written shows no row -/

/-- While a run is written it shows no row. -/
def Unread (r : Run κ ρ) : Prop := r.phase = .writing → r.count = 0

theorem unread_of_phase (h : r.phase ≠ .writing) : Unread r := fun hphase => absurd hphase h

theorem finish_phase_ne (r : Run κ ρ) (s : ω) : (r.finish c s).2.1.phase ≠ .writing := by
  by_cases hphase : r.phase = .writing
  · rw [phase_finish hphase]
    exact fun h => (nomatch h)
  · unfold finish
    split
    · exact fun h => (nomatch h)
    · exact hphase

theorem prepare_phase_ne (r : Run κ ρ) (s : ω) : (r.prepare c s).2.1.phase ≠ .writing := by
  have hfinish := finish_phase_ne (c := c) r s
  unfold prepare
  split
  · rename_i h
    rwa [h] at hfinish
  · rename_i h
    rw [h] at hfinish
    split
    · split
      · exact hfinish
      · exact fun h => (nomatch h)
    · exact hfinish
    · exact hfinish

theorem medium_receive {b : Batch} (h : r.receive b = .ok r') : r'.medium = r.medium := by
  unfold receive at h
  split at h
  · exact nomatch h
  · dsimp only at h
    generalize Batch.transfer _ _ = moved at h
    cases moved with
    | error f => exact nomatch h
    | ok p =>
      obtain rfl := Except.ok.inj h
      rfl

theorem load_phase_ne (r : Run κ ρ) (s : ω) : (r.load c s).2.1.phase ≠ .writing := by
  have hprepare := prepare_phase_ne (c := c) r.hollow s
  unfold load
  split
  · rename_i h
    rwa [h] at hprepare
  · split
    · intro h
      cases h
    · dsimp only
      split
      · intro h
        cases h
      · rename_i hreceive
        rw [phase, medium_receive hreceive]
        intro h
        cases h

/-- A run that is still being written after loading has not been touched. -/
theorem loadRow_writing {n : Nat} {r : Run κ ρ} {s : ω}
    (h : (loadRow c n r s).2.1.phase = .writing) : (loadRow c n r s).2.1 = r := by
  induction n generalizing r s with
  | zero => rfl
  | succ n ih =>
    have hload := load_phase_ne (c := c) r s
    rw [loadRow] at h ⊢
    split at h
    · rename_i heq
      rw [heq] at hload
      exact absurd h hload
    · rename_i heq
      rw [heq] at hload
      split at h
      · exact absurd h hload
      · rename_i hrows
        have hsame := ih h
        rw [hsame] at h
        exact absurd h hload

theorem unread_next (h : Unread r) (s : ω) : Unread (r.next c s).2.1 := by
  unfold next
  split
  · exact h
  · split
    · exact h
    · split
      · rename_i hpointer
        refine unread_of_phase fun hphase => ?_
        rw [h hphase] at hpointer
        exact absurd hpointer (Nat.not_lt_zero _)
      · intro hphase
        have hsame := loadRow_writing hphase
        rw [hsame] at hphase ⊢
        exact h hphase

/-- No operation puts rows before a run that is being written. -/
theorem unread_perform (h : Unread r) (s : ω) (op : Operation) :
    Unread (perform c r s op).2.1 := by
  cases op with
  | add b =>
    show Unread (r.add c b s).2.1
    intro hphase
    rw [phase_add] at hphase
    have hexit := add_exit c r b s
    generalize r.add c b s = left at hexit ⊢
    cases hexit with
    | failed _ | phase _ _ | unwritten _ _ _ | unshaped _ _ _ _ => exact h hphase
    | taken _ _ _ hhusk => exact shows_shaped hhusk
  | finish => exact unread_of_phase (finish_phase_ne r s)
  | next => exact unread_next h s
  | setSchema target =>
    rcases perform_setSchema (c := c) r s target with ⟨f, -, hset⟩ | ⟨husk, hcoerce, hset⟩ <;>
      rw [hset]
    · exact h
    · exact fun hphase => (Batch.rows_coerce hcoerce).trans (h hphase)
  | close =>
    rcases perform_close (c := c) r s with ⟨-, hclose⟩ | hclose <;> rw [hclose]
    · exact h
    · exact unread_of_phase fun h => (nomatch h)
  | advance count =>
    show Unread { r with cursor := (r.cursor.advance count).2 }
    intro hphase
    exact (congrArg Batch.rows (r.cursor.batch_advance count)).trans (h hphase)
  | release => exact fun _ => rfl

theorem unread_performAll (ops : List Operation) (h : Unread r) (s : ω) :
    Unread (performAll c ops r s).2.1 := by
  induction ops generalizing r s with
  | nil => exact h
  | cons op ops ih => exact ih (unread_perform h s op) _

theorem unread_create {path : Path} {codec : Codec} {s₀ : ω}
    (h : create c path codec s₀ = (.ok r, s)) : Unread r := by
  obtain ⟨sink, rfl, -⟩ := create_eq_ok h
  exact fun _ => rfl

/-! ### Both ways close the sink alike -/

/-- Ending the writing does not look at the rows of the husk. -/
theorem finish_hollow (r : Run κ ρ) (s : ω) :
    r.hollow.finish c s = ((r.finish c s).1, (r.finish c s).2.1.hollow, (r.finish c s).2.2) := by
  obtain ⟨cursor, codec, path, pending, medium, failed⟩ := r
  cases medium <;> rfl

theorem finish_of_phase_ne (h : r.phase ≠ .writing) (s : ω) : r.finish c s = (.ok 0, r, s) := by
  obtain ⟨cursor, codec, path, pending, medium, failed⟩ := r
  cases medium with
  | writing sink => exact absurd rfl h
  | _ => rfl

/-- Where the writing was ended without a failure, loading goes on as it would have without
that. -/
theorem load_finish {n : Nat} (h : r.finish c s = (.ok n, r', s')) :
    r.load c s = r'.load c s' := by
  have hphase := finish_phase_ne (c := c) r s
  rw [h] at hphase
  have hprepare : r.hollow.prepare c s = r'.hollow.prepare c s' := by
    rw [prepare, prepare, finish_hollow, h, finish_of_phase_ne (r := r'.hollow) hphase]
  rw [load, load, hprepare]

/-- Where the writing cannot be ended, loading fails with that. -/
theorem load_unfinished {f : Fault} (h : r.finish c s = (.error f, r', s')) :
    r.load c s = (.error f, r'.hollow, s') := by
  have hprepare : r.hollow.prepare c s = (.error f, r'.hollow, s') := by
    rw [prepare, finish_hollow, h]
  rw [load, hprepare]

/-- A run that shows no row loads what is pending. -/
theorem nextRow_loads (hfailed : r.failed = none) (hopen : r.phase ≠ .closed)
    (hcount : r.count = 0) (s : ω) :
    r.nextRow c s = ((loadRow c r.pending r s).1.map
      (·.map (·, (loadRow c r.pending r s).2.1.cursor.batch)), (loadRow c r.pending r s).2) := by
  have hclosed : r.isClosed = false := by
    rw [isClosed, beq_eq_false_iff_ne]
    exact hopen
  unfold nextRow next
  rw [hclosed, hfailed, hcount]
  simp only [Bool.false_eq_true, if_false, Nat.not_lt_zero]

/-- Where nothing is pending there is no row, now or later. -/
theorem nextRow_over (hfailed : r.failed = none) (hopen : r.phase ≠ .closed)
    (hcount : r.count = 0) (hpending : r.pending = 0) (s : ω) :
    r.nextRow c s = (.ok none, r, s) := by
  rw [nextRow_loads hfailed hopen hcount, hpending]
  rfl

theorem failed_loadRow {f : Fault} {n : Nat} (h : (loadRow c n r s).1 = .error f) :
    (loadRow c n r s).2.1.failed = some .read := by
  induction n generalizing r s with
  | zero => cases h
  | succ n ih =>
    rw [loadRow] at h ⊢
    split at h
    · rfl
    · split at h
      · cases h
      · rename_i hrows
        rw [if_neg hrows]
        exact ih h

/-- A request that cannot be answered spoils the run. -/
theorem failed_nextRow (hfailed : r.failed = none) (hopen : r.phase ≠ .closed)
    (hcount : r.count = 0) {f : Fault} (h : (r.nextRow c s).1 = .error f) :
    (r.nextRow c s).2.1.failed = some .read := by
  rw [nextRow_loads hfailed hopen hcount] at h ⊢
  cases houtcome : (loadRow c r.pending r s).1 with
  | error f => exact failed_loadRow houtcome
  | ok row =>
    rw [houtcome] at h
    exact nomatch h

/-! ### Where the two ways part -/

/-- The second run is what the first, which was being written, is once its writing was
ended, whether that failed or not. -/
structure Ended (r r' : Run κ ρ) : Prop where
  failed : r'.failed = r.failed
  pending : r'.pending = r.pending
  count : r'.count = r.count
  phase : r'.phase = .idle

theorem Ended.open (h : Ended r r') : r'.phase ≠ .closed := by
  rw [h.phase]
  intro hclosed
  cases hclosed

theorem ended_finish (h : r.phase = .writing) (s : ω) : Ended r (r.finish c s).2.1 := by
  obtain ⟨sink, hmedium⟩ := phase_eq_writing_iff.1 h
  unfold finish
  rw [hmedium]
  exact ⟨rfl, rfl, rfl, rfl⟩

/-- A run with batches pending whose sink cannot be closed, and which answers a request all
the same once its writing was ended. -/
structure TrustsUnclosed (c : Channel ω κ ρ) (r : Run κ ρ) (s : ω) : Prop where
  healthy : r.failed = none
  pending : 0 < r.pending
  unclosed : ∃ f, (r.finish c s).1 = .error f
  trusts : ∃ row, ((r.finish c s).2.1.nextRow c (r.finish c s).2.2).1 = .ok row

section Ways

variable (hphase : r.phase = .writing) (hcount : r.count = 0) (hfailed : r.failed = none)

include hphase in
theorem open_of_writing : r.phase ≠ .closed := by
  rw [hphase]
  exact fun h => (nomatch h)

include hphase hcount hfailed

/-- Where the writing was ended without a failure, a request is answered as it would have
been without that. -/
theorem nextRow_finish (hpending : 0 < r.pending) {n : Nat}
    (hfinish : r.finish c s = (.ok n, r', s')) : r.nextRow c s = r'.nextRow c s' := by
  have hended := ended_finish (c := c) hphase s
  rw [hfinish] at hended
  obtain ⟨p, hp⟩ := Nat.exists_eq_succ_of_ne_zero (Nat.ne_of_gt hpending)
  have hloadRow : loadRow c r.pending r s = loadRow c r'.pending r' s' := by
    rw [hended.pending, hp, loadRow, loadRow, load_finish hfinish]
  rw [nextRow_loads hfailed (open_of_writing hphase) hcount,
    nextRow_loads (hended.failed.trans hfailed) hended.open (hended.count.trans hcount), hloadRow]

/-- Without an explicit end a sink that cannot be closed spoils the run. -/
theorem asked_unclosed (hpending : 0 < r.pending) {f : Fault}
    (hunclosed : (r.finish c s).1 = .error f) (n : Nat) :
    ∀ answer ∈ asked c n r s, ∃ f, answer = .error f := by
  obtain ⟨p, hp⟩ := Nat.exists_eq_succ_of_ne_zero (Nat.ne_of_gt hpending)
  have hnext := nextRow_loads (c := c) hfailed (open_of_writing hphase) hcount s
  rw [hp, loadRow_error (load_unfinished (Prod.ext hunclosed rfl))] at hnext
  exact asked_spoiled hnext rfl n

omit hfailed in
/-- The two ways are alike where no file is trusted that was not closed. -/
theorem seen_finish (h : ¬TrustsUnclosed c r s) (n : Nat) :
    seen c n r s = seen c n (r.finish c s).2.1 (r.finish c s).2.2 := by
  have hended := ended_finish (c := c) hphase s
  have hopen := hended.open
  cases hfailed : r.failed with
  | some stage => rw [seen_failed hfailed, seen_failed (hended.failed.trans hfailed)]
  | none =>
    have hfailed' := hended.failed.trans hfailed
    have hcount' := hended.count.trans hcount
    rcases Nat.eq_zero_or_pos r.pending with hpending | hpending
    · -- There is nothing to load, whatever became of the sink.
      have hover := nextRow_over (c := c) hfailed (open_of_writing hphase) hcount hpending s
      have hover' := nextRow_over (c := c) hfailed' hopen hcount' (hended.pending.trans hpending)
        (r.finish c s).2.2
      rw [seen, seen, asked_still hover, asked_still hover']
    · cases hfinish : (r.finish c s).1 with
      | ok k =>
        cases n with
        | zero => rfl
        | succ n =>
          rw [seen, seen, asked_succ, asked_succ,
            nextRow_finish hphase hcount hfailed hpending (Prod.ext hfinish rfl)]
      | error f =>
        cases hnext : ((r.finish c s).2.1.nextRow c (r.finish c s).2.2).1 with
        | ok row => exact absurd ⟨hfailed, hpending, ⟨f, hfinish⟩, row, hnext⟩ h
        | error f' =>
          have hspoiled := failed_nextRow hfailed' hopen hcount' hnext
          rw [seen_of_errors (asked_unclosed hphase hcount hfailed hpending hfinish n),
            seen_of_errors (asked_spoiled (Prod.ext hnext rfl) hspoiled n), length_asked,
            length_asked]

end Ways

/-- **An explicit end of the writing makes no difference, unless the sink cannot be closed
and the file is trusted all the same.**  For a run that is being written, whatever was asked
of it before and whatever its channel does: requests for rows are answered alike with and
without an explicit end before them, up to the causes of failures, except where the run has
not failed, batches are pending, the explicit end fails, and a request behind it is answered
with a row or with the end.  Without an explicit end a sink that cannot be closed costs
every row that was pending. -/
theorem ends_alike_iff {path : Path} {codec : Codec} {s₀ s₁ : ω} {r₀ : Run κ ρ}
    {answers : List Answer} (hcreate : create c path codec s₀ = (.ok r₀, s₁))
    {history : List Operation} (hhistory : performAll c history r₀ s₁ = (answers, r, s))
    (hphase : r.phase = .writing) :
    ((∀ n, seen c n r s = seen c n (r.finish c s).2.1 (r.finish c s).2.2) ↔
      ¬TrustsUnclosed c r s) ∧
    (r.failed = none → 0 < r.pending → (∃ f, (r.finish c s).1 = .error f) →
      ∀ n, ∀ answer ∈ asked c n r s, ∃ f, answer = .error f) := by
  have hunread := unread_performAll (c := c) history (unread_create hcreate) s₁
  rw [hhistory] at hunread
  have hcount : r.count = 0 := hunread hphase
  have hspoils : r.failed = none → 0 < r.pending → (∃ f, (r.finish c s).1 = .error f) →
      ∀ n, ∀ answer ∈ asked c n r s, ∃ f, answer = .error f := by
    rintro hfailed hpending ⟨f, hunclosed⟩ n
    exact asked_unclosed hphase hcount hfailed hpending hunclosed n
  refine ⟨⟨?_, seen_finish hphase hcount⟩, hspoils⟩
  rintro halike ⟨hfailed, hpending, hunclosed, row, htrusts⟩
  have hseen := halike 1
  rw [seen_of_errors (hspoils hfailed hpending hunclosed 1), length_asked, seen, asked_succ,
    htrusts] at hseen
  exact nomatch hseen

/-! ### A row from a file that was not closed -/

/-- A site with files that may be made to fail. -/
abbrev brittle : Channel (Faulty Site) FileSink FileSource := Faulty.channel Site.channel

/-- A site where closing a sink fails. -/
def unclosable : Faulty Site := ⟨blank, ⟨[.closeSink], false, none, none, none⟩, []⟩

/-- A run there takes the pair; its explicit end fails, and a request behind it does not. -/
theorem pair_unclosed : ∃ r₀ s₁ answers r s,
    create brittle ⟨[97]⟩ ⟨.none⟩ unclosable = (.ok r₀, s₁) ∧
    performAll brittle [.add pair] r₀ s₁ = (answers, r, s) ∧
    r.phase = .writing ∧ r.failed = none ∧ r.pending = 1 ∧
    (r.finish brittle s).1 = .error (.io (.described .other "output close failed")) ∧
    ((r.finish brittle s).2.1.nextRow brittle (r.finish brittle s).2.2).1
      = .ok (some (0, pair)) := by
  obtain ⟨r₀, s₁, hcreate, hleft⟩ : ∃ r₀ s₁,
      create brittle ⟨[97]⟩ ⟨.none⟩ unclosable = (.ok r₀, s₁) ∧
      let left := (performAll brittle [.add pair] r₀ s₁).2
      let finished := left.1.finish brittle left.2
      left.1.phase = .writing ∧ left.1.failed = none ∧ left.1.pending = 1 ∧
        finished.1 = .error (.io (.described .other "output close failed")) ∧
        (finished.2.1.nextRow brittle finished.2.2).1 = .ok (some (0, pair)) := by
    refine ⟨_, _, rfl, ?_⟩
    decide +kernel
  exact ⟨r₀, s₁, (performAll brittle [.add pair] r₀ s₁).1,
    (performAll brittle [.add pair] r₀ s₁).2.1, (performAll brittle [.add pair] r₀ s₁).2.2,
    hcreate, rfl, hleft⟩

theorem unclosed_pair_parts_the_ways : ∃ r₀ s₁ answers r s,
    create brittle ⟨[97]⟩ ⟨.none⟩ unclosable = (.ok r₀, s₁) ∧
    performAll brittle [.add pair] r₀ s₁ = (answers, r, s) ∧ r.phase = .writing ∧
    (¬∀ n, seen brittle n r s
      = seen brittle n (r.finish brittle s).2.1 (r.finish brittle s).2.2) ∧
    ∀ n, ∀ answer ∈ asked brittle n r s, ∃ f, answer = .error f := by
  obtain ⟨r₀, s₁, answers, r, s, hcreate, hhistory, hphase, hhealthy, hpending, hunclosed, hnext⟩ :=
    pair_unclosed
  obtain ⟨halike, hspoils⟩ := ends_alike_iff hcreate hhistory hphase
  have hpositive : 0 < r.pending := hpending ▸ Nat.one_pos
  refine ⟨r₀, s₁, answers, r, s, hcreate, hhistory, hphase, ?_,
    hspoils hhealthy hpositive ⟨_, hunclosed⟩⟩
  rw [halike]
  exact not_not_intro ⟨hhealthy, hpositive, ⟨_, hunclosed⟩, _, hnext⟩

/-- **The explicit end fails, and the pair is delivered**, which is lost where the writing
ends itself. -/
theorem unclosed_pair_is_delivered : ∃ r₀ s₁ answers r s,
    create brittle ⟨[97]⟩ ⟨.none⟩ unclosable = (.ok r₀, s₁) ∧
    performAll brittle [.add pair] r₀ s₁ = (answers, r, s) ∧ r.phase = .writing ∧
    0 < r.pending ∧ (∃ f, (r.finish brittle s).1 = .error f) ∧
    seen brittle 1 r s = [none] ∧
    seen brittle 1 (r.finish brittle s).2.1 (r.finish brittle s).2.2
      = [some (some (0, pair))] := by
  obtain ⟨r₀, s₁, answers, r, s, hcreate, hhistory, hphase, hhealthy, hpending, hunclosed, hnext⟩ :=
    pair_unclosed
  have hunread := unread_performAll (c := brittle) [.add pair] (unread_create hcreate) s₁
  rw [hhistory] at hunread
  have hpositive : 0 < r.pending := hpending ▸ Nat.one_pos
  have hlost := asked_unclosed hphase (hunread hphase) hhealthy hpositive hunclosed 1
  refine ⟨r₀, s₁, answers, r, s, hcreate, hhistory, hphase, hpositive, ⟨_, hunclosed⟩, ?_, ?_⟩
  · rw [seen_of_errors hlost, length_asked]
    rfl
  · rw [seen, asked_succ, hnext]
    rfl

end ExternalSort.Run
