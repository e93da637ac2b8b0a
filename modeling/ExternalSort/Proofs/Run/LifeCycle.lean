/-
The life cycle of a run.

A run goes forward through its phases, opens its file once to write and at most once to
read, and knows at every time how many of its batches are still in the file.  Where it
fails it says so to the end: no request makes it whole again, and those for rows and for
more batches do not even reach the channel.  All this holds on every channel, whatever of
it fails.

What one request does is `Step`; a life is a row of them.
-/
import ExternalSort.Proofs.Fault.First
import ExternalSort.Proofs.Run.Ledger

namespace ExternalSort.Run

open Storage

variable {ω κ ρ : Type} {c : Channel ω κ ρ}

/-- The failure that an answer reports. -/
def Answer.fault? : Answer → Option Fault
  | .done (.error f) | .count (.error f) | .row (.error f) => some f
  | _ => none

/-! ### One request -/

/-- How often a request opens files. -/
structure Opens (q : Request κ ρ) (after : Run κ ρ) : Prop where
  output : (calls q.events).count .openOutput = 0
  input : (calls q.events).count .openInput ≤ 1
  late : q.before.failed ≠ none ∨ 2 ≤ q.before.phase.rank → (calls q.events).count .openInput = 0
  unopened : after.failed = none → after.phase.rank ≤ 1 → (calls q.events).count .openInput = 0

/-- What passes between a run and its streams by a request: what is pending is counted right,
what is appended can be written, and unless the run failed there were whole frames and nothing
else. -/
structure Passes (q : Request κ ρ) (after : Run κ ρ) : Prop where
  pending : after.phase ≠ .closed →
    after.pending + q.loaded.length = q.before.pending + q.appended.length
  writable : ∀ b ∈ q.appended, Frame.Writable q.before.codec b
  written : after.failed = none → taken q.events = frames q.before.codec q.appended
  whole : ∃ parts : List Bytes, (∀ g ∈ parts, IsFrame q.before.codec g) ∧
    parts.length = q.loaded.length ∧ (after.failed = none → given q.events = parts.flatten)

/-- What a request does.  If the channel is fair, no answer lays a failure to the library. -/
structure Step (c : Channel ω κ ρ) (q : Request κ ρ) (after : Run κ ρ) : Prop where
  opens : Opens q after
  passes : Passes q after
  facing : c.Fair → ∀ f, q.answer.fault? = some f → f.isUserFacing
  reading : q.op = .next → q.before.phase ≠ .closed → ∀ f, q.answer.fault? = some f →
    ∃ cause, f = .whileReading cause ∧ (c.Fair → cause.isUserFacing)

theorem Opens.quiet {q : Request κ ρ} {after : Run κ ρ}
    (houtput : (calls q.events).count .openOutput = 0)
    (hinput : (calls q.events).count .openInput = 0) : Opens q after where
  output := houtput
  input := hinput ▸ Nat.zero_le 1
  late _ := hinput
  unopened _ _ := hinput

theorem Passes.quiet {q : Request κ ρ} {after : Run κ ρ} (htaken : taken q.events = [])
    (hgiven : given q.events = [])
    (hpending : after.phase ≠ .closed → after.pending = q.before.pending) : Passes q after := by
  have hloaded : q.loaded = [] := by rw [Request.loaded, hgiven, loadedFrom_nil]
  have happended : q.appended = [] := by
    unfold Request.appended
    split
    · rw [htaken, if_neg (Frame.ofBatch_ne_nil _ _).symm]
    · rfl
  constructor
  case pending =>
    intro hopen
    rw [hloaded, happended, hpending hopen]
  case writable =>
    rw [happended]
    exact fun _ h => (nomatch h)
  case written =>
    intro _
    rw [happended]
    exact htaken
  case whole =>
    refine ⟨[], fun _ h => (nomatch h), ?_, fun _ => hgiven⟩
    rw [hloaded]
    rfl

/-- A request that leads to nothing. -/
theorem Step.silent {q : Request κ ρ} {after : Run κ ρ} (hevents : q.events = [])
    (hpending : after.phase ≠ .closed → after.pending = q.before.pending)
    (hfacing : c.Fair → ∀ f, q.answer.fault? = some f → f.isUserFacing)
    (hreading : q.op = .next → q.before.phase ≠ .closed → ∀ f, q.answer.fault? = some f →
      ∃ cause, f = .whileReading cause ∧ (c.Fair → cause.isUserFacing)) : Step c q after where
  opens := .quiet (by rw [hevents]; rfl) (by rw [hevents]; rfl)
  passes := .quiet (by rw [hevents]; rfl) (by rw [hevents]; rfl) hpending
  facing := hfacing
  reading := hreading

theorem facing_done {outcome : Except Fault Unit} (h : Facing outcome) :
    ∀ f, (Answer.done outcome).fault? = some f → f.isUserFacing := by
  intro f hf
  cases outcome with
  | ok _ => exact nomatch hf
  | error f' =>
    obtain rfl := Option.some.inj hf
    exact h f' rfl

/-- A batch that does not have the shape of the run is no fault of the library. -/
theorem facing_shaped (r : Run κ ρ) (b : Batch) : Facing (r.shaped b) := by
  intro f h
  obtain ⟨target, -, hcoerce⟩ := shaped_eq_error h
  exact Batch.isUserFacing_of_coerce hcoerce

section Adding

variable {r after : Run κ ρ} {b : Batch} {sink sink' : κ} {x : Watched ω} {answer : Answer}
  {writes : List Event}

/-- A batch whose frame was written is one more that is pending. -/
theorem Passes.appended (hwrites : ∀ e ∈ writes, e.IsWrite) (hw : Frame.Writable r.codec b)
    (htaken : taken writes = Frame.ofBatch r.codec b) (hpending : after.pending = r.pending + 1) :
    Passes ⟨r, .add b, answer, writes⟩ after := by
  have hone : Request.appended ⟨r, .add b, answer, writes⟩ = [b] := if_pos htaken
  have hnone : Request.loaded ⟨r, .add b, answer, writes⟩ = [] := by
    rw [Request.loaded, given_writes hwrites, loadedFrom_nil]
  constructor
  case pending =>
    rw [hone, hnone, hpending]
    exact fun _ => rfl
  case writable =>
    rw [hone]
    exact List.forall_mem_singleton.2 hw
  case written =>
    rw [hone, htaken]
    exact fun _ => (List.append_nil _).symm
  case whole =>
    refine ⟨[], fun _ h => (nomatch h), ?_, fun _ => given_writes hwrites⟩
    rw [hnone]
    rfl

/-- A batch whose frame was not written whole is none. -/
theorem Passes.unwritten (hwrites : ∀ e ∈ writes, e.IsWrite)
    (htaken : taken writes ≠ Frame.ofBatch r.codec b) (hpending : after.pending = r.pending)
    (hfailed : after.failed = some .write) : Passes ⟨r, .add b, answer, writes⟩ after := by
  have hone : Request.appended ⟨r, .add b, answer, writes⟩ = [] := if_neg htaken
  have hnone : Request.loaded ⟨r, .add b, answer, writes⟩ = [] := by
    rw [Request.loaded, given_writes hwrites, loadedFrom_nil]
  constructor
  case pending =>
    rw [hone, hnone, hpending]
    exact fun _ => rfl
  case writable =>
    rw [hone]
    exact fun _ h => (nomatch h)
  case written =>
    rw [hfailed]
    exact fun h => (nomatch h)
  case whole =>
    refine ⟨[], fun _ h => (nomatch h), ?_, fun _ => given_writes hwrites⟩
    rw [hnone]
    rfl

end Adding

theorem step_add (r : Run κ ρ) (b : Batch) (s : ω) :
    let left := r.add (Watched.channel c) b ⟨s, []⟩
    Step c ⟨r, .add b, .done left.1, left.2.2.events⟩ left.2.1 := by
  intro left
  have hexit := add_exit (Watched.channel c) r b ⟨s, []⟩
  have hopens : ∀ {writes : List Event} {answer : Answer} {after : Run κ ρ},
      (∀ e ∈ writes, e.IsWrite) → Opens ⟨r, .add b, answer, writes⟩ after := by
    intro writes answer after hwrites
    refine .quiet ?_ ?_ <;> rw [calls_writes hwrites] <;> rfl
  change Exit _ r b _ left at hexit
  clear_value left
  cases hexit with
  | failed _ => exact .silent rfl (fun _ => rfl) (fun _ => facing_done (facing_error rfl)) nofun
  | phase _ _ => exact .silent rfl (fun _ => rfl) (fun _ => facing_done (facing_error rfl)) nofun
  | @unwritten sink sink' s' f hnone hmedium hwrite =>
    obtain ⟨writes, hevents, hwrites, hend⟩ := Watched.write_frame c r.codec b sink ⟨s, []⟩
    rw [hwrite] at hevents hend
    obtain rfl : s'.events = writes := hevents
    rcases hend with ⟨hf, -⟩ | ⟨f', hf, hfacing, htaken⟩
    · exact nomatch hf
    · obtain rfl := Except.error.inj hf
      exact ⟨hopens hwrites, .unwritten hwrites htaken rfl rfl,
        fun _ => facing_done (facing_error hfacing), nofun⟩
  | @unshaped sink sink' s' n f hnone hmedium hwrite hshape =>
    obtain ⟨writes, hevents, hwrites, hend⟩ := Watched.write_frame c r.codec b sink ⟨s, []⟩
    rw [hwrite] at hevents hend
    obtain rfl : s'.events = writes := hevents
    rcases hend with ⟨-, htaken⟩ | ⟨f', hf, -⟩
    · exact ⟨hopens hwrites, .appended hwrites (Frame.writable_of_write hwrite) htaken rfl,
        fun _ => facing_done (facing_error (facing_shaped r _ f hshape)), nofun⟩
    · exact nomatch hf
  | @taken sink sink' s' n husk hnone hmedium hwrite hshape =>
    obtain ⟨writes, hevents, hwrites, hend⟩ := Watched.write_frame c r.codec b sink ⟨s, []⟩
    rw [hwrite] at hevents hend
    obtain rfl : s'.events = writes := hevents
    rcases hend with ⟨-, htaken⟩ | ⟨f', hf, -⟩
    · exact ⟨hopens hwrites, .appended hwrites (Frame.writable_of_write hwrite) htaken rfl,
        fun _ => facing_done (facing_ok ()), nofun⟩
    · exact nomatch hf

theorem step_finish (r : Run κ ρ) (s : ω) :
    let left := r.finish (Watched.channel c) ⟨s, []⟩
    Step c ⟨r, .finish, .count left.1, left.2.2.events⟩ left.2.1 := by
  obtain ⟨cursor, codec, path, pending, medium, failed⟩ := r
  cases medium with
  | idle | reading _ | closed => exact .silent rfl (fun _ => rfl) (fun _ f h => (nomatch h)) nofun
  | writing sink =>
    refine ⟨.quiet rfl rfl, .quiet rfl rfl fun _ => rfl, ?_, nofun⟩
    intro hfair f hf
    refine hfair.closeSink sink (c.tallyWrite (c.written sink) s) f ?_
    change Answer.fault? (.count ((c.closeSink sink (c.tallyWrite (c.written sink) s)).1.map _))
      = some f at hf
    generalize (c.closeSink sink _).1 = outcome at hf ⊢
    cases outcome with
    | ok _ => exact nomatch hf
    | error f' => rw [Option.some.inj hf]

theorem step_next (hbound : c.source.Bounded) (r : Run κ ρ) (s : ω) :
    let left := r.nextRow (Watched.channel c) ⟨s, []⟩
    Step c ⟨r, .next, .row left.1, left.2.2.events⟩ left.2.1 := by
  have hasking := next_asking (Watched.channel c) r ⟨s, []⟩
  unfold nextRow
  generalize r.next (Watched.channel c) ⟨s, []⟩ = left at hasking ⊢
  cases hasking with
  | closed hclosed =>
    refine .silent rfl (fun _ => rfl) (fun _ f hf => ?_) fun _ hopen => absurd hclosed hopen
    obtain rfl := Option.some.inj hf
    rfl
  | failed _ _ =>
    refine .silent rfl (fun _ => rfl) (fun _ f hf => ?_) fun _ _ f hf => ?_
    · obtain rfl := Option.some.inj hf
      rfl
    · exact ⟨_, (Option.some.inj hf).symm, fun _ => rfl⟩
  | husk _ _ _ =>
    exact .silent rfl (fun _ => rfl) (fun _ f h => (nomatch h)) fun _ _ f h => (nomatch h)
  | search hopen hhealthy _ h =>
    obtain ⟨more, hevents, hsearch, hfaults⟩ := h.search hbound hopen
    obtain ⟨outcome, q, y⟩ := left
    obtain rfl : y.events = more := hevents
    refine ⟨⟨hsearch.opening.output, hsearch.opening.once, ?_, hsearch.unopened⟩,
      ⟨fun _ => hsearch.pending, fun _ h => (nomatch h), fun _ => hsearch.opening.taken,
        hsearch.whole⟩, ?_, ?_⟩
    · rintro (hfailed | hrank)
      · exact absurd hhealthy hfailed
      · refine hsearch.opening.reading ?_
        change 2 ≤ r.phase.rank at hrank
        cases hphase : r.phase with
        | reading => rfl
        | closed => exact absurd hphase hopen
        | writing | idle =>
          rw [hphase] at hrank
          exact absurd hrank (by decide)
    · intro _ f hf
      cases outcome with
      | ok row => exact nomatch hf
      | error f' =>
        obtain ⟨cause, rfl, -⟩ := hfaults f' rfl
        obtain rfl := Option.some.inj hf
        rfl
    · intro _ _ f hf
      cases outcome with
      | ok row => exact nomatch hf
      | error f' =>
        obtain rfl := Option.some.inj hf
        exact hfaults f' rfl

/-- The steps of closing a run, with what they come to. -/
def closingSteps (c : Channel ω κ ρ) (r : Run κ ρ) (s : ω) : List Fault.First.Step :=
  match r.medium with
  | .writing sink =>
    let (outcome, s) := retireSink c sink s
    [⟨ClosingStep.closeSink.name, outcome⟩, ⟨ClosingStep.deleteFile.name, (c.delete r.path s).1⟩]
  | .idle => [⟨ClosingStep.deleteFile.name, (c.delete r.path s).1⟩]
  | .reading source =>
    let (outcome, s) := retireSource c source s
    [⟨ClosingStep.closeSource.name, outcome⟩, ⟨ClosingStep.deleteFile.name, (c.delete r.path s).1⟩]
  | .closed => []

/-- Closing comes to what its steps come to, all of them recorded. -/
theorem close_recorded (c : Channel ω κ ρ) (r : Run κ ρ) (s : ω) :
    (r.close c s).1 = (Fault.First.empty.recordAll (closingSteps c r s)).result := by
  obtain ⟨cursor, codec, path, pending, medium, failed⟩ := r
  cases medium <;> rfl

/-- The first of failures none of which is a fault of the library is none. -/
theorem facing_recordAll {steps : List Fault.First.Step} (h : ∀ x ∈ steps, Facing x.outcome) :
    Facing (Fault.First.empty.recordAll steps).result := by
  intro f hf
  obtain ⟨x, hx, hfailed⟩ := Fault.First.exists_of_result hf
  exact h x hx f hfailed

theorem facing_close (hfair : c.Fair) (r : Run κ ρ) (s : ω) : Facing (r.close c s).1 := by
  rw [close_recorded]
  refine facing_recordAll ?_
  obtain ⟨cursor, codec, path, pending, medium, failed⟩ := r
  cases medium with
  | writing sink =>
    exact List.forall_mem_cons.2
      ⟨hfair.closeSink _ _, List.forall_mem_singleton.2 (hfair.delete _ _)⟩
  | idle => exact List.forall_mem_singleton.2 (hfair.delete _ _)
  | reading source =>
    exact List.forall_mem_cons.2
      ⟨hfair.closeSource _ _, List.forall_mem_singleton.2 (hfair.delete _ _)⟩
  | closed => exact fun x hx => nomatch hx

theorem step_close (r : Run κ ρ) (s : ω) :
    let left := r.close (Watched.channel c) ⟨s, []⟩
    Step c ⟨r, .close, .done left.1, left.2.2.events⟩ left.2.1 := by
  have hfacing := fun hfair : c.Fair => facing_done (facing_close (Watched.fair hfair) r ⟨s, []⟩)
  obtain ⟨cursor, codec, path, pending, medium, failed⟩ := r
  cases medium with
  | closed => exact .silent rfl (fun _ => rfl) hfacing nofun
  | idle | writing _ | reading _ =>
    exact ⟨.quiet rfl rfl, .quiet rfl rfl fun h => absurd rfl h, hfacing, nofun⟩

/-- What any request does. -/
theorem step_perform (hbound : c.source.Bounded) (r : Run κ ρ) (s : ω) (op : Operation) :
    Step c ⟨r, op, (perform c r s op).1, led c r s op⟩ (perform c r s op).2.1 := by
  have hwatched := perform_watched (c := c) r ⟨s, []⟩ op
  have hanswer : (perform (Watched.channel c) r ⟨s, []⟩ op).1 = (perform c r s op).1 := by
    rw [hwatched]
  have hafter : (perform (Watched.channel c) r ⟨s, []⟩ op).2.1 = (perform c r s op).2.1 := by
    rw [hwatched]
  rw [← hanswer, ← hafter, led]
  cases op with
  | add b => exact step_add r b s
  | finish => exact step_finish r s
  | next => exact step_next hbound r s
  | close => exact step_close r s
  | advance _ | release => exact .silent rfl (fun _ => rfl) (fun _ f h => (nomatch h)) nofun
  | setSchema target =>
    rcases perform_setSchema (c := Watched.channel c) r ⟨s, []⟩ target with
      ⟨f, hcoerce, h⟩ | ⟨husk, -, h⟩
    · rw [h]
      exact .silent rfl (fun _ => rfl)
        (fun _ => facing_done (facing_error (Batch.isUserFacing_of_coerce hcoerce))) nofun
    · rw [h]
      exact .silent rfl (fun _ => rfl) (fun _ f h => (nomatch h)) nofun

/-! ### A whole life -/

/-- A request for a row or for another batch does not reach the channel of a run that has
failed. -/
theorem perform_failed {r : Run κ ρ} {stage : Stage} (h : r.failed = some stage) (s : ω) :
    (∀ b, perform c r s (.add b)
        = (.done (.error (.operation (.addAfterFailure stage r.path))), r, s) ∧
      led c r s (.add b) = []) ∧
    (∃ f, perform c r s .next = (.row (.error f), r, s)) ∧ led c r s .next = [] := by
  have hadd : ∀ {ω : Type} (d : Channel ω κ ρ) (s : ω) (b : Batch),
      r.add d b s = (.error (.operation (.addAfterFailure stage r.path)), r, s) := by
    intro ω d s b
    unfold add
    rw [h]
  refine ⟨fun b => ⟨?_, ?_⟩, ?_, ?_⟩
  · rw [perform, hadd]
  · rw [led, perform, hadd]
  · obtain ⟨f, hnext⟩ := nextRow_failed (c := c) h s
    exact ⟨f, by rw [perform_next, hnext]⟩
  · obtain ⟨f, hnext⟩ := nextRow_failed (c := Watched.channel c) h ⟨s, []⟩
    rw [led, perform_next, hnext]

theorem refused_perform {r : Run κ ρ} (h : r.failed.isSome) (s : ω) (op : Operation) :
    (∀ b, op = .add b → (∃ cause, (perform c r s op).1 = .done (.error (.operation cause))) ∧
      led c r s op = []) ∧
    (op = .next → (∃ f, (perform c r s op).1 = .row (.error f)) ∧ led c r s op = []) := by
  obtain ⟨stage, hstage⟩ := Option.isSome_iff_exists.1 h
  obtain ⟨hadd, ⟨f, hnext⟩, hnothing⟩ := perform_failed (c := c) hstage s
  constructor
  · rintro b rfl
    exact ⟨⟨_, by rw [(hadd b).1]⟩, (hadd b).2⟩
  · rintro rfl
    exact ⟨⟨f, by rw [hnext]⟩, hnothing⟩

/-- What is so of the life of a run, whatever happened to it. -/
structure LifeCycle (l : Life κ ρ) : Prop where
  /-- The run only goes forward through its phases. -/
  forward : l.stations.Pairwise fun r r' => r.phase.rank ≤ r'.phase.rank
  /-- Its file is opened once to be written. -/
  output : (calls l.events).count .openOutput = 1
  /-- Its file is opened at most once to be read. -/
  input : (calls l.events).count .openInput ≤ 1
  /-- Until it is closed, those batches are pending that were written whole and not loaded. -/
  pending : l.run.phase ≠ .closed → l.run.pending + l.loaded.length = l.appended.length
  /-- No answer lays a failure to the library. -/
  facing : ∀ q ∈ l.requests, ∀ f, q.answer.fault? = some f → f.isUserFacing
  /-- A request for a row that fails says that reading failed, unless the run is closed. -/
  reading : ∀ q ∈ l.requests, q.op = .next → q.before.phase ≠ .closed →
    ∀ f, q.answer.fault? = some f → ∃ cause, f = .whileReading cause ∧ cause.isUserFacing
  /-- A run that has failed stays so. -/
  spoiled : l.stations.Pairwise fun r r' => r.failed.isSome → r'.failed = r.failed
  /-- A run that has failed refuses batches and requests for rows without a call. -/
  refused : ∀ q ∈ l.requests, q.before.failed.isSome →
    (∀ b, q.op = .add b → (∃ cause, q.answer = .done (.error (.operation cause))) ∧ q.events = []) ∧
    (q.op = .next → (∃ f, q.answer = .row (.error f)) ∧ q.events = [])

theorem stations_ask (l : Life κ ρ) (s : ω) (op : Operation) :
    (l.ask c s op).1.stations = l.stations ++ [(perform c l.run s op).2.1] := by
  rw [Life.ask_eq, Life.stations, Life.stations, List.map_append]
  rfl

theorem appended_ask (l : Life κ ρ) (s : ω) (op : Operation) :
    (l.ask c s op).1.appended = l.appended ++
      Request.appended ⟨l.run, op, (perform c l.run s op).1, led c l.run s op⟩ := by
  rw [Life.ask_eq, Life.appended, List.flatMap_append, List.flatMap_singleton]
  rfl

theorem loaded_ask (l : Life κ ρ) (s : ω) (op : Operation) :
    (l.ask c s op).1.loaded = l.loaded ++
      Request.loaded ⟨l.run, op, (perform c l.run s op).1, led c l.run s op⟩ := by
  rw [Life.ask_eq, Life.loaded, List.flatMap_append, List.flatMap_singleton]
  rfl

/-- What is kept from each to the next is kept from any to a later one. -/
theorem pairwise_concat {α : Type} {R : α → α → Prop} (htrans : ∀ {a b d}, R a b → R b d → R a d)
    {xs : List α} {x y : α} (h : (xs ++ [x]).Pairwise R) (hxy : R x y) :
    (xs ++ [x] ++ [y]).Pairwise R := by
  refine List.pairwise_append.2 ⟨h, List.pairwise_singleton .., ?_⟩
  intro a ha b hb
  obtain rfl := List.mem_singleton.1 hb
  obtain ⟨-, -, hbefore⟩ := List.pairwise_append.1 h
  rcases List.mem_append.1 ha with ha | ha
  · exact htrans (hbefore a ha x (List.mem_singleton_self x)) hxy
  · obtain rfl := List.mem_singleton.1 ha
    exact hxy

/-- A life as it should be, where the file was not opened to be read before the run is past
being idle or has failed. -/
structure Ordered (l : Life κ ρ) : Prop extends LifeCycle l where
  unopened : l.run.failed = none → l.run.phase.rank ≤ 1 → (calls l.events).count .openInput = 0

theorem ordered_ask (hfair : c.Fair) {l : Life κ ρ} (h : Ordered l) (s : ω) (op : Operation) :
    Ordered (l.ask c s op).1 := by
  have hstep := step_perform hfair.source l.run s op
  have hrank := (rank_perform c l.run s op).1
  have hspoiled : l.run.failed.isSome → (perform c l.run s op).2.1.failed = l.run.failed := by
    intro hfailed
    obtain ⟨stage, hstage⟩ := Option.isSome_iff_exists.1 hfailed
    rw [failed_perform hstage, hstage]
  -- A file that was opened to be read is not opened again.
  have hinput : (calls l.events).count .openInput = 0 ∨
      (calls (led c l.run s op)).count .openInput = 0 := by
    by_cases hlate : l.run.failed ≠ none ∨ 2 ≤ l.run.phase.rank
    · exact .inr (hstep.opens.late hlate)
    · obtain ⟨hhealthy, hearly⟩ := not_or.1 hlate
      exact .inl (h.unopened (Decidable.not_not.1 hhealthy) (by omega))
  have honce := h.input
  have hagain : (calls (led c l.run s op)).count .openInput ≤ 1 := hstep.opens.input
  constructor
  case unopened =>
    rw [Life.run_ask, Life.count_calls_ask]
    intro hhealthy hearly
    rw [h.unopened (healthy_of_perform hhealthy) (Nat.le_trans hrank hearly),
      hstep.opens.unopened hhealthy hearly]
  case toLifeCycle =>
    constructor
    case forward =>
      rw [stations_ask]
      refine pairwise_concat ?_ h.forward hrank
      exact fun h h' => Nat.le_trans h h'
    case spoiled =>
      rw [stations_ask]
      refine pairwise_concat ?_ h.spoiled hspoiled
      intro a b d hab hbd hfailed
      have hb := hab hfailed
      rw [hbd (by rw [hb]; exact hfailed), hb]
    case output =>
      rw [Life.count_calls_ask, h.output, hstep.opens.output]
    case input =>
      rw [Life.count_calls_ask]
      omega
    case pending =>
      rw [Life.run_ask]
      intro hopen
      have hcount := h.pending fun hclosed => hopen (Phase.closed_of_rank_le hrank hclosed)
      have hpasses := hstep.passes.pending hopen
      rw [loaded_ask, appended_ask, List.length_append, List.length_append]
      dsimp only at hpasses
      omega
    case facing => exact Life.forall_requests_ask h.facing (hstep.facing hfair)
    case reading =>
      refine Life.forall_requests_ask h.reading ?_
      intro hop hopen f hf
      obtain ⟨cause, hcause, hfacing⟩ := hstep.reading hop hopen f hf
      exact ⟨cause, hcause, hfacing hfair⟩
    case refused =>
      exact Life.forall_requests_ask h.refused fun hfailed => refused_perform hfailed s op

/-- **A run goes through its life in order.**  Whatever is asked of it, in any order, and
whatever fails of its channel: it only goes forward through its phases; its file is opened
once to be written and at most once to be read; until it is closed, those batches are pending
that were written whole and not loaded; no answer lays a failure to the library, and a request
for a row that fails says that reading failed; and once the run has failed it stays so and
refuses batches and requests for rows without a call. -/
theorem life_in_order (hfair : c.Fair) {path : Path} {codec : Codec} {s₀ s₁ : ω} {l₀ : Life κ ρ}
    (hbegin : Life.begin c path codec s₀ = (.ok l₀, s₁)) (ops : List Operation) :
    LifeCycle (l₀.askAll c ops s₁).1 := by
  have hordered : Ordered l₀ := by
    obtain ⟨sink, -, rfl⟩ := Life.begin_eq_ok hbegin
    exact {
      forward := List.pairwise_singleton ..
      output := rfl
      input := Nat.zero_le 1
      pending := fun _ => rfl
      facing := fun q hq => (nomatch hq)
      reading := fun q hq => (nomatch hq)
      spoiled := List.pairwise_singleton ..
      refused := fun q hq => (nomatch hq)
      unopened := fun _ _ => rfl }
  exact (Life.askAll_induction (P := fun l _ => Ordered l)
    (fun _ s op h => ordered_ask hfair h s op) ops hordered).toLifeCycle

theorem brittle_fair : brittle.Fair := Faulty.fair Site.fair

/-- The pair is written and loaded where a sink cannot be closed. -/
theorem unclosable_pair_in_order : ∃ l₀ s₁, brittle.Fair ∧
    Life.begin brittle ⟨[97]⟩ ⟨.none⟩ unclosable = (.ok l₀, s₁) ∧
    LifeCycle (l₀.askAll brittle [.add pair, .finish, .next] s₁).1 ∧
    (l₀.askAll brittle [.add pair, .finish, .next] s₁).1.run.pending = 0 ∧
    (l₀.askAll brittle [.add pair, .finish, .next] s₁).1.loaded.length = 1 := by
  obtain ⟨l₀, s₁, hbegin, hpending, hloaded⟩ : ∃ l₀ s₁,
      Life.begin brittle ⟨[97]⟩ ⟨.none⟩ unclosable = (.ok l₀, s₁) ∧
      (l₀.askAll brittle [.add pair, .finish, .next] s₁).1.run.pending = 0 ∧
      (l₀.askAll brittle [.add pair, .finish, .next] s₁).1.loaded.length = 1 := by
    refine ⟨_, _, rfl, ?_⟩
    decide +kernel
  exact ⟨l₀, s₁, brittle_fair, hbegin, life_in_order brittle_fair hbegin _, hpending, hloaded⟩

end ExternalSort.Run
