/-
Closing takes everything down.

A run opens one sink when it is made and at most one source later, and it may close them at
three places: when the writing is ended, by the first load, or when the run is closed.  How
often each of this happened is counted over the whole life (`Usage`), and the counts are the
same in every phase whatever failed on the way.  So what closing finds open is all that is
left to close, and no step of closing is left out because an earlier one failed.
-/
import ExternalSort.Proofs.Run.Life
import ExternalSort.Proofs.Run.Loading

namespace ExternalSort

namespace Storage

/-- The opening of a stream that succeeded. -/
def Event.opened? : Event → Option Call
  | .openOutput _ (.ok _) => some .openOutput
  | .openInput _ (.ok _) => some .openInput
  | _ => none

/-- The failure of a call. -/
def Event.failure? : Event → Option Fault
  | .openOutput _ (.error f) | .openInput _ (.error f) | .delete _ (.error f)
  | .closeSink (.error f) | .closeSource (.error f) => some f
  | _ => none

/-- The streams that were opened. -/
def opened (events : List Event) : List Call := events.filterMap Event.opened?

/-- The first failure among events. -/
def firstFailure (events : List Event) : Except Fault Unit :=
  match events.findSome? Event.failure? with
  | none => .ok ()
  | some f => .error f

/-- How often streams were opened and closed, and files removed. -/
structure Usage where
  outputs : Nat
  sinksClosed : Nat
  inputs : Nat
  sourcesClosed : Nat
  deletions : Nat
  deriving DecidableEq, Repr

instance : Add Usage where
  add u v := ⟨u.outputs + v.outputs, u.sinksClosed + v.sinksClosed, u.inputs + v.inputs,
    u.sourcesClosed + v.sourcesClosed, u.deletions + v.deletions⟩

/-- What events amount to. -/
def usage (events : List Event) : Usage where
  outputs := (opened events).count .openOutput
  sinksClosed := (calls events).count .closeSink
  inputs := (opened events).count .openInput
  sourcesClosed := (calls events).count .closeSource
  deletions := (calls events).count .delete

theorem usage_append (es es' : List Event) : usage (es ++ es') = usage es + usage es' := by
  simp only [usage, opened, calls, List.filterMap_append, List.count_append]
  rfl

end Storage

namespace Run

open Storage

variable {ω κ ρ : Type} {c : Channel ω κ ρ} {p : Path} {r : Run κ ρ} {s : ω} {l : Life κ ρ}

/-! ### What a life amounts to -/

/-- How often streams were opened and closed before a run is closed, and then: one sink, at
most one source. -/
def usageUpkeep (c : Channel ω κ ρ) (p : Path) : Upkeep (Watched.channel c) p where
  writing x := usage x.2.events = ⟨1, 0, 0, 0, 0⟩
  idle x := usage x.events = ⟨1, 1, 0, 0, 0⟩
  reading x := usage x.2.events = ⟨1, 1, 1, 0, 0⟩
  ending x := ∃ n ≤ 1, usage x.events = ⟨1, 1, n, n, 0⟩
  closed x := ∃ n ≤ 1, usage x.events = ⟨1, 1, n, n, 1⟩
  write {x} h bs _ := by
    show usage (x.2.events ++ [_]) = _
    rw [usage_append, h]
    rfl
  closeSink {x} h := by
    show usage ((x.2.events ++ [_]) ++ [_]) = _
    rw [usage_append, usage_append, h]
    rfl
  refused {x f _} h hopen := by
    obtain ⟨-, hevents⟩ := Watched.openInput_eq hopen
    rw [hevents, usage_append, h]
    rfl
  opened {x r _} h hopen := by
    obtain ⟨-, hevents⟩ := Watched.openInput_eq hopen
    show usage (Watched.events _) = _
    rw [hevents, usage_append, h]
    rfl
  read {x} h n _ := by
    show usage (x.2.events ++ [_]) = _
    rw [usage_append, h]
    rfl
  closeSource {x} h := by
    refine ⟨1, Nat.le_refl 1, ?_⟩
    show usage ((x.2.events ++ [_]) ++ [_]) = _
    rw [usage_append, usage_append, h]
    rfl
  ending_of_idle h := ⟨0, Nat.zero_le 1, h⟩
  delete {x} h := by
    obtain ⟨n, hn, h⟩ := h
    refine ⟨n, hn, ?_⟩
    show usage (x.events ++ [_]) = _
    rw [usage_append, h]
    rfl

/-- The counts are as they should be where a life begins. -/
theorem usage_begin {codec : Codec} {s₀ : ω} (hbegin : Life.begin c p codec s₀ = (.ok l, s)) :
    (usageUpkeep c p).Holds l.run ⟨s, l.events⟩ := by
  obtain ⟨sink, -, rfl⟩ := Life.begin_eq_ok hbegin
  exact ⟨rfl, rfl⟩

/-! ### Closing -/

/-- What closing a run leads to, where closing the stream that is open comes to `closing` and
removing the file to `deletion`. -/
def teardown (c : Channel ω κ ρ) (r : Run κ ρ) (closing deletion : Except Fault Unit) :
    List Event :=
  match r.medium with
  | .writing sink => [.tallyWrite (c.written sink), .closeSink closing, .delete r.path deletion]
  | .idle => [.delete r.path deletion]
  | .reading source => [.tallyRead (c.consumed source), .closeSource closing, .delete r.path deletion]
  | .closed => []

/-- A run that was closed and let go of everything. -/
structure Cleared (r : Run κ ρ) : Prop where
  phase : r.phase = .closed
  pending : r.pending = 0
  rows : r.count = 0
  pointer : r.cursor.pointer = 0

/-- Closing a run that is open makes every step, and comes to the first failure. -/
theorem close_open (c : Channel ω κ ρ) (hopen : r.phase ≠ .closed) (s : ω) :
    (∃ closing deletion, led c r s .close = teardown c r closing deletion) ∧
      (perform c r s .close).1 = .done (firstFailure (led c r s .close)) ∧
      Cleared (perform c r s .close).2.1 := by
  obtain ⟨cursor, codec, path, pending, medium, failed⟩ := r
  cases medium with
  | closed => exact absurd rfl hopen
  | idle =>
    refine ⟨⟨.ok (), _, rfl⟩, ?_, rfl, rfl, rfl, rfl⟩
    show Answer.done (Fault.First.empty.record _ (c.delete path s).1).result
      = .done (firstFailure [.delete path ((c.delete path s).1.map fun _ => ())])
    cases (c.delete path s).1 <;> rfl
  | writing sink =>
    refine ⟨⟨_, _, rfl⟩, ?_, rfl, rfl, rfl, rfl⟩
    show Answer.done ((Fault.First.empty.record _ (retireSink c sink s).1).record _
        (c.delete path (retireSink c sink s).2).1).result
      = .done (firstFailure [.tallyWrite _, .closeSink ((retireSink c sink s).1.map fun _ => ()),
        .delete path ((c.delete path (retireSink c sink s).2).1.map fun _ => ())])
    cases (retireSink c sink s).1 <;> cases (c.delete path (retireSink c sink s).2).1 <;> rfl
  | reading source =>
    refine ⟨⟨_, _, rfl⟩, ?_, rfl, rfl, rfl, rfl⟩
    show Answer.done ((Fault.First.empty.record _ (retireSource c source s).1).record _
        (c.delete path (retireSource c source s).2).1).result
      = .done (firstFailure [.tallyRead _,
        .closeSource ((retireSource c source s).1.map fun _ => ()),
        .delete path ((c.delete path (retireSource c source s).2).1.map fun _ => ())])
    cases (retireSource c source s).1 <;> cases (c.delete path (retireSource c source s).2).1 <;> rfl

/-- A closed run stays closed and calls nothing, and closing it again succeeds. -/
theorem perform_closed (c : Channel ω κ ρ) (hclosed : r.phase = .closed) (s : ω) (op : Operation) :
    (perform c r s op).2.1.phase = .closed ∧ led c r s op = [] ∧
      (op = .close → (perform c r s op).1 = .done (.ok ())) := by
  obtain ⟨cursor, codec, path, pending, medium, failed⟩ := r
  cases medium with
  | writing _ | idle | reading _ => exact nomatch hclosed
  | closed =>
    cases op with
    | add b => cases failed <;> exact ⟨rfl, rfl, fun h => (nomatch h)⟩
    | finish | next | advance _ | release => exact ⟨rfl, rfl, fun h => (nomatch h)⟩
    | close => exact ⟨rfl, rfl, fun _ => rfl⟩
    | setSchema target =>
      refine ⟨?_, ?_, fun h => (nomatch h)⟩
      · rcases perform_setSchema (c := c) _ s target with ⟨f, -, h⟩ | ⟨husk, -, h⟩ <;> rw [h] <;> rfl
      · rcases perform_setSchema (c := Watched.channel c) _ ⟨s, []⟩ target with
          ⟨f, -, h⟩ | ⟨husk, -, h⟩ <;> rw [led, h]

/-- Nothing but a step of the pointer brings a closed run to show anything. -/
theorem cleared_perform (c : Channel ω κ ρ) (h : Cleared r) (s : ω) {op : Operation}
    (hop : ∀ count, op ≠ .advance count) : Cleared (perform c r s op).2.1 := by
  obtain ⟨cursor, codec, path, pending, medium, failed⟩ := r
  obtain ⟨hphase, hpending, hrows, hpointer⟩ := h
  cases medium with
  | writing _ | idle | reading _ => exact nomatch hphase
  | closed =>
    cases op with
    | advance count => exact absurd rfl (hop count)
    | add b => cases failed <;> exact ⟨rfl, hpending, hrows, hpointer⟩
    | finish | next | close => exact ⟨rfl, hpending, hrows, hpointer⟩
    | release => exact ⟨rfl, hpending, rfl, rfl⟩
    | setSchema target =>
      rcases perform_setSchema (c := c) _ s target with ⟨f, -, h⟩ | ⟨husk, hcoerce, h⟩ <;> rw [h]
      · exact ⟨rfl, hpending, hrows, hpointer⟩
      · exact ⟨rfl, hpending, (Batch.rows_coerce hcoerce).trans hrows, hpointer⟩

/-- A run is cleared by being closed, and stays so as long as nothing moves its pointer. -/
theorem cleared_askAll {ops : List Operation} (hops : ∀ count, .advance count ∉ ops)
    (h : l.run.phase = .closed → Cleared l.run) (s : ω)
    (hclosed : (l.askAll c ops s).1.run.phase = .closed) : Cleared (l.askAll c ops s).1.run := by
  induction ops generalizing l s with
  | nil => exact h hclosed
  | cons op ops ih =>
    have hstep : (l.ask c s op).1.run.phase = .closed → Cleared (l.ask c s op).1.run := by
      rw [Life.run_ask]
      intro hphase
      by_cases hbefore : l.run.phase = .closed
      · refine cleared_perform c (h hbefore) s ?_
        rintro count rfl
        exact hops count (List.mem_cons_self ..)
      · by_cases hop : op = .close
        · rw [hop]
          exact (close_open c hbefore s).2.2
        · exact absurd hphase ((rank_perform c l.run s op).2 hop hbefore)
    exact ih (fun count hmem => hops count (List.mem_cons_of_mem _ hmem)) hstep _ hclosed

/-- What is so once a run was closed: its file was removed, and each of its streams was
closed, once. -/
structure TornDown (l : Life κ ρ) : Prop where
  closed : l.run.phase = .closed
  deletion : (calls l.events).count .delete = 1
  sinks : (opened l.events).count .openOutput = 1 ∧ (calls l.events).count .closeSink = 1
  sources : (opened l.events).count .openInput ≤ 1 ∧
    (calls l.events).count .closeSource = (opened l.events).count .openInput

theorem tornDown_of_usage (hphase : l.run.phase = .closed)
    (h : (usageUpkeep c p).Holds l.run ⟨s, l.events⟩) : TornDown l := by
  have hstate := h.state
  cases hmedium : l.run.medium with
  | closed =>
    rw [hmedium] at hstate
    obtain ⟨n, hn, husage⟩ := hstate
    obtain ⟨houtputs, hsinks, hinputs, hsources, hdeletions⟩ := Usage.mk.inj husage
    exact ⟨hphase, hdeletions, ⟨houtputs, hsinks⟩, Nat.le_trans (Nat.le_of_eq hinputs) hn, hsources.trans hinputs.symm⟩
  | _ =>
    rw [phase, hmedium] at hphase
    exact Phase.noConfusion hphase

/-- Requests to a closed run call nothing, and closing it again succeeds. -/
theorem requests_closed (hclosed : l.run.phase = .closed) (ops : List Operation) (s : ω) :
    (l.askAll c ops s).1.run.phase = .closed ∧
      ∃ more, (l.askAll c ops s).1.requests = l.requests ++ more ∧
        ∀ q ∈ more, q.events = [] ∧ (q.op = .close → q.answer = .done (.ok ())) := by
  induction ops generalizing l s with
  | nil => exact ⟨hclosed, [], (List.append_nil _).symm, fun q hq => (nomatch hq)⟩
  | cons op ops ih =>
    obtain ⟨hphase, hnothing, hagain⟩ := perform_closed c hclosed s op
    have hask := Life.ask_eq c l s op
    obtain ⟨hlast, more, hmore, hall⟩ := ih (l := (l.ask c s op).1) (by rw [hask]; exact hphase)
      (l.ask c s op).2
    refine ⟨hlast, ⟨l.run, op, (perform c l.run s op).1, led c l.run s op⟩ :: more, ?_,
      List.forall_mem_cons.2 ⟨⟨hnothing, hagain⟩, hall⟩⟩
    show ((l.ask c s op).1.askAll c ops (l.ask c s op).2).1.requests = _
    rw [hmore, hask, List.append_assoc]
    rfl

/-- **Closing never stops half way, and nothing is closed twice.**  For every channel,
whatever of it fails, and every history: closing a run that is open closes the stream that is
open and removes the file, in this order, and comes to the first failure; the run is closed
and shows nothing afterwards.  Over the whole life, however often the run is closed and
whatever is asked of it later, its file is removed once and every stream that was opened is
closed once; a closed run calls nothing, and closing it again succeeds. -/
theorem teardown_is_complete {path : Path} {codec : Codec} {s₀ s₁ : ω} {l₀ : Life κ ρ}
    (hbegin : Life.begin c path codec s₀ = (.ok l₀, s₁)) (ops later : List Operation) :
    let l := (l₀.askAll c ops s₁).1
    let s := (l₀.askAll c ops s₁).2
    let l' := (l.ask c s .close).1
    let l'' := (l'.askAll c later (l.ask c s .close).2).1
    (l.run.phase ≠ .closed → ∃ closing deletion,
      led c l.run s .close = teardown c l.run closing deletion) ∧
    (perform c l.run s .close).1 = .done (firstFailure (led c l.run s .close)) ∧
    (l.run.phase ≠ .closed ∨ (∀ count, .advance count ∉ ops) → Cleared l'.run) ∧
    TornDown l' ∧ TornDown l'' ∧
    ∃ more, l''.requests = l'.requests ++ more ∧
      ∀ q ∈ more, q.events = [] ∧ (q.op = .close → q.answer = .done (.ok ())) := by
  intro l s l' l''
  have husage := (usage_begin hbegin).askAll ops
  have hteardown := husage.ask .close
  have hl' : l'.run = (perform c l.run s .close).2.1 := Life.run_ask l s .close
  have hanswer : (perform c l.run s .close).1 = .done (firstFailure (led c l.run s .close)) := by
    by_cases hphase : l.run.phase = .closed
    · obtain ⟨-, hnothing, hagain⟩ := perform_closed c hphase s .close
      rw [hnothing, hagain rfl]
      rfl
    · exact (close_open c hphase s).2.1
  have hclosed : l'.run.phase = .closed := by
    rw [hl']
    by_cases hphase : l.run.phase = .closed
    · exact (perform_closed c hphase s .close).1
    · exact (close_open c hphase s).2.2.phase
  obtain ⟨hlast, more, hmore, hall⟩ := requests_closed (c := c) hclosed later (l.ask c s .close).2
  refine ⟨fun hphase => (close_open c hphase s).1, hanswer, ?_,
    tornDown_of_usage hclosed hteardown, tornDown_of_usage hlast (hteardown.askAll later), more,
    hmore, hall⟩
  intro hcase
  rw [hl']
  by_cases hphase : l.run.phase = .closed
  · have hops := hcase.resolve_left (not_not_intro hphase)
    obtain ⟨sink, -, hmade⟩ := Life.begin_eq_ok hbegin
    have hopen : l₀.run.phase = .closed → Cleared l₀.run := by
      rw [hmade]
      exact fun h => (nomatch h)
    exact cleared_perform c (cleared_askAll hops hopen s₁ hphase) s fun _ h => (nomatch h)
  · exact (close_open c hphase s).2.2

/-- A site where neither a sink can be closed nor a file be removed. -/
def stuck : Faulty Site := ⟨blank, ⟨[.closeSink, .delete], false, none, none, none⟩, []⟩

theorem stuck_pair_is_torn_down : ∃ l₀ s₁,
    Life.begin brittle ⟨[97]⟩ ⟨.none⟩ stuck = (.ok l₀, s₁) ∧
    let l := (l₀.askAll brittle [.add pair] s₁).1
    let s := (l₀.askAll brittle [.add pair] s₁).2
    (perform brittle l.run s .close).1
      = .done (.error (.io (.described .other "output close failed"))) ∧
    Cleared (l.ask brittle s .close).1.run ∧ TornDown (l.ask brittle s .close).1 := by
  obtain ⟨l₀, s₁, hbegin, hopen, hanswer⟩ : ∃ l₀ s₁,
      Life.begin brittle ⟨[97]⟩ ⟨.none⟩ stuck = (.ok l₀, s₁) ∧
      let left := l₀.askAll brittle [.add pair] s₁
      left.1.run.phase ≠ .closed ∧ (left.1.run.close brittle left.2).1
        = .error (.io (.described .other "output close failed")) := by
    refine ⟨_, _, rfl, ?_⟩
    decide +kernel
  obtain ⟨-, -, hcleared, htorn, -⟩ := teardown_is_complete hbegin [.add pair] []
  exact ⟨l₀, s₁, hbegin, congrArg Answer.done hanswer, hcleared (.inl hopen), htorn⟩

end Run
end ExternalSort
