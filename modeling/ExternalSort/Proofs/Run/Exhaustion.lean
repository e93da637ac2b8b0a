/-
No row any more.

Whoever merges groups lets go of a group at its first answer that there is no row, so there
should be none later either.  For groups in memory that is so.  For a run in a file it is so
wherever batches were looked for in the file, because by then the writing has ended.  But a
request for a row that finds nothing pending ends nothing: a run that is asked before its
first batch stays open to batches, and the rows of those that come are delivered after all.

What is kept between two requests for rows is `Spent`: no row is shown and none can be
loaded.  Only an appended batch can break it, and a batch is appended only while the run is
written, so the run was being written at every request before.
-/
import ExternalSort.Proofs.Group.Likeness
import ExternalSort.Proofs.Run.Pointer

namespace ExternalSort

open Storage

namespace Run

variable {ω κ ρ : Type} {c : Channel ω κ ρ} {r : Run κ ρ} {s : ω} {l : Life κ ρ}

/-! ### Single requests -/

/-- No row is shown, and none can be loaded. -/
structure Spent (r : Run κ ρ) : Prop where
  shown : r.count ≤ r.cursor.pointer
  ended : r.failed ≠ none ∨ r.pending = 0

/-- A request to a run that is being written, with nothing pending. -/
structure Request.Premature (q : Request κ ρ) : Prop where
  phase : q.before.phase = .writing
  pending : q.before.pending = 0

/-- A request that finds no row leaves the run spent, and ends the writing unless it came too
early. -/
theorem spent_of_none {op : Operation} (h : (perform c r s op).1 = .row (.ok none))
    (events : List Event) :
    let q : Request κ ρ := ⟨r, op, (perform c r s op).1, events⟩
    Spent (perform c r s op).2.1 ∧ ((perform c r s op).2.1.phase = .writing → q.Premature) := by
  cases op with
  | add _ | finish | close | advance _ | release => exact nomatch h
  | setSchema target =>
    rcases perform_setSchema (c := c) r s target with ⟨f, -, hset⟩ | ⟨husk, -, hset⟩ <;>
      rw [hset] at h <;> exact nomatch h
  | next =>
    show Spent (r.next c s).2.1 ∧ ((r.next c s).2.1.phase = .writing → _)
    change Answer.row ((r.next c s).1.map _) = _ at h
    have hasking := next_asking c r s
    generalize r.next c s = left at hasking h ⊢
    cases hasking with
    | closed _ | failed _ _ | husk _ _ _ => exact nomatch Answer.row.inj h
    | search _ _ hend hsearch =>
      cases hsearch.result with
      | nothing hpending => exact ⟨⟨hend, .inr hpending⟩, fun hphase => ⟨hphase, hpending⟩⟩
      | found _ _ _ => exact nomatch Except.ok.inj (Answer.row.inj h)
      | vain _ _ hvain =>
        exact ⟨⟨Nat.le_trans (Nat.le_of_eq hvain.rows) (Nat.zero_le _), hvain.ended⟩,
          fun hphase => absurd hphase hvain.unwritten⟩

/-- What counts as pending afterwards and did not before was appended. -/
theorem appended_of_pending {b : Batch} (hphase : r.phase = .writing)
    (h : (perform c r s (.add b)).2.1.pending = r.pending + 1) :
    Request.appended ⟨r, .add b, (perform c r s (.add b)).1, led c r s (.add b)⟩ ≠ [] := by
  intro hnone
  have hafter : (r.add (Watched.channel c) b ⟨s, []⟩).2.1 = (perform c r s (.add b)).2.1 :=
    congrArg (·.2.1) (perform_watched (c := c) r ⟨s, []⟩ (.add b))
  have hopen : (r.add (Watched.channel c) b ⟨s, []⟩).2.1.phase ≠ .closed := by
    rw [phase_add, hphase]
    exact nofun
  have hcount := (step_add (c := c) r b s).passes.pending hopen
  have happended : (Request.appended ⟨r, .add b, .done (r.add (Watched.channel c) b ⟨s, []⟩).1,
      (r.add (Watched.channel c) b ⟨s, []⟩).2.2.events⟩).length = 0 := congrArg List.length hnone
  rw [happended, hafter, h] at hcount
  dsimp only at hcount
  omega

/-- A spent run gives no row, and stays spent unless a batch is appended to it while it is being
written. -/
theorem spent_perform (h : Spent r) (s : ω) {op : Operation} (hop : op.Direct) :
    let q : Request κ ρ := ⟨r, op, (perform c r s op).1, led c r s op⟩
    (∀ row, q.answer ≠ .row (.ok (some row))) ∧
      (Spent (perform c r s op).2.1 ∨ (r.phase = .writing ∧ q.appended ≠ [])) := by
  cases op with
  | advance _ | release => exact hop.elim
  | finish =>
    refine ⟨nofun, .inl ?_⟩
    obtain ⟨medium, hfinish⟩ := perform_finish (c := c) r s
    rw [hfinish]
    exact ⟨h.shown, h.ended⟩
  | setSchema target =>
    rcases perform_setSchema (c := c) r s target with ⟨f, -, hset⟩ | ⟨husk, hcoerce, hset⟩ <;>
      rw [hset]
    · exact ⟨nofun, .inl h⟩
    · exact ⟨nofun, .inl ⟨Nat.le_trans (Nat.le_of_eq (Batch.rows_coerce hcoerce)) h.shown, h.ended⟩⟩
  | close =>
    refine ⟨nofun, .inl ?_⟩
    rcases perform_close (c := c) r s with ⟨-, hclose⟩ | hclose <;> rw [hclose]
    · exact h
    · exact ⟨Nat.zero_le _, .inr rfl⟩
  | next =>
    have hasking := next_asking c r s
    have hrowless := @perform_next_rowless _ _ _ c r s
    suffices hnext : (∀ row, (r.next c s).1 ≠ .ok (some row)) ∧ Spent (r.next c s).2.1 from
      ⟨hrowless hnext.1, .inl hnext.2⟩
    generalize r.next c s = left at hasking ⊢
    cases hasking with
    | closed _ | failed _ _ => exact ⟨nofun, h⟩
    | husk _ _ hpointer => exact absurd h.shown (Nat.not_le.2 hpointer)
    | search _ hsound _ hsearch =>
      have hpending := h.ended.resolve_left fun hfailed => hfailed hsound
      cases hsearch.result with
      | nothing _ => exact ⟨nofun, h⟩
      | found hmore _ _ | vain hmore _ _ => exact absurd hpending (Nat.ne_of_gt hmore)
  | add b =>
    refine ⟨nofun, ?_⟩
    have hexit := add_exit c r b s
    have happended := @appended_of_pending _ _ _ c r s b
    change _ → (r.add c b s).2.1.pending = _ → _ at happended
    show Spent (r.add c b s).2.1 ∨ _
    generalize r.add c b s = left at hexit happended ⊢
    have hwriting : ∀ {sink}, r.medium = .writing sink → r.phase = .writing := fun hmedium =>
      phase_eq_writing_iff.2 ⟨_, hmedium⟩
    cases hexit with
    | failed _ | phase _ _ => exact .inl h
    | unwritten _ _ _ => exact .inl ⟨h.shown, .inl nofun⟩
    | unshaped _ hmedium _ _ | taken _ hmedium _ _ =>
      exact .inr ⟨hwriting hmedium, happended (hwriting hmedium) rfl⟩

/-! ### Whole lives -/

/-- What is so after a request that found no row: the run is spent, or a batch was appended since;
and either the writing has ended or the request came too early. -/
def SinceNone (q : Request κ ρ) (since : List (Request κ ρ)) (r : Run κ ρ) : Prop :=
  (Spent r ∧ (r.phase = .writing → q.Premature)) ∨ (q.Premature ∧ ∃ a ∈ since, a.appended ≠ [])

/-- Between a request that found no row and a later one that found one, a batch was appended, and
the first came before any was. -/
structure Exhaustible (l : Life κ ρ) : Prop where
  settled : ∀ earlier q since, l.requests = earlier ++ q :: since → q.answer = .row (.ok none) →
    SinceNone q since l.run
  reopened : ∀ earlier q between q' later row, l.requests = earlier ++ q :: (between ++ q' :: later) →
    q.answer = .row (.ok none) → q'.answer = .row (.ok (some row)) →
    q.Premature ∧ ∃ a ∈ between, a.appended ≠ []

theorem SinceNone.perform {q : Request κ ρ} {since : List (Request κ ρ)} (h : SinceNone q since r)
    (s : ω) {op : Operation} (hop : op.Direct) :
    SinceNone q (since ++ [⟨r, op, (perform c r s op).1, led c r s op⟩])
      (perform c r s op).2.1 := by
  rcases h with ⟨hspent, hwriting⟩ | ⟨hearly, a, ha, happended⟩
  · rcases (spent_perform (c := c) hspent s hop).2 with hleft | ⟨hphase, happended⟩
    · refine .inl ⟨hleft, fun hphase => hwriting ?_⟩
      exact Phase.writing_of_rank_le (rank_perform c r s op).1 hphase
    · exact .inr ⟨hwriting hphase, _, List.mem_append_right _ (List.mem_singleton_self _), happended⟩
  · exact .inr ⟨hearly, a, List.mem_append_left _ ha, happended⟩

/-- The last of a list that ends in a given way. -/
theorem concat_eq_split {α : Type} {xs earlier since : List α} {x q : α}
    (h : xs ++ [x] = earlier ++ q :: since) :
    (since = [] ∧ xs = earlier ∧ x = q) ∨
      ∃ since', since = since' ++ [x] ∧ xs = earlier ++ q :: since' := by
  rcases List.eq_nil_or_concat since with rfl | ⟨since', y, rfl⟩
  · obtain ⟨hxs, hx⟩ := List.append_inj' h rfl
    exact .inl ⟨rfl, hxs, List.head_eq_of_cons_eq hx⟩
  · rw [List.concat_eq_append, ← List.cons_append, ← List.append_assoc] at h
    obtain ⟨hxs, hx⟩ := List.append_inj' h rfl
    obtain rfl := List.head_eq_of_cons_eq hx
    exact .inr ⟨since', List.concat_eq_append, hxs⟩

theorem exhaustible_ask (h : Exhaustible l) (s : ω) {op : Operation} (hop : op.Direct) :
    Exhaustible (l.ask c s op).1 := by
  rw [Life.ask_eq]
  constructor
  case settled =>
    intro earlier q since hsplit hnone
    rcases concat_eq_split hsplit with ⟨rfl, -, rfl⟩ | ⟨since, rfl, hbefore⟩
    · exact .inl (spent_of_none hnone _)
    · exact SinceNone.perform (h.settled earlier q since hbefore hnone) s hop
  case reopened =>
    intro earlier q between q' later row hsplit hnone hrow
    have hlast : l.requests ++ [⟨l.run, op, (perform c l.run s op).1, led c l.run s op⟩]
        = (earlier ++ q :: between) ++ q' :: later := by
      rw [List.append_assoc]
      exact hsplit
    rcases concat_eq_split hlast with ⟨-, hbefore, rfl⟩ | ⟨later, -, hbefore⟩
    · -- The row is the last answer, so the run was not spent before.
      rcases h.settled earlier q between hbefore hnone with ⟨hspent, -⟩ | hreopened
      · exact absurd hrow ((spent_perform (c := c) hspent s hop).1 row)
      · exact hreopened
    · rw [List.append_assoc] at hbefore
      exact h.reopened earlier q between q' later row hbefore hnone hrow

theorem exhaustible_askAll {ops : List Operation} (hops : ∀ op ∈ ops, op.Direct)
    (h : Exhaustible l) (s : ω) : Exhaustible (l.askAll c ops s).1 := by
  induction ops generalizing l s with
  | nil => exact h
  | cons op ops ih =>
    exact ih (fun op hop => hops op (List.mem_cons_of_mem _ hop))
      (exhaustible_ask h s (hops op (List.mem_cons_self ..))) _

theorem exhaustible_begin {path : Path} {codec : Codec} {s₀ : ω}
    (hbegin : Life.begin c path codec s₀ = (.ok l, s)) : Exhaustible l := by
  obtain ⟨sink, -, rfl⟩ := Life.begin_eq_ok hbegin
  constructor
  case settled =>
    intro earlier q since hsplit
    cases earlier <;> exact nomatch hsplit
  case reopened =>
    intro earlier q between q' later row hsplit
    cases earlier <;> exact nomatch hsplit

end Run

/-- **When there is no row any more.**  As long as requests are to the groups themselves, in any
order and with any outcome: a plain group and a run in memory that had no row once have none
ever after.  A run in a file has one in a single case: it had been asked while it was being
written and nothing was pending, and a batch was appended since. -/
theorem Group.exhaustion_stable_unless_reopened {ω κ ρ : Type} {c : Channel ω κ ρ} {path : Path}
    {codec : Codec} {s₀ s₁ : ω} {l₀ : Run.Life κ ρ}
    (hbegin : Run.Life.begin c path codec s₀ = (.ok l₀, s₁)) {ops : List Run.Operation}
    (hops : ∀ op ∈ ops, op.Direct) {asked : List Operation} (hasked : ∀ op ∈ asked, op.Direct)
    (plain : Cursor) (memory : Resident) :
    ((Cursor.performAll asked plain).1.Pairwise fun answer later =>
      answer = .row (.ok none) → ∀ row, later ≠ .row (.ok (some row))) ∧
    ((Resident.performAll asked memory).1.Pairwise fun answer later =>
      answer = .row (.ok none) → ∀ row, later ≠ .row (.ok (some row))) ∧
    ∀ earlier q between q' later row,
      (l₀.askAll c ops s₁).1.requests = earlier ++ q :: (between ++ q' :: later) →
      q.answer = .row (.ok none) → q'.answer = .row (.ok (some row)) →
      q.Premature ∧ ∃ a ∈ between, a.appended ≠ [] := by
  refine ⟨?_, Resident.exhaustion_stable hasked memory,
    (Run.exhaustible_askAll hops (Run.exhaustible_begin hbegin) s₁).reopened⟩
  have hplain := Resident.exhaustion_stable hasked plain.resident
  rwa [Cursor.performAll_resident] at hplain

/-- A run that is asked before its first batch: the request came too early, and the pair was
appended since. -/
theorem Group.pair_reopens : ∃ l₀ s₁ q a q',
    Run.Life.begin Site.channel ⟨[97]⟩ ⟨.none⟩ Run.blank = (.ok l₀, s₁) ∧
    (l₀.askAll Site.channel [.next, .add Run.pair, .next] s₁).1.requests = [q, a, q'] ∧
    q.Premature ∧ a.appended ≠ [] := by
  obtain ⟨l₀, s₁, hbegin, hnone, hrow⟩ : ∃ l₀ s₁,
      Run.Life.begin Site.channel ⟨[97]⟩ ⟨.none⟩ Run.blank = (.ok l₀, s₁) ∧
      (l₀.run.nextRow Site.channel s₁).1 = .ok none ∧
      let left := l₀.askAll Site.channel [.next, .add Run.pair] s₁
      (left.1.run.nextRow Site.channel left.2).1 = .ok (some (0, Run.pair)) := by
    refine ⟨_, _, rfl, ?_⟩
    decide +kernel
  have hrequests : ∃ q a q', q.answer = .row (.ok none) ∧
      q'.answer = .row (.ok (some (0, Run.pair))) ∧
      (l₀.askAll Site.channel [.next, .add Run.pair, .next] s₁).1.requests = [q, a, q'] := by
    have hnew := (Run.Life.create_of_begin hbegin).2
    simp only [Run.Life.askAll, Run.Life.ask_eq, hnew, List.nil_append, List.cons_append] at hrow ⊢
    exact ⟨_, _, _, congrArg Run.Answer.row hnone, congrArg Run.Answer.row hrow, rfl⟩
  obtain ⟨q, a, q', hq, hq', hrequests⟩ := hrequests
  obtain ⟨-, -, hreopened⟩ := exhaustion_stable_unless_reopened hbegin
    (show ∀ op ∈ [.next, .add Run.pair, .next], Run.Operation.Direct op by decide)
    (show ∀ op ∈ [.next], Operation.Direct op by decide) (.ofBatch three)
    ⟨.ofBatch three, none, 0⟩
  obtain ⟨hearly, a', ha', happended⟩ := hreopened [] q [a] q' [] _ hrequests hq hq'
  obtain rfl := List.mem_singleton.1 ha'
  exact ⟨l₀, s₁, q, a', q', hbegin, hrequests, hearly, happended⟩

/-- No row, and then a row. -/
theorem Run.pair_comes_after_none : ∃ r₀ s₁,
    create Site.channel ⟨[97]⟩ ⟨.none⟩ blank = (.ok r₀, s₁) ∧
    rowAnswers (performAll Site.channel [.next, .add pair, .next] r₀ s₁).1
      = [.ok none, .ok (some (0, pair))] := by
  refine ⟨_, _, rfl, ?_⟩
  decide +kernel

end ExternalSort
