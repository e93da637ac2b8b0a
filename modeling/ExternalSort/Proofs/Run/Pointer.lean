/-
Where the pointer stands.

The pointer of a group shows the row that comes next, so it should not stand beyond the last
one.  In memory it never does.  A run in a file goes astray in a single way.  A request for
the row behind the husk lets go of the husk first and loads then, and the pointer is set anew
only when a batch with rows has come.  Where none comes, because the batches that are pending
have no rows or because one of them cannot be loaded, the pointer stays where it was, before
a husk without rows.

What matters is that nothing sets it right but closing: such a run has failed or has nothing
pending, so no other batch will come.  Hence the pointer can be read off the history: it is
beyond the rows exactly if the run is open and one of its requests overread.
-/
import ExternalSort.Proofs.Group.Memory
import ExternalSort.Proofs.Run.LifeCycle
import ExternalSort.Proofs.Run.Teardown

namespace ExternalSort

open Storage

namespace Run

variable {ω κ ρ : Type} {c : Channel ω κ ρ} {r : Run κ ρ} {s : ω}

/-- A request to the run itself, not through to its cursor. -/
def Operation.Direct : Operation → Prop
  | .advance _ | .release => False
  | _ => True

instance : DecidablePred Operation.Direct
  | .advance _ | .release => isFalse id
  | .add _ | .finish | .next | .setSchema _ | .close => isTrue trivial

/-! ### What a search leaves -/

theorem Preparing.phase_ne {outcome : Except Fault ρ} {q : Run κ ρ} {t : ω}
    (h : Preparing c r s (outcome, q, t)) : q.phase ≠ .writing := by
  cases h <;> exact fun h => (nomatch h)

/-- A load does not move the pointer, and the run is not written any more. -/
theorem Loading.leaves {outcome : Except Fault Unit} {q : Run κ ρ} {t : ω}
    (h : Loading c r s (outcome, q, t)) :
    q.cursor.pointer = r.cursor.pointer ∧ q.phase ≠ .writing := by
  cases h with
  | unready hprepare => exact ⟨by cases hprepare <;> rfl, hprepare.phase_ne⟩
  | unread _ _ | unshaped _ _ _ | loaded _ _ _ => exact ⟨rfl, fun h => (nomatch h)⟩

/-- The second run is what the first is after batches were looked for in it, and none with
rows was found. -/
structure Fruitless (r q : Run κ ρ) : Prop where
  rows : q.count = 0
  pointer : q.cursor.pointer = r.cursor.pointer
  unwritten : q.phase ≠ .writing
  isOpen : q.phase ≠ .closed
  ended : q.failed ≠ none ∨ q.pending = 0

/-- What a search for a row can come to: there is nothing to look for; or a batch with rows is
found; or all that were pending were looked at in vain, up to a failure. -/
inductive Result (r : Run κ ρ) (s : ω) : Except Fault (Option Nat) × Run κ ρ × ω → Prop where
  | nothing : r.pending = 0 → Result r s (.ok none, r, s)
  | found {q : Run κ ρ} {t : ω} : 0 < r.pending → 0 < q.count → q.cursor.pointer = 1 →
      Result r s (.ok (some 0), q, t)
  | vain {outcome : Except Fault (Option Nat)} {q : Run κ ρ} {t : ω} : 0 < r.pending →
      (∀ row, outcome ≠ .ok (some row)) → Fruitless r q → Result r s (outcome, q, t)

theorem Searching.result {left : Except Fault (Option Nat) × Run κ ρ × ω}
    (h : Searching c r s left) : Result r s left := by
  induction h with
  | none hpending => exact .nothing hpending
  | failed hpending hload =>
    obtain ⟨hpointer, hphase⟩ := hload.leaves
    exact .vain hpending nofun ⟨rfl, hpointer, hphase, hload.rank.2, .inl nofun⟩
  | row hpending _ hrows => exact .found hpending hrows rfl
  | more hpending hload hrows _ ih =>
    obtain ⟨hpointer, hphase⟩ := hload.leaves
    cases ih with
    | nothing hover =>
      exact .vain hpending nofun ⟨hrows, hpointer, hphase, hload.rank.2, .inr hover⟩
    | found _ hfound hfirst => exact .found hpending hfound hfirst
    | vain _ hnone hvain =>
      exact .vain hpending hnone
        ⟨hvain.rows, hvain.pointer.trans hpointer, hvain.unwritten, hvain.isOpen, hvain.ended⟩

/-! ### Single requests -/

/-- The pointer is not beyond the last row of the husk. -/
def InPlace (r : Run κ ρ) : Prop := r.cursor.pointer ≤ r.count

/-- A request that goes behind the husk and finds no row, though batches are pending and the
pointer has moved before. -/
structure Request.Overreads (q : Request κ ρ) : Prop where
  op : q.op = .next
  isOpen : q.before.phase ≠ .closed
  sound : q.before.failed = none
  moved : 0 < q.before.cursor.pointer
  pending : 0 < q.before.pending
  rowless : ∀ row, q.answer ≠ .row (.ok (some row))

/-- The pointer is beyond a husk without rows, and no batch is going to come. -/
structure Astray (r : Run κ ρ) : Prop where
  rows : r.count = 0
  moved : 0 < r.cursor.pointer
  unwritten : r.phase ≠ .writing
  isOpen : r.phase ≠ .closed
  ended : r.failed ≠ none ∨ r.pending = 0

theorem Astray.not_inPlace (h : Astray r) : ¬InPlace r := by
  intro hplace
  have hmoved := h.moved
  rw [InPlace, h.rows] at hplace
  omega

theorem inPlace_of_cleared (h : Cleared r) : InPlace r := by
  rw [InPlace, h.pointer]
  exact Nat.zero_le _

/-- A row that was given is answered with the batch in which it stands. -/
theorem perform_next_row {row : Nat} (h : (r.next c s).1 = .ok (some row)) :
    ∃ answer, (perform c r s .next).1 = .row (.ok (some answer)) := by
  refine ⟨(row, (r.next c s).2.1.cursor.batch), ?_⟩
  show Answer.row ((r.next c s).1.map _) = _
  rw [h]
  rfl

theorem perform_next_rowless (h : ∀ row, (r.next c s).1 ≠ .ok (some row)) :
    ∀ answer, (perform c r s .next).1 ≠ .row (.ok (some answer)) := by
  intro answer hanswer
  change Answer.row ((r.next c s).1.map _) = _ at hanswer
  generalize (r.next c s).1 = outcome at h hanswer
  rcases outcome with f | _ | row
  · exact nomatch Answer.row.inj hanswer
  · exact nomatch Except.ok.inj (Answer.row.inj hanswer)
  · exact h row rfl

/-- A request for a row keeps the pointer in place unless it overreads. -/
theorem inPlace_next (h : InPlace r) (s : ω) (events : List Event) :
    let q : Request κ ρ := ⟨r, .next, (perform c r s .next).1, events⟩
    (InPlace (r.next c s).2.1 ∧ ¬q.Overreads) ∨ (Astray (r.next c s).2.1 ∧ q.Overreads) := by
  intro q
  have hasking := next_asking c r s
  have hrow := @perform_next_row _ _ _ c r s
  have hrowless := @perform_next_rowless _ _ _ c r s
  generalize r.next c s = left at hasking hrow hrowless ⊢
  cases hasking with
  | closed hclosed => exact .inl ⟨h, fun hq => hq.isOpen hclosed⟩
  | failed _ hfailed => exact .inl ⟨h, fun hq => nomatch hq.sound.symm.trans hfailed⟩
  | husk _ _ hpointer =>
    obtain ⟨answer, hanswer⟩ := hrow rfl
    exact .inl ⟨hpointer, fun hq => hq.rowless answer hanswer⟩
  | search hopen hsound _ hsearch =>
    cases hsearch.result with
    | nothing hpending => exact .inl ⟨h, fun hq => Nat.ne_of_gt hq.pending hpending⟩
    | found _ hfound hfirst =>
      obtain ⟨answer, hanswer⟩ := hrow rfl
      refine .inl ⟨?_, fun hq => hq.rowless answer hanswer⟩
      rw [InPlace, hfirst]
      exact hfound
    | vain hpending hnone hvain =>
      by_cases hmoved : 0 < r.cursor.pointer
      · have hastray := Astray.mk hvain.rows (hvain.pointer ▸ hmoved) hvain.unwritten hvain.isOpen
          hvain.ended
        exact .inr ⟨hastray, rfl, hopen, hsound, hmoved, hpending, hrowless hnone⟩
      · refine .inl ⟨?_, fun hq => hmoved hq.moved⟩
        rw [InPlace, hvain.pointer, Nat.eq_zero_of_not_pos hmoved]
        exact Nat.zero_le _

/-- A request to the run itself keeps the pointer in place unless it overreads. -/
theorem inPlace_perform (h : InPlace r) (s : ω) {op : Operation} (hop : op.Direct)
    (events : List Event) :
    let q : Request κ ρ := ⟨r, op, (perform c r s op).1, events⟩
    (InPlace (perform c r s op).2.1 ∧ ¬q.Overreads) ∨
      (Astray (perform c r s op).2.1 ∧ q.Overreads) := by
  cases op with
  | advance _ | release => exact hop.elim
  | next => exact inPlace_next h s events
  | add b =>
    refine .inl ⟨?_, fun hq => nomatch hq.op⟩
    show InPlace (r.add c b s).2.1
    have hexit := add_exit c r b s
    generalize r.add c b s = left at hexit ⊢
    cases hexit with
    | failed _ | phase _ _ | unwritten _ _ _ | unshaped _ _ _ _ => exact h
    | taken _ _ _ _ => exact Nat.zero_le _
  | finish =>
    refine .inl ⟨?_, fun hq => nomatch hq.op⟩
    obtain ⟨medium, hfinish⟩ := perform_finish (c := c) r s
    rw [hfinish]
    exact h
  | setSchema target =>
    refine .inl ⟨?_, fun hq => nomatch hq.op⟩
    rcases perform_setSchema (c := c) r s target with ⟨f, -, hset⟩ | ⟨husk, hcoerce, hset⟩ <;>
      rw [hset]
    · exact h
    · exact Nat.le_trans h (Nat.le_of_eq (Batch.rows_coerce hcoerce).symm)
  | close =>
    refine .inl ⟨?_, fun hq => nomatch hq.op⟩
    rcases perform_close (c := c) r s with ⟨-, hclose⟩ | hclose <;> rw [hclose]
    · exact h
    · exact Nat.zero_le _

/-- A run that is astray stays so until it is closed. -/
theorem astray_perform (h : Astray r) (s : ω) {op : Operation} (hop : op.Direct) :
    Astray (perform c r s op).2.1 ∨ Cleared (perform c r s op).2.1 := by
  cases op with
  | advance _ | release => exact hop.elim
  | close => exact .inr (close_open c h.isOpen s).2.2
  | add b =>
    refine .inl ?_
    show Astray (r.add c b s).2.1
    have hexit := add_exit c r b s
    generalize r.add c b s = left at hexit ⊢
    have hnot : ∀ {sink}, r.medium ≠ .writing sink := fun hmedium =>
      h.unwritten (phase_eq_writing_iff.2 ⟨_, hmedium⟩)
    cases hexit with
    | failed _ | phase _ _ => exact h
    | unwritten _ hmedium _ | unshaped _ hmedium _ _ | taken _ hmedium _ _ =>
      exact absurd hmedium hnot
  | finish =>
    refine .inl ?_
    show Astray (r.finish c s).2.1
    rw [finish_of_phase_ne h.unwritten]
    exact h
  | setSchema target =>
    refine .inl ?_
    rcases perform_setSchema (c := c) r s target with ⟨f, -, hset⟩ | ⟨husk, hcoerce, hset⟩ <;>
      rw [hset]
    · exact h
    · exact ⟨(Batch.rows_coerce hcoerce).trans h.rows, h.moved, h.unwritten, h.isOpen, h.ended⟩
  | next =>
    refine .inl ?_
    show Astray (r.next c s).2.1
    have hasking := next_asking c r s
    generalize r.next c s = left at hasking ⊢
    cases hasking with
    | closed _ | failed _ _ => exact h
    | husk _ _ hpointer =>
      rw [h.rows] at hpointer
      exact absurd hpointer (Nat.not_lt_zero _)
    | search _ hsound _ hsearch =>
      have hpending := h.ended.resolve_left fun hfailed => hfailed hsound
      cases hsearch.result with
      | nothing _ => exact h
      | found hmore _ _ | vain hmore _ _ => exact absurd hpending (Nat.ne_of_gt hmore)

/-! ### Whole lives -/

/-- Either the pointer is in place, and no request overread if the run is open; or the run is
astray, and one did. -/
def Placed (l : Life κ ρ) : Prop :=
  (InPlace l.run ∧ (l.run.phase = .closed ∨ ∀ q ∈ l.requests, ¬q.Overreads)) ∨
    (Astray l.run ∧ ∃ q ∈ l.requests, q.Overreads)

theorem placed_ask {l : Life κ ρ} (h : Placed l) (s : ω) {op : Operation} (hop : op.Direct) :
    Placed (l.ask c s op).1 := by
  have hrun := Life.run_ask (c := c) l s op
  rcases h with ⟨hplace, hhistory⟩ | ⟨hastray, q, hq, hover⟩
  · rcases inPlace_perform (c := c) hplace s hop (led c l.run s op) with ⟨hleft, hnot⟩ | ⟨hleft, hover⟩
    · refine .inl ⟨hrun ▸ hleft, ?_⟩
      rcases hhistory with hclosed | hnone
      · exact .inl (hrun ▸ (perform_closed c hclosed s op).1)
      · exact .inr (Life.forall_requests_ask hnone hnot)
    · refine .inr ⟨hrun ▸ hleft, _, ?_, hover⟩
      rw [Life.ask_eq]
      exact List.mem_append_right _ (List.mem_singleton_self _)
  · rcases astray_perform (c := c) hastray s hop with hleft | hleft
    · refine .inr ⟨hrun ▸ hleft, q, ?_, hover⟩
      rw [Life.ask_eq]
      exact List.mem_append_left _ hq
    · exact .inl ⟨hrun ▸ inPlace_of_cleared hleft, .inl (hrun ▸ hleft.phase)⟩

theorem placed_askAll {ops : List Operation} (hops : ∀ op ∈ ops, op.Direct) {l : Life κ ρ}
    (h : Placed l) (s : ω) : Placed (l.askAll c ops s).1 := by
  induction ops generalizing l s with
  | nil => exact h
  | cons op ops ih =>
    exact ih (fun op hop => hops op (List.mem_cons_of_mem _ hop))
      (placed_ask h s (hops op (List.mem_cons_self ..))) _

/-- The pointer is in place exactly if the run is closed or no request overread. -/
theorem Placed.inPlace_iff {l : Life κ ρ} (h : Placed l) :
    InPlace l.run ↔ l.run.phase = .closed ∨ ∀ q ∈ l.requests, ¬q.Overreads := by
  rcases h with ⟨hplace, hhistory⟩ | ⟨hastray, q, hq, hover⟩
  · exact ⟨fun _ => hhistory, fun _ => hplace⟩
  · refine ⟨fun hplace => absurd hplace hastray.not_inPlace, ?_⟩
    rintro (hclosed | hnone)
    · exact absurd hclosed hastray.isOpen
    · exact absurd hover (hnone q hq)

end Run

/-- **Where the pointer stands beyond the rows.**  As long as requests are to the groups
themselves, in any order and with any outcome: the pointer of a plain group and that of a run
in memory never leave the rows.  That of a run in a file does so exactly if the run is open
and a request overread, going behind the husk while batches were pending and finding no row;
and it does not come back before the run is closed. -/
theorem Group.pointer_within_iff {ω κ ρ : Type} {c : Channel ω κ ρ} {path : Path} {codec : Codec}
    {s₀ s₁ : ω} {l₀ : Run.Life κ ρ} (hbegin : Run.Life.begin c path codec s₀ = (.ok l₀, s₁))
    {ops : List Run.Operation} (hops : ∀ op ∈ ops, op.Direct) {b : Batch}
    {selection : Option Selection} {size : Nat} {memory : Resident}
    (hmemory : Resident.ofBatch b selection size = .ok memory) {asked : List Operation}
    (hasked : ∀ op ∈ asked, op.Direct) :
    let plain := (Cursor.performAll asked (.ofBatch b)).2
    let resident := (Resident.performAll asked memory).2
    let l := (l₀.askAll c ops s₁).1
    plain.pointer ≤ plain.batch.rows ∧ resident.cursor.pointer ≤ resident.count ∧
      (l.run.cursor.pointer ≤ l.run.count ↔
        l.run.phase = .closed ∨ ∀ q ∈ l.requests, ¬q.Overreads) := by
  intro plain resident l
  refine ⟨?_, ?_, ?_⟩
  · have hplain : (Cursor.ofBatch b).resident.InPlace := Nat.zero_le _
    have hleft := Resident.inPlace_performAll hasked hplain
    rwa [Cursor.performAll_resident] at hleft
  · refine Resident.inPlace_performAll hasked ?_
    rw [Resident.InPlace, Resident.cursor_ofBatch hmemory]
    exact Nat.zero_le _
  · have hplaced : Run.Placed l₀ := by
      obtain ⟨sink, -, rfl⟩ := Run.Life.begin_eq_ok hbegin
      exact .inl ⟨Nat.zero_le _, .inr fun q hq => (nomatch hq)⟩
    exact (Run.placed_askAll hops hplaced s₁).inPlace_iff

/-- Both rows of a pair are asked for, and one more: no request overreads. -/
theorem Group.pair_within : ∃ l₀ s₁ memory,
    Run.Life.begin Site.channel ⟨[97]⟩ ⟨.none⟩ Run.blank = (.ok l₀, s₁) ∧
    Resident.ofBatch three (some ⟨[2, 0]⟩) 0 = .ok memory ∧
    (Cursor.performAll [.next, .close, .next] (.ofBatch three)).2.pointer ≤ 0 ∧
    (Resident.performAll [.next, .close, .next] memory).2.cursor.pointer ≤ 0 ∧
    ∀ q ∈ (l₀.askAll Site.channel [.add Run.pair, .next, .next, .next] s₁).1.requests,
      ¬q.Overreads := by
  obtain ⟨l₀, s₁, hbegin, hopen, hpointer⟩ : ∃ l₀ s₁,
      Run.Life.begin Site.channel ⟨[97]⟩ ⟨.none⟩ Run.blank = (.ok l₀, s₁) ∧
      let l := (l₀.askAll Site.channel [.add Run.pair, .next, .next, .next] s₁).1
      l.run.phase ≠ .closed ∧ l.run.cursor.pointer ≤ l.run.count := by
    refine ⟨_, _, rfl, ?_⟩
    decide +kernel
  have hmemory : Resident.ofBatch three (some ⟨[2, 0]⟩) 0
      = .ok ⟨.ofBatch three, some ⟨[2, 0]⟩, 0⟩ := rfl
  obtain ⟨hplain, hresident, hiff⟩ := pointer_within_iff hbegin
    (show ∀ op ∈ [.add Run.pair, .next, .next, .next], Run.Operation.Direct op by decide) hmemory
    (show ∀ op ∈ [.next, .close, .next], Operation.Direct op by decide)
  exact ⟨l₀, s₁, _, hbegin, hmemory, hplain, hresident, (hiff.1 hpointer).resolve_left hopen⟩

/-- A batch without rows behind a pair: the request that looks into it leaves the pointer beyond
a husk without rows. -/
theorem Run.empty_behind_pair_goes_astray : ∃ l₀ s₁,
    Life.begin Site.channel ⟨[97]⟩ ⟨.none⟩ blank = (.ok l₀, s₁) ∧
    let ops := [.add pair, .add (.empty pair.schema), .next, .next, .next]
    let l := (l₀.askAll Site.channel ops s₁).1
    (∀ op ∈ ops, op.Direct) ∧ l.run.cursor.pointer = 2 ∧ l.run.count = 0 ∧
      l.run.phase = .reading ∧ l.run.failed = none ∧ ¬l.run.cursor.pointer ≤ l.run.count := by
  refine ⟨_, _, rfl, ?_⟩
  decide +kernel

end ExternalSort
