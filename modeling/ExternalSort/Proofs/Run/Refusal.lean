/-
What a refused batch leaves behind.

A run that refuses a batch either has failed and says so, or goes on.  Where it goes on it
should be as if the batch had never been offered, and it is so where the batch was refused
before anything was written.  One way out is different: the frame has been written and
counted when the husk of the batch turns out not to go with the target schema.  The answer
is a refusal, the run goes on, and the batch is part of it.
-/
import ExternalSort.Proofs.Run.RoundTrip

namespace ExternalSort.Run

open Storage

variable {ω κ ρ : Type} {c : Channel ω κ ρ} {r : Run κ ρ} {s : ω} {b : Batch}

/-- Two runs, with the states behind them, that answer every history alike. -/
def Alike (c : Channel ω κ ρ) (x y : Run κ ρ × ω) : Prop :=
  ∀ ops, (performAll c ops x.1 x.2).1 = (performAll c ops y.1 y.2).1

/-- A run that goes on writes the frame of a batch whose husk cannot have the target
schema. -/
def WritesUnshaped (c : Channel ω κ ρ) (r : Run κ ρ) (b : Batch) (s : ω) : Prop :=
  r.failed = none ∧ ∃ sink, r.medium = .writing sink ∧
    (∃ n, (Frame.write r.codec c.sink b (sink, s)).1 = .ok n) ∧
    ∃ target f, r.cursor.target = some target ∧ b.zeroed.coerce target = .error f

/-- **A refused batch is no part of the run, unless its frame was written before it was
refused.**  The run has failed, or no batch more is pending and every later history is
answered as it would have been; and where the frame was written and the husk did not go with
the target schema, neither is so. -/
theorem refused_is_no_part_iff {f : Fault} {r' : Run κ ρ} {s' : ω}
    (h : r.add c b s = (.error f, r', s')) :
    ((∃ stage, r'.failed = some stage) ∨
      r'.pending = r.pending ∧ Alike c (r', s') (r, s)) ↔ ¬WritesUnshaped c r b s := by
  have hexit := add_exit c r b s
  rw [h] at hexit
  cases hexit with
  | failed hfailed =>
    refine ⟨?_, fun _ => .inl ⟨_, hfailed⟩⟩
    intro _
    rintro ⟨hnone, -⟩
    rw [hnone] at hfailed
    contradiction
  | phase _ hphase =>
    refine ⟨?_, fun _ => .inr ⟨rfl, fun _ => rfl⟩⟩
    intro _
    rintro ⟨-, sink, hmedium, -⟩
    apply hphase
    rw [phase, hmedium]
    rfl
  | unwritten _ hmedium hwrite =>
    refine ⟨?_, fun _ => .inl ⟨.write, rfl⟩⟩
    intro _
    rintro ⟨-, sink, hmedium', ⟨n, hwritten⟩, -⟩
    obtain rfl := Medium.writing.inj (hmedium.symm.trans hmedium')
    rw [hwrite] at hwritten
    contradiction
  | unshaped hnone hmedium hwrite hshape =>
    obtain ⟨target, htarget, hcoerce⟩ := shaped_eq_error hshape
    constructor
    · rintro (⟨stage, hstage⟩ | ⟨hpending, -⟩)
      · rw [hnone] at hstage
        contradiction
      · exact absurd hpending (Nat.succ_ne_self _)
    · intro hnot
      exact absurd ⟨hnone, _, hmedium, ⟨_, by rw [hwrite]⟩, target, f, htarget, hcoerce⟩ hnot

/-- A run whose writing has ended. -/
def ended : Run FileSink FileSource := ⟨.ofBatch .shell, ⟨.none⟩, ⟨[97]⟩, 0, .idle, none⟩

theorem ended_refuses_pair :
    ended.add Site.channel pair blank = (.error (.operation (.addInPhase .idle)), ended, blank) ∧
    ((∃ stage, ended.failed = some stage) ∨
      ended.pending = ended.pending ∧ Alike Site.channel (ended, blank) (ended, blank)) := by
  have hadd : ended.add Site.channel pair blank
      = (.error (.operation (.addInPhase .idle)), ended, blank) := rfl
  refine ⟨hadd, (refused_is_no_part_iff hadd).2 ?_⟩
  rintro ⟨-, sink, hmedium, -⟩
  exact nomatch hmedium

/-! ### A refused batch that stays -/

/-- On a channel that does not fail, a batch whose frame was written is part of the run. -/
theorem laid_unshaped {R : Reliable c} {bs : List Batch} (h : Laid R r s bs)
    (hwrites : WritesUnshaped c r b s) :
    (∃ f, (r.add c b s).1 = .error f) ∧ (r.add c b s).2.1.failed = none ∧
      Laid R (r.add c b s).2.1 (r.add c b s).2.2 (bs ++ [b]) := by
  obtain ⟨hnone, sink, hmedium, ⟨n, hwritten⟩, target, f, htarget, hcoerce⟩ := hwrites
  have hshape : r.shaped b.zeroed = .error f := by
    rw [shaped, htarget]
    exact hcoerce
  have hlaid := laid_add (c := c) (b := b) h
  have hexit := add_exit c r b s
  generalize r.add c b s = left at hexit hlaid ⊢
  cases hexit with
  | failed hfailed =>
    rw [hnone] at hfailed
    contradiction
  | phase _ hphase =>
    refine absurd ?_ hphase
    rw [phase, hmedium]
    rfl
  | unwritten _ hmedium' hwrite =>
    obtain rfl := Medium.writing.inj (hmedium.symm.trans hmedium')
    rw [hwrite] at hwritten
    contradiction
  | unshaped _ _ _ _ => exact ⟨⟨_, rfl⟩, hnone, hlaid rfl⟩
  | taken _ _ _ hshape' =>
    rw [hshape] at hshape'
    contradiction

/-- A batch that can be written, and whose husk does not go with the target schema, is one
such. -/
theorem Laid.writesUnshaped {R : Reliable c} {bs : List Batch} (h : Laid R r s bs)
    (hphase : r.phase = .writing) (hw : Frame.Writable r.codec b) {target : Schema} {f : Fault}
    (htarget : r.cursor.target = some target) (hcoerce : b.zeroed.coerce target = .error f) :
    WritesUnshaped c r b s := by
  obtain ⟨sink, hmedium⟩ := phase_eq_writing_iff.1 hphase
  rcases h.write hmedium b with ⟨-, n, sink', s', hwrite, -⟩ | ⟨hnot, -⟩
  · exact ⟨h.healthy, sink, hmedium, ⟨n, by rw [hwrite]⟩, target, f, htarget, hcoerce⟩
  · exact absurd hw hnot

/-- A schema without the field of the pair. -/
def other : Schema := ⟨[⟨"y", .int .int32, true, .empty⟩], .empty⟩

/-- A run in a new file has that schema set. -/
theorem other_is_set : ∃ r₀ s₁ answers r,
    create Site.channel ⟨[97]⟩ ⟨.none⟩ blank = (.ok r₀, s₁) ∧
    performAll Site.channel [.setSchema other] r₀ s₁ = (answers, r, s₁) ∧
    r.codec = ⟨.none⟩ ∧ r.cursor.target = some other ∧ r.phase = .writing ∧
    Laid Site.reliable r s₁ [] := by
  obtain ⟨r₀, s₁, hcreate⟩ : ∃ r₀ s₁, create Site.channel ⟨[97]⟩ ⟨.none⟩ blank = (.ok r₀, s₁) :=
    ⟨_, _, rfl⟩
  obtain ⟨sink, hmade, -⟩ := create_eq_ok hcreate
  obtain ⟨answers, r, hhistory, hcodec, htarget, hphase⟩ : ∃ answers r,
      performAll Site.channel [.setSchema other] r₀ s₁ = (answers, r, s₁) ∧
      r.codec = ⟨.none⟩ ∧ r.cursor.target = some other ∧ r.phase = .writing := by
    subst hmade
    exact ⟨_, _, rfl, rfl, rfl, rfl⟩
  obtain ⟨hlaid, -⟩ := known_of_history Site.reliable hcreate (by decide) hhistory (by
    intro p hp b hb
    have hop := (List.of_mem_zip hp).1
    rw [hb] at hop
    exact nomatch List.mem_singleton.1 hop)
  exact ⟨r₀, s₁, answers, r, hcreate, hhistory, hcodec, htarget, hphase, hlaid⟩

/-- **The pair is refused and stays**: the run has not failed, a batch more is pending, and
the first request for a row is answered with a fault instead of the end. -/
theorem refused_pair_stays : ∃ r₀ s₁ answers r s,
    create Site.channel ⟨[97]⟩ ⟨.none⟩ blank = (.ok r₀, s₁) ∧
    performAll Site.channel [.setSchema other] r₀ s₁ = (answers, r, s) ∧
    (∃ f, (r.add Site.channel pair s).1 = .error f) ∧
    (r.add Site.channel pair s).2.1.failed = none ∧
    (r.add Site.channel pair s).2.1.pending = r.pending + 1 ∧
    rowAnswers (performAll Site.channel [.next] r s).1 = [.ok none] ∧
    ∃ f, rowAnswers (performAll Site.channel [.next] (r.add Site.channel pair s).2.1
      (r.add Site.channel pair s).2.2).1 = [.error f] := by
  obtain ⟨r₀, s₁, answers, r, hcreate, hhistory, hcodec, htarget, hphase, hlaid⟩ := other_is_set
  have hcoerce : pair.zeroed.coerce other = .error (.schema (.notInTarget "x")) := rfl
  have hwrites := hlaid.writesUnshaped hphase (hcodec.symm ▸ writable_pair) htarget hcoerce
  obtain ⟨hrefused, hhealthy, hstays⟩ := laid_unshaped hlaid hwrites
  have hnext : ∀ op ∈ [.next], Operation.Reads op := by decide
  have hbefore := hlaid.rowAnswers (by simp) hnext
  have hafter := hstays.rowAnswers (by decide) hnext
  have htarget' := target_add (c := Site.channel) r pair s₁
  have hback : readBack (some other) pair = .error (.schema (.notInTarget "x")) := rfl
  refine ⟨r₀, s₁, answers, r, s₁, hcreate, hhistory, hrefused, hhealthy, ?_, hbefore, ?_⟩
  · rw [hstays.pending, hlaid.pending]
    rfl
  · rw [htarget', htarget, List.nil_append, List.map_cons, List.map_nil, hback] at hafter
    exact ⟨_, hafter⟩

/-! ### Rows behind a refused batch -/

/-- A row in that schema. -/
def single : Batch := ⟨other, [⟨.int .int32, [some 1]⟩], 1⟩

/-- **What was taken is not always delivered.**  A batch with too many columns is taken, and its
row does not come; and where the pair was refused and stays, a batch that is taken behind it
does not come either. -/
theorem taken_row_is_not_delivered :
    ((Batch.broad 500000).Valid ∧
      (Stream.write .none (Batch.broad 500000)).length ≤ Frame.greatestPayload ∧
      ∃ r₀ s₁ answers r s,
        create Site.channel ⟨[97]⟩ ⟨.none⟩ blank = (.ok r₀, s₁) ∧
        performAll Site.channel [.add (.broad 500000), .finish] r₀ s₁ = (answers, r, s) ∧
        AllTaken [.add (.broad 500000), .finish] answers ∧
        schemaSet [.add (.broad 500000), .finish] answers none = none ∧
        ∃ f, rowAnswers (performAll Site.channel [.next] r s).1 = [.error (.whileReading f)]) ∧
    ∃ r₀ s₁ answers r s, let refused := r.add Site.channel pair s
      let taken := refused.2.1.add Site.channel single refused.2.2
      create Site.channel ⟨[97]⟩ ⟨.none⟩ blank = (.ok r₀, s₁) ∧
      performAll Site.channel [.setSchema other] r₀ s₁ = (answers, r, s) ∧
      (∃ f, refused.1 = .error f) ∧ taken.1 = .ok () ∧
      single.Valid ∧ single.coerce other = .ok single ∧
      ∃ f, rowAnswers (performAll Site.channel [.next] taken.2.1 taken.2.2).1
        = [.error (.whileReading f)] := by
  have hw := Frame.writable_broad ⟨.none⟩ (show 500000 ≤ 1000000 by decide)
  refine ⟨⟨hw.valid, hw.length, ?_⟩, ?_⟩
  · obtain ⟨r₀, s₁, answers, r, s, hcreate, hhistory, htaken, hplain, -, hanswers⟩ :=
      broad_taken (Nat.le_refl _) (by decide)
    exact ⟨r₀, s₁, answers, r, s, hcreate, hhistory, htaken, hplain, hanswers⟩
  obtain ⟨r₀, s₁, answers, r, hcreate, hhistory, hcodec, htarget, hphase, hlaid⟩ := other_is_set
  have hcoerce : pair.zeroed.coerce other = .error (.schema (.notInTarget "x")) := rfl
  have hwrites := hlaid.writesUnshaped hphase (hcodec.symm ▸ writable_pair) htarget hcoerce
  obtain ⟨hrefused, -, hstays⟩ := laid_unshaped hlaid hwrites
  have hsingle : Frame.Writable ⟨.none⟩ single := ⟨⟨rfl, by decide, by decide⟩, by decide +kernel⟩
  -- The run behind the refusal still has its codec and its target.
  have hcodec' : (r.add Site.channel pair s₁).2.1.codec = ⟨.none⟩ :=
    (kept_add r pair s₁).codec.trans hcodec
  have htarget' := (target_add (c := Site.channel) r pair s₁).trans htarget
  have hphase' := (phase_add (c := Site.channel) r pair s₁).trans hphase
  refine ⟨r₀, s₁, answers, r, s₁, hcreate, hhistory, hrefused, ?_⟩
  generalize r.add Site.channel pair s₁ = refused at *
  have hadd := add_shaped hstays hphase' (hcodec'.symm ▸ hsingle)
    (show refused.2.1.shaped single.zeroed = .ok single.zeroed by rw [shaped, htarget']; rfl)
  have hanswers := (laid_add hstays (pending_add hadd)).rowAnswers (by decide)
    (show ∀ op ∈ [.next], Operation.Reads op by decide)
  have hback : readBack (some other) pair = .error (.schema (.notInTarget "x")) := rfl
  rw [target_add, htarget', List.nil_append, List.singleton_append, List.map_cons, hback]
    at hanswers
  exact ⟨hadd, hsingle.valid, rfl, _, hanswers⟩

end ExternalSort.Run
