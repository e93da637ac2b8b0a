/-
The accounts of runs that share a spill area.

Every octet that passes is accounted for.  Each stream of a run is tallied once, right before
it is closed, by what passed through it, and the totals of the area are what all runs tallied.
That is so whatever fails.

Where nothing failed for a run the octets are frames: those that were taken are the frames
of the batches appended, one behind the other, and those that were given are the first of
them, as many as batches were loaded and not an octet more.  Octets that are frames can be cut
in one way only, so the accounts of a run that was closed are even exactly if every batch was
loaded.
-/
import ExternalSort.Proofs.Run.Apart
import ExternalSort.Proofs.Run.Contents
import ExternalSort.Proofs.Run.Course
import ExternalSort.Proofs.Run.LifeCycle

namespace ExternalSort.Run

open Storage

/-! ### Frames one behind the other -/

section Frames

variable {codec : Codec} {b : Batch} {bs : List Batch}

/-- A frame in front of octets and the frame of a batch in front of the same octets are one. -/
theorem eq_ofBatch {g rest rest' : Bytes} (hg : IsFrame codec g) (hw : Frame.Writable codec b)
    (h : g ++ rest = Frame.ofBatch codec b ++ rest') :
    g = Frame.ofBatch codec b ∧ rest = rest' := by
  obtain ⟨b', htake⟩ := hg
  have hfront := Frame.take_append htake rest
  have hback := Frame.take_ofPayload codec hw.length rest'
  rw [h] at hfront
  obtain ⟨-, rfl⟩ := Prod.mk.inj (hfront.symm.trans hback)
  exact ⟨List.append_cancel_right h, rfl⟩

theorem not_isFrame_nil : ¬IsFrame codec [] := fun ⟨_, h⟩ => nomatch (Prod.mk.inj h).1

/-- Frames in front of the frames of batches are those of the first batches. -/
theorem flatten_eq_frames {parts : List Bytes} (hparts : ∀ g ∈ parts, IsFrame codec g)
    (hw : ∀ b ∈ bs, Frame.Writable codec b) (h : parts.flatten <+: frames codec bs) :
    parts.flatten = frames codec (bs.take parts.length) ∧ parts.length ≤ bs.length := by
  induction parts generalizing bs with
  | nil => exact ⟨rfl, Nat.zero_le _⟩
  | cons g parts ih =>
    obtain ⟨hg, hparts⟩ := List.forall_mem_cons.1 hparts
    cases bs with
    | nil =>
      obtain ⟨hnil, -⟩ := List.append_eq_nil_iff.1 (List.prefix_nil.1 h)
      exact absurd (hnil ▸ hg) not_isFrame_nil
    | cons b bs =>
      obtain ⟨hb, hbs⟩ := List.forall_mem_cons.1 hw
      obtain ⟨rest, hrest⟩ := h
      rw [List.flatten_cons, List.append_assoc, frames_cons] at hrest
      obtain ⟨hfirst, hothers⟩ := eq_ofBatch hg hb hrest
      obtain ⟨hflatten, hlength⟩ := ih hparts hbs ⟨rest, hothers⟩
      rw [List.flatten_cons, List.length_cons, List.take_succ_cons, frames_cons, hfirst, hflatten]
      exact ⟨rfl, Nat.succ_le_succ hlength⟩

/-- The first frames are as long as all of them only if they are all. -/
theorem length_frames_take {n : Nat} (hn : n ≤ bs.length) :
    (frames codec (bs.take n)).length = (frames codec bs).length ↔ n = bs.length := by
  induction bs generalizing n with
  | nil => exact iff_of_true (by rw [List.take_nil]) (Nat.le_zero.1 hn)
  | cons b bs ih =>
    have hpos := List.length_pos_iff.2 (Frame.ofBatch_ne_nil codec b)
    cases n with
    | zero =>
      rw [frames_cons, List.length_append, List.take_zero]
      refine iff_of_false (fun h => ?_) (Nat.succ_ne_zero _).symm
      change 0 = _ at h
      omega
    | succ n =>
      rw [List.take_succ_cons, frames_cons, frames_cons, List.length_append, List.length_append,
        Nat.add_left_cancel_iff, ih (Nat.le_of_succ_le_succ hn), List.length_cons,
        Nat.add_right_cancel_iff]

end Frames

variable {ω κ ρ μ : Type} {c : Channel ω κ ρ} {totals : ω → Totals} {l : Life κ ρ}

/-! ### What passed in a life -/

/-- What a life wrote can be written, and unless the run failed only whole frames passed: those
of the batches appended, and one for each batch loaded. -/
structure Framed (l : Life κ ρ) : Prop where
  writable : ∀ b ∈ l.appended, Frame.Writable l.run.codec b
  written : l.run.failed = none → taken l.events = frames l.run.codec l.appended
  whole : ∃ parts : List Bytes, (∀ g ∈ parts, IsFrame l.run.codec g) ∧
    parts.length = l.loaded.length ∧ (l.run.failed = none → given l.events = parts.flatten)

theorem framed_begin {path : Path} {codec : Codec} {s s₀ : ω}
    (h : Life.begin c path codec s₀ = (.ok l, s)) : Framed l := by
  obtain ⟨sink, -, rfl⟩ := Life.begin_eq_ok h
  exact ⟨fun _ h => (nomatch h), fun _ => rfl, [], fun _ h => (nomatch h), rfl, fun _ => rfl⟩

theorem Framed.ask (hbound : c.source.Bounded) (h : Framed l) (s : ω) (op : Operation) :
    Framed (l.ask c s op).1 := by
  obtain ⟨-, hwritable, hwritten, parts, hparts, hlength, hgiven⟩ :=
    (step_perform hbound l.run s op).passes
  obtain ⟨before, hbefore, hcount, hread⟩ := h.whole
  have hcodec : (l.ask c s op).1.run.codec = l.run.codec := by
    rw [Life.run_ask]
    exact (kept_perform l.run s op).codec
  have hhealthy : (l.ask c s op).1.run.failed = none →
      l.run.failed = none ∧ (perform c l.run s op).2.1.failed = none := by
    rw [Life.run_ask]
    exact fun hnone => ⟨healthy_of_perform hnone, hnone⟩
  constructor
  case writable =>
    rw [appended_ask, hcodec]
    exact List.forall_mem_append.2 ⟨h.writable, hwritable⟩
  case written =>
    intro hnone
    obtain ⟨hold, hnew⟩ := hhealthy hnone
    rw [Life.events_ask, taken_append, appended_ask, hcodec, frames_append, h.written hold]
    exact congrArg (_ ++ ·) (hwritten hnew)
  case whole =>
    refine ⟨before ++ parts, ?_, ?_, fun hnone => ?_⟩
    · rw [hcodec]
      exact List.forall_mem_append.2 ⟨hbefore, hparts⟩
    · rw [List.length_append, loaded_ask, List.length_append, hcount, hlength]
    · obtain ⟨hold, hnew⟩ := hhealthy hnone
      rw [Life.events_ask, given_append, List.flatten_append, hread hold]
      exact congrArg (_ ++ ·) (hgiven hnew)

/-! ### The end of writing -/

/-- To end writing is answered with what the sink took, unless closing it failed, and with
nothing where writing had ended before. -/
structure Counted (l : Life κ ρ) (q : Request κ ρ) : Prop where
  ended : l.run.phase ≠ .writing
  first : q.before.phase = .writing → Smooth q.events →
    q.answer = .count (.ok (taken l.events).length)
  again : q.before.phase ≠ .writing → q.answer = .count (.ok 0)

/-- Once writing has ended nothing more is taken. -/
theorem length_taken_ask {hM : Metered c totals} (h : Charted hM l)
    (hended : l.run.phase ≠ .writing) (s : ω) (op : Operation) :
    (l.ask c s op).1.run.phase ≠ .writing ∧
      (taken (l.ask c s op).1.events).length = (taken l.events).length := by
  have hlater : (l.ask c s op).1.run.phase ≠ .writing := by
    rw [Life.run_ask]
    exact fun h => hended (Phase.writing_of_rank_le (rank_perform c l.run s op).1 h)
  have hbefore := (h.tallied s).written
  have hafter := ((h.ask s op).tallied s).written
  rw [if_neg hended] at hbefore
  rw [if_neg hlater, Life.events_ask, talliesWritten_append, hbefore] at hafter
  refine ⟨hlater, ?_⟩
  rw [Life.events_ask]
  exact (List.cons.inj hafter).1.symm

/-- A run that is being written tallies what its sink took, and answers with that. -/
theorem finish_writing {r : Run κ ρ} (hphase : r.phase = .writing) (s : ω) :
    (perform c r s .finish).2.1.phase ≠ .writing ∧ ∃ n, talliesWritten (led c r s .finish) = [n] ∧
      (Smooth (led c r s .finish) → (perform c r s .finish).1 = .count (.ok n)) := by
  obtain ⟨cursor, codec, path, pending, medium, failed⟩ := r
  cases medium with
  | idle | reading _ | closed => exact Phase.noConfusion hphase
  | writing sink =>
    refine ⟨Phase.noConfusion, c.written sink, rfl, fun hsmooth => ?_⟩
    have hclosing : Event.fails (.closeSink
        ((c.closeSink sink (c.tallyWrite (c.written sink) s)).1.map fun _ => ())) = false :=
      hsmooth _ (List.mem_cons_of_mem _ (List.mem_singleton_self _))
    show Answer.count ((c.closeSink sink (c.tallyWrite (c.written sink) s)).1.map
      fun _ => c.written sink) = _
    generalize (c.closeSink sink (c.tallyWrite (c.written sink) s)).1 = outcome at hclosing ⊢
    cases outcome with
    | error f => exact Bool.noConfusion hclosing
    | ok _ => rfl

theorem finish_ended {r : Run κ ρ} (hphase : r.phase ≠ .writing) (s : ω) :
    (perform c r s .finish).1 = .count (.ok 0) := by
  show Answer.count (r.finish c s).1 = _
  rw [finish_of_phase_ne hphase]

/-- Every request to end writing was answered so. -/
def AllCounted (l : Life κ ρ) : Prop := ∀ q ∈ l.requests, q.op = .finish → Counted l q

theorem allCounted_begin {path : Path} {codec : Codec} {s s₀ : ω}
    (h : Life.begin c path codec s₀ = (.ok l, s)) : AllCounted l := by
  obtain ⟨sink, -, rfl⟩ := Life.begin_eq_ok h
  exact fun _ h => (nomatch h)

theorem AllCounted.ask {hM : Metered c totals} (hcharted : Charted hM l) (h : AllCounted l) (s : ω)
    (op : Operation) : AllCounted (l.ask c s op).1 := by
  have hafter := ((hcharted.ask s op).tallied s).written
  refine Life.forall_requests_ask (fun q hq hop => ?_) ?_
  · obtain ⟨hended, hfirst, hagain⟩ := h q hq hop
    obtain ⟨hlater, hlength⟩ := length_taken_ask hcharted hended s op
    rw [← hlength] at hfirst
    exact ⟨hlater, hfirst, hagain⟩
  · rintro rfl
    by_cases hphase : l.run.phase = .writing
    · obtain ⟨hended, n, htally, hanswer⟩ := finish_writing (c := c) hphase s
      have hbefore := (hcharted.tallied s).written
      rw [← Life.run_ask] at hended
      rw [if_pos hphase] at hbefore
      rw [if_neg hended, Life.events_ask, talliesWritten_append, hbefore, htally] at hafter
      refine ⟨hended, fun _ hsmooth => ?_, fun h => absurd hphase h⟩
      rw [Life.events_ask, ← (List.cons.inj hafter).1]
      exact hanswer hsmooth
    · exact ⟨(length_taken_ask hcharted hphase s .finish).1, fun h => absurd h hphase,
        fun _ => finish_ended hphase s⟩

/-! ### Accounts -/

/-- A life in which nothing failed: no call and no use of a stream, and the run itself did
not. -/
structure Flawless (l : Life κ ρ) : Prop where
  healthy : l.run.failed = none
  smooth : Smooth l.events

/-- The accounts of a life. -/
structure Accounts (l : Life κ ρ) : Prop where
  /-- The first request to end writing is answered with the length of all frames appended,
  every other one with zero. -/
  finished : ∀ q ∈ l.requests, q.op = .finish → q.answer = .count (.ok
    (if q.before.phase = .writing then (frames l.run.codec l.appended).length else 0))
  /-- Once writing has ended, that length was tallied. -/
  written : l.run.phase ≠ .writing → l.writeTally = (frames l.run.codec l.appended).length
  /-- What was read are the frames of the batches loaded, which are the first of those appended,
  and not an octet more. -/
  given : given l.events = frames l.run.codec (l.appended.take l.loaded.length)
  loaded : l.loaded.length ≤ l.appended.length
  /-- Once the run is closed, the length of these was tallied. -/
  read : l.run.phase = .closed →
    l.readTally = (frames l.run.codec (l.appended.take l.loaded.length)).length
  /-- What a closed run wrote and read is the same exactly if every batch was loaded. -/
  even : l.run.phase = .closed →
    (l.readTally = l.writeTally ↔ l.loaded.length = l.appended.length)

theorem accounts_of_flawless (htallied : Tallied l) (hframed : Framed l) (hcounted : AllCounted l)
    (hreturned : Returned l.events) (h : Flawless l) : Accounts l := by
  obtain ⟨parts, hparts, hlength, hgiven⟩ := hframed.whole
  have hwritten := hframed.written h.healthy
  have hgiven := hgiven h.healthy
  obtain ⟨hframes, hle⟩ : parts.flatten = frames l.run.codec (l.appended.take parts.length) ∧
      parts.length ≤ l.appended.length := by
    refine flatten_eq_frames hparts hframed.writable ?_
    rw [← hgiven, ← hwritten]
    exact hreturned h.smooth
  rw [hlength] at hframes hle
  have hwriteTally : l.run.phase ≠ .writing →
      l.writeTally = (frames l.run.codec l.appended).length := by
    intro hended
    rw [Life.writeTally, htallied.written, if_neg hended, hwritten, List.sum_singleton]
  have hreadTally : l.run.phase = .closed →
      l.readTally = (frames l.run.codec (l.appended.take l.loaded.length)).length := by
    intro hclosed
    rw [← hframes, ← hgiven]
    exact (hclosed ▸ htallied.course).sum_read
  constructor
  case finished =>
    intro q hq hop
    obtain ⟨-, hfirst, hagain⟩ := hcounted q hq hop
    split
    · rename_i hphase
      have hsmooth : Smooth q.events := fun e he =>
        h.smooth e (List.mem_append_right _ (List.mem_flatMap.2 ⟨q, hq, he⟩))
      rw [hfirst hphase hsmooth, hwritten]
    · rename_i hphase
      exact hagain hphase
  case written => exact hwriteTally
  case given => exact hgiven.trans hframes
  case loaded => exact hle
  case read => exact hreadTally
  case even =>
    intro hclosed
    have hended : l.run.phase ≠ .writing := by
      rw [hclosed]
      exact Phase.noConfusion
    rw [hreadTally hclosed, hwriteTally hended]
    exact length_frames_take hle

/-- To name a file leaves the totals alone. -/
theorem totals_of_namesBy {ω : Type} {site : ω → Site} {name : Naming ω} (h : NamesBy site name)
    (s : ω) : (site (name s).2).totals = (site s).totals := by
  refine (h s).totals ?_
  have hnamed := Site.nextFile_named (site s)
  have hleft : (naming (site s)).2 = ((site s).nextFile none).2 := by
    unfold naming
    generalize (site s).nextFile none = left
    obtain ⟨outcome, t⟩ := left
    cases outcome <;> rfl
  rw [hleft, Site.totals, hnamed.written, hnamed.consumed, Site.totals]

/-- **Every octet is accounted for.**  However many runs share a spill area, in whatever order
requests are made to them and whatever fails: the totals of the area are what the runs tallied,
and each stream of a run is tallied once, right before it is closed, by what passed through it.
If the area named the files, a run for which nothing failed wrote the frames of the batches
appended and read those of the batches loaded, and the tallies are their lengths; so they are
even, once the run is closed, exactly if every batch was loaded. -/
theorem octets_are_accounted {c : Channel ω FileSink FileSource} {site : ω → Site}
    (hB : Backed c site) {name : μ → Naming ω}
    (hname : ∀ how s, (site (name how s).2).totals = (site s).totals) (s₀ : ω)
    (errands : List (Errand μ)) :
    let g := Company.attendAll c name errands ⟨[], s₀⟩
    g.Balanced (fun s => (site s).totals) (site s₀).totals ∧
    (∀ l ∈ g.lives, Tallied l) ∧
    ((∀ how, NamesBy site (name how)) → (site s₀).files.Sound →
      ∀ l ∈ g.lives, Flawless l → Accounts l) := by
  intro g
  have hlives : ∀ l ∈ g.lives, Charted hB.metered l ∧ AllCounted l ∧ Framed l := by
    refine Company.forall_lives (fun hbegin => ?_) (fun l s op h => ?_) errands
      (fun _ h => (nomatch h))
    · exact ⟨charted_begin hB.metered hbegin, allCounted_begin hbegin, framed_begin hbegin⟩
    · obtain ⟨hcharted, hcounted, hframed⟩ := h
      exact ⟨hcharted.ask s op, hcounted.ask hcharted s op, hframed.ask hB.bounded s op⟩
  refine ⟨balanced_attendAll hB.metered hname errands s₀, ?_, ?_⟩
  · exact fun l hl => (hlives l hl).1.tallied s₀
  · intro hnamed hsound l hl hflawless
    obtain ⟨hcharted, hcounted, hframed⟩ := hlives l hl
    exact accounts_of_flawless (hcharted.tallied s₀) hframed hcounted
      (returned_attendAll hB hnamed hsound errands l hl) hflawless

/-- An area behind a channel that fails on demand names its files itself. -/
def namingBehind : Naming (Faulty Site) := fun s =>
  let (outcome, inner) := naming s.inner
  (outcome, { s with inner })

/-- An area where sinks take no more than five hundred octets altogether. -/
def scarce : Faulty Site := ⟨pristine, ⟨[], false, some 500, none, none⟩, []⟩

/-- Two runs take the pair, then one is read, and both are closed. -/
def oneRead : List (Errand Unit) :=
  [.make (), .make (), .ask 0 (.add pair), .ask 1 (.add pair), .ask 0 .finish, .ask 0 .next,
    .ask 0 .close, .ask 1 .close]

/-- The first run has even accounts, and of the second, for which no room was left, that is
tallied which its sink took. -/
theorem pair_accounted_beside_part :
    let g := Company.attendAll brittle (fun _ : Unit => namingBehind) oneRead ⟨[], scarce⟩
    ∃ l q, g.lives = [l, q] ∧ g.Balanced (fun s => s.inner.totals) scarce.inner.totals ∧
      Flawless l ∧ Accounts l ∧ l.writeTally = 464 ∧ l.readTally = 464 ∧
      Tallied q ∧ q.run.failed = some .write ∧ q.writeTally = 36 := by
  have hnames : ∀ how : Unit, NamesBy (·.inner) namingBehind := fun _ s =>
    .done (t := (namingBehind s).2) rfl
  have hfacts : (Company.attendAll brittle (fun _ : Unit => namingBehind) oneRead
      ⟨[], scarce⟩).lives.map
        (fun l => (l.run.failed, decide (Smooth l.events), l.writeTally, l.readTally))
      = [(none, true, 464, 464), (some .write, false, 36, 0)] := by decide +kernel
  have haccounts := octets_are_accounted (Faulty.backed Site.backed)
    (fun how s => totals_of_namesBy (hnames how) s) scarce oneRead
  dsimp only at haccounts ⊢
  generalize Company.attendAll brittle (fun _ : Unit => namingBehind) oneRead ⟨[], scarce⟩ = g
    at hfacts haccounts ⊢
  obtain ⟨hbalanced, htallied, hflawless⟩ := haccounts
  obtain ⟨l, q, hlives, hl, hq⟩ := eq_pair_of_map hfacts
  simp only [Prod.mk.injEq, decide_eq_true_eq] at hl hq
  obtain ⟨hhealthy, hsmooth, hwrite, hread⟩ := hl
  obtain ⟨hfailed, -, hpart, -⟩ := hq
  have hl : l ∈ g.lives := hlives ▸ List.mem_cons_self ..
  have hq : q ∈ g.lives := hlives ▸ List.mem_cons_of_mem _ (List.mem_singleton_self q)
  exact ⟨l, q, hlives, hbalanced, ⟨hhealthy, hsmooth⟩,
    hflawless hnames sound_pristine l hl ⟨hhealthy, hsmooth⟩, hwrite, hread, htallied q hq, hfailed,
    hpart⟩

end ExternalSort.Run
