/-
What a request wrote and what it loaded.

Both are read off the octets that passed: a batch was appended if the request to add it put
its frame into the sink, octet by octet, and batches were loaded as far as the octets that
the source gave are frames of batches that have the shape of the run.  What an answer says
does not come in, and neither does what the run counts.

The counting is then a fact about each way that a request can take: a run that says it
loaded a batch took exactly one whole frame from its source, and one that failed to took
none, whatever part of one had passed.
-/
import ExternalSort.Proofs.Run.Life
import ExternalSort.Proofs.Run.Loading
import ExternalSort.Proofs.Storage.Fair

namespace ExternalSort.Run

open Storage

variable {ω κ ρ : Type} {c : Channel ω κ ρ}

/-! ### Batches in the octets that passed -/

/-- The batches that octets hold, up to the first fault. -/
def loadedFrom (codec : Codec) (target : Option Schema) (bs : Bytes) : List Batch :=
  (loads codec target bs.length bs).1.filterMap Except.toOption

/-- The batch that a request appended. -/
def Request.appended (q : Request κ ρ) : List Batch :=
  match q.op with
  | .add b => if taken q.events = Frame.ofBatch q.before.codec b then [b] else []
  | _ => []

/-- The batches that a request loaded. -/
def Request.loaded (q : Request κ ρ) : List Batch :=
  loadedFrom q.before.codec q.before.cursor.target (given q.events)

/-- The batches that were appended so far. -/
def Life.appended (l : Life κ ρ) : List Batch := l.requests.flatMap Request.appended

/-- The batches that were loaded so far. -/
def Life.loaded (l : Life κ ρ) : List Batch := l.requests.flatMap Request.loaded

/-- A batch that is loaded uses up octets. -/
theorem length_of_loadOne {codec : Codec} {target : Option Schema} {bs rest : Bytes} {b : Batch}
    (h : loadOne codec target bs = (.ok b, rest)) : rest.length < bs.length := by
  have htake : ∀ {b rest}, Frame.take codec bs = (.ok b, rest) → rest.length < bs.length := by
    intro b rest htake
    unfold Frame.take at htake
    by_cases hshort : bs.length < Frame.headerLength
    · rw [if_pos hshort] at htake
      exact nomatch (Prod.mk.inj htake).1
    · rw [if_neg hshort] at htake
      have hpos : 0 < Frame.headerLength := by decide
      dsimp only at htake
      split at htake
      · exact nomatch (Prod.mk.inj htake).1
      · split at htake
        · exact nomatch (Prod.mk.inj htake).1
        · rw [← (Prod.mk.inj htake).2, List.length_drop, List.length_drop]
          omega
  unfold loadOne at h
  split at h
  · exact nomatch (Prod.mk.inj h).1
  · rename_i heq
    rw [← (Prod.mk.inj h).2]
    exact htake heq

theorem loadOne_nil (codec : Codec) (target : Option Schema) :
    loadOne codec target [] = (.error (.io .shortRead), []) := rfl

/-- To try for more batches than there can be makes no difference. -/
theorem loads_enough {codec : Codec} {target : Option Schema} {n m : Nat} {bs : Bytes}
    (hn : bs.length ≤ n) (hm : bs.length ≤ m) :
    (loads codec target n bs).1.filterMap Except.toOption
      = (loads codec target m bs).1.filterMap Except.toOption := by
  have hnone : ∀ k, (loads codec target k []).1.filterMap Except.toOption = [] := by
    intro k
    cases k with
    | zero => rfl
    | succ k => rw [loads, loadOne_nil]; rfl
  induction n generalizing m bs with
  | zero =>
    obtain rfl := List.length_eq_zero_iff.1 (Nat.le_zero.1 hn)
    rw [hnone, hnone]
  | succ n ih =>
    cases m with
    | zero =>
      obtain rfl := List.length_eq_zero_iff.1 (Nat.le_zero.1 hm)
      rw [hnone, hnone]
    | succ m =>
      rw [loads, loads]
      cases hone : loadOne codec target bs with
      | mk outcome rest =>
        cases outcome with
        | error f => rfl
        | ok b =>
          have hless := length_of_loadOne hone
          simp only [List.filterMap_cons, Except.toOption]
          rw [ih (m := m) (by omega) (by omega)]

theorem loadedFrom_error {codec : Codec} {target : Option Schema} {bs rest : Bytes} {f : Fault}
    (h : loadOne codec target bs = (.error f, rest)) : loadedFrom codec target bs = [] := by
  unfold loadedFrom
  cases bs.length with
  | zero => rfl
  | succ n => rw [loads, h]; rfl

theorem loadedFrom_nil (codec : Codec) (target : Option Schema) :
    loadedFrom codec target [] = [] := rfl

/-- A whole frame in front is one batch more. -/
theorem loadedFrom_ok {codec : Codec} {target : Option Schema} {bs rest : Bytes} {b : Batch}
    (h : loadOne codec target bs = (.ok b, rest)) :
    loadedFrom codec target bs = b :: loadedFrom codec target rest := by
  have hless := length_of_loadOne h
  obtain ⟨n, hn⟩ := Nat.exists_eq_succ_of_ne_zero (Nat.ne_of_gt (Nat.zero_lt_of_lt hless))
  rw [loadedFrom, hn, loads, h]
  simp only [List.filterMap_cons, Except.toOption]
  rw [loads_enough (m := rest.length) (by omega) (Nat.le_refl _), loadedFrom]

/-- The octets are one whole frame. -/
def IsFrame (codec : Codec) (bs : Bytes) : Prop := ∃ b, Frame.take codec bs = (.ok b, [])

/-! ### Opening and reading -/

/-- What is noted on the way to an open source and behind it: no octets are written, and a
file is opened at most once, and only where no source is open. -/
structure Opening (before : Phase) (more : List Event) : Prop where
  taken : Storage.taken more = []
  output : (calls more).count .openOutput = 0
  once : (calls more).count .openInput ≤ 1
  reading : before = .reading → (calls more).count .openInput = 0

theorem Opening.reads {before : Phase} {prep reads : List Event} (h : Opening before prep)
    (hreads : ∀ e ∈ reads, e.IsRead) : Opening before (prep ++ reads) := by
  have hcalls : calls (prep ++ reads) = calls prep := by
    rw [calls_append, calls_reads hreads, List.append_nil]
  refine ⟨?_, ?_, ?_, ?_⟩
  · rw [taken_append, h.taken, taken_reads hreads]
    rfl
  · rw [hcalls, h.output]
  · rw [hcalls]
    exact h.once
  · rw [hcalls]
    exact h.reading

/-- What is noted until the source is open. -/
theorem Preparing.opening {r q : Run κ ρ} {x t : Watched ω} {outcome : Except Fault ρ}
    (h : Preparing (Watched.channel c) r x (outcome, q, t)) :
    ∃ prep, t.events = x.events ++ prep ∧ given prep = [] ∧ Opening r.phase prep := by
  have hretired : ∀ {sink : κ} {o : Except Fault Unit} {t : Watched ω},
      retireSink (Watched.channel c) sink x = (o, t) →
      ∃ o', t.events = x.events ++ [.tallyWrite (c.written sink), .closeSink o'] := by
    intro sink o t h
    rw [← (Prod.mk.inj h).2]
    exact ⟨_, List.append_assoc ..⟩
  have hrested : ∀ {t : Watched ω}, Rested (Watched.channel c) r x t → r.phase ≠ .reading ∧
      ∃ before, t.events = x.events ++ before ∧ given before = [] ∧ taken before = [] ∧
        (calls before).count .openOutput = 0 ∧ (calls before).count .openInput = 0 := by
    intro t ht
    cases ht with
    | idle hmedium =>
      refine ⟨by rw [phase, hmedium]; exact Phase.noConfusion, [], ?_⟩
      exact ⟨(List.append_nil _).symm, rfl, rfl, rfl, rfl⟩
    | ended hmedium hretire =>
      obtain ⟨o, hevents⟩ := hretired hretire
      refine ⟨by rw [phase, hmedium]; exact Phase.noConfusion, _, hevents, ?_⟩
      exact ⟨rfl, rfl, rfl, rfl⟩
  have hopening : ∀ {t t' : Watched ω} {o : Except Fault ρ},
      Rested (Watched.channel c) r x t → (Watched.channel c).openInput r.path t = (o, t') →
      ∃ prep, t'.events = x.events ++ prep ∧ given prep = [] ∧ Opening r.phase prep := by
    intro t t' o ht hopen
    obtain ⟨hphase, before, hevents, hgiven, htaken, houtput, hinput⟩ := hrested ht
    rw [← (Prod.mk.inj hopen).2]
    refine ⟨before ++ [.openInput r.path ((c.openInput r.path t.inner).1.map fun _ => ())], ?_, ?_,
      ?_, ?_, ?_, fun h => absurd h hphase⟩
    · rw [← List.append_assoc, ← hevents]
      rfl
    · rw [given_append, hgiven]
      rfl
    · rw [taken_append, htaken]
      rfl
    · rw [calls_append, List.count_append, houtput]
      rfl
    · rw [calls_append, List.count_append, hinput]
      exact Nat.le_refl 1
  cases h with
  | unfinished hmedium hretire =>
    obtain ⟨o, hevents⟩ := hretired hretire
    exact ⟨_, hevents, rfl, rfl, rfl, Nat.zero_le 1, fun _ => rfl⟩
  | unopened ht hopen => exact hopening ht hopen
  | opened ht hopen => exact hopening ht hopen
  | «open» hmedium =>
    exact ⟨[], (List.append_nil _).symm, rfl, rfl, rfl, Nat.zero_le 1, fun _ => rfl⟩

/-- A source that could not be opened is no fault of the library. -/
theorem Preparing.facing {r q : Run κ ρ} {s t : ω} {f : Fault} (hfair : c.Fair)
    (h : Preparing c r s (.error f, q, t)) : f.isUserFacing := by
  cases h with
  | unfinished _ hretire => exact hfair.closeSink _ _ f (congrArg (·.1) hretire)
  | unopened _ hopen => exact hfair.openInput _ _ f (congrArg (·.1) hopen)

/-! ### Loading -/

section Loading

variable {r q : Run κ ρ} {x t : Watched ω}

/-- A batch was loaded from exactly one frame. -/
theorem Loading.trace_ok (hbound : c.source.Bounded) (h : Loading (Watched.channel c) r x (.ok (), q, t)) :
    ∃ more b, t.events = x.events ++ more ∧ Opening r.phase more ∧
      Frame.take r.codec (given more) = (.ok b, []) ∧
      r.cursor.target.elim (.ok b) b.coerce = .ok q.cursor.batch := by
  cases h with
  | loaded hprepare hread hshape =>
    obtain ⟨prep, hprep, hnothing, hopening⟩ := hprepare.opening
    obtain ⟨reads, hevents, hreads, hend⟩ := Watched.read_frame hbound r.codec _ _
    rw [hread] at hevents hend
    refine ⟨prep ++ reads, _, ?_, hopening.reads hreads, ?_, hshape⟩
    · rw [← List.append_assoc, ← hprep]
      exact hevents
    · rw [given_append, hnothing, List.nil_append]
      rcases hend with ⟨b, hb, htake⟩ | ⟨f, _, _, hf, -⟩
      · rw [Except.ok.inj hb]
        exact htake
      · exact nomatch hf

/-- Where no batch was loaded none can be found in what the source gave, and on a fair channel
the library is not to blame. -/
theorem Loading.trace_error (hbound : c.source.Bounded) {f : Fault}
    (h : Loading (Watched.channel c) r x (.error f, q, t)) :
    ∃ more, t.events = x.events ++ more ∧ Opening r.phase more ∧ (c.Fair → f.isUserFacing) ∧
      loadedFrom r.codec r.cursor.target (given more) = [] := by
  cases h with
  | unready hprepare =>
    obtain ⟨prep, hprep, hnothing, hopening⟩ := hprepare.opening
    refine ⟨prep, hprep, hopening, fun hfair => hprepare.facing (Watched.fair hfair), ?_⟩
    rw [hnothing, loadedFrom_nil]
  | unread hprepare hread =>
    obtain ⟨prep, hprep, hnothing, hopening⟩ := hprepare.opening
    obtain ⟨reads, hevents, hreads, hend⟩ := Watched.read_frame hbound r.codec _ _
    rw [hread] at hevents hend
    rcases hend with ⟨b, hb, -⟩ | ⟨f, f', rest, hf, hfacing, htake⟩
    · exact nomatch hb
    · refine ⟨prep ++ reads, ?_, hopening.reads hreads, ?_, ?_⟩
      · rw [← List.append_assoc, ← hprep]
        exact hevents
      · rw [Except.error.inj hf]
        exact fun _ => hfacing
      · rw [given_append, hnothing, List.nil_append]
        have hone : loadOne r.codec r.cursor.target (given reads) = (.error f', rest) := by
          rw [loadOne]
          simp only [show Frame.take r.codec (given reads) = _ from htake]
        exact loadedFrom_error hone
  | unshaped hprepare hread hshape =>
    obtain ⟨prep, hprep, hnothing, hopening⟩ := hprepare.opening
    obtain ⟨reads, hevents, hreads, hend⟩ := Watched.read_frame hbound r.codec _ _
    rw [hread] at hevents hend
    rcases hend with ⟨b, hb, htake⟩ | ⟨f, _, _, hf, -⟩
    · obtain ⟨target, htarget, hcoerced⟩ := shaped_eq_error hshape
      refine ⟨prep ++ reads, ?_, hopening.reads hreads,
        fun _ => Batch.isUserFacing_of_coerce hcoerced, ?_⟩
      · rw [← List.append_assoc, ← hprep]
        exact hevents
      · rw [given_append, hnothing, List.nil_append]
        have hone : loadOne r.codec r.cursor.target (given reads) = (.error f, []) := by
          rw [loadOne]
          simp only [show Frame.take r.codec (given reads) = _ from htake, htarget,
            ← Except.ok.inj hb]
          exact congrArg (·, []) hcoerced
        exact loadedFrom_error hone
    · exact nomatch hf

/-- What is noted while batches are loaded until one has rows: as many batches can be found
in what the source gave as are no longer pending, and unless the run failed the source gave
whole frames, one for each. -/
structure Search (r q : Run κ ρ) (more : List Event) : Prop where
  opening : Opening r.phase more
  unopened : q.failed = none → q.phase.rank ≤ 1 → (calls more).count .openInput = 0
  pending : q.pending + (loadedFrom r.codec r.cursor.target (given more)).length = r.pending
  whole : ∃ parts : List Bytes, (∀ g ∈ parts, IsFrame r.codec g) ∧
    parts.length = (loadedFrom r.codec r.cursor.target (given more)).length ∧
    (q.failed = none → given more = parts.flatten)

/-- A batch more was loaded. -/
theorem Search.cons {p : Run κ ρ} {more later : List Event} {b : Batch} (hpending : 0 < r.pending)
    (hopening : Opening r.phase more) (htake : Frame.take r.codec (given more) = (.ok b, []))
    (hshape : r.cursor.target.elim (.ok b) b.coerce = .ok q.cursor.batch)
    (hphase : q.phase = .reading) (hless : q.pending = r.pending - 1) (hcodec : q.codec = r.codec)
    (htarget : q.cursor.target = r.cursor.target) (hrank : q.phase.rank ≤ p.phase.rank)
    (h : Search q p later) :
    Search r p (more ++ later) := by
  have hone : loadOne r.codec r.cursor.target (given more ++ given later)
      = (.ok q.cursor.batch, given later) := by
    rw [loadOne, Frame.take_append htake]
    exact congrArg (·, given later) hshape
  have hloaded : loadedFrom r.codec r.cursor.target (given (more ++ later))
      = q.cursor.batch :: loadedFrom q.codec q.cursor.target (given later) := by
    rw [given_append, loadedFrom_ok hone, hcodec, htarget]
  have hcalls : (calls (more ++ later)).count .openInput = (calls more).count .openInput := by
    rw [calls_append, List.count_append, h.opening.reading hphase, Nat.add_zero]
  obtain ⟨parts, hparts, hlength, hgiven⟩ := h.whole
  refine ⟨⟨?_, ?_, ?_, ?_⟩, ?_, ?_, given more :: parts, ?_, ?_, ?_⟩
  · rw [taken_append, hopening.taken, h.opening.taken]
    rfl
  · rw [calls_append, List.count_append, hopening.output, h.opening.output]
  · rw [hcalls]
    exact hopening.once
  · rw [hcalls]
    exact hopening.reading
  · intro _ hidle
    rw [hphase] at hrank
    exact absurd (Nat.le_trans hrank hidle) (by decide)
  · rw [hloaded, List.length_cons]
    have := h.pending
    omega
  · exact List.forall_mem_cons.2 ⟨⟨b, htake⟩, hcodec ▸ hparts⟩
  · rw [hloaded, List.length_cons, List.length_cons, hlength]
  · intro hfailed
    rw [given_append, hgiven hfailed, List.flatten_cons]

theorem Search.nil (hpending : q.pending = r.pending) : Search r q [] where
  opening := ⟨rfl, rfl, Nat.zero_le 1, fun _ => rfl⟩
  unopened _ _ := rfl
  pending := hpending
  whole := ⟨[], fun _ h => (nomatch h), rfl, fun _ => rfl⟩

/-- A run that could not be loaded has as many batches pending as before. -/
theorem Loading.pending_of_error {s t : ω} {f : Fault} (h : Loading c r s (.error f, q, t)) :
    q.pending = r.pending := by
  cases h with
  | unready hprepare => cases hprepare <;> rfl
  | unread _ _ | unshaped _ _ _ => rfl

/-- A run that was loaded is what it was, but for the batch in the husk. -/
theorem Loading.kept_of_ok {s t : ω} (h : Loading c r s (.ok (), q, t)) :
    q.codec = r.codec ∧ q.cursor.target = r.cursor.target := by
  cases h
  exact ⟨rfl, rfl⟩

/-- **What a search for a row leads to**, and that it fails with what befell it on the way. -/
theorem Searching.search (hbound : c.source.Bounded)
    {left : Except Fault (Option Nat) × Run κ ρ × Watched ω}
    (h : Searching (Watched.channel c) r x left) (hopen : r.phase ≠ .closed) :
    ∃ more, left.2.2.events = x.events ++ more ∧ Search r left.2.1 more ∧
      ∀ f, left.1 = .error f →
        ∃ cause, f = .whileReading cause ∧ (c.Fair → cause.isUserFacing) := by
  induction h with
  | none hpending =>
    exact ⟨[], (List.append_nil _).symm, .nil rfl, fun f h => (nomatch h)⟩
  | failed hpending hload =>
    obtain ⟨more, hevents, hopening, hfacing, hnothing⟩ := hload.trace_error hbound
    refine ⟨more, hevents, ⟨hopening, fun h => (nomatch h), ?_, [], fun _ h => (nomatch h), ?_,
      fun h => (nomatch h)⟩, ?_⟩
    · rw [hnothing]
      exact hload.pending_of_error
    · rw [hnothing]
      rfl
    · intro f hf
      exact ⟨_, (Except.error.inj hf).symm, hfacing⟩
  | row hpending hload hrows =>
    obtain ⟨more, b, hevents, hopening, htake, hshape⟩ := hload.trace_ok hbound
    obtain ⟨hphase, hless, -⟩ := hload.of_ok
    obtain ⟨hcodec, htarget⟩ := hload.kept_of_ok
    refine ⟨more, hevents, ?_, fun f h => (nomatch h)⟩
    rw [← List.append_nil more]
    exact .cons hpending hopening htake hshape hphase hless hcodec htarget (Nat.le_refl _)
      (.nil rfl)
  | more hpending hload hrows hlater ih =>
    obtain ⟨more, b, hevents, hopening, htake, hshape⟩ := hload.trace_ok hbound
    obtain ⟨hphase, hless, -⟩ := hload.of_ok
    obtain ⟨hcodec, htarget⟩ := hload.kept_of_ok
    have hstill := hload.rank.2
    obtain ⟨later, hleft, hsearch, hfaults⟩ := ih hstill
    refine ⟨more ++ later, ?_, ?_, hfaults⟩
    · rw [hleft, hevents, List.append_assoc]
    · exact .cons hpending hopening htake hshape hphase hless hcodec htarget
        (hlater.rank hstill).1 hsearch

end Loading

end ExternalSort.Run
