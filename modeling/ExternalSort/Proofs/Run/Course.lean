/-
The course of a life on the channel.

A run makes its calls in a fixed order, however often it is asked for what it cannot do: it
opens its sink, writes, tallies what the sink took and closes it; then it may open its
source, once that succeeds read, and close it in the same way; at last it removes its file.
`Course` is that order, with the tallies in it.  So a tally stands right before the closing
of the stream that it is about, whether that fails or not, and says what passed through it.

It is proved call by call, for any channel whose streams count what passes.  Beside it stands
what the tallies of all lives add up to in the state that they share.
-/
import ExternalSort.Proofs.Run.Life
import ExternalSort.Proofs.Storage.Metered

namespace ExternalSort.Run

open Storage

/-! ### The order of calls -/

/-- The events of a run in a file, up to a phase. -/
inductive Course (p : Path) : Phase → List Event → Prop where
  | born : Course p .writing [.openOutput p (.ok ())]
  | wrote {es o} : Course p .writing es → Course p .writing (es ++ [.write o])
  | ended {es o} : Course p .writing es →
      Course p .idle (es ++ [.tallyWrite (taken es).length, .closeSink o])
  | refused {es f} : Course p .idle es → Course p .idle (es ++ [.openInput p (.error f)])
  | opened {es} : Course p .idle es → Course p .reading (es ++ [.openInput p (.ok ())])
  | gave {es o} : Course p .reading es → Course p .reading (es ++ [.read o])
  | dropped {es o} : Course p .idle es → Course p .closed (es ++ [.delete p o])
  | left {es o o'} : Course p .reading es →
      Course p .closed (es ++ [.tallyRead (given es).length, .closeSource o, .delete p o'])

variable {ω κ ρ μ : Type} {c : Channel ω κ ρ} {totals : ω → Totals} {p : Path} {ph : Phase}
  {es : List Event} {r : Run κ ρ} {s : ω} {l : Life κ ρ}

namespace Course

/-- Before it is read a run is given nothing. -/
theorem given_eq_nil (h : Course p ph es) : ph.rank ≤ 1 → given es = [] := by
  induction h with
  | born => exact fun _ => rfl
  | wrote _ ih | ended _ ih | refused _ ih =>
    intro _
    rw [given_append, ih (by decide)]
    rfl
  | opened _ _ | gave _ _ | dropped _ _ | left _ _ => exact fun h => absurd h (by decide)

/-- **What a sink took is tallied once**, when writing ends. -/
theorem written (h : Course p ph es) :
    talliesWritten es = if ph = .writing then [] else [(taken es).length] := by
  induction h with
  | born => rfl
  | wrote _ ih =>
    rw [talliesWritten_append, ih]
    rfl
  | ended _ ih =>
    rw [talliesWritten_append, taken_append, ih]
    exact congrArg (fun bs : Bytes => [bs.length]) (List.append_nil _).symm
  | refused _ ih | opened _ ih | gave _ ih | dropped _ ih | left _ ih =>
    rw [talliesWritten_append, taken_append, ih]
    exact congrArg (fun bs : Bytes => [bs.length]) (List.append_nil _).symm

/-- No source is closed, and nothing that was read tallied, before the run is closed. -/
theorem unread (h : Course p ph es) :
    ph ≠ .closed → talliesRead es = [] ∧ .closeSource ∉ calls es := by
  induction h with
  | born => exact fun _ => ⟨rfl, by simp [calls, Event.call?]⟩
  | wrote _ ih | ended _ ih | refused _ ih | opened _ ih | gave _ ih =>
    intro _
    obtain ⟨htallies, hcalls⟩ := ih (by decide)
    rw [talliesRead_append, htallies, calls_append, List.mem_append]
    exact ⟨rfl, not_or.2 ⟨hcalls, by simp [calls, Event.call?]⟩⟩
  | dropped _ _ | left _ _ => exact fun h => absurd rfl h

/-- **What a source gave is tallied once**, when the source is closed. -/
theorem read (h : Course p ph es) :
    talliesRead es = if .closeSource ∈ calls es then [(given es).length] else [] := by
  by_cases hclosed : ph = .closed
  · cases h with
    | born | wrote _ | ended _ | refused _ | opened _ | gave _ => contradiction
    | dropped h =>
      obtain ⟨htallies, hcalls⟩ := h.unread Phase.noConfusion
      rw [talliesRead_append, htallies, calls_append, if_neg]
      · rfl
      · rw [List.mem_append]
        exact not_or.2 ⟨hcalls, by simp [calls, Event.call?]⟩
    | @left es _ _ h =>
      obtain ⟨htallies, -⟩ := h.unread Phase.noConfusion
      rw [talliesRead_append, htallies, calls_append, if_pos, given_append]
      · exact congrArg (fun bs : Bytes => [bs.length]) (List.append_nil (given es)).symm
      · exact List.mem_append.2 (.inr (by simp [calls, Event.call?]))
  · obtain ⟨htallies, hcalls⟩ := h.unread hclosed
    rw [htallies, if_neg hcalls]

/-- Once the run is closed, all that was read is tallied. -/
theorem sum_read (h : Course p .closed es) : (talliesRead es).sum = (given es).length := by
  cases h with
  | dropped h =>
    rw [talliesRead_append, (h.unread Phase.noConfusion).1, given_append,
      h.given_eq_nil (by decide)]
    rfl
  | @left es _ _ h =>
    rw [talliesRead_append, (h.unread Phase.noConfusion).1, given_append]
    exact congrArg List.length (List.append_nil (given es)).symm

end Course

/-! ### Every life keeps to it -/

/-- No call leads a run off its course, and its streams count what the events say. -/
def onCourse (hM : Metered c totals) (p : Path) : Upkeep (Watched.channel c) p where
  writing x := Course p .writing x.2.events ∧ c.written x.1 = (taken x.2.events).length
  idle x := Course p .idle x.events
  reading x := Course p .reading x.2.events ∧ c.consumed x.1 = (given x.2.events).length
  ending x := Course p .idle x.events ∨ ∃ es o, Course p .reading es ∧
    x.events = es ++ [.tallyRead (given es).length, .closeSource o]
  closed x := Course p .closed x.events
  write {x} h bs _ := by
    refine ⟨h.1.wrote, ?_⟩
    have htaken : taken ((Watched.channel c).sink.write bs x).2.2.events = _ :=
      Watched.sink_records c bs x
    rw [htaken, List.length_append, ← h.2]
    exact hM.written bs x.1 x.2.inner
  closeSink {x} h := by
    obtain ⟨hcourse, hwritten⟩ := h
    show Course p .idle (x.2.events ++ [.tallyWrite (c.written x.1)] ++ [.closeSink _])
    rw [List.append_assoc, hwritten]
    exact hcourse.ended
  refused {x f _} h hopen := by
    rw [(Watched.openInput_eq hopen).2]
    exact h.refused
  opened {x r _} h hopen := by
    obtain ⟨hcall, hevents⟩ := Watched.openInput_eq hopen
    dsimp only
    rw [hevents, hM.fresh hcall, given_append, h.given_eq_nil (by decide)]
    exact ⟨h.opened, rfl⟩
  read {x} h n _ := by
    refine ⟨h.1.gave, ?_⟩
    rw [Watched.given_read c n x, List.length_append, ← h.2]
    exact hM.consumed n x.1 x.2.inner
  closeSource {x} h := by
    obtain ⟨hcourse, hconsumed⟩ := h
    refine .inr ⟨x.2.events, (c.closeSource x.1 (c.tallyRead (c.consumed x.1) x.2.inner)).1.map
      fun _ => (), hcourse, ?_⟩
    rw [← hconsumed]
    exact List.append_assoc ..
  ending_of_idle h := .inl h
  delete {x} h := by
    show Course p .closed (x.events ++ [_])
    rcases h with h | ⟨es, o, h, hevents⟩
    · exact h.dropped
    · rw [hevents, List.append_assoc]
      exact h.left

theorem course_of_holds {hM : Metered c totals} (h : (onCourse hM p).Holds r ⟨s, es⟩) :
    Course p r.phase es := by
  have hstate := h.state
  rw [phase]
  cases hmedium : r.medium with
  | writing _ | reading _ =>
    rw [hmedium] at hstate
    exact hstate.1
  | idle | closed =>
    rw [hmedium] at hstate
    exact hstate

/-- A life is on its course, whatever became of the state that it shares. -/
def Charted (hM : Metered c totals) (l : Life κ ρ) : Prop :=
  ∀ s, (onCourse hM l.run.path).Holds l.run ⟨s, l.events⟩

theorem charted_of_holds {hM : Metered c totals}
    (h : (onCourse hM l.run.path).Holds l.run ⟨s, l.events⟩) : Charted hM l := by
  intro s'
  have hstate := h.state
  refine ⟨rfl, ?_⟩
  cases hmedium : l.run.medium with
  | writing _ | idle | reading _ | closed =>
    rw [hmedium] at hstate
    exact hstate

theorem charted_begin (hM : Metered c totals) {codec : Codec} {s₀ : ω}
    (h : Life.begin c p codec s₀ = (.ok l, s)) : Charted hM l := by
  obtain ⟨sink, hopen, rfl⟩ := Life.begin_eq_ok h
  exact fun _ => ⟨rfl, .born, hM.start hopen⟩

theorem Charted.ask {hM : Metered c totals} (h : Charted hM l) (s : ω) (op : Operation) :
    Charted hM (l.ask c s op).1 := by
  have hleft := (h s).ask op
  have hpath : (l.ask c s op).1.run.path = l.run.path := by
    rw [Life.run_ask]
    exact (kept_perform l.run s op).path
  rw [← hpath] at hleft
  exact charted_of_holds hleft

/-- What a life tallies: it makes its calls in order, and each of its streams is tallied once,
right before it is closed, by what passed through it. -/
structure Tallied (l : Life κ ρ) : Prop where
  course : Course l.run.path l.run.phase l.events
  written : talliesWritten l.events
    = if l.run.phase = .writing then [] else [(taken l.events).length]
  read : talliesRead l.events
    = if .closeSource ∈ calls l.events then [(given l.events).length] else []

theorem Charted.tallied {hM : Metered c totals} (h : Charted hM l) (s : ω) : Tallied l := by
  have hcourse := course_of_holds (h s)
  exact ⟨hcourse, hcourse.written, hcourse.read⟩

/-! ### What the tallies add up to -/

/-- What a life added to the octets written. -/
def Life.writeTally (l : Life κ ρ) : Nat := (talliesWritten l.events).sum

/-- What a life added to the octets read. -/
def Life.readTally (l : Life κ ρ) : Nat := (talliesRead l.events).sum

/-- The totals are what they were and the tallies that were noted since. -/
def Accounted (totals : ω → Totals) (base : Totals) (x : Watched ω) : Prop :=
  Totals.Raised (talliesWritten x.events).sum (talliesRead x.events).sum base (totals x.inner)

theorem Accounted.note {base : Totals} {x : Watched ω} (h : Accounted totals base x) {inner : ω}
    {e : Event} (hcall : Totals.Raised (talliesWritten [e]).sum (talliesRead [e]).sum
      (totals x.inner) (totals inner)) :
    Accounted totals base (Watched.note { x with inner } e) := by
  have hraised := h.trans hcall
  rw [← List.sum_append, ← List.sum_append, ← talliesWritten_append, ← talliesRead_append]
    at hraised
  exact hraised

/-- A call that is no tally keeps the balance. -/
theorem Accounted.heard {α : Type} {base : Totals} {x : Watched ω} (h : Accounted totals base x)
    {e : Except Fault Unit → Event} {f : ω → Except Fault α × ω}
    (hwritten : ∀ o, talliesWritten [e o] = []) (hread : ∀ o, talliesRead [e o] = [])
    (hcall : totals (f x.inner).2 = totals x.inner) :
    Accounted totals base (Watched.heard e f x).2 := by
  refine h.note ?_
  rw [hwritten, hread]
  exact .of_eq hcall

/-- Nothing that a run does changes the totals but its tallies. -/
def balance (hM : Metered c totals) (base : Totals) (p : Path) : Upkeep (Watched.channel c) p where
  writing x := Accounted totals base x.2
  idle := Accounted totals base
  reading x := Accounted totals base x.2
  ending := Accounted totals base
  closed := Accounted totals base
  write {x} h bs _ := h.note (.of_eq (hM.write bs x.1 x.2.inner))
  closeSink h := (h.note (e := .tallyWrite _) (hM.tallyWrite _ _)).heard (fun _ => rfl) (fun _ => rfl)
    (hM.closeSink _ _)
  refused {x f t} h hopen := by
    have hleft := h.heard (e := .openInput p) (f := c.openInput p) (fun _ => rfl) (fun _ => rfl)
      (hM.openInput p x.inner)
    change Watched.heard _ _ x = _ at hopen
    rwa [hopen] at hleft
  opened {x r t} h hopen := by
    have hleft := h.heard (e := .openInput p) (f := c.openInput p) (fun _ => rfl) (fun _ => rfl)
      (hM.openInput p x.inner)
    change Watched.heard _ _ x = _ at hopen
    rwa [hopen] at hleft
  read {x} h n _ := h.note (.of_eq (hM.read n x.1 x.2.inner))
  closeSource h := (h.note (e := .tallyRead _) (hM.tallyRead _ _)).heard (fun _ => rfl) (fun _ => rfl)
    (hM.closeSource _ _)
  ending_of_idle h := h
  delete {x} h := h.heard (fun _ => rfl) (fun _ => rfl) (hM.delete p x.inner)

/-- What a request adds to the totals is what it tallies. -/
theorem raised_perform (hM : Metered c totals) (r : Run κ ρ) (s : ω) (op : Operation) :
    Totals.Raised (talliesWritten (led c r s op)).sum (talliesRead (led c r s op)).sum (totals s)
      (totals (perform c r s op).2.2) := by
  have hnothing : Accounted totals (totals s) ⟨s, []⟩ := Totals.Raised.refl (totals s)
  have hstart : (balance hM (totals s) r.path).Holds r ⟨s, []⟩ := by
    refine ⟨rfl, ?_⟩
    cases r.medium <;> exact hnothing
  have hleft := hstart.perform op
  rw [perform_watched] at hleft
  have hstate := hleft.state
  cases hmedium : (perform c r s op).2.1.medium with
  | writing _ | idle | reading _ | closed =>
    rw [hmedium] at hstate
    exact hstate

theorem Life.tallies_ask (l : Life κ ρ) (s : ω) (op : Operation) :
    (l.ask c s op).1.writeTally = l.writeTally + (talliesWritten (led c l.run s op)).sum ∧
      (l.ask c s op).1.readTally = l.readTally + (talliesRead (led c l.run s op)).sum := by
  unfold writeTally readTally
  rw [events_ask, talliesWritten_append, talliesRead_append, List.sum_append, List.sum_append]
  exact ⟨rfl, rfl⟩

/-- The totals are what they were and what the lives of a company tallied. -/
def Company.Balanced (totals : ω → Totals) (base : Totals) (g : Company ω κ ρ) : Prop :=
  Totals.Raised (g.lives.map Life.writeTally).sum (g.lives.map Life.readTally).sum base
    (totals g.state)

theorem balanced_attend (hM : Metered c totals) {name : μ → Naming ω}
    (hname : ∀ how s, totals (name how s).2 = totals s) {base : Totals} {g : Company ω κ ρ}
    (h : g.Balanced totals base) (errand : Errand μ) :
    (g.attend c name errand).Balanced totals base := by
  have hattended := Company.attended c name g errand
  generalize g.attend c name errand = g' at hattended ⊢
  cases hattended with
  | nobody => exact h
  | @unnamed lives s how f t hnamed =>
    have hkept := hname how s
    rw [hnamed] at hkept
    exact h.trans (.of_eq hkept)
  | @unmade lives s how path codec t f s' hnamed hbegin =>
    have hkept := hname how s
    have hopened := hM.openOutput path t
    rw [hnamed] at hkept
    rw [← Life.state_begin c path codec t, hbegin] at hopened
    exact h.trans (.of_eq (hopened.trans hkept))
  | @made lives s how path codec t l s' hnamed hbegin =>
    have hkept := hname how s
    have hopened := hM.openOutput path t
    rw [hnamed] at hkept
    rw [← Life.state_begin c path codec t, hbegin] at hopened
    -- A life begins without tallies.
    obtain ⟨hwrite, hread⟩ : l.writeTally = 0 ∧ l.readTally = 0 := by
      obtain ⟨sink, -, rfl⟩ := Life.begin_eq_ok hbegin
      exact ⟨rfl, rfl⟩
    unfold Company.Balanced
    simp only [List.map_append, List.sum_append, List.map_cons, List.map_nil, List.sum_cons,
      List.sum_nil, hwrite, hread]
    exact h.trans (.of_eq (hopened.trans hkept))
  | @asked before l after s op =>
    obtain ⟨hwrite, hread⟩ := l.tallies_ask (c := c) s op
    have hraised := h.trans (raised_perform hM l.run s op)
    rw [← congrArg (·.2) (Life.ask_eq c l s op)] at hraised
    have hsum : ∀ a w d b : Nat, a + (w + d + b) = a + (w + b) + d := by omega
    unfold Company.Balanced
    simp only [List.map_append, List.sum_append, List.map_cons, List.sum_cons, hwrite, hread]
      at hraised ⊢
    rw [hsum, hsum]
    exact hraised

/-- **The totals of a channel are what the lives on it tallied**, and nothing else. -/
theorem balanced_attendAll (hM : Metered c totals) {name : μ → Naming ω}
    (hname : ∀ how s, totals (name how s).2 = totals s) (errands : List (Errand μ)) (s₀ : ω) :
    (Company.attendAll c name errands ⟨[], s₀⟩).Balanced totals (totals s₀) := by
  have hall : ∀ {g : Company ω κ ρ}, g.Balanced totals (totals s₀) →
      (g.attendAll c name errands).Balanced totals (totals s₀) := by
    induction errands with
    | nil => exact id
    | cons errand errands ih => exact fun h => ih (balanced_attend hM hname h errand)
  exact hall (.refl _)

end ExternalSort.Run
