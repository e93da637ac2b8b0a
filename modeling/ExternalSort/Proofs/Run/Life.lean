/-
Lives of runs.

To watch a channel changes nothing: a life has the run, the state and the answers that there
would be without it.  And it makes no difference for what is noted whether the notes start
empty with each request or go on from the request before.  So the events of a whole life can
be followed call by call, and a property of them that no single call breaks holds
throughout.
-/
import ExternalSort.Proofs.Run.Storing
import ExternalSort.Proofs.Run.Upkeep
import ExternalSort.Proofs.Storage.Watched
import ExternalSort.Run.Life

namespace ExternalSort.Run

open Storage

variable {ω κ ρ : Type} {c : Channel ω κ ρ} {l : Life κ ρ} {s : ω}

/-! ### Watching -/

/-- A watched channel mirrors the one behind it. -/
theorem mirror_watched (c : Channel ω κ ρ) :
    Mirror (Watched.channel c) c fun x s => x.inner = s where
  openOutput := by rintro x _ p rfl; exact ⟨rfl, rfl⟩
  openInput := by rintro x _ p rfl; exact ⟨rfl, rfl⟩
  delete := by rintro x _ p rfl; exact ⟨rfl, rfl⟩
  tallyWrite := by rintro x _ n rfl; rfl
  tallyRead := by rintro x _ n rfl; rfl
  write := by rintro x _ k bs rfl; exact ⟨rfl, rfl, rfl⟩
  written := rfl
  closeSink := by rintro x _ k rfl; exact ⟨rfl, rfl⟩
  read := by rintro x _ r n rfl; exact ⟨rfl, rfl, rfl⟩
  consumed := rfl
  closeSource := by rintro x _ r rfl; exact ⟨rfl, rfl⟩

/-- The second state with other events before its own. -/
structure GoesOn (prior : List Event) (x y : Watched ω) : Prop where
  inner : x.inner = y.inner
  events : x.events = prior ++ y.events

theorem GoesOn.note {prior : List Event} {x y : Watched ω} (h : GoesOn prior x y) (inner : ω)
    (e : Event) : GoesOn prior (Watched.note { x with inner } e) (Watched.note { y with inner } e) := by
  refine ⟨rfl, ?_⟩
  show x.events ++ [e] = prior ++ (y.events ++ [e])
  rw [h.events, List.append_assoc]

theorem GoesOn.heard {α : Type} {prior : List Event} {x y : Watched ω} (h : GoesOn prior x y)
    (e : Except Fault Unit → Event) (f : ω → Except Fault α × ω) :
    Same (GoesOn prior) (Watched.heard e f x) (Watched.heard e f y) := by
  unfold Watched.heard
  rw [h.inner]
  exact ⟨rfl, h.note _ _⟩

/-- A watched channel mirrors itself with other events before. -/
theorem mirror_goesOn (c : Channel ω κ ρ) (prior : List Event) :
    Mirror (Watched.channel c) (Watched.channel c) (GoesOn prior) where
  openOutput _ h := h.heard ..
  openInput _ h := h.heard ..
  delete _ h := h.heard ..
  tallyWrite n h := by
    show GoesOn prior (Watched.note _ _) (Watched.note _ _)
    rw [h.inner]
    exact h.note _ _
  tallyRead n h := by
    show GoesOn prior (Watched.note _ _) (Watched.note _ _)
    rw [h.inner]
    exact h.note _ _
  write {x y} k bs h := by
    show Same _ (_, _, Watched.note { x with inner := (c.sink.write bs (k, x.inner)).2.2 } _) _
    rw [h.inner]
    exact ⟨rfl, rfl, h.note _ _⟩
  written := rfl
  closeSink _ h := h.heard ..
  read {x y} r n h := by
    show Same _ (_, _, Watched.note { x with inner := (c.source.read n (r, x.inner)).2.2 } _) _
    rw [h.inner]
    exact ⟨rfl, rfl, h.note _ _⟩
  consumed := rfl
  closeSource _ h := h.heard ..

/-- What a request leads to on the channel. -/
def led (c : Channel ω κ ρ) (r : Run κ ρ) (s : ω) (op : Operation) : List Event :=
  (perform (Watched.channel c) r ⟨s, []⟩ op).2.2.events

/-- A request comes to the same whether it is watched or not. -/
theorem perform_watched (r : Run κ ρ) (x : Watched ω) (op : Operation) :
    perform (Watched.channel c) r x op = ((perform c r x.inner op).1, (perform c r x.inner op).2.1,
      ⟨(perform c r x.inner op).2.2, x.events ++ led c r x.inner op⟩) := by
  obtain ⟨hanswer, hrun, hinner⟩ := (mirror_watched c).perform (s := x) rfl r op
  have hprior : GoesOn x.events x ⟨x.inner, []⟩ := ⟨rfl, (List.append_nil _).symm⟩
  obtain ⟨-, -, -, hevents⟩ := (mirror_goesOn c x.events).perform hprior r op
  refine Prod.ext hanswer (Prod.ext hrun ?_)
  generalize (perform (Watched.channel c) r x op).2.2 = left at hinner hevents ⊢
  obtain ⟨inner, events⟩ := left
  exact congrArg₂ Watched.mk hinner hevents

namespace Life

/-- What becomes of a life that is asked something. -/
theorem ask_eq (c : Channel ω κ ρ) (l : Life κ ρ) (s : ω) (op : Operation) :
    l.ask c s op = ({ l with
      run := (perform c l.run s op).2.1
      requests := l.requests ++ [⟨l.run, op, (perform c l.run s op).1, led c l.run s op⟩] },
      (perform c l.run s op).2.2) := by
  unfold ask
  rw [perform_watched]
  rfl

theorem run_ask (l : Life κ ρ) (s : ω) (op : Operation) :
    (l.ask c s op).1.run = (perform c l.run s op).2.1 := by
  rw [ask_eq]

theorem events_ask (l : Life κ ρ) (s : ω) (op : Operation) :
    (l.ask c s op).1.events = l.events ++ led c l.run s op := by
  rw [ask_eq, events, events, List.flatMap_append, List.append_assoc]
  simp only [List.flatMap_cons, List.flatMap_nil, List.append_nil]

theorem count_calls_ask (l : Life κ ρ) (s : ω) (op : Operation) (call : Call) :
    (calls (l.ask c s op).1.events).count call
      = (calls l.events).count call + (calls (led c l.run s op)).count call := by
  rw [events_ask, calls_append, List.count_append]

/-- What holds of the requests before and of a new one holds of all. -/
theorem forall_requests_ask {P : Request κ ρ → Prop} {op : Operation} (h : ∀ q ∈ l.requests, P q)
    (hlast : P ⟨l.run, op, (perform c l.run s op).1, led c l.run s op⟩) :
    ∀ q ∈ (l.ask c s op).1.requests, P q := by
  rw [ask_eq]
  exact List.forall_mem_append.2 ⟨h, List.forall_mem_singleton.2 hlast⟩

/-- A property that every request keeps is kept by all of them. -/
theorem askAll_induction {P : Life κ ρ → ω → Prop}
    (hstep : ∀ l s op, P l s → P (l.ask c s op).1 (l.ask c s op).2) (ops : List Operation)
    (h : P l s) : P (l.askAll c ops s).1 (l.askAll c ops s).2 := by
  induction ops generalizing l s with
  | nil => exact h
  | cons op ops ih => exact ih (hstep l s op h)

/-- What a life is as it begins. -/
theorem begin_eq_ok {path : Path} {codec : Codec} {s₀ : ω}
    (h : begin c path codec s₀ = (.ok l, s)) :
    ∃ sink, c.openOutput path s₀ = (.ok sink, s) ∧
      l = ⟨⟨.ofBatch .shell, codec, path, 0, .writing sink, none⟩, [.openOutput path (.ok ())],
        []⟩ := by
  obtain ⟨outcome, s', hopen⟩ : ∃ outcome s', c.openOutput path s₀ = (outcome, s') := ⟨_, _, rfl⟩
  have hheard : (Watched.channel c).openOutput path ⟨s₀, []⟩
      = (outcome, ⟨s', [.openOutput path (outcome.map fun _ => ())]⟩) := by
    show Watched.heard (.openOutput path) (c.openOutput path) ⟨s₀, []⟩ = _
    rw [Watched.heard, hopen]
    rfl
  rw [begin, create, hheard] at h
  cases outcome with
  | error f => exact nomatch (Prod.mk.inj h).1
  | ok sink =>
    obtain ⟨hl, rfl⟩ := Prod.mk.inj h
    exact ⟨sink, hopen, (Except.ok.inj hl).symm⟩

/-- A life begins with a run that is made. -/
theorem create_of_begin {path : Path} {codec : Codec} {s₀ : ω}
    (h : begin c path codec s₀ = (.ok l, s)) :
    create c path codec s₀ = (.ok l.run, s) ∧ l.requests = [] := by
  obtain ⟨sink, hopen, rfl⟩ := begin_eq_ok h
  rw [create, hopen]
  exact ⟨rfl, rfl⟩

theorem state_begin (c : Channel ω κ ρ) (path : Path) (codec : Codec) (s : ω) :
    (begin c path codec s).2 = (c.openOutput path s).2 := by
  have hinner : ((Watched.channel c).openOutput path ⟨s, []⟩).2.inner = (c.openOutput path s).2 :=
    rfl
  rw [← hinner]
  unfold begin create
  generalize (Watched.channel c).openOutput path ⟨s, []⟩ = left
  obtain ⟨outcome, t⟩ := left
  cases outcome <;> rfl

end Life

/-- What no call breaks holds of the events of a whole life, request by request. -/
theorem Upkeep.Holds.ask {p : Path} {U : Upkeep (Watched.channel c) p}
    (h : U.Holds l.run ⟨s, l.events⟩) (op : Operation) :
    U.Holds (l.ask c s op).1.run ⟨(l.ask c s op).2, (l.ask c s op).1.events⟩ := by
  have hleft := h.perform op
  rw [perform_watched] at hleft
  rw [Life.events_ask, Life.ask_eq]
  exact hleft

theorem Upkeep.Holds.askAll {p : Path} {U : Upkeep (Watched.channel c) p}
    (h : U.Holds l.run ⟨s, l.events⟩) (ops : List Operation) :
    U.Holds (l.askAll c ops s).1.run ⟨(l.askAll c ops s).2, (l.askAll c ops s).1.events⟩ :=
  Life.askAll_induction (P := fun l s => U.Holds l.run ⟨s, l.events⟩) (fun _ _ op h => h.ask op)
    ops h

/-! ### Companies -/

theorem forall_mem_middle {α : Type} {P : α → Prop} {xs ys : List α} {x : α} :
    (∀ y ∈ xs ++ x :: ys, P y) ↔ P x ∧ ∀ y ∈ xs ++ ys, P y := by
  rw [List.forall_mem_append, List.forall_mem_cons, List.forall_mem_append]
  exact and_left_comm

theorem eq_pair_of_map {α β : Type} {f : α → β} {xs : List α} {a b : β} (h : xs.map f = [a, b]) :
    ∃ x y, xs = [x, y] ∧ f x = a ∧ f y = b := by
  obtain ⟨x, rest, rfl, hx, hrest⟩ := List.map_eq_cons_iff.1 h
  obtain ⟨y, last, rfl, hy, hlast⟩ := List.map_eq_cons_iff.1 hrest
  obtain rfl := List.map_eq_nil_iff.1 hlast
  exact ⟨x, y, rfl, hx, hy⟩

namespace Company

variable {μ : Type} {name : μ → Naming ω}

/-- What an errand can come to. -/
inductive Attended (c : Channel ω κ ρ) (name : μ → Naming ω) :
    Company ω κ ρ → Company ω κ ρ → Prop where
  | nobody {g} : Attended c name g g
  | unnamed {lives s how f t} : name how s = (.error f, t) → Attended c name ⟨lives, s⟩ ⟨lives, t⟩
  | unmade {lives s how path codec t f s'} : name how s = (.ok (path, codec), t) →
      Life.begin c path codec t = (.error f, s') → Attended c name ⟨lives, s⟩ ⟨lives, s'⟩
  | made {lives s how path codec t l s'} : name how s = (.ok (path, codec), t) →
      Life.begin c path codec t = (.ok l, s') → Attended c name ⟨lives, s⟩ ⟨lives ++ [l], s'⟩
  | asked {before l after s op} : Attended c name ⟨before ++ l :: after, s⟩
      ⟨before ++ (l.ask c s op).1 :: after, (l.ask c s op).2⟩

theorem attended (c : Channel ω κ ρ) (name : μ → Naming ω) (g : Company ω κ ρ)
    (errand : Errand μ) : Attended c name g (g.attend c name errand) := by
  obtain ⟨lives, s⟩ := g
  unfold attend
  cases errand with
  | make how =>
    dsimp only
    unfold Life.make
    cases hname : name how s with
    | mk outcome t =>
      cases outcome with
      | error f => exact .unnamed hname
      | ok named =>
        obtain ⟨path, codec⟩ := named
        dsimp only
        cases hbegin : Life.begin c path codec t with
        | mk outcome s' =>
          cases outcome with
          | error f => exact .unmade hname hbegin
          | ok l => exact .made hname hbegin
  | ask place op =>
    dsimp only
    cases hl : lives[place]? with
    | none => exact .nobody
    | some l =>
      obtain ⟨hplace, rfl⟩ := List.getElem?_eq_some_iff.1 hl
      obtain ⟨before, after, hlives, -, hset⟩ : ∃ before after,
          lives = before ++ lives[place] :: after ∧ before.length = place ∧
          lives.set place ((lives[place]).ask c s op).1
            = before ++ ((lives[place]).ask c s op).1 :: after := List.exists_of_set hplace
      dsimp only
      rw [hset]
      generalize lives[place] = l at hlives ⊢
      subst hlives
      exact .asked

/-- What holds of a life as it begins and is kept by every request holds of every life in a
company. -/
theorem forall_lives {Q : Life κ ρ → Prop}
    (hbegin : ∀ {path codec s l s'}, Life.begin c path codec s = (.ok l, s') → Q l)
    (hask : ∀ l s op, Q l → Q (l.ask c s op).1) (errands : List (Errand μ)) {g : Company ω κ ρ}
    (h : ∀ l ∈ g.lives, Q l) : ∀ l ∈ (g.attendAll c name errands).lives, Q l := by
  induction errands generalizing g with
  | nil => exact h
  | cons errand errands ih =>
    refine ih ?_
    have hattended := attended c name g errand
    generalize g.attend c name errand = g' at hattended ⊢
    cases hattended with
    | nobody | unnamed _ | unmade _ _ => exact h
    | made _ hmade => exact List.forall_mem_append.2 ⟨h, List.forall_mem_singleton.2 (hbegin hmade)⟩
    | asked =>
      obtain ⟨hl, hothers⟩ := forall_mem_middle.1 h
      exact forall_mem_middle.2 ⟨hask _ _ _ hl, hothers⟩

end Company
end ExternalSort.Run
