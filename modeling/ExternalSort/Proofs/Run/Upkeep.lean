/-
Two uses of simulation.

Where two channels have the same streams, and a relation of the states behind them is kept
by every call, a run cannot tell them apart: `Mirror`.

A channel is also related to itself.  Properties of its states, one for each phase of a run,
that no call leads out of are properties that no operation leads out of: `Upkeep`.  What a
run does to its channel in its whole life is proved that way, by looking at single calls.
-/
import ExternalSort.Proofs.Run.Simulation

namespace ExternalSort.Run

open Storage

variable {ω ω' κ ρ : Type}

/-! ### Channels that mirror each other -/

/-- Every call comes to the same on both channels and keeps the relation of their states. -/
structure Mirror (c : Channel ω κ ρ) (d : Channel ω' κ ρ) (rel : ω → ω' → Prop) : Prop where
  openOutput : ∀ {s s'} p, rel s s' → Same rel (c.openOutput p s) (d.openOutput p s')
  openInput : ∀ {s s'} p, rel s s' → Same rel (c.openInput p s) (d.openInput p s')
  delete : ∀ {s s'} p, rel s s' → Same rel (c.delete p s) (d.delete p s')
  tallyWrite : ∀ {s s'} n, rel s s' → rel (c.tallyWrite n s) (d.tallyWrite n s')
  tallyRead : ∀ {s s'} n, rel s s' → rel (c.tallyRead n s) (d.tallyRead n s')
  write : ∀ {s s'} k bs, rel s s' →
    Same (fun x y => x.1 = y.1 ∧ rel x.2 y.2) (c.sink.write bs (k, s)) (d.sink.write bs (k, s'))
  written : c.written = d.written
  closeSink : ∀ {s s'} k, rel s s' → Same rel (c.closeSink k s) (d.closeSink k s')
  read : ∀ {s s'} r n, rel s s' →
    Same (fun x y => x.1 = y.1 ∧ rel x.2 y.2) (c.source.read n (r, s)) (d.source.read n (r, s'))
  consumed : c.consumed = d.consumed
  closeSource : ∀ {s s'} r, rel s s' → Same rel (c.closeSource r s) (d.closeSource r s')

namespace Mirror

variable {c : Channel ω κ ρ} {d : Channel ω' κ ρ} {rel : ω → ω' → Prop} {s : ω} {s' : ω'}

/-- Streams are equal and states are related, in every phase. -/
def simulation (M : Mirror c d rel) (p : Path) : Simulation c d p p where
  writing x y := x.1 = y.1 ∧ rel x.2 y.2
  idle := rel
  reading x y := x.1 = y.1 ∧ rel x.2 y.2
  ending := rel
  closed := rel
  sink := by
    rintro ⟨k, s⟩ ⟨_, s'⟩ ⟨rfl, hs⟩ bs -
    exact M.write k bs hs
  written h := by rw [M.written, h.1]
  closeSink := by
    rintro ⟨k, s⟩ ⟨_, s'⟩ ⟨rfl, hs⟩
    simp only [retireSink, M.written]
    exact M.closeSink k (M.tallyWrite _ hs)
  openInput {s s'} hs := by
    obtain ⟨houtcome, hleft⟩ := M.openInput p hs
    generalize c.openInput p s = step at houtcome hleft ⊢
    generalize d.openInput p s' = step' at houtcome hleft ⊢
    obtain ⟨outcome, t⟩ := step
    obtain ⟨_, t'⟩ := step'
    obtain rfl : outcome = _ := houtcome
    cases outcome with
    | error f => exact .refused hleft
    | ok r => exact .opened (x := (r, t)) (y := (r, t')) ⟨rfl, hleft⟩
  source := by
    rintro ⟨r, s⟩ ⟨_, s'⟩ ⟨rfl, hs⟩ n -
    exact M.read r n hs
  closeSource := by
    rintro ⟨r, s⟩ ⟨_, s'⟩ ⟨rfl, hs⟩
    simp only [retireSource, M.consumed]
    exact M.closeSource r (M.tallyRead _ hs)
  ending_of_idle hs := hs
  delete hs := M.delete p hs

theorem media (M : Mirror c d rel) {p : Path} (hs : rel s s') (medium : Medium κ ρ) :
    Media (M.simulation p) (medium, s) (medium, s') := by
  cases medium with
  | writing k => exact .writing (x := (k, s)) (y := (k, s')) ⟨rfl, hs⟩
  | idle => exact .idle hs
  | reading r => exact .reading (x := (r, s)) (y := (r, s')) ⟨rfl, hs⟩
  | closed => exact .closed hs

theorem eq_of_twins {M : Mirror c d rel} {p : Path} {x : Run κ ρ × ω} {y : Run κ ρ × ω'}
    (h : Twins (M.simulation p) x y) : x.1 = y.1 ∧ rel x.2 y.2 := by
  obtain ⟨hmedia⟩ := h
  cases hmedia with
  | writing h =>
    obtain ⟨hstream, hs⟩ := h
    exact ⟨by rw [hstream], hs⟩
  | idle hs => exact ⟨rfl, hs⟩
  | reading h =>
    obtain ⟨hstream, hs⟩ := h
    exact ⟨by rw [hstream], hs⟩
  | closed hs => exact ⟨rfl, hs⟩

/-- **A run cannot tell a channel from its mirror.** -/
theorem perform (M : Mirror c d rel) (hs : rel s s') (r : Run κ ρ) (op : Operation) :
    Same (fun x y => x.1 = y.1 ∧ rel x.2 y.2) (Run.perform c r s op) (Run.perform d r s' op) := by
  have htwins : Twins (M.simulation r.path) (r, s) (r, s') := ⟨M.media hs r.medium⟩
  obtain ⟨hanswer, hleft⟩ := htwins.perform op
  exact ⟨hanswer.eq, eq_of_twins hleft⟩

end Mirror

/-! ### What no call leads out of -/

/-- Properties of the states behind a channel, one for each phase of a run in a file, that
no call of the run leads out of. -/
structure Upkeep (c : Channel ω κ ρ) (p : Path) where
  writing : κ × ω → Prop
  idle : ω → Prop
  reading : ρ × ω → Prop
  ending : ω → Prop
  closed : ω → Prop
  write : ∀ {x}, writing x → ∀ bs ≠ [], writing (c.sink.write bs x).2
  closeSink : ∀ {x}, writing x → idle (retireSink c x.1 x.2).2
  refused : ∀ {s f s'}, idle s → c.openInput p s = (.error f, s') → idle s'
  opened : ∀ {s r s'}, idle s → c.openInput p s = (.ok r, s') → reading (r, s')
  read : ∀ {x}, reading x → ∀ n > 0, reading (c.source.read n x).2
  closeSource : ∀ {x}, reading x → ending (retireSource c x.1 x.2).2
  ending_of_idle : ∀ {s}, idle s → ending s
  delete : ∀ {s}, ending s → closed (c.delete p s).2

namespace Upkeep

variable {c : Channel ω κ ρ} {p : Path} {r : Run κ ρ} {s : ω}

/-- A run in the file, in a state as it should be in its phase. -/
structure Holds (U : Upkeep c p) (r : Run κ ρ) (s : ω) : Prop where
  path : r.path = p
  state : match r.medium with
    | .writing k => U.writing (k, s)
    | .idle => U.idle s
    | .reading q => U.reading (q, s)
    | .closed => U.closed s

/-- The channel is related to itself where the properties hold. -/
def simulation (U : Upkeep c p) : Simulation c c p p where
  writing x y := x = y ∧ U.writing x
  idle s s' := s = s' ∧ U.idle s
  reading x y := x = y ∧ U.reading x
  ending s s' := s = s' ∧ U.ending s
  closed s s' := s = s' ∧ U.closed s
  sink := by
    rintro x _ ⟨rfl, hx⟩ bs hbs
    exact ⟨rfl, rfl, U.write hx bs hbs⟩
  written h := by rw [h.1]
  closeSink := by
    rintro x _ ⟨rfl, hx⟩
    exact ⟨rfl, rfl, U.closeSink hx⟩
  openInput := by
    rintro s _ ⟨rfl, hs⟩
    have hrefused := @U.refused s
    have hopened := @U.opened s
    generalize c.openInput p s = step at hrefused hopened ⊢
    obtain ⟨outcome, t⟩ := step
    cases outcome with
    | error f => exact .refused ⟨rfl, hrefused hs rfl⟩
    | ok r => exact .opened (x := (r, t)) (y := (r, t)) ⟨rfl, hopened hs rfl⟩
  source := by
    rintro x _ ⟨rfl, hx⟩ n hn
    exact ⟨rfl, rfl, U.read hx n hn⟩
  closeSource := by
    rintro x _ ⟨rfl, hx⟩
    exact ⟨rfl, rfl, U.closeSource hx⟩
  ending_of_idle := by
    rintro s _ ⟨rfl, hs⟩
    exact ⟨rfl, U.ending_of_idle hs⟩
  delete := by
    rintro s _ ⟨rfl, hs⟩
    exact ⟨rfl, rfl, U.delete hs⟩

theorem holds_of_twins {U : Upkeep c p} {r' : Run κ ρ} {s' : ω}
    (h : Twins U.simulation (r, s) (r', s')) : U.Holds r s := by
  obtain ⟨hmedia⟩ := h
  refine ⟨rfl, ?_⟩
  cases hmedia with
  | writing h => exact h.2
  | idle h => exact h.2
  | reading h => exact h.2
  | closed h => exact h.2

theorem Holds.twins {U : Upkeep c p} (h : U.Holds r s) : Twins U.simulation (r, s) (r, s) := by
  obtain ⟨rfl, hstate⟩ := h
  obtain ⟨cursor, codec, path, pending, medium, failed⟩ := r
  refine ⟨?_⟩
  cases medium with
  | writing k => exact .writing (x := (k, s)) (y := (k, s)) ⟨rfl, hstate⟩
  | idle => exact .idle ⟨rfl, hstate⟩
  | reading q => exact .reading (x := (q, s)) (y := (q, s)) ⟨rfl, hstate⟩
  | closed => exact .closed ⟨rfl, hstate⟩

/-- **What no call leads out of no operation leads out of.** -/
theorem Holds.perform {U : Upkeep c p} (h : U.Holds r s) (op : Operation) :
    U.Holds (Run.perform c r s op).2.1 (Run.perform c r s op).2.2 :=
  holds_of_twins (h.twins.perform op).2

end Upkeep
end ExternalSort.Run
