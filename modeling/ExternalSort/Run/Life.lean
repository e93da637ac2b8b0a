/-
The life of a run, and runs that share a channel.

What is said of a whole life cannot be seen from the run as it stands: how often its file
was opened, which batches were written whole, what passed through its streams.  So a life
keeps every request beside the run, with the run as it was then, the answer, and the events
on the channel that the request led to.  They are what a watched channel notes, one stretch
for each request.

Several runs may share a channel.  Each has its own life, and what they share is the state
behind the channel.
-/
import ExternalSort.Run.Operation
import ExternalSort.Storage.Watched

namespace ExternalSort.Run

open Storage

/-- A request that was made. -/
structure Request (κ ρ : Type) where
  /-- The run as it was asked. -/
  before : Run κ ρ
  op : Operation
  answer : Answer
  /-- What the request led to on the channel. -/
  events : List Event

/-- A run and what happened to it so far. -/
structure Life (κ ρ : Type) where
  run : Run κ ρ
  /-- What making the run led to on the channel. -/
  birth : List Event
  requests : List (Request κ ρ)

variable {ω κ ρ : Type}

namespace Life

/-- The life of a run in a file that is made anew. -/
def begin (c : Channel ω κ ρ) (path : Path) (codec : Codec) (s : ω) :
    Except Fault (Life κ ρ) × ω :=
  let (outcome, s) := create (Watched.channel c) path codec ⟨s, []⟩
  (outcome.map fun run => ⟨run, s.events, []⟩, s.inner)

/-- Makes a request. -/
def ask (c : Channel ω κ ρ) (l : Life κ ρ) (s : ω) (op : Operation) : Life κ ρ × ω :=
  let (answer, run, s) := perform (Watched.channel c) l.run ⟨s, []⟩ op
  ({ l with run, requests := l.requests ++ [⟨l.run, op, answer, s.events⟩] }, s.inner)

/-- Makes requests one after the other. -/
def askAll (c : Channel ω κ ρ) : List Operation → Life κ ρ → ω → Life κ ρ × ω
  | [], l, s => (l, s)
  | op :: ops, l, s =>
    let (l, s) := l.ask c s op
    askAll c ops l s

/-- Everything that the run led to on the channel. -/
def events (l : Life κ ρ) : List Event := l.birth ++ l.requests.flatMap (·.events)

/-- The run as it was asked one thing after the other, and as it is now. -/
def stations (l : Life κ ρ) : List (Run κ ρ) := l.requests.map (·.before) ++ [l.run]

end Life

/-- A way to name files: the path of the next file and the codec for what it will hold. -/
abbrev Naming (ω : Type) := ω → Except Fault (Path × Codec) × ω

/-- The life of a run in a file that is named for it. -/
def Life.make (c : Channel ω κ ρ) (name : Naming ω) (s : ω) : Except Fault (Life κ ρ) × ω :=
  match name s with
  | (.error f, s) => (.error f, s)
  | (.ok (path, codec), s) => begin c path codec s

/-- A spill area names its files itself. -/
def naming : Naming Site := fun s =>
  match s.nextFile none with
  | (.error f, s) => (.error f, s)
  | (.ok path, s) => (.ok (path, ⟨s.area.config.compression⟩), s)

/-- Runs on one channel, each with its life, and the state that they share. -/
structure Company (ω κ ρ : Type) where
  lives : List (Life κ ρ)
  state : ω

/-- What may happen to a company: a run is made, in a way that `how` says, or something is
asked of the run at a place. -/
inductive Errand (μ : Type) where
  | make (how : μ)
  | ask (place : Nat) (op : Operation)

namespace Company

variable {μ : Type}

/-- Carries out an errand.  Nothing is asked where there is no run. -/
def attend (c : Channel ω κ ρ) (name : μ → Naming ω) (g : Company ω κ ρ) :
    Errand μ → Company ω κ ρ
  | .make how => match Life.make c (name how) g.state with
    | (.error _, state) => { g with state }
    | (.ok l, state) => ⟨g.lives ++ [l], state⟩
  | .ask place op => match g.lives[place]? with
    | none => g
    | some l =>
      let (l, state) := l.ask c g.state op
      ⟨g.lives.set place l, state⟩

/-- Carries out errands one after the other. -/
def attendAll (c : Channel ω κ ρ) (name : μ → Naming ω) (errands : List (Errand μ))
    (g : Company ω κ ρ) : Company ω κ ρ :=
  errands.foldl (attend c name) g

end Company

end ExternalSort.Run
