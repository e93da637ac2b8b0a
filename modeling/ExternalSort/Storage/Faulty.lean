/-
A channel that fails on demand.

The faulty channel stands in front of another.  It notes every call that is made, refuses
those it is told to refuse, and hands on the rest.  Its sinks and sources pass on only so
many octets as their budgets allow, and only so many at a time as it is told.  It is how
runs are tried out under every pattern of failures.
-/
import ExternalSort.Storage.Channel

namespace ExternalSort.Storage

open Fault

/-- The calls of a channel that are noted. -/
inductive Call where
  | openOutput
  | openInput
  | delete
  | tallyWrite
  | tallyRead
  | closeSink
  | closeSource
  deriving DecidableEq, Repr

/-- The name of a call. -/
def Call.name : Call → String
  | .openOutput => "open_output"
  | .openInput => "open_input"
  | .delete => "delete"
  | .tallyWrite => "tally_write"
  | .tallyRead => "tally_read"
  | .closeSink => "sink_close"
  | .closeSource => "source_close"

/-- What a faulty channel does wrong. -/
structure Knobs where
  /-- The calls that fail.  Tallies never do. -/
  failing : List Call
  /-- A sink whose budget is used up takes nothing, instead of failing. -/
  takesNothing : Bool
  /-- Octets that sinks still take; none for no limit. -/
  writeBudget : Option Nat
  /-- Octets that sources still give; none for no limit. -/
  readBudget : Option Nat
  /-- The most octets of one call; none for no limit. -/
  chunk : Option Nat

/-- The state behind a faulty channel. -/
structure Faulty (ω : Type) where
  inner : ω
  knobs : Knobs
  /-- The calls made so far, in order. -/
  calls : List Call

namespace Faulty

variable {ω κ ρ : Type}

/-- Notes a call. -/
def note (s : Faulty ω) (c : Call) : Faulty ω := { s with calls := s.calls ++ [c] }

/-- Whether a call is to fail. -/
def fails (s : Faulty ω) (c : Call) : Bool := s.knobs.failing.contains c

/-- Lets a call through to the state behind. -/
def through {α : Type} (s : Faulty ω) (f : ω → Except Fault α × ω) : Except Fault α × Faulty ω :=
  let (r, inner) := f s.inner
  (r, { s with inner })

/-- A call that may be refused. -/
def guarded {α : Type} (c : Call) (f : ω → Except Fault α × ω) (s : Faulty ω) :
    Except Fault α × Faulty ω :=
  let s := s.note c
  if s.fails c then (.error (.storage (.refused c.name)), s) else s.through f

/-- A call that is made, and fails afterwards if it is to fail. -/
def spoiled (c : Call) (text : String) (f : ω → Except Fault Unit × ω) (s : Faulty ω) :
    Except Fault Unit × Faulty ω :=
  let s := s.note c
  let failing := s.fails c
  match s.through f with
  | (.error e, s) => (.error e, s)
  | (.ok _, s) => (if failing then .error (.io (.described .other text)) else .ok (), s)

/-- The lesser of a number and a limit. -/
def limited (n : Nat) (limit : Option Nat) : Nat := limit.elim n (min n)

/-- One call of a sink behind the budget. -/
def write (sink : ByteSink (κ × ω)) (bs : Bytes) (k : κ) (s : Faulty ω) :
    Except IoFault Nat × κ × Faulty ω :=
  if s.knobs.writeBudget = some 0 then
    (if s.knobs.takesNothing then .ok 0 else .error (.described .other "disk full"), k, s)
  else
    let n := limited (limited bs.length s.knobs.chunk) s.knobs.writeBudget
    match sink.write (bs.take n) (k, s.inner) with
    | (.error f, k, inner) => (.error f, k, { s with inner })
    | (.ok taken, k, inner) =>
      let budget := s.knobs.writeBudget.map (· - taken)
      (.ok taken, k, { s with inner, knobs := { s.knobs with writeBudget := budget } })

theorem write_uninterrupted (sink : ByteSink (κ × ω)) (bs : Bytes) (k : κ) (s : Faulty ω) :
    IoFault.Uninterrupted (write sink bs k s).1 := by
  unfold write
  split
  · dsimp only
    split
    · exact .ok
    · exact .error nofun
  · dsimp only
    split
    · rename_i hwrite
      exact congrArg Prod.fst hwrite ▸ sink.uninterrupted ..
    · exact .ok

/-- One call of a source behind the budget. -/
def read (source : ByteSource (ρ × ω)) (n : Nat) (r : ρ) (s : Faulty ω) :
    Except IoFault Bytes × ρ × Faulty ω :=
  if s.knobs.readBudget = some 0 then (.error (.described .other "read fault"), r, s)
  else
    match source.read (limited (limited n s.knobs.chunk) s.knobs.readBudget) (r, s.inner) with
    | (.error f, r, inner) => (.error f, r, { s with inner })
    | (.ok got, r, inner) =>
      let budget := s.knobs.readBudget.map (· - got.length)
      (.ok got, r, { s with inner, knobs := { s.knobs with readBudget := budget } })

theorem read_uninterrupted (source : ByteSource (ρ × ω)) (n : Nat) (r : ρ) (s : Faulty ω) :
    IoFault.Uninterrupted (read source n r s).1 := by
  unfold read
  split
  · exact .error nofun
  · split
    · rename_i hread
      exact congrArg Prod.fst hread ▸ source.uninterrupted ..
    · exact .ok

/-- The faulty channel in front of another. -/
def channel (c : Channel ω κ ρ) : Channel (Faulty ω) κ ρ where
  openOutput p := guarded .openOutput (c.openOutput p)
  openInput p := guarded .openInput (c.openInput p)
  delete p := guarded .delete (c.delete p)
  tallyWrite n s := { s.note .tallyWrite with inner := c.tallyWrite n s.inner }
  tallyRead n s := { s.note .tallyRead with inner := c.tallyRead n s.inner }
  sink := ⟨fun bs (k, s) => write c.sink bs k s, fun bs (k, s) => write_uninterrupted c.sink bs k s⟩
  written := c.written
  closeSink k := spoiled .closeSink "output close failed" (c.closeSink k)
  source := ⟨fun n (r, s) => read c.source n r s, fun n (r, s) => read_uninterrupted c.source n r s⟩
  consumed := c.consumed
  closeSource r := spoiled .closeSource "input close failed" (c.closeSource r)

end Faulty
end ExternalSort.Storage
