/-
A channel that is watched.

The watched channel stands in front of another and hands everything on to it.  It notes
what was asked and what that came to: each call of the channel, and what passes through its
streams.  So whatever a run does to its storage, whether that fails or not, can be read off
afterwards, and nothing is changed by it.
-/
import ExternalSort.Storage.Faulty

namespace ExternalSort.Storage

open Fault

/-- What was asked of a channel, with what it came to. -/
inductive Event where
  | openOutput (file : Path) (outcome : Except Fault Unit)
  | openInput (file : Path) (outcome : Except Fault Unit)
  | delete (file : Path) (outcome : Except Fault Unit)
  | tallyWrite (octets : Nat)
  | tallyRead (octets : Nat)
  /-- A sink was offered octets; the outcome are those that it took. -/
  | write (outcome : Except IoFault Bytes)
  | closeSink (outcome : Except Fault Unit)
  /-- A source was asked for octets; the outcome are those that it gave. -/
  | read (outcome : Except IoFault Bytes)
  | closeSource (outcome : Except Fault Unit)

namespace Event

/-- The call of the channel; what passes through its streams is none. -/
def call? : Event → Option Call
  | openOutput _ _ => some .openOutput
  | openInput _ _ => some .openInput
  | delete _ _ => some .delete
  | tallyWrite _ => some .tallyWrite
  | tallyRead _ => some .tallyRead
  | closeSink _ => some .closeSink
  | closeSource _ => some .closeSource
  | write _ | read _ => none

/-- The octets that a sink took. -/
def taken : Event → Bytes
  | write (.ok bs) => bs
  | _ => []

/-- The octets that a source gave. -/
def given : Event → Bytes
  | read (.ok bs) => bs
  | _ => []

/-- The number that was added to the octets written. -/
def tallyWrite? : Event → Option Nat
  | tallyWrite n => some n
  | _ => none

/-- The number that was added to the octets read. -/
def tallyRead? : Event → Option Nat
  | tallyRead n => some n
  | _ => none

end Event

/-- The calls among events. -/
def calls (events : List Event) : List Call := events.filterMap Event.call?

/-- The octets that sinks took, one behind the other. -/
def taken (events : List Event) : Bytes := events.flatMap Event.taken

/-- The octets that sources gave, one behind the other. -/
def given (events : List Event) : Bytes := events.flatMap Event.given

/-- The numbers that were added to the octets written. -/
def talliesWritten (events : List Event) : List Nat := events.filterMap Event.tallyWrite?

/-- The numbers that were added to the octets read. -/
def talliesRead (events : List Event) : List Nat := events.filterMap Event.tallyRead?

/-- The state behind a watched channel, with what was noted so far. -/
structure Watched (ω : Type) where
  inner : ω
  events : List Event

namespace Watched

variable {ω κ ρ : Type}

/-- Notes an event. -/
def note (s : Watched ω) (e : Event) : Watched ω := { s with events := s.events ++ [e] }

/-- A call of the channel behind, noted with its outcome. -/
def heard {α : Type} (e : Except Fault Unit → Event) (f : ω → Except Fault α × ω)
    (s : Watched ω) : Except Fault α × Watched ω :=
  let (outcome, inner) := f s.inner
  (outcome, { s with inner }.note (e (outcome.map fun _ => ())))

/-- The watched channel in front of another. -/
def channel (c : Channel ω κ ρ) : Channel (Watched ω) κ ρ where
  openOutput p := heard (.openOutput p) (c.openOutput p)
  openInput p := heard (.openInput p) (c.openInput p)
  delete p := heard (.delete p) (c.delete p)
  tallyWrite n s := { s with inner := c.tallyWrite n s.inner }.note (.tallyWrite n)
  tallyRead n s := { s with inner := c.tallyRead n s.inner }.note (.tallyRead n)
  sink := {
    write := fun bs (k, s) =>
      let (outcome, k, inner) := c.sink.write bs (k, s.inner)
      (outcome, k, { s with inner }.note (.write (outcome.map bs.take)))
    uninterrupted := fun bs (k, s) => c.sink.uninterrupted bs (k, s.inner) }
  written := c.written
  closeSink k := heard .closeSink (c.closeSink k)
  source := {
    read := fun n (r, s) =>
      let (outcome, r, inner) := c.source.read n (r, s.inner)
      (outcome, r, { s with inner }.note (.read outcome))
    uninterrupted := fun n (r, s) => c.source.uninterrupted n (r, s.inner) }
  consumed := c.consumed
  closeSource r := heard .closeSource (c.closeSource r)

end Watched
end ExternalSort.Storage
