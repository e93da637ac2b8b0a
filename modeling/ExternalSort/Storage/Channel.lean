/-
The channel between a run and its storage.

A run never touches files.  It opens its streams, deletes its file and reports its counts
through a channel, so the storage can be exchanged, or made to fail.  A channel works on a
state `ω`, its sinks and sources are values of `κ` and `ρ`.
-/
import ExternalSort.Fault.Basic
import ExternalSort.Storage.Stream

namespace ExternalSort.Storage

/-- A channel. -/
structure Channel (ω κ ρ : Type) where
  /-- Makes a file anew and opens it to be written. -/
  openOutput : Path → ω → Except Fault κ × ω
  /-- Opens a file from its start. -/
  openInput : Path → ω → Except Fault ρ × ω
  /-- Removes a file; one that is gone already is no failure. -/
  delete : Path → ω → Except Fault Unit × ω
  /-- Adds to the octets written by all streams. -/
  tallyWrite : Nat → ω → ω
  /-- Adds to the octets read by all streams. -/
  tallyRead : Nat → ω → ω
  /-- One call of a sink. -/
  sink : ByteSink (κ × ω)
  /-- Octets that a sink has taken. -/
  written : κ → Nat
  /-- Writes out what a sink holds and closes it. -/
  closeSink : κ → ω → Except Fault Unit × ω
  /-- One call of a source. -/
  source : ByteSource (ρ × ω)
  /-- Octets that a source has given. -/
  consumed : ρ → Nat
  /-- Closes a source. -/
  closeSource : ρ → ω → Except Fault Unit × ω

end ExternalSort.Storage
