/-
Closing a spilled run.

Closing lets go of the husk, closes the stream that is open and removes the file.  No step
is left out because an earlier one failed, and the first failure is what closing comes to.
A closed run stays closed, and closing it again does nothing.
-/
import ExternalSort.Fault.First
import ExternalSort.Run.Basic
import ExternalSort.Storage.Area

namespace ExternalSort.Run

open Storage
open Fault

variable {ω κ ρ : Type}

/-- The steps of closing that are recorded, by name. -/
inductive ClosingStep where
  | closeSink
  | closeSource
  | deleteFile

/-- The name of a step. -/
def ClosingStep.name : ClosingStep → String
  | .closeSink => "close_output_stream"
  | .closeSource => "close_input_stream"
  | .deleteFile => "delete_spill_file"

/-- Reports how much a source gave, and closes it. -/
def retireSource (c : Channel ω κ ρ) (source : ρ) (s : ω) : Except Fault Unit × ω :=
  c.closeSource source (c.tallyRead (c.consumed source) s)

/-- Closes whichever stream is open. -/
def retire (c : Channel ω κ ρ) (medium : Medium κ ρ) (s : ω) : First × ω :=
  match medium with
  | .writing sink =>
    let (outcome, s) := retireSink c sink s
    (First.empty.record ClosingStep.closeSink.name outcome, s)
  | .reading source =>
    let (outcome, s) := retireSource c source s
    (First.empty.record ClosingStep.closeSource.name outcome, s)
  | _ => (First.empty, s)

/-- Closes a run. -/
def close (c : Channel ω κ ρ) (r : Run κ ρ) (s : ω) : Except Fault Unit × Run κ ρ × ω :=
  if r.isClosed then (.ok (), r, s)
  else
    let (first, s) := retire c r.medium s
    let (outcome, s) := c.delete r.path s
    ((first.record ClosingStep.deleteFile.name outcome).result,
      { r with cursor := r.cursor.release, pending := 0, medium := .closed }, s)

/-- What is left when a run goes without having been closed: it is closed then, and nobody
learns of a failure. -/
def leave (c : Channel ω κ ρ) (r : Run κ ρ) (s : ω) : ω := (r.close c s).2.2

/-- A run in the next file of a spill area. -/
def createIn (s : Site) : Except Fault (Run FileSink FileSource) × Site :=
  match s.nextFile none with
  | (.error f, s) => (.error f, s)
  | (.ok path, s) => create Site.channel path ⟨s.area.config.compression⟩ s

end ExternalSort.Run
