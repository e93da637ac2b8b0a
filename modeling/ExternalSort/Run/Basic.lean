/-
Spilled runs.

A spilled run is a sorted run in a spill file, one frame for each batch.  It is written
from front to back, then read from front to back, once, and its file goes when it is
closed.  In memory it has a cursor over a single batch, the husk: while the run is written
the husk has the shape of the latest batch and no rows, while it is read the husk holds the
batch whose rows are being delivered.

A frame that could not be written whole, or not be read, leaves the position in the file
unknown.  The run notes the stage of that first failure and from then on it can only be
closed.

Every operation takes the channel and the state behind it, and gives the outcome together
with the run and the state that it leaves, after failures too.
-/
import ExternalSort.Frame
import ExternalSort.Group.Cursor
import ExternalSort.Storage.Channel

namespace ExternalSort

namespace Run

/-- Which stream of a run is open, with sinks of type `κ` and sources of type `ρ`. -/
inductive Medium (κ ρ : Type) where
  | writing (sink : κ)
  | idle
  | reading (source : ρ)
  | closed

/-- The phase to which a medium belongs. -/
def Medium.phase {κ ρ : Type} : Medium κ ρ → Phase
  | .writing _ => .writing
  | .idle => .idle
  | .reading _ => .reading
  | .closed => .closed

end Run

/-- A spilled run. -/
structure Run (κ ρ : Type) where
  /-- The husk, the next row in it and the target schema. -/
  cursor : Group.Cursor
  codec : Codec
  /-- The spill file. -/
  path : Storage.Path
  /-- Batches that were written and not read back yet. -/
  pending : Nat
  medium : Run.Medium κ ρ
  /-- The stage of the first failure. -/
  failed : Option Run.Stage

namespace Run

open Storage

variable {ω κ ρ : Type}

/-- The phase of a run. -/
def phase (r : Run κ ρ) : Phase := r.medium.phase

/-- Whether a run is closed. -/
def isClosed (r : Run κ ρ) : Bool := r.phase == .closed

/-- How many rows can be delivered without reading further. -/
def count (r : Run κ ρ) : Nat := r.cursor.batch.rows

/-- A run in a file that is made anew. -/
def create (c : Channel ω κ ρ) (path : Path) (codec : Codec) (s : ω) :
    Except Fault (Run κ ρ) × ω :=
  match c.openOutput path s with
  | (.error f, s) => (.error f, s)
  | (.ok sink, s) => (.ok ⟨.ofBatch .shell, codec, path, 0, .writing sink, none⟩, s)

/-- Reshapes the husk and all batches to come. -/
def setSchema (r : Run κ ρ) (target : Schema) : Except Fault (Run κ ρ) :=
  (r.cursor.setSchema target).map fun cursor => { r with cursor }

/-- A batch in the shape of the target schema, if there is one. -/
def shaped (r : Run κ ρ) (b : Batch) : Except Fault Batch := r.cursor.target.elim (.ok b) b.coerce

/-! ### Writing -/

/-- Appends a batch; its emptied form becomes the husk. -/
def add (c : Channel ω κ ρ) (r : Run κ ρ) (b : Batch) (s : ω) :
    Except Fault Unit × Run κ ρ × ω :=
  match r.failed, r.medium with
  | some stage, _ => (.error (.operation (.addAfterFailure stage r.path)), r, s)
  | none, .writing sink => match Frame.write r.codec c.sink b (sink, s) with
    | (.error f, sink, s) => (.error f, { r with medium := .writing sink, failed := some .write }, s)
    | (.ok _, sink, s) =>
      let r := { r with medium := .writing sink, pending := r.pending + 1 }
      match r.shaped b.zeroed with
      | .error f => (.error f, r, s)
      | .ok husk => (.ok (), { r with cursor := r.cursor.replace husk }, s)
  | none, medium => (.error (.operation (.addInPhase medium.phase)), r, s)

/-- Reports how much a sink took, and closes it. -/
def retireSink (c : Channel ω κ ρ) (sink : κ) (s : ω) : Except Fault Unit × ω :=
  c.closeSink sink (c.tallyWrite (c.written sink) s)

/-- Ends writing; gives the number of octets written, zero where writing had ended before. -/
def finish (c : Channel ω κ ρ) (r : Run κ ρ) (s : ω) : Except Fault Nat × Run κ ρ × ω :=
  match r.medium with
  | .writing sink =>
    let (outcome, s) := retireSink c sink s
    (outcome.map fun _ => c.written sink, { r with medium := .idle }, s)
  | _ => (.ok 0, r, s)

/-! ### Reading -/

/-- Brings a run to the point where its source is open. -/
def prepare (c : Channel ω κ ρ) (r : Run κ ρ) (s : ω) : Except Fault ρ × Run κ ρ × ω :=
  match r.finish c s with
  | (.error f, r, s) => (.error f, r, s)
  | (.ok _, r, s) => match r.medium with
    | .idle => match c.openInput r.path s with
      | (.error f, s) => (.error f, r, s)
      | (.ok source, s) => (.ok source, { r with medium := .reading source }, s)
    | .reading source => (.ok source, r, s)
    | medium => (.error (.internal (.noReader medium.phase)), r, s)

/-- Puts a batch into the husk, as the batch read back last. -/
def receive (r : Run κ ρ) (b : Batch) : Except Fault (Run κ ρ) :=
  match r.shaped b with
  | .error f => .error f
  | .ok b =>
    let husk := r.cursor.batch
    let husk := if husk.columns.length = b.columns.length then husk else .empty b.schema
    (husk.transfer b).map fun (filled, _) =>
      { r with pending := r.pending - 1, cursor := { r.cursor with batch := filled } }

/-- Lets go of the rows in the husk; the pointer stays where it is. -/
def hollow (r : Run κ ρ) : Run κ ρ :=
  { r with cursor := { r.cursor with batch := r.cursor.batch.zeroed } }

/-- Loads the next batch into the husk. -/
def load (c : Channel ω κ ρ) (r : Run κ ρ) (s : ω) : Except Fault Unit × Run κ ρ × ω :=
  match r.hollow.prepare c s with
  | (.error f, r, s) => (.error f, r, s)
  | (.ok source, r, s) => match Frame.read r.codec c.source (source, s) with
    | (.error f, source, s) => (.error f, { r with medium := .reading source }, s)
    | (.ok b, source, s) =>
      let r := { r with medium := .reading source }
      match r.receive b with
      | .error f => (.error f, r, s)
      | .ok r => (.ok (), r, s)

/-- Loads batches until one has rows, at most `n`, and delivers its first row. -/
def loadRow (c : Channel ω κ ρ) : Nat → Run κ ρ → ω → Except Fault (Option Nat) × Run κ ρ × ω
  | 0, r, s => (.ok none, r, s)
  | n + 1, r, s => match r.load c s with
    | (.error f, r, s) => (.error (.whileReading f), { r.hollow with failed := some .read }, s)
    | (.ok _, r, s) =>
      if 0 < r.count then (.ok (some 0), { r with cursor := { r.cursor with pointer := 1 } }, s)
      else loadRow c n r s

/-- The next row of the run: its place in the husk, or none behind the last. -/
def next (c : Channel ω κ ρ) (r : Run κ ρ) (s : ω) :
    Except Fault (Option Nat) × Run κ ρ × ω :=
  if r.isClosed then (.error (.operation .readClosed), r, s)
  else match r.failed with
    | some stage => (.error (.whileReading (.storage (.afterFailure stage r.path))), r, s)
    | none =>
      if r.cursor.pointer < r.count then
        let (row, cursor) := r.cursor.next
        (.ok row, { r with cursor }, s)
      else loadRow c r.pending r s

end Run
end ExternalSort
