/-
What can be asked of a spilled run, and what it answers.

The operations of a run as data, so that whole histories can be spoken of: any operations
in any order, with the answer to each.  An answer to a request for a row shows the batch in
which the row stands, because that is what a caller goes on to look at.
-/
import ExternalSort.Run.Closing

namespace ExternalSort.Run

open Storage

/-- A request to a run.  The last two reach through to its cursor. -/
inductive Operation where
  | add (batch : Batch)
  | finish
  | next
  | setSchema (target : Schema)
  | close
  | advance (count : Nat)
  | release

/-- What a run answers. -/
inductive Answer where
  | done (outcome : Except Fault Unit)
  | count (outcome : Except Fault Nat)
  /-- A row: its place, and the batch in which it stands. -/
  | row (outcome : Except Fault (Option (Nat × Batch)))
  /-- Where the pointer stood, if it moved. -/
  | place (place : Option Nat)

variable {ω κ ρ : Type}

/-- The next row with the batch in which it stands. -/
def nextRow (c : Channel ω κ ρ) (r : Run κ ρ) (s : ω) :
    Except Fault (Option (Nat × Batch)) × Run κ ρ × ω :=
  let (outcome, r, s) := r.next c s
  (outcome.map (·.map (·, r.cursor.batch)), r, s)

/-- Carries out one request. -/
def perform (c : Channel ω κ ρ) (r : Run κ ρ) (s : ω) : Operation → Answer × Run κ ρ × ω
  | .add b =>
    let (outcome, r, s) := r.add c b s
    (.done outcome, r, s)
  | .finish =>
    let (outcome, r, s) := r.finish c s
    (.count outcome, r, s)
  | .next =>
    let (outcome, r, s) := r.nextRow c s
    (.row outcome, r, s)
  | .setSchema target => match r.setSchema target with
    | .error f => (.done (.error f), r, s)
    | .ok r => (.done (.ok ()), r, s)
  | .close =>
    let (outcome, r, s) := r.close c s
    (.done outcome, r, s)
  | .advance count =>
    let (place, cursor) := r.cursor.advance count
    (.place place, { r with cursor }, s)
  | .release => (.done (.ok ()), { r with cursor := r.cursor.release }, s)

/-- Carries out requests one after the other. -/
def performAll (c : Channel ω κ ρ) : List Operation → Run κ ρ → ω → List Answer × Run κ ρ × ω
  | [], r, s => ([], r, s)
  | op :: ops, r, s =>
    let (answer, r, s) := perform c r s op
    let (answers, r, s) := performAll c ops r s
    (answer :: answers, r, s)

end ExternalSort.Run
