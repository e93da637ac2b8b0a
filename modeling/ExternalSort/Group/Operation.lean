/-
What can be asked of a group in memory, and what it answers.

A plain group is a cursor and nothing else; a resident run has a selection beside it, which
changes how many rows there are, which row comes next and what closing lets go of.  Both are
asked the same things.  Some requests reach through to the cursor, where a selection is not
seen to.
-/
import ExternalSort.Group.Resident

namespace ExternalSort.Group

/-- A request to a group.  The last two reach through to its cursor. -/
inductive Operation where
  | next
  | setSchema (target : Schema)
  | close
  | advance (count : Nat)
  | release

/-- What a group answers. -/
inductive Answer where
  | done (outcome : Except Fault Unit)
  /-- The row of the batch that comes next. -/
  | row (outcome : Except OutOfRange (Option Nat))
  /-- Where the pointer stood, if it moved. -/
  | place (place : Option Nat)

namespace Cursor

/-- Carries out one request to a plain group. -/
def perform (c : Cursor) : Operation → Answer × Cursor
  | .next =>
    let (row, c) := c.next
    (.row (.ok row), c)
  | .setSchema target => match c.setSchema target with
    | .error f => (.done (.error f), c)
    | .ok c => (.done (.ok ()), c)
  | .close => (.done (.ok ()), c.release)
  | .advance count =>
    let (place, c) := c.advance count
    (.place place, c)
  | .release => (.done (.ok ()), c.release)

/-- Carries out requests to a plain group one after the other. -/
def performAll : List Operation → Cursor → List Answer × Cursor
  | [], c => ([], c)
  | op :: ops, c =>
    let (answer, c) := c.perform op
    let (answers, c) := performAll ops c
    (answer :: answers, c)

end Cursor

namespace Resident

/-- Carries out one request to a run in memory. -/
def perform (r : Resident) : Operation → Answer × Resident
  | .next =>
    let (row, r) := r.next
    (.row row, r)
  | .setSchema target => match r.cursor.setSchema target with
    | .error f => (.done (.error f), r)
    | .ok cursor => (.done (.ok ()), { r with cursor })
  | .close => (.done (.ok ()), r.close)
  | .advance count =>
    let (place, cursor) := r.cursor.advance count
    (.place place, { r with cursor })
  | .release => (.done (.ok ()), { r with cursor := r.cursor.release })

/-- Carries out requests to a run in memory one after the other. -/
def performAll : List Operation → Resident → List Answer × Resident
  | [], r => ([], r)
  | op :: ops, r =>
    let (answer, r) := r.perform op
    let (answers, r) := performAll ops r
    (answer :: answers, r)

end Resident
end ExternalSort.Group
