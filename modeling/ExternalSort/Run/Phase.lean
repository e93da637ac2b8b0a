/-
The phases of a spilled run and the stages at which it can fail.

A run is written, then stands idle, then is read, then is closed; it may be closed from
any phase and never goes back.
-/
namespace ExternalSort.Run

/-- Where a run stands in its life. -/
inductive Phase where
  | writing
  | idle
  | reading
  | closed
  deriving DecidableEq, Repr

/-- The name of a phase. -/
def Phase.name : Phase → String
  | .writing => "writing"
  | .idle => "idle"
  | .reading => "reading"
  | .closed => "closed"

/-- The rank of a phase; a run never goes to a lower one. -/
def Phase.rank : Phase → Nat
  | .writing => 0
  | .idle => 1
  | .reading => 2
  | .closed => 3

/-- What a run was doing when it failed. -/
inductive Stage where
  | write
  | read
  deriving DecidableEq, Repr

/-- The name of a stage. -/
def Stage.name : Stage → String
  | .write => "write"
  | .read => "read"

end ExternalSort.Run
