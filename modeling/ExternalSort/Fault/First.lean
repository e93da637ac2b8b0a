/-
The first failure of several steps.

Taking a thing down has steps that must all run, whatever the earlier ones did.  The
record keeps the first failure whole and the names of the steps that failed after it.
-/
import ExternalSort.Fault.Basic

namespace ExternalSort.Fault

/-- The failures of the steps recorded so far. -/
structure First where
  /-- The first failed step and its failure. -/
  first : Option (String × Fault)
  /-- The steps that failed later, in order. -/
  suppressed : List String

namespace First

/-- Nothing recorded yet. -/
def empty : First := ⟨none, []⟩

/-- Records what a step came to. -/
def record (f : First) (step : String) : Except Fault Unit → First
  | .ok _ => f
  | .error fault => match f.first with
    | none => { f with first := some (step, fault) }
    | some _ => { f with suppressed := f.suppressed ++ [step] }

/-- Whether no step has failed. -/
def isOk (f : First) : Bool := f.first.isNone

/-- What all steps together come to. -/
def result (f : First) : Except Fault Unit :=
  match f.first with
  | none => .ok ()
  | some (_, fault) => .error fault

end First
end ExternalSort.Fault
