/-
Which of the library's messages are shown.

A filter directive sets one level for the targets of the library and leaves everything
else at warnings.
-/
namespace ExternalSort.Trace

/-- The targets under which the library reports. -/
def targets : List String := ["xsort", "spill"]

/-- The directive that sets the level of every target. -/
def directives (level : String) : String :=
  targets.foldl (fun s target => s ++ "," ++ target ++ "=" ++ level) "warn"

end ExternalSort.Trace
