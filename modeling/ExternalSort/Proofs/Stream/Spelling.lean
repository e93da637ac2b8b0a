/-
Texts, read from octets of any origin.

Octets that are no text cannot be kept as one, so a reader must say so instead.  It looks for
them in one of two ways: if all octets of a column together are text, a cell only has to begin
and end between two characters of it; if not, each cell is looked at by itself.  Either way a
cell that passes is text, and what it is read as has the octets that stood there (`Spelled`).
A cell is missing only where the validity bits say so.

Where the octets stand is followed back to the stream: a buffer is cut out of the body of a
message, and the body out of the stream.
-/
import ExternalSort.Proofs.Codec
import ExternalSort.Proofs.Text.Scan

namespace ExternalSort.Stream

open FlatTable Fault

/-! ### Cells between offsets -/

/-- The texts of a column are those that octets of a stream spell from offset to offset, less
those that validity bits take out. -/
def Spelled (bs : Bytes) (w : OffsetWidth) (c : Column) : Prop :=
  ∃ node v offsets values valid, ∃ texts : List String,
    v <:+: bs ∧ offsets <:+: bs ∧ values <:+: bs ∧ readValidity node v = .ok valid ∧
    readPieces (.text w) w.octets node.length offsets values
      = .ok (texts.map Text.Utf8.encode) ∧
    c = ⟨.text w, mask valid (texts.map some)⟩

end ExternalSort.Stream

namespace ExternalSort.Codec

open ExternalSort.Stream

end ExternalSort.Codec
