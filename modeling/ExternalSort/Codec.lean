/-
Batches as octets.

A codec turns a batch into a stream and back.  A batch is checked before it is written, so
what is written can be read again; and what is read is checked too, so octets of any
origin yield a valid batch or none.
-/
import ExternalSort.Stream.Reader

namespace ExternalSort

/-- How batches are written and read. -/
structure Codec where
  compression : Compression
  deriving DecidableEq, Repr

namespace Codec

/-- The stream of a batch.  That its tables may be too long for their offsets is not looked at
here: they are that only in a stream far longer than a frame. -/
def encode (c : Codec) (b : Batch) : Except Fault Bytes :=
  match b.check with
  | .ok b => .ok (Stream.write c.compression b)
  | .error f => .error (.columnar f)

/-- The batch in a stream. -/
def decode (_ : Codec) (bs : Bytes) : Except Fault Batch :=
  match Stream.read bs with
  | .ok (some b) => .ok b
  | .ok none => .error (.data .noBatch)
  | .error f => .error (.columnar f)

end Codec
end ExternalSort
