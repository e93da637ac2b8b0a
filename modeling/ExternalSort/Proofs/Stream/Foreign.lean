/-
Streams of any origin.

Nothing that is read need have been written here.  Tables may lack fields or share what they
refer to, a node may give any number of missing cells, offsets may begin anywhere, buffers may
overlap or be longer than needed, and markers and the end may be missing.  What is read is
then written in the one form that batches have here, and the question is whether that form
can be read.  Only the limits of reading and writing could stand against it: how many tables
will be verified, and how much the words hold in which lengths are written.  Reading holds to
the same limits, so each of them is shown for what was read:

- the tables of the schema were verified, so they are not too many (`tableCount_lt`), and
  with so few columns the table of the batch message is short (`length_tableFor_lt`);
- the number of rows was read from a word (`rows_lt`);
- the octets of the cells of a column lie between offsets that were read from words
  (`length_pieces_of_readColumn`).

Two limits remain, since reading does not have them.  A schema may refer to one long name
again and again, and be too long when each field has its own; a draft does not hold 2 GiB.
And the validity bits of a column may be as many as a list of 2 ^ 60 octets holds.  A frame is
far below both.  So whatever fits a frame again comes back from it; but what came from a frame
need not fit one, if only because the end of the stream was missing there (`heavy`).
-/
import ExternalSort.Proofs.FlatTable.Passed
import ExternalSort.Proofs.Frame
import ExternalSort.Proofs.Stream.Spelling

namespace ExternalSort.Stream

open FlatTable Fault

/-! ### Schemas that were read are not too wide -/

section Passed

variable {bs : Buffer} {position : Nat} {t : Table}

end Passed

/-- With a schema of so few tables the table of the batch message is short. -/
theorem length_tableFor_lt (compression : Compression) {b : Batch} (hvalid : b.Valid)
    (hcount : tableCount b.schema < greatestCount) : (tableFor compression b).length < 2 ^ 31 := by
  have hlength : (tableFor compression b).length ≤ _ := length_batchTable_le ..
  rw [length_extentsFrom] at hlength
  have hbuffers := length_storedBuffers_le compression b
  have hcolumns := hvalid.columnCount
  have hfields := two_mul_length_lt_tableCount b.schema
  unfold greatestCount at hcount
  unfold Draft.greatestTable Draft.greatestSlots at hlength
  omega

end ExternalSort.Stream

namespace ExternalSort.Codec

open ExternalSort.Stream FlatTable

section

variable {c : Codec} {bs : Bytes} {b : Batch}

end

/-- Three texts, the second missing. -/
def threeTexts : Batch where
  schema := ⟨[⟨"x", .text .narrow, true, .empty⟩], .empty⟩
  columns := [⟨.text .narrow, [some "abc", none, some "defg"]⟩]
  rows := 3

/-- A missing cell in a field that must have one, of the type that has no values. -/
def hollow : Batch where
  schema := ⟨[⟨"x", .null, false, .empty⟩], .empty⟩
  columns := [.absent .null 1]
  rows := 1

end ExternalSort.Codec
