/-
Compression of spilled batches.

People type the name of a compression in any letter case, with blanks around it, and two
of the three have a second name.  Documents and messages have one name for each.
-/
import ExternalSort.Text.Blank

namespace ExternalSort

/-- How the bodies of spilled batches are compressed. -/
inductive Compression where
  | none
  | lz4
  | zstd
  deriving DecidableEq, Repr

namespace Compression

open Text

/-- The names that people may type. -/
def typedNames : List (String × Compression) :=
  [("none", .none), ("uncompressed", .none), ("lz4", .lz4), ("lz4_frame", .lz4), ("zstd", .zstd)]

/-- The compression with a typed name. -/
def ofTyped? (s : String) : Option Compression :=
  typedNames.lookup (String.ofList (foldCase (trimBlank s)))

/-- The name in messages. -/
def display : Compression → String
  | .none => "None"
  | .lz4 => "LZ4"
  | .zstd => "ZSTD"

/-- The name in documents. -/
def documentName : Compression → String
  | .none => "none"
  | .lz4 => "lz4"
  | .zstd => "zstd"

/-- All compressions, in the order in which messages list them. -/
def all : List Compression := [.none, .lz4, .zstd]

/-- The compression with a name in a document. -/
def ofDocument? (s : String) : Option Compression := all.find? (·.documentName == s)

/-- The number of the codec in the table of a batch message; none without compression. -/
def codec? : Compression → Option Nat
  | .none => Option.none
  | .lz4 => some 0
  | .zstd => some 1

/-- The name of the codec in the stream format. -/
def codecName? : Compression → Option String
  | .none => Option.none
  | .lz4 => some "LZ4_FRAME"
  | .zstd => some "ZSTD"

theorem ofDocument?_documentName (c : Compression) : ofDocument? c.documentName = some c := by
  cases c <;> decide

end Compression
end ExternalSort
