/-
The tables of a stream.

What the tables of messages hold, as far as they are checked before a message is read.
-/
import ExternalSort.FlatTable.Reader

namespace ExternalSort.Stream

open FlatTable

/-- The kinds of tables. -/
inductive TableKind where
  | message
  | schema
  | field
  | pair
  | batch
  | compression
  | dictionaryBatch
  | dictionaryEncoding
  /-- The table of a type, by the number of the type's kind. -/
  | type (number : Nat)
  deriving DecidableEq

/-- The fields in the table of a type. -/
def typeShapes : Nat → List (Nat × Shape TableKind)
  | 2 => [(0, .word 4), (1, .word 1)]
  | 3 => [(0, .word 2)]
  | 7 => [(0, .word 4), (1, .word 4), (2, .word 4)]
  | 8 => [(0, .word 2)]
  | 9 => [(0, .word 2), (1, .word 4)]
  | 10 => [(0, .word 2), (1, .text)]
  | 11 => [(0, .word 2)]
  | 14 => [(0, .word 2), (1, .items 4 4)]
  | 15 => [(0, .word 4)]
  | 16 => [(0, .word 4)]
  | 17 => [(0, .word 1)]
  | 18 => [(0, .word 2)]
  | _ => []

/-- The fields of every kind of table. -/
def tableShapes : TableKind → List (Nat × Shape TableKind)
  | .message => [(0, .word 2), (3, .word 8), (4, .tables .pair)]
  | .schema => [(0, .word 2), (1, .tables .field), (2, .tables .pair), (3, .items 8 8)]
  | .field => [(0, .text), (1, .word 1), (4, .table .dictionaryEncoding), (5, .tables .field),
      (6, .tables .pair)]
  | .pair => [(0, .text), (1, .text)]
  | .batch => [(0, .word 8), (1, .items 16 1), (2, .items 16 1), (3, .table .compression),
      (4, .items 8 8)]
  | .compression => [(0, .word 1), (1, .word 1)]
  | .dictionaryBatch => [(0, .word 8), (1, .table .batch), (2, .word 1)]
  | .dictionaryEncoding => [(0, .word 8), (1, .table (.type 2)), (2, .word 1), (3, .word 2)]
  | .type number => typeShapes number

/-- The kind of the header of a message. -/
def headerKind : Nat → Option TableKind
  | 1 => some .schema
  | 2 => some .dictionaryBatch
  | 3 => some .batch
  | _ => none

/-- The kind of the table of a type. -/
def typeKind (number : Nat) : Option TableKind :=
  if 1 ≤ number ∧ number ≤ 26 then some (.type number) else none

/-- The tables of a stream. -/
def catalogue : Catalogue TableKind where
  fields := tableShapes
  choice
    | .message => some ⟨1, 2, headerKind⟩
    | .field => some ⟨2, 3, typeKind⟩
    | _ => none

/-- The table of a message. -/
def messageTable? (bs : Bytes) : Option Table := catalogue.root? bs.toArray .message

end ExternalSort.Stream
