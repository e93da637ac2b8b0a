/-
The types of columns.

Sixteen types are known: the type of columns that hold nothing, truth values, eight kinds
of integers, two kinds of floating point numbers, texts with narrow or wide offsets,
octet strings and dates.  `Value` says what a cell of each type holds.  Words are kept as
bits, so that a cell is equal to another only if it is so bit by bit.
-/
import ExternalSort.Binary.Format
import ExternalSort.Bytes.Little

namespace ExternalSort

/-- How many octets an integer has. -/
inductive IntSize where
  | one
  | two
  | four
  | eight
  deriving DecidableEq, Repr

/-- The number of octets of a size. -/
def IntSize.octets : IntSize → Nat
  | .one => 1
  | .two => 2
  | .four => 4
  | .eight => 8

/-- A kind of integers: with or without a sign, of some size. -/
structure IntKind where
  signed : Bool
  size : IntSize
  deriving DecidableEq, Repr

namespace IntKind

/-- Bits of a word of this kind. -/
def bits (k : IntKind) : Nat := 8 * k.size.octets

/-- The least integer of this kind. -/
def least (k : IntKind) : Int := if k.signed then -Binary.twoTo (k.bits - 1) else 0

/-- The greatest integer of this kind. -/
def greatest (k : IntKind) : Int :=
  (if k.signed then Binary.twoTo (k.bits - 1) else Binary.twoTo k.bits) - 1

/-- The integer that a word of this kind stands for. -/
def toInt (k : IntKind) (w : BitVec k.bits) : Int := if k.signed then w.toInt else w.toNat

/-- The word for an integer, if it is in range. -/
def ofInt? (k : IntKind) (v : Int) : Option (BitVec k.bits) :=
  if k.least ≤ v ∧ v ≤ k.greatest then some (BitVec.ofInt k.bits v) else none

/-- Integers with a sign, of two sizes that casts name. -/
def int32 : IntKind := ⟨true, .four⟩

/-- Integers with a sign, of eight octets. -/
def int64 : IntKind := ⟨true, .eight⟩

end IntKind

/-- How wide the offsets of a text column are. -/
inductive OffsetWidth where
  | narrow
  | wide
  deriving DecidableEq, Repr

/-- Octets of one offset. -/
def OffsetWidth.octets : OffsetWidth → Nat
  | .narrow => 4
  | .wide => 8

/-- The type of a column. -/
inductive ColumnType where
  /-- Columns whose every cell is missing. -/
  | null
  | bool
  | int (kind : IntKind)
  | float (precision : Binary.Precision)
  | text (width : OffsetWidth)
  | binary
  /-- Days from 1970-01-01. -/
  | date
  deriving DecidableEq, Repr

namespace ColumnType

/-- What a cell that is not missing holds. -/
abbrev Value : ColumnType → Type
  | .null => Empty
  | .bool => Bool
  | .int k => BitVec k.bits
  | .float p => Binary.Word p
  | .text _ => String
  | .binary => Bytes
  | .date => BitVec 32

instance : (t : ColumnType) → DecidableEq t.Value
  | .null => fun a => nomatch a
  | .bool => inferInstanceAs (DecidableEq Bool)
  | .int k => inferInstanceAs (DecidableEq (BitVec k.bits))
  | .float p => inferInstanceAs (DecidableEq (BitVec p.bits))
  | .text _ => inferInstanceAs (DecidableEq String)
  | .binary => inferInstanceAs (DecidableEq (List UInt8))
  | .date => inferInstanceAs (DecidableEq (BitVec 32))

/-- The name of a type in messages. -/
def name : ColumnType → String
  | .null => "Null"
  | .bool => "Boolean"
  | .int k => (if k.signed then "Int" else "UInt") ++ toString k.bits
  | .float .single => "Float32"
  | .float .double => "Float64"
  | .text .narrow => "Utf8"
  | .text .wide => "LargeUtf8"
  | .binary => "Binary"
  | .date => "Date32"

end ColumnType
end ExternalSort
