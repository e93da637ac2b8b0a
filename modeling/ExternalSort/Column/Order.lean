/-
The order of cells.

Truth values, integers and dates have their natural order, floating point numbers the
total order of their words, texts and octet strings that of their octets.  A missing cell
comes before all others, in rising and in falling order alike.
-/
import ExternalSort.Column.Basic

namespace ExternalSort

/-- Octet strings in lexicographic order. -/
def compareOctets : Bytes → Bytes → Ordering
  | [], [] => .eq
  | [], _ :: _ => .lt
  | _ :: _, [] => .gt
  | a :: r, b :: s => (compare a b).then (compareOctets r s)

namespace ColumnType

/-- The order of the values of a type. -/
def compareValues : (t : ColumnType) → t.Value → t.Value → Ordering
  | .null, a, _ => nomatch a
  | .bool, a, b => compare a b
  | .int k, a, b => compare (k.toInt a) (k.toInt b)
  | .float _, a, b => compare (Binary.Word.orderKey a) (Binary.Word.orderKey b)
  | .text _, a, b => compareOctets (Text.Utf8.encode a) (Text.Utf8.encode b)
  | .binary, a, b => compareOctets a b
  | .date, a, b => compare a.toInt b.toInt

/-- The order of cells, rising or falling. -/
def compareCells (t : ColumnType) (ascending : Bool) : Option t.Value → Option t.Value → Ordering
  | none, none => .eq
  | none, some _ => .lt
  | some _, none => .gt
  | some a, some b => if ascending then t.compareValues a b else (t.compareValues a b).swap

end ColumnType

/-- The order of two rows in one column. -/
def Column.compareRows (c : Column) (ascending : Bool) (i j : Nat) : Ordering :=
  c.type.compareCells ascending (c.cell i) (c.cell j)

end ExternalSort
