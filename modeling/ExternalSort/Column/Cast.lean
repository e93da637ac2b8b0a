/-
Cells of one type as cells of another.

`castable` says between which types a cast exists; the null type can be cast to every
type, as columns of missing cells, and no type to it.  `castValue` casts a value.  Three
outcomes are kept apart: a value, a cell that goes missing because the target type cannot
represent the value, and a failure.  Only one cast can fail, that of a day beyond the
range of dates to text.
-/
import ExternalSort.Binary.Numeral
import ExternalSort.Column.Basic
import ExternalSort.Fault.Columnar
import ExternalSort.Calendar.Text

namespace ExternalSort

open Text Fault

namespace ColumnType

/-- Whether cells of the first type can be cast to the second. -/
def castable : ColumnType → ColumnType → Bool
  | .null, _ => true
  | _, .null => false
  | .bool, .binary | .bool, .date => false
  | .bool, _ => true
  | .int _, .bool | .int _, .int _ | .int _, .float _ | .int _, .text _ | .int _, .binary => true
  | .int k, .date => k == .int32 || k == .int64
  | .float _, .bool | .float _, .int _ | .float _, .float _ | .float _, .text _ => true
  | .float _, .binary | .float _, .date => false
  | .text _, _ => true
  | .binary, .text _ | .binary, .binary => true
  | .binary, _ => false
  | .date, .int k => k == .int32 || k == .int64
  | .date, .text _ | .date, .date => true
  | .date, _ => false

/-- The words that stand for true. -/
def trueWords : List String := ["t", "tr", "tru", "true", "y", "ye", "yes", "on", "1"]

/-- The words that stand for false. -/
def falseWords : List String := ["f", "fa", "fal", "fals", "false", "n", "no", "of", "off", "0"]

/-- The truth value that a text spells, in any letter case and with blanks around it. -/
def truthOf? (s : String) : Option Bool :=
  let w := String.ofList (foldCase (trimBlank s))
  if w ∈ trueWords then some true
  else if w ∈ falseWords then some false
  else none

/-- The layout of a floating point number in a text cell. -/
def floatLayout : Binary.Precision → Binary.Layout
  | .single => .singleCell
  | .double => .doubleCell

/-- Casts a value; the cell goes missing where the target type cannot represent it. -/
def castValue : (s t : ColumnType) → s.Value → Except ColumnarFault (Option t.Value)
  | .bool, .bool, b => .ok (some b)
  | .bool, .int k, b => .ok (k.ofInt? (if b then 1 else 0))
  | .bool, .float p, b => .ok (some (Binary.ofInt p (if b then 1 else 0)))
  | .bool, .text _, b => .ok (some (if b then "true" else "false"))
  | .int k, .bool, w => .ok (some (k.toInt w != 0))
  | .int k, .int j, w => .ok (j.ofInt? (k.toInt w))
  | .int k, .float p, w => .ok (some (Binary.ofInt p (k.toInt w)))
  | .int k, .text _, w => .ok (some (Numeral.ofInt (k.toInt w)))
  | .int k, .binary, w => .ok (some (Bytes.Little.ofNat k.size.octets w.toNat))
  | .int k, .date, w => .ok (IntKind.int32.ofInt? (k.toInt w))
  | .float _, .bool, w => .ok (some (Binary.Word.unsigned w != 0))
  | .float _, .int k, w => .ok ((Binary.truncate? w).bind k.ofInt?)
  | .float _, .float r, w => .ok (some (Binary.convert r w))
  | .float p, .text _, w => .ok (some (Binary.Word.render (floatLayout p) w))
  | .text _, .bool, s => .ok (truthOf? s)
  | .text _, .int k, s => .ok ((Numeral.signed? k.least k.greatest s.toList).bind k.ofInt?)
  | .text _, .float p, s => .ok (Binary.ofText? p s.toList)
  | .text _, .text _, s => .ok (some s)
  | .text _, .binary, s => .ok (some (Utf8.encode s))
  | .text _, .date, s => .ok ((Calendar.ofText? s).bind IntKind.int32.ofInt?)
  | .binary, .text _, bs => .ok (Utf8.decode? bs)
  | .binary, .binary, bs => .ok (some bs)
  | .date, .int k, d => .ok (k.ofInt? d.toInt)
  | .date, .text _, d => match Calendar.render? d.toInt with
    | some s => .ok (some s)
    | none => .error (.dayOutOfRange d.toInt)
  | .date, .date, d => .ok (some d)
  | _, _, _ => .ok none

/-- Casts a cell; a missing cell stays missing. -/
def castCell (s t : ColumnType) : Option s.Value → Except ColumnarFault (Option t.Value)
  | none => .ok none
  | some v => castValue s t v

end ColumnType

/-- Casts every cell of a column. -/
def Column.cast (c : Column) (t : ColumnType) : Except ColumnarFault Column :=
  (c.cells.mapM (c.type.castCell t)).map fun cells => ⟨t, cells⟩

end ExternalSort
