/-
Tables read from octets of any origin.

Positions count from the start of the buffer.  Nothing is taken on trust: before a buffer
is read, `verify` walks everything that can be reached from its root and checks that words
stand where words may stand, that references and lists stay inside, and that texts are
texts with their zero octet.  What tables hold is described by a catalogue: for each kind
of table the shapes of its fields, and for one pair of fields perhaps a choice, a number
that says of which kind the table behind a reference is.

The walk has a greatest depth and a greatest number of tables, so that references in a
circle end it.
-/
import ExternalSort.Bytes.Little
import ExternalSort.Text.Utf8

namespace ExternalSort.FlatTable

/-! ### Reading at a position -/

/-- Octets each of which can be reached at once. -/
abbrev Buffer := Array UInt8

/-- The octets from a position on, at most `count`. -/
def window (bs : Buffer) (position count : Nat) : Bytes :=
  (bs.extract position (position + count)).toList

theorem window_eq (bs : Buffer) (position count : Nat) :
    window bs position count = (bs.toList.drop position).take count := by
  simp [window, List.extract_eq_take_drop]

/-- The number in `width` octets at a position, if all of them are there. -/
def wordAt? (bs : Buffer) (position width : Nat) : Option Nat :=
  let w := window bs position width
  if w.length = width then some (Bytes.Little.toNat w) else none

/-- The number in a word that stands at a multiple of its size. -/
def alignedWord? (bs : Buffer) (position width : Nat) : Option Nat :=
  if position % width = 0 then wordAt? bs position width else none

/-- The position to which a reference leads. -/
def target? (bs : Buffer) (position : Nat) : Option Nat :=
  (alignedWord? bs position 4).map (position + ·)

/-- A list: the position of its first item, and how many there are.  The items must lie
inside the buffer and begin at a multiple of `grain`. -/
def list? (bs : Buffer) (position width grain : Nat) : Option (Nat × Nat) := do
  let count ← alignedWord? bs position 4
  let start := position + 4
  if start % grain = 0 ∧ start + count * width ≤ bs.size then some (start, count) else none

/-- A text: octets in UTF-8 with a zero octet after them. -/
def text? (bs : Buffer) (position : Nat) : Option String := do
  let (start, count) ← list? bs position 1 1
  let s ← Text.Utf8.decode? (window bs start count)
  if bs[start + count]? = some 0 then some s else none

/-- A table: where it starts, and where its plan is and how long. -/
structure Table where
  octets : Buffer
  position : Nat
  plan : Nat
  planLength : Nat

namespace Table

/-- The table at a position. -/
def at? (bs : Buffer) (position : Nat) : Option Table := do
  let word ← alignedWord? bs position 4
  let back := Bytes.Little.toInt 4 (Bytes.Little.ofNat 4 word)
  let plan := (position : Int) - back
  if plan < 0 ∨ (bs.size : Int) ≤ plan then none
  else
    let plan := plan.toNat
    let length ← alignedWord? bs plan 2
    if length % 2 = 0 ∧ plan + length ≤ bs.size then some ⟨bs, position, plan, length⟩ else none

/-- The position of a field, if the table has it. -/
def field? (t : Table) (slot : Nat) : Option Nat :=
  if 4 + 2 * slot < t.planLength then
    match wordAt? t.octets (t.plan + 4 + 2 * slot) 2 with
    | some 0 | none => none
    | some offset => some (t.position + offset)
  else none

/-- The number in a field, or the given one if the table does not have it. -/
def word (t : Table) (slot width default : Nat) : Nat :=
  ((t.field? slot).bind fun p => wordAt? t.octets p width).getD default

/-- The position to which a field leads. -/
def target? (t : Table) (slot : Nat) : Option Nat :=
  (t.field? slot).bind (FlatTable.target? t.octets)

/-- The table to which a field leads. -/
def table? (t : Table) (slot : Nat) : Option Table := (t.target? slot).bind (at? t.octets)

/-- The text to which a field leads. -/
def text? (t : Table) (slot : Nat) : Option String :=
  (t.target? slot).bind (FlatTable.text? t.octets)

/-- The tables of the list to which a field leads. -/
def tables? (t : Table) (slot : Nat) : Option (List Table) := do
  let (start, count) ← list? t.octets (← t.target? slot) 4 4
  (List.range count).mapM fun i => do at? t.octets (← FlatTable.target? t.octets (start + 4 * i))

/-- The items of the list to which a field leads, each of `width` octets. -/
def structs? (t : Table) (slot width : Nat) : Option (List Bytes) := do
  let (start, count) ← list? t.octets (← t.target? slot) width 1
  some ((List.range count).map fun i => window t.octets (start + width * i) width)

end Table

/-! ### Verifying -/

/-- What may stand in a field, with tables of kinds `κ`. -/
inductive Shape (κ : Type) where
  /-- A word. -/
  | word (width : Nat)
  /-- A reference to a text. -/
  | text
  /-- A reference to a list of items of `width` octets that begins at a multiple of
  `grain`. -/
  | items (width grain : Nat)
  /-- A reference to a table. -/
  | table (kind : κ)
  /-- A reference to a list of references to tables. -/
  | tables (kind : κ)

/-- Two fields of which the first says by a number what table the second leads to.  A table
has both or neither. -/
structure Choice (κ : Type) where
  key : Nat
  value : Nat
  /-- The kind for a number; none where the table is not looked at. -/
  kind : Nat → Option κ

/-- What tables of each kind hold. -/
structure Catalogue (κ : Type) where
  fields : κ → List (Nat × Shape κ)
  choice : κ → Option (Choice κ)

variable {κ : Type}

/-- Checks what stands at a position, down to the next tables; gives those with their kinds. -/
def Shape.check (bs : Buffer) (position : Nat) : Shape κ → Option (List (κ × Nat))
  | .word width => (alignedWord? bs position width).map fun _ => []
  | .text => do
    let _ ← text? bs (← target? bs position)
    some []
  | .items width grain => do
    let _ ← list? bs (← target? bs position) width grain
    some []
  | .table kind => do some [(kind, ← target? bs position)]
  | .tables kind => do
    let (start, count) ← list? bs (← target? bs position) 4 4
    (List.range count).mapM fun i => do some (kind, ← target? bs (start + 4 * i))

/-- Checks a choice; gives the table behind it with its kind. -/
def Choice.check (t : Table) (c : Choice κ) : Option (List (κ × Nat)) :=
  match t.field? c.key, t.field? c.value with
  | none, none => some []
  | some k, some v => do
    match c.kind (← alignedWord? t.octets k 1) with
    | none => some []
    | some kind => do some [(kind, ← target? t.octets v)]
  | _, _ => none

/-- Checks the fields of a table; gives the tables that they lead to. -/
def Catalogue.below (cat : Catalogue κ) (kind : κ) (t : Table) : Option (List (κ × Nat)) := do
  let behind ← (cat.fields kind).mapM fun (slot, shape) =>
    match t.field? slot with
    | none => some []
    | some p => shape.check t.octets p
  let chosen ← (cat.choice kind).elim (some []) (·.check t)
  some (behind.flatten ++ chosen)

/-- Checks a table and all that can be reached from it.  Tables may be nested `depth` deep,
and there may be `budget` of them; what is left of the budget is given back. -/
def Catalogue.verifyTable (cat : Catalogue κ) (bs : Buffer) : Nat → Nat → κ → Nat → Option Nat
  | 0, _, _, _ => none
  | depth + 1, budget, kind, position => do
    let t ← Table.at? bs position
    if budget = 0 then none
    else
      (← cat.below kind t).foldlM (fun left (k, p) => cat.verifyTable bs depth left k p)
        (budget - 1)

/-- How deep tables may be nested. -/
def greatestDepth : Nat := 64

/-- How many tables there may be. -/
def greatestCount : Nat := 1000000

/-- The root table of a buffer, if the whole buffer passes. -/
def Catalogue.root? (cat : Catalogue κ) (bs : Buffer) (kind : κ) : Option Table := do
  let position ← target? bs 0
  let _ ← cat.verifyTable bs greatestDepth greatestCount kind position
  Table.at? bs position

end ExternalSort.FlatTable
