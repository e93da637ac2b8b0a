/-
Columns as buffers.

A column becomes one buffer that tells which cells are there, a bit each, and one or two
with the values: words one after the other, or the offsets at which cells begin and end
and the octets of all cells together.  A column that holds nothing has no buffers, and a
column without cells only empty ones.  A cell that is missing takes the place of a zero
word or of an empty text.
-/
import ExternalSort.Column.Basic

namespace ExternalSort.Stream

/-- The number that bits spell, the first the least. -/
def bitsToNat : List Bool → Nat
  | [] => 0
  | b :: r => b.toNat + 2 * bitsToNat r

/-- Bits packed into octets, the first bit of eight the least. -/
def packBits (bits : List Bool) : Bytes :=
  if bits = [] then []
  else UInt8.ofNat (bitsToNat (bits.take 8)) :: packBits (bits.drop 8)
termination_by bits.length
decreasing_by
  have := List.length_pos_iff.2 ‹bits ≠ []›
  rw [List.length_drop]
  omega

/-- The offsets at which things of the given lengths begin, and at which the last ends. -/
def offsetsFrom (start : Nat) : List Nat → List Nat
  | [] => [start]
  | n :: r => start :: offsetsFrom (start + n) r

/-- How the values of a type are laid out. -/
inductive Layout where
  /-- No values. -/
  | nothing
  /-- A bit for each cell. -/
  | bits
  /-- A word of so many octets for each cell. -/
  | words (width : Nat)
  /-- Octets of any length for each cell, with offsets of so many octets. -/
  | pieces (width : Nat)
  deriving DecidableEq

/-- The layout of a type. -/
def layoutOf : ColumnType → Layout
  | .null => .nothing
  | .bool => .bits
  | .int k => .words k.size.octets
  | .float p => .words p.octets
  | .text w => .pieces w.octets
  | .binary => .pieces OffsetWidth.narrow.octets
  | .date => .words 4

/-- How many buffers a column of a layout has. -/
def Layout.bufferCount : Layout → Nat
  | .nothing => 0
  | .bits | .words _ => 2
  | .pieces _ => 3

/-- The word of a cell that has one. -/
def wordOf : (t : ColumnType) → t.Value → Nat
  | .int _, w => BitVec.toNat w
  | .float _, w => BitVec.toNat w
  | .date, w => BitVec.toNat w
  | .bool, b => b.toNat
  | _, _ => 0

/-- The octets of a cell that has any number of them. -/
def pieceOf : (t : ColumnType) → t.Value → Bytes
  | .text _, s => Text.Utf8.encode s
  | .binary, bs => bs
  | _, _ => []

/-- The buffer that tells which cells are there.  Without a missing cell every bit of it is
set, those after the last cell too. -/
def validity (c : Column) : Bytes :=
  if c.missing = 0 then List.replicate ((c.length + 7) / 8) 0xFF
  else packBits (c.cells.map Option.isSome)

/-- The buffers of a column. -/
def buffersOf (c : Column) : List Bytes :=
  match layoutOf c.type with
  | .nothing => []
  | .bits => [validity c, packBits (c.cells.map fun x => x.elim false fun v => wordOf c.type v != 0)]
  | .words width =>
    [validity c, c.cells.flatMap fun x => Bytes.Little.ofNat width (x.elim 0 (wordOf c.type))]
  | .pieces width =>
    let pieces := c.cells.map fun x => x.elim [] (pieceOf c.type)
    let offsets := if c.cells.isEmpty then [] else offsetsFrom 0 (pieces.map List.length)
    [validity c, offsets.flatMap (Bytes.Little.ofNat width), pieces.flatten]

/-- The multiple to which buffers and messages are filled up. -/
def grain : Nat := 64

/-- The least multiple of the grain that is not below a length. -/
def padded (length : Nat) : Nat := (length + grain - 1) / grain * grain

/-- Octets with zeros up to a multiple of the grain. -/
def pad (bs : Bytes) : Bytes := bs ++ List.replicate (padded bs.length - bs.length) 0

/-- The number of cells of a column, and how many of them are missing. -/
structure Node where
  length : Nat
  missing : Nat
  deriving DecidableEq, Repr

/-- A part of a body. -/
structure Extent where
  offset : Nat
  length : Nat
  deriving DecidableEq, Repr

/-- The node of a column. -/
def nodeOf (c : Column) : Node := ⟨c.length, c.missing⟩

/-- The parts that buffers take in a body, one after the other from an offset on. -/
def extentsFrom (offset : Nat) : List Bytes → List Extent
  | [] => []
  | b :: r => ⟨offset, b.length⟩ :: extentsFrom (offset + padded b.length) r

/-- The body made of buffers. -/
def bodyOf (buffers : List Bytes) : Bytes := buffers.flatMap pad

end ExternalSort.Stream
