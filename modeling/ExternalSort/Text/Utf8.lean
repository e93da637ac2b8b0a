/-
Text as octets.

`encode` and `decode?` go through the octets that a string holds, so the two are
inverse by construction.  `defect?` says where octets stop being well formed: it
follows the table of well-formed sequences (a lead octet, the range of the second
octet, then continuation octets), and reports the longest part that could have begun a
sequence.  That is what messages quote.
-/
import ExternalSort.Bytes.Little

namespace ExternalSort.Text.Utf8

/-- The octets of a text. -/
def encode (s : String) : Bytes := s.toByteArray.data.toList

/-- The text that octets spell, if they are well formed. -/
def decode? (bs : Bytes) : Option String := String.fromUTF8? ⟨bs.toArray⟩

/-- Where octets stop being well formed. -/
structure Defect where
  /-- How many octets before it are well formed. -/
  offset : Nat
  /-- How many octets the ill-formed part has; none when the octets end inside a
  sequence that more octets could complete. -/
  length : Option Nat
  deriving DecidableEq, Repr

/-- What a lead octet asks for: the least and greatest second octet, and how many
octets follow the lead. -/
def lead? (b : UInt8) : Option (UInt8 × UInt8 × Nat) :=
  if 0xC2 ≤ b ∧ b ≤ 0xDF then some (0x80, 0xBF, 1)
  else if b = 0xE0 then some (0xA0, 0xBF, 2)
  else if b = 0xED then some (0x80, 0x9F, 2)
  else if 0xE1 ≤ b ∧ b ≤ 0xEF then some (0x80, 0xBF, 2)
  else if b = 0xF0 then some (0x90, 0xBF, 3)
  else if 0xF1 ≤ b ∧ b ≤ 0xF3 then some (0x80, 0xBF, 3)
  else if b = 0xF4 then some (0x80, 0x8F, 3)
  else none

/-- How the octets that follow a lead go on. -/
inductive Tail where
  /-- All are there. -/
  | whole
  /-- So many fit, then one does not. -/
  | broken (fitting : Nat)
  /-- So many fit, then the octets end. -/
  | short (fitting : Nat)

/-- Reads `n` octets, the first of them within `lo … hi` and the others continuations. -/
def tail (lo hi : UInt8) (fitting : Nat) : Nat → Bytes → Tail
  | 0, _ => .whole
  | _ + 1, [] => .short fitting
  | n + 1, b :: r => if lo ≤ b ∧ b ≤ hi then tail 0x80 0xBF (fitting + 1) n r else .broken fitting

/-- Scans with at most `fuel` steps; each step passes one character. -/
def scan (fuel offset : Nat) (bs : Bytes) : Option Defect :=
  match fuel, bs with
  | 0, _ => none
  | _, [] => none
  | fuel + 1, b :: r =>
    if b < 0x80 then scan fuel (offset + 1) r
    else match lead? b with
      | none => some ⟨offset, some 1⟩
      | some (lo, hi, n) =>
        match tail lo hi 0 n r with
        | .whole => scan fuel (offset + n + 1) (r.drop n)
        | .broken k => some ⟨offset, some (k + 1)⟩
        | .short _ => some ⟨offset, none⟩

/-- The first defect of the octets, if they have one. -/
def defect? (bs : Bytes) : Option Defect := scan bs.length 0 bs

/-- A defect in words. -/
def Defect.message (d : Defect) : String :=
  match d.length with
  | some n => s!"invalid utf-8 sequence of {n} bytes from index {d.offset}"
  | none => s!"incomplete utf-8 byte sequence from index {d.offset}"

/-- Replaces each ill-formed part by one replacement character; each step either ends or
passes at least one octet. -/
def patch : Nat → Bytes → String
  | 0, _ => ""
  | fuel + 1, bs =>
    match defect? bs with
    | none => (decode? bs).getD ""
    | some d =>
      (decode? (bs.take d.offset)).getD "" ++ "\uFFFD" ++
        match d.length with
        | none => ""
        | some n => patch fuel (bs.drop (d.offset + max n 1))

/-- The octets as text to show, with each ill-formed part replaced. -/
def display (bs : Bytes) : String :=
  match decode? bs with
  | some s => s
  | none => patch (bs.length + 1) bs

end ExternalSort.Text.Utf8
