/-
Tables laid out back to front.

A buffer of tables is written from its end: what a thing refers to stands before it is
written, and every reference leads forward.  A `Draft` is the part that stands so far.
Things in it are known by their *place*, the number of octets from their start to the end
of the buffer, which does not change as more is put in front.  A reference is the
difference of two places.

Words stand at multiples of their size, counted from the end.  The whole is filled up to
a multiple of the largest of these sizes, so that they do so counted from the start too.

A table begins with a reference to its *plan*, the list of the offsets of its fields.
Tables with equal plans share one.
-/
import ExternalSort.Binary.Power
import ExternalSort.Bytes.Little

namespace ExternalSort.FlatTable

/-- What stands of a buffer so far. -/
structure Draft where
  octets : Bytes
  /-- How many octets stand so far. -/
  size : Nat
  /-- The place of the thing written last. -/
  place : Nat
  /-- The plans written so far, with their places. -/
  plans : List (Bytes × Nat)
  /-- The largest size that something was aligned to. -/
  grain : Nat
  counted : size = octets.length

/-- The value of a field of a table. -/
inductive Entry where
  /-- A word of some octets. -/
  | word (width value : Nat)
  /-- A reference to the thing at a place. -/
  | link (place : Nat)

namespace Draft

/-- The empty buffer. -/
def empty : Draft := ⟨[], 0, 0, [], 1, rfl⟩

/-- How many octets are missing to a multiple of `grain`. -/
def gap (length grain : Nat) : Nat := (grain - length % grain) % grain

/-- Puts octets in front. -/
def push (d : Draft) (bs : Bytes) : Draft :=
  { d with
    octets := bs ++ d.octets
    size := bs.length + d.size
    place := bs.length + d.size
    counted := by rw [List.length_append, d.counted] }

/-- Fills up so that something of `length` octets put in front next starts at a multiple of
`grain`. -/
def align (d : Draft) (length grain : Nat) : Draft :=
  { d.push (List.replicate (gap (d.size + length) grain) 0) with grain := max d.grain grain }

/-- Puts a word in front, at a multiple of its size. -/
def word (d : Draft) (width value : Nat) : Draft :=
  (d.align width width).push (Bytes.Little.ofNat width value)

/-- Puts a reference in front. -/
def link (d : Draft) (target : Nat) : Draft :=
  let d := d.align 4 4
  d.push (Bytes.Little.ofNat 4 (d.size + 4 - target))

/-- Puts a text in front: its length, its octets and a zero octet. -/
def text (d : Draft) (bs : Bytes) : Draft :=
  ((d.align (bs.length + 1) 4).push (bs ++ [0])).word 4 bs.length

/-- Puts a list of structs in front, each given by its octets. -/
def structs (d : Draft) (grain : Nat) (items : List Bytes) : Draft :=
  let body := items.flatten
  ((d.align body.length (max grain 4)).push body).word 4 items.length

/-- Puts a list of references in front. -/
def links (d : Draft) (targets : List Nat) : Draft :=
  let d := d.align (4 * targets.length) 4
  (targets.foldr (fun t d => d.link t) d).word 4 targets.length

/-- Puts the value of a field in front. -/
def entry (d : Draft) : Entry → Draft
  | .word width value => d.word width value
  | .link target => d.link target

/-- Puts the fields in front in the given order, and notes the place of each. -/
def entries : List (Nat × Entry) → Draft → Draft × List (Nat × Nat)
  | [], d => (d, [])
  | (slot, e) :: r, d =>
    let d := d.entry e
    let (last, places) := entries r d
    (last, (slot, d.place) :: places)

/-- The plan of a table that starts at `start` and has `size` octets: its own length, the
table's length, and the offset of each field, zero for one that is absent. -/
def plan (start size : Nat) (places : List (Nat × Nat)) : Bytes :=
  let slots := places.foldl (fun n p => max n (p.1 + 1)) 0
  Bytes.Little.ofNat 2 (4 + 2 * slots) ++ Bytes.Little.ofNat 2 size ++
    (List.range slots).flatMap fun i =>
      Bytes.Little.ofNat 2 ((places.lookup i).elim 0 fun p => start - p)

/-- Puts a table in front.  Fields stand in the given order, the last one first. -/
def table (d : Draft) (fields : List (Nat × Entry)) : Draft :=
  let (body, places) := entries fields d
  let body := body.align 4 4
  let start := body.size + 4
  let own := plan start (start - d.size) places
  let reference (place : Nat) : Bytes :=
    Bytes.Little.ofNat 4 ((Binary.twoTo 32 + place - start) % Binary.twoTo 32)
  match body.plans.lookup own with
  | some place => body.push (reference place)
  | none =>
    let place := start + own.length
    { body.push (own ++ reference place) with
      place := start, plans := (own, place) :: body.plans }

/-- The finished buffer with a reference to its root in front. -/
def finish (d : Draft) (root : Nat) : Bytes :=
  ((d.align 4 d.grain).link root).octets

end Draft
end ExternalSort.FlatTable
