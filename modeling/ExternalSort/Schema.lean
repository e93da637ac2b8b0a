/-
Schemas.

A schema lists the fields of a batch in order.  It carries metadata, pairs of texts with
distinct keys, and so does each of its fields.  Pairs are kept in ascending order of their keys, which is a field of the
type, so that two schemas with the same pairs are equal whatever order the pairs came in.
Field names may repeat; a name then stands for its first field.
-/
import ExternalSort.Column.Type

namespace ExternalSort

/-- Pairs of texts in strictly ascending order of their keys. -/
structure Metadata where
  pairs : List (String × String)
  ascending : pairs.Pairwise (fun a b => a.1 < b.1)
  deriving DecidableEq, Repr

namespace Metadata

/-- No pairs. -/
def empty : Metadata := ⟨[], .nil⟩

/-- Puts a pair in its place; a pair with the same key gives way. -/
def insertPair (key value : String) : List (String × String) → List (String × String)
  | [] => [(key, value)]
  | p :: r =>
    if key < p.1 then (key, value) :: p :: r
    else if key = p.1 then (key, value) :: r
    else p :: insertPair key value r

theorem mem_insertPair {key value : String} {p : String × String}
    {ps : List (String × String)} (h : p ∈ insertPair key value ps) :
    p = (key, value) ∨ p ∈ ps := by
  induction ps with
  | nil => simpa [insertPair] using h
  | cons q r ih =>
    unfold insertPair at h
    split at h
    · simpa using h
    · split at h
      · rcases List.mem_cons.1 h with h | h
        · exact .inl h
        · exact .inr (List.mem_cons_of_mem _ h)
      · rcases List.mem_cons.1 h with h | h
        · exact .inr (h ▸ List.mem_cons_self ..)
        · exact (ih h).imp id (List.mem_cons_of_mem _)

theorem ascending_insertPair {key value : String} {ps : List (String × String)}
    (h : ps.Pairwise (fun a b => a.1 < b.1)) :
    (insertPair key value ps).Pairwise (fun a b => a.1 < b.1) := by
  induction ps with
  | nil => simp [insertPair]
  | cons q r ih =>
    obtain ⟨hq, hr⟩ := List.pairwise_cons.1 h
    unfold insertPair
    split
    · rename_i hlt
      refine List.pairwise_cons.2 ⟨fun p hp => ?_, h⟩
      rcases List.mem_cons.1 hp with rfl | hp
      · exact hlt
      · exact String.lt_trans hlt (hq p hp)
    · split
      · rename_i _ heq
        exact List.pairwise_cons.2 ⟨fun p hp => heq ▸ hq p hp, hr⟩
      · rename_i hlt hne
        refine List.pairwise_cons.2 ⟨fun p hp => ?_, ih hr⟩
        rcases mem_insertPair hp with rfl | hp
        · rcases Decidable.em (q.1 < key) with h | h
          · exact h
          · exact absurd (String.le_antisymm h hlt) hne
        · exact hq p hp

/-- Adds a pair. -/
def insert (m : Metadata) (key value : String) : Metadata :=
  ⟨insertPair key value m.pairs, ascending_insertPair m.ascending⟩

/-- The metadata of pairs in any order; of two with the same key the later one stays. -/
def ofList (pairs : List (String × String)) : Metadata :=
  pairs.foldl (fun m p => m.insert p.1 p.2) empty

end Metadata

/-- One field of a schema. -/
structure Field where
  name : String
  type : ColumnType
  /-- Whether cells may be missing. -/
  nullable : Bool
  metadata : Metadata
  deriving DecidableEq, Repr

/-- A schema. -/
structure Schema where
  fields : List Field
  metadata : Metadata
  deriving DecidableEq

namespace Schema

/-- The schema without fields and metadata. -/
def empty : Schema := ⟨[], .empty⟩

/-- The place of the first field with a name. -/
def indexOf? (s : Schema) (name : String) : Option Nat :=
  s.fields.findIdx? (·.name == name)

/-- The first field with a name. -/
def find? (s : Schema) (name : String) : Option Field :=
  s.fields.find? (·.name == name)

end Schema
end ExternalSort
