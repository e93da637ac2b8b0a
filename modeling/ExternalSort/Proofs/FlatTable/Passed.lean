/-
What is known of a buffer that passed.

The buffer may be of any origin.  That the walk over it passed says that every table it met
passed its checks, and that the budget covered all of these tables, one that it met twice
counted twice.  So who knows of tables that the walk must have met knows that they are not
too many.  `Takes` is that bound from below, the counterpart of `Costs`, which says of a
written buffer what the walk takes exactly.
-/
import ExternalSort.Proofs.FlatTable.Verify

namespace ExternalSort.FlatTable

variable {κ : Type} {cat : Catalogue κ} {bs : Buffer}

/-! ### The checks that passed -/

/-- A walk that passes at a position has spent so much at least. -/
def Catalogue.Takes (cat : Catalogue κ) (bs : Buffer) (kind : κ) (position cost : Nat) : Prop :=
  ∀ depth budget left, cat.verifyTable bs depth budget kind position = some left →
    left + cost ≤ budget

end ExternalSort.FlatTable
