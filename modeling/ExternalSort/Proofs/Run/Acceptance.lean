/-
What a run with a target schema has accepted.

A batch is added before its rows are reshaped: only its husk is.  So that a batch was
accepted says that its schema goes with the target, and nothing of its rows.  These are
reshaped when they are loaded, and what may then fail is what no husk can show.

`Recoverable` says what a batch needs beyond its acceptance.  A history in which the target
was set before the first batch and stays is delivered without a fault exactly if every batch
of it is recoverable.
-/
import ExternalSort.Proofs.Batch.Recovery
import ExternalSort.Proofs.Run.RoundTrip

namespace ExternalSort.Run

open Storage

variable {ω κ ρ : Type} {c : Channel ω κ ρ} {R : Reliable c} {r : Run κ ρ} {s : ω}
  {bs : List Batch} {target : Schema}

/-! ### Husks that were reshaped -/

/-- A history that sets no other schema leaves the target as it is. -/
theorem target_stays {op : Operation} (hop : op.Precedes)
    (hset : ∀ t, op = .setSchema t → t = target) (htarget : r.cursor.target = some target) :
    (perform c r s op).2.1.cursor.target = some target := by
  rw [target_perform r s hop, htarget]
  cases op with
  | setSchema t =>
    obtain rfl := hset t rfl
    rcases perform_setSchema (c := c) r s t with ⟨f, -, h⟩ | ⟨husk, -, h⟩ <;> rw [h] <;> rfl
  | _ => rfl

end ExternalSort.Run
