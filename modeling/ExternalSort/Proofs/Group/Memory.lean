/-
Groups in memory, request by request.

A plain group answers as a run in memory that has no selection, and is left as that is.  So
everything is shown for runs in memory, and plain groups come along.

Two things are kept by requests to a run itself.  Its pointer does not go beyond the last of
its rows; and once it is there it stays there, so that a run that has given its last row
gives no other.  Requests that reach through to the cursor do not know of the selection: a
step may be told of more rows than there are, and a release leaves the selection standing.
-/
import ExternalSort.Group.Operation
import ExternalSort.Proofs.Group.Likeness

namespace ExternalSort.Group

/-- A request to the group itself, not through to its cursor. -/
def Operation.Direct : Operation → Prop
  | .advance _ | .release => False
  | _ => True

instance : DecidablePred Operation.Direct
  | .advance _ | .release => isFalse id
  | .next | .setSchema _ | .close => isTrue trivial

/-! ### Plain groups -/

/-- A plain group as a run in memory without a selection. -/
def Cursor.resident (c : Cursor) : Resident := ⟨c, none, 0⟩

theorem Cursor.perform_resident (c : Cursor) (op : Operation) :
    c.resident.perform op = ((c.perform op).1, (c.perform op).2.resident) := by
  cases op with
  | next | close | advance count | release => rfl
  | setSchema target =>
    simp only [Resident.perform, Cursor.perform, Cursor.resident]
    cases c.setSchema target <;> rfl

/-- **A plain group answers as a run in memory without a selection**, whatever is asked. -/
theorem Cursor.performAll_resident (ops : List Operation) (c : Cursor) :
    Resident.performAll ops c.resident
      = ((performAll ops c).1, (performAll ops c).2.resident) := by
  induction ops generalizing c with
  | nil => rfl
  | cons op ops ih =>
    rw [Resident.performAll, c.perform_resident]
    dsimp only
    rw [ih]
    rfl

namespace Resident

variable {r : Resident}

/-- A run that is made begins at the first row. -/
theorem cursor_ofBatch {b : Batch} {selection : Option Selection} {size : Nat}
    (h : ofBatch b selection size = .ok r) : r.cursor = .ofBatch b := by
  unfold ofBatch at h
  split at h
  · split at h
    · exact nomatch h
    · rw [← Except.ok.inj h]
  · rw [← Except.ok.inj h]

/-! ### Single requests -/

/-- A target schema is refused and changes nothing, or it is set and the batch is reshaped. -/
theorem perform_setSchema (r : Resident) (target : Schema) :
    (∃ f, r.perform (.setSchema target) = (.done (.error f), r)) ∨
    ∃ b, r.cursor.batch.coerce target = .ok b ∧ r.perform (.setSchema target)
      = (.done (.ok ()), { r with cursor := { r.cursor with batch := b, target := some target } }) := by
  simp only [perform]
  cases hset : r.cursor.setSchema target with
  | error f => exact .inl ⟨f, rfl⟩
  | ok cursor =>
    obtain ⟨b, hcoerce, rfl⟩ := Cursor.setSchema_eq_ok hset
    exact .inr ⟨b, hcoerce, rfl⟩

theorem perform_next (r : Resident) : r.perform .next = (.row (.ok r.order[r.cursor.pointer]?),
    { r with cursor := (r.cursor.advance r.count).2 }) := by
  rw [perform, next_eq, count_eq]

/-- To reshape a run leaves the number of its rows. -/
theorem count_reshaped {b : Batch} {target : Schema} (h : r.cursor.batch.coerce target = .ok b) :
    count { r with cursor := { r.cursor with batch := b, target := some target } } = r.count := by
  show r.selection.elim b.rows Selection.count = r.selection.elim r.cursor.batch.rows Selection.count
  rw [Batch.rows_coerce h]

theorem count_advanced (r : Resident) (n : Nat) :
    count { r with cursor := (r.cursor.advance n).2 } = r.count := by
  unfold count
  rw [Cursor.batch_advance]

/-- A closed run has no rows and its pointer at the first. -/
theorem close_empty (r : Resident) : r.close.count = 0 ∧ r.close.cursor.pointer = 0 := by
  obtain ⟨cursor, selection, size⟩ := r
  cases selection <;> exact ⟨rfl, rfl⟩

/-- What single requests keep is kept by all of them. -/
theorem performAll_induction {P : Resident → Prop} {ops : List Operation}
    (hstep : ∀ op ∈ ops, ∀ r, P r → P (r.perform op).2) (h : P r) : P (performAll ops r).2 := by
  induction ops generalizing r with
  | nil => exact h
  | cons op ops ih =>
    exact ih (fun op hop => hstep op (List.mem_cons_of_mem _ hop))
      (hstep op (List.mem_cons_self ..) r h)

/-! ### The pointer -/

/-- The pointer is not beyond the last row. -/
def InPlace (r : Resident) : Prop := r.cursor.pointer ≤ r.count

theorem inPlace_perform (h : r.InPlace) {op : Operation} (hop : op.Direct) :
    (r.perform op).2.InPlace := by
  unfold InPlace at h ⊢
  cases op with
  | advance _ | release => exact hop.elim
  | next =>
    rw [perform_next]
    show (r.cursor.advance r.count).2.pointer ≤ count _
    rw [count_advanced, Cursor.pointer_advance]
    split <;> omega
  | setSchema target =>
    rcases perform_setSchema r target with ⟨f, hset⟩ | ⟨b, hcoerce, hset⟩ <;> rw [hset]
    · exact h
    · rw [count_reshaped hcoerce]
      exact h
  | close =>
    show r.close.cursor.pointer ≤ r.close.count
    rw [r.close_empty.2]
    exact Nat.zero_le _

/-- **The pointer of a run in memory never leaves its rows**, as long as requests are to the
run itself. -/
theorem inPlace_performAll {ops : List Operation} (hops : ∀ op ∈ ops, op.Direct) (h : r.InPlace) :
    (performAll ops r).2.InPlace :=
  performAll_induction (fun op hop _ h => inPlace_perform h (hops op hop)) h

/-! ### The end of the rows -/

/-- No row is left to be given. -/
def Exhausted (r : Resident) : Prop := r.count ≤ r.cursor.pointer

/-- A request that is answered with no row finds none and leaves none. -/
theorem exhausted_of_none {op : Operation} (h : (r.perform op).1 = .row (.ok none)) :
    (r.perform op).2.Exhausted := by
  cases op with
  | advance _ | release | close => exact nomatch h
  | setSchema target =>
    rcases perform_setSchema r target with ⟨f, hset⟩ | ⟨b, -, hset⟩ <;> rw [hset] at h <;>
      exact nomatch h
  | next =>
    rw [perform_next] at h ⊢
    have hrow : r.order[r.cursor.pointer]? = none := Except.ok.inj (Answer.row.inj h)
    have hend : r.count ≤ r.cursor.pointer := by
      rw [count_eq]
      exact List.getElem?_eq_none_iff.1 hrow
    show count _ ≤ (r.cursor.advance r.count).2.pointer
    rw [count_advanced, Cursor.pointer_advance, if_pos hend]
    exact hend

theorem exhausted_perform (h : r.Exhausted) {op : Operation} (hop : op.Direct) :
    (r.perform op).2.Exhausted ∧ ∀ row, (r.perform op).1 ≠ .row (.ok (some row)) := by
  unfold Exhausted at h
  cases op with
  | advance _ | release => exact hop.elim
  | next =>
    have hend : r.order[r.cursor.pointer]? = none := List.getElem?_eq_none (by rwa [← count_eq])
    have hanswer : (r.perform .next).1 = .row (.ok none) := by rw [perform_next, hend]
    refine ⟨exhausted_of_none hanswer, fun row => ?_⟩
    rw [hanswer]
    exact nofun
  | setSchema target =>
    rcases perform_setSchema r target with ⟨f, hset⟩ | ⟨b, hcoerce, hset⟩ <;> rw [hset]
    · exact ⟨h, nofun⟩
    · refine ⟨?_, nofun⟩
      unfold Exhausted
      rw [count_reshaped hcoerce]
      exact h
  | close =>
    refine ⟨?_, nofun⟩
    show r.close.count ≤ r.close.cursor.pointer
    rw [r.close_empty.1]
    exact Nat.zero_le _

theorem exhausted_performAll {ops : List Operation} (hops : ∀ op ∈ ops, op.Direct)
    (h : r.Exhausted) : ∀ answer ∈ (performAll ops r).1, ∀ row, answer ≠ .row (.ok (some row)) := by
  induction ops generalizing r with
  | nil => exact fun _ h => (nomatch h)
  | cons op ops ih =>
    obtain ⟨hleft, hanswer⟩ := exhausted_perform h (hops op (List.mem_cons_self ..))
    exact List.forall_mem_cons.2
      ⟨hanswer, ih (fun op hop => hops op (List.mem_cons_of_mem _ hop)) hleft⟩

/-- **A run in memory that has no row once has none ever after**, as long as requests are to
the run itself. -/
theorem exhaustion_stable {ops : List Operation} (hops : ∀ op ∈ ops, op.Direct) (r : Resident) :
    (performAll ops r).1.Pairwise fun answer later =>
      answer = .row (.ok none) → ∀ row, later ≠ .row (.ok (some row)) := by
  induction ops generalizing r with
  | nil => exact .nil
  | cons op ops ih =>
    have hrest : ∀ op ∈ ops, op.Direct := fun op hop => hops op (List.mem_cons_of_mem _ hop)
    refine List.pairwise_cons.2 ⟨?_, ih hrest _⟩
    intro later hlater hnone
    exact exhausted_performAll hrest (exhausted_of_none hnone) later hlater

end Resident
end ExternalSort.Group
