/-
What no operation changes, and what failure leaves.

A run keeps its file and its codec through all operations, whatever they come to.  A run
that has failed stays failed: whatever is asked of it later, no row comes from it any more,
and a request for a row is not answered as at the end of the rows either.
-/
import ExternalSort.Proofs.Run.Adding

namespace ExternalSort.Run

open Storage

variable {ω κ ρ : Type} {c : Channel ω κ ρ}

/-! ### Target schemas -/

/-- A target schema is refused and changes nothing, or it is set and the husk is reshaped. -/
theorem perform_setSchema (r : Run κ ρ) (s : ω) (target : Schema) :
    (∃ f, r.cursor.batch.coerce target = .error f ∧
      perform c r s (.setSchema target) = (.done (.error f), r, s)) ∨
    ∃ husk, r.cursor.batch.coerce target = .ok husk ∧
      perform c r s (.setSchema target) = (.done (.ok ()),
        { r with cursor := { r.cursor with batch := husk, target := some target } }, s) := by
  simp only [perform, setSchema, Group.Cursor.setSchema]
  cases r.cursor.batch.coerce target with
  | error f => exact .inl ⟨f, rfl, rfl⟩
  | ok husk => exact .inr ⟨husk, rfl, rfl⟩

/-! ### Requests that end something -/

/-- To end the writing changes nothing but the phase. -/
theorem perform_finish (r : Run κ ρ) (s : ω) :
    ∃ medium, (perform c r s .finish).2.1 = { r with medium } := by
  show ∃ medium, (r.finish c s).2.1 = { r with medium }
  unfold finish
  split
  · exact ⟨.idle, rfl⟩
  · exact ⟨r.medium, rfl⟩

/-- To close a run does nothing to one that is closed, and has an open one let go of
everything. -/
theorem perform_close (r : Run κ ρ) (s : ω) :
    (r.phase = .closed ∧ (perform c r s .close).2.1 = r) ∨
      (perform c r s .close).2.1
        = { r with cursor := r.cursor.release, pending := 0, medium := .closed } := by
  show (_ ∧ (r.close c s).2.1 = r) ∨ (r.close c s).2.1 = _
  unfold close
  split
  · exact .inl ⟨beq_iff_eq.1 ‹_›, rfl⟩
  · exact .inr rfl

/-! ### Histories -/

/-- A history is its first request and then the others. -/
theorem performAll_cons (r : Run κ ρ) (s : ω) (op : Operation) (ops : List Operation) :
    performAll c (op :: ops) r s
      = ((perform c r s op).1 ::
          (performAll c ops (perform c r s op).2.1 (perform c r s op).2.2).1,
        (performAll c ops (perform c r s op).2.1 (perform c r s op).2.2).2) := rfl

/-- A history is its beginning and then the rest. -/
theorem performAll_append (early late : List Operation) (r : Run κ ρ) (s : ω) :
    performAll c (early ++ late) r s
      = ((performAll c early r s).1 ++
          (performAll c late (performAll c early r s).2.1 (performAll c early r s).2.2).1,
        (performAll c late (performAll c early r s).2.1 (performAll c early r s).2.2).2) := by
  induction early generalizing r s with
  | nil => rfl
  | cons first early ih =>
    rw [List.cons_append, performAll_cons, ih]
    rfl

/-- A request more at the end of a history. -/
theorem performAll_concat (ops : List Operation) (op : Operation) (r : Run κ ρ) (s : ω) :
    performAll c (ops ++ [op]) r s =
      let left := (performAll c ops r s).2
      ((performAll c ops r s).1 ++ [(perform c left.1 left.2 op).1],
        (perform c left.1 left.2 op).2) :=
  performAll_append ops [op] r s

/-- There are as many answers as requests. -/
theorem length_performAll (ops : List Operation) (r : Run κ ρ) (s : ω) :
    (performAll c ops r s).1.length = ops.length := by
  induction ops generalizing r s with
  | nil => rfl
  | cons op ops ih => exact congrArg (· + 1) (ih ..)

theorem perform_next (r : Run κ ρ) (s : ω) :
    perform c r s .next = (.row (r.nextRow c s).1, (r.nextRow c s).2) := rfl

/-! ### File and codec -/

/-- The second run has the file and the codec of the first. -/
structure Kept (r r' : Run κ ρ) : Prop where
  path : r'.path = r.path
  codec : r'.codec = r.codec

namespace Kept

theorem refl (r : Run κ ρ) : Kept r r := ⟨rfl, rfl⟩

theorem trans {r r' r'' : Run κ ρ} (h : Kept r r') (h' : Kept r' r'') : Kept r r'' :=
  ⟨h'.path.trans h.path, h'.codec.trans h.codec⟩

end Kept

theorem kept_add (r : Run κ ρ) (b : Batch) (s : ω) : Kept r (r.add c b s).2.1 := by
  have hexit := add_exit c r b s
  generalize r.add c b s = left at hexit ⊢
  cases hexit <;> exact ⟨rfl, rfl⟩

theorem kept_finish (r : Run κ ρ) (s : ω) : Kept r (r.finish c s).2.1 := by
  unfold finish
  split <;> exact ⟨rfl, rfl⟩

theorem kept_prepare (r : Run κ ρ) (s : ω) : Kept r (r.prepare c s).2.1 := by
  have hfinish := kept_finish (c := c) r s
  unfold prepare
  split
  · rename_i f r' s' h
    rwa [h] at hfinish
  · rename_i n r' s' h
    rw [h] at hfinish
    split
    · split
      · exact hfinish
      · exact ⟨hfinish.path, hfinish.codec⟩
    · exact hfinish
    · exact hfinish

theorem kept_receive {r r' : Run κ ρ} {b : Batch} (h : r.receive b = .ok r') : Kept r r' := by
  unfold receive at h
  split at h
  · exact nomatch h
  · dsimp only at h
    generalize Batch.transfer _ _ = moved at h
    cases moved with
    | error f => exact nomatch h
    | ok p =>
      obtain rfl := Except.ok.inj h
      exact ⟨rfl, rfl⟩

theorem kept_load (r : Run κ ρ) (s : ω) : Kept r (r.load c s).2.1 := by
  have hprepare := kept_prepare (c := c) r.hollow s
  unfold load
  split
  · rename_i f r' s' h
    rw [h] at hprepare
    exact ⟨hprepare.path, hprepare.codec⟩
  · rename_i source r' s' h
    rw [h] at hprepare
    split
    · exact ⟨hprepare.path, hprepare.codec⟩
    · dsimp only
      split
      · exact ⟨hprepare.path, hprepare.codec⟩
      · rename_i hreceive
        have hreceived := kept_receive hreceive
        exact ⟨hreceived.path.trans hprepare.path, hreceived.codec.trans hprepare.codec⟩

theorem kept_loadRow (n : Nat) (r : Run κ ρ) (s : ω) : Kept r (loadRow c n r s).2.1 := by
  induction n generalizing r s with
  | zero => exact .refl r
  | succ n ih =>
    have hload := kept_load (c := c) r s
    unfold loadRow
    split
    · rename_i f r' s' h
      rw [h] at hload
      exact ⟨hload.path, hload.codec⟩
    · rename_i u r' s' h
      rw [h] at hload
      split
      · exact ⟨hload.path, hload.codec⟩
      · exact hload.trans (ih r' s')

theorem kept_next (r : Run κ ρ) (s : ω) : Kept r (r.next c s).2.1 := by
  unfold next
  split
  · exact .refl r
  · split
    · exact .refl r
    · split
      · exact ⟨rfl, rfl⟩
      · exact kept_loadRow r.pending r s

theorem kept_close (r : Run κ ρ) (s : ω) : Kept r (r.close c s).2.1 := by
  unfold close
  split
  · exact .refl r
  · exact ⟨rfl, rfl⟩

theorem kept_perform (r : Run κ ρ) (s : ω) (op : Operation) : Kept r (perform c r s op).2.1 := by
  cases op with
  | add b => exact kept_add r b s
  | finish => exact kept_finish r s
  | next => exact kept_next r s
  | setSchema target =>
    rcases perform_setSchema (c := c) r s target with ⟨f, -, h⟩ | ⟨husk, -, h⟩ <;> rw [h]
    · exact .refl r
    · exact ⟨rfl, rfl⟩
  | close => exact kept_close r s
  | advance count => exact ⟨rfl, rfl⟩
  | release => exact ⟨rfl, rfl⟩

theorem kept_performAll (ops : List Operation) (r : Run κ ρ) (s : ω) :
    Kept r (performAll c ops r s).2.1 := by
  induction ops generalizing r s with
  | nil => exact .refl r
  | cons op ops ih => exact (kept_perform r s op).trans (ih _ _)

/-! ### Failure -/

/-- A request for a row to a run that has failed is refused. -/
theorem nextRow_failed {r : Run κ ρ} {stage : Stage} (h : r.failed = some stage) (s : ω) :
    ∃ f, r.nextRow c s = (.error f, r, s) := by
  unfold nextRow next
  by_cases hclosed : r.isClosed
  · simp only [if_pos hclosed]
    exact ⟨_, rfl⟩
  · simp only [if_neg hclosed, h]
    exact ⟨_, rfl⟩

/-- Failure stays, whatever is asked. -/
theorem failed_perform {r : Run κ ρ} {stage : Stage} (h : r.failed = some stage) (s : ω)
    (op : Operation) : (perform c r s op).2.1.failed = some stage := by
  cases op with
  | add b =>
    show (r.add c b s).2.1.failed = _
    have hexit := add_exit c r b s
    generalize r.add c b s = left at hexit ⊢
    cases hexit with
    | failed _ => exact h
    | phase hnone _ | unwritten hnone _ _ | unshaped hnone _ _ _ | taken hnone _ _ _ =>
      exact nomatch h.symm.trans hnone
  | finish =>
    obtain ⟨medium, hfinish⟩ := perform_finish (c := c) r s
    rw [hfinish]
    exact h
  | next =>
    obtain ⟨f, hnext⟩ := nextRow_failed (c := c) h s
    show (r.nextRow c s).2.1.failed = _
    rw [hnext]
    exact h
  | setSchema target =>
    rcases perform_setSchema (c := c) r s target with ⟨f, -, hset⟩ | ⟨husk, -, hset⟩ <;>
      rw [hset] <;> exact h
  | close =>
    rcases perform_close (c := c) r s with ⟨-, hclose⟩ | hclose <;> rw [hclose] <;> exact h
  | advance count => exact h
  | release => exact h

theorem healthy_of_perform {r : Run κ ρ} {s : ω} {op : Operation}
    (h : (perform c r s op).2.1.failed = none) : r.failed = none := by
  cases hfailed : r.failed with
  | none => rfl
  | some stage =>
    rw [failed_perform hfailed] at h
    exact nomatch h

end ExternalSort.Run
