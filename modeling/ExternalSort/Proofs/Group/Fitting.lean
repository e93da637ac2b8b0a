/-
The batch at hand always has the target schema.

Whoever reads cells of a group relies on two things: the batch has the shape that its schema
says, and where a target schema was set that schema is it.  Both hold together in every state
of every group, whatever was asked and whatever failed.  The single places where the batch at
hand changes are few, and each keeps them: the batch is reshaped as the target is set, it is
emptied, or another one comes in its place that was brought to the target shape before.  What
stops half way has changed nothing, or has emptied the batch.
-/
import ExternalSort.Proofs.Batch.Obtained
import ExternalSort.Proofs.Group.Memory
import ExternalSort.Proofs.Run.Loading

namespace ExternalSort

open Storage

namespace Group

/-- The columns of the batch at hand fit its schema and its number of rows, and the target
schema is its schema. -/
structure Cursor.Fitting (c : Cursor) : Prop where
  shaped : c.batch.Shaped
  target : ∀ s, c.target = some s → c.batch.schema = s

namespace Cursor.Fitting

variable {c c' : Cursor} {b : Batch}

theorem ofBatch (hb : b.Shaped) : (Cursor.ofBatch b).Fitting := ⟨hb, fun _ h => (nomatch h)⟩

theorem setSchema (h : c.Fitting) {s : Schema} (hset : c.setSchema s = .ok c') : c'.Fitting := by
  obtain ⟨husk, hcoerce, rfl⟩ := setSchema_eq_ok hset
  refine ⟨Batch.shaped_coerce h.shaped hcoerce, fun s' hs' => ?_⟩
  obtain rfl := Option.some.inj hs'
  exact Batch.schema_coerce hcoerce

/-- The pointer does not matter. -/
theorem place (h : c.Fitting) (pointer : Nat) : Fitting { c with pointer } := ⟨h.shaped, h.target⟩

theorem advance (h : c.Fitting) (count : Nat) : (c.advance count).2.Fitting := by
  unfold Cursor.advance
  split
  · exact h
  · exact h.place _

/-- An emptied batch keeps its schema. -/
theorem hollow (h : c.Fitting) : Fitting { c with batch := c.batch.zeroed } :=
  ⟨Batch.shaped_zeroed h.shaped, h.target⟩

theorem release (h : c.Fitting) : c.release.Fitting := h.hollow.place 0

end Cursor.Fitting

/-! ### Groups in memory -/

theorem Resident.fitting_perform {r : Resident} (h : r.cursor.Fitting) (op : Operation) :
    (r.perform op).2.cursor.Fitting := by
  cases op with
  | next =>
    rw [perform_next]
    exact h.advance _
  | advance count => exact h.advance count
  | close | release => exact h.release
  | setSchema target =>
    simp only [perform]
    cases hset : r.cursor.setSchema target with
    | error f => exact h
    | ok cursor => exact h.setSchema hset

theorem Resident.fitting_performAll {r : Resident} (h : r.cursor.Fitting) (ops : List Operation) :
    (performAll ops r).2.cursor.Fitting :=
  performAll_induction (P := fun r => r.cursor.Fitting) (fun op _ _ h => fitting_perform h op) h

theorem Cursor.fitting_performAll {c : Cursor} (h : c.Fitting) (ops : List Operation) :
    (performAll ops c).2.Fitting := by
  have hresident := Resident.fitting_performAll (r := c.resident) h ops
  rwa [performAll_resident] at hresident

end Group

/-! ### Runs in files -/

namespace Run

variable {ω κ ρ : Type} {c : Channel ω κ ρ} {r : Run κ ρ} {s : ω}

/-- A batch in the shape of the run fits its target. -/
theorem fitting_shaped {b b' : Batch} (hb : b.Shaped) (h : r.shaped b = .ok b') (pointer : Nat) :
    Group.Cursor.Fitting ⟨b', pointer, r.cursor.target⟩ := by
  unfold shaped at h
  cases htarget : r.cursor.target with
  | none =>
    rw [htarget] at h
    obtain rfl := Except.ok.inj h
    exact ⟨hb, fun _ h => (nomatch h)⟩
  | some target =>
    rw [htarget] at h
    refine ⟨Batch.shaped_coerce hb h, fun s hs => ?_⟩
    obtain rfl := Option.some.inj hs
    exact Batch.schema_coerce h

theorem fitting_add {b : Batch} (hb : b.Shaped) (h : r.cursor.Fitting) (s : ω) :
    (r.add c b s).2.1.cursor.Fitting := by
  have hexit := add_exit c r b s
  generalize r.add c b s = left at hexit ⊢
  cases hexit with
  | failed _ | phase _ _ | unwritten _ _ _ | unshaped _ _ _ _ => exact h
  | taken _ _ _ hhusk => exact fitting_shaped (Batch.shaped_zeroed hb) hhusk 0

/-- Until the source is open the husk is not touched. -/
theorem Preparing.cursor_eq {outcome : Except Fault ρ} {q : Run κ ρ} {t : ω}
    (h : Preparing c r s (outcome, q, t)) : q.cursor = r.cursor := by
  cases h <;> rfl

/-- A load empties the husk and puts a batch of the target shape into it, or leaves it empty. -/
theorem Loading.fitting {outcome : Except Fault Unit} {q : Run κ ρ} {t : ω}
    (h : Loading c r s (outcome, q, t)) (hr : r.cursor.Fitting) : q.cursor.Fitting := by
  cases h with
  | unready hprepare =>
    rw [hprepare.cursor_eq]
    exact hr.hollow
  | unread _ _ | unshaped _ _ _ => exact hr.hollow
  | loaded _ hread hshape =>
    exact fitting_shaped (Batch.valid_iff.1 (valid_of_read hread)).1 hshape _

theorem Searching.fitting {left : Except Fault (Option Nat) × Run κ ρ × ω}
    (h : Searching c r s left) (hr : r.cursor.Fitting) : left.2.1.cursor.Fitting := by
  induction h with
  | none => exact hr
  | failed _ hload => exact (hload.fitting hr).hollow
  | row _ hload _ => exact (hload.fitting hr).place 1
  | more _ hload _ _ ih => exact ih (hload.fitting hr)

theorem fitting_next (h : r.cursor.Fitting) (s : ω) : (r.next c s).2.1.cursor.Fitting := by
  have hasking := next_asking c r s
  generalize r.next c s = left at hasking ⊢
  cases hasking with
  | closed _ | failed _ _ => exact h
  | husk _ _ _ => exact h.place _
  | search _ _ _ hsearch => exact hsearch.fitting h

theorem fitting_perform (h : r.cursor.Fitting) (s : ω) {op : Operation}
    (hop : ∀ b, op = .add b → b.Shaped) : (perform c r s op).2.1.cursor.Fitting := by
  cases op with
  | add b => exact fitting_add (hop b rfl) h s
  | next => exact fitting_next h s
  | advance count => exact h.advance count
  | release => exact h.release
  | finish =>
    obtain ⟨medium, hfinish⟩ := perform_finish (c := c) r s
    rw [hfinish]
    exact h
  | setSchema target =>
    simp only [perform, setSchema]
    cases hset : r.cursor.setSchema target with
    | error f => exact h
    | ok cursor => exact h.setSchema hset
  | close =>
    rcases perform_close (c := c) r s with ⟨-, hclose⟩ | hclose <;> rw [hclose]
    · exact h
    · exact h.release

theorem fitting_performAll {ops : List Operation} (hops : ∀ b, .add b ∈ ops → b.Shaped)
    (h : r.cursor.Fitting) (s : ω) : (performAll c ops r s).2.1.cursor.Fitting := by
  induction ops generalizing r s with
  | nil => exact h
  | cons op ops ih =>
    refine ih (fun b hb => hops b (List.mem_cons_of_mem _ hb)) (fitting_perform h s ?_) _
    rintro b rfl
    exact hops b (List.mem_cons_self ..)

end Run

/-- **The target schema always holds.**  In every state of a plain group, of a run in memory and
of a run in a file, whatever was asked of it, in any order and with any outcome, whatever
batches it was given and whatever failed of its channel: the columns of the batch at hand fit
its schema and its number of rows, and where a target schema was set it is that schema. -/
theorem Group.target_always_holds {ω κ ρ : Type} {c : Channel ω κ ρ} {path : Path} {codec : Codec}
    {s₀ s₁ : ω} {r₀ : Run κ ρ} (hcreate : Run.create c path codec s₀ = (.ok r₀, s₁))
    {ops : List Run.Operation} (hops : ∀ b, .add b ∈ ops → Batch.Obtained (fun _ _ => True) b)
    {b : Batch} (hb : Batch.Obtained (fun _ _ => True) b) {selection : Option Selection}
    {size : Nat} {memory : Resident} (hmemory : Resident.ofBatch b selection size = .ok memory)
    (asked : List Operation) :
    (Cursor.performAll asked (.ofBatch b)).2.Fitting ∧
    (Resident.performAll asked memory).2.cursor.Fitting ∧
    (Run.performAll c ops r₀ s₁).2.1.cursor.Fitting := by
  have hplain : (Cursor.ofBatch b).Fitting := .ofBatch hb.shaped
  have hresident : memory.cursor.Fitting := Resident.cursor_ofBatch hmemory ▸ hplain
  have hrun : r₀.cursor.Fitting := by
    obtain ⟨sink, rfl, -⟩ := Run.create_eq_ok hcreate
    exact .ofBatch (Batch.shaped_empty .empty)
  exact ⟨Cursor.fitting_performAll hplain asked, Resident.fitting_performAll hresident asked,
    Run.fitting_performAll (fun b hb => (hops b hb).shaped) hrun s₁⟩

/-- Three rows in a wider schema, which is set before the rows of the file are read. -/
theorem Group.three_in_target : ∃ r₀ s₁ memory,
    Run.create Site.channel ⟨[97]⟩ ⟨.none⟩ Run.blank = (.ok r₀, s₁) ∧
    Resident.ofBatch three (some ⟨[2, 0]⟩) 0 = .ok memory ∧
    (Cursor.performAll [.next, .setSchema wider] (.ofBatch three)).2.batch.schema = wider ∧
    (Resident.performAll [.setSchema wider, .release] memory).2.cursor.batch.schema = wider ∧
    (Run.performAll Site.channel [.add three, .setSchema wider, .next, .advance 5] r₀ s₁).2.1.count
      = 3 ∧
    (Run.performAll Site.channel [.add three, .setSchema wider, .next, .advance 5] r₀
      s₁).2.1.cursor.batch.schema = wider := by
  have hthree : Batch.Obtained (fun _ _ => True) three :=
    .build (show Batch.build three.schema three.columns none = .ok three from rfl)
  obtain ⟨r₀, s₁, hcreate, hcount, htarget⟩ : ∃ r₀ s₁,
      Run.create Site.channel ⟨[97]⟩ ⟨.none⟩ Run.blank = (.ok r₀, s₁) ∧
      let left := Run.performAll Site.channel [.add three, .setSchema wider, .next, .advance 5] r₀ s₁
      left.2.1.count = 3 ∧ left.2.1.cursor.target = some wider := by
    refine ⟨_, _, rfl, ?_⟩
    decide +kernel
  have hops : ∀ b, .add b ∈ [Run.Operation.add three, .setSchema wider, .next, .advance 5] →
      Batch.Obtained (fun _ _ => True) b := by
    intro b hb
    rcases List.mem_cons.1 hb with hb | hb
    · obtain rfl := Run.Operation.add.inj hb
      exact hthree
    · simp at hb
  have hmemory : Resident.ofBatch three (some ⟨[2, 0]⟩) 0
      = .ok ⟨.ofBatch three, some ⟨[2, 0]⟩, 0⟩ := rfl
  obtain ⟨hplain, -, hrun⟩ := target_always_holds hcreate hops hthree hmemory
    [.next, .setSchema wider]
  obtain ⟨-, hresident, -⟩ := target_always_holds hcreate hops hthree hmemory
    [.setSchema wider, .release]
  exact ⟨r₀, s₁, _, hcreate, hmemory, hplain.target wider rfl, hresident.target wider rfl, hcount,
    hrun.target wider htarget⟩

end ExternalSort
