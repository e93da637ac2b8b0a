/-
The ways out of adding a batch.

A batch is refused before anything is written, or its frame is not written whole, or it is
written and its husk cannot have the target schema, or it is taken.  `Exit` says for each
way when it is taken and what it leaves; everything about adding is read off it.
-/
import ExternalSort.Proofs.Frame
import ExternalSort.Run.Operation

namespace ExternalSort

open Storage

namespace Run

variable {ω κ ρ : Type}

/-- The ways out of adding a batch: the answer, the run and the state that are left. -/
inductive Exit (c : Channel ω κ ρ) (r : Run κ ρ) (b : Batch) (s : ω) :
    Except Fault Unit × Run κ ρ × ω → Prop where
  | failed {stage : Stage} : r.failed = some stage →
      Exit c r b s (.error (.operation (.addAfterFailure stage r.path)), r, s)
  | phase : r.failed = none → r.phase ≠ .writing →
      Exit c r b s (.error (.operation (.addInPhase r.phase)), r, s)
  | unwritten {sink sink' : κ} {s' : ω} {f : Fault} : r.failed = none → r.medium = .writing sink →
      Frame.write r.codec c.sink b (sink, s) = (.error f, sink', s') →
      Exit c r b s (.error f, { r with medium := .writing sink', failed := some .write }, s')
  | unshaped {sink sink' : κ} {s' : ω} {n : Nat} {f : Fault} : r.failed = none →
      r.medium = .writing sink → Frame.write r.codec c.sink b (sink, s) = (.ok n, sink', s') →
      r.shaped b.zeroed = .error f →
      Exit c r b s (.error f, { r with medium := .writing sink', pending := r.pending + 1 }, s')
  | taken {sink sink' : κ} {s' : ω} {n : Nat} {husk : Batch} : r.failed = none →
      r.medium = .writing sink → Frame.write r.codec c.sink b (sink, s) = (.ok n, sink', s') →
      r.shaped b.zeroed = .ok husk →
      Exit c r b s (.ok (), { r with
        medium := .writing sink', pending := r.pending + 1, cursor := r.cursor.replace husk }, s')

theorem add_exit (c : Channel ω κ ρ) (r : Run κ ρ) (b : Batch) (s : ω) :
    Exit c r b s (r.add c b s) := by
  obtain ⟨cursor, codec, path, pending, medium, failed⟩ := r
  cases failed with
  | some stage => exact .failed rfl
  | none =>
    cases medium with
    | writing sink =>
      simp only [add]
      cases hwrite : Frame.write codec c.sink b (sink, s) with
      | mk outcome left =>
        cases outcome with
        | error f => exact .unwritten rfl rfl hwrite
        | ok n =>
          simp only
          split
          · rename_i hshape
            exact .unshaped rfl rfl hwrite hshape
          · rename_i hshape
            exact .taken rfl rfl hwrite hshape
    | idle => exact .phase rfl fun h => (nomatch h)
    | reading source => exact .phase rfl fun h => (nomatch h)
    | closed => exact .phase rfl fun h => (nomatch h)

/-- Only where there is a target schema can a batch not be had in the shape of the run. -/
theorem shaped_eq_error {r : Run κ ρ} {b : Batch} {f : Fault} (h : r.shaped b = .error f) :
    ∃ target, r.cursor.target = some target ∧ b.coerce target = .error f := by
  unfold shaped at h
  cases htarget : r.cursor.target with
  | none =>
    rw [htarget] at h
    exact nomatch h
  | some target =>
    rw [htarget] at h
    exact ⟨target, rfl, h⟩

/-- Why a run refuses a batch with which nothing is wrong: it has failed, its writing has
ended, the frame is too long, its sink failed, or its target schema does not go with the
schema of the batch. -/
inductive Reason (r : Run κ ρ) (b : Batch) : Fault → Prop where
  | failed {stage : Stage} : r.failed = some stage →
      Reason r b (.operation (.addAfterFailure stage r.path))
  | phase : r.phase ≠ .writing → Reason r b (.operation (.addInPhase r.phase))
  | length : Frame.greatestPayload < (Stream.write r.codec.compression b).length →
      Reason r b (.data (.batchTooLong (Stream.write r.codec.compression b).length))
  | io (f : Fault.IoFault) : Reason r b (.io f)
  | target {target : Schema} {f : Fault} : r.cursor.target = some target →
      b.zeroed.coerce target = .error f → Reason r b f

theorem reason_of_valid {c : Channel ω κ ρ} {r : Run κ ρ} {b : Batch} {s : ω} {f : Fault}
    (hb : b.Valid) (h : (r.add c b s).1 = .error f) : Reason r b f := by
  have hexit := add_exit c r b s
  generalize r.add c b s = left at hexit h
  cases hexit with
  | failed hfailed =>
    obtain rfl := Except.error.inj h
    exact .failed hfailed
  | phase _ hphase =>
    obtain rfl := Except.error.inj h
    exact .phase hphase
  | unwritten _ _ hwrite =>
    obtain rfl := Except.error.inj h
    rcases Frame.write_error hb hwrite with ⟨rfl, hlong⟩ | ⟨f', rfl⟩
    · exact .length hlong
    · exact .io f'
  | unshaped _ _ _ hshape =>
    obtain rfl := Except.error.inj h
    obtain ⟨target, htarget, hcoerce⟩ := shaped_eq_error hshape
    exact .target htarget hcoerce
  | taken _ _ _ _ => exact nomatch h

end Run
end ExternalSort
