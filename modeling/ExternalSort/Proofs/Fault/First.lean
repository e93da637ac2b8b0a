/-
The first failure wins.

However many steps are recorded, the one that fails first divides them.  The steps before it
leave no trace.  Its failure is kept whole, and from there on nothing but names is added: those
of the steps that fail later, in their order and as often as they fail.  So the record of all
steps is known from the place of the first failure, and all that is asked of a record follows
from that.

What the steps come to is what they would have come to if the first failure had ended them,
although none of them is left out.
-/
import ExternalSort.Fault.First

namespace ExternalSort.Fault.First

/-- A step, with what it came to. -/
structure Step where
  name : String
  outcome : Except Fault Unit

/-- Whether a step failed. -/
def Step.failed (x : Step) : Bool :=
  match x.outcome with
  | .ok _ => false
  | .error _ => true

/-- Records steps, one after the other. -/
def recordAll (first : First) (steps : List Step) : First :=
  steps.foldl (fun first x => first.record x.name x.outcome) first

variable {steps : List Step}

theorem recordAll_append (first : First) (earlier later : List Step) :
    first.recordAll (earlier ++ later) = (first.recordAll earlier).recordAll later :=
  List.foldl_append ..

/-! ### Before the first failure and after it -/

/-- Steps that succeed leave no trace. -/
theorem recordAll_of_succeed (first : First) (h : ∀ x ∈ steps, x.outcome = .ok ()) :
    first.recordAll steps = first := by
  induction steps with
  | nil => rfl
  | cons x steps ih =>
    obtain ⟨hx, hsteps⟩ := List.forall_mem_cons.1 h
    show (first.record x.name x.outcome).recordAll steps = first
    rw [hx]
    exact ih hsteps

/-- A failure that is kept stays; of the steps behind it those that fail are named. -/
theorem recordAll_of_failed (kept : String × Fault) (named : List String) (steps : List Step) :
    recordAll ⟨some kept, named⟩ steps
      = ⟨some kept, named ++ (steps.filter Step.failed).map Step.name⟩ := by
  induction steps generalizing named with
  | nil =>
    rw [List.filter_nil, List.map_nil, List.append_nil]
    rfl
  | cons x steps ih =>
    obtain ⟨name, fault | _⟩ := x
    · show recordAll ⟨some kept, named ++ [name]⟩ steps
        = ⟨some kept, named ++ name :: (steps.filter Step.failed).map Step.name⟩
      rw [ih, List.append_assoc, List.singleton_append]
    · exact ih named

/-- The record of steps the first of which to fail is known. -/
theorem recordAll_empty {earlier later : List Step} {name : String} {fault : Fault}
    (hearlier : ∀ x ∈ earlier, x.outcome = .ok ()) :
    empty.recordAll (earlier ++ ⟨name, .error fault⟩ :: later)
      = ⟨some (name, fault), (later.filter Step.failed).map Step.name⟩ := by
  rw [recordAll_append, recordAll_of_succeed empty hearlier]
  exact recordAll_of_failed (name, fault) [] later

/-- Either no step fails or one is the first to fail. -/
theorem succeed_or_first (steps : List Step) :
    (∀ x ∈ steps, x.outcome = .ok ()) ∨ ∃ earlier name fault later,
      steps = earlier ++ ⟨name, .error fault⟩ :: later ∧ ∀ x ∈ earlier, x.outcome = .ok () := by
  induction steps with
  | nil => exact .inl fun x hx => nomatch hx
  | cons x steps ih =>
    obtain ⟨name, fault | ⟨⟩⟩ := x
    · exact .inr ⟨[], name, fault, steps, rfl, fun x hx => nomatch hx⟩
    · rcases ih with hall | ⟨earlier, failed, fault, later, rfl, hearlier⟩
      · exact .inl (List.forall_mem_cons.2 ⟨rfl, hall⟩)
      · exact .inr ⟨_ :: earlier, failed, fault, later, rfl,
          List.forall_mem_cons.2 ⟨rfl, hearlier⟩⟩

/-! ### What is asked of a record -/

theorem isOk_recordAll (steps : List Step) :
    (empty.recordAll steps).isOk = true ↔ ∀ x ∈ steps, x.outcome = .ok () := by
  rcases succeed_or_first steps with hall | ⟨earlier, name, fault, later, rfl, hearlier⟩
  · rw [recordAll_of_succeed empty hall]
    exact iff_of_true rfl hall
  · rw [recordAll_empty hearlier]
    refine iff_of_false (fun h => nomatch h) fun hall => ?_
    exact nomatch hall ⟨name, .error fault⟩ (List.mem_append_right _ (List.mem_cons_self ..))

/-- The steps come to what they would have come to if the first failure had ended them. -/
theorem result_recordAll (steps : List Step) :
    (empty.recordAll steps).result = steps.forM Step.outcome := by
  induction steps with
  | nil => rfl
  | cons x steps ih =>
    obtain ⟨name, fault | ⟨⟩⟩ := x
    · show (recordAll ⟨some (name, fault), []⟩ steps).result = .error fault
      rw [recordAll_of_failed]
      rfl
    · exact ih

/-- What the steps come to is no failure but one of theirs. -/
theorem exists_of_result {fault : Fault} (h : (empty.recordAll steps).result = .error fault) :
    ∃ x ∈ steps, x.outcome = .error fault := by
  rcases succeed_or_first steps with hall | ⟨earlier, name, first, later, rfl, hearlier⟩
  · rw [recordAll_of_succeed empty hall] at h
    exact nomatch h
  · rw [recordAll_empty hearlier] at h
    exact ⟨⟨name, .error first⟩, List.mem_append_right _ (List.mem_cons_self ..), h⟩

/-- **The first failure wins, and no other is forgotten.**  For all steps that are recorded one
after the other: after any number of them the record is in order exactly if none of these
failed.  If none fails at all, the steps succeed and nothing is suppressed.  Otherwise one is
the first to fail; they come to its failure, and suppressed are the names of the later steps
that fail, all of them, in order and with repetitions. -/
theorem first_failure_is_kept (steps : List Step) :
    (∀ n, (empty.recordAll (steps.take n)).isOk = true ↔
      ∀ x ∈ steps.take n, x.outcome = .ok ()) ∧
    ((∀ x ∈ steps, x.outcome = .ok ()) ∧ (empty.recordAll steps).result = .ok () ∧
        (empty.recordAll steps).suppressed = [] ∨
      ∃ earlier name fault later, steps = earlier ++ ⟨name, .error fault⟩ :: later ∧
        (∀ x ∈ earlier, x.outcome = .ok ()) ∧
        (empty.recordAll steps).result = .error fault ∧
        (empty.recordAll steps).suppressed = (later.filter Step.failed).map Step.name) := by
  refine ⟨fun n => isOk_recordAll _, ?_⟩
  rcases succeed_or_first steps with hall | ⟨earlier, name, fault, later, rfl, hearlier⟩
  · rw [recordAll_of_succeed empty hall]
    exact .inl ⟨hall, rfl, rfl⟩
  · rw [recordAll_empty hearlier]
    exact .inr ⟨earlier, name, fault, later, rfl, hearlier, rfl, rfl⟩

/-- Of six directories to be removed only the first goes. -/
example (busy denied : Fault) :
    empty.recordAll (⟨"remove", .ok ()⟩ :: ⟨"remove", .error busy⟩ ::
        List.replicate 4 ⟨"remove", .error denied⟩)
      = ⟨some ("remove", busy), List.replicate 4 "remove"⟩ := rfl

end ExternalSort.Fault.First
