/-
Configurations in which some settings are left to their standard.

A configuration has four settings, and wherever it comes from some of them may be missing.  The
settings are checked one by one, and the standard ones pass; so a configuration that passes does
so with any of its settings left out.  Nothing that is read is used unchecked, whatever it was
read from.
-/
import ExternalSort.Config.Document
import ExternalSort.Config.Variables
import ExternalSort.Proofs.Sequence

namespace ExternalSort.SpillConfig

variable {c : SpillConfig}

/-! ### Settings left out -/

/-- The settings of a configuration. -/
inductive Setting where
  | directories
  | operatorId
  | bufferSize
  | compression
  deriving DecidableEq

/-- The configuration with some of its settings and the standard in place of the others. -/
def keeping (c : SpillConfig) (kept : Setting → Bool) : SpillConfig where
  directories := if kept .directories then c.directories else standard.directories
  operatorId := if kept .operatorId then c.operatorId else standard.operatorId
  bufferSize := if kept .bufferSize then c.bufferSize else standard.bufferSize
  compression := if kept .compression then c.compression else standard.compression

/-- With all its settings a configuration is what it is. -/
theorem keeping_all {kept : Setting → Bool} (h : ∀ s, kept s = true) : c.keeping kept = c := by
  simp [keeping, h]

/-- What passes the check: there is a buffer, and the operator has a name. -/
theorem check_eq_ok_iff : c.check = .ok () ↔ c.bufferSize ≠ 0 ∧ isOperatorName c.operatorId := by
  unfold check
  by_cases hbuffer : c.bufferSize = 0
  · simp [hbuffer]
  · by_cases hname : isOperatorName c.operatorId <;> simp [hbuffer, hname]

theorem check_standard : standard.check = .ok () := check_eq_ok_iff.2 (by decide +kernel)

/-- **What passes the check does so with any of its settings left out.** -/
theorem check_keeping (h : c.check = .ok ()) (kept : Setting → Bool) :
    (c.keeping kept).check = .ok () := by
  obtain ⟨hbuffer, hname⟩ := check_eq_ok_iff.1 h
  obtain ⟨hbuffer', hname'⟩ := check_eq_ok_iff.1 check_standard
  rw [check_eq_ok_iff]
  constructor
  · show (if kept .bufferSize then c.bufferSize else standard.bufferSize) ≠ 0
    split <;> assumption
  · show isOperatorName (if kept .operatorId then c.operatorId else standard.operatorId) = true
    split <;> assumption

/-- The draft of a configuration that has some of its settings. -/
def draft (c : SpillConfig) (kept : Setting → Bool) : Draft where
  directories := if kept .directories then some c.directories else none
  operatorId := if kept .operatorId then some c.operatorId else none
  bufferSize := if kept .bufferSize then some c.bufferSize else none
  compression := if kept .compression then some c.compression else none

/-- A draft is completed to the settings that it has. -/
theorem complete_draft (c : SpillConfig) (kept : Setting → Bool) :
    (c.draft kept).complete = c.keeping kept := by
  have hsetting : ∀ {α : Type} (b : Bool) (x y : α),
      (if b then some x else none).getD y = if b then x else y := by
    intro α b x y
    cases b <;> rfl
  unfold draft Draft.complete keeping
  simp only [hsetting]

theorem checked_of_check (h : c.check = .ok ()) : c.checked = .ok c := by
  rw [checked, h]
  rfl

/-! ### Nothing is used unchecked -/

theorem check_of_checked {d : SpillConfig} (h : d.checked = .ok c) : c.check = .ok () := by
  unfold checked at h
  cases hcheck : d.check with
  | error f =>
    rw [hcheck] at h
    exact nomatch h
  | ok _ =>
    rw [hcheck] at h
    obtain rfl := Except.ok.inj h
    exact hcheck

theorem check_of_ofVariables {lookup : String → Option Bytes} (h : ofVariables lookup = .ok c) :
    c.check = .ok () := by
  unfold ofVariables at h
  dsimp only at h
  obtain ⟨operatorId, -, h⟩ := Sequence.bind_eq_ok.1 h
  obtain ⟨buffer, -, h⟩ := Sequence.bind_eq_ok.1 h
  split at h
  case' h_2 => split at h
  -- Whatever the size came to, and the compression after it, the settings are checked together.
  all_goals
    obtain ⟨bufferSize, -, h⟩ := Sequence.bind_eq_ok.1 h
    obtain ⟨typed, -, h⟩ := Sequence.bind_eq_ok.1 h
    split at h
    case' h_2 => split at h
    all_goals
      obtain ⟨compression, -, h⟩ := Sequence.bind_eq_ok.1 h
      exact check_of_checked h

theorem check_of_load {content : Except Fault.IoFault Bytes} (h : load content = .ok c) :
    c.check = .ok () := by
  unfold load at h
  split at h
  · exact nomatch h
  split at h
  · unfold ofDocument at h
    split at h
    · exact check_of_checked h
    · exact nomatch h
  · exact nomatch h

end ExternalSort.SpillConfig
