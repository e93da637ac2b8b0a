/-
Removing the directories of an operator.

Whether a directory can be removed with everything below it is not up to the area: that may
succeed, find nothing, or fail and leave the directory in place.  So a cleanup is looked at with
any removal that does one of these, at every directory anew; the one of the tree is such a
removal.

A cleanup tries the directories in the order in which they were made, each on the tree that the
earlier attempts left, and what it answers is the first failure among them.  That a removal found
nothing is no failure, and it does not tell that the directory is gone: a path that leads up and
down again leads nowhere once a directory on its way was removed.
-/
import ExternalSort.Proofs.Fault.First
import ExternalSort.Proofs.Storage.History

namespace ExternalSort.Storage

open Fault

/-! ### Removals -/

namespace FileTree

variable {t t' : FileTree} {p : Path} {l m : Location}

/-- A directory stands where the path leads. -/
def HasDirectory (t : FileTree) (p : Path) : Prop := t.entry? p.destination = some .directory

instance (t : FileTree) (p : Path) : Decidable (t.HasDirectory p) := by
  unfold HasDirectory
  infer_instance

/-- What comes of the removal of a directory with everything below it. -/
inductive Removed (t : FileTree) (p : Path) : Except IoFault Unit × FileTree → Prop
  | gone {t' : FileTree} (trimmed : Trimmed (p.destination <+: ·) t t')
    (nothing : ∀ m, p.destination <+: m → t'.entry? m = none) : Removed t p (.ok (), t')
  | absent {f : IoFault} (kind : f.kind = .notFound)
    (nowhere : ∃ g, t.find p = .error g ∧ g.kind = .notFound) : Removed t p (.error f, t)
  /-- Of what is below, some may have gone. -/
  | stuck {f : IoFault} {t' : FileTree} (kind : f.kind ≠ .notFound)
    (trimmed : Trimmed (fun m => p.destination <+: m ∧ m ≠ p.destination) t t') :
    Removed t p (.error f, t')

theorem Removed.directory {left : Except IoFault Unit × FileTree} (h : Removed t p left)
    (hm : FileTree.entry? left.2 m = some .directory) : t.entry? m = some .directory := by
  cases h with
  | gone trimmed _ => exact trimmed.entry hm
  | absent _ _ => exact hm
  | stuck _ trimmed => exact trimmed.entry hm

theorem entry?_clear (h : l <+: m) (hne : m ≠ l) : FileTree.entry? (t.clear l) m = none := by
  have htop : m ≠ [] := by
    rintro rfl
    exact hne (List.prefix_nil.1 h).symm
  rw [clear, entry?_filter t (fun m => !(l.isPrefixOf m && m ≠ l)) htop, if_neg]
  rw [Bool.not_eq_true', Bool.not_eq_false, Bool.and_eq_true, decide_eq_true_iff]
  exact ⟨List.isPrefixOf_iff_prefix.2 h, hne⟩

/-- The removal of the tree. -/
theorem removed_removeAll (t : FileTree) (p : Path) : Removed t p (t.removeAll p) := by
  unfold removeAll
  split
  · rename_i f hfollow
    by_cases hkind : f.kind = .notFound
    · exact .absent hkind ⟨f, by rw [find, hfollow], hkind⟩
    · exact .stuck hkind (.refl t)
  · rename_i l hfollow
    have hl : l = p.destination := location_of_follow hfollow
    refine .stuck (by decide) (trimmed_clear t fun m hm hne => ?_)
    exact hl ▸ ⟨hm, hne⟩
  · rename_i parent name trailing hfollow
    have hl : parent ++ [name] = p.destination := location_of_follow hfollow
    dsimp only
    split
    · rename_i hnone
      exact .absent rfl ⟨.system SystemCode.noEntry, by simp only [find, hfollow, hnone], rfl⟩
    · exact .stuck (by decide) (.refl t)
    · rw [hl]
      have htrimmed : Trimmed (p.destination <+: ·) t (t.clear p.destination) :=
        trimmed_clear t fun m hm _ => hm
      refine .gone (htrimmed.trans (trimmed_erase _ (List.prefix_refl _))) fun m hm => ?_
      by_cases hsame : m = p.destination
      · rw [hsame, ← hl]
        exact entry?_erase (by simp)
      · rw [entry?_erase_ne hsame]
        exact entry?_clear hm hsame

/-! ### Paths that lead nowhere -/

/-- Everything that stands is in a directory. -/
def Rooted (t : FileTree) : Prop :=
  ∀ l m, l <+: m → l ≠ m → t.entry? m ≠ none → t.entry? l = some .directory

/-- In such a tree nothing stands below a place where nothing stands. -/
theorem Rooted.entry?_eq_none (h : t.Rooted) (hl : t.entry? l = none) (hm : l <+: m) :
    t.entry? m = none := by
  by_contra hsome
  by_cases hsame : l = m
  · exact hsome (hsame ▸ hl)
  · rw [h l m hm hsame hsome] at hl
    exact nomatch hl

/-- Steps that do not lead up and end for want of a directory have come to a place on their way
where nothing stands. -/
theorem entry?_of_step {name : Bytes} {f : IoFault} (hup : name ≠ Path.dotDot)
    (h : t.step l name = .error f) (hf : f.kind = .notFound) :
    t.entry? (Path.resolve l name) = none := by
  unfold step at h
  rw [if_neg hup] at h
  split at h
  · exact nomatch h
  rename_i hdot
  rw [Path.resolve_name hdot hup]
  split at h
  · obtain rfl := Except.error.inj h
    exact absurd hf (by decide)
  split at h
  · exact nomatch h
  · obtain rfl := Except.error.inj h
    exact absurd hf (by decide)
  · assumption

theorem entry?_of_foldlM {names : List Bytes} {f : IoFault} (hup : Path.dotDot ∉ names)
    (h : names.foldlM t.step l = .error f) (hf : f.kind = .notFound) :
    ∃ m, m <+: names.foldl Path.resolve l ∧ t.entry? m = none := by
  induction names generalizing l with
  | nil => exact nomatch h
  | cons name names ih =>
    rw [List.mem_cons, not_or] at hup
    rw [List.foldlM_cons] at h
    rw [List.foldl_cons]
    cases hstep : t.step l name with
    | error g =>
      rw [hstep] at h
      obtain rfl : g = f := Except.error.inj h
      exact ⟨_, Path.prefix_foldl_resolve hup.2 _, entry?_of_step (Ne.symm hup.1) hstep hf⟩
    | ok l' =>
      rw [hstep] at h
      rw [← step_resolve hstep]
      exact ih hup.2 h

/-- **Where a path leads that has a name and does not lead up, nothing stands if nothing is
found.** -/
theorem entry?_of_nowhere {f : IoFault} (ht : t.Rooted) (hnames : p.names ≠ [])
    (hup : Path.dotDot ∉ p.names) (h : t.find p = .error f) (hf : f.kind = .notFound) :
    t.entry? p.destination = none := by
  unfold find at h
  cases hfollow : t.follow p with
  | ok place =>
    have hlocation := location_of_follow hfollow
    rw [hfollow] at h
    cases place with
    | directory l => cases h
    | named parent name trailing =>
      rw [← hlocation]
      dsimp only at h
      split at h
      · assumption
      · cases h
      · split at h
        · obtain rfl := Except.error.inj h
          exact absurd hf (by decide)
        · cases h
  | error g =>
    rw [hfollow] at h
    obtain rfl : g = f := Except.error.inj h
    unfold follow at hfollow
    split at hfollow
    · obtain rfl := Except.error.inj hfollow
      exact absurd hf (by decide)
    split at hfollow
    · obtain rfl := Except.error.inj hfollow
      exact absurd hf (by decide)
    split at hfollow
    · rename_i hnil
      exact absurd (List.reverse_eq_nil_iff.1 hnil) hnames
    rename_i last before hlast
    have hsplit : p.names = before.reverse ++ [last] := by
      rw [← List.reverse_reverse p.names, hlast, List.reverse_cons]
    split at hfollow
    · rename_i e hwalk
      obtain rfl := Except.error.inj hfollow
      rw [hsplit, List.mem_append, List.mem_singleton, not_or] at hup
      obtain ⟨m, hm, hnone⟩ := entry?_of_foldlM hup.1 hwalk hf
      refine ht.entry?_eq_none hnone (hm.trans ?_)
      rw [Path.destination, hsplit, List.foldl_append]
      have hlast : Path.dotDot ∉ [last] := by simpa using hup.2
      exact Path.prefix_foldl_resolve hlast _
    · split at hfollow
      · cases hfollow
      split at hfollow
      · cases hfollow
      split at hfollow
      · obtain rfl := Except.error.inj hfollow
        exact absurd hf (by decide)
      · cases hfollow

end FileTree

open FileTree

/-- A way to remove a directory with everything below it. -/
structure Removal where
  run : FileTree → Path → Except IoFault Unit × FileTree
  removed : ∀ t p, Removed t p (run t p)

/-- The removal of the tree. -/
def Removal.whole : Removal := ⟨removeAll, removed_removeAll⟩

/-! ### Attempts -/

/-- An attempt to remove a directory. -/
structure Attempt where
  path : Path
  before : FileTree
  left : Except IoFault Unit × FileTree
  removed : before.Removed path left

def Removal.attempt (r : Removal) (t : FileTree) (p : Path) : Attempt :=
  ⟨p, t, r.run t p, r.removed t p⟩

namespace Attempt

variable {a : Attempt}

/-- What the attempt failed with; that nothing was found is no failure. -/
def fault? (a : Attempt) : Option IoFault :=
  match a.left.1 with
  | .ok _ => none
  | .error f => if f.kind = .notFound then none else some f

/-- The directory stands when the attempt is over. -/
def Leaves (a : Attempt) : Prop := a.left.2.HasDirectory a.path

/-- A failed attempt leaves the directory in place. -/
theorem leaves_of_fault {f : IoFault} (h : a.fault? = some f) (hb : a.before.HasDirectory a.path) :
    a.Leaves := by
  obtain ⟨path, before, left, removed⟩ := a
  cases removed with
  | gone _ _ => exact nomatch h
  | absent kind _ =>
    simp only [fault?, if_pos kind] at h
    exact nomatch h
  | stuck _ trimmed => exact (trimmed.outside _ fun h => h.2 rfl).trans hb

/-- An attempt that leaves the directory in place failed, or its path led nowhere. -/
theorem fault_or_nowhere (h : a.Leaves) :
    (∃ f, a.fault? = some f) ∨ ∃ g, a.before.find a.path = .error g ∧ g.kind = .notFound := by
  obtain ⟨path, before, left, removed⟩ := a
  cases removed with
  | gone _ nothing => exact nomatch (nothing _ (List.prefix_refl _)).symm.trans h
  | absent _ nowhere => exact .inr nowhere
  | stuck kind _ => exact .inl ⟨_, if_neg kind⟩

/-- Directories are tried one after the other, each on the tree that the one before left. -/
def all (r : Removal) : FileTree → List Path → List Attempt
  | _, [] => []
  | t, p :: ps => r.attempt t p :: all r (r.run t p).2 ps

/-- The tree that the attempts leave. -/
def remaining (r : Removal) (t : FileTree) (ps : List Path) : FileTree :=
  ps.foldl (fun t p => (r.run t p).2) t

/-- What the attempts come to: the first failure. -/
def outcome (tried : List Attempt) : Except Fault Unit :=
  match tried.findSome? fault? with
  | none => .ok ()
  | some f => .error (.io f)

theorem outcome_cons (a : Attempt) (tried : List Attempt) :
    outcome (a :: tried) = (outcome [a]).bind fun _ => outcome tried := by
  simp only [outcome, List.findSome?_cons, List.findSome?_nil]
  cases a.fault? <;> rfl

/-- No attempt failed if all together did not. -/
theorem fault?_of_outcome {tried : List Attempt} (h : outcome tried = .ok ()) (ha : a ∈ tried) :
    a.fault? = none := by
  unfold outcome at h
  split at h
  · rename_i hnone
    exact List.findSome?_eq_none_iff.1 hnone a ha
  · exact nomatch h

variable {r : Removal} {t : FileTree} {ps : List Path} {p : Path} {l : Location}

theorem map_path_all (r : Removal) (t : FileTree) (ps : List Path) :
    (all r t ps).map path = ps := by
  induction ps generalizing t with
  | nil => rfl
  | cons p ps ih => exact congrArg (p :: ·) (ih _)

theorem path_of_mem_all (ha : a ∈ all r t ps) : a.path ∈ ps := by
  have hpath := List.mem_map_of_mem (f := path) ha
  rwa [map_path_all] at hpath

theorem all_append (r : Removal) (t : FileTree) (ps qs : List Path) :
    all r t (ps ++ qs) = all r t ps ++ all r (remaining r t ps) qs := by
  induction ps generalizing t with
  | nil => rfl
  | cons p ps ih => exact congrArg (_ :: ·) (ih _)

/-- Attempts make no directory. -/
theorem directory_of_remaining (h : FileTree.entry? (remaining r t ps) l = some .directory) :
    t.entry? l = some .directory := by
  induction ps generalizing t with
  | nil => exact h
  | cons p ps ih => exact (r.removed t p).directory (ih h)

/-- What stands in the end stood when each attempt was over. -/
theorem directory_of_mem (ha : a ∈ all r t ps)
    (h : FileTree.entry? (remaining r t ps) l = some .directory) :
    FileTree.entry? a.left.2 l = some .directory := by
  induction ps generalizing t with
  | nil => exact nomatch ha
  | cons p ps ih =>
    rcases List.mem_cons.1 ha with rfl | ha
    · exact directory_of_remaining h
    · exact ih ha h

/-- A directory that none of the attempts takes stands in the end. -/
theorem hasDirectory_remaining (ht : t.HasDirectory p)
    (h : ∀ a ∈ all r t ps, a.before.HasDirectory p → a.left.2.HasDirectory p) :
    (remaining r t ps).HasDirectory p := by
  induction ps generalizing t with
  | nil => exact ht
  | cons q ps ih =>
    obtain ⟨hfirst, hrest⟩ := List.forall_mem_cons.1 h
    exact ih (hfirst ht) hrest

end Attempt

/-! ### Cleanups -/

namespace Site

/-- Removes a directory of the operator in some way. -/
def removeRootBy (removal : Removal) (files : FileTree) (root : Path) :
    Except Fault Unit × FileTree :=
  match removal.run files root with
  | (.error f, files) => (if f.kind = .notFound then .ok () else .error (.io f), files)
  | (.ok _, files) => (.ok (), files)

/-- One step of a cleanup, which is recorded. -/
def tryRoot (removal : Removal) (x : First × FileTree) (root : Path) : First × FileTree :=
  let (r, files) := removeRootBy removal x.2 root
  (x.1.record removeStep r, files)

/-- A cleanup that removes directories in some way. -/
def cleanupBy (removal : Removal) (s : Site) : Except Fault Unit × Site :=
  let (first, files) := s.area.created.foldl (tryRoot removal) (First.empty, s.files)
  (first.result, { files, area := { s.area with created := [] } })

/-- The end of an area, with directories removed in some way. -/
def leaveBy (removal : Removal) (s : Site) : FileTree :=
  let (_, s) := s.cleanupBy removal
  match s.area.personal with
  | none => s.files
  | some p => (removal.run s.files p).2

theorem cleanupBy_whole (s : Site) : s.cleanupBy .whole = s.cleanup := rfl

theorem leaveBy_whole (s : Site) : s.leaveBy .whole = s.leave := rfl

variable {removal : Removal}

/-- What is recorded is what the attempt failed with. -/
theorem removeRootBy_eq (removal : Removal) (t : FileTree) (p : Path) :
    removeRootBy removal t p = (Attempt.outcome [removal.attempt t p], (removal.run t p).2) := by
  rcases hrun : removal.run t p with ⟨f | _, t'⟩
  · by_cases hkind : f.kind = .notFound <;>
      simp [removeRootBy, Attempt.outcome, Attempt.fault?, Removal.attempt, hrun, hkind]
  · simp [removeRootBy, Attempt.outcome, Attempt.fault?, Removal.attempt, hrun]

/-- An attempt as a step that is recorded. -/
def attemptStep (a : Attempt) : First.Step := ⟨removeStep, Attempt.outcome [a]⟩

/-- What attempts come to is what they would come to if the first failure ended them. -/
theorem outcome_eq_forM (tried : List Attempt) :
    Attempt.outcome tried = (tried.map attemptStep).forM First.Step.outcome := by
  induction tried with
  | nil => rfl
  | cons a tried ih =>
    rw [Attempt.outcome_cons, ih]
    rfl

/-- Every attempt is recorded, each is made on the tree that the one before left. -/
theorem foldl_tryRoot (removal : Removal) (ps : List Path) (first : First) (t : FileTree) :
    ps.foldl (tryRoot removal) (first, t) =
      (first.recordAll ((Attempt.all removal t ps).map attemptStep),
        Attempt.remaining removal t ps) := by
  induction ps generalizing first t with
  | nil => rfl
  | cons p ps ih =>
    have hstep : tryRoot removal (first, t) p =
        (first.record removeStep (Attempt.outcome [removal.attempt t p]), (removal.run t p).2) := by
      rw [tryRoot, removeRootBy_eq]
    rw [List.foldl_cons, hstep]
    exact ih _ _

/-- **A cleanup tries every directory that was made**, and answers the first failure. -/
theorem cleanupBy_eq (removal : Removal) (s : Site) : s.cleanupBy removal =
    (Attempt.outcome (Attempt.all removal s.files s.area.created),
      { files := Attempt.remaining removal s.files s.area.created
        area := { s.area with created := [] } }) := by
  rw [cleanupBy, foldl_tryRoot, outcome_eq_forM, ← First.result_recordAll]

/-- An area ends with a cleanup, and its private directory is removed after that. -/
theorem leaveBy_eq (removal : Removal) (s : Site) : s.leaveBy removal =
    match s.area.personal with
    | none => (s.cleanupBy removal).2.files
    | some p => (removal.run (s.cleanupBy removal).2.files p).2 := by
  rw [leaveBy, cleanupBy_eq]

end Site
end ExternalSort.Storage
