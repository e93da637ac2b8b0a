/-
Cleanups that report success.

An area is asked for names and cleaned up, and others change the files in between; each removal
may come out in its own way.  What is to be known of a directory of the operator is when a name
was last given in it and how the last attempt to remove it came out, and both can be read off
what was done so far.

A cleanup tries the directories in which names were given since the cleanup before.  So one that
could not be removed is not tried again, unless a name is given in it once more: later cleanups
succeed and leave it in place.  That, and a path that leads nowhere any more, is all that can be
left when a cleanup reports success.
-/
import ExternalSort.Proofs.Storage.Removal
import Mathlib.Data.List.DropRight

namespace ExternalSort.Storage

open Fault

namespace Path

variable {p q r : Path}

theorem same_iff : p.same q = true ↔ p.isAbsolute = q.isAbsolute ∧ p.steps = q.steps := by
  rw [same, Bool.and_eq_true, beq_iff_eq, beq_iff_eq]

theorem same_symm (h : p.same q = true) : q.same p = true :=
  same_iff.2 ⟨(same_iff.1 h).1.symm, (same_iff.1 h).2.symm⟩

theorem same_trans (h : p.same q = true) (h' : q.same r = true) : p.same r = true :=
  same_iff.2 ⟨(same_iff.1 h).1.trans (same_iff.1 h').1, (same_iff.1 h).2.trans (same_iff.1 h').2⟩

end Path

/-- A directory stands under every spelling of its path. -/
theorem FileTree.hasDirectory_of_same {t : FileTree} {p q : Path} (h : p.same q = true) :
    t.HasDirectory p ↔ t.HasDirectory q := by
  rw [HasDirectory, HasDirectory, Path.destination_of_same h]

namespace Site

open FileTree

/-! ### What is done with an area -/

/-- What is done with a spill area, or to its files. -/
inductive Chore where
  | name (extra : Option String)
  | cleanup (removal : Removal)
  /-- Somebody else changes the files. -/
  | meddle (change : FileTree → FileTree)

/-- Carries out a chore. -/
def carryOut (s : Site) : Chore → Answer × Site
  | .name extra => (.named (s.nextFile extra).1, (s.nextFile extra).2)
  | .cleanup removal => (.cleaned (s.cleanupBy removal).1, (s.cleanupBy removal).2)
  | .meddle change => (.nothing, { s with files := change s.files })

/-- A chore, with the site as it was found. -/
structure Deed where
  before : Site
  chore : Chore

namespace Deed

def answer (y : Deed) : Answer := (y.before.carryOut y.chore).1

def after (y : Deed) : Site := (y.before.carryOut y.chore).2

def isCleanup (y : Deed) : Bool :=
  match y.chore with
  | .cleanup _ => true
  | _ => false

/-- The directory in which a name was given, if one was. -/
def directory? (y : Deed) : Option Path :=
  match y.answer with
  | .named (.ok _) => y.before.area.root?
  | _ => none

/-- Whether a name was given in the directory. -/
def givesIn (y : Deed) (p : Path) : Bool := y.directory?.any (·.same p)

/-- The attempts to remove directories that were made. -/
def attempts (y : Deed) : List Attempt :=
  match y.chore with
  | .cleanup removal => Attempt.all removal y.before.files y.before.area.created
  | _ => []

/-- The directory comes to stand though no name was given in it. -/
def Recreates (y : Deed) (p : Path) : Prop :=
  y.givesIn p = false ∧ ¬y.before.files.HasDirectory p ∧ y.after.files.HasDirectory p

/-- The directory is removed by nobody else, and with no other directory. -/
structure Spares (y : Deed) (p : Path) : Prop where
  others : ∀ change, y.chore = .meddle change →
    y.before.files.HasDirectory p → y.after.files.HasDirectory p
  attempts : ∀ a ∈ y.attempts, a.path.same p = false →
    a.before.HasDirectory p → a.left.2.HasDirectory p

end Deed

/-- Chores one after the other. -/
def deeds : List Chore → Site → List Deed
  | [], _ => []
  | chore :: chores, s => ⟨s, chore⟩ :: deeds chores (s.carryOut chore).2

/-- The site that the chores leave. -/
def afterAll (chores : List Chore) (s : Site) : Site :=
  chores.foldl (fun s chore => (s.carryOut chore).2) s

/-- Since the last cleanup a name was given in the directory. -/
def GivenSince (p : Path) (past : List Deed) : Prop :=
  ∃ y ∈ past.rtakeWhile (!·.isCleanup), y.givesIn p

/-- The attempts to remove one directory. -/
def trials (p : Path) (past : List Deed) : List Attempt :=
  past.flatMap fun y => y.attempts.filter (·.path.same p)

/-- The area remembers the directory as made. -/
def Knows (s : Site) (p : Path) : Prop := ∃ made ∈ s.area.created, made.same p = true

variable {s : Site} {y : Deed} {chores : List Chore} {past : List Deed} {p root : Path}
  {a : Attempt} {removal : Removal}

theorem deeds_concat (chores : List Chore) (chore : Chore) (s : Site) :
    deeds (chores ++ [chore]) s = deeds chores s ++ [⟨afterAll chores s, chore⟩] := by
  induction chores generalizing s with
  | nil => rfl
  | cons first chores ih => exact congrArg (_ :: ·) (ih _)

theorem afterAll_concat (chores : List Chore) (chore : Chore) (s : Site) :
    afterAll (chores ++ [chore]) s = (⟨afterAll chores s, chore⟩ : Deed).after :=
  List.foldl_append

theorem trials_concat (p : Path) (past : List Deed) (y : Deed) :
    trials p (past ++ [y]) = trials p past ++ y.attempts.filter (·.path.same p) := by
  rw [trials, List.flatMap_append, List.flatMap_singleton]
  rfl

/-! ### Single chores -/

/-- What comes of asking for a name. -/
inductive Deed.Asked (y : Deed) : Prop
  | refused (directory : y.directory? = none)
    (created : y.after.area.created = y.before.area.created)
    (grown : Grown y.before.files y.after.files)
  | known (root : Path) (directory : y.directory? = some root) (knows : y.before.Knows root)
    (created : y.after.area.created = y.before.area.created)
    (files : y.after.files = y.before.files)
  | made (root : Path) (directory : y.directory? = some root) (turn : root ∈ y.before.area.roots)
    (unknown : ¬y.before.Knows root)
    (created : y.after.area.created = y.before.area.created ++ [root])
    (grown : Grown y.before.files y.after.files)
    (stands : root.octets ≠ [] → y.after.files.HasDirectory root)

theorem asked_name (s : Site) (extra : Option String) : Deed.Asked ⟨s, .name extra⟩ := by
  have hdirectory : Deed.directory? ⟨s, .name extra⟩ =
    match (s.nextFile extra).1 with
    | .ok _ => s.area.root?
    | .error _ => none := by
    simp only [Deed.directory?, Deed.answer, carryOut]
    cases (s.nextFile extra).1 <;> rfl
  have hafter : Deed.after ⟨s, .name extra⟩ = (s.nextFile extra).2 := rfl
  cases hroot : s.area.root? with
  | none =>
    rw [nextFile_rootless hroot] at hdirectory hafter
    exact .refused hdirectory (by rw [hafter]) (by rw [hafter]; exact .refl _)
  | some root =>
    have hnaming := nextFile_naming hroot extra
    have hgrown := grown_makeAll s.files root
    rw [hroot] at hdirectory
    generalize s.nextFile extra = left at hnaming hdirectory hafter
    cases hnaming with
    | refused hmake =>
      rw [hmake] at hgrown
      exact .refused hdirectory (by rw [hafter]) (by rw [hafter]; exact hgrown)
    | known hknown =>
      exact .known root hdirectory (List.any_eq_true.1 hknown) (by rw [hafter]) (by rw [hafter])
    | made hmake hunknown =>
      rw [hmake] at hgrown
      refine .made root hdirectory (List.mem_of_getElem? hroot) ?_ ?_ ?_ ?_
      · exact fun hknows => hunknown (List.any_eq_true.2 hknows)
      · rw [hafter]
      · rw [hafter]
        exact hgrown
      · rw [hafter]
        exact fun hoctets => entry?_makeAll hoctets hmake

theorem after_cleanup (s : Site) (removal : Removal) :
    (⟨s, .cleanup removal⟩ : Deed).after =
      { files := Attempt.remaining removal s.files s.area.created
        area := { s.area with created := [] } } := by
  show (s.cleanupBy removal).2 = _
  rw [cleanupBy_eq]

/-- A directory is remembered from when a name was given in it until the next cleanup. -/
theorem knows_after (y : Deed) (p : Path) :
    y.after.Knows p ↔ y.givesIn p ∨ y.isCleanup = false ∧ y.before.Knows p := by
  obtain ⟨s, chore⟩ := y
  have hgives : ∀ {y : Deed} {root}, y.directory? = some root →
      (y.givesIn p ↔ root.same p = true) := by
    intro y root hdirectory
    rw [Deed.givesIn, hdirectory]
    simp
  cases chore with
  | cleanup removal =>
    rw [after_cleanup]
    simp [Knows, Deed.givesIn, Deed.directory?, Deed.answer, carryOut, Deed.isCleanup]
  | meddle change => simp [Knows, Deed.givesIn, Deed.directory?, Deed.answer, carryOut,
      Deed.isCleanup, Deed.after]
  | name extra =>
    cases asked_name s extra with
    | refused directory created grown =>
      simp [Knows, created, Deed.givesIn, directory, Deed.isCleanup]
    | known root directory knows created files =>
      rw [Knows, created, hgives directory]
      refine ⟨fun h => .inr ⟨rfl, h⟩, ?_⟩
      rintro (hsame | ⟨-, h⟩)
      · obtain ⟨made, hmade, hmade'⟩ := knows
        exact ⟨made, hmade, Path.same_trans hmade' hsame⟩
      · exact h
    | made root directory turn unknown created grown stands =>
      rw [Knows, created, hgives directory]
      simp [Knows, Deed.isCleanup, or_comm, or_and_right, exists_or]

/-! ### Whole histories -/

/-- The area has not changed, and the directories that it remembers are directories of the
operator, each once. -/
structure Tidy (s : Site) (area : Area) : Prop where
  alike : area.Alike s.area
  created : ∀ made ∈ s.area.created, made ∈ area.roots
  distinct : s.area.created.Pairwise fun p q => p.same q = false

theorem tidy_after {area : Area} (h : y.before.Tidy area) : y.after.Tidy area := by
  obtain ⟨s, chore⟩ := y
  cases chore with
  | cleanup removal =>
    rw [after_cleanup]
    refine ⟨?_, fun made hmade => (nomatch hmade), .nil⟩
    exact ⟨h.alike.roots, h.alike.config, h.alike.personal⟩
  | meddle change => exact ⟨h.alike, h.created, h.distinct⟩
  | name extra =>
    have halike : area.Alike (⟨s, .name extra⟩ : Deed).after.area :=
      h.alike.trans (alike_perform s (.name extra))
    cases asked_name s extra with
    | refused _ created _ | known _ _ _ created _ =>
      exact ⟨halike, created ▸ h.created, created ▸ h.distinct⟩
    | made root _ turn unknown created _ _ =>
      refine ⟨halike, fun made hmade => ?_, ?_⟩
      · rw [created] at hmade
        rcases List.mem_append.1 hmade with hmade | hmade
        · exact h.created made hmade
        · exact List.mem_singleton.1 hmade ▸ h.alike.roots ▸ turn
      · rw [created, List.pairwise_append]
        refine ⟨h.distinct, List.pairwise_singleton _ _, fun made hmade q hq => ?_⟩
        rw [List.mem_singleton.1 hq, Bool.eq_false_iff]
        exact fun hsame => unknown ⟨made, hmade, hsame⟩

theorem tidy_afterAll {area : Area} (h : s.Tidy area) (chores : List Chore) :
    (afterAll chores s).Tidy area := by
  induction chores using List.reverseRecOn with
  | nil => exact h
  | append_singleton chores chore ih =>
    rw [afterAll_concat]
    exact tidy_after ih

theorem tidy_before {area : Area} (h : s.Tidy area) (hy : y ∈ deeds chores s) :
    y.before.Tidy area := by
  induction chores using List.reverseRecOn with
  | nil => exact nomatch hy
  | append_singleton chores chore ih =>
    rw [deeds_concat] at hy
    rcases List.mem_append.1 hy with hy | hy
    · exact ih hy
    · exact List.mem_singleton.1 hy ▸ tidy_afterAll h chores

/-- What the area remembers are the directories in which names were given since the last cleanup. -/
theorem knows_afterAll (h : s.area.created = []) (chores : List Chore) (p : Path) :
    (afterAll chores s).Knows p ↔ GivenSince p (deeds chores s) := by
  induction chores using List.reverseRecOn with
  | nil => simp [afterAll, deeds, Knows, GivenSince, h]
  | append_singleton chores chore ih =>
    rw [afterAll_concat, knows_after, deeds_concat, GivenSince, List.rtakeWhile_concat]
    generalize hy : (⟨afterAll chores s, chore⟩ : Deed) = y
    have hbefore : y.before = afterAll chores s := by rw [← hy]
    cases hcleanup : y.isCleanup with
    | true =>
      -- A cleanup gives no names.
      have hnone : ¬y.givesIn p = true := by
        obtain ⟨s', _ | _ | _⟩ := y
        · exact nomatch hcleanup
        · exact Bool.false_ne_true
        · exact nomatch hcleanup
      simp [hnone]
    | false =>
      rw [hbefore, ih, GivenSince]
      simp [or_and_right, exists_or, or_comm]

theorem path_of_attempt (ha : a ∈ y.attempts) : a.path ∈ y.before.area.created := by
  obtain ⟨s, chore⟩ := y
  cases chore with
  | name extra | meddle change => exact nomatch ha
  | cleanup removal =>
    exact Attempt.path_of_mem_all ha

/-- A cleanup tries the directories that the area remembers. -/
theorem attempts_iff (y : Deed) (p : Path) :
    (∃ a ∈ y.attempts, a.path.same p = true) ↔ y.isCleanup = true ∧ y.before.Knows p := by
  constructor
  · rintro ⟨a, ha, hsame⟩
    refine ⟨?_, a.path, path_of_attempt ha, hsame⟩
    obtain ⟨s, _ | _ | _⟩ := y
    · exact nomatch ha
    · rfl
    · exact nomatch ha
  · rintro ⟨hcleanup, made, hmade, hsame⟩
    obtain ⟨s, _ | removal | _⟩ := y
    · exact nomatch hcleanup
    · have hpaths := Attempt.map_path_all removal s.files s.area.created
      obtain ⟨a, ha, rfl⟩ := List.mem_map.1 (hpaths.symm ▸ hmade)
      exact ⟨a, ha, hsame⟩
    · exact nomatch hcleanup

/-- What stands after a cleanup was left by the attempts to remove it. -/
theorem leaves_of_after (ha : a ∈ y.attempts) (hsame : a.path.same p = true)
    (h : y.after.files.HasDirectory p) : a.Leaves := by
  obtain ⟨s, chore⟩ := y
  cases chore with
  | name extra | meddle change => exact nomatch ha
  | cleanup removal =>
    rw [after_cleanup] at h
    exact (hasDirectory_of_same hsame).2 (Attempt.directory_of_mem ha h)

/-- Of a directory in which a name was given, the area remembers that, or there was an attempt to
remove it; and if it stands, the last attempt left it, unless it was made again since. -/
theorem last_trial (chores : List Chore) (p : Path)
    (hgiven : ∃ y ∈ deeds chores s, y.givesIn p) :
    (afterAll chores s).Knows p ∨
      ∃ last, (trials p (deeds chores s)).getLast? = some last ∧
        ((∀ y ∈ (deeds chores s).rtakeWhile (!·.givesIn p), ¬y.Recreates p) →
          (afterAll chores s).files.HasDirectory p → last.Leaves) := by
  induction chores using List.reverseRecOn with
  | nil => exact nomatch hgiven
  | append_singleton chores chore ih =>
    rw [deeds_concat] at hgiven ⊢
    rw [afterAll_concat, trials_concat]
    generalize hy : (⟨afterAll chores s, chore⟩ : Deed) = y at hgiven ⊢
    have hbefore : y.before = afterAll chores s := by rw [← hy]
    rw [← hbefore] at ih
    cases htried : y.attempts.filter (·.path.same p) with
    | cons a rest =>
      refine .inr ⟨(a :: rest).getLast (List.cons_ne_nil a rest), ?_, fun _ hstands => ?_⟩
      · rw [List.getLast?_append, List.getLast?_eq_some_getLast (List.cons_ne_nil a rest)]
        rfl
      · have hmem := List.getLast_mem (List.cons_ne_nil a rest)
        generalize (a :: rest).getLast _ = last at hmem ⊢
        rw [← htried] at hmem
        obtain ⟨hlast, hsame⟩ := List.mem_filter.1 hmem
        exact leaves_of_after hlast hsame hstands
    | nil =>
      rw [List.append_nil, knows_after]
      have huntried : ¬(y.isCleanup = true ∧ y.before.Knows p) := by
        rw [← attempts_iff]
        rintro ⟨a, ha, hsame⟩
        exact List.filter_eq_nil_iff.1 htried a ha hsame
      by_cases hgives : y.givesIn p
      · exact .inl (.inl hgives)
      obtain ⟨z, hz, hzgives⟩ := hgiven
      have hpast : z ∈ deeds chores s := by
        rcases List.mem_append.1 hz with hz | hz
        · exact hz
        · exact absurd (List.mem_singleton.1 hz ▸ hzgives) hgives
      rcases ih ⟨z, hpast, hzgives⟩ with hknows | ⟨last, hlast, hleaves⟩
      · refine .inl (.inr ⟨?_, hknows⟩)
        rw [Bool.eq_false_iff]
        exact fun hcleanup => huntried ⟨hcleanup, hknows⟩
      · refine .inr ⟨last, hlast, fun hrecreates hstands => ?_⟩
        rw [Bool.not_eq_true] at hgives
        rw [List.rtakeWhile_concat_pos _ _ _ (by rw [hgives]; rfl)] at hrecreates
        refine hleaves (fun z hz => hrecreates z (List.mem_append_left _ hz)) ?_
        by_contra hbare
        exact hrecreates y (List.mem_append_right _ (List.mem_singleton_self y))
          ⟨hgives, hbare, hstands⟩

/-- What is done to a directory is that it stands as long as the area remembers it, and then as
the last attempt to remove it left it; and where an attempt fails, the directory is in place. -/
structure Kept (p : Path) (past : List Deed) (s : Site) : Prop where
  standing : s.Knows p → s.files.HasDirectory p
  left : ¬s.Knows p → ∀ last, (trials p past).getLast? = some last → last.Leaves →
    s.files.HasDirectory p
  failed : ∀ a ∈ trials p past, ∀ f, a.fault? = some f → a.Leaves

/-- Directories that are tried without this one spare it. -/
theorem hasDirectory_of_others {t : FileTree} {ps : List Path}
    (ht : t.HasDirectory p) (hps : ∀ q ∈ ps, q.same p = false)
    (h : ∀ a ∈ Attempt.all removal t ps, a.path.same p = false →
      a.before.HasDirectory p → a.left.2.HasDirectory p) :
    (Attempt.remaining removal t ps).HasDirectory p := by
  exact Attempt.hasDirectory_remaining ht fun a ha => h a ha (hps _ (Attempt.path_of_mem_all ha))

theorem filter_all_eq_nil {t : FileTree} {ps : List Path} (hps : ∀ q ∈ ps, q.same p = false) :
    (Attempt.all removal t ps).filter (·.path.same p) = [] := by
  refine List.filter_eq_nil_iff.2 fun a ha => ?_
  exact Bool.eq_false_iff.1 (hps _ (Attempt.path_of_mem_all ha))

/-- A cleanup tries a directory that the area remembers once, finds it there, and leaves it to
the end if that attempt does. -/
theorem trial_of_cleanup {area : Area} (htidy : s.Tidy area)
    (hspares : Deed.Spares ⟨s, .cleanup removal⟩ p) (hknows : s.Knows p)
    (hstands : s.files.HasDirectory p) :
    ∃ a, (Attempt.all removal s.files s.area.created).filter (·.path.same p) = [a] ∧
      a.path.same p = true ∧ a.before.HasDirectory p ∧
      (a.left.2.HasDirectory p →
        (Attempt.remaining removal s.files s.area.created).HasDirectory p) := by
  have hothers : ∀ a ∈ Attempt.all removal s.files s.area.created, a.path.same p = false →
    a.before.HasDirectory p → a.left.2.HasDirectory p := hspares.attempts
  have hdistinct := htidy.distinct
  obtain ⟨made, hmade, hsame⟩ := hknows
  obtain ⟨early, late, hcreated⟩ := List.append_of_mem hmade
  rw [hcreated] at hothers hdistinct ⊢
  obtain ⟨-, hlate, hearly⟩ := List.pairwise_append.1 hdistinct
  have hsparse : ∀ q ∈ early, q.same p = false := fun q hq => Bool.eq_false_iff.2 fun hq' =>
    Bool.eq_false_iff.1 (hearly q hq made (List.mem_cons_self ..))
      (Path.same_trans hq' (Path.same_symm hsame))
  have hsparse' : ∀ q ∈ late, q.same p = false := fun q hq => Bool.eq_false_iff.2 fun hq' =>
    Bool.eq_false_iff.1 ((List.pairwise_cons.1 hlate).1 q hq)
      (Path.same_trans hsame (Path.same_symm hq'))
  rw [Attempt.all_append, List.forall_mem_append] at hothers
  obtain ⟨hfirst, hrest⟩ := hothers
  refine ⟨removal.attempt (Attempt.remaining removal s.files early) made, ?_, hsame, ?_, ?_⟩
  · rw [Attempt.all_append, List.filter_append, filter_all_eq_nil hsparse, List.nil_append,
      Attempt.all, List.filter_cons_of_pos (by exact hsame), filter_all_eq_nil hsparse']
  · exact hasDirectory_of_others hstands hsparse hfirst
  · intro hleft
    rw [Attempt.remaining, List.foldl_append, List.foldl_cons]
    exact hasDirectory_of_others hleft hsparse' (List.forall_mem_cons.1 hrest).2

/-- A cleanup keeps it so. -/
theorem kept_cleanup {area : Area} (htidy : s.Tidy area)
    (hspares : Deed.Spares ⟨s, .cleanup removal⟩ p) (h : Kept p past s) :
    Kept p (past ++ [⟨s, .cleanup removal⟩]) (⟨s, .cleanup removal⟩ : Deed).after := by
  have htrials : trials p (past ++ [⟨s, .cleanup removal⟩]) = trials p past ++
      (Attempt.all removal s.files s.area.created).filter (·.path.same p) := trials_concat ..
  rw [after_cleanup]
  by_cases hknows : s.Knows p
  · obtain ⟨a, honly, hsame, hbefore, hafter⟩ :=
      trial_of_cleanup htidy hspares hknows (h.standing hknows)
    rw [honly] at htrials
    constructor
    case standing => exact fun ⟨made, hmade, _⟩ => nomatch hmade
    case left =>
      intro _ last hlast hleaves
      rw [htrials, List.getLast?_concat] at hlast
      obtain rfl := Option.some.inj hlast
      exact hafter ((hasDirectory_of_same hsame).1 hleaves)
    case failed =>
      intro b hb f hf
      rw [htrials] at hb
      rcases List.mem_append.1 hb with hb | hb
      · exact h.failed b hb f hf
      · obtain rfl := List.mem_singleton.1 hb
        exact Attempt.leaves_of_fault hf ((hasDirectory_of_same hsame).2 hbefore)
  · have hunknown : ∀ q ∈ s.area.created, q.same p = false :=
      fun q hq => Bool.eq_false_iff.2 fun hsame => hknows ⟨q, hq, hsame⟩
    rw [filter_all_eq_nil hunknown, List.append_nil] at htrials
    constructor
    case standing => exact fun ⟨made, hmade, _⟩ => nomatch hmade
    case left =>
      intro _ last hlast hleaves
      rw [htrials] at hlast
      exact hasDirectory_of_others (h.left hknows last hlast hleaves) hunknown hspares.attempts
    case failed =>
      rw [htrials]
      exact h.failed

theorem kept_name {area : Area} (htidy : s.Tidy area)
    (hroots : ∀ root ∈ area.roots, root.octets ≠ [])
    {extra : Option String} (h : Kept p past s) :
    Kept p (past ++ [⟨s, .name extra⟩]) (⟨s, .name extra⟩ : Deed).after := by
  have htrials : trials p (past ++ [⟨s, .name extra⟩]) = trials p past := by
    rw [trials_concat]
    exact List.append_nil _
  have hknows := knows_after ⟨s, .name extra⟩ p
  have hgrown : Grown s.files (⟨s, .name extra⟩ : Deed).after.files := by
    cases asked_name s extra with
    | refused _ _ grown | made _ _ _ _ _ grown _ => exact grown
    | known _ _ _ _ files => exact files ▸ .refl _
  constructor
  case standing =>
    intro hafter
    rcases hknows.1 hafter with hgives | ⟨-, hbefore⟩
    · obtain ⟨root, hroot, hsame⟩ := (Option.any_eq_true _ _).1 hgives
      cases asked_name s extra with
      | refused directory _ _ => exact nomatch directory.symm.trans hroot
      | known root' directory knows _ _ =>
        obtain rfl : root' = root := Option.some.inj (directory.symm.trans hroot)
        obtain ⟨made, hmade, hmade'⟩ := knows
        exact hgrown.directory (h.standing ⟨made, hmade, Path.same_trans hmade' hsame⟩)
      | made root' directory turn _ _ _ stands =>
        obtain rfl : root' = root := Option.some.inj (directory.symm.trans hroot)
        exact (hasDirectory_of_same hsame).1 (stands (hroots _ (htidy.alike.roots ▸ turn)))
    · exact hgrown.directory (h.standing hbefore)
  case left =>
    intro hafter last hlast hleaves
    rw [htrials] at hlast
    exact hgrown.directory
      (h.left (fun hbefore => hafter (hknows.2 (.inr ⟨rfl, hbefore⟩))) last hlast hleaves)
  case failed =>
    rw [htrials]
    exact h.failed

/-- Where others do not remove the directory, all chores keep it so. -/
theorem kept_afterAll {area : Area} (htidy : s.Tidy area)
    (hroots : ∀ root ∈ area.roots, root.octets ≠ []) (hs : s.area.created = [])
    (chores : List Chore) (hspares : ∀ y ∈ deeds chores s, y.Spares p) :
    Kept p (deeds chores s) (afterAll chores s) := by
  induction chores using List.reverseRecOn with
  | nil =>
    refine ⟨fun ⟨made, hmade, _⟩ => ?_, fun _ _ hlast => (nomatch hlast), fun _ ha => (nomatch ha)⟩
    rw [show (afterAll [] s).area.created = [] from hs] at hmade
    exact nomatch hmade
  | append_singleton chores chore ih =>
    rw [deeds_concat] at hspares ⊢
    rw [afterAll_concat]
    obtain ⟨hpast, hlast⟩ := List.forall_mem_append.1 hspares
    have hspares' := hlast _ (List.mem_singleton_self _)
    have htidy' := tidy_afterAll htidy chores
    cases chore with
    | name extra => exact kept_name htidy' hroots (ih hpast)
    | cleanup removal => exact kept_cleanup htidy' hspares' (ih hpast)
    | meddle change =>
      have hkept := ih hpast
      have htrials : trials p (deeds chores s ++ [⟨afterAll chores s, .meddle change⟩])
          = trials p (deeds chores s) := by
        rw [trials_concat]
        exact List.append_nil _
      constructor
      case standing => exact fun hknows => hspares'.others change rfl (hkept.standing hknows)
      case left =>
        intro hknows last hlast hleaves
        rw [htrials] at hlast
        exact hspares'.others change rfl (hkept.left hknows last hlast hleaves)
      case failed =>
        rw [htrials]
        exact hkept.failed

/-- An attempt to remove a directory that leaves it failed, unless the path leads up and has lost
its way, or the tree is none that can be made. -/
theorem fault_of_leaves (hnames : a.path.names ≠ []) (hleaves : a.Leaves) :
    (∃ f, a.fault? = some f) ∨ Path.dotDot ∈ a.path.names ∨ ¬a.before.Rooted := by
  rcases Attempt.fault_or_nowhere hleaves with hfault | ⟨g, hnowhere, hkind⟩
  · exact .inl hfault
  refine .inr ?_
  by_contra hplain
  rw [not_or, not_not] at hplain
  have hnone := entry?_of_nowhere hplain.2 hnames hplain.1 hnowhere hkind
  exact nomatch hnone.symm.trans (a.removed.directory hleaves)

/-- Directories of the operator are tried, and no others. -/
theorem path_of_trial {area : Area} (htidy : s.Tidy area) (ha : a ∈ trials p (deeds chores s)) :
    a.path ∈ area.roots := by
  obtain ⟨y, hy, ha⟩ := List.mem_flatMap.1 ha
  exact (tidy_before htidy hy).created _ (path_of_attempt (List.mem_filter.1 ha).1)

/-- Where a deed tried the directory, its attempt is the last. -/
theorem last_of_tried {past : List Deed} {x : Deed} {last : Attempt}
    (htried : ∃ a ∈ x.attempts, a.path.same p = true)
    (hlast : (trials p (past ++ [x])).getLast? = some last) : last ∈ x.attempts := by
  obtain ⟨a, ha, hsame⟩ := htried
  rw [trials_concat, List.getLast?_append_of_ne_nil] at hlast
  · exact (List.mem_filter.1 (List.mem_of_getLast? hlast)).1
  · exact List.ne_nil_of_mem (List.mem_filter.2 ⟨ha, hsame⟩)

/-- **A cleanup that reports success has cleaned up, but for what an earlier one failed on.**  Take
an area as it was started, and a cleanup after any history of requests for names, cleanups and
changes of the files by others, in which each removal may succeed, find nothing, or fail and leave
the directory in place.  The cleanup tries every directory that the area remembers, in order and
whatever comes of the others, and answers the first failure; and it remembers those in which a
name was given since the last cleanup, failed or not, and no others.  If it reports success, there
was a last attempt to remove each directory in which a name was ever given.  The directory stands
only if that attempt left it, unless it was made again since the last name in it; and it does stand
then, if nobody else removed it.  An attempt that fails leaves the directory.  One that left it did
fail, and was made by an earlier cleanup, with no name given in the directory since; or its path
leads up and has lost its way.  At the end of the area there is one more cleanup, and only a private
directory is removed after that.  The cleanup and the end of the area as they are have the removal
of the tree. -/
theorem success_leaves_only_forgotten {config : SpillConfig} {temporary : Path} {t t' : FileTree}
    {area : Area} (hstart : Area.start config temporary t = (.ok area, t')) (chores : List Chore)
    (removal : Removal) :
    let past := deeds chores ⟨t', area⟩
    let x : Deed := ⟨afterAll chores ⟨t', area⟩, .cleanup removal⟩
    x.attempts.map (·.path) = x.before.area.created ∧
    x.answer = .cleaned (Attempt.outcome x.attempts) ∧
    (∀ p, (∃ a ∈ x.attempts, a.path.same p = true) ↔ GivenSince p past) ∧
    (x.answer = .cleaned (.ok ()) → ∀ p, (∃ y ∈ past, y.givesIn p = true) →
      ∃ last, (trials p (past ++ [x])).getLast? = some last ∧
        ((∀ y ∈ past.rtakeWhile (!·.givesIn p), ¬y.Recreates p) →
          x.after.files.HasDirectory p → last.Leaves) ∧
        ((∀ y ∈ past ++ [x], y.Spares p) →
          (last.Leaves → x.after.files.HasDirectory p) ∧
          ((∃ f, last.fault? = some f) → last.Leaves)) ∧
        (last.Leaves → (∃ f, last.fault? = some f) ∧ ¬GivenSince p past ∨
          Path.dotDot ∈ last.path.names ∨ ¬last.before.Rooted)) ∧
    x.before.leaveBy removal =
      (if config.directories.isEmpty then (removal.run x.after.files temporary).2
      else x.after.files) ∧
    ∀ s : Site, s.cleanupBy .whole = s.cleanup ∧ s.leaveBy .whole = s.leave := by
  intro past x
  have hnew := Area.new_start hstart
  have hcreated : area.created = [] := hnew.created
  have htidy : Tidy ⟨t', area⟩ area := by
    refine ⟨.refl area, fun made hmade => ?_, ?_⟩
    · exact nomatch (show made ∈ [] from hcreated ▸ hmade)
    · exact (show area.created.Pairwise _ from hcreated ▸ .nil)
  have hgiven := knows_afterAll (s := ⟨t', area⟩) hcreated chores
  have hanswer : x.answer = .cleaned (Attempt.outcome x.attempts) := by
    show Answer.cleaned (x.before.cleanupBy removal).1 = _
    rw [cleanupBy_eq]
    rfl
  have htried : ∀ p, (∃ a ∈ x.attempts, a.path.same p = true) ↔ GivenSince p past := by
    intro p
    rw [attempts_iff, ← hgiven p]
    exact ⟨fun h => h.2, fun h => ⟨rfl, h⟩⟩
  refine ⟨Attempt.map_path_all .., hanswer, htried, fun hok p hgives => ?_, ?_,
    fun s => ⟨s.cleanupBy_whole, s.leaveBy_whole⟩⟩
  · -- What holds of the chores with the cleanup holds of them after it.
    have hpast : deeds (chores ++ [.cleanup removal]) ⟨t', area⟩ = past ++ [x] := deeds_concat ..
    have hafter : afterAll (chores ++ [.cleanup removal]) ⟨t', area⟩ = x.after := afterAll_concat ..
    have hforgotten : ¬x.after.Knows p := by
      rw [after_cleanup]
      exact fun ⟨made, hmade, _⟩ => nomatch hmade
    have hlast := last_trial (s := ⟨t', area⟩) (chores ++ [.cleanup removal]) p
    rw [hpast, hafter] at hlast
    obtain ⟨y, hy, hgives⟩ := hgives
    obtain hknows | ⟨last, hlast, hleaves⟩ := hlast ⟨y, List.mem_append_left _ hy, hgives⟩
    · exact absurd hknows hforgotten
    refine ⟨last, hlast, fun hrecreates hstands => ?_, fun hspares => ?_, fun hleft => ?_⟩
    · refine hleaves (fun z hz => ?_) hstands
      rw [List.rtakeWhile_concat_pos _ _ _ rfl] at hz
      rcases List.mem_append.1 hz with hz | hz
      · exact hrecreates z hz
      · rintro ⟨-, hbare, hstands⟩
        rw [List.mem_singleton.1 hz, after_cleanup] at *
        exact hbare (Attempt.directory_of_remaining hstands)
    · have hkept := kept_afterAll (s := ⟨t', area⟩) htidy hnew.octets_ne_nil hcreated
        (chores ++ [.cleanup removal]) (hpast ▸ hspares)
      rw [hpast, hafter] at hkept
      refine ⟨hkept.left hforgotten last hlast, fun ⟨f, hf⟩ => ?_⟩
      exact hkept.failed last (List.mem_of_getLast? hlast) f hf
    · have hpath : last.path ∈ area.roots :=
        path_of_trial htidy (hpast ▸ List.mem_of_getLast? hlast)
      refine (fault_of_leaves (hnew.names_ne_nil _ hpath) hleft).imp_left fun hfault => ?_
      refine ⟨hfault, fun hsince => ?_⟩
      have hmem : last ∈ x.attempts := last_of_tried ((htried p).2 hsince) hlast
      obtain ⟨f, hf⟩ := hfault
      rw [hanswer] at hok
      have hnone := Attempt.fault?_of_outcome (Answer.cleaned.inj hok) hmem
      exact nomatch hnone.symm.trans hf
  · have halike := (tidy_afterAll htidy chores).alike
    have hpersonal : x.before.area.personal = _ := halike.personal.trans hnew.personal
    rw [leaveBy_eq, hpersonal]
    cases config.directories.isEmpty <;> rfl

/-! ### A removal that fails once -/

/-- A removal that is denied for one directory. -/
def denied (q : Path) : Removal where
  run t p := if p = q then (.error (.system 13), t) else t.removeAll p
  removed t p := by
    by_cases h : p = q
    · rw [if_pos h]
      exact .stuck (by decide) (.refl t)
    · rw [if_neg h]
      exact removed_removeAll t p

/-- Two spill directories. -/
def couple : SpillConfig := ⟨[.ofText "d", .ofText "e"], "x", 16, .none⟩

/-- A name is given in each of them, and a cleanup is denied the first. -/
def interrupted : List Chore := [.name none, .name none, .cleanup (denied (.ofText "d/x"))]

/-- The next cleanup tries nothing, reports success and leaves the directory that was denied. -/
theorem denied_outlasts_success : ∃ area t', Area.start couple ⟨[]⟩ .empty = (.ok area, t') ∧
    let x : Deed := ⟨afterAll interrupted ⟨t', area⟩, .cleanup .whole⟩
    x.answer = .cleaned (.ok ()) ∧ (∀ p, ¬∃ a ∈ x.attempts, a.path.same p = true) ∧
      x.after.files.HasDirectory (.ofText "d/x") ∧ ¬x.after.files.HasDirectory (.ofText "e/x") := by
  obtain ⟨area, t', hstart, hok, hgives, hfault, hothers, hgone⟩ : ∃ area t',
      Area.start couple ⟨[]⟩ .empty = (.ok area, t') ∧
      let past := deeds interrupted ⟨t', area⟩
      let x : Deed := ⟨afterAll interrupted ⟨t', area⟩, .cleanup .whole⟩
      x.answer = .cleaned (.ok ()) ∧ (∃ y ∈ past, y.givesIn (.ofText "d/x") = true) ∧
      ((trials (.ofText "d/x") (past ++ [x])).getLast?.bind Attempt.fault?).isSome = true ∧
      (∀ y ∈ past ++ [x], ∀ a ∈ y.attempts, a.path.same (.ofText "d/x") = false →
        a.before.HasDirectory (.ofText "d/x") → a.left.2.HasDirectory (.ofText "d/x")) ∧
      ¬x.after.files.HasDirectory (.ofText "e/x") :=
    ⟨_, _, rfl, rfl, by decide +kernel⟩
  obtain ⟨-, -, htried, hsuccess, -⟩ := success_leaves_only_forgotten hstart interrupted .whole
  obtain ⟨last, hlast, -, hstays, -⟩ := hsuccess hok _ hgives
  refine ⟨area, t', hstart, hok, fun p hp => ?_, ?_, hgone⟩
  · obtain ⟨y, hy, -⟩ := (htried p).1 hp
    exact nomatch hy
  · have hspares : ∀ y ∈ deeds interrupted ⟨t', area⟩ ++
        [⟨afterAll interrupted ⟨t', area⟩, .cleanup .whole⟩], y.Spares (.ofText "d/x") := by
      refine fun y hy => ⟨fun change hchange => ?_, hothers y hy⟩
      simp only [interrupted, deeds, List.cons_append, List.nil_append, List.mem_cons,
        List.not_mem_nil, or_false] at hy
      rcases hy with rfl | rfl | rfl | rfl <;> cases hchange
    obtain ⟨hleft, hfailed⟩ := hstays hspares
    rw [hlast] at hfault
    exact hleft (hfailed (Option.isSome_iff_exists.1 hfault))

/-- Somebody puts a file in the place of the first. -/
def displace (t : FileTree) : FileTree :=
  (t.clear (["d", "x"].map Text.Utf8.encode)).insert (["d", "x"].map Text.Utf8.encode) (.file 7)

/-- What a cleanup fails on, the next does not try: it reports success with the directory in place,
created by the area and by nobody since; and with what is in the way of the removal still there. -/
theorem failed_removal_is_forgotten :
    (∃ area t', Area.start couple ⟨[]⟩ .empty = (.ok area, t') ∧
      let y : Deed :=
        ⟨afterAll [.name none, .name none] ⟨t', area⟩, .cleanup (denied (.ofText "d/x"))⟩
      let x : Deed := ⟨y.after, .cleanup .whole⟩
      y.answer = .cleaned (.error (.io (.system 13))) ∧ x.answer = .cleaned (.ok ()) ∧
        x.after.files.HasDirectory (.ofText "d/x")) ∧
    ∃ area t', Area.start couple ⟨[]⟩ .empty = (.ok area, t') ∧
      let s := afterAll [.name none, .meddle displace] ⟨t', area⟩
      s.cleanup.1 = .error (.io (.system SystemCode.notDirectory)) ∧
        s.cleanup.2.cleanup.1 = .ok () ∧
        s.cleanup.2.cleanup.2.files.entry? (["d", "x"].map Text.Utf8.encode) = some (.file 7) :=
  ⟨⟨_, _, rfl, rfl, rfl, by decide +kernel⟩, _, _, rfl, rfl, rfl, by decide +kernel⟩

end Site
end ExternalSort.Storage
