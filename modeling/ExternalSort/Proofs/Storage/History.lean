/-
The history of a spill area.

An area keeps little of what was done with it: how many names were asked for, how many were
given, and which directories it made.  Its directories and its configuration it never changes.
So each step is looked at once, for what it does to these, and what a step does adds up along
the history.
-/
import ExternalSort.Proofs.Storage.Directories
import ExternalSort.Storage.Operation

namespace ExternalSort

/-- The directory of the operator below a directory. -/
def SpillConfig.below (c : SpillConfig) (directory : Storage.Path) : Storage.Path :=
  directory.join (Text.Utf8.encode c.operatorId)

/-- The name of an operator's directory is a single step, and one that does not lead up. -/
theorem SpillConfig.step_of_check {c : SpillConfig} (h : c.check = .ok ()) :
    Storage.Path.IsStep (Text.Utf8.encode c.operatorId) ∧
      Text.Utf8.encode c.operatorId ≠ Storage.Path.dotDot := by
  unfold check at h
  split at h
  · exact nomatch h
  split at h
  · rename_i hname
    simp only [isOperatorName, Bool.not_eq_true', Bool.or_eq_false_iff] at hname
    obtain ⟨⟨⟨hempty, hslash⟩, -⟩, hup⟩ := hname
    refine ⟨⟨Text.Utf8.separator_notMem_encode ?_, fun hnil => ?_⟩, fun hsame => ?_⟩
    · simpa using hslash
    · have hnone : c.operatorId = "" := Text.Utf8.encode_injective hnil
      rw [hnone] at hempty
      exact absurd hempty (by decide)
    · have hdots : c.operatorId = ".." := Text.Utf8.encode_injective hsame
      rw [hdots] at hup
      exact absurd hup (by decide)
  · exact nomatch h

namespace Storage

open Fault

/-! ### The beginning -/

/-- The spill directories of an area: those that are configured, or its private one. -/
def Area.grounds (config : SpillConfig) (temporary : Path) : List Path :=
  if config.directories.isEmpty then [temporary] else config.directories

theorem Area.grounds_ne_nil (config : SpillConfig) (temporary : Path) :
    grounds config temporary ≠ [] := by
  unfold grounds
  split
  · exact List.cons_ne_nil _ _
  · rename_i h
    rwa [List.isEmpty_iff] at h

/-- What an area is when it is new. -/
structure Area.New (config : SpillConfig) (temporary : Path) (a : Area) : Prop where
  accepted : config.check = .ok ()
  settings : a.config = config
  roots : a.roots = (grounds config temporary).map config.below
  personal : a.personal = if config.directories.isEmpty then some temporary else none
  created : a.created = []
  asked : a.asked = 0
  given : a.given = 0

theorem Area.new_start {config : SpillConfig} {temporary : Path} {t t' : FileTree} {a : Area}
    (h : start config temporary t = (.ok a, t')) : New config temporary a := by
  unfold start at h
  split at h
  · exact nomatch (Prod.mk.inj h).1
  · rename_i u hcheck
    obtain rfl : () = u := rfl
    dsimp only at h
    split at h
    · rename_i hempty
      split at h
      · exact nomatch (Prod.mk.inj h).1
      · obtain rfl := Except.ok.inj (Prod.mk.inj h).1
        exact ⟨hcheck, rfl, by rw [grounds, if_pos hempty]; rfl, (if_pos hempty).symm, rfl, rfl, rfl⟩
    · rename_i hsome
      obtain rfl := Except.ok.inj (Prod.mk.inj h).1
      exact ⟨hcheck, rfl, by rw [grounds, if_neg hsome]; rfl, (if_neg hsome).symm, rfl, rfl, rfl⟩

theorem Area.New.roots_ne_nil {config : SpillConfig} {temporary : Path} {a : Area}
    (h : New config temporary a) : a.roots ≠ [] := by
  rw [h.roots]
  exact fun hnil => grounds_ne_nil config temporary (List.map_eq_nil_iff.1 hnil)

theorem Area.New.octets_ne_nil {config : SpillConfig} {temporary : Path} {a : Area}
    (h : New config temporary a) : ∀ root ∈ a.roots, root.octets ≠ [] := by
  rw [h.roots]
  intro root hroot
  obtain ⟨directory, -, rfl⟩ := List.mem_map.1 hroot
  exact Path.join_ne_nil (SpillConfig.step_of_check h.accepted).1.nonempty directory

theorem Area.New.names_ne_nil {config : SpillConfig} {temporary : Path} {a : Area}
    (h : New config temporary a) : ∀ root ∈ a.roots, root.names ≠ [] := by
  rw [h.roots]
  intro root hroot hnil
  obtain ⟨directory, -, rfl⟩ := List.mem_map.1 hroot
  have hstep := (SpillConfig.step_of_check h.accepted).1
  have hlast := Path.getLast?_names_join hstep.separator hstep.nonempty directory
  rw [show (directory.join _).names = [] from hnil] at hlast
  exact nomatch hlast

/-- The same directories of the operator, configuration and private directory. -/
structure Area.Alike (a b : Area) : Prop where
  roots : b.roots = a.roots
  config : b.config = a.config
  personal : b.personal = a.personal

theorem Area.Alike.refl (a : Area) : a.Alike a := ⟨rfl, rfl, rfl⟩

theorem Area.Alike.trans {a b c : Area} (h : a.Alike b) (h' : b.Alike c) : a.Alike c :=
  ⟨h'.roots.trans h.roots, h'.config.trans h.config, h'.personal.trans h.personal⟩

namespace Site

open FileTree

variable {s : Site} {ops : List Operation} {x : Step} {i : Nat} {p : Path}

/-! ### Single steps -/

/-- The directories take turns. -/
theorem root?_of_roots (h : s.area.roots ≠ []) : ∃ root, s.area.root? = some root := by
  have hlt := Nat.mod_lt s.area.asked (List.length_pos_iff.2 h)
  exact ⟨_, List.getElem?_eq_getElem hlt⟩

/-- What an area is for, is for good. -/
theorem alike_perform (s : Site) (op : Operation) : s.area.Alike (s.perform op).2.area := by
  cases op with
  | cleanup | meddle _ => exact ⟨rfl, rfl, rfl⟩
  | name extra =>
    show s.area.Alike (s.nextFile extra).2.area
    cases hroot : s.area.root? with
    | none =>
      rw [nextFile_rootless hroot]
      exact .refl _
    | some root =>
      have hnaming := nextFile_naming hroot extra
      generalize s.nextFile extra = left at hnaming ⊢
      cases hnaming <;> exact ⟨rfl, rfl, rfl⟩

/-- A name is that of the next file, in the directory whose turn it is. -/
theorem path_of_step (hroots : x.before.area.roots ≠ []) (h : x.path? = some p) :
    ∃ extra, ∃ root ∈ x.before.area.roots, x.operation = .name extra ∧
      p = root.join (Area.fileName x.before.area.given extra) := by
  obtain ⟨s, op⟩ := x
  cases op with
  | cleanup | meddle _ => exact nomatch h
  | name extra =>
    obtain ⟨root, hroot⟩ := root?_of_roots hroots
    have hnaming := nextFile_naming hroot extra
    unfold Step.path? Step.answer at h
    simp only [perform] at h
    generalize s.nextFile extra = left at hnaming h
    cases hnaming with
    | refused _ => exact nomatch h
    | known _ | made _ =>
      exact ⟨extra, root, List.mem_of_getElem? hroot, rfl, (Option.some.inj h).symm⟩

/-- What an area has made are directories of the operator. -/
theorem created_step (h : ∀ made ∈ x.before.area.created, made ∈ x.before.area.roots) :
    ∀ made ∈ x.after.area.created, made ∈ x.after.area.roots := by
  obtain ⟨s, op⟩ := x
  cases op with
  | cleanup => exact fun made hmade => nomatch hmade
  | meddle _ => exact h
  | name extra =>
    show ∀ made ∈ (s.nextFile extra).2.area.created, made ∈ (s.nextFile extra).2.area.roots
    cases hroot : s.area.root? with
    | none =>
      rw [nextFile_rootless hroot]
      exact h
    | some root =>
      have hnaming := nextFile_naming hroot extra
      generalize s.nextFile extra = left at hnaming ⊢
      cases hnaming with
      | refused _ | known _ => exact h
      | made _ =>
        intro made hmade
        rcases List.mem_append.1 hmade with hmade | hmade
        · exact h made hmade
        · rw [List.mem_singleton.1 hmade]
          exact List.mem_of_getElem? hroot

/-- Each step counts once if it asked for a name, and once if it was given one. -/
theorem counts_step (h : x.before.area.roots ≠ []) :
    x.after.area.asked = x.before.area.asked + x.isRequest.toNat ∧
      x.after.area.given = x.before.area.given + x.path?.isSome.toNat := by
  obtain ⟨s, op⟩ := x
  cases op with
  | cleanup | meddle _ => exact ⟨rfl, rfl⟩
  | name extra =>
    obtain ⟨root, hroot⟩ := root?_of_roots h
    have hnaming := nextFile_naming hroot extra
    unfold Step.path? Step.answer Step.after
    simp only [perform]
    generalize s.nextFile extra = left at hnaming ⊢
    cases hnaming <;> exact ⟨rfl, rfl⟩

/-! ### Directories that were made -/

/-- Every directory that the area has made stands. -/
def Standing (s : Site) : Prop :=
  ∀ made ∈ s.area.created, s.files.entry? made.destination = some .directory

/-- Nobody else removes a directory in this step. -/
def Step.Spares (x : Step) : Prop :=
  ∀ change, x.operation = .meddle change →
    ∀ l, x.before.files.entry? l = some .directory → x.after.files.entry? l = some .directory

/-- Asked for a name, the area still has its directories; and where it gives one, the directory
of the name stands. -/
theorem Naming.standing {extra : Option String} {root : Path} {left : Except Fault Path × Site}
    (h : Naming s extra root left) (hs : s.Standing) (hroot : root.octets ≠ []) :
    left.2.Standing ∧
      ∀ p, left.1 = .ok p → left.2.files.entry? root.destination = some .directory := by
  have hgrown := grown_makeAll s.files root
  cases h with
  | refused hmake =>
    rw [hmake] at hgrown
    exact ⟨fun made hmade => hgrown.directory (hs made hmade), fun p hp => nomatch hp⟩
  | known hknown =>
    refine ⟨hs, fun p _ => ?_⟩
    obtain ⟨made, hmade, hsame⟩ := List.any_eq_true.1 hknown
    exact Path.destination_of_same hsame ▸ hs made hmade
  | made hmake =>
    have hstands := entry?_makeAll hroot hmake
    rw [hmake] at hgrown
    refine ⟨fun made hmade => ?_, fun p _ => hstands⟩
    rcases List.mem_append.1 hmade with hmade | hmade
    · exact hgrown.directory (hs made hmade)
    · rw [List.mem_singleton.1 hmade]
      exact hstands

/-- Directories that were made stand as long as nobody else removes any: what a cleanup removes
is not reckoned to be made any more. -/
theorem standing_step (hroots : x.before.area.roots ≠ [])
    (hoctets : ∀ root ∈ x.before.area.roots, root.octets ≠ []) (hspares : x.Spares)
    (h : x.before.Standing) : x.after.Standing := by
  obtain ⟨s, op⟩ := x
  cases op with
  | cleanup => exact fun made hmade => nomatch hmade
  | meddle change => exact fun made hmade => hspares change rfl _ (h made hmade)
  | name extra =>
    obtain ⟨root, hroot⟩ := root?_of_roots hroots
    exact ((nextFile_naming hroot extra).standing h
      (hoctets root (List.mem_of_getElem? hroot))).1

/-! ### Whole histories -/

/-- What the steps keep that were taken before, holds before a step. -/
theorem before_induction {P : Site → Prop} (h : P s) (hx : (history ops s)[i]? = some x)
    (hstep : ∀ y ∈ (history ops s).take i, P y.before → P y.after) : P x.before := by
  induction ops generalizing s i with
  | nil => exact nomatch hx
  | cons op ops ih =>
    cases i with
    | zero =>
      obtain rfl := Option.some.inj hx
      exact h
    | succ i =>
      rw [history, List.take_succ_cons] at hstep
      exact ih (hstep ⟨s, op⟩ (List.mem_cons_self ..) h) hx
        fun y hy => hstep y (List.mem_cons_of_mem _ hy)

/-- What every step keeps holds before every step. -/
theorem before_of_step {P : Site → Prop} (h : P s) (hstep : ∀ y : Step, P y.before → P y.after) :
    ∀ x ∈ history ops s, P x.before := by
  intro x hx
  obtain ⟨i, hi⟩ := List.mem_iff_getElem?.1 hx
  exact before_induction h hi fun y _ => hstep y

theorem operation_mem (hx : x ∈ history ops s) : x.operation ∈ ops := by
  induction ops generalizing s with
  | nil => exact nomatch hx
  | cons op ops ih =>
    rcases List.mem_cons.1 hx with rfl | hx
    · exact List.mem_cons_self ..
    · exact List.mem_cons_of_mem _ (ih hx)

theorem alike_before (hx : x ∈ history ops s) : s.area.Alike x.before.area :=
  before_of_step (P := fun q => s.area.Alike q.area) (.refl _)
    (fun y hy => hy.trans (alike_perform y.before y.operation)) x hx

theorem created_before (h : ∀ made ∈ s.area.created, made ∈ s.area.roots)
    (hx : x ∈ history ops s) : ∀ made ∈ x.before.area.created, made ∈ x.before.area.roots :=
  before_of_step (P := fun q => ∀ made ∈ q.area.created, made ∈ q.area.roots) h
    (fun _ hy => created_step hy) x hx

/-- What is counted step by step adds up. -/
theorem count_before {count : Area → Nat} {counts : Step → Bool}
    (hstep : ∀ y ∈ history ops s, count y.after.area = count y.before.area + (counts y).toNat)
    (hx : (history ops s)[i]? = some x) :
    count x.before.area = count s.area + ((history ops s).take i).countP counts := by
  induction ops generalizing s i with
  | nil => exact nomatch hx
  | cons op ops ih =>
    cases i with
    | zero =>
      obtain rfl := Option.some.inj hx
      rfl
    | succ i =>
      obtain ⟨hfirst, hrest⟩ := List.forall_mem_cons.1 hstep
      have hone : (counts ⟨s, op⟩).toNat = if counts ⟨s, op⟩ then 1 else 0 := by
        cases counts ⟨s, op⟩ <;> rfl
      have hafter : count (s.perform op).2.area = count s.area + (counts ⟨s, op⟩).toNat := hfirst
      rw [ih hrest hx, hafter, hone, history, List.take_succ_cons, List.countP_cons]
      omega

/-- Before a step, as many names were asked for as steps asked for one, and as many were given as
steps gave one. -/
theorem counts_before (hroots : s.area.roots ≠ []) (hx : (history ops s)[i]? = some x) :
    x.before.area.asked = s.area.asked + ((history ops s).take i).countP Step.isRequest ∧
      x.before.area.given
        = s.area.given + ((history ops s).take i).countP (·.path?.isSome) := by
  have hstep : ∀ y ∈ history ops s, _ := fun y hy =>
    counts_step (x := y) ((alike_before hy).roots ▸ hroots)
  exact ⟨count_before (fun y hy => (hstep y hy).1) hx,
    count_before (fun y hy => (hstep y hy).2) hx⟩

/-- Before a step the directories stand that the area has made, if nobody else removed any. -/
theorem standing_before (hroots : s.area.roots ≠ [])
    (hoctets : ∀ root ∈ s.area.roots, root.octets ≠ []) (h : s.Standing)
    (hx : (history ops s)[i]? = some x) (hspares : ∀ y ∈ (history ops s).take i, y.Spares) :
    x.before.Standing := by
  refine before_induction h hx fun y hy hstanding => ?_
  have halike := (alike_before (List.mem_of_mem_take hy)).roots
  exact standing_step (halike ▸ hroots) (halike ▸ hoctets) (hspares y hy) hstanding

end Site
end Storage
end ExternalSort
