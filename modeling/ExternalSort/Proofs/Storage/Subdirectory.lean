/-
An operator keeps to its own directory.

The directory of an operator is made by its name below a spill directory.  What a
configuration is checked for makes that name a single step, and not one that leads up; so the
directory can only be right below the spill directory, or be the spill directory itself.  It
is the latter for one name, the single dot, and that name is not refused.  With any other name
all files of the area are below the operator's directories, and a cleanup takes nothing that
is not.
-/
import ExternalSort.Proofs.Config.Settings
import ExternalSort.Proofs.Storage.History

namespace ExternalSort

open Storage

namespace SpillConfig

variable {c : SpillConfig}

/-- The ways in which a configuration comes into use. -/
inductive Accepted (c : SpillConfig) : Prop where
  | checked (h : c.check = .ok ())
  | fromVariables {lookup : String → Option Bytes} (h : ofVariables lookup = .ok c)
  | loaded {content : Except Fault.IoFault Bytes} (h : load content = .ok c)
  | started {temporary : Path} {t t' : FileTree} {a : Area}
    (h : Area.start c temporary t = (.ok a, t'))

/-- **Every configuration in use was checked.** -/
theorem Accepted.check (h : c.Accepted) : c.check = .ok () := by
  cases h with
  | checked h => exact h
  | fromVariables h => exact check_of_ofVariables h
  | loaded h => exact check_of_load h
  | started h => exact (Area.new_start h).accepted

/-! ### The directory of the operator -/

/-- The name is one step; a dot does not lead anywhere, and any other name leads down. -/
theorem destination_below (h : c.check = .ok ()) (directory : Path) :
    (c.below directory).destination =
      if c.operatorId = "." then directory.destination
      else directory.destination ++ [Text.Utf8.encode c.operatorId] := by
  obtain ⟨hstep, hup⟩ := step_of_check h
  rw [below, Path.destination_join_step hstep]
  by_cases hdot : c.operatorId = "."
  · rw [if_pos hdot, hdot]
    exact Path.resolve_dot _
  · rw [if_neg hdot]
    exact Path.resolve_name (fun hsame => hdot (Text.Utf8.encode_injective hsame)) hup _

theorem destination_below_iff (h : c.check = .ok ()) (directory : Path) :
    (c.below directory).destination = directory.destination ++ [Text.Utf8.encode c.operatorId] ↔
      c.operatorId ≠ "." := by
  rw [destination_below h]
  split
  · rename_i hdot
    exact ⟨fun hsame => absurd hsame.symm (by simp), fun hne => absurd hdot hne⟩
  · rename_i hdot
    exact ⟨fun _ => hdot, fun _ => rfl⟩

end SpillConfig

namespace Storage.Site

open FileTree

variable {config : SpillConfig} {temporary : Path} {t t' : FileTree} {area : Area}
  {ops : List Operation} {x : Step}

/-- A location at or below a directory of the operator, of those that the spill directories have. -/
def Inside (config : SpillConfig) (temporary : Path) (l : Location) : Prop :=
  ∃ directory ∈ Area.grounds config temporary,
    directory.destination ++ [Text.Utf8.encode config.operatorId] <+: l

theorem inside_of_root (hname : config.operatorId ≠ ".")
    (hnew : Area.New config temporary area) {root : Path} (hroot : root ∈ area.roots) :
    ∀ l, root.destination <+: l → Inside config temporary l := by
  rw [hnew.roots] at hroot
  obtain ⟨directory, hdirectory, rfl⟩ := List.mem_map.1 hroot
  rw [(SpillConfig.destination_below_iff hnew.accepted directory).2 hname]
  exact fun l hl => ⟨directory, hdirectory, hl⟩

/-- An area without a private directory ends with a cleanup. -/
theorem leave_eq_cleanup {s : Site} (h : s.area.personal = none) :
    s.leave = s.cleanup.2.files := by
  have hpersonal : s.cleanup.2.area.personal = none := h
  unfold leave
  generalize s.cleanup = left at hpersonal ⊢
  obtain ⟨outcome, s'⟩ := left
  dsimp only at hpersonal ⊢
  rw [hpersonal]

/-- A cleanup at any point of a history takes nothing from outside the operator's directories. -/
theorem trimmed_of_history (hname : config.operatorId ≠ ".")
    (hnew : Area.New config temporary area) (hx : x ∈ history ops ⟨t', area⟩) :
    Trimmed (Inside config temporary) x.before.files x.before.cleanup.2.files := by
  have hcreated := created_before (s := ⟨t', area⟩)
    (fun made hmade => nomatch (show made ∈ [] from hnew.created ▸ hmade)) hx
  refine trimmed_cleanup x.before fun made hmade => inside_of_root hname hnew ?_
  exact (alike_before hx).roots ▸ hcreated made hmade

/-- **An operator keeps to its own directory, unless that is named by a dot.**  Take a
configuration in use.  Its operator's directory is right below the spill directory for every
spill directory, exactly if its name is not the single dot; and if it is, the operator's
directory is the spill directory.  With any other name, in any history of an area that was
started with the configuration, whatever others do to the files meanwhile: every file that is
named without a text is right below such a directory; a cleanup takes nothing that is neither
such a directory nor below one, nor does the end of an area with spill directories; and no
contents are changed. -/
theorem operator_keeps_to_directory {config : SpillConfig} (h : config.Accepted) :
    (∀ directory, (config.below directory).destination
        = directory.destination ++ [Text.Utf8.encode config.operatorId] ↔
      config.operatorId ≠ ".") ∧
    (config.operatorId = "." →
      ∀ directory, (config.below directory).destination = directory.destination) ∧
    (config.operatorId ≠ "." → ∀ temporary t area t',
      Area.start config temporary t = (.ok area, t') → ∀ ops, ∀ x ∈ history ops ⟨t', area⟩,
        (∀ p, x.operation = .name none → x.path? = some p →
          ∃ directory ∈ Area.grounds config temporary, ∃ n, p.destination
            = directory.destination ++ [Text.Utf8.encode config.operatorId, Area.fileName n none]) ∧
        (x.operation = .cleanup →
          Trimmed (Inside config temporary) x.before.files x.after.files) ∧
        (config.directories ≠ [] →
          Trimmed (Inside config temporary) x.before.files x.before.leave)) := by
  refine ⟨SpillConfig.destination_below_iff h.check, fun hdot directory => ?_, ?_⟩
  · rw [SpillConfig.destination_below h.check, if_pos hdot]
  intro hname temporary t area t' hstart ops x hx
  have hnew := Area.new_start hstart
  have htrimmed := trimmed_of_history hname hnew hx
  have halike := alike_before hx
  refine ⟨fun p hop hpath => ?_, fun hop => ?_, fun hdirectories => ?_⟩
  · obtain ⟨extra, root, hroot, hnamed, rfl⟩ :=
      path_of_step (halike.roots ▸ hnew.roots_ne_nil) hpath
    obtain rfl : none = extra := Operation.name.inj (hop.symm.trans hnamed)
    rw [halike.roots, hnew.roots] at hroot
    obtain ⟨directory, hdirectory, rfl⟩ := List.mem_map.1 hroot
    refine ⟨directory, hdirectory, x.before.area.given, ?_⟩
    rw [Area.destination_fileName Area.plain_none,
      (SpillConfig.destination_below_iff h.check directory).2 hname, List.append_assoc]
    rfl
  · obtain ⟨s, op⟩ := x
    obtain rfl : op = .cleanup := hop
    exact htrimmed
  · have hpersonal : x.before.area.personal = none := by
      rw [halike.personal, hnew.personal, if_neg (by rwa [List.isEmpty_iff])]
    rw [leave_eq_cleanup hpersonal]
    exact htrimmed

/-- A spill directory and an operator. -/
def single (operatorId : String) : SpillConfig := ⟨[.ofText "d"], operatorId, 16, .none⟩

/-- The spill directory with a file in it. -/
def keeping : FileTree :=
  ⟨[(["d", "keep"].map Text.Utf8.encode, .file 0), (["d"].map Text.Utf8.encode, .directory)], [], 1⟩

/-- Three dots are a name like any other: the file beside it outlives the cleanup. -/
theorem dots_keep : (single "...").Accepted ∧
    ((single "...").below (.ofText "d")).destination = ["d", "..."].map Text.Utf8.encode ∧
    ∃ area t', Area.start (single "...") ⟨[]⟩ keeping = (.ok area, t') ∧
      ∃ x, (history [.name none, .cleanup] ⟨t', area⟩)[1]? = some x ∧
        x.after.files.entry? (["d", "keep"].map Text.Utf8.encode) = some (.file 0) := by
  have haccepted : (single "...").Accepted := .checked rfl
  obtain ⟨hbelow, -, hinside⟩ := operator_keeps_to_directory haccepted
  obtain ⟨area, t', hstart, hbefore⟩ : ∃ area t',
      Area.start (single "...") ⟨[]⟩ keeping = (.ok area, t') ∧
      (perform ⟨t', area⟩ (.name none)).2.files.entry? (["d", "keep"].map Text.Utf8.encode)
        = some (.file 0) := ⟨_, _, rfl, by decide +kernel⟩
  refine ⟨haccepted, (hbelow (.ofText "d")).2 (by decide), area, t', hstart, _, rfl, ?_⟩
  obtain ⟨-, hcleanup, -⟩ := hinside (by decide) _ _ _ _ hstart [.name none, .cleanup] _
    (List.mem_cons_of_mem _ (List.mem_cons_self ..))
  refine ((hcleanup rfl).outside _ ?_).trans hbefore
  unfold Inside
  decide +kernel

/-- An operator named by a dot is accepted, and loses a file that is not its own. -/
theorem dot_loses : (single ".").check = .ok () ∧
    ∃ area t', Area.start (single ".") ⟨[]⟩ keeping = (.ok area, t') ∧
      ∃ x, (history [.name none, .cleanup] ⟨t', area⟩)[1]? = some x ∧
        x.before.files.entry? (["d", "keep"].map Text.Utf8.encode) = some (.file 0) ∧
        x.after.files.entry? (["d", "keep"].map Text.Utf8.encode) = none :=
  ⟨rfl, _, _, rfl, _, rfl, by decide +kernel⟩

end Storage.Site
end ExternalSort
