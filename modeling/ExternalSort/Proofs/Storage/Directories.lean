/-
Directories that stand.

A directory that was made stands where its path leads, and it does so under every spelling of
that path.  That it was made is told by the outcome alone: whoever is told that a directory
with those above it was made, or found it there, can rely on it.  The way up to it stands as
well, because a path is followed through directories only.
-/
import ExternalSort.Proofs.Storage.Territory

namespace ExternalSort.Storage

open Fault

/-! ### Spellings of a path -/

namespace Path

theorem foldl_resolve_filter (names : List Bytes) (l : Location) :
    (names.filter (· ≠ dot)).foldl resolve l = names.foldl resolve l := by
  induction names generalizing l with
  | nil => rfl
  | cons name names ih =>
    by_cases hdot : name = dot
    · rw [List.filter_cons_of_neg (by simpa using hdot), List.foldl_cons, hdot, resolve_dot]
      exact ih l
    · rw [List.filter_cons_of_pos (by simpa using hdot), List.foldl_cons, List.foldl_cons]
      exact ih _

/-- Only the steps that count lead anywhere. -/
theorem destination_eq_steps (p : Path) : p.destination = p.steps.foldl resolve [] := by
  unfold destination steps
  dsimp only
  split
  · exact (foldl_resolve_filter p.names []).symm
  · split
    · rename_i first rest hnames
      rw [hnames, List.foldl_cons, List.foldl_cons]
      exact (foldl_resolve_filter rest _).symm
    · rename_i hnames
      rw [hnames]

/-- Paths of the same steps lead to one place. -/
theorem destination_of_same {p q : Path} (h : p.same q = true) : p.destination = q.destination := by
  have hsteps : p.steps = q.steps := eq_of_beq (Bool.and_eq_true_iff.1 h).2
  rw [destination_eq_steps, destination_eq_steps, hsteps]

/-- A single step. -/
structure IsStep (name : Bytes) : Prop where
  separator : separator ∉ name
  nonempty : name ≠ []

theorem IsStep.names {name : Bytes} (h : IsStep name) : names ⟨name⟩ = [name] := by
  rw [Path.names, pieces_of_not_mem h.separator]
  exact List.filter_cons_of_pos (by simpa using h.nonempty)

/-- A single step below a path is taken from where the path leads. -/
theorem destination_join_step {name : Bytes} (h : IsStep name) (p : Path) :
    (p.join name).destination = resolve p.destination name := by
  have hhead : name.head? ≠ some Path.separator :=
    fun hhead => h.separator (List.mem_of_head? hhead)
  rw [destination, names_join hhead, h.names, List.foldl_append]
  rfl

theorem join_ne_nil {name : Bytes} (h : name ≠ []) (p : Path) : (p.join name).octets ≠ [] := by
  unfold join
  split
  · exact h
  · split
    · exact fun hnil => h (List.append_eq_nil_iff.1 hnil).2
    · exact fun hnil => List.cons_ne_nil _ _ (List.append_eq_nil_iff.1 hnil).2

end Path

/-- The name of a file is a single step that leads down. -/
theorem Area.destination_fileName {extra : Option String} (h : Plain extra) (root : Path) (n : Nat) :
    (root.join (fileName n extra)).destination = root.destination ++ [fileName n extra] := by
  obtain ⟨rest, hname⟩ := head_fileName n extra
  have hstep : Path.IsStep (fileName n extra) :=
    ⟨h.separator_notMem n, by rw [hname]; exact List.cons_ne_nil _ _⟩
  rw [Path.destination_join_step hstep, Path.resolve_name] <;>
    · rw [hname]
      exact fun hsame => absurd (List.head_eq_of_cons_eq hsame) (by decide)

namespace FileTree

variable {t : FileTree} {p : Path} {l m : Location}

/-! ### The way to a directory -/

/-- A location with all that is above it. -/
def Stands (t : FileTree) (l : Location) : Prop := ∀ m, m <+: l → t.entry? m = some .directory

theorem stands_nil (t : FileTree) : t.Stands [] := by
  intro m hm
  rw [List.prefix_nil.1 hm, entry?, if_pos rfl]

theorem Stands.entry (h : t.Stands l) : t.entry? l = some .directory := h l (List.prefix_refl l)

theorem Stands.above (h : t.Stands l) (hm : m <+: l) : t.Stands m :=
  fun _ hk => h _ (hk.trans hm)

theorem stands_step {name : Bytes} (h : t.Stands l) (hstep : t.step l name = .ok m) : t.Stands m := by
  have hplace := step_resolve hstep
  unfold step at hstep
  split at hstep
  · obtain rfl := Except.ok.inj hstep
    exact h
  split at hstep
  · obtain rfl := Except.ok.inj hstep
    exact h.above (List.dropLast_prefix l)
  split at hstep
  · exact nomatch hstep
  split at hstep
  · rename_i hentry
    obtain rfl := Except.ok.inj hstep
    intro k hk
    rcases List.prefix_concat_iff.1 hk with rfl | hk
    · exact hentry
    · exact h k hk
  · exact nomatch hstep
  · exact nomatch hstep

/-- Steps are taken through directories. -/
theorem stands_foldlM {names : List Bytes} (h : t.Stands l) (hwalk : names.foldlM t.step l = .ok m) :
    t.Stands m := by
  induction names generalizing l with
  | nil => exact Except.ok.inj hwalk ▸ h
  | cons name names ih =>
    rw [List.foldlM_cons] at hwalk
    obtain ⟨l', hstep, hrest⟩ := Sequence.bind_eq_ok.1 hwalk
    exact ih (stands_step h hstep) hrest

theorem entry?_of_follow (h : t.follow p = .ok (.directory l)) : t.entry? l = some .directory := by
  rcases follow_eq_ok h with ⟨-, hplace⟩ | ⟨before, last, above, -, hwalk, hlast⟩
  · obtain rfl := Place.directory.inj hplace
    exact (stands_nil t).entry
  have habove := stands_foldlM (stands_nil t) hwalk
  rcases hlast with ⟨-, hplace⟩ | ⟨-, hplace⟩ | ⟨-, -, hplace⟩
  · obtain rfl := Place.directory.inj hplace
    exact habove.entry
  · obtain rfl := Place.directory.inj hplace
    exact (habove.above (List.dropLast_prefix above)).entry
  · exact nomatch hplace

theorem entry?_of_isDirectory (h : t.isDirectory p = true) :
    t.entry? p.destination = some .directory := by
  unfold isDirectory find at h
  cases hfollow : t.follow p with
  | error f =>
    rw [hfollow] at h
    exact nomatch h
  | ok place =>
    have hlocation := location_of_follow hfollow
    rw [hfollow] at h
    cases place with
    | directory l => exact hlocation ▸ entry?_of_follow hfollow
    | named parent name trailing =>
      rw [← hlocation]
      dsimp only at h
      split at h
      · exact nomatch h
      · assumption
      · split at h <;> exact nomatch h

/-! ### Directories that are made -/

theorem entry?_makeDirectory (h : (t.makeDirectory p).1 = .ok ()) :
    FileTree.entry? (t.makeDirectory p).2 p.destination = some .directory := by
  unfold makeDirectory at h ⊢
  split at h
  · exact nomatch h
  · exact nomatch h
  · rename_i parent name trailing hfollow
    have hlocation : parent ++ [name] = p.destination := location_of_follow hfollow
    split at h
    · exact nomatch h
    · rename_i hnone
      rw [← hlocation]
      exact entry?_insert t _ (by simp)

/-- What was made of a directory in the end, when it was made or found in its place. -/
theorem entry?_settle (outcome : Except IoFault Unit)
    (hmade : outcome = .ok () → t.entry? p.destination = some .directory) {u : FileTree}
    (h : (match (outcome, t) with
      | (.error f, t) => if t.isDirectory p then (.ok (), t) else (.error f, t)
      | r => r : Except IoFault Unit × FileTree) = (.ok (), u)) :
    FileTree.entry? u p.destination = some .directory := by
  cases outcome with
  | ok _ =>
    obtain rfl := (Prod.mk.inj h).2
    exact hmade rfl
  | error f =>
    dsimp only at h
    split at h
    · rename_i hfound
      obtain rfl := (Prod.mk.inj h).2
      exact entry?_of_isDirectory hfound
    · exact nomatch (Prod.mk.inj h).1

/-- **A directory that is made with those above it stands.** -/
theorem entry?_makeAll (hp : p.octets ≠ []) {u : FileTree} (h : t.makeAll p = (.ok (), u)) :
    FileTree.entry? u p.destination = some .directory := by
  have hmade : (t.makeDirectory p).1 = .ok () → _ := entry?_makeDirectory
  unfold makeAll makeAllFrom at h
  rw [if_neg hp] at h
  generalize t.makeDirectory p = first at h hmade
  obtain ⟨outcome, v⟩ := first
  cases outcome with
  | ok _ =>
    obtain rfl := (Prod.mk.inj h).2
    exact hmade rfl
  | error f =>
    dsimp only at h
    split at h
    · cases hparent : p.parent? with
      | none =>
        rw [hparent] at h
        cases (Prod.mk.inj h).1
      | some parent =>
        rw [hparent] at h
        dsimp only at h
        generalize v.makeAllFrom parent _ = above at h
        obtain ⟨outcome, w⟩ := above
        cases outcome with
        | error f => cases (Prod.mk.inj h).1
        | ok _ => exact entry?_settle _ entry?_makeDirectory h
    · exact entry?_settle (.error f) (fun hok => by cases hok) h

end FileTree
end ExternalSort.Storage
