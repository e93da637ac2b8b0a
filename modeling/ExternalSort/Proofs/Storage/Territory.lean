/-
Where a spill area works.

A path is followed step by step through directories that must be there, but where it leads
does not depend on them: dots are dropped, two dots take back the step before, and whatever
else there is goes on below.  So the place that a path can lead to is known from its spelling,
and that a spill area names files at or below its operator's directories only is a fact about
paths.

What an area does to the tree then stays there.  `Confined` says so of two trees: outside, no
file goes, none is changed and none comes, though directories may be made; and no file is given
another name, which keeps an open sink from writing into the file of somebody else.  Of what
removes anything `Trimmed` says more, and of any tree.
-/
import ExternalSort.Proofs.Storage.Tenancy

namespace ExternalSort.Storage

open Fault

/-! ### Where a path leads -/

namespace Path

/-- One step, without looking whether anything is there. -/
def resolve (l : Location) (name : Bytes) : Location :=
  if name = dot then l else if name = dotDot then l.dropLast else l ++ [name]

/-- Where the path leads, if it leads anywhere. -/
def destination (p : Path) : Location := p.names.foldl resolve []

@[simp] theorem resolve_dot (l : Location) : resolve l dot = l := if_pos rfl

@[simp] theorem resolve_dotDot (l : Location) : resolve l dotDot = l.dropLast := by
  rw [resolve, if_neg (by decide), if_pos rfl]

theorem resolve_name {name : Bytes} (hdot : name ≠ dot) (hup : name ≠ dotDot) (l : Location) :
    resolve l name = l ++ [name] := by
  rw [resolve, if_neg hdot, if_neg hup]

/-- Steps that do not lead up lead below. -/
theorem prefix_foldl_resolve {names : List Bytes} (h : dotDot ∉ names) (l : Location) :
    l <+: names.foldl resolve l := by
  induction names generalizing l with
  | nil => exact List.prefix_refl l
  | cons name names ih =>
    rw [List.mem_cons, not_or] at h
    refine List.IsPrefix.trans ?_ (ih h.2 _)
    by_cases hdot : name = dot
    · exact ⟨[], by rw [List.append_nil, hdot, resolve_dot]⟩
    · rw [resolve_name hdot (Ne.symm h.1)]
      exact List.prefix_append l [name]

theorem names_separator (a b : Bytes) :
    names ⟨a ++ separator :: b⟩ = names ⟨a⟩ ++ names ⟨b⟩ := by
  rw [names, pieces_append, List.filter_append]
  rfl

/-- The steps of a name below a path come after those of the path. -/
theorem names_join {name : Bytes} (h : name.head? ≠ some separator) (p : Path) :
    (p.join name).names = p.names ++ names ⟨name⟩ := by
  unfold join
  by_cases hempty : p.octets = []
  · have hnone : p.names = [] := by
      rw [names, hempty]
      rfl
    rw [if_pos (.inr hempty), hnone, List.nil_append]
  · rw [if_neg (not_or.2 ⟨h, hempty⟩)]
    split
    · rename_i hopen
      obtain ⟨a, ha⟩ := List.getLast?_eq_some_iff.1 hopen
      have hp : p.names = names ⟨a⟩ := by
        show names ⟨p.octets⟩ = _
        rw [ha, names_separator a []]
        exact List.append_nil _
      rw [ha, List.append_assoc, hp]
      exact names_separator a name
    · exact names_separator p.octets name

/-- A name below a path whose steps do not lead up leads below where the path leads. -/
theorem destination_join {name : Bytes} (hhead : name.head? ≠ some separator)
    (hup : dotDot ∉ pieces name) (p : Path) : p.destination <+: (p.join name).destination := by
  rw [destination, destination, names_join hhead, List.foldl_append]
  refine prefix_foldl_resolve (fun hmem => hup ?_) _
  exact (List.mem_filter.1 hmem).1

end Path

/-- The location of the place that a path leads to. -/
def Place.location : Place → Location
  | .directory l => l
  | .named parent name _ => parent ++ [name]

namespace FileTree

variable {t t' t'' : FileTree} {p : Path} {l m : Location} {n k : Nat}

theorem step_resolve {name : Bytes} (h : t.step l name = .ok m) : m = Path.resolve l name := by
  unfold step at h
  by_cases hdot : name = Path.dot
  · rw [if_pos hdot] at h
    rw [hdot, Path.resolve_dot]
    exact (Except.ok.inj h).symm
  by_cases hup : name = Path.dotDot
  · rw [if_neg hdot, if_pos hup] at h
    rw [hup, Path.resolve_dotDot]
    exact (Except.ok.inj h).symm
  rw [if_neg hdot, if_neg hup] at h
  rw [Path.resolve_name hdot hup]
  split at h
  · exact nomatch h
  split at h
  · exact (Except.ok.inj h).symm
  · exact nomatch h
  · exact nomatch h

theorem foldlM_resolve {names : List Bytes} (h : names.foldlM t.step l = .ok m) :
    m = names.foldl Path.resolve l := by
  induction names generalizing l with
  | nil => exact (Except.ok.inj h).symm
  | cons name names ih =>
    rw [List.foldlM_cons] at h
    obtain ⟨l', hstep, hrest⟩ := Sequence.bind_eq_ok.1 h
    rw [List.foldl_cons, ← step_resolve hstep]
    exact ih hrest

/-- **Where a path leads is known from its spelling.** -/
theorem location_of_follow {place : Place} (h : t.follow p = .ok place) :
    place.location = p.destination := by
  rcases follow_eq_ok h with ⟨hnames, rfl⟩ | ⟨before, last, l, hnames, hwalk, hlast⟩
  · rw [Path.destination, hnames]
    rfl
  have hdestination : p.destination = Path.resolve l last := by
    rw [Path.destination, hnames, List.foldl_append, ← foldlM_resolve hwalk]
    rfl
  rw [hdestination]
  rcases hlast with ⟨rfl, rfl⟩ | ⟨rfl, rfl⟩ | ⟨hdot, hup, rfl⟩
  · exact (Path.resolve_dot l).symm
  · exact (Path.resolve_dotDot l).symm
  · exact (Path.resolve_name hdot hup l).symm

example : Path.destination (.ofText "d/./x/../b/") = ["d", "b"].map Text.Utf8.encode := by decide

theorem location_of_find (h : t.find p = .ok (l, .file n)) : l = p.destination := by
  obtain ⟨parent, name, hfollow, rfl, -⟩ := find_eq_file_iff.1 h
  exact location_of_follow hfollow

/-! ### Changes within a part of the tree -/

variable {own : Location → Prop}

/-- Outside a part of the tree directories may have been made, and nothing else was done; and no
file has got another name. -/
structure Confined (own : Location → Prop) (t t' : FileTree) : Prop where
  entries : ∀ m, ¬own m →
    t'.entry? m = t.entry? m ∨ t.entry? m = none ∧ t'.entry? m = some .directory
  contents : ∀ m k, ¬own m → t.entry? m = some (.file k) → t'.contentsOf k = t.contentsOf k
  settled : ∀ m k, k < t.fresh → t'.entry? m = some (.file k) → t.entry? m = some (.file k)
  fresh : t.fresh ≤ t'.fresh
  sound : t'.Sound

namespace Confined

theorem refl (ht : t.Sound) : Confined own t t :=
  ⟨fun _ _ => .inl rfl, fun _ _ _ _ => rfl, fun _ _ _ h => h, Nat.le_refl _, ht⟩

theorem file (h : Confined own t t') (hm : ¬own m) (hentry : t.entry? m = some (.file k)) :
    t'.entry? m = some (.file k) := by
  rcases h.entries m hm with hsame | ⟨hnone, -⟩
  · exact hsame.trans hentry
  · rw [hnone] at hentry
    exact nomatch hentry

theorem trans (h : Confined own t t') (h' : Confined own t' t'') : Confined own t t'' where
  entries m hm := by
    rcases h.entries m hm with hsame | ⟨hnone, hmade⟩
    · rw [← hsame]
      exact h'.entries m hm
    · rcases h'.entries m hm with hsame' | ⟨hnone', -⟩
      · exact .inr ⟨hnone, hsame'.trans hmade⟩
      · rw [hmade] at hnone'
        exact nomatch hnone'
  contents m k hm hentry :=
    (h'.contents m k hm (h.file hm hentry)).trans (h.contents m k hm hentry)
  settled m k hk hentry :=
    h.settled m k hk (h'.settled m k (Nat.lt_of_lt_of_le hk h.fresh) hentry)
  fresh := Nat.le_trans h.fresh h'.fresh
  sound := h'.sound

end Confined

theorem Grown.confined (h : Grown t t') (ht : t.Sound) : Confined own t t' where
  entries m _ := h.entries m
  contents m k _ _ := by rw [contentsOf, contentsOf, h.contents]
  settled m k _ hentry := h.file hentry
  fresh := Nat.le_of_eq h.fresh.symm
  sound := h.sound ht

/-- Where a file was made anew within the part. -/
theorem Made.confined (h : Made p l n t t') (ht : t.Sound) (hl : own l) : Confined own t t' where
  entries m hm := .inl (h.elsewhere m fun hml => hm (hml ▸ hl))
  contents m k hm hentry :=
    (h.keeps ht hentry fun hml => hm (hml ▸ hl)).contents
  settled m k hk hentry := by
    by_cases hml : m = l
    · rw [hml] at hentry ⊢
      have hn := entry?_of_find h.find
      rw [hn] at hentry
      obtain rfl := Entry.file.inj (Option.some.inj hentry)
      rcases h.before with ⟨hfile, -⟩ | ⟨-, rfl, -⟩
      · exact hfile
      · exact absurd hk (Nat.lt_irrefl _)
    · rwa [h.elsewhere m hml] at hentry
  fresh := h.fresh_le
  sound := h.sound ht

/-- A file with a number has its place within a part of the tree, and so will it always. -/
structure Houses (own : Location → Prop) (t : FileTree) (n : Nat) : Prop where
  old : n < t.fresh
  place : ∀ m, t.entry? m = some (.file n) → own m

theorem Houses.confined {own' : Location → Prop} (h : Houses own t n) (hstep : Confined own' t t') :
    Houses own t' n where
  old := Nat.lt_of_lt_of_le h.old hstep.fresh
  place m hentry := h.place m (hstep.settled m n h.old hentry)

theorem Made.houses (h : Made p l n t t') (ht : t.Sound) (hl : own l) : Houses own t' n where
  old := (h.sound ht).below (entry?_of_find h.find)
  place m hentry := by
    rw [(h.sound ht).single hentry (entry?_of_find h.find)]
    exact hl

/-- Where the contents of a file were changed that has its place within the part. -/
theorem Rewritten.confined (h : Rewritten n t t') (ht : t.Sound) (hn : Houses own t n) :
    Confined own t t' := by
  have hentries : ∀ m, t'.entry? m = t.entry? m := fun m => by rw [ entry?, entry?, h.entries]
  constructor
  case entries => exact fun m _ => .inl (hentries m)
  case contents =>
    intro m k hm hentry
    refine h.contents k ?_
    rintro rfl
    exact hm (hn.place m hentry)
  case settled => exact fun m k _ hentry => hentries m ▸ hentry
  case fresh => exact Nat.le_of_eq h.fresh.symm
  case sound =>
    constructor
    case below => exact fun hentry => h.fresh ▸ ht.below (hentries _ ▸ hentry)
    case single => exact fun hentry hentry' => ht.single (hentries _ ▸ hentry) (hentries _ ▸ hentry')

/-! ### Entries that go -/

/-- Entries within a part of the tree may have gone, and nothing else was done. -/
structure Trimmed (own : Location → Prop) (t t' : FileTree) : Prop where
  outside : ∀ m, ¬own m → t'.entry? m = t.entry? m
  within : ∀ m, t'.entry? m = t.entry? m ∨ t'.entry? m = none
  contents : t'.contents = t.contents
  fresh : t'.fresh = t.fresh

namespace Trimmed

theorem refl (t : FileTree) : Trimmed own t t := ⟨fun _ _ => rfl, fun _ => .inl rfl, rfl, rfl⟩

theorem trans (h : Trimmed own t t') (h' : Trimmed own t' t'') : Trimmed own t t'' where
  outside m hm := (h'.outside m hm).trans (h.outside m hm)
  within m := by
    rcases h'.within m with hsame | hnone
    · rw [hsame]
      exact h.within m
    · exact .inr hnone
  contents := h'.contents.trans h.contents
  fresh := h'.fresh.trans h.fresh

theorem entry (h : Trimmed own t t') {e : Entry} (hentry : t'.entry? m = some e) :
    t.entry? m = some e := by
  rcases h.within m with hsame | hnone
  · rwa [hsame] at hentry
  · rw [hnone] at hentry
    exact nomatch hentry

theorem confined (h : Trimmed own t t') (ht : t.Sound) : Confined own t t' where
  entries m hm := .inl (h.outside m hm)
  contents m k _ _ := by rw [contentsOf, contentsOf, h.contents]
  settled m k _ hentry := h.entry hentry
  fresh := Nat.le_of_eq h.fresh.symm
  sound := ⟨fun hentry => h.fresh ▸ ht.below (h.entry hentry),
    fun hentry hentry' => ht.single (h.entry hentry) (h.entry hentry')⟩

end Trimmed

/-- Of the entries that are not kept nothing is left. -/
theorem entry?_filter (t : FileTree) (keep : Location → Bool) (hm : m ≠ []) :
    FileTree.entry? { t with entries := t.entries.filter (keep ·.1) } m
      = if keep m then t.entry? m else none := by
  rw [ entry?, if_neg hm, lookup_filter keep, entry?, if_neg hm]

/-- Where the entries within the part went that are not kept. -/
theorem trimmed_filter (t : FileTree) (keep : Location → Bool)
    (hkeep : ∀ m, ¬own m → keep m = true) :
    Trimmed own t { t with entries := t.entries.filter (keep ·.1) } := by
  refine ⟨fun m hm => ?_, fun m => ?_, rfl, rfl⟩ <;> by_cases htop : m = []
  · rw [htop, entry?, entry?, if_pos rfl, if_pos rfl]
  · rw [entry?_filter t keep htop, if_pos (hkeep m hm)]
  · rw [htop, entry?, entry?, if_pos rfl, if_pos rfl]
    exact .inl rfl
  · rw [entry?_filter t keep htop]
    split
    · exact .inl rfl
    · exact .inr rfl

theorem trimmed_erase (t : FileTree) (hl : own l) : Trimmed own t (t.erase l) := by
  refine trimmed_filter t (fun m => decide (m ≠ l)) fun m hm => decide_eq_true ?_
  rintro rfl
  exact hm hl

/-- What is below goes, and the directory itself stays. -/
theorem trimmed_clear (t : FileTree) (hl : ∀ m, l <+: m → m ≠ l → own m) :
    Trimmed own t (t.clear l) := by
  refine trimmed_filter t (fun m => !(l.isPrefixOf m && m ≠ l)) fun m hm => ?_
  rw [Bool.not_eq_true', Bool.eq_false_iff, ne_eq, Bool.and_eq_true, decide_eq_true_iff]
  exact fun ⟨hbelow, hne⟩ => hm (hl m (List.isPrefixOf_iff_prefix.1 hbelow) hne)

/-- A file is removed where its path leads, or nothing is done. -/
theorem trimmed_remove (t : FileTree) (hp : own p.destination) : Trimmed own t (t.remove p).2 := by
  unfold remove
  split
  · exact .refl t
  · exact .refl t
  · rename_i parent name trailing hfollow
    have hl : parent ++ [name] = p.destination := location_of_follow hfollow
    split
    · exact .refl t
    · exact .refl t
    · split
      · exact .refl t
      · exact trimmed_erase t (hl.symm ▸ hp)

/-- A directory is removed where its path leads, with what is below. -/
theorem trimmed_removeAll (t : FileTree) (hp : ∀ m, p.destination <+: m → own m) :
    Trimmed own t (t.removeAll p).2 := by
  unfold removeAll
  split
  · exact .refl t
  · rename_i l hfollow
    have hl : l = p.destination := location_of_follow hfollow
    exact trimmed_clear t fun m hm _ => hp m (hl ▸ hm)
  · rename_i parent name trailing hfollow
    have hl : parent ++ [name] = p.destination := location_of_follow hfollow
    dsimp only
    split
    · exact .refl t
    · exact .refl t
    · rw [hl]
      exact (trimmed_clear t fun m hm _ => hp m hm).trans (trimmed_erase _ (hp _ (List.prefix_refl _)))

end FileTree

/-! ### The part of a spill area -/

namespace Area

/-- A location at or below where a directory of the operator leads. -/
def Owns (a : Area) (l : Location) : Prop := ∃ root ∈ a.roots, root.destination <+: l

/-- No directory of the one operator is at or below one of the other. -/
def Apart (a b : Area) : Prop :=
  ∀ p ∈ a.roots, ∀ q ∈ b.roots, ¬p.destination <+: q.destination ∧ ¬q.destination <+: p.destination

instance (a b : Area) : Decidable (a.Apart b) := by
  unfold Apart
  infer_instance

/-- Areas that are apart have no location in common. -/
theorem Apart.disjoint {a b : Area} (h : a.Apart b) {l : Location} (ha : a.Owns l) : ¬b.Owns l := by
  rintro ⟨q, hq, hql⟩
  obtain ⟨p, hp, hpl⟩ := ha
  rcases List.prefix_or_prefix_of_prefix hpl hql with hpq | hqp
  · exact (h p hp q hq).1 hpq
  · exact (h p hp q hq).2 hqp

/-- A file of the area is named below a directory of the operator. -/
theorem owns_fileName {a : Area} {root : Path} (hroot : root ∈ a.roots) {extra : Option String}
    (hextra : Forward extra) (n : Nat) : a.Owns (root.join (fileName n extra)).destination := by
  refine ⟨root, hroot, Path.destination_join ?_ (dotDot_notMem_fileName hextra n) root⟩
  obtain ⟨rest, hhead⟩ := head_fileName n extra
  rw [hhead]
  exact fun hslash => absurd (Option.some.inj hslash) (by decide)

end Area

namespace Site

open FileTree

variable {s s' : Site}

/-- The area of the first site worked within its part of the tree, and has made no directories but
its operator's. -/
structure Within (s s' : Site) : Prop where
  files : Confined s.area.Owns s.files s'.files
  roots : s'.area.roots = s.area.roots
  created : ∀ root ∈ s'.area.created, root ∈ s.area.created ∨ root ∈ s.area.roots

theorem Within.owns (h : Within s s') : s'.area.Owns = s.area.Owns := by
  funext l
  rw [Area.Owns, Area.Owns, h.roots]

/-- Where nothing but the tree was changed. -/
theorem Within.of_files {files : FileTree} (h : Confined s.area.Owns s.files files) :
    Within s { s with files } :=
  ⟨h, rfl, fun _ hroot => .inl hroot⟩

theorem Within.refl (hs : s.files.Sound) : Within s s := .of_files (.refl hs)

/-- Where the tree was changed once more. -/
theorem Within.further (h : Within s s') {files : FileTree}
    (hstep : Confined s.area.Owns s'.files files) : Within s { s' with files } :=
  ⟨h.files.trans hstep, h.roots, h.created⟩

/-- Naming a file makes at most directories, and names it below one of the operator. -/
theorem nextFile_within (hs : s.files.Sound) {extra : Option String} (hextra : Area.Forward extra) :
    Within s (s.nextFile extra).2 ∧
      ∀ p, (s.nextFile extra).1 = .ok p → s.area.Owns p.destination := by
  cases hroot : s.area.root? with
  | none =>
    rw [nextFile_rootless hroot]
    exact ⟨.refl hs, fun p h => (nomatch h)⟩
  | some root =>
    have hmem : root ∈ s.area.roots := List.mem_of_getElem? hroot
    have hgrown : Confined s.area.Owns s.files _ := (grown_makeAll s.files root).confined hs
    have howns : ∀ p, (.ok (root.join (Area.fileName s.area.given extra)) : Except Fault Path) = .ok p →
        s.area.Owns p.destination := by
      intro p h
      rw [← Except.ok.inj h]
      exact Area.owns_fileName hmem hextra _
    have hnaming := nextFile_naming hroot extra
    generalize s.nextFile extra = left at hnaming ⊢
    cases hnaming with
    | refused hmake =>
      rw [hmake] at hgrown
      exact ⟨⟨hgrown, rfl, fun _ hmade => .inl hmade⟩, fun p h => (nomatch h)⟩
    | known _ => exact ⟨⟨.refl hs, rfl, fun _ hmade => .inl hmade⟩, howns⟩
    | made hmake =>
      rw [hmake] at hgrown
      refine ⟨⟨hgrown, rfl, fun made hmade => ?_⟩, howns⟩
      rcases List.mem_append.1 hmade with hmade | hmade
      · exact .inl hmade
      · exact .inr (List.mem_singleton.1 hmade ▸ hmem)

theorem trimmed_removeRoot {own : Location → Prop} (t : FileTree) {root : Path}
    (hroot : ∀ m, root.destination <+: m → own m) : Trimmed own t (removeRoot t root).2 := by
  have hall := trimmed_removeAll t hroot
  unfold removeRoot
  generalize t.removeAll root = left at hall ⊢
  obtain ⟨outcome, files⟩ := left
  cases outcome <;> exact hall

/-- Directories are removed one after the other, whatever is recorded of it. -/
theorem trimmed_foldl {own : Location → Prop} {β : Type} {step : β × FileTree → Path → β × FileTree}
    (hstep : ∀ first t root, (step (first, t) root).2 = (removeRoot t root).2) {roots : List Path}
    (hroots : ∀ root ∈ roots, ∀ m, root.destination <+: m → own m) (first : β) (t : FileTree) :
    Trimmed own t (roots.foldl step (first, t)).2 := by
  induction roots generalizing first t with
  | nil => exact .refl t
  | cons root roots ih =>
    obtain ⟨hroot, hrest⟩ := List.forall_mem_cons.1 hroots
    have hremoved : Trimmed own t (step (first, t) root).2 :=
      hstep first t root ▸ trimmed_removeRoot t hroot
    exact hremoved.trans (ih hrest (step (first, t) root).1 _)

/-- A cleanup removes what is at or below the directories that were made. -/
theorem trimmed_cleanup {own : Location → Prop} (s : Site)
    (hcreated : ∀ root ∈ s.area.created, ∀ m, root.destination <+: m → own m) :
    Trimmed own s.files s.cleanup.2.files := by
  show Trimmed own _ (s.area.created.foldl _ (First.empty, s.files)).2
  exact trimmed_foldl (fun _ _ _ => rfl) hcreated First.empty s.files

/-- A cleanup removes directories of the operator. -/
theorem cleanup_within (hs : s.files.Sound) (hcreated : ∀ root ∈ s.area.created, root ∈ s.area.roots) :
    Within s s.cleanup.2 := by
  have htrimmed := @trimmed_cleanup s.area.Owns s
    fun root hroot m hm => ⟨root, hcreated root hroot, hm⟩
  exact ⟨htrimmed.confined hs, rfl, fun _ h => (nomatch h)⟩

end Site
end ExternalSort.Storage
