/-
Runs in company.

Runs that share a spill area have each a file of its own, under a name that no other run was
given.  A move of a company makes a run or asks one something, and all that it does to the
tree of files concerns the file of that run: the files of the others are spared.  This is so
whatever the channel in front of the area makes fail.

What a move can be is said once, in `Move`; what holds of each life in a company, however the
requests to the others fall between its own, is then proved by going through the moves.
-/
import ExternalSort.Proofs.Run.Life
import ExternalSort.Proofs.Storage.Backed

namespace ExternalSort.Run

open Storage

variable {ω μ : Type} {c : Channel ω FileSink FileSource} {site : ω → Site} {p : Path}
  {loc : Location} {n : Nat} {r : Run FileSink FileSource} {s s' s'' : ω}

/-! ### What a run does to its area -/

/-- Nothing of a site was touched since, but the file with a number at a location. -/
structure Within (loc : Location) (n : Nat) (before after : Site) : Prop where
  files : FileTree.Beside loc n before.files after.files
  config : after.area.config = before.area.config
  given : after.area.given = before.area.given

/-- So it is, and the file is in its place. -/
structure Residing (p : Path) (loc : Location) (n : Nat) (before after : Site) : Prop
    extends Within loc n before after where
  find : after.files.find p = .ok (loc, .file n)

theorem Residing.rewritten {before after later : Site} (h : Residing p loc n before after)
    (hlater : Site.Rewritten n after later) : Residing p loc n before later where
  files := h.files.trans hlater.files.beside
  config := hlater.config.trans h.config
  given := hlater.given.trans h.given
  find := (hlater.files.find p).trans h.find

/-- Nothing that is asked of a run leads out of its own file. -/
def occupancy (hB : Backed c site) (before : Site) (p : Path) (loc : Location) (n : Nat) :
    Upkeep c p where
  writing x := x.1.file = n ∧ Residing p loc n before (site x.2)
  idle s := Residing p loc n before (site s)
  reading x := x.1.file = some n ∧ Residing p loc n before (site x.2)
  ending s := Residing p loc n before (site s)
  closed s := Within loc n before (site s)
  write {x} h bs _ := by
    obtain ⟨hsite, hfile⟩ := hB.written_file bs x.1 x.2
    rw [h.1] at hsite
    exact ⟨hfile.trans h.1, h.2.rewritten hsite⟩
  closeSink {x} h := by
    have hsite := hB.retireSink_site x.1 x.2
    rw [h.1] at hsite
    exact h.2.rewritten hsite
  refused {s f s'} h hopen := by
    have hsite := hB.openInput_site p s
    rw [hopen] at hsite
    exact h.rewritten (.of_eq hsite)
  opened {s q s'} h hopen := by
    have hsite := hB.openInput_site p s
    have hrelayed := hB.openInput p s
    rw [hopen] at hsite hrelayed
    refine ⟨?_, h.rewritten (.of_eq hsite)⟩
    have hsource : (Site.openInput p (site s)).1 = .ok q := congrArg (·.1) hrelayed.of_ok
    rw [Site.openInput, h.find] at hsource
    rw [← Except.ok.inj hsource]
    rfl
  read {x} h n _ := by
    obtain ⟨hsite, hfile⟩ := hB.read_site n x.1 x.2
    exact ⟨hfile.trans h.1, h.2.rewritten (.of_eq hsite)⟩
  closeSource {x} h := by
    have hsite := hB.retireSource_site x.1 x.2
    refine h.2.rewritten ⟨?_, ?_, ?_⟩ <;> rw [hsite]
    · exact .refl _
    · rfl
    · rfl
  ending_of_idle h := h
  delete {s} h := by
    have hdelete : Site.delete p (site s)
        = (.ok (), { site s with files := (site s).files.erase loc }) := by
      rw [Site.delete, FileTree.remove_file h.find]
    rcases (hB.delete p s).left with hleft | hleft
    · rw [hleft]
      show Within loc n before (Site.delete p (site s)).2
      rw [hdelete]
      exact ⟨h.files.trans (FileTree.beside_erase h.find), h.config, h.given⟩
    · rw [hleft]
      exact h.toWithin

theorem within_of_holds {hB : Backed c site} {before : Site}
    (h : (occupancy hB before p loc n).Holds r s) : Within loc n before (site s) := by
  have hstate := h.state
  cases hmedium : r.medium with
  | writing _ | reading _ =>
    rw [hmedium] at hstate
    exact hstate.2.toWithin
  | idle =>
    rw [hmedium] at hstate
    exact Residing.toWithin hstate
  | closed =>
    rw [hmedium] at hstate
    exact hstate

theorem find_of_holds {hB : Backed c site} {before : Site}
    (h : (occupancy hB before p loc n).Holds r s) (hopen : r.phase ≠ .closed) :
    (site s).files.find p = .ok (loc, .file n) := by
  have hstate := h.state
  cases hmedium : r.medium with
  | writing _ | reading _ =>
    rw [hmedium] at hstate
    exact hstate.2.find
  | idle =>
    rw [hmedium] at hstate
    exact Residing.find hstate
  | closed =>
    rw [phase, hmedium] at hopen
    exact absurd rfl hopen

/-- A closed run does nothing to its channel. -/
theorem state_of_closed {ω κ ρ : Type} (c : Channel ω κ ρ) {r : Run κ ρ}
    (hclosed : r.phase = .closed) (s : ω) (op : Operation) : (perform c r s op).2.2 = s := by
  obtain ⟨cursor, codec, path, pending, medium, failed⟩ := r
  cases medium with
  | writing _ | idle | reading _ => exact nomatch hclosed
  | closed =>
    cases op with
    | add b => cases failed <;> rfl
    | finish | next | close | advance _ | release => rfl
    | setSchema target =>
      rcases perform_setSchema (c := c) _ s target with ⟨f, -, h⟩ | ⟨husk, -, h⟩ <;> rw [h]

/-! ### What a move spares -/

/-- The file of a run, if the run is open, is left alone. -/
def Spares (site : ω → Site) (r : Run FileSink FileSource) (s s' : ω) : Prop :=
  r.phase ≠ .closed → ∀ loc n, (site s).files.find r.path = .ok (loc, .file n) →
    FileTree.Keeps loc n (site s).files (site s').files

theorem Spares.refl (r : Run FileSink FileSource) (s : ω) : Spares site r s s :=
  fun _ _ _ _ => ⟨fun _ h => h, rfl, rfl⟩

theorem Spares.trans (h : Spares site r s s') (h' : Spares site r s' s'') :
    Spares site r s s'' := by
  intro hopen loc n hfind
  have hkeeps := h hopen loc n hfind
  have hkeeps' := h' hopen loc n (hkeeps.find hfind)
  exact ⟨fun m hm => hkeeps'.directories m (hkeeps.directories m hm),
    hkeeps'.entry.trans hkeeps.entry, hkeeps'.contents.trans hkeeps.contents⟩

/-- The last step of the path of a run. -/
def lastName (r : Run FileSink FileSource) : Option Bytes := r.path.names.getLast?

/-- What a run is asked spares every run under another name. -/
theorem spares_perform {hB : Backed c site} (hsound : (site s).files.Sound)
    (h : (occupancy hB (site s) r.path loc n).Holds r s) (op : Operation)
    {q : Run FileSink FileSource} (hname : lastName q ≠ lastName r) :
    Spares site q s (perform c r s op).2.2 := by
  by_cases hclosed : r.phase = .closed
  · rw [state_of_closed c hclosed]
    exact .refl q s
  · have hwithin := within_of_holds (h.perform op)
    have hfind := find_of_holds h hclosed
    intro _ loc' n' hfind'
    refine hwithin.files.keeps hsound (FileTree.entry?_of_find hfind)
      (FileTree.entry?_of_find hfind') ?_
    rintro rfl
    exact hname ((FileTree.getLast?_of_find hfind').symm.trans (FileTree.getLast?_of_find hfind))

/-- Directories that are made spare every run. -/
theorem spares_grown (h : FileTree.Grown (site s).files (site s').files)
    (q : Run FileSink FileSource) : Spares site q s s' :=
  fun _ _ _ hfind => h.keeps (FileTree.entry?_of_find hfind)

/-- Opening a file to be written spares every run under another name. -/
theorem spares_openOutput (hB : Backed c site) (hsound : (site s).files.Sound)
    {q : Run FileSink FileSource} (hname : lastName q ≠ p.names.getLast?) :
    Spares site q s (c.openOutput p s).2 := by
  intro _ loc' n' hfind'
  rcases (hB.openOutput_made p s).2 with ⟨-, hsame⟩ | ⟨loc, n, hmade, -⟩
  · rw [hsame]
    exact ⟨fun _ h => h, rfl, rfl⟩
  · refine hmade.keeps hsound (FileTree.entry?_of_find hfind') ?_
    rintro rfl
    exact hname ((FileTree.getLast?_of_find hfind').symm.trans
      (FileTree.getLast?_of_find hmade.find))

/-! ### Moves of a company -/

/-- What holds of a company at any time: the tree of files is sound, every run that is open
has its file in its place, and no two runs were given the same name. -/
structure Housed (hB : Backed c site) (g : Company ω FileSink FileSource) : Prop where
  sound : (site g.state).files.Sound
  lodged : ∀ l ∈ g.lives, ∃ loc n,
    (occupancy hB (site g.state) l.run.path loc n).Holds l.run g.state
  named : ∀ l ∈ g.lives, ∃ k < (site g.state).area.given,
    lastName l.run = some (Area.fileName k none)
  apart : (g.lives.map (lastName ·.run)).Nodup

/-- Files are named as the area names them, unless that is made to fail. -/
def NamesBy (site : ω → Site) (name : Naming ω) : Prop :=
  ∀ s, Relayed site s (naming (site s)) (name s)

/-- What a move of a company can be. -/
inductive Move (c : Channel ω FileSink FileSource) (site : ω → Site) :
    Company ω FileSink FileSource → Company ω FileSink FileSource → Prop where
  | nobody {g} : Move c site g g
  | unmade {lives s s'} : (∀ l ∈ lives, Spares site l.run s s') →
      Move c site ⟨lives, s⟩ ⟨lives, s'⟩
  | made {lives l path codec s t s'} : Life.begin c path codec t = (.ok l, s') →
      codec = ⟨(site s).area.config.compression⟩ →
      (site t).area.config = (site s).area.config →
      (∀ l ∈ lives, Spares site l.run s s') → Move c site ⟨lives, s⟩ ⟨lives ++ [l], s'⟩
  | asked {before after l s op} :
      (∀ q ∈ before ++ after, Spares site q.run s (l.ask c s op).2) →
      Move c site ⟨before ++ l :: after, s⟩
        ⟨before ++ (l.ask c s op).1 :: after, (l.ask c s op).2⟩

/-- What holds of a life as it begins, is kept by what it is asked and while its file is spared,
holds of every life after a move. -/
theorem Move.forall_lives {g g' : Company ω FileSink FileSource} (hmove : Move c site g g')
    {Q : Life FileSink FileSource → ω → Prop}
    (hbegin : ∀ {path codec t l}, Life.begin c path codec t = (.ok l, g'.state) →
      codec = ⟨(site g.state).area.config.compression⟩ →
      (site t).area.config = (site g.state).area.config → Q l g'.state)
    (hask : ∀ l op, Q l g.state → Q (l.ask c g.state op).1 (l.ask c g.state op).2)
    (hspared : ∀ l, Spares site l.run g.state g'.state → Q l g.state → Q l g'.state)
    (h : ∀ l ∈ g.lives, Q l g.state) : ∀ l ∈ g'.lives, Q l g'.state := by
  cases hmove with
  | nobody => exact h
  | unmade hspares => exact fun l hl => hspared l (hspares l hl) (h l hl)
  | made hmade hcodec hnamed hspares =>
    exact List.forall_mem_append.2 ⟨fun l hl => hspared l (hspares l hl) (h l hl),
      List.forall_mem_singleton.2 (hbegin hmade hcodec hnamed)⟩
  | @asked before after l s op hspares =>
    obtain ⟨hl, hothers⟩ := forall_mem_middle.1 h
    exact forall_mem_middle.2 ⟨hask l op hl, fun q hq => hspared q (hspares q hq) (hothers q hq)⟩

/-- Where a run resides is where it resides from now on. -/
theorem holds_again {hB : Backed c site} {before : Site}
    (h : (occupancy hB before p loc n).Holds r s) : (occupancy hB (site s) p loc n).Holds r s := by
  obtain ⟨hpath, hstate⟩ := h
  refine ⟨hpath, ?_⟩
  have hagain : ∀ {t : Site}, Residing p loc n before t → Residing p loc n t t :=
    fun h => ⟨⟨.refl _, rfl, rfl⟩, h.find⟩
  cases hmedium : r.medium with
  | writing _ | reading _ =>
    rw [hmedium] at hstate
    exact ⟨hstate.1, hagain hstate.2⟩
  | idle =>
    rw [hmedium] at hstate
    exact hagain hstate
  | closed => exact ⟨.refl _, rfl, rfl⟩

/-- A run that is spared stays where it is. -/
theorem Spares.holds {hB : Backed c site} (h : Spares site r s s') (hpath : r.path = p)
    (hholds : (occupancy hB (site s) p loc n).Holds r s) :
    (occupancy hB (site s') p loc n).Holds r s' := by
  subst hpath
  have hstay : r.phase ≠ .closed → Residing r.path loc n (site s') (site s') := by
    intro hopen
    have hfind := find_of_holds hholds hopen
    exact ⟨⟨.refl _, rfl, rfl⟩, (h hopen loc n hfind).find hfind⟩
  have hstate := hholds.state
  refine ⟨rfl, ?_⟩
  cases hmedium : r.medium with
  | closed => exact ⟨.refl _, rfl, rfl⟩
  | writing _ | reading _ =>
    rw [hmedium] at hstate
    refine ⟨hstate.1, hstay ?_⟩
    rw [phase, hmedium]
    exact Phase.noConfusion
  | idle =>
    refine hstay ?_
    rw [phase, hmedium]
    exact Phase.noConfusion

/-- A run in a file that was made anew resides there. -/
theorem holds_begin (hB : Backed c site) {l : Life FileSink FileSource} {codec : Codec}
    (h : Life.begin c p codec s = (.ok l, s')) :
    ∃ loc n, (occupancy hB (site s') l.run.path loc n).Holds l.run s' := by
  obtain ⟨sink, hopen, rfl⟩ := Life.begin_eq_ok h
  have hmade := (hB.openOutput_made p s).2
  rw [hopen] at hmade
  rcases hmade with ⟨⟨f, hf⟩, -⟩ | ⟨loc, n, hmade, hsink⟩
  · exact nomatch hf
  · exact ⟨loc, n, rfl, by rw [hsink sink rfl]; rfl, ⟨.refl _, rfl, rfl⟩, hmade.find⟩

theorem sound_openOutput (hB : Backed c site) (hsound : (site s).files.Sound) (p : Path) :
    (site (c.openOutput p s).2).files.Sound := by
  rcases (hB.openOutput_made p s).2 with ⟨-, hsame⟩ | ⟨loc, n, hmade, -⟩
  · rwa [hsame]
  · exact hmade.sound hsound

/-- What naming a file comes to, also where it is made to fail. -/
theorem NamesBy.named {name : Naming ω} (h : NamesBy site name) (s : ω) :
    FileTree.Grown (site s).files (site (name s).2).files ∧
      (site (name s).2).area.config = (site s).area.config ∧
      (site s).area.given ≤ (site (name s).2).area.given ∧
      ∀ path codec, (name s).1 = .ok (path, codec) →
        codec = ⟨(site s).area.config.compression⟩ ∧
        (site (name s).2).area.given = (site s).area.given + 1 ∧
        path.names.getLast? = some (Area.fileName (site s).area.given none) := by
  have hrelayed := h s
  have hnamed := Site.nextFile_named (site s)
  have hnaming : (naming (site s)).2 = ((site s).nextFile none).2 ∧
      ∀ path codec, (naming (site s)).1 = .ok (path, codec) →
        ((site s).nextFile none).1 = .ok path ∧
          codec = ⟨((site s).nextFile none).2.area.config.compression⟩ := by
    unfold naming
    generalize (site s).nextFile none = left
    obtain ⟨outcome, t⟩ := left
    cases outcome with
    | error f => exact ⟨rfl, fun _ _ h => (nomatch h)⟩
    | ok path =>
      refine ⟨rfl, fun path' codec h => ?_⟩
      obtain ⟨rfl, rfl⟩ := Prod.mk.inj (Except.ok.inj h)
      exact ⟨rfl, rfl⟩
  obtain ⟨hleft, hok⟩ := hnaming
  generalize name s = left at hrelayed ⊢
  cases hrelayed with
  | done ht =>
    rw [hleft] at ht
    dsimp only at ht ⊢
    rw [ht]
    refine ⟨hnamed.files, hnamed.config, hnamed.given, ?_⟩
    intro path codec hname
    obtain ⟨hpath, rfl⟩ := hok path codec hname
    obtain ⟨hgiven, hlast⟩ := hnamed.path path hpath
    exact ⟨by rw [hnamed.config], hgiven, hlast⟩
  | spoiled ht =>
    rw [hleft] at ht
    dsimp only at ht ⊢
    rw [ht]
    exact ⟨hnamed.files, hnamed.config, hnamed.given, fun _ _ h => (nomatch h)⟩
  | refused ht =>
    dsimp only at ht ⊢
    rw [ht]
    exact ⟨.refl _, rfl, Nat.le_refl _, fun _ _ h => (nomatch h)⟩

/-- What holds of a company holds of it with a run that is spared and others besides. -/
theorem Housed.spared {hB : Backed c site} {g : Company ω FileSink FileSource} (h : Housed hB g)
    (hsound : (site s').files.Sound) (hgiven : (site g.state).area.given ≤ (site s').area.given)
    (hspares : ∀ l ∈ g.lives, Spares site l.run g.state s') : Housed hB ⟨g.lives, s'⟩ where
  sound := hsound
  lodged l hl := by
    obtain ⟨loc, n, hholds⟩ := h.lodged l hl
    exact ⟨loc, n, (hspares l hl).holds rfl hholds⟩
  named l hl := by
    obtain ⟨k, hk, hname⟩ := h.named l hl
    exact ⟨k, Nat.lt_of_lt_of_le hk hgiven, hname⟩
  apart := h.apart

/-- Naming a file spares every run. -/
theorem housed_name {hB : Backed c site} {name : Naming ω} (hname : NamesBy site name)
    {lives : List (Life FileSink FileSource)} (h : Housed hB ⟨lives, s⟩) :
    Housed hB ⟨lives, (name s).2⟩ ∧ ∀ l ∈ lives, Spares site l.run s (name s).2 := by
  obtain ⟨hgrown, -, hgiven, -⟩ := hname.named s
  have hspares : ∀ l ∈ lives, Spares site l.run s (name s).2 := fun l _ =>
    spares_grown hgrown l.run
  exact ⟨h.spared (hgrown.sound h.sound) hgiven hspares, hspares⟩

/-- Making a file under a name that no run was given spares every run. -/
theorem housed_open {hB : Backed c site} {lives : List (Life FileSink FileSource)}
    (h : Housed hB ⟨lives, s⟩) (hnew : ∀ l ∈ lives, lastName l.run ≠ p.names.getLast?) :
    Housed hB ⟨lives, (c.openOutput p s).2⟩ ∧
      ∀ l ∈ lives, Spares site l.run s (c.openOutput p s).2 := by
  have hspares : ∀ l ∈ lives, Spares site l.run s (c.openOutput p s).2 := fun l hl =>
    spares_openOutput hB h.sound (hnew l hl)
  refine ⟨h.spared (sound_openOutput hB h.sound p) ?_ hspares, hspares⟩
  exact Nat.le_of_eq (by rw [(hB.openOutput_made p s).1])

/-- No run has the name that is given next. -/
theorem Housed.new {hB : Backed c site} {name : Naming ω} (hname : NamesBy site name)
    {lives : List (Life FileSink FileSource)} (h : Housed hB ⟨lives, s⟩) {codec : Codec}
    (hnamed : (name s).1 = .ok (p, codec)) : ∀ l ∈ lives, lastName l.run ≠ p.names.getLast? := by
  obtain ⟨-, -, -, hpath⟩ := hname.named s
  obtain ⟨-, -, hlast⟩ := hpath p codec hnamed
  intro l hl hsame
  obtain ⟨k, hk, hnumber⟩ := h.named l hl
  rw [hnumber, hlast] at hsame
  exact Nat.ne_of_lt hk (Area.fileName_injective (Option.some.inj hsame))

/-- A run that is made under a new name has its file in its place, like the others. -/
theorem Housed.made {hB : Backed c site} {lives : List (Life FileSink FileSource)}
    {l : Life FileSink FileSource} {codec : Codec} {k : Nat} (h : Housed hB ⟨lives, s'⟩)
    (hbegin : Life.begin c p codec s = (.ok l, s'))
    (hnew : ∀ l ∈ lives, lastName l.run ≠ p.names.getLast?)
    (hlast : p.names.getLast? = some (Area.fileName k none)) (hk : k < (site s').area.given) :
    Housed hB ⟨lives ++ [l], s'⟩ := by
  have hown : lastName l.run = p.names.getLast? := by
    obtain ⟨sink, -, rfl⟩ := Life.begin_eq_ok hbegin
    rfl
  refine ⟨h.sound, ?_, ?_, ?_⟩
  · exact List.forall_mem_append.2
      ⟨h.lodged, List.forall_mem_singleton.2 (holds_begin hB hbegin)⟩
  · exact List.forall_mem_append.2
      ⟨h.named, List.forall_mem_singleton.2 ⟨k, hk, hown.trans hlast⟩⟩
  · rw [List.map_append, List.nodup_append]
    refine ⟨h.apart, List.pairwise_singleton .., ?_⟩
    intro a ha b hb
    obtain ⟨q, hq, rfl⟩ := List.mem_map.1 ha
    obtain rfl : b = lastName l.run := List.mem_singleton.1 hb
    rw [hown]
    exact hnew q hq

theorem housed_ask {hB : Backed c site} {before after : List (Life FileSink FileSource)}
    {l : Life FileSink FileSource} (h : Housed hB ⟨before ++ l :: after, s⟩) (op : Operation) :
    let g' : Company ω FileSink FileSource :=
      ⟨before ++ (l.ask c s op).1 :: after, (l.ask c s op).2⟩
    Housed hB g' ∧ (site g'.state).area.config = (site s).area.config ∧
      Move c site ⟨before ++ l :: after, s⟩ g' := by
  obtain ⟨⟨loc, n, hholds⟩, hlodged⟩ := forall_mem_middle.1 h.lodged
  obtain ⟨⟨k, hk, hnamed⟩, hnames⟩ := forall_mem_middle.1 h.named
  have hlater := hholds.perform op
  have hwithin := within_of_holds hlater
  have hask := Life.ask_eq c l s op
  have hname : lastName (l.ask c s op).1.run = lastName l.run := by
    rw [Life.run_ask, lastName, (kept_perform l.run s op).path]
    rfl
  have hgiven : (site (l.ask c s op).2).area.given = (site s).area.given := by
    rw [hask]
    exact hwithin.given
  -- The names in the order that has the life that is asked in front.
  have hfront : ∀ l', ((before ++ l' :: after).map (lastName ·.run)).Nodup ↔
      (lastName l'.run :: (before ++ after).map (lastName ·.run)).Nodup := fun l' =>
    (List.perm_middle.map fun l : Life FileSink FileSource => lastName l.run).nodup_iff
  have hapart := List.nodup_cons.1 ((hfront l).1 h.apart)
  have hspares : ∀ q ∈ before ++ after, Spares site q.run s (l.ask c s op).2 := by
    intro q hq
    rw [hask]
    refine spares_perform h.sound hholds op ?_
    intro hsame
    exact hapart.1 (List.mem_map.2 ⟨q, hq, hsame⟩)
  refine ⟨⟨?sound, forall_mem_middle.2 ⟨⟨loc, n, ?asked⟩, ?others⟩,
    forall_mem_middle.2 ⟨⟨k, ?asked', hname.trans hnamed⟩, ?others'⟩, ?apart⟩, ?config,
    .asked hspares⟩
  case sound =>
    rw [hask]
    exact hwithin.files.sound h.sound
  case asked =>
    rw [hask]
    show (occupancy hB _ (perform c l.run s op).2.1.path loc n).Holds _ _
    rw [hlater.path]
    exact holds_again hlater
  case others =>
    intro q hq
    obtain ⟨loc', n', hq'⟩ := hlodged q hq
    exact ⟨loc', n', (hspares q hq).holds rfl hq'⟩
  case asked' => exact hgiven ▸ hk
  case others' =>
    intro q hq
    obtain ⟨k', hk', hnamed'⟩ := hnames q hq
    exact ⟨k', hgiven ▸ hk', hnamed'⟩
  case apart =>
    rw [hfront, hname]
    exact List.nodup_cons.2 hapart
  case config =>
    rw [hask]
    exact hwithin.config

/-- **Every move of a company is one of four**, and leaves every run with a file of its own. -/
theorem housed_attend {hB : Backed c site} {name : μ → Naming ω}
    (hname : ∀ how, NamesBy site (name how)) {g : Company ω FileSink FileSource}
    (h : Housed hB g) (errand : Errand μ) :
    Housed hB (g.attend c name errand) ∧
      (site (g.attend c name errand).state).area.config = (site g.state).area.config ∧
      Move c site g (g.attend c name errand) := by
  have hattended := Company.attended c name g errand
  generalize g.attend c name errand = g' at hattended ⊢
  cases hattended with
  | nobody => exact ⟨h, rfl, .nobody⟩
  | asked => exact housed_ask h _
  | @unnamed lives s how f t hnamed =>
    obtain ⟨hhoused, hspares⟩ := housed_name (hname how) h
    obtain ⟨-, hconfig, -⟩ := (hname how).named s
    rw [hnamed] at hhoused hspares hconfig
    exact ⟨hhoused, hconfig, .unmade hspares⟩
  | @unmade lives s how path codec t f s' hnamed hbegin =>
    obtain ⟨hhoused, hfirst⟩ := housed_name (hname how) h
    obtain ⟨-, hconfig, -⟩ := (hname how).named s
    have hnew := h.new (hname how) (congrArg Prod.fst hnamed)
    rw [hnamed] at hhoused hfirst hconfig
    obtain rfl : (c.openOutput path t).2 = s' := by
      rw [← Life.state_begin c path codec t, hbegin]
    obtain ⟨hhoused', hspares⟩ := housed_open hhoused hnew
    refine ⟨hhoused', ?_, .unmade fun l hl => (hfirst l hl).trans (hspares l hl)⟩
    rw [(hB.openOutput_made path t).1]
    exact hconfig
  | @made lives s how path codec t l s' hnamed hbegin =>
    obtain ⟨hhoused, hfirst⟩ := housed_name (hname how) h
    obtain ⟨-, hconfig, -, hpath⟩ := (hname how).named s
    have hnew := h.new (hname how) (congrArg Prod.fst hnamed)
    rw [hnamed] at hhoused hfirst hconfig hpath
    obtain ⟨hcodec, hgiven, hlast⟩ := hpath path codec rfl
    obtain rfl : (c.openOutput path t).2 = s' := by
      rw [← Life.state_begin c path codec t, hbegin]
    obtain ⟨hhoused', hspares⟩ := housed_open hhoused hnew
    have harea := (hB.openOutput_made path t).1
    refine ⟨hhoused'.made hbegin hnew hlast ?_, ?_,
      .made hbegin hcodec hconfig fun l hl => (hfirst l hl).trans (hspares l hl)⟩
    · rw [harea, hgiven]
      exact Nat.lt_succ_self _
    · rw [harea]
      exact hconfig

/-- Before any run is made a company is in order. -/
theorem housed_nil (hB : Backed c site) (hsound : (site s).files.Sound) : Housed hB ⟨[], s⟩ :=
  ⟨hsound, fun _ h => (nomatch h), fun _ h => (nomatch h), List.Pairwise.nil⟩

/-- What every move keeps holds of a company after any errands. -/
theorem attendAll_induction {hB : Backed c site} {name : μ → Naming ω}
    (hname : ∀ how, NamesBy site (name how)) {P : Company ω FileSink FileSource → Prop}
    (hmove : ∀ {g g'}, Housed hB g → Housed hB g' →
      (site g'.state).area.config = (site g.state).area.config → Move c site g g' → P g → P g')
    {g : Company ω FileSink FileSource} (errands : List (Errand μ)) (hg : Housed hB g) (h : P g) :
    Housed hB (g.attendAll c name errands) ∧ P (g.attendAll c name errands) := by
  induction errands generalizing g with
  | nil => exact ⟨hg, h⟩
  | cons errand errands ih =>
    obtain ⟨hg', hconfig, hstep⟩ := housed_attend hname hg errand
    exact ih hg' (hmove hg hg' hconfig hstep h)

end ExternalSort.Run
