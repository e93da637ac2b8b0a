/-
Runs that share a spill area keep apart.

A run finds in its own file what it put there, so it answers as it would if it were alone: on
its own area with its own file, under whatever name.  That the others leave its file alone is
what is known of every move of a company; what is left is that a run cannot tell two sites
from each other in which its file holds the same.
-/
import ExternalSort.Proofs.Run.Company
import ExternalSort.Proofs.Run.RoundTrip

namespace ExternalSort

namespace Storage

/-! ### Streams on files that hold the same -/

section Streams

variable {t t' : FileTree} {n' : Nat}

theorem FileTree.contentsOf_writeAt (t : FileTree) (n offset : Nat) (bs : Bytes) :
    (t.writeAt n offset bs).contentsOf n = overlay (t.contentsOf n) offset bs :=
  contentsOf_setContents ..

/-- A sink on another file that holds the same. -/
structure FileSink.Twin (n' : Nat) (x y : FileSink × FileTree) : Prop where
  sink : y.1 = { x.1 with file := n' }
  contents : y.2.contentsOf n' = x.2.contentsOf x.1.file

variable {k : FileSink}

theorem FileSink.Twin.emit {x y : FileSink × FileTree} (h : FileSink.Twin n' x y) (bs : Bytes) :
    FileSink.Twin n' (x.1.emit bs x.2) (y.1.emit bs y.2) := by
  obtain ⟨k, t⟩ := x
  obtain ⟨_, t'⟩ := y
  obtain ⟨rfl, hcontents⟩ := h
  refine ⟨rfl, ?_⟩
  show (t'.writeAt n' k.offset bs).contentsOf n' = (t.writeAt k.file k.offset bs).contentsOf k.file
  rw [FileTree.contentsOf_writeAt, FileTree.contentsOf_writeAt]
  exact congrArg (FileTree.overlay · k.offset bs) hcontents

theorem FileSink.Twin.flush {x y : FileSink × FileTree} (h : FileSink.Twin n' x y) :
    FileSink.Twin n' (x.1.flush x.2) (y.1.flush y.2) := by
  have hemit := h.emit x.1.held
  obtain ⟨k, t⟩ := x
  obtain ⟨_, t'⟩ := y
  obtain ⟨rfl, hcontents⟩ := h
  unfold FileSink.flush
  dsimp only
  split
  · exact ⟨rfl, hcontents⟩
  · exact ⟨rfl, hemit.contents⟩

theorem FileSink.Twin.write {x y : FileSink × FileTree} (h : FileSink.Twin n' x y) (bs : Bytes) :
    FileSink.Twin n' (x.1.write bs x.2) (y.1.write bs y.2) := by
  have hflush := h.flush
  obtain ⟨k, t⟩ := x
  obtain ⟨_, t'⟩ := y
  obtain ⟨rfl, hcontents⟩ := h
  have hroom : FileSink.Twin n'
      (if k.capacity - k.held.length < bs.length then k.flush t else (k, t))
      (if k.capacity - k.held.length < bs.length then
        FileSink.flush { k with file := n' } t' else ({ k with file := n' }, t')) := by
    split
    · exact hflush
    · exact ⟨rfl, hcontents⟩
  unfold FileSink.write
  dsimp only
  split
  · exact ⟨rfl, hcontents⟩
  · generalize (if k.capacity - k.held.length < bs.length then k.flush t else (k, t)) = x at hroom ⊢
    generalize (if k.capacity - k.held.length < bs.length then
        FileSink.flush { k with file := n' } t' else ({ k with file := n' }, t')) = y at hroom ⊢
    have hemit := hroom.emit bs
    obtain ⟨k, t⟩ := x
    obtain ⟨_, t'⟩ := y
    obtain ⟨rfl, hcontents⟩ := hroom
    dsimp only
    split
    · exact ⟨rfl, hemit.contents⟩
    · exact ⟨rfl, hcontents⟩

/-- A source on another file that holds the same gives the same. -/
theorem FileSource.read_twin {r : FileSource} {n : Nat} (hfile : r.file = some n)
    (hcontents : t'.contentsOf n' = t.contentsOf n) (m : Nat) :
    FileSource.read { r with file := some n' } m t'
      = ((r.read m t).1, { (r.read m t).2 with file := some n' }) := by
  obtain ⟨file, offset, held, capacity, consumed⟩ := r
  obtain rfl : file = some n := hfile
  have hread : ∀ k, t'.readAt n' offset k = t.readAt n offset k := by
    intro k
    rw [FileTree.readAt, FileTree.readAt, hcontents]
  unfold FileSource.read
  dsimp only
  split
  · rw [hread]
    split <;> rfl
  · rfl

end Streams
end Storage

namespace Run

open Storage

variable {p p' : Path} {loc loc' : Location} {n n' : Nat} {r r' : Run FileSink FileSource}
  {s t : Site}

/-! ### Sites that a run cannot tell apart -/

/-- A file of the first site holds what a file of the second holds. -/
structure SameFile (p : Path) (loc : Location) (n : Nat) (p' : Path) (loc' : Location) (n' : Nat)
    (s t : Site) : Prop where
  config : t.area.config = s.area.config
  here : s.files.find p = .ok (loc, .file n)
  there : t.files.find p' = .ok (loc', .file n')
  contents : t.files.contentsOf n' = s.files.contentsOf n

theorem SameFile.rewritten {s' t' : Site} (h : SameFile p loc n p' loc' n' s t)
    (hs : Site.Rewritten n s s') (ht : Site.Rewritten n' t t')
    (hcontents : t'.files.contentsOf n' = s'.files.contentsOf n) :
    SameFile p loc n p' loc' n' s' t' where
  config := by rw [ht.config, h.config, hs.config]
  here := (hs.files.find p).trans h.here
  there := (ht.files.find p').trans h.there
  contents := hcontents

/-- In whichever files two runs work, they come to the same as long as the files hold the
same. -/
def sharing (p : Path) (loc : Location) (n : Nat) (p' : Path) (loc' : Location) (n' : Nat) :
    Simulation Site.channel Site.channel p p' where
  writing x y := x.1.file = n ∧ y.1 = { x.1 with file := n' } ∧ SameFile p loc n p' loc' n' x.2 y.2
  idle := SameFile p loc n p' loc' n'
  reading x y :=
    x.1.file = some n ∧ y.1 = { x.1 with file := some n' } ∧ SameFile p loc n p' loc' n' x.2 y.2
  ending := SameFile p loc n p' loc' n'
  closed _ _ := True
  sink := by
    rintro ⟨k, s⟩ ⟨_, t⟩ ⟨rfl, rfl, h⟩ bs -
    have htwin : FileSink.Twin n' (k, s.files) ({ k with file := n' }, t.files) :=
      ⟨rfl, h.contents⟩
    obtain ⟨hsink, hcontents⟩ := htwin.write bs
    obtain ⟨hs, hfile⟩ := FileTree.Rewritten.write k bs s.files
    obtain ⟨ht, -⟩ := FileTree.Rewritten.write { k with file := n' } bs t.files
    rw [hfile] at hcontents
    exact ⟨rfl, hfile, hsink, h.rewritten ⟨hs, rfl, rfl⟩ ⟨ht, rfl, rfl⟩ hcontents⟩
  written {x y} h := by
    show x.1.written = y.1.written
    rw [h.2.1]
  closeSink := by
    rintro ⟨k, s⟩ ⟨_, t⟩ ⟨rfl, rfl, h⟩
    have htwin : FileSink.Twin n' (k, s.files) ({ k with file := n' }, t.files) :=
      ⟨rfl, h.contents⟩
    have hcontents := htwin.flush.contents
    rw [FileSink.flush_file] at hcontents
    exact ⟨rfl, h.rewritten ⟨.flush k s.files, rfl, rfl⟩
      ⟨.flush { k with file := n' } t.files, rfl, rfl⟩ hcontents⟩
  openInput {s t} h := by
    have hs : Site.openInput p s = (.ok (.start (some n) s.area.config.bufferSize), s) := by
      rw [Site.openInput, h.here]
    have ht : Site.openInput p' t = (.ok (.start (some n') s.area.config.bufferSize), t) := by
      rw [Site.openInput, h.there, h.config]
    show Opened _ _ (Site.openInput p s) (Site.openInput p' t)
    rw [hs, ht]
    exact .opened (x := (_, s)) (y := (_, t)) ⟨rfl, rfl, h⟩
  source := by
    rintro ⟨r, s⟩ ⟨_, t⟩ ⟨hfile, rfl, h⟩ m -
    have hread := FileSource.read_twin hfile h.contents m
    refine ⟨?_, ?_, ?_, h⟩
    · exact congrArg (·.1) hread.symm
    · exact (r.file_read m s.files).trans hfile
    · exact congrArg (·.2) hread
  closeSource := by
    rintro ⟨r, s⟩ ⟨_, t⟩ ⟨-, rfl, h⟩
    exact ⟨rfl, h.rewritten ⟨.refl _, rfl, rfl⟩ ⟨.refl _, rfl, rfl⟩ h.contents⟩
  ending_of_idle h := h
  delete {s t} h := by
    refine ⟨?_, trivial⟩
    show (Site.delete p s).1 = (Site.delete p' t).1
    rw [Site.delete, Site.delete, FileTree.remove_file h.here, FileTree.remove_file h.there]

/-- A run that is spared goes on as before. -/
theorem SameFile.spared {s' : Site} (h : SameFile p loc n p' loc' n' s t) (hpath : r.path = p)
    (hopen : r.phase ≠ .closed) (hconfig : s'.area.config = s.area.config)
    (hspares : Spares id r s s') : SameFile p loc n p' loc' n' s' t := by
  subst hpath
  have hkeeps := hspares hopen loc n h.here
  exact ⟨h.config.trans hconfig.symm, hkeeps.find h.here, h.there,
    h.contents.trans hkeeps.contents.symm⟩

theorem Twins.spared {s' : Site} (h : Twins (sharing p loc n p' loc' n') (r, s) (r', t))
    (hconfig : s'.area.config = s.area.config) (hspares : Spares id r s s') :
    Twins (sharing p loc n p' loc' n') (r, s') (r', t) := by
  obtain ⟨hmedia⟩ := h
  refine ⟨?_⟩
  cases hmedia with
  | @writing x y h =>
    refine .writing (x := (x.1, s')) (y := y) ⟨h.1, h.2.1, ?_⟩
    exact h.2.2.spared rfl (by exact nofun) hconfig hspares
  | idle h => exact .idle (h.spared rfl (by exact nofun) hconfig hspares)
  | @reading x y h =>
    refine .reading (x := (x.1, s')) (y := y) ⟨h.1, h.2.1, ?_⟩
    exact h.2.2.spared rfl (by exact nofun) hconfig hspares
  | closed _ => exact .closed trivial

/-- New runs on sites of the same configuration are alike. -/
theorem twins_create {path path' : Path} {codec : Codec} {s₀ t₀ : Site}
    (hconfig : t₀.area.config = s₀.area.config)
    (hcreate : create Site.channel path codec s₀ = (.ok r, s))
    (hcreate' : create Site.channel path' codec t₀ = (.ok r', t)) :
    ∃ loc n loc' n', Twins (sharing path loc n path' loc' n') (r, s) (r', t) := by
  obtain ⟨k, rfl, hs⟩ := create_eq_ok hcreate
  obtain ⟨k', rfl, ht⟩ := create_eq_ok hcreate'
  change Site.openOutput path s₀ = _ at hs
  change Site.openOutput path' t₀ = _ at ht
  rcases Site.openOutput_made path s₀ with ⟨f, h⟩ | ⟨loc, n, files, hmade, h⟩
  · rw [h] at hs
    exact nomatch (Prod.mk.inj hs).1
  rcases Site.openOutput_made path' t₀ with ⟨f, h'⟩ | ⟨loc', n', files', hmade', h'⟩
  · rw [h'] at ht
    exact nomatch (Prod.mk.inj ht).1
  rw [h] at hs
  rw [h'] at ht
  obtain ⟨hk, rfl⟩ := Prod.mk.inj hs
  obtain ⟨hk', rfl⟩ := Prod.mk.inj ht
  obtain rfl := Except.ok.inj hk
  obtain rfl := Except.ok.inj hk'
  refine ⟨loc, n, loc', n', ⟨.writing (x := (_, _)) (y := (_, _)) ⟨rfl, ?_, ?_⟩⟩⟩
  · show FileSink.start n' t₀.area.config.bufferSize = _
    rw [hconfig]
    rfl
  · exact ⟨hconfig, hmade.find, hmade'.find, hmade'.empty.trans hmade.empty.symm⟩

/-! ### Alone and in company -/

/-- What a run answered, in any company, is what it would have answered alone. -/
def AnswersAlone (config : SpillConfig) (l : Life FileSink FileSource) : Prop :=
  ∀ alone r₀ t₀, alone.area.config = config → createIn alone = (.ok r₀, t₀) →
    l.requests.map (·.answer.unnamed)
      = (performAll Site.channel (l.requests.map (·.op)) r₀ t₀).1.map Answer.unnamed

/-- A run in company, and one alone that was asked the same, were alike at every time. -/
def Matches (config : SpillConfig) (l : Life FileSink FileSource) (s : Site) : Prop :=
  ∀ alone r₀ t₀, alone.area.config = config → createIn alone = (.ok r₀, t₀) →
    let left := performAll Site.channel (l.requests.map (·.op)) r₀ t₀
    l.requests.map (·.answer.unnamed) = left.1.map Answer.unnamed ∧
      ∃ p loc n p' loc' n', Twins (sharing p loc n p' loc' n') (l.run, s) left.2

/-- A run on an area of its own is made in the file that the area names. -/
theorem createIn_eq_ok {alone : Site} (h : createIn alone = (.ok r, t)) :
    ∃ path named, named.area.config = alone.area.config ∧
      create Site.channel path ⟨alone.area.config.compression⟩ named = (.ok r, t) := by
  have hnamed := Site.nextFile_named alone
  unfold createIn at h
  generalize alone.nextFile none = left at h hnamed
  obtain ⟨outcome, named⟩ := left
  have hconfig : named.area.config = alone.area.config := hnamed.config
  cases outcome with
  | error f => exact nomatch (Prod.mk.inj h).1
  | ok path => exact ⟨path, named, hconfig, by rw [← hconfig]; exact h⟩

theorem matches_begin {config : SpillConfig} {path : Path} {l : Life FileSink FileSource}
    (hbegin : Life.begin Site.channel path ⟨config.compression⟩ t = (.ok l, s))
    (hconfig : t.area.config = config) : Matches config l s := by
  intro alone r₀ t₀ halone hcreate
  obtain ⟨hmade, hnothing⟩ := Life.create_of_begin hbegin
  obtain ⟨path', named, hnamed, hcreate'⟩ := createIn_eq_ok hcreate
  rw [halone] at hcreate' hnamed
  obtain ⟨loc, n, loc', n', htwins⟩ := twins_create (hnamed.trans hconfig.symm) hmade hcreate'
  rw [hnothing]
  exact ⟨rfl, _, loc, n, _, loc', n', htwins⟩

theorem Matches.ask {config : SpillConfig} {l : Life FileSink FileSource} (h : Matches config l s)
    (op : Operation) :
    Matches config (l.ask Site.channel s op).1 (l.ask Site.channel s op).2 := by
  intro alone r₀ t₀ halone hcreate
  obtain ⟨hanswers, p, loc, n, p', loc', n', htwins⟩ := h alone r₀ t₀ halone hcreate
  obtain ⟨hanswer, hleft⟩ := htwins.perform op
  rw [Life.ask_eq]
  simp only [List.map_append, List.map_cons, List.map_nil, performAll_concat]
  exact ⟨congrArg₂ (· ++ [·]) hanswers hanswer.unnamed, p, loc, n, p', loc', n', hleft⟩

theorem Matches.spared {config : SpillConfig} {l : Life FileSink FileSource} {s' : Site}
    (h : Matches config l s) (hconfig : s'.area.config = s.area.config)
    (hspares : Spares id l.run s s') : Matches config l s' := by
  intro alone r₀ t₀ halone hcreate
  obtain ⟨hanswers, p, loc, n, p', loc', n', htwins⟩ := h alone r₀ t₀ halone hcreate
  exact ⟨hanswers, p, loc, n, p', loc', n', htwins.spared hconfig hspares⟩

/-- Every run in a company is like itself alone, whatever move is made. -/
theorem matches_move {config : SpillConfig} {g g' : Company Site FileSink FileSource}
    (hconfig : g'.state.area.config = g.state.area.config) (hmove : Move Site.channel id g g')
    (h : g.state.area.config = config ∧ ∀ l ∈ g.lives, Matches config l g.state) :
    g'.state.area.config = config ∧ ∀ l ∈ g'.lives, Matches config l g'.state := by
  obtain ⟨rfl, hall⟩ := h
  refine ⟨hconfig, hmove.forall_lives (fun {path codec t l} hbegin hcodec hnamed => ?_)
    (fun l op hl => hl.ask op) (fun l hspares hl => hl.spared hconfig hspares) hall⟩
  subst hcodec
  exact matches_begin hbegin hnamed

theorem exists?_of_find {t : FileTree} (h : t.find p = .ok (loc, .file n)) : t.exists? p = true := by
  rw [FileTree.exists?, h]
  rfl

theorem contentsAt?_of_find {t : FileTree} (h : t.find p = .ok (loc, .file n)) :
    t.contentsAt? p = some (t.contentsOf n) := by
  rw [FileTree.contentsAt?, FileTree.fileAt?, h]
  rfl

/-- Closing a run that is open removes its file. -/
theorem removed_of_close (h : (occupancy Site.backed s r.path loc n).Holds r s)
    (hopen : r.phase ≠ .closed) :
    (perform Site.channel r s .close).2.2.files.exists? r.path = false := by
  have hremoved : ∀ {u : Site}, u.files.find r.path = .ok (loc, .file n) →
      (Site.delete r.path u).2.files.exists? r.path = false := by
    intro u hfind
    rw [Site.delete, FileTree.remove_file hfind, FileTree.exists?]
    dsimp only
    rw [FileTree.find_erase hfind]
    rfl
  obtain ⟨cursor, codec, path, pending, medium, failed⟩ := r
  have hstate := h.state
  cases medium with
  | closed => exact absurd rfl hopen
  | idle => exact hremoved (Residing.find hstate)
  | writing k => exact hremoved ((occupancy Site.backed s path loc n).closeSink hstate).find
  | reading q => exact hremoved ((occupancy Site.backed s path loc n).closeSource hstate).find

/-- **Runs that share a spill area do not disturb each other.**  However many runs are made and
in whatever order requests are made to them, each answers as it would have answered alone on
any area of the same configuration, but for the names of files in messages.  Closing an open
run removes its file, and every other open run has its file as before. -/
theorem runs_keep_apart {s₀ : Site} (hsound : s₀.files.Sound) (errands : List (Errand Unit)) :
    let g := Company.attendAll Site.channel (fun _ : Unit => naming) errands ⟨[], s₀⟩
    (∀ l ∈ g.lives, AnswersAlone s₀.area.config l) ∧
    ∀ place l, g.lives[place]? = some l → l.run.phase ≠ .closed →
      let g' := g.attend Site.channel (fun _ : Unit => naming) (.ask place .close)
      g.state.files.exists? l.run.path = true ∧ g'.state.files.exists? l.run.path = false ∧
      ∀ other q, other ≠ place → g.lives[other]? = some q → q.run.phase ≠ .closed →
        ∃ bs, g.state.files.contentsAt? q.run.path = some bs ∧
          g'.state.files.contentsAt? q.run.path = some bs := by
  intro g
  have hnames : ∀ how : Unit, NamesBy id naming := fun _ s => .done rfl
  obtain ⟨hhoused, -, hmatches⟩ := attendAll_induction hnames
    (P := fun g => g.state.area.config = s₀.area.config ∧
      ∀ l ∈ g.lives, Matches s₀.area.config l g.state)
    (fun _ _ hconfig hmove h => matches_move hconfig hmove h) errands
    (housed_nil Site.backed hsound) ⟨rfl, fun _ h => (nomatch h)⟩
  refine ⟨fun l hl alone r₀ t₀ halone hcreate => (hmatches l hl alone r₀ t₀ halone hcreate).1, ?_⟩
  intro place l hl hopen g'
  have hstate : g'.state = (perform Site.channel l.run g.state .close).2.2 := by
    show (Company.attend _ _ g _).state = _
    unfold Company.attend
    dsimp only
    rw [hl]
    dsimp only
    rw [Life.ask_eq]
  obtain ⟨loc, n, hholds⟩ := hhoused.lodged l (List.mem_of_getElem? hl)
  have hfind := find_of_holds hholds hopen
  refine ⟨exists?_of_find hfind, ?_, ?_⟩
  · rw [hstate]
    exact removed_of_close hholds hopen
  · intro other q hother hq hopen'
    obtain ⟨loc', n', hholds'⟩ := hhoused.lodged q (List.mem_of_getElem? hq)
    have hfind' := find_of_holds hholds' hopen'
    -- Runs in different places have different names.
    have hname : lastName q.run ≠ lastName l.run := by
      intro hsame
      have hlength : other < (g.lives.map (lastName ·.run)).length := by
        rw [List.length_map]
        exact (List.getElem?_eq_some_iff.1 hq).1
      refine hother ((List.getElem?_inj hlength hhoused.apart).1 ?_)
      rw [List.getElem?_map, List.getElem?_map, hq, hl]
      exact congrArg some hsame
    have hkeeps := spares_perform hhoused.sound hholds .close hname hopen' loc' n' hfind'
    refine ⟨_, contentsAt?_of_find hfind', ?_⟩
    rw [hstate]
    exact (contentsAt?_of_find (hkeeps.find hfind')).trans (congrArg some hkeeps.contents)

/-- An area without files, with the directories `/x` and `/y`. -/
def pristine : Site := ⟨.empty, { blank.area with roots := [⟨[47, 120]⟩, ⟨[47, 121]⟩] }⟩

theorem sound_pristine : pristine.files.Sound := FileTree.sound_empty

/-- Two runs are made, take a batch each, and the first is read. -/
def inTurn : List (Errand Unit) :=
  [.make (), .make (), .ask 0 (.add pair), .ask 1 (.add pair), .ask 0 .next]

/-- The first of the two runs answered as one that is made alone on the area would have, and once
it is closed its file is gone and that of the second is there. -/
theorem pair_apart_from_pair :
    let g := Company.attendAll Site.channel (fun _ : Unit => naming) inTurn ⟨[], pristine⟩
    ∃ l q, pristine.files.Sound ∧ g.lives = [l, q] ∧ l.run.phase = .reading ∧
      q.run.phase = .writing ∧ (createIn pristine).1.isOk = true ∧
      AnswersAlone pristine.area.config l ∧
      let g' := g.attend Site.channel (fun _ : Unit => naming) (.ask 0 .close)
      g'.state.files.exists? l.run.path = false ∧
      (g'.state.files.contentsAt? q.run.path).isSome := by
  have hcreate : (createIn pristine).1.isOk = true := by decide +kernel
  have hphases : (Company.attendAll Site.channel (fun _ : Unit => naming) inTurn
      ⟨[], pristine⟩).lives.map (·.run.phase) = [.reading, .writing] := by decide +kernel
  have hapart := runs_keep_apart sound_pristine inTurn
  dsimp only at hapart ⊢
  generalize Company.attendAll Site.channel (fun _ : Unit => naming) inTurn ⟨[], pristine⟩ = g
    at hphases hapart ⊢
  obtain ⟨halone, hclosing⟩ := hapart
  obtain ⟨l, q, hlives, hl, hq⟩ := eq_pair_of_map hphases
  have hfirst : g.lives[0]? = some l := congrArg (·[0]?) hlives
  have hsecond : g.lives[1]? = some q := congrArg (·[1]?) hlives
  obtain ⟨-, hgone, hothers⟩ := hclosing 0 l hfirst (hl.trans_ne (by decide))
  obtain ⟨bs, -, hstays⟩ := hothers 1 q (by decide) hsecond (hq.trans_ne (by decide))
  exact ⟨l, q, sound_pristine, hlives, hl, hq, hcreate, halone l (List.mem_of_getElem? hfirst),
    hgone, Option.isSome_of_eq_some hstays⟩

end Run
end ExternalSort
