/-
What the file of a run holds, in company.

As long as nothing that a run asked of its channel failed, what its sink took is in the file
or still in the sink, and what its source gave and has left to give is what the sink took.
The other runs leave the file alone, whatever fails for them.  So a run is given what it
wrote, from the front, in any company.
-/
import ExternalSort.Proofs.Run.Company
import ExternalSort.Proofs.Run.Teardown

namespace ExternalSort

namespace Storage

/-- Whether a call failed, or the use of a stream. -/
def Event.fails : Event → Bool
  | .write (.error _) | .read (.error _) => true
  | e => e.failure?.isSome

/-- Nothing failed. -/
def Smooth (es : List Event) : Prop := ∀ e ∈ es, e.fails = false

instance (es : List Event) : Decidable (Smooth es) :=
  inferInstanceAs (Decidable (∀ e ∈ es, e.fails = false))

theorem smooth_append {es es' : List Event} : Smooth (es ++ es') ↔ Smooth es ∧ Smooth es' :=
  List.forall_mem_append

theorem smooth_singleton {e : Event} : Smooth [e] ↔ e.fails = false := List.forall_mem_singleton

end Storage

namespace Run

open Storage

variable {ω μ : Type} {c : Channel ω FileSink FileSource} {site : ω → Site} {p : Path}
  {loc : Location} {n : Nat} {r : Run FileSink FileSource} {s s' : ω} {es : List Event}

/-! ### One run -/

/-- Nothing was given, and what was taken went to a sink on the file. -/
structure Storing (p : Path) (loc : Location) (n : Nat) (k : FileSink) (t : Site)
    (es : List Event) : Prop where
  file : k.file = n
  find : t.files.find p = .ok (loc, .file n)
  unread : given es = []
  took : Smooth es → k.Took t.files (taken es)

/-- Nothing was given, and what was taken is in the file. -/
structure Stored (p : Path) (loc : Location) (n : Nat) (t : Site) (es : List Event) : Prop where
  find : t.files.find p = .ok (loc, .file n)
  unread : given es = []
  contents : Smooth es → t.files.contentsOf n = taken es

/-- What was given, and what a source on the file has left, is what was taken. -/
structure Giving (p : Path) (loc : Location) (n : Nat) (q : FileSource) (t : Site)
    (es : List Event) : Prop where
  file : q.file = some n
  find : t.files.find p = .ok (loc, .file n)
  leaves : Smooth es → ∃ rest, q.Leaves t.files rest ∧ given es ++ rest = taken es

/-- The octets that were given are the first of those that were taken. -/
def Returned (es : List Event) : Prop := Smooth es → given es <+: taken es

theorem Storing.write (hB : Backed c site) {k : FileSink} {x : Watched ω}
    (h : Storing p loc n k (site x.inner) x.events) (bs : Bytes) :
    let left := (Watched.channel c).sink.write bs (k, x)
    Storing p loc n left.2.1 (site left.2.2.inner) left.2.2.events := by
  obtain ⟨hsite, hfile⟩ := hB.written_file bs k x.inner
  rw [h.file] at hsite hfile
  refine ⟨hfile, (hsite.files.find p).trans h.find, ?_, ?_⟩
  · show given (x.events ++ [.write _]) = []
    rw [given_append, h.unread]
    rfl
  · intro hsmooth
    have haccepts := hB.write bs k x.inner
    change Smooth (x.events ++ [.write ((c.sink.write bs (k, x.inner)).1.map bs.take)]) at hsmooth
    obtain ⟨hbefore, hcall⟩ := smooth_append.1 hsmooth
    show (c.sink.write bs (k, x.inner)).2.1.Took (site (c.sink.write bs (k, x.inner)).2.2).files
      (taken (x.events ++ [.write ((c.sink.write bs (k, x.inner)).1.map bs.take)]))
    rw [taken_append]
    generalize c.sink.write bs (k, x.inner) = left at haccepts hcall ⊢
    cases haccepts with
    | @part part t hpart ht =>
      have htaken : taken [.write ((Except.ok part.length).map bs.take)] = part := by
        show bs.take part.length ++ [] = part
        rw [List.append_nil, ← List.prefix_iff_eq_take.1 hpart]
      rw [htaken]
      dsimp only
      rw [ht]
      exact ((h.took hbefore).write part p).1
    | nothing ht =>
      dsimp only
      rw [ht]
      exact (List.append_nil (taken x.events)).symm ▸ h.took hbefore
    | failed _ _ _ => exact nomatch smooth_singleton.1 hcall

theorem Storing.closeSink (hB : Backed c site) {k : FileSink} {x : Watched ω}
    (h : Storing p loc n k (site x.inner) x.events) :
    let left := (retireSink (Watched.channel c) k x).2
    Stored p loc n (site left.inner) left.events := by
  have hsite := hB.retireSink_site k x.inner
  refine ⟨(hsite.files.find p).trans h.find, ?_, ?_⟩
  · show given ((x.events ++ [_]) ++ [_]) = []
    rw [given_append, given_append, h.unread]
    rfl
  · intro hsmooth
    have htally := hB.tallyWrite (c.written k) x.inner
    have hempties := hB.closeSink k (c.tallyWrite (c.written k) x.inner)
    change Smooth ((x.events ++ [.tallyWrite (c.written k)]) ++ [.closeSink
      ((c.closeSink k (c.tallyWrite (c.written k) x.inner)).1.map fun _ => ())]) at hsmooth
    obtain ⟨hbefore, hcall⟩ := smooth_append.1 hsmooth
    obtain ⟨hbefore, -⟩ := smooth_append.1 hbefore
    show (site (c.closeSink k (c.tallyWrite (c.written k) x.inner)).2).files.contentsOf n
      = taken ((x.events ++ [.tallyWrite (c.written k)]) ++ [.closeSink _])
    rw [taken_append, taken_append]
    generalize c.tallyWrite (c.written k) x.inner = t at htally hempties hcall ⊢
    generalize c.closeSink k t = left at hempties hcall ⊢
    cases hempties with
    | done hu =>
      obtain ⟨hflush, hheld⟩ := (h.took hbefore).flush
      have hcontents := hflush.octets
      rw [FileSink.flush_file, h.file, hheld, List.append_nil] at hcontents
      dsimp only
      rw [hu, htally]
      show (k.flush (site x.inner).files).2.contentsOf n = taken x.events ++ [] ++ []
      rw [hcontents, List.append_nil, List.append_nil]
    | failed _ => exact nomatch smooth_singleton.1 hcall

theorem Stored.openInput (hB : Backed c site) {x : Watched ω}
    (h : Stored p loc n (site x.inner) x.events) :
    let left := (Watched.channel c).openInput p x
    Stored p loc n (site left.2.inner) left.2.events ∧
      ∀ q, left.1 = .ok q → Giving p loc n q (site left.2.inner) left.2.events := by
  have hsite : site (c.openInput p x.inner).2 = site x.inner := hB.openInput_site p x.inner
  have hrelayed := hB.openInput p x.inner
  have htaken : ∀ e, taken (x.events ++ [.openInput p e]) = taken x.events := fun e => by
    rw [taken_append]
    exact List.append_nil _
  have hgiven : ∀ e, given (x.events ++ [.openInput p e]) = [] := fun e => by
    rw [given_append, h.unread]
    rfl
  show Stored p loc n (site (c.openInput p x.inner).2)
      (x.events ++ [.openInput p ((c.openInput p x.inner).1.map fun _ => ())]) ∧
    ∀ q, (c.openInput p x.inner).1 = .ok q → Giving p loc n q (site (c.openInput p x.inner).2)
      (x.events ++ [.openInput p ((c.openInput p x.inner).1.map fun _ => ())])
  rw [hsite]
  constructor
  · refine ⟨h.find, hgiven _, fun hsmooth => ?_⟩
    rw [htaken]
    exact h.contents (smooth_append.1 hsmooth).1
  · intro q hq
    generalize hleft : c.openInput p x.inner = left at hrelayed hq
    obtain ⟨outcome, t⟩ := left
    obtain rfl : outcome = .ok q := hq
    have hsource : (Site.openInput p (site x.inner)).1 = .ok q := congrArg (·.1) hrelayed.of_ok
    rw [Site.openInput, h.find] at hsource
    obtain rfl := Except.ok.inj hsource
    refine ⟨rfl, h.find, fun hsmooth => ⟨_, ⟨n, rfl, rfl⟩, ?_⟩⟩
    rw [hgiven, htaken, ← h.contents (smooth_append.1 hsmooth).1]
    rfl

theorem Giving.read (hB : Backed c site) {q : FileSource} {x : Watched ω}
    (h : Giving p loc n q (site x.inner) x.events) (m : Nat) :
    let left := (Watched.channel c).source.read m (q, x)
    Giving p loc n left.2.1 (site left.2.2.inner) left.2.2.events := by
  obtain ⟨hsite, hfile⟩ := hB.read_site m q x.inner
  have hyields := hB.read m q x.inner
  show Giving p loc n (c.source.read m (q, x.inner)).2.1
    (site (c.source.read m (q, x.inner)).2.2)
    (x.events ++ [.read (c.source.read m (q, x.inner)).1])
  rw [hsite]
  refine ⟨hfile.trans h.file, h.find, fun hsmooth => ?_⟩
  obtain ⟨hbefore, hcall⟩ := smooth_append.1 hsmooth
  obtain ⟨rest, hleaves, hrest⟩ := h.leaves hbefore
  rw [given_append, taken_append]
  generalize c.source.read m (q, x.inner) = left at hyields hcall ⊢
  cases hyields with
  | @part m' t _ _ =>
    obtain ⟨got, hgot, hprefix, -, -, hleft⟩ := hleaves.read m'
    refine ⟨rest.drop got.length, hleft, ?_⟩
    rw [hgot]
    show given x.events ++ (got ++ []) ++ rest.drop got.length = taken x.events ++ []
    rw [List.append_nil, List.append_nil, List.append_assoc, ← hrest,
      List.prefix_iff_eq_append.1 hprefix]
  | failed _ _ _ => exact nomatch smooth_singleton.1 hcall

theorem Giving.returned {q : FileSource} {t : Site} (h : Giving p loc n q t es) : Returned es := by
  intro hsmooth
  obtain ⟨rest, -, hrest⟩ := h.leaves hsmooth
  exact ⟨rest, hrest⟩

theorem Storing.returned {k : FileSink} {t : Site} (h : Storing p loc n k t es) : Returned es := by
  intro _
  rw [h.unread]
  exact List.nil_prefix

theorem Stored.returned {t : Site} (h : Stored p loc n t es) : Returned es := by
  intro _
  rw [h.unread]
  exact List.nil_prefix

theorem Returned.append (h : Returned es) {more : List Event} (hgiven : given more = [])
    (htaken : taken more = []) : Returned (es ++ more) := by
  intro hsmooth
  rw [given_append, taken_append, hgiven, htaken, List.append_nil, List.append_nil]
  exact h (smooth_append.1 hsmooth).1

/-- **What a run is given is what it wrote**: no call that succeeds leads out of that. -/
def keeping (hB : Backed c site) (p : Path) (loc : Location) (n : Nat) :
    Upkeep (Watched.channel c) p where
  writing x := Storing p loc n x.1 (site x.2.inner) x.2.events
  idle x := Stored p loc n (site x.inner) x.events
  reading x := Giving p loc n x.1 (site x.2.inner) x.2.events
  ending x := Returned x.events
  closed x := Returned x.events
  write h bs _ := h.write hB bs
  closeSink h := h.closeSink hB
  refused {x f t} h hopen := by
    have hleft := (h.openInput hB).1
    rwa [hopen] at hleft
  opened {x q t} h hopen := by
    have hleft := (h.openInput hB).2 q
    rw [hopen] at hleft
    exact hleft rfl
  read h m _ := h.read hB m
  closeSource {x} h := by
    show Returned (x.2.events ++ [_] ++ [_])
    rw [List.append_assoc]
    exact h.returned.append rfl rfl
  ending_of_idle h := h.returned
  delete h := h.append rfl rfl

theorem returned_of_holds {hB : Backed c site} (h : (keeping hB p loc n).Holds r ⟨s, es⟩) :
    Returned es := by
  have hstate := h.state
  cases hmedium : r.medium with
  | writing _ =>
    rw [hmedium] at hstate
    exact hstate.returned
  | idle =>
    rw [hmedium] at hstate
    exact hstate.returned
  | reading _ =>
    rw [hmedium] at hstate
    exact hstate.returned
  | closed =>
    rw [hmedium] at hstate
    exact hstate

/-! ### A run among others -/

theorem Storing.kept {k : FileSink} {t t' : Site} (h : Storing p loc n k t es)
    (hkeeps : FileTree.Keeps loc n t.files t'.files) : Storing p loc n k t' es := by
  refine ⟨h.file, hkeeps.find h.find, h.unread, fun hsmooth => ?_⟩
  obtain ⟨hoctets, hoffset⟩ := h.took hsmooth
  rw [h.file] at hoctets hoffset
  constructor
  · rw [h.file, hkeeps.contents]
    exact hoctets
  · rw [h.file, hkeeps.contents]
    exact hoffset

theorem Stored.kept {t t' : Site} (h : Stored p loc n t es)
    (hkeeps : FileTree.Keeps loc n t.files t'.files) : Stored p loc n t' es :=
  ⟨hkeeps.find h.find, h.unread, fun hsmooth => hkeeps.contents.trans (h.contents hsmooth)⟩

theorem Giving.kept {q : FileSource} {t t' : Site} (h : Giving p loc n q t es)
    (hkeeps : FileTree.Keeps loc n t.files t'.files) : Giving p loc n q t' es := by
  refine ⟨h.file, hkeeps.find h.find, fun hsmooth => ?_⟩
  obtain ⟨rest, ⟨m, hfile, hheld⟩, hrest⟩ := h.leaves hsmooth
  refine ⟨rest, ⟨m, hfile, ?_⟩, hrest⟩
  obtain rfl : m = n := Option.some.inj (hfile.symm.trans h.file)
  rw [hkeeps.contents]
  exact hheld

/-- What a run is given is what it wrote as long as its file is spared. -/
theorem keeping_spared {hB : Backed c site} (h : (keeping hB r.path loc n).Holds r ⟨s, es⟩)
    (hspares : Spares site r s s') : (keeping hB r.path loc n).Holds r ⟨s', es⟩ := by
  have hstate := h.state
  have hkeeps : r.phase ≠ .closed → (site s).files.find r.path = .ok (loc, .file n) →
      FileTree.Keeps loc n (site s).files (site s').files := fun hopen => hspares hopen loc n
  refine ⟨rfl, ?_⟩
  rw [phase] at hkeeps
  cases hmedium : r.medium with
  | writing k =>
    rw [hmedium] at hstate hkeeps
    exact hstate.kept (hkeeps Phase.noConfusion hstate.find)
  | idle =>
    rw [hmedium] at hstate hkeeps
    exact Stored.kept hstate (hkeeps Phase.noConfusion (Stored.find hstate))
  | reading q =>
    rw [hmedium] at hstate hkeeps
    exact hstate.kept (hkeeps Phase.noConfusion hstate.find)
  | closed =>
    rw [hmedium] at hstate
    exact hstate

theorem keeping_begin (hB : Backed c site) {l : Life FileSink FileSource} {codec : Codec}
    (h : Life.begin c p codec s = (.ok l, s')) :
    ∃ loc n, (keeping hB l.run.path loc n).Holds l.run ⟨s', l.events⟩ := by
  obtain ⟨sink, hopen, rfl⟩ := Life.begin_eq_ok h
  have hmade := (hB.openOutput_made p s).2
  rw [hopen] at hmade
  rcases hmade with ⟨⟨f, hf⟩, -⟩ | ⟨loc, n, hmade, hsink⟩
  · exact nomatch hf
  · obtain rfl := hsink sink rfl
    refine ⟨loc, n, rfl, rfl, hmade.find, rfl, fun _ => ⟨?_, ?_⟩⟩
    · show (site s').files.contentsOf n ++ [] = []
      rw [hmade.empty, List.append_nil]
    · show 0 = ((site s').files.contentsOf n).length
      rw [hmade.empty]
      rfl

theorem keeping_ask {hB : Backed c site} {l : Life FileSink FileSource} (op : Operation)
    (h : ∃ loc n, (keeping hB l.run.path loc n).Holds l.run ⟨s, l.events⟩) :
    let left := l.ask c s op
    ∃ loc n, (keeping hB left.1.run.path loc n).Holds left.1.run ⟨left.2, left.1.events⟩ := by
  obtain ⟨loc, n, hholds⟩ := h
  refine ⟨loc, n, ?_⟩
  rw [Life.run_ask, (kept_perform l.run s op).path, ← Life.run_ask]
  exact hholds.ask op

/-- **In any company a run is given what it wrote**, from the front, unless something failed
for the run itself. -/
theorem returned_attendAll (hB : Backed c site) {name : μ → Naming ω}
    (hname : ∀ how, NamesBy site (name how)) {s₀ : ω} (hsound : (site s₀).files.Sound)
    (errands : List (Errand μ)) :
    ∀ l ∈ (Company.attendAll c name errands ⟨[], s₀⟩).lives, Returned l.events := by
  obtain ⟨-, hall⟩ := attendAll_induction hname
    (P := fun g => ∀ l ∈ g.lives, ∃ loc n, (keeping hB l.run.path loc n).Holds l.run
      ⟨g.state, l.events⟩)
    (fun _ _ _ hmove h => hmove.forall_lives
      (Q := fun l s => ∃ loc n, (keeping hB l.run.path loc n).Holds l.run ⟨s, l.events⟩)
      (fun hbegin _ _ => keeping_begin hB hbegin) (fun l op => keeping_ask op)
      (fun l hspares ⟨loc, n, hholds⟩ => ⟨loc, n, keeping_spared hholds hspares⟩) h)
    errands (housed_nil hB hsound) (fun _ h => (nomatch h))
  intro l hl
  obtain ⟨loc, n, hholds⟩ := hall l hl
  exact returned_of_holds hholds

end Run
end ExternalSort
