/-
Households do not meet where their directories do not.

Whatever is done in a household stays within the part of the tree at or below its operator's
directories: the names that it gives lead there, the file of a run is made where its name
leads, what a sink writes goes to a file that has no other place, and a cleanup removes what
is there.  None of this is undone by the neighbours.  They may remove a file under the hands
of a run, but they cannot give its number to another one, and so they never bring a household
to write where it has no business.

Two households whose directories are apart therefore leave each other's files alone.  Where
they are not apart nothing else tells their files from each other: with the same directory and
the same operator name both number their files from nought.
-/
import ExternalSort.Config.Variables
import ExternalSort.Proofs.Run.Apart
import ExternalSort.Proofs.Storage.History
import ExternalSort.Run.Neighbourhood

namespace ExternalSort.Run

open Storage

open FileTree (Confined Houses)

/-! ### Runs -/

section Runs

variable {s₀ s : Site} {p : Path}

/-- What a run with its file in the part of the area does is confined to that part. -/
def withinUpkeep (s₀ : Site) (hp : s₀.area.Owns p.destination) : Upkeep Site.channel p where
  writing x := Site.Within s₀ x.2 ∧ Houses s₀.area.Owns x.2.files x.1.file
  idle s := Site.Within s₀ s
  reading x := Site.Within s₀ x.2
  ending s := Site.Within s₀ s
  closed s := Site.Within s₀ s
  write := by
    rintro ⟨k, s⟩ ⟨hwithin, hhouses⟩ bs -
    obtain ⟨hrewritten, hfile⟩ := FileTree.Rewritten.write k bs s.files
    have hstep := hrewritten.confined hwithin.files.sound hhouses
    refine ⟨hwithin.further hstep, ?_⟩
    show Houses _ (k.write bs s.files).2 (k.write bs s.files).1.file
    rw [hfile]
    exact hhouses.confined hstep
  closeSink := by
    rintro ⟨k, s⟩ ⟨hwithin, hhouses⟩
    have hstep := (FileTree.Rewritten.flush k s.files).confined hwithin.files.sound hhouses
    exact ⟨hwithin.files.trans hstep, hwithin.roots, hwithin.created⟩
  refused {s f s'} hwithin hopen := by
    obtain rfl : s' = s := (congrArg Prod.snd hopen).symm.trans (Site.backed.openInput_site p s)
    exact hwithin
  opened {s r s'} hwithin hopen := by
    obtain rfl : s' = s := (congrArg Prod.snd hopen).symm.trans (Site.backed.openInput_site p s)
    exact hwithin
  read hwithin _ _ := hwithin
  closeSource hwithin := ⟨hwithin.files, hwithin.roots, hwithin.created⟩
  ending_of_idle hwithin := hwithin
  delete {s} hwithin := by
    have hremoved : Confined s₀.area.Owns s.files (s.files.remove p).2 :=
      (FileTree.trimmed_remove s.files hp).confined hwithin.files.sound
    show Site.Within s₀ (s.delete p).2
    unfold Site.delete
    generalize s.files.remove p = left at hremoved ⊢
    obtain ⟨outcome, files⟩ := left
    cases outcome <;> exact hwithin.further hremoved

/-- A run in a part of the tree: its file is there, and its sink has no other. -/
structure Lodged (own : Location → Prop) (t : FileTree) (r : Run FileSink FileSource) : Prop where
  path : own r.path.destination
  sink : ∀ k, r.medium = .writing k → Houses own t k.file

theorem Lodged.confined {own own' : Location → Prop} {t t' : FileTree} {r : Run FileSink FileSource}
    (h : Lodged own t r) (hstep : Confined own' t t') : Lodged own t' r :=
  ⟨h.path, fun k hk => (h.sink k hk).confined hstep⟩

/-- What is asked of a run is done within its part. -/
theorem Lodged.perform {r : Run FileSink FileSource} (h : Lodged s.area.Owns s.files r)
    (hs : s.files.Sound) (op : Operation) :
    let left := Run.perform Site.channel r s op
    Site.Within s left.2.2 ∧ Lodged s.area.Owns left.2.2.files left.2.1 := by
  have hrefl : Site.Within s s := .refl hs
  have hbefore : (withinUpkeep s h.path).Holds r s := by
    refine ⟨rfl, ?_⟩
    cases hmedium : r.medium with
    | writing k => exact ⟨hrefl, h.sink k hmedium⟩
    | idle | reading _ | closed => exact hrefl
  have hafter := hbefore.perform op
  have hpath : s.area.Owns (Run.perform Site.channel r s op).2.1.path.destination :=
    (kept_perform (c := Site.channel) r s op).path ▸ h.path
  intro left
  change (withinUpkeep s h.path).Holds left.2.1 left.2.2 at hafter
  change s.area.Owns left.2.1.path.destination at hpath
  clear_value left
  have hstate := hafter.state
  cases hmedium : left.2.1.medium with
  | writing k =>
    rw [hmedium] at hstate
    refine ⟨hstate.1, hpath, fun k' hk' => ?_⟩
    obtain rfl := Medium.writing.inj (hmedium.symm.trans hk')
    exact hstate.2
  | idle | reading _ | closed =>
    rw [hmedium] at hstate
    exact ⟨hstate, hpath, fun k hk => nomatch hmedium.symm.trans hk⟩

/-- A run is made in the part in which its file is named. -/
theorem create_within (codec : Codec) (hs : s.files.Sound) (hp : s.area.Owns p.destination) :
    Site.Within s (create Site.channel p codec s).2 ∧
      ∀ r, (create Site.channel p codec s).1 = .ok r → r.path = p ∧
        Lodged s.area.Owns (create Site.channel p codec s).2.files r := by
  have hopen : Site.channel.openOutput p s = Site.openOutput p s := rfl
  unfold create
  rw [hopen]
  rcases Site.openOutput_made p s with ⟨f, hrefused⟩ | ⟨l, n, files, hmade, hopened⟩
  · rw [hrefused]
    exact ⟨.refl hs, fun r hr => (nomatch hr)⟩
  · rw [hopened]
    have hl : s.area.Owns l := FileTree.location_of_find hmade.find ▸ hp
    refine ⟨.of_files (hmade.confined hs hl), fun r hr => ?_⟩
    obtain rfl := Except.ok.inj hr
    refine ⟨rfl, hp, fun k hk => ?_⟩
    obtain rfl := Medium.writing.inj hk
    exact hmade.houses hs hl

end Runs

/-! ### Households -/

/-- A text that does not lead up, where there is one. -/
def Chore.Forward : Chore → Prop
  | .name extra => Area.Forward extra
  | _ => True

instance : DecidablePred Chore.Forward
  | .name extra => inferInstanceAs (Decidable (Area.Forward extra))
  | .make _ _ | .ask _ _ | .cleanup => isTrue trivial

/-- What a household has is in its part of the tree. -/
structure Household.Settled (h : Household) (t : FileTree) : Prop where
  created : ∀ root ∈ h.area.created, root ∈ h.area.roots
  names : ∀ p ∈ h.names, h.area.Owns p.destination
  runs : ∀ r ∈ h.runs, r.path ∈ h.names ∧ Lodged h.area.Owns t r

namespace Household

variable {h : Household} {t t' : FileTree} {own : Location → Prop}

/-- Neighbours do not unsettle a household. -/
theorem Settled.confined (hh : h.Settled t) (hstep : Confined own t t') : h.Settled t' :=
  ⟨hh.created, hh.names, fun r hr => ⟨(hh.runs r hr).1, (hh.runs r hr).2.confined hstep⟩⟩

/-- What is left of a household and its tree when its area has worked within its part. -/
theorem Settled.within (hh : h.Settled t) {s : Site} (hs : Site.Within ⟨t, h.area⟩ s) :
    Settled { h with area := s.area } s.files := by
  have howns : s.area.Owns = h.area.Owns := hs.owns
  refine ⟨fun root hroot => ?_, fun p hp => ?_, fun r hr => ?_⟩
  · rw [show Household.area { h with area := s.area } = s.area from rfl, hs.roots]
    exact (hs.created root hroot).elim (hh.created root) id
  · show s.area.Owns _
    rw [howns]
    exact hh.names p hp
  · refine ⟨(hh.runs r hr).1, ?_⟩
    show Lodged s.area.Owns _ _
    rw [howns]
    exact (hh.runs r hr).2.confined hs.files

/-- **A household works within its part of the tree**, and is settled there afterwards. -/
theorem Settled.attend (hh : h.Settled t) (ht : t.Sound) {chore : Chore} (hchore : chore.Forward) :
    let left := h.attend t chore
    Site.Within ⟨t, h.area⟩ ⟨left.2, left.1.area⟩ ∧ left.1.Settled left.2 := by
  have hrefl : Site.Within ⟨t, h.area⟩ ⟨t, h.area⟩ := .refl ht
  cases chore with
  | cleanup =>
    have hcleanup := Site.cleanup_within (s := ⟨t, h.area⟩) ht hh.created
    exact ⟨hcleanup, hh.within hcleanup⟩
  | name extra =>
    obtain ⟨hwithin, hpath⟩ := Site.nextFile_within (s := ⟨t, h.area⟩) ht hchore
    simp only [Household.attend]
    generalize Site.nextFile ⟨t, h.area⟩ extra = left at hwithin hpath ⊢
    obtain ⟨outcome, s⟩ := left
    have hsettled := hh.within hwithin
    cases outcome with
    | error f => exact ⟨hwithin, hsettled⟩
    | ok p =>
      refine ⟨hwithin, hsettled.created, ?_, fun r hr => ?_⟩
      · refine List.forall_mem_append.2 ⟨hsettled.names, List.forall_mem_singleton.2 ?_⟩
        show s.area.Owns _
        rw [hwithin.owns]
        exact hpath p rfl
      · exact ⟨List.mem_append_left _ (hsettled.runs r hr).1, (hsettled.runs r hr).2⟩
  | make file codec =>
    simp only [Household.attend]
    cases hfile : h.names[file]? with
    | none => exact ⟨hrefl, hh⟩
    | some p =>
      have hp := List.mem_of_getElem? hfile
      obtain ⟨hwithin, hmade⟩ :=
        create_within (s := ⟨t, h.area⟩) codec ht (hh.names p hp)
      dsimp only
      generalize create Site.channel p codec ⟨t, h.area⟩ = left at hwithin hmade ⊢
      obtain ⟨outcome, s⟩ := left
      have hsettled := hh.within hwithin
      cases outcome with
      | error f => exact ⟨hwithin, hsettled⟩
      | ok r =>
        obtain ⟨hpath, hlodged⟩ := hmade r rfl
        refine ⟨hwithin, hsettled.created, hsettled.names, ?_⟩
        refine List.forall_mem_append.2
          ⟨hsettled.runs, List.forall_mem_singleton.2 ⟨hpath ▸ hp, ?_⟩⟩
        show Lodged s.area.Owns _ _
        rw [hwithin.owns]
        exact hlodged
  | ask place op =>
    simp only [Household.attend]
    cases hplace : h.runs[place]? with
    | none => exact ⟨hrefl, hh⟩
    | some r =>
      obtain ⟨hname, hlodged⟩ := hh.runs r (List.mem_of_getElem? hplace)
      obtain ⟨hwithin, hleft⟩ := Lodged.perform (s := ⟨t, h.area⟩) hlodged ht op
      have hpath := (kept_perform (c := Site.channel) r ⟨t, h.area⟩ op).path
      dsimp only at hwithin hleft hpath ⊢
      generalize perform Site.channel r ⟨t, h.area⟩ op = left at hwithin hleft hpath ⊢
      have hsettled := hh.within hwithin
      refine ⟨hwithin, hsettled.created, hsettled.names, fun q hq => ?_⟩
      rcases List.mem_or_eq_of_mem_set hq with hq | rfl
      · exact hsettled.runs q hq
      · refine ⟨hpath ▸ hname, ?_⟩
        show Lodged left.2.2.area.Owns _ _
        rw [hwithin.owns]
        exact hleft

end Household

/-! ### Neighbourhoods -/

/-- A chore whose text does not lead up, or a new area. -/
def Happening.Forward : Happening → Prop
  | .settle _ _ => True
  | .chore _ x => x.Forward

instance : DecidablePred Happening.Forward
  | .settle _ _ => isTrue trivial
  | .chore _ x => inferInstanceAs (Decidable x.Forward)

namespace Neighbourhood

variable {g : Neighbourhood}

/-- Every household is settled, on a sound tree. -/
structure Orderly (g : Neighbourhood) : Prop where
  sound : g.files.Sound
  settled : ∀ h ∈ g.households, h.Settled g.files

/-- A new area makes at most its private directory. -/
theorem grown_start (config : SpillConfig) (temporary : Path) (t : FileTree) :
    FileTree.Grown t (Area.start config temporary t).2 := by
  have hmade := FileTree.grown_makeDirectory t temporary
  unfold Area.start
  split
  · exact .refl t
  · dsimp only
    split
    · split
      · rename_i heq
        rw [heq] at hmade
        exact hmade
      · rename_i heq
        rw [heq] at hmade
        exact hmade
    · exact .refl t

theorem orderly_attend (hg : g.Orderly) {happening : Happening} (hforward : happening.Forward) :
    (g.attend happening).Orderly := by
  cases happening with
  | settle config temporary =>
    have hgrown := grown_start config temporary g.files
    simp only [attend]
    rcases hstart : Area.start config temporary g.files with ⟨outcome, files⟩
    rw [hstart] at hgrown
    have hstep : Confined (fun _ => False) g.files files := hgrown.confined hg.sound
    have hold : ∀ h ∈ g.households, h.Settled files := fun h hh => (hg.settled h hh).confined hstep
    cases outcome with
    | error f => exact ⟨hstep.sound, hold⟩
    | ok area =>
      refine ⟨hstep.sound, List.forall_mem_append.2 ⟨hold, List.forall_mem_singleton.2 ?_⟩⟩
      refine ⟨fun root hroot => ?_, fun p hp => (nomatch hp), fun r hr => (nomatch hr)⟩
      rw [show Household.area ⟨area, [], []⟩ = area from rfl, (Area.new_start hstart).created] at hroot
      exact nomatch hroot
  | chore place chore =>
    simp only [attend]
    cases hplace : g.households[place]? with
    | none => exact hg
    | some h =>
      obtain ⟨hwithin, hsettled⟩ :=
        (hg.settled h (List.mem_of_getElem? hplace)).attend hg.sound hforward
      dsimp only
      refine ⟨hwithin.files.sound, fun q hq => ?_⟩
      rcases List.mem_or_eq_of_mem_set hq with hq | rfl
      · exact (hg.settled q hq).confined hwithin.files
      · exact hsettled

theorem orderly_attendAll (hg : g.Orderly) {happenings : List Happening}
    (hforward : ∀ x ∈ happenings, x.Forward) : (g.attendAll happenings).Orderly := by
  induction happenings generalizing g with
  | nil => exact hg
  | cons x xs ih =>
    exact ih (orderly_attend hg (hforward x (List.mem_cons_self ..)))
      fun y hy => hforward y (List.mem_cons_of_mem _ hy)

/-- What one household does stays within its part of the tree, chore by chore. -/
theorem confined_chores (hg : g.Orderly) {i : Nat} {a : Household} (ha : g.households[i]? = some a)
    {chores : List Chore} (hchores : ∀ x ∈ chores, x.Forward) :
    Confined a.area.Owns g.files (g.attendAll (chores.map (.chore i))).files := by
  induction chores generalizing g a with
  | nil => exact .refl hg.sound
  | cons x xs ih =>
    have hforward := hchores x (List.mem_cons_self ..)
    obtain ⟨hwithin, -⟩ := (hg.settled a (List.mem_of_getElem? ha)).attend hg.sound hforward
    have hnext : g.attend (.chore i x)
        = ⟨(a.attend g.files x).2, g.households.set i (a.attend g.files x).1⟩ := by
      simp only [attend, ha]
    have hplace : (g.attend (.chore i x)).households[i]? = some (a.attend g.files x).1 := by
      rw [hnext]
      exact List.getElem?_set_self (List.getElem?_eq_some_iff.1 ha).1
    have horderly : (g.attend (.chore i x)).Orderly := orderly_attend hg hforward
    have hrest := ih horderly hplace fun y hy => hchores y (List.mem_cons_of_mem _ hy)
    rw [hwithin.owns, hnext] at hrest
    show Confined _ _ ((g.attend (.chore i x)).attendAll _).files
    rw [hnext]
    exact hwithin.files.trans hrest

end Neighbourhood

/-- **Spill areas whose directories are apart do not share files.**  On every sound tree, whatever
areas were started there and whatever was done in each, in any order and with any outcome, as
long as no text behind a number leads up: for two areas of which no directory of the one is at
or below one of the other, no two of their paths lead to the same place; the runs of each are
in files at or below its directories; and whatever is then done in the one, be it that files
are named, runs are made and used, or its directories removed, every file at or below the
directories of the other stays and holds what it held. -/
theorem areas_keep_apart {t : FileTree} (ht : t.Sound) {happenings : List Happening}
    (hforward : ∀ x ∈ happenings, x.Forward) {i j : Nat} {a b : Household}
    (ha : (Neighbourhood.attendAll happenings ⟨t, []⟩).households[i]? = some a)
    (hb : (Neighbourhood.attendAll happenings ⟨t, []⟩).households[j]? = some b)
    (hapart : a.area.Apart b.area) {chores : List Chore} (hchores : ∀ x ∈ chores, x.Forward) :
    let g := Neighbourhood.attendAll happenings ⟨t, []⟩
    let g' := g.attendAll (chores.map (.chore i))
    (∀ p ∈ a.names, ∀ q ∈ b.names, p.destination ≠ q.destination) ∧
    (∀ r ∈ b.runs, r.path ∈ b.names ∧ b.area.Owns r.path.destination) ∧
    ∀ l n, b.area.Owns l → g.files.entry? l = some (.file n) →
      g'.files.entry? l = some (.file n) ∧ g'.files.contentsOf n = g.files.contentsOf n := by
  intro g g'
  have horderly : g.Orderly :=
    Neighbourhood.orderly_attendAll ⟨ht, fun _ hh => absurd hh List.not_mem_nil⟩ hforward
  have hsettled := horderly.settled b (List.mem_of_getElem? hb)
  have hconfined := Neighbourhood.confined_chores horderly ha hchores
  refine ⟨fun p hp q hq hsame => ?_, fun r hr => ?_, fun l n hl hfile => ?_⟩
  · have hown := (horderly.settled a (List.mem_of_getElem? ha)).names p hp
    exact hapart.disjoint hown (hsame ▸ hsettled.names q hq)
  · exact ⟨(hsettled.runs r hr).1, (hsettled.runs r hr).2.path⟩
  · have hother : ¬a.area.Owns l := fun hown => hapart.disjoint hown hl
    exact ⟨hconfined.file hother hfile, hconfined.contents l n hother hfile⟩

/-! ### Two areas -/

/-- An area in one directory, everything else being standard. -/
def inDirectory (directory operatorId : String) : SpillConfig :=
  { SpillConfig.standard with directories := [.ofText directory], operatorId }

/-- In the second of two areas a pair was written; then the first names a file. -/
def beginnings (first second : SpillConfig) (extra : Option String) : List Happening :=
  [.settle first ⟨[]⟩, .settle second ⟨[]⟩, .chore 1 (.name none), .chore 1 (.make 0 ⟨.none⟩),
    .chore 1 (.ask 0 (.add pair)), .chore 1 (.ask 0 .finish), .chore 0 (.name extra)]

/-- What the first file holds that a household named, if it is there. -/
def Neighbourhood.firstFile? (g : Neighbourhood) (place : Nat) : Option Bytes := do
  let h ← g.households[place]?
  g.files.contentsAt? (← h.names[0]?)

/-- The directories of the operators, and the names that they gave. -/
def Neighbourhood.ground (g : Neighbourhood) : List (List Path × List Path) :=
  g.households.map fun h => (h.area.roots, h.names)

/-- Operators of different names in one directory: the first makes a run and removes its directory
with it, and the file of the second stays as it was. -/
theorem neighbours_keep_apart :
    let g := Neighbourhood.attendAll
      (beginnings (inDirectory "d" "sort-1") (inDirectory "d" "sort-2") none) ⟨.empty, []⟩
    let g' := g.attendAll ([.make 0 ⟨.none⟩, .cleanup].map (.chore 0))
    let l := ["d", "sort-2", "spill0"].map Text.Utf8.encode
    ∃ a b, g.households[0]? = some a ∧ g.households[1]? = some b ∧ a.area.Apart b.area ∧
      g.files.entry? l = some (.file 0) ∧ g'.files.entry? l = some (.file 0) ∧
      g'.files.contentsOf 0 = g.files.contentsOf 0 := by
  intro g g' l
  have hground : g.ground = [([.ofText "d/sort-1"], [.ofText "d/sort-1/spill0"]),
      ([.ofText "d/sort-2"], [.ofText "d/sort-2/spill0"])] := by decide +kernel
  have hfile : g.files.entry? l = some (.file 0) := by decide +kernel
  obtain ⟨a, b, hhouseholds, ha, hb⟩ := eq_pair_of_map hground
  have hroots : a.area.roots = [.ofText "d/sort-1"] := congrArg Prod.fst ha
  have hroots' : b.area.roots = [.ofText "d/sort-2"] := congrArg Prod.fst hb
  have hapart : a.area.Apart b.area := by
    unfold Area.Apart
    rw [hroots, hroots']
    decide
  have howns : b.area.Owns l := by
    refine ⟨.ofText "d/sort-2", ?_, by decide⟩
    rw [hroots']
    exact List.mem_singleton_self _
  have hfirst : g.households[0]? = some a := congrArg (·[0]?) hhouseholds
  have hsecond : g.households[1]? = some b := congrArg (·[1]?) hhouseholds
  obtain ⟨-, -, hkept⟩ := areas_keep_apart FileTree.sound_empty (by decide) hfirst hsecond hapart
    (show ∀ x ∈ [.make 0 ⟨.none⟩, .cleanup], Chore.Forward x by decide)
  obtain ⟨hentry, hcontents⟩ := hkept l 0 howns hfile
  exact ⟨a, b, hfirst, hsecond, hapart, hfile, hentry, hcontents⟩

/-- **Without the conditions areas meet.**  Two sets that are told nothing but the same directory
name the same file: a run that is made in the one empties that of the other, and a cleanup
removes it.  The same happens where the directory of one operator is below that of the other,
and the text behind a number of the latter leads there.  And a text that leads up names a file
of another area, though the directories of the two are apart. -/
theorem areas_meet :
    SpillConfig.ofVariables (fun name =>
      if name = SpillConfig.directoriesVariable then some (Text.Utf8.encode "d") else none)
        = .ok (inDirectory "d" "xsort") ∧
    (let g := Neighbourhood.attendAll
      (beginnings (inDirectory "d" "xsort") (inDirectory "d" "xsort") none) ⟨.empty, []⟩
    g.households.map (·.names) = [[.ofText "d/xsort/spill0"], [.ofText "d/xsort/spill0"]] ∧
    (g.firstFile? 1).map List.isEmpty = some false ∧
    (g.attend (.chore 0 (.make 0 ⟨.none⟩))).firstFile? 1 = some [] ∧
    (g.attend (.chore 0 .cleanup)).firstFile? 1 = none) ∧
    (let g := Neighbourhood.attendAll (beginnings (inDirectory "d" "a")
      (inDirectory "d/a" "spill0_x") (some "x/spill0")) ⟨.empty, []⟩
    g.households.map (·.names) = [[.ofText "d/a/spill0_x/spill0"], [.ofText "d/a/spill0_x/spill0"]] ∧
    (g.firstFile? 1).map List.isEmpty = some false ∧
    (g.attend (.chore 0 (.make 0 ⟨.none⟩))).firstFile? 1 = some [] ∧
    (g.attend (.chore 0 .cleanup)).firstFile? 1 = none) ∧
    (let g := Neighbourhood.attendAll (beginnings (inDirectory "d" "a")
      (inDirectory "d/a/spill0_x/../.." "b") (some "x/../../b/spill0")) ⟨.empty, []⟩
    (∃ a b, g.households = [a, b] ∧ a.area.Apart b.area ∧ a.names = b.names) ∧
    (g.firstFile? 1).map List.isEmpty = some false ∧
    (g.attend (.chore 0 (.make 0 ⟨.none⟩))).firstFile? 1 = some []) := by
  refine ⟨by decide +kernel, by decide +kernel, by decide +kernel, ?_, by decide +kernel⟩
  obtain ⟨a, b, hhouseholds, ha, hb⟩ := eq_pair_of_map (show Neighbourhood.ground
      (Neighbourhood.attendAll (beginnings (inDirectory "d" "a")
        (inDirectory "d/a/spill0_x/../.." "b") (some "x/../../b/spill0")) ⟨.empty, []⟩)
    = [([.ofText "d/a"], [.ofText "d/a/spill0_x/../../b/spill0"]),
      ([.ofText "d/a/spill0_x/../../b"], [.ofText "d/a/spill0_x/../../b/spill0"])] by decide +kernel)
  refine ⟨a, b, hhouseholds, ?_, (congrArg Prod.snd ha).trans (congrArg Prod.snd hb).symm⟩
  unfold Area.Apart
  rw [show a.area.roots = _ from congrArg Prod.fst ha, show b.area.roots = _ from congrArg Prod.fst hb]
  decide

end ExternalSort.Run
