/-
Files that are left alone.

A run has one file, under one path.  What else happens in the tree leaves that file alone as
long as no directory goes, the entry stays and the contents stay: `Keeps`.  Whatever happens
in a spill area is of one of three kinds: directories are made where there was nothing
(`Grown`), a file is made anew (`Made`), or something is done to the file of some run
(`Beside`).  Each of them keeps every other file, because in a sound tree a file has one name
and one number.
-/
import ExternalSort.Proofs.Storage.Naming
import ExternalSort.Proofs.Storage.Reliable

namespace ExternalSort.Storage

open Fault

namespace FileTree

variable {t t' t'' : FileTree} {p : Path} {l m : Location} {n k : Nat}

/-! ### Entries and contents -/

theorem entry?_erase (hl : l ≠ []) : FileTree.entry? (t.erase l) l = none := by
  rw [ entry?, if_neg hl, erase, List.lookup_eq_none_iff]
  intro e he
  have hne : e.1 ≠ l := of_decide_eq_true (List.mem_filter.1 he).2
  exact bne_iff_ne.2 (Ne.symm hne)

theorem entry?_erase_ne (h : m ≠ l) : FileTree.entry? (t.erase l) m = t.entry? m := by
  unfold entry?
  simp only [erase, lookup_filter_ne h]

theorem contentsOf_setContents_ne (t : FileTree) (h : k ≠ n) (bs : Bytes) :
    (t.setContents n bs).contentsOf k = t.contentsOf k := by
  have hne : (k == n) = false := by simpa using h
  rw [contentsOf, setContents, List.lookup_cons, hne]
  simp only [lookup_filter_ne h, contentsOf]

/-- A path that leads to a file leads to its name in a directory. -/
theorem find_eq_file_iff : t.find p = .ok (l, .file n) ↔
    ∃ parent name, t.follow p = .ok (.named parent name false) ∧ l = parent ++ [name] ∧
      t.entry? l = some (.file n) := by
  constructor
  · intro h
    unfold find at h
    split at h
    · exact nomatch h
    · exact nomatch (Prod.mk.inj (Except.ok.inj h)).2
    · rename_i parent name trailing hfollow
      split at h
      · exact nomatch h
      · exact nomatch (Prod.mk.inj (Except.ok.inj h)).2
      · rename_i k hentry
        split at h
        · exact nomatch h
        · rename_i hshut
          obtain ⟨rfl, hfile⟩ := Prod.mk.inj (Except.ok.inj h)
          rw [Bool.not_eq_true] at hshut
          exact ⟨parent, name, hshut ▸ hfollow, rfl, by rw [hentry, hfile]⟩
  · rintro ⟨parent, name, hfollow, rfl, hentry⟩
    simp only [find, hfollow, hentry, Bool.false_eq_true, if_false]

/-- A path that leads anywhere has no step, or is followed up to its last one. -/
theorem follow_eq_ok {place : Place} (h : t.follow p = .ok place) :
    (p.names = [] ∧ place = .directory []) ∨
    ∃ before last l, p.names = before ++ [last] ∧ t.walk before = .ok l ∧
      ((last = Path.dot ∧ place = .directory l) ∨
        (last = Path.dotDot ∧ place = .directory l.dropLast) ∨
        (last ≠ Path.dot ∧ last ≠ Path.dotDot ∧ place = .named l last p.endsOpen)) := by
  unfold follow at h
  split at h
  · exact nomatch h
  split at h
  · exact nomatch h
  split at h
  · rename_i hnames
    split at h
    · exact .inl ⟨List.reverse_eq_nil_iff.1 hnames, (Except.ok.inj h).symm⟩
    · exact nomatch h
  rename_i last before hnames
  split at h
  · exact nomatch h
  rename_i l hwalk
  refine .inr ⟨before.reverse, last, l, ?_, hwalk, ?_⟩
  · rw [← List.reverse_reverse p.names, hnames, List.reverse_cons]
  by_cases hdot : last = Path.dot
  · rw [if_pos hdot] at h
    exact .inl ⟨hdot, (Except.ok.inj h).symm⟩
  by_cases hup : last = Path.dotDot
  · rw [if_neg hdot, if_pos hup] at h
    exact .inr (.inl ⟨hup, (Except.ok.inj h).symm⟩)
  rw [if_neg hdot, if_neg hup] at h
  split at h
  · exact nomatch h
  · exact .inr (.inr ⟨hdot, hup, (Except.ok.inj h).symm⟩)

/-- A file has the name in which its path ends. -/
theorem getLast?_of_find (h : t.find p = .ok (l, .file n)) :
    l.getLast? = p.names.getLast? := by
  obtain ⟨parent, name, hfollow, rfl, -⟩ := find_eq_file_iff.1 h
  rcases follow_eq_ok hfollow with ⟨-, hplace⟩ | ⟨before, last, above, hnames, -, hlast⟩
  · exact nomatch hplace
  rcases hlast with ⟨-, hplace⟩ | ⟨-, hplace⟩ | ⟨-, -, hplace⟩
  · exact nomatch hplace
  · exact nomatch hplace
  · obtain ⟨-, rfl, -⟩ := Place.named.inj hplace
    rw [hnames, List.getLast?_concat, List.getLast?_concat]

theorem entry?_of_find (h : t.find p = .ok (l, .file n)) : t.entry? l = some (.file n) := by
  obtain ⟨_, _, _, _, hentry⟩ := find_eq_file_iff.1 h
  exact hentry

/-! ### Sound trees -/

/-- Every file has one place, and a number below that of the next new one. -/
structure Sound (t : FileTree) : Prop where
  below : ∀ {l n}, t.entry? l = some (.file n) → n < t.fresh
  single : ∀ {l m n}, t.entry? l = some (.file n) → t.entry? m = some (.file n) → l = m

theorem sound_empty : empty.Sound where
  below {l n} h := by
    change (if l = [] then some Entry.directory else none) = _ at h
    split at h <;> exact nomatch h
  single {l m n} h _ := by
    change (if l = [] then some Entry.directory else none) = _ at h
    split at h <;> exact nomatch h

/-! ### What keeps a file -/

/-- The file with a number at a location is left alone, and no directory goes. -/
structure Keeps (l : Location) (n : Nat) (t t' : FileTree) : Prop where
  directories : ∀ m, t.entry? m = some .directory → t'.entry? m = some .directory
  entry : t'.entry? l = t.entry? l
  contents : t'.contentsOf n = t.contentsOf n

/-- A file that is left alone is found where it was. -/
theorem Keeps.find (h : Keeps l n t t') (hfind : t.find p = .ok (l, .file n)) :
    t'.find p = .ok (l, .file n) := by
  obtain ⟨parent, name, hfollow, hl, hentry⟩ := find_eq_file_iff.1 hfind
  exact find_eq_file_iff.2
    ⟨parent, name, follow_of_directories h.directories hfollow, hl, h.entry.trans hentry⟩

/-! ### Directories that are made -/

/-- The second tree has more directories, where there was nothing. -/
structure Grown (t t' : FileTree) : Prop where
  entries : ∀ m, t'.entry? m = t.entry? m ∨ t.entry? m = none ∧ t'.entry? m = some .directory
  contents : t'.contents = t.contents
  fresh : t'.fresh = t.fresh

namespace Grown

theorem refl (t : FileTree) : Grown t t := ⟨fun _ => .inl rfl, rfl, rfl⟩

theorem trans (h : Grown t t') (h' : Grown t' t'') : Grown t t'' where
  entries m := by
    rcases h.entries m with hsame | ⟨hnone, hmade⟩
    · rw [← hsame]
      exact h'.entries m
    · rcases h'.entries m with hsame' | ⟨hnone', -⟩
      · exact .inr ⟨hnone, hsame'.trans hmade⟩
      · rw [hmade] at hnone'
        exact nomatch hnone'
  contents := h'.contents.trans h.contents
  fresh := h'.fresh.trans h.fresh

theorem file (h : Grown t t') : t'.entry? m = some (.file k) → t.entry? m = some (.file k) := by
  intro hentry
  rcases h.entries m with hsame | ⟨-, hmade⟩
  · rwa [hsame] at hentry
  · rw [hmade] at hentry
    exact nomatch hentry

theorem sound (h : Grown t t') (ht : t.Sound) : t'.Sound where
  below hentry := h.fresh ▸ ht.below (h.file hentry)
  single hentry hentry' := ht.single (h.file hentry) (h.file hentry')

theorem directory (h : Grown t t') (hm : t.entry? m = some .directory) :
    t'.entry? m = some .directory := by
  rcases h.entries m with hsame | ⟨hnone, -⟩
  · exact hsame.trans hm
  · rw [hnone] at hm
    exact nomatch hm

theorem keeps (h : Grown t t') (hentry : t.entry? l = some (.file n)) : Keeps l n t t' where
  directories _ := h.directory
  entry := by
    rcases h.entries l with hsame | ⟨hnone, -⟩
    · exact hsame
    · rw [hnone] at hentry
      exact nomatch hentry
  contents := by rw [contentsOf, contentsOf, h.contents]

end Grown

theorem grown_makeDirectory (t : FileTree) (p : Path) : Grown t (t.makeDirectory p).2 := by
  unfold makeDirectory
  split
  · exact .refl t
  · exact .refl t
  · split
    · exact .refl t
    · rename_i parent name _ _ _ hnone
      refine ⟨fun m => ?_, rfl, rfl⟩
      by_cases hm : m = parent ++ [name]
      · subst hm
        exact .inr ⟨hnone, entry?_insert t _ (by simp)⟩
      · exact .inl (entry?_insert_ne t _ hm)

theorem grown_makeAllFrom (t : FileTree) (p : Path) (fuel : Nat) :
    Grown t (t.makeAllFrom p fuel).2 := by
  induction fuel generalizing t p with
  | zero => exact .refl t
  | succ fuel ih =>
    have hmade := grown_makeDirectory t p
    unfold makeAllFrom
    dsimp only
    split
    · exact .refl t
    · split
      · rename_i f u heq
        rw [heq] at hmade
        split
        · split
          · exact hmade
          · rename_i parent _
            have habove := ih u parent
            split
            · rename_i heq
              rw [heq] at habove
              exact hmade.trans habove
            · rename_i v heq
              rw [heq] at habove
              have hagain := grown_makeDirectory v p
              split
              · rename_i heq
                rw [heq] at hagain
                split <;> exact (hmade.trans habove).trans hagain
              · exact (hmade.trans habove).trans hagain
        · split <;> exact hmade
      · exact hmade

theorem grown_makeAll (t : FileTree) (p : Path) : Grown t (t.makeAll p).2 :=
  grown_makeAllFrom t p _

/-! ### A file that is made anew -/

/-- The file of a path was made anew: under the number that it had, or under a new one. -/
structure Made (p : Path) (l : Location) (n : Nat) (t t' : FileTree) : Prop where
  find : t'.find p = .ok (l, .file n)
  before : t.entry? l = some (.file n) ∧ t'.fresh = t.fresh ∨
    t.entry? l = none ∧ n = t.fresh ∧ t'.fresh = t.fresh + 1
  elsewhere : ∀ m ≠ l, t'.entry? m = t.entry? m
  contents : ∀ k ≠ n, t'.contentsOf k = t.contentsOf k
  empty : t'.contentsOf n = []

namespace Made

theorem fresh_le (h : Made p l n t t') : t.fresh ≤ t'.fresh := by
  rcases h.before with ⟨-, hfresh⟩ | ⟨-, -, hfresh⟩ <;> omega

theorem sound (h : Made p l n t t') (ht : t.Sound) : t'.Sound := by
  have hentry := entry?_of_find h.find
  have hlower : n < t'.fresh := by
    rcases h.before with ⟨hfile, hfresh⟩ | ⟨-, rfl, hfresh⟩
    · exact hfresh ▸ ht.below hfile
    · omega
  -- No other location has the number.
  have hother : ∀ {m k}, m ≠ l → t'.entry? m = some (.file k) → k ≠ n := by
    intro m k hm hfile hkn
    rw [h.elsewhere m hm, hkn] at hfile
    rcases h.before with ⟨hold, -⟩ | ⟨-, rfl, -⟩
    · exact hm (ht.single hfile hold)
    · exact Nat.lt_irrefl _ (ht.below hfile)
  constructor
  case below =>
    intro m k hfile
    by_cases hm : m = l
    · rw [hm, hentry] at hfile
      obtain rfl := Entry.file.inj (Option.some.inj hfile)
      exact hlower
    · rw [h.elsewhere m hm] at hfile
      exact Nat.lt_of_lt_of_le (ht.below hfile) h.fresh_le
  case single =>
    intro m m' k hfile hfile'
    by_cases hm : m = l <;> by_cases hm' : m' = l
    · rw [hm, hm']
    · rw [hm, hentry] at hfile
      exact absurd (Entry.file.inj (Option.some.inj hfile)).symm (hother hm' hfile')
    · rw [hm', hentry] at hfile'
      exact absurd (Entry.file.inj (Option.some.inj hfile')).symm (hother hm hfile)
    · rw [h.elsewhere m hm] at hfile
      rw [h.elsewhere m' hm'] at hfile'
      exact ht.single hfile hfile'

theorem keeps (h : Made p l n t t') (ht : t.Sound) (hentry : t.entry? m = some (.file k))
    (hne : m ≠ l) : Keeps m k t t' where
  directories m' hm' := by
    refine (h.elsewhere m' ?_).trans hm'
    rintro rfl
    rcases h.before with ⟨hfile, -⟩ | ⟨hnone, -⟩
    · rw [hfile] at hm'
      exact nomatch hm'
    · rw [hnone] at hm'
      exact nomatch hm'
  entry := h.elsewhere m hne
  contents := by
    refine h.contents k ?_
    rintro rfl
    rcases h.before with ⟨hfile, -⟩ | ⟨-, rfl, -⟩
    · exact hne (ht.single hentry hfile)
    · exact Nat.lt_irrefl _ (ht.below hentry)

end Made

theorem create_made (h : t.create p = (.ok n, t')) : ∃ l, Made p l n t t' := by
  obtain ⟨hat, hempty⟩ := create_eq_ok h
  unfold create at h
  split at h
  · exact nomatch (Prod.mk.inj h).1
  · exact nomatch (Prod.mk.inj h).1
  · rename_i parent name trailing hfollow
    have hne : parent ++ [name] ≠ [] := by simp
    split at h
    · exact nomatch (Prod.mk.inj h).1
    · rename_i k hentry
      split at h
      · exact nomatch (Prod.mk.inj h).1
      · rename_i hshut
        rw [Bool.not_eq_true] at hshut
        obtain ⟨hn, rfl⟩ := Prod.mk.inj h
        obtain rfl := Except.ok.inj hn
        refine ⟨parent ++ [name], ?_, .inl ⟨hentry, rfl⟩, fun _ _ => rfl, ?_, hempty⟩
        · exact find_eq_file_iff.2 ⟨parent, name, hshut ▸ hfollow, rfl, hentry⟩
        · intro j hj
          exact contentsOf_setContents_ne t hj []
    · rename_i hentry
      split at h
      · exact nomatch (Prod.mk.inj h).1
      · rename_i hshut
        rw [Bool.not_eq_true] at hshut
        obtain ⟨hn, rfl⟩ := Prod.mk.inj h
        obtain rfl : t.fresh = n := Except.ok.inj hn
        have hnew := follow_insert (t := { t with fresh := t.fresh + 1 }) (e := .file t.fresh)
          (show _ = none from hentry) (show _ = Except.ok _ from hfollow)
        refine ⟨parent ++ [name], ?_, .inr ⟨hentry, rfl, rfl⟩, ?_, ?_, hempty⟩
        · exact find_eq_file_iff.2 ⟨parent, name, hshut ▸ hnew, rfl, entry?_insert _ _ hne⟩
        · intro m hm
          exact entry?_insert_ne _ _ hm
        · intro j hj
          exact contentsOf_setContents_ne _ hj []

theorem create_refused {f : IoFault} (h : t.create p = (.error f, t')) : t' = t := by
  unfold create at h
  split at h
  · exact (Prod.mk.inj h).2.symm
  · exact (Prod.mk.inj h).2.symm
  · split at h
    · exact (Prod.mk.inj h).2.symm
    · split at h
      · exact (Prod.mk.inj h).2.symm
      · exact nomatch (Prod.mk.inj h).1
    · split at h
      · exact (Prod.mk.inj h).2.symm
      · exact nomatch (Prod.mk.inj h).1

/-! ### What a run does to its own file -/

/-- Nothing was done but to the file with a number at a location, which may be gone. -/
structure Beside (l : Location) (n : Nat) (t t' : FileTree) : Prop where
  elsewhere : ∀ m ≠ l, t'.entry? m = t.entry? m
  entry : t'.entry? l = t.entry? l ∨ t'.entry? l = none
  contents : ∀ k ≠ n, t'.contentsOf k = t.contentsOf k
  fresh : t'.fresh = t.fresh

namespace Beside

theorem refl (t : FileTree) : Beside l n t t := ⟨fun _ _ => rfl, .inl rfl, fun _ _ => rfl, rfl⟩

theorem trans (h : Beside l n t t') (h' : Beside l n t' t'') : Beside l n t t'' where
  elsewhere m hm := (h'.elsewhere m hm).trans (h.elsewhere m hm)
  entry := by
    rcases h'.entry with hsame | hnone
    · rw [hsame]
      exact h.entry
    · exact .inr hnone
  contents k hk := (h'.contents k hk).trans (h.contents k hk)
  fresh := h'.fresh.trans h.fresh

theorem file (h : Beside l n t t') (hentry : t'.entry? m = some (.file k)) :
    t.entry? m = some (.file k) := by
  by_cases hm : m = l
  · subst hm
    rcases h.entry with hsame | hnone
    · rwa [hsame] at hentry
    · rw [hnone] at hentry
      exact nomatch hentry
  · rwa [h.elsewhere m hm] at hentry

theorem sound (h : Beside l n t t') (ht : t.Sound) : t'.Sound where
  below hentry := h.fresh ▸ ht.below (h.file hentry)
  single hentry hentry' := ht.single (h.file hentry) (h.file hentry')

theorem keeps (h : Beside l n t t') (ht : t.Sound) (hown : t.entry? l = some (.file n))
    (hentry : t.entry? m = some (.file k)) (hne : m ≠ l) : Keeps m k t t' where
  directories m' hm' := by
    refine (h.elsewhere m' ?_).trans hm'
    rintro rfl
    rw [hown] at hm'
    exact nomatch hm'
  entry := h.elsewhere m hne
  contents := by
    refine h.contents k ?_
    rintro rfl
    exact hne (ht.single hentry hown)

end Beside

/-- Removing a file takes its entry away. -/
theorem remove_file (h : t.find p = .ok (l, .file n)) : t.remove p = (.ok (), t.erase l) := by
  obtain ⟨parent, name, hfollow, rfl, hentry⟩ := find_eq_file_iff.1 h
  unfold remove
  rw [hfollow]
  simp only [hentry, Bool.false_eq_true, if_false]

theorem beside_erase (h : t.find p = .ok (l, .file n)) : Beside l n t (t.erase l) := by
  obtain ⟨parent, name, -, rfl, -⟩ := find_eq_file_iff.1 h
  exact ⟨fun _ hm => entry?_erase_ne hm, .inr (entry?_erase (by simp)), fun _ _ => rfl, rfl⟩

/-- Where a file was removed nothing is found any more. -/
theorem find_erase (h : t.find p = .ok (l, .file n)) :
    (t.erase l).find p = .error (.system SystemCode.noEntry) := by
  obtain ⟨parent, name, hfollow, rfl, hentry⟩ := find_eq_file_iff.1 h
  have hstill : (t.erase (parent ++ [name])).follow p = .ok (.named parent name false) := by
    refine follow_of_directories ?_ hfollow
    intro m hm
    refine (entry?_erase_ne ?_).trans hm
    rintro rfl
    rw [hentry] at hm
    exact nomatch hm
  simp only [find, hstill, entry?_erase (show parent ++ [name] ≠ [] by simp)]

/-- Nothing but the contents of the file with a number was changed. -/
structure Rewritten (n : Nat) (t t' : FileTree) : Prop where
  entries : t'.entries = t.entries
  contents : ∀ k ≠ n, t'.contentsOf k = t.contentsOf k
  fresh : t'.fresh = t.fresh

namespace Rewritten

theorem refl (t : FileTree) : Rewritten n t t := ⟨rfl, fun _ _ => rfl, rfl⟩

theorem trans (h : Rewritten n t t') (h' : Rewritten n t' t'') : Rewritten n t t'' :=
  ⟨h'.entries.trans h.entries, fun k hk => (h'.contents k hk).trans (h.contents k hk),
    h'.fresh.trans h.fresh⟩

theorem find (h : Rewritten n t t') (p : Path) : t'.find p = t.find p := by
  obtain ⟨entries, contents, fresh⟩ := t
  obtain ⟨entries', contents', fresh'⟩ := t'
  obtain rfl : entries' = entries := h.entries
  rfl

theorem beside (h : Rewritten n t t') : Beside l n t t' where
  elsewhere m _ := by rw [ entry?, entry?, h.entries]
  entry := .inl (by rw [ entry?, entry?, h.entries])
  contents := h.contents
  fresh := h.fresh

theorem writeAt (t : FileTree) (n offset : Nat) (bs : Bytes) :
    Rewritten n t (t.writeAt n offset bs) :=
  ⟨rfl, fun _ hk => contentsOf_setContents_ne t hk _, rfl⟩

/-- What a sink writes goes to its own file. -/
theorem flush (k : FileSink) (t : FileTree) : Rewritten k.file t (k.flush t).2 := by
  unfold FileSink.flush
  split
  · exact .refl t
  · exact .writeAt t k.file k.offset _

theorem write (k : FileSink) (bs : Bytes) (t : FileTree) :
    Rewritten k.file t (k.write bs t).2 ∧ (k.write bs t).1.file = k.file := by
  have hroom : ∃ k' t', (if k.capacity - k.held.length < bs.length then k.flush t else (k, t))
      = (k', t') ∧ Rewritten k.file t t' ∧ k'.file = k.file := by
    split
    · exact ⟨_, _, rfl, flush k t, FileSink.flush_file k t⟩
    · exact ⟨k, t, rfl, .refl t, rfl⟩
  obtain ⟨k', t', hroom, hflush, hfile⟩ := hroom
  unfold FileSink.write
  dsimp only
  split
  · exact ⟨.refl t, rfl⟩
  · rw [hroom]
    dsimp only
    split
    · exact ⟨hflush.trans (hfile ▸ .writeAt t' k'.file _ _), hfile⟩
    · exact ⟨hflush, hfile⟩

end Rewritten

end FileTree

/-! ### A file that is named -/

namespace Site

open FileTree

/-- What asking for a name comes to, when it is the turn of a certain directory. -/
inductive Naming (s : Site) (extra : Option String) (root : Path) : Except Fault Path × Site → Prop
  /-- The directory cannot be made. -/
  | refused {f : IoFault} {files : FileTree} (hmake : s.files.makeAll root = (.error f, files)) :
    Naming s extra root (.error (.io f), { files, area := { s.area with asked := s.area.asked + 1 } })
  /-- The directory was made before. -/
  | known (hknown : s.area.created.any (·.same root) = true) :
    Naming s extra root (.ok (root.join (Area.fileName s.area.given extra)),
      { s with area := { s.area with asked := s.area.asked + 1, given := s.area.given + 1 } })
  | made {files : FileTree} (hmake : s.files.makeAll root = (.ok (), files))
    (hunknown : ¬s.area.created.any (·.same root) = true) :
    Naming s extra root (.ok (root.join (Area.fileName s.area.given extra)),
      { files, area := { s.area with
          asked := s.area.asked + 1, given := s.area.given + 1
          created := s.area.created ++ [root] } })

/-- Without directories no name can be given. -/
theorem nextFile_rootless {s : Site} (h : s.area.root? = none) (extra : Option String) :
    s.nextFile extra
      = (.error (.internal (.note "spill area without directories")), s) := by
  rw [nextFile, h]

/-- There is no other way for it to come out. -/
theorem nextFile_naming {s : Site} {root : Path} (hroot : s.area.root? = some root)
    (extra : Option String) : Naming s extra root (s.nextFile extra) := by
  unfold nextFile
  rw [hroot]
  dsimp only
  unfold ensure
  dsimp only
  by_cases hknown : s.area.created.any (·.same root) = true
  · rw [if_pos hknown]
    exact .known hknown
  · rw [if_neg hknown]
    rcases hmake : s.files.makeAll root with ⟨outcome, files⟩
    cases outcome with
    | error f => exact .refused hmake
    | ok _ => exact .made hmake hknown

/-- What naming a file comes to: directories may have been made, and the name has a number
that no name had before. -/
structure Named (s : Site) (left : Except Fault Path × Site) : Prop where
  files : Grown s.files left.2.files
  config : left.2.area.config = s.area.config
  written : left.2.area.written = s.area.written
  consumed : left.2.area.consumed = s.area.consumed
  given : s.area.given ≤ left.2.area.given
  path : ∀ p, left.1 = .ok p → left.2.area.given = s.area.given + 1 ∧
    p.names.getLast? = some (Area.fileName s.area.given none)

theorem nextFile_named (s : Site) : Named s (s.nextFile none) := by
  cases hroot : s.area.root? with
  | none =>
    rw [nextFile_rootless hroot]
    exact ⟨.refl _, rfl, rfl, rfl, Nat.le_refl _, fun p h => (nomatch h)⟩
  | some root =>
    have hgrown := grown_makeAll s.files root
    have hnaming := nextFile_naming hroot none
    have hname : ∀ p, (.ok (root.join (Area.fileName s.area.given none)) : Except Fault Path) = .ok p →
        p.names.getLast? = some (Area.fileName s.area.given none) := by
      intro p h
      rw [← Except.ok.inj h]
      exact Area.getLast?_names_spill root _
    generalize s.nextFile none = left at hnaming ⊢
    cases hnaming with
    | refused hmake =>
      rw [hmake] at hgrown
      exact ⟨hgrown, rfl, rfl, rfl, Nat.le_refl _, fun p h => (nomatch h)⟩
    | known _ => exact ⟨.refl _, rfl, rfl, rfl, Nat.le_succ _, fun p h => ⟨rfl, hname p h⟩⟩
    | made hmake =>
      rw [hmake] at hgrown
      exact ⟨hgrown, rfl, rfl, rfl, Nat.le_succ _, fun p h => ⟨rfl, hname p h⟩⟩

end Site
end ExternalSort.Storage
