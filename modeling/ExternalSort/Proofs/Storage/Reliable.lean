/-
Channels that do not fail.

`Reliable` says of a channel what a run relies on: a file that was made anew is empty, a
sink takes whatever it is given, what it took is stored once it is closed, and a source
gives what is stored.  The states in which this is so are named by three relations; how a
channel keeps its files is its own business.  The files of a spill area are such a channel:
neither the buffers of its streams nor the sizes of single calls show in what is stored.
-/
import ExternalSort.Proofs.Sequence
import ExternalSort.Proofs.Storage.Stream
import ExternalSort.Storage.Area

namespace ExternalSort.Storage

variable {ω κ ρ : Type}

/-- A channel on which nothing fails. -/
structure Reliable (c : Channel ω κ ρ) where
  /-- A sink on the file of a path has taken certain octets. -/
  writing : Path → κ → ω → Bytes → Prop
  /-- Certain octets are stored under a path. -/
  stored : Path → ω → Bytes → Prop
  /-- A source on the file of a path has certain octets left to give. -/
  reading : Path → ρ → ω → Bytes → Prop
  openOutput : ∀ {p s k s'}, c.openOutput p s = (.ok k, s') → writing p k s' []
  sink : ∀ p, c.sink.Takes fun x taken => writing p x.1 x.2 taken
  closeSink : ∀ {p k s taken}, writing p k s taken →
    ∃ s', c.closeSink k (c.tallyWrite (c.written k) s) = (.ok (), s') ∧ stored p s' taken
  openInput : ∀ {p s bs}, stored p s bs →
    ∃ r s', c.openInput p s = (.ok r, s') ∧ reading p r s' bs
  source : ∀ p, c.source.Gives fun x rest => reading p x.1 x.2 rest

/-! ### Names and contents of files -/

namespace FileTree

variable {t : FileTree}

theorem contentsOf_setContents (t : FileTree) (n : Nat) (bs : Bytes) :
    (t.setContents n bs).contentsOf n = bs := by
  rw [contentsOf, setContents, List.lookup_cons, beq_self_eq_true]
  rfl

theorem fileAt?_setContents (t : FileTree) (n : Nat) (bs : Bytes) (p : Path) :
    (t.setContents n bs).fileAt? p = t.fileAt? p := rfl

/-- Octets written at the end of a file are put behind what it holds. -/
theorem contentsOf_writeAt_end {n offset : Nat} (h : offset = (t.contentsOf n).length)
    (bs : Bytes) : (t.writeAt n offset bs).contentsOf n = t.contentsOf n ++ bs := by
  subst h
  rw [writeAt, contentsOf_setContents, overlay, List.take_of_length_le (Nat.le_refl _),
    Nat.sub_self, List.drop_of_length_le (Nat.le_add_right ..)]
  simp

/-- Keys that are kept are looked up as before, the others are gone. -/
theorem lookup_filter {α β : Type} [BEq α] [LawfulBEq α] (keep : α → Bool) (entries : List (α × β))
    (l : α) : (entries.filter (keep ·.1)).lookup l = if keep l then entries.lookup l else none := by
  induction entries with
  | nil => split <;> rfl
  | cons e r ih =>
    obtain ⟨m, x⟩ := e
    rw [List.filter_cons]
    dsimp only
    by_cases hm : keep m
    · rw [if_pos hm, List.lookup_cons, List.lookup_cons, ih]
      by_cases hl : l = m
      · subst hl
        rw [beq_self_eq_true]
        exact (if_pos hm).symm
      · rw [beq_false_of_ne hl]
    · rw [if_neg hm, List.lookup_cons, ih]
      by_cases hl : l = m
      · subst hl
        rw [if_neg hm, if_neg hm]
      · rw [beq_false_of_ne hl]

theorem lookup_filter_ne {α β : Type} [BEq α] [LawfulBEq α] [DecidableEq α]
    {entries : List (α × β)} {l l' : α} (h : l' ≠ l) :
    (entries.filter (·.1 ≠ l)).lookup l' = entries.lookup l' := by
  rw [lookup_filter (fun m => decide (m ≠ l)), if_pos (decide_eq_true h)]

theorem entry?_insert (t : FileTree) {l : Location} (e : Entry) (hl : l ≠ []) :
    FileTree.entry? (t.insert l e) l = some e := by
  rw [ entry?, if_neg hl, insert, List.lookup_cons, beq_self_eq_true]

theorem entry?_insert_ne (t : FileTree) {l l' : Location} (e : Entry) (h : l' ≠ l) :
    FileTree.entry? (t.insert l e) l' = t.entry? l' := by
  have hne : (l' == l) = false := by simp [h]
  unfold entry?
  rw [insert, List.lookup_cons, hne]
  simp only [lookup_filter_ne h]

/-- A step to a directory can be taken as long as the directory stands. -/
theorem step_of_directories {t' : FileTree}
    (hkept : ∀ l, t.entry? l = some .directory → t'.entry? l = some .directory)
    {l l' : Location} {name : Bytes} (h : t.step l name = .ok l') : t'.step l name = .ok l' := by
  unfold step at h ⊢
  by_cases hdot : name = Path.dot
  · rwa [if_pos hdot] at h ⊢
  by_cases hup : name = Path.dotDot
  · rwa [if_neg hdot, if_pos hup] at h ⊢
  by_cases hlong : greatestName < name.length
  · rwa [if_neg hdot, if_neg hup, if_pos hlong] at h ⊢
  rw [if_neg hdot, if_neg hup, if_neg hlong] at h ⊢
  split at h
  · rename_i hentry
    rwa [hkept _ hentry]
  · exact nomatch h
  · exact nomatch h

theorem foldlM_step_of_directories {t' : FileTree}
    (hkept : ∀ l, t.entry? l = some .directory → t'.entry? l = some .directory) :
    ∀ (names : List Bytes) (l l' : Location), names.foldlM t.step l = .ok l' →
      names.foldlM t'.step l = .ok l' := by
  intro names
  induction names with
  | nil => intro l l' h; exact h
  | cons name r ih =>
    intro l l' h
    rw [List.foldlM_cons] at h ⊢
    obtain ⟨m, hm, hrest⟩ := Sequence.bind_eq_ok.1 h
    rw [step_of_directories hkept hm]
    exact ih m l' hrest

/-- **A path that was followed is followed the same way as long as its directories stand.** -/
theorem follow_of_directories {t' : FileTree}
    (hkept : ∀ l, t.entry? l = some .directory → t'.entry? l = some .directory)
    {p : Path} {place : Place} (h : t.follow p = .ok place) : t'.follow p = .ok place := by
  unfold follow at h ⊢
  by_cases hzero : p.octets.contains 0
  · rw [if_pos hzero] at h
    exact nomatch h
  by_cases hlong : greatestPath < p.octets.length
  · rw [if_neg hzero, if_pos hlong] at h
    exact nomatch h
  rw [if_neg hzero, if_neg hlong] at h ⊢
  cases hnames : p.names.reverse with
  | nil => rwa [hnames] at h
  | cons last before =>
    rw [hnames] at h
    simp only at h ⊢
    cases hwalk : t.walk before.reverse with
    | error f => rw [hwalk] at h; exact nomatch h
    | ok l =>
      have hwalk' : t'.walk before.reverse = .ok l :=
        foldlM_step_of_directories hkept before.reverse [] l hwalk
      rw [hwalk] at h
      rwa [hwalk']

/-- A new entry is not in the way of any path that leads somewhere already. -/
theorem follow_insert {loc : Location} {e : Entry} {p : Path} {place : Place}
    (hfree : t.entry? loc = none) (h : t.follow p = .ok place) :
    (t.insert loc e).follow p = .ok place := by
  refine follow_of_directories ?_ h
  intro l hl
  have hne : l ≠ loc := by
    rintro rfl
    rw [hfree] at hl
    exact nomatch hl
  rwa [entry?_insert_ne t e hne]

/-- A file that was made anew stands under its path and is empty. -/
theorem create_eq_ok {p : Path} {n : Nat} {t' : FileTree} (h : t.create p = (.ok n, t')) :
    t'.fileAt? p = some n ∧ t'.contentsOf n = [] := by
  unfold create at h
  cases hfollow : t.follow p with
  | error f => rw [hfollow] at h; exact nomatch h
  | ok place =>
    rw [hfollow] at h
    cases place with
    | directory l => exact nomatch h
    | named parent name trailing =>
      simp only at h
      have hne : parent ++ [name] ≠ [] := by simp
      cases hentry : t.entry? (parent ++ [name]) with
      | some e =>
        rw [hentry] at h
        cases e with
        | directory => exact nomatch h
        | file m =>
          cases trailing with
          | true => exact nomatch h
          | false =>
            simp only [Bool.false_eq_true, if_false, Prod.mk.injEq, Except.ok.injEq] at h
            obtain ⟨rfl, rfl⟩ := h
            refine ⟨?_, contentsOf_setContents ..⟩
            rw [fileAt?_setContents, fileAt?, find, hfollow]
            simp only [hentry, Bool.false_eq_true, if_false]
      | none =>
        rw [hentry] at h
        cases trailing with
        | true => exact nomatch h
        | false =>
          simp only [Bool.false_eq_true, if_false, Prod.mk.injEq, Except.ok.injEq] at h
          obtain ⟨rfl, rfl⟩ := h
          refine ⟨?_, contentsOf_setContents ..⟩
          have hnew := follow_insert (t := { t with fresh := t.fresh + 1 }) (e := .file t.fresh)
            (show _ = none from hentry) (show _ = Except.ok _ from hfollow)
          rw [fileAt?_setContents, fileAt?, find, hnew]
          simp only [entry?_insert _ _ hne, Bool.false_eq_true, if_false]
          rfl

end FileTree

/-! ### The files of a spill area -/

namespace FileSink

variable {k : FileSink} {t : FileTree} {taken : Bytes}

/-- What the file of a sink holds and what the sink holds back are what the sink took. -/
structure Took (k : FileSink) (t : FileTree) (taken : Bytes) : Prop where
  octets : t.contentsOf k.file ++ k.held = taken
  offset : k.offset = (t.contentsOf k.file).length

/-- Octets that go to the file stand behind those that went before. -/
theorem Took.emit (h : k.Took t taken) {bs : Bytes} (hheld : k.held = [] ∨ bs = []) :
    (k.emit bs t).1.Took (k.emit bs t).2 (taken ++ bs) := by
  have hcontents := FileTree.contentsOf_writeAt_end h.offset bs
  refine ⟨?_, ?_⟩
  · show (t.writeAt k.file k.offset bs).contentsOf k.file ++ k.held = _
    rw [hcontents, ← h.octets]
    rcases hheld with hheld | rfl
    · rw [hheld, List.append_nil, List.append_nil]
    · rw [List.append_nil, List.append_nil]
  · show k.offset + bs.length = ((t.writeAt k.file k.offset bs).contentsOf k.file).length
    rw [hcontents, List.length_append, h.offset]

/-- Writing out what is held changes nothing about what was taken. -/
theorem Took.flush (h : k.Took t taken) :
    (k.flush t).1.Took (k.flush t).2 taken ∧ (k.flush t).1.held = [] := by
  unfold FileSink.flush
  by_cases hheld : k.held.isEmpty
  · rw [if_pos hheld]
    exact ⟨h, List.isEmpty_iff.1 hheld⟩
  · rw [if_neg hheld]
    have hcontents := FileTree.contentsOf_writeAt_end h.offset k.held
    refine ⟨⟨?_, ?_⟩, rfl⟩
    · show (t.writeAt k.file k.offset k.held).contentsOf k.file ++ [] = _
      rw [hcontents, List.append_nil, h.octets]
    · show k.offset + k.held.length = ((t.writeAt k.file k.offset k.held).contentsOf k.file).length
      rw [hcontents, List.length_append, h.offset]

theorem flush_file (k : FileSink) (t : FileTree) : (k.flush t).1.file = k.file := by
  unfold FileSink.flush
  split <;> rfl

theorem flush_fileAt? (k : FileSink) (t : FileTree) (p : Path) :
    (k.flush t).2.fileAt? p = t.fileAt? p := by
  unfold FileSink.flush
  split <;> rfl

theorem Took.hold (h : k.Took t taken) (bs : Bytes) (n : Nat) :
    ({ k with held := k.held ++ bs, written := n } : FileSink).Took t (taken ++ bs) := by
  refine ⟨?_, h.offset⟩
  show t.contentsOf k.file ++ (k.held ++ bs) = _
  rw [← List.append_assoc, h.octets]

/-- Before octets are put behind what a sink holds, it makes room for them. -/
theorem Took.room (h : k.Took t taken) (bs : Bytes) (p : Path) :
    ∃ k' t', (if k.capacity - k.held.length < bs.length then k.flush t else (k, t)) = (k', t') ∧
      k'.Took t' taken ∧ k'.file = k.file ∧ t'.fileAt? p = t.fileAt? p ∧
      (k'.held = [] ∨ bs.length ≤ k'.capacity - k'.held.length) := by
  have hflush := h.flush
  by_cases hover : k.capacity - k.held.length < bs.length
  · rw [if_pos hover]
    exact ⟨_, _, rfl, hflush.1, flush_file k t, flush_fileAt? k t p, .inl hflush.2⟩
  · rw [if_neg hover]
    exact ⟨k, t, rfl, h, rfl, rfl, .inr (Nat.not_lt.1 hover)⟩

/-- Whatever a sink holds back or writes out, it took what it was given. -/
theorem Took.write (h : k.Took t taken) (bs : Bytes) (p : Path) :
    (k.write bs t).1.Took (k.write bs t).2 (taken ++ bs) ∧ (k.write bs t).1.file = k.file ∧
      (k.write bs t).2.fileAt? p = t.fileAt? p := by
  unfold FileSink.write
  dsimp only
  by_cases hspare : bs.length < k.capacity - k.held.length
  · rw [if_pos hspare]
    exact ⟨h.hold bs _, rfl, rfl⟩
  · obtain ⟨k', t', hroom, htook, hfile, hat, hheld⟩ := h.room bs p
    rw [if_neg hspare, hroom]
    dsimp only
    by_cases hlarge : k'.capacity ≤ bs.length
    · have hempty : k'.held = [] ∨ bs = [] := by
        by_cases hne : bs = []
        · exact .inr hne
        · have hpos := List.length_pos_iff.2 hne
          exact .inl (hheld.elim id fun hheld => List.length_eq_zero_iff.1 (by omega))
      rw [if_pos hlarge]
      exact ⟨⟨(htook.emit hempty).octets, (htook.emit hempty).offset⟩, hfile, hat⟩
    · rw [if_neg hlarge]
      exact ⟨htook.hold bs _, hfile, hat⟩

end FileSink

namespace FileSource

variable {r : FileSource} {t : FileTree} {rest : Bytes}

/-- What a source holds and what its file has behind that are what it has left to give. -/
def Leaves (r : FileSource) (t : FileTree) (rest : Bytes) : Prop :=
  ∃ n, r.file = some n ∧ r.held ++ (t.contentsOf n).drop r.offset = rest

theorem Leaves.read (h : r.Leaves t rest) (n : Nat) :
    ∃ got, (r.read n t).1 = .ok got ∧ got <+: rest ∧ got.length ≤ n ∧
      (0 < n → got = [] → rest = []) ∧ (r.read n t).2.Leaves t (rest.drop got.length) := by
  obtain ⟨file, hfile, hrest⟩ := h
  unfold FileSource.read
  by_cases hheld : r.held.isEmpty
  · rw [if_pos hheld, hfile]
    rw [List.isEmpty_iff.1 hheld, List.nil_append] at hrest
    have hgot : t.readAt file r.offset (max n r.capacity) = rest.take (max n r.capacity) := by
      rw [FileTree.readAt, hrest]
    have hpart : (rest.take (max n r.capacity)).take n = rest.take n := by
      rw [List.take_take, Nat.min_eq_left (Nat.le_max_left ..)]
    have hend : 0 < n → rest.take n = [] → rest = [] := by
      intro hn h
      exact (List.take_eq_nil_iff.1 h).resolve_left (by omega)
    have hdrop : ∀ m, (t.contentsOf file).drop (r.offset + m) = rest.drop m := by
      intro m
      rw [← List.drop_drop, hrest]
    dsimp only
    rw [hgot, hpart]
    by_cases hlarge : r.capacity ≤ n
    · rw [if_pos hlarge]
      refine ⟨_, rfl, List.take_prefix n rest, List.length_take_le n rest, hend, file, rfl, ?_⟩
      show r.held ++ (t.contentsOf file).drop (r.offset + (rest.take n).length) = _
      rw [List.isEmpty_iff.1 hheld, List.nil_append, hdrop]
    · rw [if_neg hlarge]
      refine ⟨_, rfl, List.take_prefix n rest, List.length_take_le n rest, hend, file, rfl, ?_⟩
      show (rest.take (max n r.capacity)).drop n
        ++ (t.contentsOf file).drop (r.offset + (rest.take (max n r.capacity)).length) = _
      rw [hdrop, Bytes.drop_length_take, Bytes.drop_length_take,
        Bytes.drop_take_append_drop (Nat.le_max_left ..)]
  · rw [if_neg hheld]
    have hlength : (r.held.take n).length ≤ r.held.length := by
      rw [List.length_take]
      omega
    refine ⟨_, rfl, ?_, List.length_take_le n r.held, ?_, file, hfile, ?_⟩
    · rw [← hrest]
      exact (List.take_prefix n r.held).trans (List.prefix_append ..)
    · intro hn h
      rcases List.take_eq_nil_iff.1 h with h | h
      · omega
      · exact absurd (List.isEmpty_iff.2 h) hheld
    · show r.held.drop n ++ (t.contentsOf file).drop r.offset = _
      rw [← hrest, List.drop_append_of_le_length hlength, Bytes.drop_length_take]

end FileSource

namespace Site

theorem fileAt?_eq {t : FileTree} {p : Path} {n : Nat} (h : t.fileAt? p = some n) :
    ∃ l, t.find p = .ok (l, .file n) := by
  unfold FileTree.fileAt? at h
  split at h
  · rename_i l m hfind
    exact ⟨l, by rw [hfind, Option.some.inj h]⟩
  · exact nomatch h

/-- **The files of a spill area do not fail**: what a sink took is what a source gives. -/
def reliable : Reliable channel where
  writing p k s taken := s.files.fileAt? p = some k.file ∧ k.Took s.files taken
  stored p s bs := s.files.contentsAt? p = some bs
  reading _ r s rest := r.Leaves s.files rest
  openOutput {p s k s'} h := by
    change openOutput p s = _ at h
    unfold openOutput at h
    split at h
    · exact nomatch h
    · rename_i n files hcreate
      obtain ⟨hat, hempty⟩ := FileTree.create_eq_ok hcreate
      obtain ⟨hk, hs'⟩ := Prod.mk.inj h
      obtain rfl := Except.ok.inj hk
      subst hs'
      refine ⟨hat, ?_, ?_⟩
      · show files.contentsOf n ++ [] = []
        rw [hempty, List.append_nil]
      · show 0 = (files.contentsOf n).length
        rw [hempty, List.length_nil]
  sink p := by
    rintro ⟨k, s⟩ taken bs ⟨hat, htook⟩ hne
    obtain ⟨hwrite, hfile, hsame⟩ := htook.write bs p
    obtain ⟨b, more, rfl⟩ := List.exists_cons_of_ne_nil hne
    refine ⟨more.length, _, rfl, Nat.lt_succ_self _, ?_, ?_⟩
    · show (k.write (b :: more) s.files).2.fileAt? p = some (k.write (b :: more) s.files).1.file
      rw [hsame, hfile, hat]
    · rw [List.take_of_length_le (show (b :: more).length ≤ more.length + 1 from Nat.le_refl _)]
      exact hwrite
  closeSink {p k s taken} h := by
    obtain ⟨hat, htook⟩ := h
    obtain ⟨hflush, hheld⟩ := htook.flush
    refine ⟨_, rfl, ?_⟩
    show ((k.flush s.files).2.fileAt? p).map (k.flush s.files).2.contentsOf = some taken
    have hcontents := hflush.octets
    rw [FileSink.flush_file, hheld, List.append_nil] at hcontents
    rw [FileSink.flush_fileAt?, hat, Option.map_some, hcontents]
  openInput {p s bs} h := by
    obtain ⟨n, hat, hcontents⟩ := Option.map_eq_some_iff.1 h
    obtain ⟨l, hfind⟩ := fileAt?_eq hat
    refine ⟨.start (some n) s.area.config.bufferSize, s, ?_, n, rfl, hcontents⟩
    show openInput p s = _
    rw [openInput, hfind]
  source _ := by
    rintro ⟨r, s⟩ rest n hrest hn
    obtain ⟨got, hgot, hprefix, hlen, hend, hleaves⟩ := hrest.read n
    refine ⟨got, ((r.read n s.files).2, s), ?_, hprefix, hlen, hend hn, hleaves⟩
    show ((r.read n s.files).1, (r.read n s.files).2, s) = _
    rw [hgot]

end Site
end ExternalSort.Storage
