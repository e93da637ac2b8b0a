/-
A configuration comes back from a document.

Each setting is a member of an object: a key, a colon and the value as it is printed.  Members may
stand in any order, with blanks around their parts and keys written in any way, and among them may
be members with other keys and any values.  What is read is the draft of the settings that are
there.

The members are read one after the other, and the draft is what carries the induction: after each
member it is that of the settings so far.
-/
import ExternalSort.Proofs.Config.Settings
import ExternalSort.Proofs.Json.Value
import ExternalSort.Proofs.Text.Utf8

namespace ExternalSort

/-! ### Printed values -/

namespace Json

variable {b rest : List Char}

theorem commaSeparated_cons (p : List Char) (ps : List (List Char)) :
    commaSeparated (p :: ps) = p ++ ps.flatMap (',' :: ·) := by
  induction ps generalizing p with
  | nil => exact (List.append_nil p).symm
  | cons q ps ih =>
    rw [commaSeparated, ih q, List.flatMap_cons]
    · rfl
    · exact fun h => nomatch h

/-- There are at least as many characters as parts. -/
theorem length_le_flatMap_comma (ps : List (List Char)) :
    ps.length ≤ (ps.flatMap (',' :: ·)).length := by
  induction ps with
  | nil => exact Nat.le_refl 0
  | cons p ps ih =>
    rw [List.flatMap_cons, List.length_append, List.length_cons, List.length_cons]
    omega

theorem quote_append (s : String) (rest : List Char) :
    quote s ++ rest = '"' :: (s.toList.flatMap escape ++ '"' :: rest) := by
  simp [quote]

/-- Behind a member there is a comma or the end of the object. -/
theorem follows_flatMap_comma (ps : List (List Char)) (rest : List Char) :
    Follows (ps.flatMap (',' :: ·) ++ '\x7d' :: rest) := by
  cases ps with
  | nil => exact follows_cons (.inr (.inr (.inr rfl))) rest
  | cons p ps => exact follows_cons (.inr (.inl rfl)) _

end Json

namespace SpillConfig

open Json Text

variable {c : SpillConfig} {b rest : List Char}

theorem readText_quote (expected s : String) (hb : Blanks b) (rest : List Char) :
    readText expected (b ++ (quote s ++ rest)) = .ok (s, rest) := by
  rw [readText, quote_append, skipBlank_mark hb rfl]
  exact text_quote s rest

theorem readSize_ofNat {n : Nat} (hn : n ≤ greatestBuffer) (hb : Blanks b)
    (hrest : Follows rest) :
    readSize (b ++ ((Numeral.ofNat n).toList ++ rest)) = .ok (n, rest) := by
  have hread := number_ofNat hn hrest
  obtain ⟨d, ds, hdigits⟩ : ∃ d ds, (Numeral.ofNat n).toList = d :: ds := by
    rw [Numeral.toList_ofNat]
    exact List.exists_cons_of_ne_nil Nat.toDigits_ne_nil
  have hd : d.isDigit = true :=
    Numeral.isDigit_of_mem_ofNat (n := n) (hdigits ▸ List.mem_cons_self ..)
  have hminus : d ≠ '-' := by
    rintro rfl
    exact nomatch hd
  rw [hdigits, List.cons_append] at hread ⊢
  rw [readSize, skipBlank_mark hb (isBlank_of_isDigit hd)]
  show (if _ ∨ _ then _ else _) = _
  rw [if_pos (.inr (by rw [Numeral.isDigit_eq]; exact hd))]
  -- A number that begins with a digit has no sign.
  have hsigned : signedNumber (d :: (ds ++ rest)) = .ok (.natural n, rest) := by
    unfold signedNumber
    split
    · rename_i heq
      exact absurd (List.cons.inj heq).1 hminus
    · exact hread
  rw [hsigned]
  rfl

theorem readPathsFrom_step {first : Bool} {cs tail : List Char} {s : String} {fuel : Nat}
    {ps : List Storage.Path} (hnext : nextItem first cs = .ok (some (quote s ++ tail)))
    (hrest : readPathsFrom false fuel tail = .ok (ps, rest)) :
    readPathsFrom first (fuel + 1) cs = .ok (.ofText s :: ps, rest) := by
  rw [readPathsFrom, hnext, Sequence.ok_bind]
  dsimp only
  rw [show quote s ++ tail = [] ++ (quote s ++ tail) from rfl,
    readText_quote "path string" s blanks_nil, Sequence.ok_bind]
  dsimp only
  rw [hrest]
  rfl

theorem readPathsFrom_rest (texts : List String) {fuel : Nat} (hfuel : texts.length < fuel)
    (rest : List Char) :
    readPathsFrom false fuel ((texts.map quote).flatMap (',' :: ·) ++ ']' :: rest)
      = .ok (texts.map .ofText, rest) := by
  induction texts generalizing fuel with
  | nil =>
    obtain ⟨fuel, rfl⟩ := Nat.exists_eq_add_one_of_ne_zero (Nat.ne_zero_of_lt hfuel)
    rfl
  | cons s texts ih =>
    obtain ⟨fuel, rfl⟩ := Nat.exists_eq_add_one_of_ne_zero (Nat.ne_zero_of_lt hfuel)
    rw [List.map_cons, List.flatMap_cons, List.cons_append, List.cons_append, List.append_assoc]
    exact readPathsFrom_step rfl (ih (by simpa using hfuel))

theorem readPaths_list (texts : List String) (hb : Blanks b) (rest : List Char) :
    readPaths (b ++ (list (texts.map quote) ++ rest)) = .ok (texts.map .ofText, rest) := by
  have hlist : list (texts.map quote) ++ rest
      = '[' :: (commaSeparated (texts.map quote) ++ ']' :: rest) := by
    simp [list]
  rw [readPaths, hlist, skipBlank_mark hb rfl]
  show readPathsFrom true _ _ = _
  cases texts with
  | nil => rfl
  | cons s texts =>
    rw [List.map_cons, commaSeparated_cons, List.append_assoc]
    refine readPathsFrom_step rfl (readPathsFrom_rest texts ?_ rest)
    have hlength := length_le_flatMap_comma (texts.map quote)
    simp only [List.length_append, List.length_cons, List.length_map] at hlength ⊢
    omega

theorem readCompression_quote (compression : Compression) (hb : Blanks b) (rest : List Char) :
    readCompression (b ++ (quote compression.documentName ++ rest)) = .ok (compression, rest) := by
  rw [readCompression, quote_append, skipBlank_mark hb rfl]
  show readName _ = _
  rw [← quote_append, readName, show quote _ ++ rest = [] ++ (quote _ ++ rest) from rfl,
    readText_quote _ _ blanks_nil, Sequence.ok_bind]
  dsimp only
  rw [Compression.ofDocument?_documentName]

/-! ### Members -/

/-- The key of a setting. -/
def Setting.key : Setting → String
  | .directories => "directories"
  | .operatorId => "operator_id"
  | .bufferSize => "buffer_size"
  | .compression => "compression"

/-- The value of a setting as it is printed. -/
def printed (c : SpillConfig) : Setting → List Char
  | .directories => list ((c.directoryTexts.getD []).map quote)
  | .operatorId => quote c.operatorId
  | .bufferSize => (Numeral.ofNat c.bufferSize).toList
  | .compression => quote c.compression.documentName

/-- The blanks around the parts of a member. -/
structure Layout where
  beforeKey : List Char
  beforeColon : List Char
  beforeValue : List Char
  afterValue : List Char
  blanks : Blanks beforeKey ∧ Blanks beforeColon ∧ Blanks beforeValue ∧ Blanks afterValue

/-- No blanks. -/
def Layout.tight : Layout := ⟨[], [], [], [], blanks_nil, blanks_nil, blanks_nil, blanks_nil⟩

/-- A member of a document: a setting, or a value that nobody asked for. -/
inductive Member where
  | setting (s : Setting) (key : Writing s.key) (layout : Layout)
  | other {key : String} (unknown : ∀ s : Setting, s.key ≠ key) (writing : Writing key)
    {value : List Char} (shape : WellFormed .value value) (layout : Layout)

namespace Member

def setting? : Member → Option Setting
  | setting s _ _ => some s
  | other .. => none

def key : Member → String
  | setting s _ _ => s.key
  | @other key .. => key

def writing : (m : Member) → Writing m.key
  | setting _ writing _ => writing
  | other _ writing _ _ => writing

def value (c : SpillConfig) : Member → List Char
  | setting s _ _ => c.printed s
  | @other _ _ _ value _ _ => value

def layout : Member → Layout
  | setting _ _ layout | other _ _ _ layout => layout

/-- The member from behind the quotes of its key. -/
def behindKey (c : SpillConfig) (m : Member) : List Char :=
  m.layout.beforeColon ++ ':' :: (m.layout.beforeValue ++ (m.value c ++ m.layout.afterValue))

/-- The member from behind the opening quote of its key. -/
def opened (c : SpillConfig) (m : Member) : List Char :=
  m.writing.written ++ '"' :: m.behindKey c

def written (c : SpillConfig) (m : Member) : List Char :=
  m.layout.beforeKey ++ '"' :: m.opened c

theorem text_opened (m : Member) (rest : List Char) :
    text (m.opened c ++ rest) = .ok (m.key, m.behindKey c ++ rest) := by
  rw [opened, List.append_assoc]
  exact m.writing.text_eq _

theorem skipBlank_written (m : Member) (rest : List Char) :
    skipBlank (m.written c ++ rest) = '"' :: (m.opened c ++ rest) := by
  rw [written, List.append_assoc]
  exact skipBlank_mark m.layout.blanks.1 rfl _

end Member

/-- The settings among members. -/
def settings (members : List Member) : List Setting := members.filterMap Member.setting?

theorem settings_nil : settings [] = [] := rfl

theorem settings_cons (m : Member) (members : List Member) :
    settings (m :: members) = m.setting?.toList ++ settings members := by
  cases m <;> rfl

/-- The texts of the directories, where all of them are texts. -/
theorem directoryTexts_eq (htexts : ∀ d ∈ c.directories, ∃ s, d = Storage.Path.ofText s) :
    ∃ texts, c.directoryTexts = some texts ∧ texts.map Storage.Path.ofText = c.directories := by
  unfold directoryTexts
  generalize c.directories = directories at htexts ⊢
  induction directories with
  | nil => exact ⟨[], rfl, rfl⟩
  | cons d ds ih =>
    obtain ⟨⟨s, rfl⟩, hds⟩ := List.forall_mem_cons.1 htexts
    obtain ⟨texts, hsome, hmap⟩ := ih hds
    have hs : (Storage.Path.ofText s).toText? = some s := Utf8.decode?_encode s
    refine ⟨s :: texts, ?_, congrArg (Storage.Path.ofText s :: ·) hmap⟩
    rw [List.mapM_cons, hs, hsome]
    rfl

/-- At the end of the object nothing more is read. -/
theorem readMembers_end (d : Draft) (first : Bool) (fuel : Nat) (hb : Blanks b)
    (rest : List Char) : readMembers d first (fuel + 1) (b ++ '\x7d' :: rest) = .ok (d, rest) := by
  have hmark : skipBlank (b ++ '\x7d' :: rest) = '\x7d' :: rest := skipBlank_mark hb rfl rest
  have hnext : nextKey first (b ++ '\x7d' :: rest) = .ok none := by
    rw [nextKey, hmark]
    rfl
  have hend : endObject (b ++ '\x7d' :: rest) = .ok rest := by
    rw [endObject, hmark]
    rfl
  rw [readMembers, hnext, Sequence.ok_bind]
  dsimp only
  rw [hend]
  rfl

/-- Behind a comma the next member begins. -/
theorem nextKey_comma (m : Member) (hb : Blanks b) (rest : List Char) :
    nextKey false (b ++ ',' :: (m.written c ++ rest)) = .ok (some (m.opened c ++ rest)) := by
  have hcomma := skipBlank_mark hb (show Json.isBlank ',' = false from rfl) (m.written c ++ rest)
  simp [nextKey, hcomma, m.skipBlank_written]

section Reading

variable (hbuffer : c.bufferSize ≤ greatestBuffer)
  (htexts : ∀ d ∈ c.directories, ∃ s, d = Storage.Path.ofText s) {seen : List Setting}

include hbuffer htexts

/-- A setting that was not there before is read from its member. -/
theorem readMember_setting {s : Setting} (hnew : s ∉ seen) {b b' : List Char} (hb : Blanks b)
    (hb' : Blanks b') (hrest : Follows rest) :
    readMember (c.draft (· ∈ seen)) s.key (b ++ ':' :: (b' ++ (c.printed s ++ rest)))
      = .ok (c.draft (· ∈ seen ++ [s]), rest) := by
  have hcolon := colon_append hb (b' ++ (c.printed s ++ rest))
  cases s with
  | directories =>
    obtain ⟨texts, hsome, hdirectories⟩ := directoryTexts_eq htexts
    have hread := readPaths_list texts hb' rest
    simp only [printed, hsome, Option.getD_some] at hcolon ⊢
    simp [readMember, Setting.key, draft, hnew, hcolon, hread, Sequence.ok_bind, hdirectories]
  | operatorId =>
    have hread := readText_quote "a string" c.operatorId hb' rest
    simp only [printed] at hcolon ⊢
    simp [readMember, Setting.key, draft, hnew, hcolon, hread, Sequence.ok_bind]
  | bufferSize =>
    have hread := readSize_ofNat hbuffer hb' hrest
    simp only [printed] at hcolon ⊢
    simp [readMember, Setting.key, draft, hnew, hcolon, hread, Sequence.ok_bind]
  | compression =>
    have hread := readCompression_quote c.compression hb' rest
    simp only [printed] at hcolon ⊢
    simp [readMember, Setting.key, draft, hnew, hcolon, hread, Sequence.ok_bind]

omit hbuffer htexts in
/-- Any other member leaves the draft as it is. -/
theorem readMember_other (d : Draft) {key : String} (hkey : ∀ s : Setting, s.key ≠ key)
    {value : List Char} (hvalue : WellFormed .value value) {b b' : List Char} (hb : Blanks b)
    (hb' : Blanks b') (hrest : Follows rest) :
    readMember d key (b ++ ':' :: (b' ++ (value ++ rest))) = .ok (d, rest) := by
  have hdirectories : key ≠ "directories" := (hkey .directories).symm
  have hoperator : key ≠ "operator_id" := (hkey .operatorId).symm
  have hsize : key ≠ "buffer_size" := (hkey .bufferSize).symm
  have hcompression : key ≠ "compression" := (hkey .compression).symm
  rw [readMember, if_neg hdirectories, if_neg hoperator, if_neg hsize, if_neg hcompression,
    colon_append hb, Sequence.ok_bind, skip_of_wellFormed hvalue hb' hrest]
  rfl

/-- A member is read up to the blanks behind its value. -/
theorem readMember_behindKey (m : Member) (hnew : ∀ s ∈ m.setting?, s ∉ seen)
    (hrest : Follows rest) :
    readMember (c.draft (· ∈ seen)) m.key (m.behindKey c ++ rest)
      = .ok (c.draft (· ∈ seen ++ m.setting?.toList), m.layout.afterValue ++ rest) := by
  obtain ⟨-, hcolon, hvalue, hafter⟩ := m.layout.blanks
  have hrest' := hafter.follows hrest
  have hbehind : m.behindKey c ++ rest = m.layout.beforeColon ++ ':' ::
      (m.layout.beforeValue ++ (m.value c ++ (m.layout.afterValue ++ rest))) := by
    simp [Member.behindKey]
  rw [hbehind]
  cases m with
  | setting s _ _ => exact readMember_setting hbuffer htexts (hnew s rfl) hcolon hvalue hrest'
  | other unknown writing shape layout =>
    rw [show seen ++ (Member.other unknown writing shape layout).setting?.toList = seen from
      List.append_nil seen]
    exact readMember_other _ unknown shape hcolon hvalue hrest'

/-- After a member come the members behind it, or the end of the object. -/
theorem readMembers_step {first : Bool} {cs tail : List Char} {fuel : Nat} {m : Member}
    {result : Draft × List Char} (hnew : ∀ s ∈ m.setting?, s ∉ seen)
    (hnext : nextKey first cs = .ok (some (m.opened c ++ tail))) (htail : Follows tail)
    (hrest : readMembers (c.draft (· ∈ seen ++ m.setting?.toList)) false fuel
      (m.layout.afterValue ++ tail) = .ok result) :
    readMembers (c.draft (· ∈ seen)) first (fuel + 1) cs = .ok result := by
  rw [readMembers, hnext, Sequence.ok_bind]
  dsimp only
  rw [m.text_opened, Sequence.ok_bind]
  dsimp only
  rw [readMember_behindKey hbuffer htexts m hnew htail, Sequence.ok_bind]
  exact hrest

/-- Behind a member all the others are read, each after its comma, and the end of the object. -/
theorem readMembers_rest (members : List Member) {fuel : Nat} (hfuel : members.length < fuel)
    (honce : (seen ++ settings members).Nodup) (hb : Blanks b)
    (rest : List Char) :
    readMembers (c.draft (· ∈ seen)) false fuel
        (b ++ ((members.map (·.written c)).flatMap (',' :: ·) ++ '\x7d' :: rest))
      = .ok (c.draft (· ∈ seen ++ settings members), rest) := by
  induction members generalizing fuel seen b with
  | nil =>
    obtain ⟨fuel, rfl⟩ := Nat.exists_eq_add_one_of_ne_zero (Nat.ne_zero_of_lt hfuel)
    rw [settings_nil, List.append_nil]
    exact readMembers_end _ _ _ hb rest
  | cons m members ih =>
    obtain ⟨fuel, rfl⟩ := Nat.exists_eq_add_one_of_ne_zero (Nat.ne_zero_of_lt hfuel)
    have hsettings : seen ++ settings (m :: members)
        = (seen ++ m.setting?.toList) ++ settings members := by
      rw [settings_cons, List.append_assoc]
    rw [hsettings] at honce ⊢
    have hnew : ∀ s ∈ m.setting?, s ∉ seen := fun s hs hseen =>
      (List.nodup_append.1 (List.nodup_append.1 honce).1).2.2 s hseen s
        (Option.mem_toList.2 hs) rfl
    rw [List.map_cons, List.flatMap_cons, List.cons_append, List.cons_append, List.append_assoc]
    -- The blanks behind the value are left over: the members behind begin with them.
    exact readMembers_step hbuffer htexts hnew (nextKey_comma m hb _)
      (follows_flatMap_comma _ rest)
      (ih (by simpa using hfuel) honce m.layout.blanks.2.2.2)

/-- The members of a document are read, each setting into the draft. -/
theorem readMembers_commaSeparated (members : List Member)
    (honce : (settings members).Nodup) (rest : List Char) {fuel : Nat}
    (hfuel : (commaSeparated (members.map (·.written c)) ++ '\x7d' :: rest).length < fuel) :
    readMembers .empty true fuel (commaSeparated (members.map (·.written c)) ++ '\x7d' :: rest)
      = .ok (c.draft (· ∈ settings members), rest) := by
  obtain ⟨fuel, rfl⟩ := Nat.exists_eq_add_one_of_ne_zero (Nat.ne_zero_of_lt hfuel)
  have hempty : Draft.empty = c.draft (· ∈ ([] : List Setting)) := by simp [Draft.empty, draft]
  rw [hempty]
  cases members with
  | nil => exact readMembers_end _ true fuel blanks_nil rest
  | cons m members =>
    have hlength := length_le_flatMap_comma (members.map (·.written c))
    rw [List.map_cons, commaSeparated_cons, List.append_assoc] at hfuel ⊢
    simp only [List.length_append, List.length_cons, List.length_map] at hfuel hlength
    have hnext (tail : List Char) :
        nextKey true (m.written c ++ tail) = .ok (some (m.opened c ++ tail)) := by
      rw [nextKey, m.skipBlank_written]
      rfl
    rw [settings_cons] at honce ⊢
    exact readMembers_step hbuffer htexts (fun _ _ => List.not_mem_nil) (hnext _)
      (follows_flatMap_comma _ rest)
      (readMembers_rest hbuffer htexts members (by omega) honce m.layout.blanks.2.2.2 rest)

end Reading

/-! ### Documents -/

/-- A document with the members of one object, and what stands before and behind it. -/
def document (c : SpillConfig) (before : List Char) (members : List Member) (after : List Char) :
    String :=
  String.ofList (before ++ '\x7b' ::
    (commaSeparated (members.map (·.written c)) ++ '\x7d' :: after))

/-- What is read from a document are the settings in it, and the standard for the others. -/
theorem load_document (hcheck : c.check = .ok ()) (hbuffer : c.bufferSize ≤ greatestBuffer)
    (htexts : ∀ d ∈ c.directories, ∃ s, d = Storage.Path.ofText s) {before after : List Char}
    (hbefore : Blanks before) (hafter : Blanks after) {members : List Member}
    (honce : (settings members).Nodup) :
    load (.ok (Utf8.encode (c.document before members after)))
      = .ok (c.keeping (· ∈ settings members)) := by
  have hmembers := readMembers_commaSeparated hbuffer htexts members honce after
    (Nat.lt_succ_self _)
  have hend : endDocument after = .ok () := by
    rw [endDocument, ← List.append_nil after, skipBlank_append hafter]
    rfl
  have hread : readDraft (c.document before members after)
      = .ok (c.draft (· ∈ settings members)) := by
    rw [readDraft, document, String.toList_ofList, skipBlank_mark hbefore rfl]
    show (readMembers .empty true _ _ >>= fun p => endDocument p.2 >>= fun _ => .ok p.1) = _
    rw [hmembers, Sequence.ok_bind, hend]
    rfl
  rw [load, Utf8.decode?_encode]
  show ofDocument _ = _
  rw [ofDocument, hread]
  show (c.draft _).complete.checked = _
  rw [complete_draft, checked_of_check (check_keeping hcheck _)]

/-- A setting as it is printed. -/
def Setting.plain (s : Setting) : Member := .setting s (.printed s.key) .tight

/-- The settings in the order in which they are printed. -/
def Setting.all : List Setting := [.directories, .operatorId, .bufferSize, .compression]

theorem Setting.mem_all (s : Setting) : s ∈ Setting.all := by
  cases s <;> decide

theorem toDocument_eq (htexts : ∀ d ∈ c.directories, ∃ s, d = Storage.Path.ofText s) :
    c.toDocument = .ok (c.document [] (Setting.all.map Setting.plain) []) := by
  obtain ⟨texts, hsome, -⟩ := directoryTexts_eq htexts
  simp [toDocument, hsome, document, object, Setting.all, Setting.plain, commaSeparated, quote,
    Member.written, Member.opened, Member.behindKey, Member.writing, Member.value, Member.layout,
    Setting.key, Writing.printed, Layout.tight, printed]

/-- **A configuration comes back from a document.**  Take a configuration that passes the check,
with a buffer size of 64 bits and directories that are texts.  Written as a document, it is read
from it again; and so it is from any document that has its settings as members, each once, in any
order, with blanks anywhere between the parts and the keys written in any way, and among them
members that nobody asked for, with values of any kind nested as deep as they like.  From a
document that lacks some of the settings the rest comes back, and the standard in place of what
is missing. -/
theorem document_comes_back (hcheck : c.check = .ok ()) (hbuffer : c.bufferSize ≤ greatestBuffer)
    (htexts : ∀ d ∈ c.directories, ∃ s, d = Storage.Path.ofText s) :
    (∃ s, c.toDocument = .ok s ∧ load (.ok (Utf8.encode s)) = .ok c) ∧
    ∀ (before : List Char) (members : List Member) (after : List Char), Blanks before →
      Blanks after → (settings members).Nodup →
      load (.ok (Utf8.encode (c.document before members after)))
          = .ok (c.keeping (· ∈ settings members)) ∧
      ((∀ s, s ∈ settings members) →
        load (.ok (Utf8.encode (c.document before members after))) = .ok c) := by
  have hall : ∀ (before : List Char) (members : List Member) (after : List Char), Blanks before →
      Blanks after → (settings members).Nodup →
      (∀ s, s ∈ settings members) →
      load (.ok (Utf8.encode (c.document before members after))) = .ok c := by
    intro before members after hbefore hafter honce hevery
    rw [load_document hcheck hbuffer htexts hbefore hafter honce,
      keeping_all fun s => decide_eq_true (hevery s)]
  refine ⟨⟨_, toDocument_eq htexts, ?_⟩, ?_⟩
  · exact hall [] _ [] blanks_nil blanks_nil (by decide) Setting.mem_all
  · intro before members after hbefore hafter honce
    exact ⟨load_document hcheck hbuffer htexts hbefore hafter honce,
      hall before members after hbefore hafter honce⟩

/-- A configuration with quotes, letters beyond ASCII and the greatest buffer. -/
def unusual : SpillConfig :=
  ⟨[.ofText "/tmp/\"a\"", .ofText "größe"], "sort\t7", greatestBuffer, .lz4⟩

/-- Nested values. -/
theorem wellFormed_nested : WellFormed .value "\x7b\"a\": [-1.5e+3, []]\x7d".toList := by
  have hone : Digits ['1'] := digits_one rfl
  have hthree : Digits ['3'] := digits_one rfl
  have hfive : Digits ['5'] := digits_one rfl
  have hnumber : Numeric "-1.5e+3".toList :=
    .negative (.mk (.digits (by decide) hone) (.some hfive)
      (.some (.inl rfl) (.inr (.inl rfl)) hthree))
  have hspace : Blanks [' '] := by simp [Blanks, Json.isBlank]
  have hlist : WellFormed .value "[-1.5e+3, []]".toList :=
    .list (.moreElements (.element blanks_nil (.number hnumber) blanks_nil)
      (.oneElement (.element hspace (.emptyList blanks_nil) blanks_nil)))
  have hkey : Body ['a'] := .plain (by decide) (by decide) (by decide) .nil
  exact .object (.oneMember (.member blanks_nil hkey blanks_nil
    (.element hspace hlist blanks_nil)))

/-- Members in another order, one of them unknown, and none for the operator. -/
def shuffled : List Member :=
  [.setting .compression (.printed _) .tight,
    .other (by intro s; cases s <;> decide) (.printed "note") wellFormed_nested .tight,
    .setting .bufferSize (.printed _) .tight,
    .setting .directories (.printed _) .tight]

example : unusual.document [' '] shuffled ['\n'] =
    " \x7b\"compression\":\"lz4\",\"note\":\x7b\"a\": [-1.5e+3, []]\x7d," ++
    "\"buffer_size\":18446744073709551615," ++
    "\"directories\":[\"/tmp/\\\"a\\\"\",\"größe\"]\x7d\n" := by
  decide +kernel

theorem shuffled_document_comes_back : unusual.check = .ok () ∧
    unusual.bufferSize ≤ greatestBuffer ∧
    (∀ d ∈ unusual.directories, ∃ s, d = Storage.Path.ofText s) ∧
    (∃ s, unusual.toDocument = .ok s ∧ load (.ok (Utf8.encode s)) = .ok unusual) ∧
    load (.ok (Utf8.encode (unusual.document [' '] shuffled ['\n'])))
      = .ok { unusual with operatorId := "xsort" } := by
  have hcheck : unusual.check = .ok () := check_eq_ok_iff.2 (by decide +kernel)
  have hbuffer : unusual.bufferSize ≤ greatestBuffer := Nat.le_refl _
  have htexts : ∀ d ∈ unusual.directories, ∃ s, d = Storage.Path.ofText s := by
    intro d hd
    simp only [unusual, List.mem_cons, List.not_mem_nil, or_false] at hd
    rcases hd with rfl | rfl
    · exact ⟨_, rfl⟩
    · exact ⟨_, rfl⟩
  obtain ⟨hwritten, hread⟩ := document_comes_back hcheck hbuffer htexts
  refine ⟨hcheck, hbuffer, htexts, hwritten, ?_⟩
  exact (hread [' '] shuffled ['\n'] (by simp [Blanks, Json.isBlank])
    (by simp [Blanks, Json.isBlank]) (by decide)).1

end SpillConfig
end ExternalSort
