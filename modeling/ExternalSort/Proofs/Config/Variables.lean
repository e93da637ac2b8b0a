/-
A configuration comes back from variables.

Each setting is spelled in a variable of its own.  The spellings are free where people are
free: the list of directories may have empty parts anywhere, a size and the name of a
compression may have blanks around them, and the name may be in any letter case.  None of that
is seen in the configuration that is read.  A variable that is not set leaves its setting to the
standard, and nothing is read from any variables that does not pass the check.
-/
import ExternalSort.Proofs.Config.Settings
import ExternalSort.Proofs.Storage.Naming

namespace ExternalSort

/-! ### Blanks, digits and letters -/

namespace Text

/-- Blanks around a text that neither begins nor ends with one are all that goes. -/
theorem trimBlank_of_surrounded {before middle after : List Char} {s : String}
    (hs : s.toList = before ++ middle ++ after) (hbefore : ∀ c ∈ before, isBlank c)
    (hafter : ∀ c ∈ after, isBlank c) (hmiddle : ∀ c ∈ middle, isBlank c = false)
    (hne : middle ≠ []) : trimBlank s = middle := by
  have hkept : ∀ cs : List Char, cs ≠ [] → (∀ c ∈ cs, isBlank c = false) → ∀ r,
      (cs ++ r).dropWhile isBlank = cs ++ r := by
    intro cs hcs hall r
    obtain ⟨c, rest, rfl⟩ := List.exists_cons_of_ne_nil hcs
    rw [List.cons_append, List.dropWhile_cons_of_neg]
    simp [hall c (List.mem_cons_self ..)]
  have hfront : s.toList.dropWhile isBlank = middle ++ after := by
    rw [hs, List.append_assoc, List.dropWhile_append_of_pos hbefore, hkept middle hne hmiddle]
  have hback : (after.reverse ++ middle.reverse).dropWhile isBlank = middle.reverse := by
    rw [List.dropWhile_append_of_pos fun c hc => hafter c (List.mem_reverse.1 hc)]
    have := hkept middle.reverse (by simpa using hne)
      (fun c hc => hmiddle c (List.mem_reverse.1 hc)) []
    rwa [List.append_nil] at this
  rw [trimBlank, hfront, List.reverse_append, hback, List.reverse_reverse]

/-- Blank characters have no letter case. -/
theorem toLower_of_isBlank {c : Char} (h : isBlank c = true) : c.toLower = c := by
  unfold Char.toLower
  split
  · rename_i hcapital
    exfalso
    simp only [isBlank, Bool.or_eq_true, Bool.and_eq_true, decide_eq_true_eq, beq_iff_eq] at h
    simp only [ge_iff_le, UInt32.le_iff_toNat_le] at hcapital
    have hA : 'A'.val.toNat = 65 := rfl
    have hZ : 'Z'.val.toNat = 90 := rfl
    have hc : c.toNat = c.val.toNat := rfl
    omega
  · rfl

theorem isBlank_of_isDigit {c : Char} (h : c.isDigit = true) : isBlank c = false := by
  simp only [Char.isDigit, ge_iff_le, Bool.and_eq_true, decide_eq_true_eq,
    UInt32.le_iff_toNat_le] at h
  have h0 : '0'.val.toNat = 48 := rfl
  have h9 : '9'.val.toNat = 57 := rfl
  have hc : c.toNat = c.val.toNat := rfl
  rw [Bool.eq_false_iff]
  intro hblank
  simp only [isBlank, Bool.or_eq_true, Bool.and_eq_true, decide_eq_true_eq, beq_iff_eq] at hblank
  omega

end Text

/-! ### The spellings of the settings -/

namespace Compression

/-- A compression is known by each of its names, in any letter case and with blanks around. -/
theorem ofTyped?_of_spelled {c : Compression} {name s : String} (hname : (name, c) ∈ typedNames)
    {before letters after : List Char} (hs : s.toList = before ++ letters ++ after)
    (hbefore : ∀ d ∈ before, Text.isBlank d) (hafter : ∀ d ∈ after, Text.isBlank d)
    (hletters : letters.map Char.toLower = name.toList) : ofTyped? s = some c := by
  have hnames : ∀ p ∈ typedNames, p.1.toList ≠ [] ∧ p.1.toList.all (!Text.isBlank ·) = true ∧
      typedNames.lookup p.1 = some p.2 := by
    decide +kernel
  obtain ⟨hne, hplain, hlookup⟩ := hnames _ hname
  have hmiddle : ∀ d ∈ letters, Text.isBlank d = false := by
    intro d hd
    rw [Bool.eq_false_iff]
    intro hblank
    have hmem : d.toLower ∈ name.toList := hletters ▸ List.mem_map_of_mem hd
    rw [Text.toLower_of_isBlank hblank] at hmem
    have hnot : Text.isBlank d = false := by simpa using List.all_eq_true.1 hplain d hmem
    exact absurd hblank (Bool.eq_false_iff.1 hnot)
  have hsome : letters ≠ [] := by
    rintro rfl
    exact hne hletters.symm
  rw [ofTyped?, Text.trimBlank_of_surrounded hs hbefore hafter hmiddle hsome, Text.foldCase,
    hletters, String.ofList_toList]
  exact hlookup

end Compression

namespace SpillConfig

open Text

variable {c : SpillConfig} {lookup : String → Option Bytes}

/-- Octets are cut at every separator. -/
theorem cutAt_eq_splitOn (separator : UInt8) (octets : Bytes) :
    cutAt separator octets = octets.splitOn separator := by
  induction octets with
  | nil => rfl
  | cons b r ih =>
    have hcons : (b :: r).splitOn separator = if b == separator then [] :: r.splitOn separator
        else (r.splitOn separator).modifyHead (b :: ·) := List.splitOnP_cons_eq_if_modifyHead ..
    rw [cutAt, ih, hcons]
    by_cases hb : b = separator
    · rw [if_pos hb, if_pos (by simpa using hb)]
    · rw [if_neg hb, if_neg (by simpa using hb)]
      obtain ⟨part, parts, hparts⟩ := List.exists_cons_of_ne_nil (List.splitOn_ne_nil separator r)
      rw [hparts]
      rfl

/-- Parts that were joined are the directories again, the empty ones apart. -/
theorem directoryList_intercalate {parts : List Bytes} (h : ∀ p ∈ parts, listSeparator ∉ p) :
    directoryList ([listSeparator].intercalate parts)
      = (parts.filter (· ≠ [])).map Storage.Path.mk := by
  rw [directoryList, cutAt_eq_splitOn]
  by_cases hne : parts = []
  · rw [hne]
    rfl
  · rw [List.splitOn_intercalate listSeparator h hne]

/-- The variable with a setting. -/
def Setting.variable : Setting → String
  | .directories => directoriesVariable
  | .operatorId => operatorVariable
  | .bufferSize => bufferVariable
  | .compression => compressionVariable

/-- What variables hold, if they are set and spell the settings of a configuration. -/
structure Spelled (c : SpillConfig) (lookup : String → Option Bytes) : Prop where
  /-- The directories in their order, with any number of empty parts among them. -/
  directories : ∀ v, lookup directoriesVariable = some v → ∃ parts : List Bytes,
    v = [listSeparator].intercalate parts ∧
      parts.filter (· ≠ []) = c.directories.map (·.octets)
  operatorId : ∀ v, lookup operatorVariable = some v → v = Utf8.encode c.operatorId
  /-- The size in decimal, with blanks around it. -/
  bufferSize : ∀ v, lookup bufferVariable = some v → ∃ s before zeros after, v = Utf8.encode s ∧
    s.toList = before ++ (List.replicate zeros '0' ++ (Numeral.ofNat c.bufferSize).toList) ++ after ∧
      (∀ d ∈ before, isBlank d) ∧ ∀ d ∈ after, isBlank d
  /-- A name of the compression in any letter case, with blanks around it. -/
  compression : ∀ v, lookup compressionVariable = some v → ∃ s name before letters after,
    v = Utf8.encode s ∧ s.toList = before ++ letters ++ after ∧
      (name, c.compression) ∈ Compression.typedNames ∧ letters.map Char.toLower = name.toList ∧
      (∀ d ∈ before, isBlank d) ∧ ∀ d ∈ after, isBlank d

/-! ### Reading them -/

theorem Spelled.readDirectories (h : c.Spelled lookup)
    (hplain : ∀ d ∈ c.directories, listSeparator ∉ d.octets) :
    (lookup directoriesVariable).map directoryList
      = if (lookup directoriesVariable).isSome then some c.directories else none := by
  cases hvalue : lookup directoriesVariable with
  | none => rfl
  | some v =>
    obtain ⟨parts, rfl, hparts⟩ := h.directories v hvalue
    have hcut : ∀ p ∈ parts, listSeparator ∉ p := by
      intro p hp
      by_cases hnil : p = []
      · simp [hnil]
      · have hmem : p ∈ c.directories.map (·.octets) :=
          hparts ▸ List.mem_filter.2 ⟨hp, by simpa using hnil⟩
        obtain ⟨d, hd, rfl⟩ := List.mem_map.1 hmem
        exact hplain d hd
    have hmade : Storage.Path.mk ∘ Storage.Path.octets = id := rfl
    rw [Option.map_some, directoryList_intercalate hcut, hparts, List.map_map, hmade, List.map_id]
    rfl

/-- A variable that is text is read as that text. -/
theorem textOf_encode {name s : String} (h : lookup name = some (Utf8.encode s)) :
    textOf lookup name = .ok (some s) := by
  simp only [textOf, h, Utf8.decode?_encode]

theorem textOf_none {name : String} (h : lookup name = none) : textOf lookup name = .ok none := by
  rw [textOf, h]

/-- A size is read, whatever zeros and blanks are around it. -/
theorem Spelled.readSize (h : c.Spelled lookup) (hbuffer : c.bufferSize ≤ greatestBuffer) :
    lookup bufferVariable = none ∨
      ∃ s, lookup bufferVariable = some (Utf8.encode s) ∧ sizeOf? s = some c.bufferSize := by
  cases hvalue : lookup bufferVariable with
  | none => exact .inl rfl
  | some v =>
    obtain ⟨s, before, zeros, after, rfl, hs, hbefore, hafter⟩ := h.bufferSize v hvalue
    refine .inr ⟨s, rfl, ?_⟩
    have hdigits : ∀ d ∈ List.replicate zeros '0' ++ (Numeral.ofNat c.bufferSize).toList,
        isBlank d = false := by
      intro d hd
      rcases List.mem_append.1 hd with hd | hd
      · rw [List.eq_of_mem_replicate hd]
        decide
      · exact isBlank_of_isDigit (Numeral.isDigit_of_mem_ofNat hd)
    have hne : List.replicate zeros '0' ++ (Numeral.ofNat c.bufferSize).toList ≠ [] := by
      rw [Numeral.toList_ofNat]
      simp [Nat.toDigits_ne_nil]
    rw [sizeOf?, trimBlank_of_surrounded hs hbefore hafter hdigits hne]
    exact Numeral.unsigned?_ofNat hbuffer zeros

theorem Spelled.readName (h : c.Spelled lookup) :
    lookup compressionVariable = none ∨ ∃ s, lookup compressionVariable = some (Utf8.encode s) ∧
      Compression.ofTyped? s = some c.compression := by
  cases hvalue : lookup compressionVariable with
  | none => exact .inl rfl
  | some v =>
    obtain ⟨s, name, before, letters, after, rfl, hs, hname, hletters, hbefore, hafter⟩ :=
      h.compression v hvalue
    exact .inr ⟨s, rfl, Compression.ofTyped?_of_spelled hname hs hbefore hafter hletters⟩

/-- What is read from variables that spell settings are these, and the standard for the others. -/
theorem ofVariables_spelled (hcheck : c.check = .ok ()) (hbuffer : c.bufferSize ≤ greatestBuffer)
    (hplain : ∀ d ∈ c.directories, listSeparator ∉ d.octets) (h : c.Spelled lookup) :
    ofVariables lookup = .ok (c.keeping fun s => (lookup s.variable).isSome) := by
  have hoperator : textOf lookup operatorVariable
      = .ok (if (lookup operatorVariable).isSome then some c.operatorId else none) := by
    cases hvalue : lookup operatorVariable with
    | none => exact textOf_none hvalue
    | some v => exact textOf_encode (h.operatorId v hvalue ▸ hvalue)
  let kept : Setting → Bool := fun s => (lookup s.variable).isSome
  have hcomplete : ∀ size name, size = (if kept .bufferSize then some c.bufferSize else none) →
      name = (if kept .compression then some c.compression else none) →
      (Draft.complete ⟨if kept .directories then some c.directories else none,
        if kept .operatorId then some c.operatorId else none, size, name⟩).checked
          = .ok (c.keeping kept) := by
    rintro _ _ rfl rfl
    show (c.draft kept).complete.checked = _
    rw [complete_draft]
    exact checked_of_check (check_keeping hcheck kept)
  unfold ofVariables
  rw [hoperator, h.readDirectories hplain]
  -- Each of the other two variables is not set, or holds a text that is read.
  rcases h.readSize hbuffer with hsize | ⟨size, hsize, hvalue⟩ <;>
    rcases h.readName with hname | ⟨name, hname, htyped⟩
  · simp only [Sequence.ok_bind, textOf_none hsize, textOf_none hname]
    exact hcomplete _ _ (by simp [kept, Setting.variable, hsize])
      (by simp [kept, Setting.variable, hname])
  · simp only [Sequence.ok_bind, textOf_none hsize, textOf_encode hname, htyped]
    exact hcomplete _ _ (by simp [kept, Setting.variable, hsize])
      (by simp [kept, Setting.variable, hname])
  · simp only [Sequence.ok_bind, textOf_encode hsize, hvalue, textOf_none hname]
    exact hcomplete _ _ (by simp [kept, Setting.variable, hsize])
      (by simp [kept, Setting.variable, hname])
  · simp only [Sequence.ok_bind, textOf_encode hsize, hvalue, textOf_encode hname, htyped]
    exact hcomplete _ _ (by simp [kept, Setting.variable, hsize])
      (by simp [kept, Setting.variable, hname])

/-! ### Writing them -/

/-- The variables that hold a configuration in its plainest spelling. -/
def toVariables (c : SpillConfig) (name : String) : Option Bytes :=
  if name = directoriesVariable then
    some ([listSeparator].intercalate (c.directories.map (·.octets)))
  else if name = operatorVariable then some (Utf8.encode c.operatorId)
  else if name = bufferVariable then some (Utf8.encode (Numeral.ofNat c.bufferSize))
  else if name = compressionVariable then some (Utf8.encode c.compression.documentName)
  else none

theorem spelled_toVariables (hsome : ∀ d ∈ c.directories, d.octets ≠ []) :
    c.Spelled c.toVariables where
  directories v hv := by
    refine ⟨c.directories.map (·.octets), (Option.some.inj hv).symm, ?_⟩
    refine List.filter_eq_self.2 fun octets hoctets => ?_
    obtain ⟨d, hd, rfl⟩ := List.mem_map.1 hoctets
    simpa using hsome d hd
  operatorId v hv := (Option.some.inj hv).symm
  bufferSize v hv := by
    refine ⟨Numeral.ofNat c.bufferSize, [], 0, [], (Option.some.inj hv).symm, ?_, ?_, ?_⟩ <;> simp
  compression v hv := by
    have hname : (c.compression.documentName, c.compression) ∈ Compression.typedNames ∧
        c.compression.documentName.toList.map Char.toLower = c.compression.documentName.toList := by
      cases c.compression <;> decide
    refine ⟨c.compression.documentName, c.compression.documentName, [],
      c.compression.documentName.toList, [], (Option.some.inj hv).symm, ?_, hname.1, hname.2, ?_, ?_⟩
      <;> simp

/-- **A configuration comes back from variables.**  Take a configuration that passes the check,
with a buffer size of 64 bits and directories that are named and have no colon in their names.
Written into variables, it is read from them again; and so it is from any variables that spell its
settings, with empty parts in the list of directories, zeros and blanks around the size, blanks
around the name of the compression and that in any letter case.  With variables that are not set
the rest comes back, and the standard in place of what is missing.  And from whatever variables a
configuration is read, it passes the check. -/
theorem variables_come_back (hcheck : c.check = .ok ()) (hbuffer : c.bufferSize ≤ greatestBuffer)
    (hdirectories : ∀ d ∈ c.directories, d.octets ≠ [] ∧ listSeparator ∉ d.octets) :
    ofVariables c.toVariables = .ok c ∧
    (∀ lookup, c.Spelled lookup → (∀ s : Setting, (lookup s.variable).isSome) →
      ofVariables lookup = .ok c) ∧
    (∀ lookup, c.Spelled lookup →
      ofVariables lookup = .ok (c.keeping fun s => (lookup s.variable).isSome)) ∧
    ∀ (lookup : String → Option Bytes) (read : SpillConfig), ofVariables lookup = .ok read →
      read.check = .ok () := by
  have hplain := fun d hd => (hdirectories d hd).2
  have hread : ∀ lookup, c.Spelled lookup → (∀ s : Setting, (lookup s.variable).isSome) →
      ofVariables lookup = .ok c := by
    intro lookup h hall
    rw [ofVariables_spelled hcheck hbuffer hplain h, keeping_all hall]
  refine ⟨hread _ (spelled_toVariables fun d hd => (hdirectories d hd).1) ?_, hread,
    fun lookup h => ofVariables_spelled hcheck hbuffer hplain h,
    fun lookup read h => check_of_ofVariables h⟩
  intro s
  cases s <;> rfl

/-- A configuration with two directories, one of them with a name that is no text. -/
def twoDisks : SpillConfig := ⟨[.ofText "d", ⟨[0xFF]⟩], "sort 7", 4096, .zstd⟩

/-- Variables as people may set them: empty parts, zeros, blanks of other scripts, and letters of
both cases.  There is none for the operator. -/
def typed (name : String) : Option Bytes :=
  if name = directoriesVariable then some ([0x3A, 0x64, 0x3A, 0x3A, 0xFF, 0x3A])
  else if name = bufferVariable then some (Utf8.encode "\u3000004096\n")
  else if name = compressionVariable then some (Utf8.encode "\tZsTd ")
  else none

theorem spelled_typed : twoDisks.Spelled typed where
  directories v hv := by
    obtain rfl := Option.some.inj hv
    exact ⟨[[], [0x64], [], [0xFF], []], by decide, by decide⟩
  operatorId v hv := nomatch hv
  bufferSize v hv := by
    exact ⟨"\u3000004096\n", ['\u3000'], 2, ['\n'], (Option.some.inj hv).symm,
      by decide +kernel, List.forall_mem_singleton.2 rfl, List.forall_mem_singleton.2 rfl⟩
  compression v hv := by
    exact ⟨"\tZsTd ", "zstd", ['\t'], ['Z', 's', 'T', 'd'], [' '], (Option.some.inj hv).symm,
      by decide +kernel, by decide +kernel, by decide +kernel, List.forall_mem_singleton.2 rfl,
      List.forall_mem_singleton.2 rfl⟩

theorem two_disks_come_back : twoDisks.check = .ok () ∧ twoDisks.bufferSize ≤ greatestBuffer ∧
    (∀ d ∈ twoDisks.directories, d.octets ≠ [] ∧ listSeparator ∉ d.octets) ∧
    twoDisks.Spelled typed ∧ ofVariables twoDisks.toVariables = .ok twoDisks ∧
    ofVariables typed = .ok { twoDisks with operatorId := "xsort" } := by
  have hcheck : twoDisks.check = .ok () := check_eq_ok_iff.2 (by decide +kernel)
  have hbuffer : twoDisks.bufferSize ≤ greatestBuffer := by decide
  have hdirectories : ∀ d ∈ twoDisks.directories, d.octets ≠ [] ∧ listSeparator ∉ d.octets := by
    decide
  obtain ⟨hplainest, -, hsome, -⟩ := variables_come_back hcheck hbuffer hdirectories
  exact ⟨hcheck, hbuffer, hdirectories, spelled_typed, hplainest, hsome typed spelled_typed⟩

end SpillConfig
end ExternalSort
