/-
The names of spill files.

A name is a single step, so a path that ends in it leads to a name and not up or down.  No two
files of a spill area have the same name, whichever of its directories they are in: the
number in the name tells them apart, and a number is spelled in one way.
-/
import ExternalSort.Proofs.Text.Numeral
import ExternalSort.Proofs.Text.Utf8
import ExternalSort.Storage.Area

namespace ExternalSort

/-! ### Steps of a path -/

namespace Storage.Path

theorem pieces_ne_nil (a : Bytes) : pieces a ≠ [] := by
  cases a with
  | nil => exact List.cons_ne_nil _ _
  | cons b r =>
    rw [pieces]
    split
    · exact List.cons_ne_nil _ _
    · split <;> exact List.cons_ne_nil _ _

theorem pieces_append (a b : Bytes) : pieces (a ++ separator :: b) = pieces a ++ pieces b := by
  induction a with
  | nil =>
    show pieces (separator :: b) = [[]] ++ pieces b
    simp only [pieces, if_pos, List.singleton_append]
  | cons x a ih =>
    rw [List.cons_append, pieces, pieces]
    by_cases hx : x = separator
    · rw [if_pos hx, if_pos hx, ih, List.cons_append]
    · rw [if_neg hx, if_neg hx, ih]
      obtain ⟨p, ps, hpieces⟩ := List.exists_cons_of_ne_nil (pieces_ne_nil a)
      rw [hpieces]
      rfl

theorem pieces_of_not_mem {a : Bytes} (h : separator ∉ a) : pieces a = [a] := by
  induction a with
  | nil => rfl
  | cons x a ih =>
    rw [List.mem_cons, not_or] at h
    rw [pieces, if_neg (Ne.symm h.1), ih h.2]

/-- What stands before the first separator goes on the first step. -/
theorem pieces_append_of_not_mem {a : Bytes} (h : separator ∉ a) (b : Bytes) :
    ∃ first rest, pieces b = first :: rest ∧ pieces (a ++ b) = (a ++ first) :: rest := by
  obtain ⟨first, rest, hb⟩ := List.exists_cons_of_ne_nil (pieces_ne_nil b)
  refine ⟨first, rest, hb, ?_⟩
  induction a with
  | nil => exact hb
  | cons x a ih =>
    rw [List.mem_cons, not_or] at h
    rw [List.cons_append, pieces, if_neg (Ne.symm h.1), ih h.2]
    rfl

/-- A name that is a single step is where the path ends. -/
theorem getLast?_names_join {name : Bytes} (hstep : separator ∉ name) (hne : name ≠ []) (p : Path) :
    (p.join name).names.getLast? = some name := by
  have hkept : (pieces name).filter (· ≠ []) = [name] := by
    rw [pieces_of_not_mem hstep]
    exact List.filter_cons_of_pos (by simpa using hne)
  have hlast : ∀ a, (names ⟨a ++ separator :: name⟩).getLast? = some name := by
    intro a
    rw [names, pieces_append, List.filter_append, hkept, List.getLast?_concat]
  unfold join
  split
  · rw [names, hkept]
    rfl
  · split
    · rename_i hopen
      obtain ⟨a, ha⟩ := List.getLast?_eq_some_iff.1 hopen
      rw [ha, List.append_assoc]
      exact hlast a
    · exact hlast p.octets

end Storage.Path

/-! ### Names of files -/

namespace Text.Utf8

theorem encode_append (s s' : String) : encode (s ++ s') = encode s ++ encode s' := by
  rw [encode_eq, encode_eq, encode_eq, String.toList_append, List.flatMap_append]

/-- No octet of another character is taken for a slash. -/
theorem separator_notMem_encode {s : String} (h : '/' ∉ s.toList) :
    Storage.Path.separator ∉ encode s := by
  rw [encode_eq, List.mem_flatMap]
  rintro ⟨c, hc, hmem⟩
  have hoctet : ∀ n, n < 256 → Storage.Path.separator = UInt8.ofNat n → n = 47 := by
    intro n hn hsame
    have htoNat := congrArg UInt8.toNat hsame
    rw [UInt8.toNat_ofNat', Nat.mod_eq_of_lt hn] at htoNat
    exact htoNat.symm
  have hvalue : c.val.toNat = 47 := by
    unfold String.utf8EncodeChar at hmem
    generalize c.val.toNat = v at hmem ⊢
    by_cases h1 : v ≤ 0x7F
    · simp only [if_pos h1, List.mem_singleton] at hmem
      exact hoctet v (by omega) hmem
    -- All octets of other characters are 0x80 or more.
    have hhigh : ∀ n, n < 256 → 0x80 ≤ n → Storage.Path.separator ≠ UInt8.ofNat n := by
      intro n hn hle hsame
      have := hoctet n hn hsame
      omega
    by_cases h2 : v ≤ 0x7FF
    · simp only [if_neg h1, if_pos h2, List.mem_cons, List.not_mem_nil, or_false] at hmem
      rcases hmem with hmem | hmem <;> exact absurd hmem (hhigh _ (by omega) (by omega))
    by_cases h3 : v ≤ 0xFFFF
    · simp only [if_neg h1, if_neg h2, if_pos h3, List.mem_cons, List.not_mem_nil, or_false] at hmem
      rcases hmem with hmem | hmem | hmem <;>
        exact absurd hmem (hhigh _ (by omega) (by omega))
    · simp only [if_neg h1, if_neg h2, if_neg h3, List.mem_cons, List.not_mem_nil, or_false] at hmem
      rcases hmem with hmem | hmem | hmem | hmem <;>
        exact absurd hmem (hhigh _ (by omega) (by omega))
  refine h ?_
  rwa [← show c = '/' from Char.ext (UInt32.toNat_inj.1 hvalue)]

end Text.Utf8

namespace Storage.Area

theorem separator_notMem_fileName (n : Nat) : Path.separator ∉ fileName n none := by
  refine Text.Utf8.separator_notMem_encode ?_
  have hdigit : '/' ∉ (Text.Numeral.ofNat n).toList := fun h =>
    absurd (Text.Numeral.isDigit_of_mem_ofNat h) (by decide)
  simp only [Option.elim_none, String.toList_append, List.mem_append, not_or]
  exact ⟨⟨by decide, hdigit⟩, by decide⟩

theorem fileName_ne_nil (n : Nat) : fileName n none ≠ [] := by
  intro h
  have hnone : _ = "" := Text.Utf8.encode_injective h
  have htext := congrArg String.toList hnone
  simp only [String.toList_append, List.append_assoc] at htext
  exact absurd (List.append_eq_nil_iff.1 htext).1 (by decide)

/-- The path of a spill file ends in its name. -/
theorem getLast?_names_spill (root : Path) (n : Nat) :
    (root.join (fileName n none)).names.getLast? = some (fileName n none) :=
  Path.getLast?_names_join (separator_notMem_fileName n) (fileName_ne_nil n) root

/-- **Names with different numbers are different**, whatever stands behind the numbers. -/
theorem fileName_injective {n m : Nat} {extra extra' : Option String}
    (h : fileName n extra = fileName m extra') : n = m := by
  -- What stands behind a number does not begin with a digit.
  have hbehind : ∀ (e : Option String) c,
      (e.elim "" ("_" ++ ·)).toList.head? = some c → c.isDigit = false := by
    intro e c hc
    cases e with
    | none => exact nomatch hc
    | some e =>
      rw [Option.elim_some, String.toList_append] at hc
      rw [← Option.some.inj hc]
      rfl
  have htext := congrArg String.toList (Text.Utf8.encode_injective h)
  simp only [String.toList_append, List.append_assoc] at htext
  have hdigits := congrArg (List.takeWhile Char.isDigit) (List.append_cancel_left htext)
  rw [Text.Numeral.takeWhile_ofNat n (hbehind extra),
    Text.Numeral.takeWhile_ofNat m (hbehind extra')] at hdigits
  exact Text.Numeral.ofNat_injective hdigits

/-! ### Names with a text behind the number -/

/-- A text of which no step leads up. -/
def Forward (extra : Option String) : Prop :=
  ∀ e ∈ extra, Path.dotDot ∉ Path.pieces (Text.Utf8.encode e)

instance : DecidablePred Forward
  | none => isTrue nofun
  | some e => decidable_of_iff (Path.dotDot ∉ Path.pieces (Text.Utf8.encode e))
    ⟨fun h _ he => Option.some.inj he ▸ h, fun h => h e rfl⟩

theorem head_fileName (n : Nat) (extra : Option String) :
    ∃ rest, fileName n extra = 0x73 :: rest := by
  rw [fileName, String.append_assoc, Text.Utf8.encode_append]
  exact ⟨_, rfl⟩

theorem fileName_some (n : Nat) (e : String) :
    fileName n (some e) = (fileName n none ++ [0x5F]) ++ Text.Utf8.encode e := by
  rw [fileName, fileName, Option.elim_some, Option.elim_none, String.append_empty,
    Text.Utf8.encode_append, Text.Utf8.encode_append "_", ← List.append_assoc]
  rfl

/-- A text without a slash. -/
def Plain (extra : Option String) : Prop := ∀ e ∈ extra, '/' ∉ e.toList

theorem plain_none : Plain none := fun _ h => absurd h (Option.not_mem_none _)

theorem Plain.separator_notMem {extra : Option String} (h : Plain extra) (n : Nat) :
    Path.separator ∉ fileName n extra := by
  cases extra with
  | none => exact separator_notMem_fileName n
  | some e =>
    rw [fileName_some, List.mem_append, List.mem_append, not_or, not_or]
    exact ⟨⟨separator_notMem_fileName n, by decide⟩, Text.Utf8.separator_notMem_encode (h e rfl)⟩

/-- Where the text does not lead up the name does not either. -/
theorem dotDot_notMem_fileName {extra : Option String} (h : Forward extra) (n : Nat) :
    Path.dotDot ∉ Path.pieces (fileName n extra) := by
  -- The first step begins with another letter.
  have hfirst : ∀ rest, Path.dotDot ≠ fileName n none ++ rest := by
    intro rest hsame
    obtain ⟨tail, hhead⟩ := head_fileName n none
    rw [hhead, List.cons_append] at hsame
    exact absurd (List.head_eq_of_cons_eq hsame) (by decide)
  cases extra with
  | none =>
    rw [Path.pieces_of_not_mem (separator_notMem_fileName n), List.mem_singleton]
    exact fun hsame => hfirst [] (by rw [hsame, List.append_nil])
  | some e =>
    have hsep : Path.separator ∉ fileName n none ++ [0x5F] := by
      rw [List.mem_append, not_or]
      exact ⟨separator_notMem_fileName n, by decide⟩
    obtain ⟨first, rest, hpieces, hjoined⟩ :=
      Path.pieces_append_of_not_mem hsep (Text.Utf8.encode e)
    rw [fileName_some, hjoined, List.mem_cons, not_or]
    constructor
    · rw [List.append_assoc]
      exact hfirst _
    · intro hmem
      refine h e rfl ?_
      rw [hpieces]
      exact List.mem_cons_of_mem _ hmem

end Storage.Area
end ExternalSort
