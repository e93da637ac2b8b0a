/-
Values that are passed over.

`WellFormed` is the grammar of documents, part by part: a value; an element, which is a value with
blanks around it; the elements of a list; a member of an object and its members.  Whatever has the
shape of a value is passed over to its end, however deep it is nested.

The induction is on the derivation, with one statement for each part.  A part says how much fuel
it needs, twice its length, so that a document's own length is always enough: each level of
nesting takes two steps and has two brackets.
-/
import ExternalSort.Proofs.Json.Number
import ExternalSort.Proofs.Json.Text
import ExternalSort.Proofs.Sequence
import Mathlib.Data.List.DropRight

namespace ExternalSort.Json

open ExternalSort.Text

/-! ### Blanks -/

/-- Nothing but blanks. -/
def Blanks (b : List Char) : Prop := ∀ c ∈ b, isBlank c = true

theorem blanks_nil : Blanks [] := fun _ h => nomatch h

theorem Blanks.follows {b rest : List Char} (hb : Blanks b) (hrest : Follows rest) :
    Follows (b ++ rest) := by
  cases b with
  | nil => exact hrest
  | cons c b => exact follows_cons (.inl (hb c (List.mem_cons_self ..))) _

theorem skipBlank_append {b : List Char} (hb : Blanks b) (cs : List Char) :
    skipBlank (b ++ cs) = skipBlank cs :=
  List.dropWhile_append_of_pos hb

theorem skipBlank_cons {c : Char} (hc : isBlank c = false) (cs : List Char) :
    skipBlank (c :: cs) = c :: cs :=
  List.dropWhile_cons_of_neg (by rw [hc]; exact Bool.false_ne_true)

/-- Blanks before a mark are passed. -/
theorem skipBlank_mark {b : List Char} (hb : Blanks b) {c : Char} (hc : isBlank c = false)
    (cs : List Char) : skipBlank (b ++ c :: cs) = c :: cs :=
  (skipBlank_append hb _).trans (skipBlank_cons hc cs)

theorem skipBlank_skipBlank (cs : List Char) : skipBlank (skipBlank cs) = skipBlank cs :=
  List.dropWhile_idempotent _ cs

/-! ### The grammar -/

/-- The parts of a document. -/
inductive Part where
  | value
  | element
  | elements
  | member
  | members

/-- What has the shape of a part. -/
inductive WellFormed : Part → List Char → Prop
  | null : WellFormed .value "null".toList
  | true : WellFormed .value "true".toList
  | false : WellFormed .value "false".toList
  | number {w : List Char} (shape : Numeric w) : WellFormed .value w
  | text {w : List Char} (shape : Body w) : WellFormed .value ('"' :: (w ++ ['"']))
  | emptyList {b : List Char} (blanks : Blanks b) : WellFormed .value ('[' :: (b ++ [']']))
  | list {w : List Char} (elements : WellFormed .elements w) :
    WellFormed .value ('[' :: (w ++ [']']))
  | emptyObject {b : List Char} (blanks : Blanks b) :
    WellFormed .value ('\x7b' :: (b ++ ['\x7d']))
  | object {w : List Char} (members : WellFormed .members w) :
    WellFormed .value ('\x7b' :: (w ++ ['\x7d']))
  | element {b w b' : List Char} (before : Blanks b) (value : WellFormed .value w)
    (after : Blanks b') : WellFormed .element (b ++ (w ++ b'))
  | oneElement {w : List Char} (element : WellFormed .element w) : WellFormed .elements w
  | moreElements {w r : List Char} (element : WellFormed .element w)
    (rest : WellFormed .elements r) : WellFormed .elements (w ++ ',' :: r)
  | member {b k b' w : List Char} (before : Blanks b) (key : Body k) (between : Blanks b')
    (element : WellFormed .element w) :
    WellFormed .member (b ++ '"' :: (k ++ '"' :: (b' ++ ':' :: w)))
  | oneMember {w : List Char} (member : WellFormed .member w) : WellFormed .members w
  | moreMembers {w r : List Char} (member : WellFormed .member w) (rest : WellFormed .members r) :
    WellFormed .members (w ++ ',' :: r)

/-! ### How parts begin -/

/-- What a part begins with after its blanks: nothing that could be taken for the end of a list,
and in an object a quote. -/
def Part.Opens : Part → Char → Prop
  | .value, c | .element, c | .elements, c => c ≠ ']'
  | .member, c | .members, c => c = '"'

variable {part : Part} {w r rest : List Char} {fuel : Nat}

theorem isBlank_of_isDigit {c : Char} (h : c.isDigit = true) : isBlank c = false := by
  rw [Bool.eq_false_iff]
  intro hblank
  simp only [isBlank, Bool.or_eq_true, beq_iff_eq, or_assoc] at hblank
  rcases hblank with rfl | rfl | rfl | rfl <;> exact absurd h (by decide)

theorem skipBlank_opens (h : WellFormed part w) (rest : List Char) :
    ∃ c v, skipBlank (w ++ rest) = c :: v ∧ part.Opens c := by
  induction h generalizing rest with
  | null | true | false | text _ | emptyList _ | list _ | emptyObject _ | object _ =>
    exact ⟨_, _, skipBlank_cons rfl _, by unfold Part.Opens; decide⟩
  | number shape =>
    cases shape with
    | negative _ => exact ⟨_, _, skipBlank_cons rfl _, by unfold Part.Opens; decide⟩
    | plain unsigned =>
      obtain ⟨c, r, rfl, hdigit⟩ := unsigned.head
      refine ⟨c, _, skipBlank_cons (isBlank_of_isDigit hdigit) _, ?_⟩
      rintro rfl
      exact nomatch hdigit
  | @element b w b' before _ _ ih =>
    rw [List.append_assoc, skipBlank_append before, List.append_assoc]
    exact ih (b' ++ rest)
  | oneElement _ ih | oneMember _ ih => exact ih rest
  | @moreElements w r _ _ ih _ =>
    rw [List.append_assoc]
    exact ih (',' :: r ++ rest)
  | @moreMembers w r _ _ ih _ =>
    rw [List.append_assoc]
    exact ih (',' :: r ++ rest)
  | member before _ _ _ _ =>
    rw [List.append_assoc]
    exact ⟨_, _, skipBlank_mark before rfl _, rfl⟩

/-! ### Passing over values -/

/-- Blanks before a value do not matter. -/
theorem skipValue_skipBlank (fuel : Nat) (cs : List Char) :
    skipValue fuel (skipBlank cs) = skipValue fuel cs := by
  cases fuel with
  | zero => rw [skipValue, skipValue]
  | succ fuel => rw [skipValue, skipValue, skipBlank_skipBlank]

theorem skipValue_blanks {b : List Char} (hb : Blanks b) (fuel : Nat) (cs : List Char) :
    skipValue fuel (b ++ cs) = skipValue fuel cs := by
  rw [← skipValue_skipBlank, skipBlank_append hb, skipValue_skipBlank]

theorem skipItems_skipBlank (fuel : Nat) (cs : List Char) :
    skipItems fuel (skipBlank cs) = skipItems fuel cs := by
  cases fuel with
  | zero => rw [skipItems, skipItems]
  | succ fuel => rw [skipItems, skipItems, skipValue_skipBlank]

theorem skipMembers_skipBlank (fuel : Nat) (cs : List Char) :
    skipMembers fuel (skipBlank cs) = skipMembers fuel cs := by
  cases fuel with
  | zero => rw [skipMembers, skipMembers]
  | succ fuel =>
    rw [skipMembers, skipMembers]
    unfold skipKey
    rw [skipBlank_skipBlank]

theorem skipValue_digit {c : Char} (hc : c.isDigit = true) (r : List Char) :
    skipValue (fuel + 1) (c :: r) = skipNumber (c :: r) := by
  rw [skipValue, skipBlank_cons (isBlank_of_isDigit hc)]
  split <;> rename_i heq
  · exact nomatch heq
  -- The letters, quotes and brackets that begin other values are no digits.
  iterate 7
    · obtain ⟨rfl, -⟩ := List.cons.inj heq
      exact nomatch hc
  · obtain ⟨rfl, rfl⟩ := List.cons.inj heq
    rw [Numeral.isDigit_eq, if_pos hc]

theorem skipValue_number (h : Numeric w) (hrest : Follows rest) :
    skipValue (fuel + 1) (w ++ rest) = .ok rest := by
  cases h with
  | negative unsigned => exact skipNumber_append unsigned hrest
  | plain unsigned =>
    have hpassed := skipNumber_append unsigned hrest
    obtain ⟨c, r, rfl, hdigit⟩ := unsigned.head
    rw [List.cons_append] at hpassed ⊢
    rw [skipValue_digit hdigit, hpassed]

/-- A bracket that is followed by its counterpart. -/
theorem skipValue_emptyList {cs s : List Char} (h : skipBlank cs = ']' :: s) :
    skipValue (fuel + 1) ('[' :: cs) = .ok s := by
  rw [skipValue, skipBlank_cons rfl]
  simp only [h]

theorem skipValue_list {c : Char} {cs v : List Char} (h : skipBlank cs = c :: v) (hc : c ≠ ']') :
    skipValue (fuel + 1) ('[' :: cs) = skipItems fuel cs := by
  rw [skipValue, skipBlank_cons rfl, ← skipItems_skipBlank fuel cs]
  simp only [h]
  split
  · rename_i heq
    exact nomatch heq
  · rename_i heq
    exact absurd (List.cons.inj heq).1 hc
  · rfl

theorem skipValue_emptyObject {cs s : List Char} (h : skipBlank cs = '\x7d' :: s) :
    skipValue (fuel + 1) ('\x7b' :: cs) = .ok s := by
  rw [skipValue, skipBlank_cons rfl]
  simp only [h]

theorem skipValue_object {cs v : List Char} (h : skipBlank cs = '"' :: v) :
    skipValue (fuel + 1) ('\x7b' :: cs) = skipMembers fuel cs := by
  rw [skipValue, skipBlank_cons rfl, ← skipMembers_skipBlank fuel cs]
  simp only [h]
  rfl

/-- After an item there is another, or the list ends. -/
theorem skipItems_last {cs b r : List Char} (hb : Blanks b)
    (h : skipValue fuel cs = .ok (b ++ ']' :: r)) : skipItems (fuel + 1) cs = .ok r := by
  rw [skipItems, h, Sequence.ok_bind, skipBlank_mark hb rfl]
  rfl

theorem skipItems_more {cs b r : List Char} (hb : Blanks b)
    (h : skipValue fuel cs = .ok (b ++ ',' :: r)) :
    skipItems (fuel + 1) cs = skipItems fuel r := by
  rw [skipItems, h, Sequence.ok_bind, skipBlank_mark hb rfl]
  rfl

theorem skipMembers_last {cs v b r : List Char} (hkey : skipKey cs = .ok v) (hb : Blanks b)
    (h : skipValue fuel v = .ok (b ++ '\x7d' :: r)) : skipMembers (fuel + 1) cs = .ok r := by
  rw [skipMembers, hkey, Sequence.ok_bind, h, Sequence.ok_bind, skipBlank_mark hb rfl]
  rfl

theorem skipMembers_more {cs v b r : List Char} (hkey : skipKey cs = .ok v) (hb : Blanks b)
    (h : skipValue fuel v = .ok (b ++ ',' :: r)) :
    skipMembers (fuel + 1) cs = skipMembers fuel r := by
  rw [skipMembers, hkey, Sequence.ok_bind, h, Sequence.ok_bind, skipBlank_mark hb rfl]
  rfl

theorem colon_append {b : List Char} (hb : Blanks b) (cs : List Char) :
    colon (b ++ ':' :: cs) = .ok cs := by
  rw [colon, skipBlank_mark hb rfl]
  rfl

/-- A key is passed with its colon. -/
theorem skipKey_append {b k b' : List Char} (hb : Blanks b) (hk : Body k) (hb' : Blanks b')
    (cs : List Char) : skipKey (b ++ '"' :: (k ++ '"' :: (b' ++ ':' :: cs))) = .ok cs := by
  rw [skipKey, skipBlank_mark hb rfl]
  show (skipText (k ++ '"' :: (b' ++ ':' :: cs)) >>= colon) = _
  rw [skipText_of_body hk, Sequence.ok_bind, colon_append hb']

/-- What it is for a part to be passed over. -/
def Part.Passes : Part → List Char → Prop
  | .value, w => ∀ fuel rest, 2 * w.length ≤ fuel → Follows rest →
    skipValue fuel (w ++ rest) = .ok rest
  | .element, w => ∀ fuel rest, 2 * w.length ≤ fuel → Follows rest →
    ∃ b, Blanks b ∧ skipValue fuel (w ++ rest) = .ok (b ++ rest)
  | .elements, w => ∀ fuel r, 2 * w.length < fuel → skipItems fuel (w ++ ']' :: r) = .ok r
  | .member, w => ∀ fuel rest, 2 * w.length ≤ fuel → Follows rest →
    ∃ cs b, Blanks b ∧ skipKey (w ++ rest) = .ok cs ∧ skipValue fuel cs = .ok (b ++ rest)
  | .members, w => ∀ fuel r, 2 * w.length < fuel → skipMembers fuel (w ++ '\x7d' :: r) = .ok r

/-- **What has the shape of a part is passed over.** -/
theorem passes_of_wellFormed (h : WellFormed part w) : part.Passes w := by
  induction h with
  | null | true | false =>
    intro fuel rest hfuel _
    obtain ⟨fuel, rfl⟩ := Nat.exists_eq_add_one_of_ne_zero (Nat.ne_zero_of_lt hfuel)
    rfl
  | number shape =>
    intro fuel rest hfuel hrest
    have hlength := List.length_pos_iff.2 shape.ne_nil
    obtain ⟨fuel, rfl⟩ := Nat.exists_eq_add_one_of_ne_zero (n := fuel) (by omega)
    exact skipValue_number shape hrest
  | text shape =>
    intro fuel rest hfuel _
    obtain ⟨fuel, rfl⟩ := Nat.exists_eq_add_one_of_ne_zero (Nat.ne_zero_of_lt hfuel)
    rw [List.cons_append, List.append_assoc]
    exact skipText_of_body shape rest
  | emptyList blanks =>
    intro fuel rest hfuel _
    obtain ⟨fuel, rfl⟩ := Nat.exists_eq_add_one_of_ne_zero (Nat.ne_zero_of_lt hfuel)
    rw [List.cons_append, List.append_assoc]
    exact skipValue_emptyList (skipBlank_mark blanks rfl rest)
  | list elements ih =>
    intro fuel rest hfuel _
    obtain ⟨fuel, rfl⟩ := Nat.exists_eq_add_one_of_ne_zero (Nat.ne_zero_of_lt hfuel)
    obtain ⟨c, v, hopens, hc⟩ := skipBlank_opens elements (']' :: rest)
    rw [List.cons_append, List.append_assoc, List.singleton_append, skipValue_list hopens hc]
    exact ih fuel rest (by simp at hfuel; omega)
  | emptyObject blanks =>
    intro fuel rest hfuel _
    obtain ⟨fuel, rfl⟩ := Nat.exists_eq_add_one_of_ne_zero (Nat.ne_zero_of_lt hfuel)
    rw [List.cons_append, List.append_assoc]
    exact skipValue_emptyObject (skipBlank_mark blanks rfl rest)
  | object members ih =>
    intro fuel rest hfuel _
    obtain ⟨fuel, rfl⟩ := Nat.exists_eq_add_one_of_ne_zero (Nat.ne_zero_of_lt hfuel)
    obtain ⟨c, v, hopens, rfl⟩ := skipBlank_opens members ('\x7d' :: rest)
    rw [List.cons_append, List.append_assoc, List.singleton_append, skipValue_object hopens]
    exact ih fuel rest (by simp at hfuel; omega)
  | @element b w b' before value after ih =>
    intro fuel rest hfuel hrest
    refine ⟨b', after, ?_⟩
    rw [List.append_assoc, List.append_assoc, skipValue_blanks before]
    exact ih fuel (b' ++ rest) (by simp at hfuel; omega) (after.follows hrest)
  | oneElement element ih =>
    intro fuel r hfuel
    obtain ⟨fuel, rfl⟩ := Nat.exists_eq_add_one_of_ne_zero (Nat.ne_zero_of_lt hfuel)
    obtain ⟨b, hb, hpassed⟩ :=
      ih fuel (']' :: r) (by omega) (follows_cons (.inr (.inr (.inl rfl))) r)
    exact skipItems_last hb hpassed
  | @moreElements w r element rest ih ih' =>
    intro fuel s hfuel
    obtain ⟨fuel, rfl⟩ := Nat.exists_eq_add_one_of_ne_zero (Nat.ne_zero_of_lt hfuel)
    simp only [List.length_append, List.length_cons] at hfuel
    obtain ⟨b, hb, hpassed⟩ :=
      ih fuel (',' :: (r ++ ']' :: s)) (by omega) (follows_cons (.inr (.inl rfl)) _)
    rw [List.append_assoc, List.cons_append, skipItems_more hb hpassed]
    exact ih' fuel s (by omega)
  | @member b k b' w before key between element ih =>
    intro fuel rest hfuel hrest
    simp only [List.length_append, List.length_cons] at hfuel
    obtain ⟨b'', hb'', hpassed⟩ := ih fuel rest (by omega) hrest
    refine ⟨w ++ rest, b'', hb'', ?_, hpassed⟩
    have hkey := skipKey_append before key between (w ++ rest)
    simpa only [List.append_assoc, List.cons_append] using hkey
  | oneMember member ih =>
    intro fuel r hfuel
    obtain ⟨fuel, rfl⟩ := Nat.exists_eq_add_one_of_ne_zero (Nat.ne_zero_of_lt hfuel)
    obtain ⟨cs, b, hb, hkey, hpassed⟩ :=
      ih fuel ('\x7d' :: r) (by omega) (follows_cons (.inr (.inr (.inr rfl))) r)
    exact skipMembers_last hkey hb hpassed
  | @moreMembers w r member rest ih ih' =>
    intro fuel s hfuel
    obtain ⟨fuel, rfl⟩ := Nat.exists_eq_add_one_of_ne_zero (Nat.ne_zero_of_lt hfuel)
    simp only [List.length_append, List.length_cons] at hfuel
    obtain ⟨cs, b, hb, hkey, hpassed⟩ :=
      ih fuel (',' :: (r ++ '\x7d' :: s)) (by omega) (follows_cons (.inr (.inl rfl)) _)
    rw [List.append_assoc, List.cons_append, skipMembers_more hkey hb hpassed]
    exact ih' fuel s (by omega)

/-- **A value that nobody asked for is passed over, whatever it is.** -/
theorem skip_of_wellFormed (h : WellFormed .value w) {b : List Char} (hb : Blanks b)
    (hrest : Follows rest) : skip (b ++ (w ++ rest)) = .ok rest := by
  rw [skip, skipValue_blanks hb]
  exact passes_of_wellFormed h _ rest (by simp only [List.length_append]; omega) hrest

end ExternalSort.Json
