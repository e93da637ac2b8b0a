/-
Texts of a document.

Between its quotes a text may be written in many ways: most characters as they are, some by a
letter after a backslash, any by its number, and those beyond the basic plane by two numbers.
`Spells` says which text is written in which ways; the printer's way is one of them.  A text is
read back from whatever way it was written in.

Where a text is only passed over, its escapes need not stand for characters: a number is counted
off and not looked at.  `Body` is that weaker shape.
-/
import ExternalSort.Json.Printer
import ExternalSort.Json.Skip

namespace ExternalSort.Json

/-! ### Ways to write a text -/

/-- What may stand between the quotes of a text, and the characters that it stands for. -/
inductive Spells : List Char → List Char → Prop
  | nil : Spells [] []
  | plain {c : Char} {w s : List Char} (quote : c ≠ '"') (slash : c ≠ '\\')
    (control : 0x20 ≤ c.toNat) (rest : Spells w s) : Spells (c :: w) (c :: s)
  | letter {l c : Char} {w s : List Char} (stands : simpleEscape? l = some c)
    (rest : Spells w s) : Spells ('\\' :: l :: w) (c :: s)
  | numbered {a b c d : Char} {n : Nat} {w s : List Char}
    (hex : fourHex? [a, b, c, d] = some (n, [])) (whole : n < 0xD800 ∨ 0xDFFF < n)
    (rest : Spells w s) : Spells ('\\' :: 'u' :: a :: b :: c :: d :: w) (Char.ofNat n :: s)
  | paired {a b c d a' b' c' d' : Char} {high low : Nat} {w s : List Char}
    (hex : fourHex? [a, b, c, d] = some (high, [])) (first : 0xD800 ≤ high ∧ high ≤ 0xDBFF)
    (hex' : fourHex? [a', b', c', d'] = some (low, [])) (second : 0xDC00 ≤ low ∧ low ≤ 0xDFFF)
    (rest : Spells w s) :
    Spells ('\\' :: 'u' :: a :: b :: c :: d :: '\\' :: 'u' :: a' :: b' :: c' :: d' :: w)
      (Char.ofNat (0x10000 + (high - 0xD800) * 1024 + (low - 0xDC00)) :: s)

/-- What may stand between the quotes of a text that nobody reads. -/
inductive Body : List Char → Prop
  | nil : Body []
  | plain {c : Char} {w : List Char} (quote : c ≠ '"') (slash : c ≠ '\\')
    (control : 0x20 ≤ c.toNat) (rest : Body w) : Body (c :: w)
  | letter {l c : Char} {w : List Char} (stands : simpleEscape? l = some c) (rest : Body w) :
    Body ('\\' :: l :: w)
  | numbered {a b c d : Char} {n : Nat} {w : List Char}
    (hex : fourHex? [a, b, c, d] = some (n, [])) (rest : Body w) :
    Body ('\\' :: 'u' :: a :: b :: c :: d :: w)

variable {w s r : List Char}

/-! ### Reading -/

/-- Four digits are read whatever follows them. -/
theorem fourHex_of_digits {a b c d : Char} {n : Nat} (h : fourHex? [a, b, c, d] = some (n, []))
    (r : List Char) : fourHex (a :: b :: c :: d :: r) = .ok (n, r) := by
  have hr : fourHex? (a :: b :: c :: d :: r) = some (n, r) := by
    simp only [fourHex?, Option.bind_eq_bind, Option.bind_eq_some_iff, Option.some.injEq,
      Prod.mk.injEq] at h ⊢
    obtain ⟨k, hk, l, hl, m, hm, o, ho, hn, -⟩ := h
    exact ⟨k, hk, l, hl, m, hm, o, ho, hn, trivial⟩
  rw [fourHex, hr]

theorem escaped_letter {l c : Char} (h : simpleEscape? l = some c) (r : List Char) :
    escaped (l :: r) = .ok (c, r) := by
  have hu : l ≠ 'u' := by
    rintro rfl
    exact nomatch h
  simp only [escaped, if_neg hu, h]

theorem escaped_numbered {a b c d : Char} {n : Nat} (hex : fourHex? [a, b, c, d] = some (n, []))
    (whole : n < 0xD800 ∨ 0xDFFF < n) (r : List Char) :
    escaped ('u' :: a :: b :: c :: d :: r) = .ok (Char.ofNat n, r) := by
  show numbered (a :: b :: c :: d :: r) = _
  rw [numbered, fourHex_of_digits hex]
  show (if 0xDC00 ≤ n ∧ n ≤ 0xDFFF then _ else if 0xD800 ≤ n ∧ n ≤ 0xDBFF then _ else _) = _
  rw [if_neg (by omega), if_neg (by omega)]

theorem escaped_paired {a b c d a' b' c' d' : Char} {high low : Nat}
    (hex : fourHex? [a, b, c, d] = some (high, [])) (first : 0xD800 ≤ high ∧ high ≤ 0xDBFF)
    (hex' : fourHex? [a', b', c', d'] = some (low, [])) (second : 0xDC00 ≤ low ∧ low ≤ 0xDFFF)
    (r : List Char) :
    escaped ('u' :: a :: b :: c :: d :: '\\' :: 'u' :: a' :: b' :: c' :: d' :: r)
      = .ok (Char.ofNat (0x10000 + (high - 0xD800) * 1024 + (low - 0xDC00)), r) := by
  show numbered (a :: b :: c :: d :: _) = _
  rw [numbered, fourHex_of_digits hex]
  show (if 0xDC00 ≤ high ∧ high ≤ 0xDFFF then _ else if 0xD800 ≤ high ∧ high ≤ 0xDBFF then
    lowHalf high _ else _) = _
  rw [if_neg (by omega), if_pos first, lowHalf, fourHex_of_digits hex']
  show (if low < 0xDC00 ∨ 0xDFFF < low then _ else _) = _
  rw [if_neg (by omega)]

theorem textFrom_of_spells (h : Spells w s) {fuel : Nat} (hfuel : w.length < fuel)
    (read : List Char) :
    textFrom read fuel (w ++ '"' :: r) = .ok (String.ofList (read.reverse ++ s), r) := by
  induction h generalizing fuel read with
  | nil =>
    obtain ⟨fuel, rfl⟩ := Nat.exists_eq_add_one_of_ne_zero (Nat.ne_zero_of_lt hfuel)
    rw [List.nil_append, textFrom, if_pos rfl, List.append_nil]
  | plain quote slash control _ ih =>
    obtain ⟨fuel, rfl⟩ := Nat.exists_eq_add_one_of_ne_zero (Nat.ne_zero_of_lt hfuel)
    rw [List.cons_append, textFrom, if_neg quote, if_neg slash, if_neg (by omega),
      ih (by simp at hfuel; omega)]
    simp
  | letter stands _ ih =>
    obtain ⟨fuel, rfl⟩ := Nat.exists_eq_add_one_of_ne_zero (Nat.ne_zero_of_lt hfuel)
    rw [List.cons_append, List.cons_append, textFrom, if_neg (by decide), if_pos rfl,
      escaped_letter stands]
    dsimp only
    rw [ih (by simp at hfuel; omega)]
    simp
  | numbered hex whole _ ih =>
    obtain ⟨fuel, rfl⟩ := Nat.exists_eq_add_one_of_ne_zero (Nat.ne_zero_of_lt hfuel)
    simp only [List.cons_append]
    rw [textFrom, if_neg (by decide), if_pos rfl, escaped_numbered hex whole]
    dsimp only
    rw [ih (by simp at hfuel; omega)]
    simp
  | paired hex first hex' second _ ih =>
    obtain ⟨fuel, rfl⟩ := Nat.exists_eq_add_one_of_ne_zero (Nat.ne_zero_of_lt hfuel)
    simp only [List.cons_append]
    rw [textFrom, if_neg (by decide), if_pos rfl, escaped_paired hex first hex' second]
    dsimp only
    rw [ih (by simp at hfuel; omega)]
    simp

/-- **A text is read back from whatever way it was written in.** -/
theorem text_of_spells (h : Spells w s) (r : List Char) :
    text (w ++ '"' :: r) = .ok (String.ofList s, r) := by
  have hlength : w.length < (w ++ '"' :: r).length + 1 := by
    rw [List.length_append]
    omega
  rw [text, textFrom_of_spells h hlength]
  rfl

theorem skipTextFrom_of_body (h : Body w) {fuel : Nat} (hfuel : w.length < fuel) :
    skipTextFrom fuel (w ++ '"' :: r) = .ok r := by
  induction h generalizing fuel with
  | nil =>
    obtain ⟨fuel, rfl⟩ := Nat.exists_eq_add_one_of_ne_zero (Nat.ne_zero_of_lt hfuel)
    rw [List.nil_append, skipTextFrom, if_pos rfl]
  | plain quote slash control _ ih =>
    obtain ⟨fuel, rfl⟩ := Nat.exists_eq_add_one_of_ne_zero (Nat.ne_zero_of_lt hfuel)
    rw [List.cons_append, skipTextFrom, if_neg quote, if_neg slash, if_neg (by omega),
      ih (by simp at hfuel; omega)]
  | @letter l c w stands _ ih =>
    obtain ⟨fuel, rfl⟩ := Nat.exists_eq_add_one_of_ne_zero (Nat.ne_zero_of_lt hfuel)
    have hu : l ≠ 'u' := by
      rintro rfl
      exact nomatch stands
    have hpassed : skipEscape (l :: (w ++ '"' :: r)) = .ok (w ++ '"' :: r) := by
      simp only [skipEscape, if_neg hu, stands]
    rw [List.cons_append, List.cons_append, skipTextFrom, if_neg (by decide), if_pos rfl, hpassed]
    exact ih (by simp at hfuel; omega)
  | @numbered a b c d n w hex _ ih =>
    obtain ⟨fuel, rfl⟩ := Nat.exists_eq_add_one_of_ne_zero (Nat.ne_zero_of_lt hfuel)
    have hpassed :
        skipEscape ('u' :: a :: b :: c :: d :: (w ++ '"' :: r)) = .ok (w ++ '"' :: r) := by
      rw [skipEscape, if_pos rfl, fourHex_of_digits hex]
      rfl
    simp only [List.cons_append]
    rw [skipTextFrom, if_neg (by decide), if_pos rfl, hpassed]
    exact ih (by simp at hfuel; omega)

/-- A text is passed over to its closing quote. -/
theorem skipText_of_body (h : Body w) (r : List Char) : skipText (w ++ '"' :: r) = .ok r := by
  have hlength : w.length < (w ++ '"' :: r).length + 1 := by
    rw [List.length_append]
    omega
  exact skipTextFrom_of_body h hlength

/-! ### The printer's way -/

theorem hexDigit?_hexDigit : ∀ n < 16, hexDigit? (hexDigit n) = some n := by decide

/-- A character is printed by a letter, by its number, or as it is. -/
theorem escape_cases (c : Char) :
    (∃ l, escape c = ['\\', l] ∧ simpleEscape? l = some c) ∨
    (c.toNat < 0x20 ∧
      escape c = ['\\', 'u', '0', '0', hexDigit (c.toNat / 16), hexDigit (c.toNat % 16)]) ∨
    (c ≠ '"' ∧ c ≠ '\\' ∧ 0x20 ≤ c.toNat ∧ escape c = [c]) := by
  by_cases hletter : c ∈ ['"', '\\', '\x08', '\x0c', '\n', '\r', '\t']
  · simp only [List.mem_cons, List.not_mem_nil, or_false] at hletter
    rcases hletter with rfl | rfl | rfl | rfl | rfl | rfl | rfl <;> exact .inl ⟨_, rfl, rfl⟩
  · simp only [List.mem_cons, List.not_mem_nil, or_false, not_or] at hletter
    obtain ⟨hquote, hslash, h8, hc, hn, hr, ht⟩ := hletter
    unfold escape
    rw [if_neg hquote, if_neg hslash, if_neg h8, if_neg hc, if_neg hn, if_neg hr, if_neg ht]
    by_cases hcontrol : c.toNat < 0x20
    · rw [if_pos hcontrol]
      exact .inr (.inl ⟨hcontrol, rfl⟩)
    · rw [if_neg hcontrol]
      exact .inr (.inr ⟨hquote, hslash, by omega, rfl⟩)

/-- One character is written in a way that stands for it. -/
theorem spells_escape (c : Char) (h : Spells w s) : Spells (escape c ++ w) (c :: s) := by
  rcases escape_cases c with ⟨l, hprinted, hl⟩ | ⟨hcontrol, hprinted⟩ |
    ⟨hquote, hslash, hplain, hprinted⟩
  · rw [hprinted]
    exact .letter hl h
  · have hhigh := hexDigit?_hexDigit (c.toNat / 16) (by omega)
    have hlow := hexDigit?_hexDigit (c.toNat % 16) (by omega)
    have hzero : hexDigit? '0' = some 0 := by decide
    have hex : fourHex? ['0', '0', hexDigit (c.toNat / 16), hexDigit (c.toNat % 16)]
        = some (c.toNat, []) := by
      simp only [fourHex?, hzero, hhigh, hlow, Option.bind_eq_bind, Option.bind_some,
        Option.some.injEq, Prod.mk.injEq, and_true]
      omega
    have hspells := Spells.numbered hex (by omega) h
    rw [Char.ofNat_toNat] at hspells
    rw [hprinted]
    exact hspells
  · rw [hprinted]
    exact .plain hquote hslash hplain h

theorem spells_flatMap_escape (s : List Char) : Spells (s.flatMap escape) s := by
  induction s with
  | nil => exact .nil
  | cons c s ih =>
    rw [List.flatMap_cons]
    exact spells_escape c ih

/-- **A text is read back as it was printed.** -/
theorem text_quote (s : String) (r : List Char) :
    text (s.toList.flatMap escape ++ '"' :: r) = .ok (s, r) := by
  rw [text_of_spells (spells_flatMap_escape s.toList), String.ofList_toList]

/-- A way to write a text between its quotes. -/
structure Writing (s : String) where
  written : List Char
  spells : Spells written s.toList

/-- The printer's way. -/
def Writing.printed (s : String) : Writing s := ⟨s.toList.flatMap escape, spells_flatMap_escape _⟩

theorem Writing.text_eq {s : String} (t : Writing s) (r : List Char) :
    text (t.written ++ '"' :: r) = .ok (s, r) := by
  rw [text_of_spells t.spells, String.ofList_toList]

end ExternalSort.Json
