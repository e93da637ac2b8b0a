/-
Numbers of a document.

A number has no mark at its end.  It ends where it cannot go on, so what follows a value matters:
a blank, a mark between values, or nothing.  `Numeric` is the shape of a number as documents have
it, and any such number is passed over to its end.  A number in decimal that fits into 64 bits is
read exactly.
-/
import ExternalSort.Json.Skip
import ExternalSort.Proofs.Text.Numeral

namespace ExternalSort.Json

open ExternalSort.Text

/-! ### The shape of numbers -/

/-- One or more digits. -/
structure Digits (ds : List Char) : Prop where
  nonempty : ds ≠ []
  digits : ∀ c ∈ ds, c.isDigit = true

theorem digits_one {c : Char} (hc : c.isDigit = true) : Digits [c] :=
  ⟨List.cons_ne_nil _ _, List.forall_mem_singleton.2 hc⟩

/-- The digits before the point: a zero, or digits that do not begin with one. -/
inductive Whole : List Char → Prop
  | zero : Whole ['0']
  | digits {c : Char} {ds : List Char} (first : c ≠ '0') (digits : Digits (c :: ds)) :
    Whole (c :: ds)

inductive Fraction : List Char → Prop
  | none : Fraction []
  | some {ds : List Char} (digits : Digits ds) : Fraction ('.' :: ds)

inductive Exponent : List Char → Prop
  | none : Exponent []
  | some {mark : Char} {sign ds : List Char} (letter : mark = 'e' ∨ mark = 'E')
    (signed : sign = [] ∨ sign = ['+'] ∨ sign = ['-']) (digits : Digits ds) :
    Exponent (mark :: (sign ++ ds))

/-- A number without its sign. -/
inductive Unsigned : List Char → Prop
  | mk {whole fraction exponent : List Char} (whole' : Whole whole) (fraction' : Fraction fraction)
    (exponent' : Exponent exponent) : Unsigned (whole ++ (fraction ++ exponent))

/-- A number. -/
inductive Numeric : List Char → Prop
  | plain {w : List Char} (unsigned : Unsigned w) : Numeric w
  | negative {w : List Char} (unsigned : Unsigned w) : Numeric ('-' :: w)

variable {w ds whole fraction exponent rest : List Char}

theorem Whole.isDigits (h : Whole whole) : Digits whole := by
  cases h with
  | zero => exact digits_one rfl
  | digits _ digits => exact digits

/-- A number begins with a digit. -/
theorem Unsigned.head (h : Unsigned w) : ∃ c r, w = c :: r ∧ c.isDigit = true := by
  obtain ⟨hwhole, -, -⟩ := h
  obtain ⟨hne, hdigits⟩ := hwhole.isDigits
  obtain ⟨c, r, rfl⟩ := List.exists_cons_of_ne_nil hne
  exact ⟨c, _, rfl, hdigits c (List.mem_cons_self ..)⟩

theorem Numeric.ne_nil (h : Numeric w) : w ≠ [] := by
  cases h with
  | negative _ => exact List.cons_ne_nil _ _
  | plain unsigned =>
    obtain ⟨c, r, rfl, -⟩ := unsigned.head
    exact List.cons_ne_nil _ _

/-! ### What follows a value -/

/-- After a value there is a blank, a mark or nothing. -/
def Follows (rest : List Char) : Prop :=
  ∀ c, rest.head? = some c → isBlank c = true ∨ c = ',' ∨ c = ']' ∨ c = '\x7d'

theorem follows_cons {c : Char} (h : isBlank c = true ∨ c = ',' ∨ c = ']' ∨ c = '\x7d')
    (rest : List Char) : Follows (c :: rest) :=
  fun _ hc => Option.some.inj hc ▸ h

/-- The characters that can follow a value. -/
theorem Follows.mem (h : Follows rest) {c : Char} (hc : rest.head? = some c) :
    c ∈ [' ', '\n', '\t', '\r', ',', ']', '\x7d'] := by
  have hc := h c hc
  simp only [isBlank, Bool.or_eq_true, beq_iff_eq, or_assoc] at hc
  simpa using hc

theorem Follows.ended (h : Follows rest) : Numeral.Ended rest := by
  have hall : [' ', '\n', '\t', '\r', ',', ']', '\x7d'].all (!Char.isDigit ·) = true := by decide
  exact fun c hc => by simpa using List.all_eq_true.1 hall c (h.mem hc)

/-- A number does not go on in what follows it. -/
theorem Follows.ne (h : Follows rest) {c : Char} (hc : rest.head? = some c) :
    c ≠ '.' ∧ ¬(c = 'e' ∨ c = 'E') := by
  have hall : [' ', '\n', '\t', '\r', ',', ']', '\x7d'].all
      (fun c => decide (c ≠ '.' ∧ ¬(c = 'e' ∨ c = 'E'))) = true := by decide
  exact of_decide_eq_true (List.all_eq_true.1 hall c (h.mem hc))

theorem Exponent.ended (h : Exponent exponent) (hrest : Follows rest) :
    Numeral.Ended (exponent ++ rest) := by
  cases h with
  | none => exact hrest.ended
  | some letter _ _ => rcases letter with rfl | rfl <;> rintro c ⟨⟩ <;> rfl

theorem Fraction.ended (h : Fraction fraction) (hexponent : Exponent exponent)
    (hrest : Follows rest) : Numeral.Ended (fraction ++ (exponent ++ rest)) := by
  cases h with
  | none => exact hexponent.ended hrest
  | some _ => rintro c ⟨⟩; rfl

/-! ### Passing over numbers -/

theorem skipDigits_append (h : Digits ds) (hrest : Numeral.Ended rest) :
    skipDigits (ds ++ rest) = .ok rest := by
  rw [skipDigits, Numeral.isDigit_eq, Numeral.takeWhile_digits h.digits hrest,
    Numeral.dropWhile_digits h.digits hrest, if_neg]
  exact fun hempty => h.nonempty (List.isEmpty_iff.1 hempty)

theorem skipExponent_append (h : Exponent exponent) (hrest : Follows rest) :
    skipExponent (exponent ++ rest) = .ok rest := by
  cases h with
  | none =>
    cases rest with
    | nil => rfl
    | cons c rest => exact if_neg (hrest.ne rfl).2
  | @some mark sign ds letter signed digits =>
    have hsplit : (Binary.splitSign (sign ++ ds ++ rest)).2 = ds ++ rest := by
      rcases signed with rfl | rfl | rfl
      · obtain ⟨d, ds', rfl⟩ := List.exists_cons_of_ne_nil digits.nonempty
        have hd := digits.digits d (List.mem_cons_self ..)
        have hplus : d ≠ '+' := by rintro rfl; exact nomatch hd
        have hminus : d ≠ '-' := by rintro rfl; exact nomatch hd
        simp [Binary.splitSign, hplus, hminus]
      · rfl
      · rfl
    rw [List.cons_append, skipExponent, if_pos letter, hsplit]
    exact skipDigits_append digits hrest.ended

theorem skipNumber_append (h : Unsigned w) (hrest : Follows rest) :
    skipNumber (w ++ rest) = .ok rest := by
  obtain ⟨hwhole, hfraction, hexponent⟩ := h
  rename_i whole fraction exponent
  have hended := hfraction.ended hexponent hrest
  have hzero : ¬((whole ++ (fraction ++ (exponent ++ rest))).head? = some '0' ∧ 1 <
      ((whole ++ (fraction ++ (exponent ++ rest))).takeWhile Numeral.isDigit).length) := by
    rw [Numeral.isDigit_eq, Numeral.takeWhile_digits hwhole.isDigits.digits hended]
    cases hwhole with
    | zero => simp
    | digits first _ => simp [first]
  rw [List.append_assoc, List.append_assoc, skipNumber,
    skipDigits_append hwhole.isDigits hended]
  show (if _ ∧ _ then _ else _) = _
  rw [if_neg hzero]
  cases hfraction with
  | some digits =>
    show (skipDigits (_ ++ _) >>= skipExponent) = _
    rw [skipDigits_append digits (hexponent.ended hrest)]
    exact skipExponent_append hexponent hrest
  | none =>
    dsimp only [List.nil_append]
    split
    · rename_i r hpoint
      cases hexponent with
      | none => exact absurd rfl (hrest.ne (congrArg List.head? hpoint)).1
      | some letter _ _ =>
        have hmark := (List.cons.inj hpoint).1
        rcases letter with rfl | rfl <;> exact absurd hmark (by decide)
    · exact skipExponent_append hexponent hrest

/-! ### Reading numbers -/

theorem le_ofDigitChars (ds : List Char) (value : Nat) : value ≤ Nat.ofDigitChars 10 ds value := by
  induction ds generalizing value with
  | nil => exact Nat.le_refl _
  | cons c ds ih =>
    rw [Nat.ofDigitChars_cons]
    exact Nat.le_trans (by omega) (ih _)

/-- Digits that make a number of 64 bits are all taken. -/
theorem gather_digits (hds : ∀ c ∈ ds, c.isDigit = true) {value : Nat}
    (hfits : Nat.ofDigitChars 10 ds value ≤ greatestNatural) :
    gather value ds = (Nat.ofDigitChars 10 ds value, []) := by
  induction ds generalizing value with
  | nil => rfl
  | cons c ds ih =>
    obtain ⟨hc, hds⟩ := List.forall_mem_cons.1 hds
    rw [Nat.ofDigitChars_cons] at hfits ⊢
    have hnext := Nat.le_trans (le_ofDigitChars ds _) hfits
    rw [gather, Numeral.digit?_of_isDigit hc, Option.getD_some, if_neg (by omega)]
    exact ih hds hfits

theorem someDigits_append (h : Digits ds) (hrest : Numeral.Ended rest) :
    someDigits (ds ++ rest) = .ok (ds, rest) := by
  unfold someDigits
  rw [Numeral.isDigit_eq, Numeral.takeWhile_digits h.digits hrest,
    Numeral.dropWhile_digits h.digits hrest]
  obtain ⟨c, ds, rfl⟩ := List.exists_cons_of_ne_nil h.nonempty
  rfl

/-- **A number in decimal that fits into 64 bits is read exactly.** -/
theorem number_ofNat {n : Nat} (hn : n ≤ greatestNatural) (hrest : Follows rest) :
    number false ((Numeral.ofNat n).toList ++ rest) = .ok (.natural n, rest) := by
  have hdigits : Digits (Numeral.ofNat n).toList := by
    refine ⟨?_, fun c hc => Numeral.isDigit_of_mem_ofNat hc⟩
    rw [Numeral.toList_ofNat]
    exact Nat.toDigits_ne_nil
  have hvalue : Nat.ofDigitChars 10 (Numeral.ofNat n).toList 0 = n := by
    rw [Numeral.toList_ofNat, Nat.ofDigitChars_ten_toDigits]
  have hgather : gather 0 (Numeral.ofNat n).toList = (n, []) := by
    rw [gather_digits hdigits.digits (by rw [hvalue]; exact hn), hvalue]
  have hzero :
      ¬((Numeral.ofNat n).toList.head? = some '0' ∧ 1 < (Numeral.ofNat n).toList.length) := by
    rintro ⟨hhead, hlong⟩
    by_cases hn : n = 0
    · rw [hn] at hlong
      exact absurd hlong (by decide)
    · exact Numeral.head_ofNat hn hhead
  rw [number, someDigits_append hdigits hrest.ended]
  show (if _ ∧ _ then _ else _) = _
  rw [if_neg hzero, hgather]
  dsimp only
  cases rest with
  | nil => rfl
  | cons c rest =>
    obtain ⟨hpoint, hletter⟩ := hrest.ne rfl
    rw [not_or] at hletter
    split
    · rename_i hcons
      exact absurd (List.cons.inj hcons).1 hpoint
    · rename_i hcons
      obtain ⟨rfl, rfl⟩ := List.cons.inj hcons
      rw [if_pos ⟨rfl, hletter⟩]
      rfl
    · rename_i hcons
      exact nomatch hcons

end ExternalSort.Json
