/-
Numbers in decimal.

A number is spelled by its digits, without zeros in front, and read back from them; it ends where
its digits end.
-/
import ExternalSort.Text.Numeral
import Mathlib.Data.List.TakeWhile

namespace ExternalSort.Text.Numeral

theorem toList_ofNat (n : Nat) : (ofNat n).toList = Nat.toDigits 10 n := by
  rw [ofNat, Nat.toString_eq_ofList_toDigits, String.toList_ofList]

theorem isDigit_of_mem_ofNat {n : Nat} {c : Char} (h : c ∈ (ofNat n).toList) : c.isDigit := by
  rw [toList_ofNat] at h
  exact Nat.isDigit_of_mem_toDigits (by decide) (by decide) h

theorem ofNat_injective {n m : Nat} (h : (ofNat n).toList = (ofNat m).toList) : n = m := by
  rw [toList_ofNat, toList_ofNat] at h
  rw [← Nat.ofDigitChars_ten_toDigits (n := n), h, Nat.ofDigitChars_ten_toDigits]

/-- No number but zero begins with a zero. -/
theorem head_ofNat {n : Nat} (hn : n ≠ 0) : (ofNat n).toList.head? ≠ some '0' := by
  rw [toList_ofNat]
  induction n using Nat.strong_induction_on with
  | _ n ih =>
    rw [Nat.toDigits_eq_if (by decide)]
    split
    · rename_i hsmall
      have hchar : ∀ d < 10, d ≠ 0 → some (Nat.digitChar d) ≠ some '0' := by decide
      exact hchar n hsmall hn
    · rename_i hlarge
      obtain ⟨c, r, hcons⟩ := List.exists_cons_of_ne_nil (Nat.toDigits_ne_nil (n := n / 10) (b := 10))
      have hhead := ih (n / 10) (by omega) (by omega)
      rwa [hcons] at hhead ⊢

/-! ### Where digits end -/

variable {ds rest : List Char}

/-- What follows does not begin with a digit. -/
def Ended (rest : List Char) : Prop := ∀ c, rest.head? = some c → c.isDigit = false

theorem takeWhile_digits (hds : ∀ c ∈ ds, c.isDigit = true) (hrest : Ended rest) :
    (ds ++ rest).takeWhile Char.isDigit = ds := by
  rw [List.takeWhile_append_of_pos hds]
  cases rest with
  | nil => exact List.append_nil _
  | cons c rest =>
    rw [List.takeWhile_cons_of_neg (by rw [hrest c rfl]; exact Bool.false_ne_true)]
    exact List.append_nil _

theorem dropWhile_digits (hds : ∀ c ∈ ds, c.isDigit = true) (hrest : Ended rest) :
    (ds ++ rest).dropWhile Char.isDigit = rest := by
  rw [List.dropWhile_append_of_pos hds]
  cases rest with
  | nil => rfl
  | cons c rest =>
    exact List.dropWhile_cons_of_neg (by rw [hrest c rfl]; exact Bool.false_ne_true)

/-- A number ends where its digits end. -/
theorem takeWhile_ofNat (n : Nat) (hrest : Ended rest) :
    ((ofNat n).toList ++ rest).takeWhile Char.isDigit = (ofNat n).toList :=
  takeWhile_digits (fun _ hc => isDigit_of_mem_ofNat hc) hrest

/-! ### Reading digits -/

theorem digit?_of_isDigit {c : Char} (h : c.isDigit = true) :
    digit? c = some (c.toNat - '0'.toNat) := by
  simp only [Char.isDigit, ge_iff_le, Bool.and_eq_true, decide_eq_true_eq] at h
  exact if_pos h

theorem isDigit_eq : isDigit = Char.isDigit := by
  funext c
  cases hc : c.isDigit with
  | true => rw [isDigit, digit?_of_isDigit hc, Option.isSome_some]
  | false =>
    simp only [Char.isDigit, ge_iff_le, Bool.and_eq_false_iff, decide_eq_false_iff_not] at hc
    have hnone : ¬('0' ≤ c ∧ c ≤ '9') := fun ⟨hle, hge⟩ => hc.elim (· hle) (· hge)
    rw [isDigit, digit?, if_neg hnone, Option.isSome_none]

/-- Digits are read as the number that they spell. -/
theorem digitsFrom_eq {cs : List Char} (h : ∀ c ∈ cs, c.isDigit = true) (value : Nat) :
    digitsFrom value cs = some (Nat.ofDigitChars 10 cs value) := by
  induction cs generalizing value with
  | nil => rfl
  | cons c r ih =>
    rw [digitsFrom, digit?_of_isDigit (h c (List.mem_cons_self ..))]
    dsimp only
    rw [ih fun d hd => h d (List.mem_cons_of_mem _ hd), Nat.ofDigitChars_cons]

/-- A number in decimal is read as that number, zeros in front of it or not. -/
theorem unsigned?_ofNat {limit n : Nat} (h : n ≤ limit) (zeros : Nat) :
    unsigned? limit (List.replicate zeros '0' ++ (ofNat n).toList) = some n := by
  have hdigits : ∀ c ∈ List.replicate zeros '0' ++ (ofNat n).toList, c.isDigit = true := by
    intro c hc
    rcases List.mem_append.1 hc with hc | hc
    · rw [List.eq_of_mem_replicate hc]
      decide
    · exact isDigit_of_mem_ofNat hc
  have hvalue : Nat.ofDigitChars 10 (List.replicate zeros '0' ++ (ofNat n).toList) 0 = n := by
    rw [Nat.ofDigitChars_append, Nat.ofDigitChars_replicate_zero, Nat.mul_zero, toList_ofNat,
      Nat.ofDigitChars_ten_toDigits]
  have hne : List.replicate zeros '0' ++ (ofNat n).toList ≠ [] := by
    rw [toList_ofNat]
    simp [Nat.toDigits_ne_nil]
  have hread := digitsFrom_eq hdigits 0
  rw [hvalue] at hread
  obtain ⟨c, r, hcons⟩ := List.exists_cons_of_ne_nil hne
  rw [hcons] at hdigits hread ⊢
  unfold unsigned?
  split
  · rename_i hplus
    rw [List.cons.injEq] at hplus
    exact absurd (hdigits c (List.mem_cons_self ..)) (by rw [hplus.1]; decide)
  · rw [digits?, hread]
    · simp [h]
    · exact fun hnil => (nomatch hnil)

end ExternalSort.Text.Numeral
