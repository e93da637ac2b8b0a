/-
What a cast loses.

A value that is cast goes missing where the target type cannot represent it, and nobody is
told.  `Represents` says for which values a type has one, without any casting: integers in a
range, numbers whose integer part is in a range, texts of a form, octets that some text has.
For all types between which a cast exists, a value goes missing exactly if it is not
represented.  The integer part of a floating point number is told by the bounds of the number
itself.
-/
import ExternalSort.Column.Cast
import ExternalSort.Proofs.Text.Utf8
import Mathlib.Data.Rat.Floor

namespace ExternalSort

open Text

/-! ### Ranges of integers -/

namespace IntKind

/-- The integer is one of this kind. -/
def Covers (k : IntKind) (v : Int) : Prop := k.least ≤ v ∧ v ≤ k.greatest

instance (k : IntKind) : DecidablePred k.Covers := fun v =>
  inferInstanceAs (Decidable (k.least ≤ v ∧ v ≤ k.greatest))

theorem ofInt?_eq_none_iff {k : IntKind} {v : Int} : k.ofInt? v = none ↔ ¬k.Covers v :=
  ite_eq_right_iff.trans (imp_congr_right fun _ => iff_of_false (Option.some_ne_none _) id)

/-- An integer of the kind always has a word. -/
theorem ofInt?_covered {k : IntKind} {v : Int} (h : k.Covers v) : k.ofInt? v = none ↔ ¬True :=
  ofInt?_eq_none_iff.trans (iff_of_false (not_not_intro h) (not_not_intro trivial))

/-- An integer that may be there has no word exactly if it is not there or not of the kind. -/
theorem bind_ofInt?_eq_none_iff {k : IntKind} {found : Option Int} :
    found.bind k.ofInt? = none ↔ ¬∃ v, found = some v ∧ k.Covers v := by
  simp only [Option.bind_eq_none_iff, ofInt?_eq_none_iff, not_exists, not_and]

theorem least_nonpos (k : IntKind) : k.least ≤ 0 := by
  obtain ⟨signed, size⟩ := k
  cases signed <;> cases size <;> decide

theorem greatest_pos (k : IntKind) : 0 < k.greatest := by
  obtain ⟨signed, size⟩ := k
  cases signed <;> cases size <;> decide

/-- What a word stands for is an integer of its kind. -/
theorem covers_toInt (k : IntKind) (w : BitVec k.bits) : k.Covers (k.toInt w) := by
  have hpow : ∀ n, ((Binary.twoTo n : Nat) : Int) = 2 ^ n := fun n => Int.natCast_pow 2 n
  unfold Covers least greatest toInt
  split
  · rw [hpow]
    exact ⟨w.le_toInt, Int.le_sub_one_of_lt w.toInt_lt⟩
  · exact ⟨Int.natCast_nonneg _, Int.le_sub_one_of_lt (Int.ofNat_lt.2 w.isLt)⟩

example : IntKind.int32.Covers (2 ^ 31 - 1) ∧ ¬IntKind.int32.Covers (2 ^ 31) := by decide

theorem covers_bit (k : IntKind) (b : Bool) : k.Covers (if b then 1 else 0) := by
  have hleast := k.least_nonpos
  have hgreatest := k.greatest_pos
  cases b with
  | false => exact ⟨hleast, Int.le_of_lt hgreatest⟩
  | true => exact ⟨Int.le_trans hleast Int.one_nonneg, hgreatest⟩

/-- A day is an integer of both kinds to which days can be cast. -/
theorem covers_day {k : IntKind} (h : ColumnType.castable .date (.int k)) (d : BitVec 32) :
    k.Covers d.toInt := by
  obtain ⟨hleast, hgreatest⟩ : int32.Covers d.toInt := covers_toInt int32 d
  rcases (Bool.or_eq_true ..).mp h with hk | hk
  · rw [beq_iff_eq.1 hk]
    exact ⟨hleast, hgreatest⟩
  · rw [beq_iff_eq.1 hk]
    exact ⟨Int.le_trans (by decide) hleast, Int.le_trans hgreatest (by decide)⟩

end IntKind

/-! ### Integer parts -/

namespace Binary

variable {p : Precision}

/-- A word stands for a number. -/
def Word.StandsFor (w : Word p) (x : ℚ) : Prop :=
  ∃ m q, w.magnitude = .finite m q ∧ x = (if w.isNegative then -1 else 1) * (m * 2 ^ q : ℚ)

theorem twoPower_eq (q : Int) : ((twoPower q).1 : ℚ) / (twoPower q).2 = 2 ^ q := by
  have hpow : ∀ n, ((twoTo n : Nat) : ℚ) = 2 ^ n := fun n => Nat.cast_pow 2 n
  unfold twoPower
  split
  · rw [hpow, Nat.cast_one, div_one, ← zpow_natCast, Int.toNat_of_nonneg ‹_›]
  · rw [hpow, Nat.cast_one, one_div, ← zpow_natCast, Int.toNat_of_nonneg (by omega), zpow_neg,
      inv_inv]

/-- A quotient in whole numbers is at most an integer exactly if the number is less than the
next one. -/
theorem scaled_le_iff (m : Nat) (q z : Int) :
    ((m * (twoPower q).1 / (twoPower q).2 : Nat) : Int) ≤ z ↔ (m * 2 ^ q : ℚ) < z + 1 := by
  rw [← twoPower_eq, ← mul_div_assoc, ← Nat.cast_mul, ← Int.lt_add_one_iff, Int.natCast_ediv,
    ← Rat.floor_natCast_div_natCast, Int.floor_lt, Int.cast_add, Int.cast_one]

/-- The integer part of a word is in a range around zero exactly if the word stands for a number
that is less than one beyond the range. -/
theorem truncate?_covered {w : Word p} {lo hi : Int} (hlo : lo ≤ 0) (hhi : 0 ≤ hi) :
    (∃ v, truncate? w = some v ∧ lo ≤ v ∧ v ≤ hi) ↔
      ∃ x, w.StandsFor x ∧ (lo : ℚ) - 1 < x ∧ x < hi + 1 := by
  unfold truncate? Word.StandsFor
  cases w.magnitude with
  | notNumber _ | infinite => simp
  | finite m q =>
    have hle := scaled_le_iff m q
    have hnonneg : (0 : ℚ) ≤ m * 2 ^ q := mul_nonneg m.cast_nonneg (zpow_nonneg (by decide) q)
    have hlo' : (lo : ℚ) ≤ 0 := by exact_mod_cast hlo
    have hhi' : (0 : ℚ) ≤ hi := by exact_mod_cast hhi
    simp only [Option.some.injEq, exists_eq_left', Magnitude.finite.injEq, and_assoc,
      exists_and_left, exists_eq_left]
    generalize m * (twoPower q).1 / (twoPower q).2 = n at hle ⊢
    split
    · rw [and_iff_left (by omega), and_iff_left (by linarith), le_neg, hle, Int.cast_neg]
      constructor <;> intro h <;> linarith
    · rw [and_iff_right (by omega), and_iff_right (by linarith), hle, one_mul]

/-! ### Texts of a form -/

/-- A text is a whole number in decimal: a sign or none, and digits. -/
def Spells (cs : List Char) (v : Int) : Prop :=
  ∃ n : Nat, Numeral.digits? (splitSign cs).2 = some n ∧
    (if (splitSign cs).1 then -(n : Int) else n) = v

theorem signed?_eq (lo hi : Int) (cs : List Char) : Numeral.signed? lo hi cs
    = ((Numeral.digits? (splitSign cs).2).map fun n : Nat =>
        if (splitSign cs).1 then -(n : Int) else n).filter fun v => lo ≤ v ∧ v ≤ hi := by
  unfold Numeral.signed?
  congr 1
  split
  · rfl
  · rfl
  · rename_i hplus hminus
    rw [splitSign.eq_3 _ hminus hplus]
    rfl

/-- A signed numeral is read exactly if it is a whole number in the range. -/
theorem signed?_eq_some_iff {lo hi v : Int} {cs : List Char} :
    Numeral.signed? lo hi cs = some v ↔ Spells cs v ∧ lo ≤ v ∧ v ≤ hi := by
  rw [signed?_eq, Option.filter_eq_some_iff, Option.map_eq_some_iff, decide_eq_true_iff]
  rfl

/-- A text is a floating point number: a sign or none, and no number, infinity or a decimal
numeral. -/
def Names (cs : List Char) : Prop :=
  let rest := (splitSign cs).2
  foldCase rest = "nan".toList ∨ (foldCase rest = "inf".toList ∨ foldCase rest = "infinity".toList) ∨
    (decimal? rest).isSome

theorem ofText?_eq_none_iff {p : Precision} {cs : List Char} : ofText? p cs = none ↔ ¬Names cs := by
  simp only [ofText?, Names, Option.map_eq_none_iff]
  split
  · exact iff_of_false (Option.some_ne_none _) fun h => h (.inl ‹_›)
  · split
    · exact iff_of_false (Option.some_ne_none _) fun h => h (.inr (.inl ‹_›))
    · rw [or_iff_right ‹_›, or_iff_right ‹_›, Option.map_eq_none_iff, Option.not_isSome_iff_eq_none]

end Binary

namespace ColumnType

theorem truthOf?_eq_none_iff {s : String} :
    truthOf? s = none ↔ String.ofList (foldCase (trimBlank s)) ∉ trueWords ++ falseWords := by
  unfold truthOf?
  dsimp only
  rw [List.mem_append, not_or]
  split
  · exact iff_of_false (Option.some_ne_none _) fun h => h.1 ‹_›
  · split
    · exact iff_of_false (Option.some_ne_none _) fun h => h.2 ‹_›
    · exact iff_of_true rfl ⟨‹_›, ‹_›⟩

/-! ### Values that a type can represent -/

/-- The second type has a value for a value of the first. -/
def Represents : (s t : ColumnType) → s.Value → Prop
  | .int j, .int k, w => k.Covers (j.toInt w)
  | .int k, .date, w => IntKind.int32.Covers (k.toInt w)
  | .float _, .int k, w =>
    ∃ x, Binary.Word.StandsFor w x ∧ (k.least : ℚ) - 1 < x ∧ x < k.greatest + 1
  | .text _, .bool, s => String.ofList (foldCase (trimBlank s)) ∈ trueWords ++ falseWords
  | .text _, .int k, s => ∃ v, Binary.Spells s.toList v ∧ k.Covers v
  | .text _, .float _, s => Binary.Names s.toList
  | .text _, .date, s => ∃ day, Calendar.ofText? s = some day ∧ IntKind.int32.Covers day
  | .binary, .text _, bs => ∃ s, Utf8.encode s = bs
  | _, _, _ => True

/-- A cast that comes to a cell comes to a missing one exactly if the cell is. -/
theorem ok_none_iff {α : Type} {x : Option α} :
    (.ok x : Except Fault.ColumnarFault (Option α)) = .ok none ↔ x = none :=
  ⟨Except.ok.inj, congrArg _⟩

/-- A cast that always comes to a value never comes to a missing cell. -/
theorem kept_iff {α : Type} {y : α} :
    (.ok (some y) : Except Fault.ColumnarFault (Option α)) = .ok none ↔ ¬True :=
  iff_of_false (fun h => nomatch h) (not_not_intro trivial)

/-- **A value goes missing in a cast exactly if the target type cannot represent it.** -/
theorem castValue_eq_none_iff {s t : ColumnType} (h : s.castable t) (v : s.Value) :
    s.castValue t v = .ok none ↔ ¬s.Represents t v := by
  cases s with
  | null => exact nomatch v
  | bool =>
    cases t with
    | int k => exact ok_none_iff.trans (IntKind.ofInt?_covered (k.covers_bit v))
    | null | binary | date => exact nomatch h
    | bool | float _ | text _ => exact kept_iff
  | int j =>
    cases t with
    | int k => exact ok_none_iff.trans IntKind.ofInt?_eq_none_iff
    | date => exact ok_none_iff.trans IntKind.ofInt?_eq_none_iff
    | null => exact nomatch h
    | bool | float _ | text _ | binary => exact kept_iff
  | float p =>
    cases t with
    | int k =>
      exact ok_none_iff.trans (IntKind.bind_ofInt?_eq_none_iff.trans
        (not_congr (Binary.truncate?_covered k.least_nonpos (Int.le_of_lt k.greatest_pos))))
    | null | binary | date => exact nomatch h
    | bool | float _ | text _ => exact kept_iff
  | text w =>
    cases t with
    | bool => exact ok_none_iff.trans truthOf?_eq_none_iff
    | int k =>
      refine ok_none_iff.trans (IntKind.bind_ofInt?_eq_none_iff.trans (not_congr ?_))
      refine exists_congr fun n => ?_
      rw [Binary.signed?_eq_some_iff, and_assoc]
      exact and_congr_right fun _ => and_self_iff
    | float p => exact ok_none_iff.trans Binary.ofText?_eq_none_iff
    | date => exact ok_none_iff.trans IntKind.bind_ofInt?_eq_none_iff
    | null => exact nomatch h
    | text _ | binary => exact kept_iff
  | binary =>
    cases t with
    | text w => exact ok_none_iff.trans Utf8.decode?_eq_none_iff
    | null | bool | int _ | float _ | date => exact nomatch h
    | binary => exact kept_iff
  | date =>
    cases t with
    | int k => exact ok_none_iff.trans (IntKind.ofInt?_covered (IntKind.covers_day h v))
    | text w =>
      refine iff_of_false ?_ (not_not_intro trivial)
      unfold castValue
      dsimp only
      split <;> exact fun h => nomatch h
    | null | bool | float _ | binary => exact nomatch h
    | date => exact kept_iff

/-- A type represents its own values. -/
theorem represents_self (t : ColumnType) (v : t.Value) : t.Represents t v := by
  cases t with
  | int k => exact k.covers_toInt v
  | _ => trivial

end ColumnType

end ExternalSort
