/-
Texts and their octets.

Octets that came from a text give the text back, and the scan for defects finds none in
them.  The scan passes one character at a time, so the second is shown for the octets of
one character, by the four lengths that these can have.
-/
import ExternalSort.Text.Utf8

namespace ExternalSort.Text.Utf8

theorem decode?_encode (s : String) : decode? (encode s) = some s := by
  show String.fromUTF8? s.toByteArray = some s
  rw [String.fromUTF8?, dif_pos s.isValidUTF8]
  rfl

theorem encode_injective {s s' : String} (h : encode s = encode s') : s = s' :=
  Option.some.inj (by rw [← decode?_encode s, h, decode?_encode])

/-- A text that was decoded has the octets that it was decoded from. -/
theorem encode_of_decode? {bs : Bytes} {s : String} (h : decode? bs = some s) : encode s = bs := by
  unfold decode? String.fromUTF8? at h
  split at h
  · rw [← Option.some.inj h]
    rfl
  · exact nomatch h

/-- Octets are no text exactly if no text has them. -/
theorem decode?_eq_none_iff {bs : Bytes} : decode? bs = none ↔ ¬∃ s, encode s = bs := by
  constructor
  · rintro hnone ⟨s, rfl⟩
    rw [decode?_encode] at hnone
    exact nomatch hnone
  · intro hno
    refine Option.eq_none_iff_forall_ne_some.2 fun s hs => hno ⟨s, encode_of_decode? hs⟩

theorem encode_eq (s : String) : encode s = s.toList.flatMap String.utf8EncodeChar := by
  rw [encode, ← String.utf8Encode_toList]
  simp [List.utf8Encode]

/-! ### Lead octets by their numbers -/

section Lead

variable {b : UInt8}

theorem lead?_one (h : 0xC2 ≤ b.toNat ∧ b.toNat ≤ 0xDF) : lead? b = some (0x80, 0xBF, 1) := by
  have hrange : 0xC2 ≤ b ∧ b ≤ 0xDF :=
    ⟨UInt8.le_iff_toNat_le.2 h.1, UInt8.le_iff_toNat_le.2 h.2⟩
  rw [lead?, if_pos hrange]

theorem lead?_two (h : 0xE0 ≤ b.toNat ∧ b.toNat ≤ 0xEF) :
    lead? b = some (if b.toNat = 0xE0 then 0xA0 else 0x80,
      if b.toNat = 0xED then 0x9F else 0xBF, 2) := by
  unfold lead?
  simp only [UInt8.le_iff_toNat_le, ← UInt8.toNat_inj, UInt8.reduceToNat]
  rw [if_neg (by omega)]
  by_cases h0 : b.toNat = 0xE0
  · simp [h0]
  · by_cases hD : b.toNat = 0xED
    · simp [hD]
    · simp [h0, hD, show 225 ≤ b.toNat ∧ b.toNat ≤ 239 by omega]

theorem lead?_three (h : 0xF0 ≤ b.toNat ∧ b.toNat ≤ 0xF4) :
    lead? b = some (if b.toNat = 0xF0 then 0x90 else 0x80,
      if b.toNat = 0xF4 then 0x8F else 0xBF, 3) := by
  unfold lead?
  simp only [UInt8.le_iff_toNat_le, ← UInt8.toNat_inj, UInt8.reduceToNat]
  rw [if_neg (by omega), if_neg (by omega), if_neg (by omega), if_neg (by omega)]
  by_cases h0 : b.toNat = 0xF0
  · simp [h0]
  · by_cases h4 : b.toNat = 0xF4
    · simp [h4]
    · simp [h0, h4, show 241 ≤ b.toNat ∧ b.toNat ≤ 243 by omega]

end Lead

/-! ### The octets of one character -/

/-- An octet that continues a character. -/
theorem tail_step {lo hi b : UInt8} {fitting n : Nat} {r : Bytes}
    (h : lo.toNat ≤ b.toNat ∧ b.toNat ≤ hi.toNat) :
    tail lo hi fitting (n + 1) (b :: r) = tail 0x80 0xBF (fitting + 1) n r := by
  rw [tail, if_pos (by simpa only [UInt8.le_iff_toNat_le] using h)]

/-- The scan passes the octets of a character. -/
theorem scan_char (fuel offset : Nat) (c : Char) (rest : Bytes) :
    scan (fuel + 1) offset (String.utf8EncodeChar c ++ rest)
      = scan fuel (offset + (String.utf8EncodeChar c).length) rest := by
  have hvalid : c.val.toNat < 0xD800 ∨ 0xDFFF < c.val.toNat ∧ c.val.toNat < 0x110000 := c.valid
  have hoctet : ∀ n, n < 256 → (UInt8.ofNat n).toNat = n := by
    intro n hn
    rw [UInt8.toNat_ofNat', Nat.mod_eq_of_lt hn]
  have hplain : ∀ n, n < 256 → 0x80 ≤ n → ¬UInt8.ofNat n < 0x80 := by
    intro n hn hle
    rw [UInt8.lt_iff_toNat_lt, hoctet n hn]
    exact Nat.not_lt.2 hle
  unfold String.utf8EncodeChar
  generalize c.val.toNat = v at hvalid ⊢
  by_cases h1 : v ≤ 0x7F
  · have hsmall : UInt8.ofNat v < 0x80 := by
      rw [UInt8.lt_iff_toNat_lt, hoctet v (by omega)]
      exact Nat.lt_succ_of_le h1
    simp only [if_pos h1]
    show (if UInt8.ofNat v < 0x80 then _ else _) = _
    rw [if_pos hsmall]
    rfl
  by_cases h2 : v ≤ 0x7FF
  · simp only [if_neg h1, if_pos h2]
    have hlead := lead?_one (b := UInt8.ofNat (v / 64 % 32 + 192)) (by
      rw [hoctet _ (by omega)]
      omega)
    rw [List.cons_append, scan, if_neg (hplain _ (by omega) (by omega)), hlead]
    simp only [List.cons_append, List.nil_append]
    rw [tail_step (by rw [hoctet _ (by omega)]; simp; omega)]
    rfl
  by_cases h3 : v ≤ 0xFFFF
  · simp only [if_neg h1, if_neg h2, if_pos h3]
    have hlead := lead?_two (b := UInt8.ofNat (v / 4096 % 16 + 224)) (by
      rw [hoctet _ (by omega)]
      omega)
    rw [List.cons_append, scan, if_neg (hplain _ (by omega) (by omega)), hlead]
    simp only [List.cons_append, List.nil_append, hoctet (v / 4096 % 16 + 224) (by omega)]
    rw [tail_step (by
      rw [hoctet _ (by omega)]
      split <;> split <;> simp <;> omega), tail_step (by rw [hoctet _ (by omega)]; simp; omega)]
    rfl
  · simp only [if_neg h1, if_neg h2, if_neg h3]
    have hlead := lead?_three (b := UInt8.ofNat (v / 262144 % 8 + 240))
      (by rw [hoctet _ (by omega)]; omega)
    rw [List.cons_append, scan, if_neg (hplain _ (by omega) (by omega)), hlead]
    simp only [List.cons_append, List.nil_append, hoctet (v / 262144 % 8 + 240) (by omega)]
    rw [tail_step (by
      rw [hoctet _ (by omega)]
      split <;> split <;> simp <;> omega), tail_step (by rw [hoctet _ (by omega)]; simp; omega),
      tail_step (by rw [hoctet _ (by omega)]; simp; omega)]
    rfl

theorem defect?_encode (s : String) : defect? (encode s) = none := by
  have hscan : ∀ (cs : List Char) (fuel offset : Nat),
      scan fuel offset (cs.flatMap String.utf8EncodeChar) = none := by
    intro cs
    induction cs with
    | nil => intro fuel offset; cases fuel <;> rfl
    | cons c r ih =>
      intro fuel offset
      cases fuel with
      | zero => rfl
      | succ fuel => rw [List.flatMap_cons, scan_char]; exact ih ..
  rw [defect?, encode_eq]
  exact hscan ..

/-- A text begins with an octet that continues no character. -/
theorem head_encode {s : String} {b : UInt8} {r : Bytes} (h : encode s = b :: r) :
    b < 0x80 ∨ 0xBF < b := by
  rw [encode_eq] at h
  have hoctet : ∀ n, 0xC0 ≤ n → n < 256 → 0xBF < UInt8.ofNat n := by
    intro n hle hn
    rw [UInt8.lt_iff_toNat_lt, UInt8.toNat_ofNat', Nat.mod_eq_of_lt hn]
    exact hle
  cases hs : s.toList with
  | nil => rw [hs] at h; exact absurd h (by simp)
  | cons c cs =>
    rw [hs, List.flatMap_cons] at h
    unfold String.utf8EncodeChar at h
    generalize c.val.toNat = v at h
    by_cases h1 : v ≤ 0x7F
    · simp only [if_pos h1, List.cons_append, List.cons.injEq] at h
      rw [← h.1, UInt8.lt_iff_toNat_lt, UInt8.toNat_ofNat', Nat.mod_eq_of_lt (by omega)]
      exact .inl (Nat.lt_succ_of_le h1)
    by_cases h2 : v ≤ 0x7FF
    · simp only [if_neg h1, if_pos h2, List.cons_append, List.cons.injEq] at h
      exact .inr (h.1 ▸ hoctet _ (by omega) (by omega))
    by_cases h3 : v ≤ 0xFFFF
    · simp only [if_neg h1, if_neg h2, if_pos h3, List.cons_append, List.cons.injEq] at h
      exact .inr (h.1 ▸ hoctet _ (by omega) (by omega))
    · simp only [if_neg h1, if_neg h2, if_neg h3, List.cons_append, List.cons.injEq] at h
      exact .inr (h.1 ▸ hoctet _ (by omega) (by omega))

end ExternalSort.Text.Utf8
