/-
What a buffer shows at a position.

Everything that is read from a buffer of tables is read at a position: words, texts,
lists.  What is needed of the writer is therefore one relation, that certain octets stand
at a certain position, and here it is taken apart as far as reading takes it apart.
-/
import ExternalSort.FlatTable.Reader

namespace ExternalSort.FlatTable

variable {bs : Buffer} {q : Nat} {xs ys : Bytes}

/-- The octets `xs` stand in a buffer from a position on. -/
def Shows (bs : Buffer) (position : Nat) (xs : Bytes) : Prop := xs <+: bs.toList.drop position

namespace Shows

theorem left (h : Shows bs q (xs ++ ys)) : Shows bs q xs :=
  (List.prefix_append xs ys).trans h

theorem right (h : Shows bs q (xs ++ ys)) : Shows bs (q + xs.length) ys := by
  obtain ⟨rest, hrest⟩ := h
  refine ⟨rest, ?_⟩
  rw [← List.drop_drop, ← hrest, List.append_assoc, List.drop_left]

theorem le_size (h : Shows bs q xs) (hne : xs ≠ []) : q + xs.length ≤ bs.size := by
  have hlen : xs.length ≤ bs.size - q := by simpa using h.length_le
  have hpos := List.length_pos_iff.2 hne
  omega

theorem window_eq (h : Shows bs q xs) : window bs q xs.length = xs := by
  obtain ⟨rest, hrest⟩ := h
  rw [FlatTable.window_eq, ← hrest, List.take_left]

/-- A part of what stands somewhere stands there too. -/
theorem part (h : Shows bs q xs) (k n : Nat) : Shows bs (q + k) ((xs.drop k).take n) := by
  obtain ⟨rest, hrest⟩ := h
  rw [Shows, ← List.drop_drop, ← hrest]
  exact (List.take_prefix _ _).trans (List.drop_append ▸ List.prefix_append _ _)

theorem word {width v : Nat} (h : Shows bs q (Bytes.Little.ofNat width v)) :
    wordAt? bs q width = some (v % Nat.pow 256 width) := by
  have hw : window bs q width = Bytes.Little.ofNat width v := by
    have := h.window_eq
    rwa [Bytes.Little.length_ofNat] at this
  rw [wordAt?, hw, Bytes.Little.toNat_ofNat]
  exact if_pos (Bytes.Little.length_ofNat width v)

theorem alignedWord {width v : Nat} (h : Shows bs q (Bytes.Little.ofNat width v))
    (hq : q % width = 0) : alignedWord? bs q width = some (v % Nat.pow 256 width) := by
  rw [alignedWord?, if_pos hq, h.word]

theorem octet {b : UInt8} (h : Shows bs q [b]) : bs[q]? = some b := by
  obtain ⟨rest, hrest⟩ := h
  rw [← Array.getElem?_toList, ← Nat.add_zero q, ← List.getElem?_drop, ← hrest]
  rfl

/-- A length of four octets with its items after it is read as a list. -/
theorem list {width grain count : Nat} {body : Bytes}
    (h : Shows bs q (Bytes.Little.ofNat 4 count ++ body)) (hq : q % 4 = 0)
    (hgrain : (q + 4) % grain = 0) (hbody : body.length = count * width)
    (hcount : count < Nat.pow 256 4) :
    list? bs q width grain = some (q + 4, count) := by
  have hsize := h.le_size (by simp [Bytes.Little.ofNat])
  rw [List.length_append, Bytes.Little.length_ofNat, hbody] at hsize
  rw [list?, h.left.alignedWord hq, Nat.mod_eq_of_lt hcount]
  show (if (q + 4) % grain = 0 ∧ q + 4 + count * width ≤ bs.size then _ else none) = _
  rw [if_pos ⟨hgrain, by omega⟩]

end Shows

end ExternalSort.FlatTable
