/-
What the comparison of cells means.

The order of a type is told here without any comparison being made: `Below` says which of
two values comes first, `Precedes` which of two cells.  A comparison is right if it tells
these apart from equal ones and from those the other way round (`Compares`).  Right
comparisons are made from right ones, by looking at a key that no two values share, by
turning them round, and by letting missing cells come first.  So that every comparison of
cells is right comes down to integers and octet strings.
-/
import ExternalSort.Column.Order
import ExternalSort.Proofs.Text.Utf8

namespace ExternalSort

/-! ### Right comparisons -/

/-- A comparison that tells which of two comes first, where the order is linear. -/
structure Compares {α : Type} (cmp : α → α → Ordering) (below : α → α → Prop) : Prop where
  lt_iff : ∀ a b, cmp a b = .lt ↔ below a b
  eq_iff : ∀ a b, cmp a b = .eq ↔ a = b
  gt_iff : ∀ a b, cmp a b = .gt ↔ below b a
  trans : ∀ a b c, below a b → below b c → below a c

namespace Compares

variable {α β : Type} {cmp : α → α → Ordering} {below : α → α → Prop}

theorem swap_eq (h : Compares cmp below) (a b : α) : (cmp a b).swap = cmp b a := by
  cases hab : cmp a b with
  | lt => exact ((h.gt_iff b a).2 ((h.lt_iff a b).1 hab)).symm
  | eq => exact ((h.eq_iff b a).2 ((h.eq_iff a b).1 hab).symm).symm
  | gt => exact ((h.lt_iff b a).2 ((h.gt_iff a b).1 hab)).symm

/-- Turned round, a comparison is right for the order turned round. -/
theorem flip (h : Compares cmp below) :
    Compares (fun a b => (cmp a b).swap) (fun a b => below b a) where
  lt_iff a b := by rw [Ordering.swap_eq_lt, h.gt_iff]
  eq_iff a b := by rw [Ordering.swap_eq_eq, h.eq_iff]
  gt_iff a b := by rw [Ordering.swap_eq_gt, h.lt_iff]
  trans a b c hab hbc := h.trans c b a hbc hab

/-- Values may be compared by a key that no two of them share. -/
theorem on (h : Compares cmp below) {key : β → α} (hkey : ∀ a b, key a = key b → a = b) :
    Compares (fun a b => cmp (key a) (key b)) (fun a b => below (key a) (key b)) where
  lt_iff a b := h.lt_iff _ _
  eq_iff a b := by rw [h.eq_iff]; exact ⟨hkey a b, congrArg key⟩
  gt_iff a b := h.gt_iff _ _
  trans a b c := h.trans _ _ _

theorem of_iff {below' : α → α → Prop} (h : Compares cmp below)
    (hiff : ∀ a b, below a b ↔ below' a b) : Compares cmp below' := by
  obtain rfl : below = below' := funext fun a => funext fun b => propext (hiff a b)
  exact h

end Compares

theorem compares_int : Compares (fun a b : Int => compare a b) (· < ·) where
  lt_iff _ _ := Int.compare_eq_lt
  eq_iff _ _ := Int.compare_eq_eq
  gt_iff _ _ := Int.compare_eq_gt
  trans _ _ _ := Int.lt_trans

theorem compares_bool :
    Compares (fun a b : Bool => compare a b) (fun a b => a = false ∧ b = true) where
  lt_iff := by decide
  eq_iff := by decide
  gt_iff := by decide
  trans := by decide

theorem compares_octet : Compares (fun a b : UInt8 => compare a b) (· < ·) where
  lt_iff _ _ := Std.compare_eq_lt
  eq_iff _ _ := Std.compare_eq_iff_eq
  gt_iff _ _ := Std.compare_eq_gt
  trans _ _ _ := UInt8.lt_trans

theorem compareOctets_swap (xs ys : Bytes) :
    (compareOctets xs ys).swap = compareOctets ys xs := by
  fun_induction compareOctets xs ys with
  | case1 => rfl
  | case2 => rfl
  | case3 => rfl
  | case4 x r y s ih => rw [compareOctets, Ordering.swap_then, ih, compares_octet.swap_eq]

theorem compareOctets_eq_lt_iff (xs ys : Bytes) : compareOctets xs ys = .lt ↔ xs < ys := by
  fun_induction compareOctets xs ys with
  | case1 => exact ⟨fun h => (nomatch h), fun h => absurd h (List.lt_irrefl _)⟩
  | case2 y s => exact ⟨fun _ => List.nil_lt_cons y s, fun _ => rfl⟩
  | case3 x r => exact ⟨fun h => (nomatch h), fun h => absurd h (List.not_lt_nil _)⟩
  | case4 x r y s ih =>
    rw [Ordering.then_eq_lt, compares_octet.lt_iff, compares_octet.eq_iff, ih, List.cons_lt_cons_iff]

theorem compareOctets_eq_eq_iff (xs ys : Bytes) : compareOctets xs ys = .eq ↔ xs = ys := by
  fun_induction compareOctets xs ys with
  | case1 => exact ⟨fun _ => rfl, fun _ => rfl⟩
  | case2 y s => exact ⟨fun h => (nomatch h), fun h => (nomatch h)⟩
  | case3 x r => exact ⟨fun h => (nomatch h), fun h => (nomatch h)⟩
  | case4 x r y s ih => rw [Ordering.then_eq_eq, compares_octet.eq_iff, ih, List.cons.injEq]

/-- Octet strings are compared in lexicographic order. -/
theorem compares_octets : Compares compareOctets (· < ·) where
  lt_iff := compareOctets_eq_lt_iff
  eq_iff := compareOctets_eq_eq_iff
  gt_iff xs ys := by rw [← compareOctets_eq_lt_iff, ← compareOctets_swap, Ordering.swap_eq_gt]
  trans _ _ _ := List.lt_trans

/-! ### Floating point numbers -/

namespace Binary.Word

variable {p : Precision}

/-- The total order of floating point words.  Negative ones come before the others; among them
the greater rest comes first, among the others the smaller one. -/
def Below (a b : Word p) : Prop :=
  match a.isNegative, b.isNegative with
  | true, true => b.unsigned < a.unsigned
  | true, false => True
  | false, true => False
  | false, false => a.unsigned < b.unsigned

theorem orderKey_lt_iff (a b : Word p) : a.orderKey < b.orderKey ↔ a.Below b := by
  unfold orderKey Below
  cases a.isNegative <;> cases b.isNegative <;>
    simp only [if_true, if_false, Bool.false_eq_true, iff_true, iff_false] <;> omega

/-- A word is its sign and the rest. -/
theorem toNat_eq (w : Word p) :
    w.toNat = (if w.isNegative then twoTo (p.bits - 1) else 0) + w.unsigned := by
  have hlt := w.isLt
  have hbits : 2 ^ p.bits = 2 * twoTo (p.bits - 1) := by cases p <;> rfl
  rw [isNegative, unsigned, BitVec.msb_eq_decide]
  show w.toNat = (if decide (twoTo (p.bits - 1) ≤ w.toNat) then _ else _) + _
  by_cases hneg : twoTo (p.bits - 1) ≤ w.toNat
  · rw [if_pos (decide_eq_true hneg), Nat.mod_eq_sub_mod hneg, Nat.mod_eq_of_lt (by omega)]
    omega
  · rw [if_neg (by simpa using hneg), Nat.mod_eq_of_lt (Nat.lt_of_not_le hneg), Nat.zero_add]

theorem orderKey_injective (a b : Word p) (h : a.orderKey = b.orderKey) : a = b := by
  refine BitVec.eq_of_toNat_eq ?_
  rw [toNat_eq a, toNat_eq b]
  unfold orderKey at h
  cases ha : a.isNegative <;> cases hb : b.isNegative <;>
    simp only [ha, hb, if_true, if_false, Bool.false_eq_true] at h ⊢ <;> omega

end Binary.Word

/-! ### Values -/

theorem IntKind.toInt_injective {k : IntKind} (a b : BitVec k.bits) (h : k.toInt a = k.toInt b) :
    a = b := by
  unfold toInt at h
  cases hsigned : k.signed with
  | true =>
    rw [if_pos hsigned, if_pos hsigned] at h
    exact BitVec.eq_of_toInt_eq h
  | false =>
    rw [if_neg (by simp [hsigned]), if_neg (by simp [hsigned])] at h
    exact BitVec.eq_of_toNat_eq (Int.ofNat.inj h)

namespace ColumnType

/-- Which of two values of a type comes first. -/
def Below : (t : ColumnType) → t.Value → t.Value → Prop
  | .null, a, _ => nomatch a
  | .bool, a, b => a = false ∧ b = true
  | .int k, a, b => k.toInt a < k.toInt b
  | .float _, a, b => Binary.Word.Below a b
  | .text _, a, b => Text.Utf8.encode a < Text.Utf8.encode b
  | .binary, a, b => a < b
  | .date, a, b => a.toInt < b.toInt

/-- Which of two cells comes first, in rising or in falling order: a missing one before all
others, either way. -/
def Precedes (t : ColumnType) (ascending : Bool) : Option t.Value → Option t.Value → Prop
  | none, none => False
  | none, some _ => True
  | some _, none => False
  | some a, some b => if ascending then t.Below a b else t.Below b a

theorem compares_values (t : ColumnType) : Compares t.compareValues t.Below := by
  cases t with
  | null => constructor <;> intro a <;> exact nomatch a
  | bool => exact compares_bool
  | int k => exact compares_int.on k.toInt_injective
  | float p =>
    exact (compares_int.on Binary.Word.orderKey_injective).of_iff Binary.Word.orderKey_lt_iff
  | text w => exact compares_octets.on fun _ _ => Text.Utf8.encode_injective
  | binary => exact compares_octets
  | date => exact compares_int.on fun a b => BitVec.eq_of_toInt_eq

/-- Values are compared in rising or in falling order. -/
theorem compares_directed (t : ColumnType) (ascending : Bool) :
    Compares (fun a b => if ascending then t.compareValues a b else (t.compareValues a b).swap)
      (fun a b => if ascending then t.Below a b else t.Below b a) := by
  cases ascending with
  | true => exact t.compares_values
  | false => exact t.compares_values.flip

/-- **Cells are compared as they precede each other**: missing ones first, and the others in
rising or in falling order. -/
theorem compares_cells (t : ColumnType) (ascending : Bool) :
    Compares (t.compareCells ascending) (t.Precedes ascending) := by
  have hvalues := t.compares_directed ascending
  refine ⟨fun x y => ?_, fun x y => ?_, fun x y => ?_, fun x y z hxy hyz => ?_⟩
  · cases x <;> cases y
    case some.some a b => exact hvalues.lt_iff a b
    all_goals simp [compareCells, Precedes]
  · cases x <;> cases y
    case some.some a b => exact (hvalues.eq_iff a b).trans Option.some_inj.symm
    all_goals simp [compareCells]
  · cases x <;> cases y
    case some.some a b => exact hvalues.gt_iff a b
    all_goals simp [compareCells, Precedes]
  · cases x <;> cases y <;> cases z
    case some.some.some a b c => exact hvalues.trans a b c hxy hyz
    all_goals first | exact hxy.elim | exact hyz.elim | trivial

end ColumnType
end ExternalSort
