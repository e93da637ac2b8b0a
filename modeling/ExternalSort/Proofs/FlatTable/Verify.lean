/-
What verifying a buffer costs.

The walk over the tables of a buffer has a budget, so a buffer without a flaw is refused
too when it has more tables than the budget allows.  `Costs` says both: with a budget that
covers the tables the walk gives back what is left, with a smaller one it gives nothing.
A table costs one, and what the tables behind it cost together.
-/
import ExternalSort.Proofs.FlatTable.Table
import ExternalSort.Proofs.Sequence
import Mathlib.Data.List.Forall2

namespace ExternalSort.FlatTable

variable {κ : Type} {cat : Catalogue κ} {bs : Buffer} {depth : Nat}

/-- What is left of a budget after so many tables; none if it does not cover them. -/
def spend (budget cost : Nat) : Option Nat := if cost ≤ budget then some (budget - cost) else none

theorem spend_add (budget a b : Nat) :
    (spend budget a).bind (spend · b) = spend budget (a + b) := by
  by_cases ha : a ≤ budget
  · rw [spend, if_pos ha, Option.bind_some, spend, spend]
    by_cases hb : b ≤ budget - a
    · rw [if_pos hb, if_pos (by omega), Nat.sub_sub]
    · rw [if_neg hb, if_neg (by omega)]
  · rw [spend, if_neg ha, spend, if_neg (by omega)]
    rfl

/-- Verifying the table at a position takes exactly so much of any budget. -/
def Catalogue.Costs (cat : Catalogue κ) (bs : Buffer) (depth : Nat) (kind : κ)
    (position cost : Nat) : Prop :=
  ∀ budget, cat.verifyTable bs depth budget kind position = spend budget cost

theorem foldlM_spend {step : Nat → κ × Nat → Option Nat} {tables : List (κ × Nat)}
    {costs : List Nat}
    (h : List.Forall₂ (fun t cost => ∀ budget, step budget t = spend budget cost) tables costs)
    (budget : Nat) : tables.foldlM step budget = spend budget costs.sum := by
  induction h generalizing budget with
  | nil => rfl
  | @cons t cost r costs ht _ ih =>
    have hstep : (t :: r).foldlM step budget
        = (spend budget cost).bind fun left => r.foldlM step left := by
      rw [List.foldlM_cons, ht]
      rfl
    rw [hstep, List.sum_cons, ← spend_add]
    congr 1
    funext left
    exact ih left

/-- A table costs one and what the tables behind it cost. -/
theorem Catalogue.costs_of_below {kind : κ} {position : Nat} {t : Table}
    {behind : List (κ × Nat)} {costs : List Nat} (hat : Table.at? bs position = some t)
    (hbelow : cat.below kind t = some behind)
    (hcosts : List.Forall₂ (fun k cost => cat.Costs bs depth k.1 k.2 cost) behind costs) :
    cat.Costs bs (depth + 1) kind position (1 + costs.sum) := by
  intro budget
  have hunfold : cat.verifyTable bs (depth + 1) budget kind position
      = if budget = 0 then none
        else behind.foldlM (fun left k => cat.verifyTable bs depth left k.1 k.2) (budget - 1) := by
    rw [Catalogue.verifyTable, hat]
    show (if budget = 0 then none else cat.below kind t >>= fun behind =>
      behind.foldlM (fun left k => cat.verifyTable bs depth left k.1 k.2) (budget - 1)) = _
    rw [hbelow]
    rfl
  rw [hunfold]
  by_cases hzero : budget = 0
  · rw [if_pos hzero, spend, if_neg (by omega)]
  · rw [if_neg hzero, foldlM_spend hcosts, ← spend_add,
      show spend budget 1 = some (budget - 1) from if_pos (by omega), Option.bind_some]

/-! ### What is checked of one field -/

/-- The check of one field of a table; gives the tables that the field leads to. -/
def checkField (t : Table) (slot : Nat) (shape : Shape κ) : Option (List (κ × Nat)) :=
  match t.field? slot with
  | none => some []
  | some p => shape.check t.octets p

/-- The checks of the fields one by one, and of the choice, give the tables below. -/
theorem Catalogue.below_eq_some (out : Nat × Shape κ → List (κ × Nat)) {kind : κ} {t : Table}
    {chosen : List (κ × Nat)} (hfields : ∀ f ∈ cat.fields kind, checkField t f.1 f.2 = some (out f))
    (hchosen : (cat.choice kind).elim (some []) (·.check t) = some chosen) :
    cat.below kind t = some ((cat.fields kind).flatMap out ++ chosen) := by
  have hmap := Sequence.mapM_option hfields
  rw [List.flatMap_def]
  show ((cat.fields kind).mapM (fun f => checkField t f.1 f.2) >>= fun behind =>
    (cat.choice kind).elim (some []) (·.check t) >>= fun chosen =>
      some (behind.flatten ++ chosen)) = _
  rw [hmap, hchosen]
  rfl

/-- A table whose fields lead no further has at most its choice below it. -/
theorem Catalogue.below_eq_chosen {kind : κ} {t : Table} {chosen : List (κ × Nat)}
    (hfields : ∀ f ∈ cat.fields kind, checkField t f.1 f.2 = some [])
    (hchosen : (cat.choice kind).elim (some []) (·.check t) = some chosen) :
    cat.below kind t = some chosen := by
  have hnone : (cat.fields kind).flatMap (fun _ => ([] : List (κ × Nat))) = [] := by simp
  rw [Catalogue.below_eq_some (fun _ => []) hfields hchosen, hnone, List.nil_append]

variable {length q : Nat} {fields : List (Nat × Entry)} {t : Table} {slot : Nat}

theorem checkField_absent (ht : Shown bs length q fields t) (shape : Shape κ)
    (h : fields.lookup slot = none) : checkField t slot shape = some [] := by
  rw [checkField, ht.absent slot h]

theorem checkField_word (ht : Shown bs length q fields t) {width v : Nat}
    (h : fields.lookup slot = some (.word width v)) :
    checkField t slot (.word width : Shape κ) = some [] := by
  obtain ⟨p, hp, hreads⟩ := ht.present slot _ h
  have hword : alignedWord? t.octets p width = some (v % Nat.pow 256 width) := ht.octets ▸ hreads
  rw [checkField, hp]
  show (alignedWord? t.octets p width).map _ = _
  rw [hword]
  rfl

/-- What a reference in a field leads to is checked at the position of its target. -/
theorem checkField_link (ht : Shown bs length q fields t) {place : Nat}
    (h : fields.lookup slot = some (.link place)) :
    ∃ p, t.field? slot = some p ∧ target? t.octets p = some (length - place) := by
  obtain ⟨p, hp, hreads⟩ := ht.present slot _ h
  exact ⟨p, hp, ht.octets ▸ hreads⟩

theorem checkField_text (ht : Shown bs length q fields t) {place : Nat} {s : String}
    (h : fields.lookup slot = some (.link place)) (htext : text? bs (length - place) = some s) :
    checkField t slot (.text : Shape κ) = some [] := by
  obtain ⟨p, hp, htarget⟩ := checkField_link ht h
  rw [checkField, hp]
  show (target? t.octets p >>= fun q => text? t.octets q >>= fun _ => some []) = _
  rw [htarget, ht.octets]
  show (text? bs (length - place) >>= fun _ => some []) = _
  rw [htext]
  rfl

theorem checkField_items (ht : Shown bs length q fields t) {place width grain : Nat}
    {list : Nat × Nat} (h : fields.lookup slot = some (.link place))
    (hlist : list? bs (length - place) width grain = some list) :
    checkField t slot (.items width grain : Shape κ) = some [] := by
  obtain ⟨p, hp, htarget⟩ := checkField_link ht h
  rw [checkField, hp]
  show (target? t.octets p >>= fun q => list? t.octets q width grain >>= fun _ => some []) = _
  rw [htarget, ht.octets]
  show (list? bs (length - place) width grain >>= fun _ => some []) = _
  rw [hlist]
  rfl

theorem checkField_table (ht : Shown bs length q fields t) {place : Nat} (kind : κ)
    (h : fields.lookup slot = some (.link place)) :
    checkField t slot (.table kind) = some [(kind, length - place)] := by
  obtain ⟨p, hp, htarget⟩ := checkField_link ht h
  rw [checkField, hp]
  show (target? t.octets p >>= fun q => some [(kind, q)]) = _
  rw [htarget]
  rfl

theorem checkField_tables (ht : Shown bs length q fields t) {place start : Nat}
    (kind : κ) (targets : List Nat) (h : fields.lookup slot = some (.link place))
    (hlist : list? bs (length - place) 4 4 = some (start, targets.length))
    (htargets : ∀ (i : Nat) (hi : i < targets.length),
      target? bs (start + 4 * i) = some (length - targets[i])) :
    checkField t slot (.tables kind) = some (targets.map fun p => (kind, length - p)) := by
  obtain ⟨p, hp, htarget⟩ := checkField_link ht h
  rw [checkField, hp]
  show (target? t.octets p >>= fun q => list? t.octets q 4 4 >>= fun l =>
    (List.range l.2).mapM fun i => target? t.octets (l.1 + 4 * i) >>= fun q => some (kind, q)) = _
  rw [htarget, ht.octets]
  show (list? bs (length - place) 4 4 >>= fun l =>
    (List.range l.2).mapM fun i => target? bs (l.1 + 4 * i) >>= fun q => some (kind, q)) = _
  rw [hlist]
  refine Sequence.mapM_range (List.length_map ..) ?_
  intro i hi
  rw [List.length_map] at hi
  show (target? bs (start + 4 * i) >>= fun q => some (kind, q)) = _
  rw [htargets i hi, List.getElem_map]
  rfl

/-! ### What is read of one field -/

theorem Shown.word (ht : Shown bs length q fields t) {width v : Nat}
    (h : fields.lookup slot = some (.word width v)) (hvalue : v < Nat.pow 256 width)
    (default : Nat) : t.word slot width default = v := by
  obtain ⟨p, hp, hreads⟩ := ht.present slot _ h
  have hword : wordAt? bs p width = some v := by
    have haligned : alignedWord? bs p width = some (v % Nat.pow 256 width) := hreads
    rw [alignedWord?] at haligned
    split at haligned
    · rwa [Nat.mod_eq_of_lt hvalue] at haligned
    · exact absurd haligned (by simp)
  rw [Table.word, hp, ht.octets, Option.bind_some, hword]
  rfl

theorem Shown.word_absent (ht : Shown bs length q fields t) (h : fields.lookup slot = none)
    (width default : Nat) : t.word slot width default = default := by
  rw [Table.word, ht.absent slot h]
  rfl

theorem Shown.target? (ht : Shown bs length q fields t) {place : Nat}
    (h : fields.lookup slot = some (.link place)) : t.target? slot = some (length - place) := by
  obtain ⟨p, hp, htarget⟩ := checkField_link ht h
  rw [Table.target?, hp, Option.bind_some, htarget]

theorem Shown.target?_absent (ht : Shown bs length q fields t)
    (h : fields.lookup slot = none) : t.target? slot = none := by
  rw [Table.target?, ht.absent slot h]
  rfl

theorem Shown.text? (ht : Shown bs length q fields t) {place : Nat} {s : String}
    (h : fields.lookup slot = some (.link place))
    (htext : FlatTable.text? bs (length - place) = some s) : t.text? slot = some s := by
  rw [Table.text?, ht.target? h, Option.bind_some, ht.octets, htext]

theorem Shown.table? (ht : Shown bs length q fields t) {place : Nat} {below : Table}
    (h : fields.lookup slot = some (.link place))
    (hbelow : Table.at? bs (length - place) = some below) : t.table? slot = some below := by
  rw [Table.table?, ht.target? h, Option.bind_some, ht.octets, hbelow]

theorem Shown.tables? (ht : Shown bs length q fields t) {place start : Nat} {targets : List Nat}
    {tables : List Table} (h : fields.lookup slot = some (.link place))
    (hlist : list? bs (length - place) 4 4 = some (start, targets.length))
    (hlen : tables.length = targets.length)
    (htables : ∀ (i : Nat) (hi : i < targets.length) (hi' : i < tables.length),
      FlatTable.target? bs (start + 4 * i) = some (length - targets[i]) ∧
        Table.at? bs (length - targets[i]) = some tables[i]) :
    t.tables? slot = some tables := by
  rw [Table.tables?, ht.target? h, ht.octets]
  show (list? bs (length - place) 4 4 >>= fun l => (List.range l.2).mapM fun i =>
    FlatTable.target? bs (l.1 + 4 * i) >>= fun q => Table.at? bs q) = _
  rw [hlist]
  refine Sequence.mapM_range hlen ?_
  intro i hi
  obtain ⟨htarget, hat⟩ := htables i (hlen ▸ hi) hi
  show (FlatTable.target? bs (start + 4 * i) >>= fun q => Table.at? bs q) = _
  rw [htarget]
  exact hat

/-- A list of structs is read back item by item. -/
theorem Shown.structs? (ht : Shown bs length q fields t) {place width start : Nat}
    {items : List Bytes} (h : fields.lookup slot = some (.link place))
    (hwidth : ∀ x ∈ items, x.length = width)
    (hlist : list? bs (length - place) width 1 = some (start, items.length))
    (hshows : Shows bs start items.flatten) : t.structs? slot width = some items := by
  have hitems : ((List.range items.length).map fun i => window bs (start + width * i) width)
      = items := by
    refine List.ext_getElem (by simp) ?_
    intro i _ hi
    have hpart := hshows.part (width * i) width
    rw [Bytes.flatten_part hwidth i hi] at hpart
    have hwindow := hpart.window_eq
    rw [hwidth _ (List.getElem_mem hi)] at hwindow
    rw [List.getElem_map, List.getElem_range, hwindow]
  rw [Table.structs?, ht.target? h]
  show (list? t.octets (length - place) width 1 >>= fun l =>
    some ((List.range l.2).map fun i => window t.octets (l.1 + width * i) width)) = _
  rw [ht.octets, hlist]
  exact congrArg some hitems

end ExternalSort.FlatTable
