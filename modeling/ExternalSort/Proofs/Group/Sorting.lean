/-
Sorting is correct.

The order of rows is told without any sorting: by the first key whose cells differ, the row
comes first whose cell precedes the other (`InOrder`).  Comparisons of cells are right, so
comparing two rows tells whether they stand in order; and that is transitive, and holds one
way or the other of any two rows.  That is all a merge sort asks for.  What a run then gives,
row by row and as a copy, are the rows in that order.
-/
import ExternalSort.Proofs.Column.Order
import ExternalSort.Proofs.Group.Memory

namespace ExternalSort

namespace Batch

variable {b : Batch} {keys : List SortKey} {columns : List (Column × Bool)} {i j k : Nat}

/-! ### The order of rows -/

/-- A row does not come behind another by sort keys: in the column of the first key its cell
precedes that of the other, or the cells are equal and the other keys decide. -/
def InOrder (b : Batch) : List SortKey → Nat → Nat → Prop
  | [], _, _ => True
  | key :: keys, i, j => ∃ c, b.columns[key.column]? = some c ∧
      (c.type.Precedes key.ascending (c.cell i) (c.cell j) ∨
        c.cell i = c.cell j ∧ b.InOrder keys i j)

theorem InOrder.trans (hij : b.InOrder keys i j) (hjk : b.InOrder keys j k) :
    b.InOrder keys i k := by
  induction keys with
  | nil => trivial
  | cons key keys ih =>
    obtain ⟨c, hc, hij⟩ := hij
    obtain ⟨c', hc', hjk⟩ := hjk
    obtain rfl : c = c' := Option.some.inj (hc.symm.trans hc')
    have hcells := c.type.compares_cells key.ascending
    refine ⟨c, hc, ?_⟩
    rcases hij with hij | ⟨heq, hij⟩
    · rcases hjk with hjk | ⟨heq', -⟩
      · exact .inl (hcells.trans _ _ _ hij hjk)
      · exact .inl (heq' ▸ hij)
    · rw [heq]
      exact hjk.imp_right fun ⟨heq', hjk⟩ => ⟨heq', ih hij hjk⟩

/-! ### Comparisons of rows -/

/-- The columns to sort by are that of the first key and those of the others. -/
theorem sortColumns_cons_eq_ok_iff {key : SortKey} :
    b.sortColumns (key :: keys) = .ok columns ↔
      ∃ c rest, b.columns[key.column]? = some c ∧ b.sortColumns keys = .ok rest ∧
        columns = (c, key.ascending) :: rest := by
  unfold sortColumns
  rw [List.mapM_cons]
  unfold column?
  cases hc : b.columns[key.column]? with
  | none =>
    constructor
    · intro h
      exact nomatch h
    · rintro ⟨c, rest, hc', -⟩
      exact nomatch hc'
  | some c =>
    rw [Sequence.ok_bind, Sequence.bind_eq_ok]
    constructor
    · rintro ⟨rest, hrest, hcons⟩
      exact ⟨c, rest, rfl, hrest, (Except.ok.inj hcons).symm⟩
    · rintro ⟨c', rest, hc', hrest, rfl⟩
      obtain rfl := Option.some.inj hc'
      exact ⟨rest, hrest, rfl⟩

/-- The columns to sort by exist. -/
theorem sortColumns_ok_iff : (∃ columns, b.sortColumns keys = .ok columns) ↔
    ∀ key ∈ keys, ∃ c, b.columns[key.column]? = some c := by
  induction keys with
  | nil => exact ⟨fun _ _ h => (nomatch h), fun _ => ⟨[], rfl⟩⟩
  | cons key keys ih =>
    simp only [sortColumns_cons_eq_ok_iff, List.forall_mem_cons, ← ih]
    constructor
    · rintro ⟨-, c, rest, hc, hrest, -⟩
      exact ⟨⟨c, hc⟩, rest, hrest⟩
    · rintro ⟨⟨c, hc⟩, rest, hrest⟩
      exact ⟨_, c, rest, hc, hrest, rfl⟩

/-- They are the columns that the keys name. -/
theorem forall_sortColumns (h : b.sortColumns keys = .ok columns) {P : Column → Prop} :
    (∀ p ∈ columns, P p.1) ↔ ∀ key ∈ keys, ∃ c, b.columns[key.column]? = some c ∧ P c := by
  induction keys generalizing columns with
  | nil =>
    obtain rfl := Except.ok.inj h
    exact ⟨fun _ _ h => (nomatch h), fun _ _ h => (nomatch h)⟩
  | cons key keys ih =>
    obtain ⟨c, rest, hc, hrest, rfl⟩ := sortColumns_cons_eq_ok_iff.1 h
    rw [List.forall_mem_cons, List.forall_mem_cons, ih hrest, hc]
    simp only [Option.some.injEq, exists_eq_left']

/-- The first key whose column does not exist is named. -/
theorem sortColumns_eq_error {key : SortKey}
    (h : keys.find? (b.columns.length ≤ ·.column) = some key) :
    b.sortColumns keys = .error (.arguments (.sortColumn key.column b.columns.length)) := by
  induction keys with
  | nil => exact nomatch h
  | cons first keys ih =>
    rw [List.find?_cons] at h
    unfold sortColumns at ih ⊢
    rw [List.mapM_cons]
    unfold column? at ih ⊢
    by_cases hfirst : b.columns.length ≤ first.column
    · rw [decide_eq_true hfirst] at h
      obtain rfl := Option.some.inj h
      rw [List.getElem?_eq_none hfirst]
      rfl
    · rw [decide_eq_false hfirst] at h
      rw [List.getElem?_eq_getElem (Nat.lt_of_not_le hfirst)]
      rw [Sequence.ok_bind, ih h]
      rfl

theorem isLE_compareRowsBy_iff (h : b.sortColumns keys = .ok columns) :
    (compareRowsBy columns i j).isLE ↔ b.InOrder keys i j := by
  induction keys generalizing columns with
  | nil =>
    obtain rfl := Except.ok.inj h
    exact ⟨fun _ => trivial, fun _ => rfl⟩
  | cons key keys ih =>
    obtain ⟨c, rest, hc, hrest, rfl⟩ := sortColumns_cons_eq_ok_iff.1 h
    have hcells := c.type.compares_cells key.ascending
    rw [compareRowsBy, Ordering.isLE_then_iff_or, Column.compareRows, hcells.lt_iff, hcells.eq_iff,
      ih hrest]
    constructor
    · intro hle
      exact ⟨c, hc, hle⟩
    · rintro ⟨c', hc', hle⟩
      obtain rfl : c = c' := Option.some.inj (hc.symm.trans hc')
      exact hle

theorem compareRowsBy_swap (columns : List (Column × Bool)) (i j : Nat) :
    (compareRowsBy columns i j).swap = compareRowsBy columns j i := by
  induction columns with
  | nil => rfl
  | cons p rest ih =>
    rw [compareRowsBy, compareRowsBy, Ordering.swap_then, ih]
    have hcells := (p.1.type.compares_cells p.2).swap_eq (p.1.cell i) (p.1.cell j)
    rw [Column.compareRows, Column.compareRows, hcells]

/-- Of two rows one does not come behind the other. -/
theorem isLE_compareRowsBy_total (columns : List (Column × Bool)) (i j : Nat) :
    ((compareRowsBy columns i j).isLE || (compareRowsBy columns j i).isLE) = true := by
  rw [← compareRowsBy_swap columns i j]
  cases compareRowsBy columns i j <;> rfl

/-! ### Sorted rows -/

theorem any_null_eq_false_iff :
    (columns.any fun c => c.1.type == .null) = false ↔ ∀ p ∈ columns, p.1.type ≠ .null := by
  rw [List.any_eq_false]
  exact forall₂_congr fun p _ => by rw [beq_iff_eq]

/-- A batch is sorted if the columns exist and have an order, and its rows can be numbered; by
comparing its rows. -/
theorem sort_eq_ok_iff {s : Selection} : b.sort keys = .ok s ↔
    ∃ columns, b.sortColumns keys = .ok columns ∧ b.rows ≤ Selection.greatestCount ∧
      (∀ p ∈ columns, p.1.type ≠ .null) ∧
      s = ⟨(List.range b.rows).mergeSort fun i j => (compareRowsBy columns i j).isLE⟩ := by
  unfold sort
  rw [Sequence.bind_eq_ok]
  refine exists_congr fun columns => and_congr_right fun _ => ?_
  by_cases hmany : Selection.greatestCount < b.rows
  · rw [if_pos hmany]
    exact ⟨fun h => (nomatch h), fun h => absurd h.1 (Nat.not_le.2 hmany)⟩
  · rw [if_neg hmany, and_iff_right (Nat.le_of_not_lt hmany)]
    rw [← any_null_eq_false_iff]
    cases columns.any fun c => c.1.type == .null with
    | true => exact ⟨fun h => (nomatch h), fun h => (nomatch h.1)⟩
    | false => exact ⟨fun h => ⟨rfl, (Except.ok.inj h).symm⟩, fun h => h.2 ▸ rfl⟩

/-- **A sorted selection has every row once, and no row before one that precedes it.** -/
theorem sorted_rows {s : Selection} (h : b.sort keys = .ok s) :
    s.rows.Perm (List.range b.rows) ∧ s.rows.Pairwise (b.InOrder keys) := by
  obtain ⟨columns, hcolumns, -, -, rfl⟩ := sort_eq_ok_iff.1 h
  have hiff := fun i j => isLE_compareRowsBy_iff (i := i) (j := j) hcolumns
  refine ⟨List.mergeSort_perm _ _, ?_⟩
  refine (List.pairwise_mergeSort ?_ ?_ _).imp fun {i j} => (hiff i j).1
  · intro i j k hij hjk
    exact (hiff i k).2 (((hiff i j).1 hij).trans ((hiff j k).1 hjk))
  · exact isLE_compareRowsBy_total columns

theorem sorted_rows_lt {s : Selection} (h : b.sort keys = .ok s) :
    ∀ s' ∈ some s, ∀ i ∈ s'.rows, i < b.rows := by
  intro s' hs' i hi
  obtain rfl := Option.some.inj hs'
  exact List.mem_range.1 ((sorted_rows h).1.mem_iff.1 hi)

/-- Without keys the rows stay where they are. -/
theorem rows_of_sort_nil {s : Selection} (h : b.sort [] = .ok s) : s.rows = List.range b.rows := by
  obtain ⟨columns, hcolumns, -, -, rfl⟩ := sort_eq_ok_iff.1 h
  obtain rfl := Except.ok.inj hcolumns
  exact List.mergeSort_of_pairwise (List.pairwise_of_forall fun _ _ => rfl)

end Batch

namespace Group.Resident

variable {r : Resident} {b : Batch} {keys : List SortKey}

/-! ### What a sorted run gives -/

/-- Requests for rows are answered with the rows in order, from the pointer on, and then with
none. -/
theorem performAll_next (r : Resident) (n : Nat) :
    (performAll (List.replicate n .next) r).1
      = (List.range n).map fun i => .row (.ok r.order[r.cursor.pointer + i]?) := by
  induction n generalizing r with
  | zero => rfl
  | succ n ih =>
    rw [List.replicate_succ, performAll, perform_next]
    dsimp only
    rw [ih, order_advance, List.range_succ_eq_map, List.map_cons, List.map_map, count_eq]
    refine congrArg (List.cons _) (List.map_congr_left fun i _ => ?_)
    exact congrArg (fun row => Answer.row (.ok row)) (getElem?_advance r.order r.cursor i)

theorem sorted_eq_ok_iff : sorted b keys = .ok r ↔
    ∃ s, b.sort keys = .ok s ∧ r = ⟨.ofBatch b, some s, b.footprint⟩ := by
  unfold sorted
  rw [Sequence.bind_eq_ok]
  refine exists_congr fun s => and_congr_right fun hs => ?_
  rw [ofBatch_of_lt (Batch.sorted_rows_lt hs), Except.ok.injEq, eq_comm]

/-- **Sorting is correct.**  A key whose column does not exist is refused by its number, whatever
else may be wrong.  A batch is sorted exactly if every key has a column with an order and its
rows can be numbered.  The run then has every row once and in order; without keys the rows stay
where they are.  Requests for rows are answered with them one after the other and then with
none, and the copy is a batch of the same schema whose rows are those, in every column. -/
theorem sorted_correct (hb : b.Valid) (keys : List SortKey) :
    (∀ key, keys.find? (b.columns.length ≤ ·.column) = some key →
      sorted b keys = .error (.arguments (.sortColumn key.column b.columns.length))) ∧
    ((∃ r, sorted b keys = .ok r) ↔
      (∀ key ∈ keys, ∃ c, b.columns[key.column]? = some c ∧ c.type ≠ .null) ∧
        b.rows ≤ Selection.greatestCount) ∧
    ∀ r, sorted b keys = .ok r → ∃ rows copy,
      r.selection = some ⟨rows⟩ ∧
      rows.Perm (List.range b.rows) ∧ rows.Pairwise (b.InOrder keys) ∧
      (keys = [] → rows = List.range b.rows) ∧
      (∀ n, (performAll (List.replicate n .next) r).1
        = (List.range n).map fun i => .row (.ok rows[i]?)) ∧
      r.materialize = .ok copy ∧ copy.Valid ∧ copy.schema = b.schema ∧ copy.rows = b.rows ∧
      ∀ (i : Nat) (hi : i < rows.length), copy.row i = b.row rows[i] := by
  refine ⟨?_, ?_, ?_⟩
  · intro key hkey
    rw [sorted, Batch.sort, Batch.sortColumns_eq_error hkey]
    rfl
  · simp only [sorted_eq_ok_iff, Batch.sort_eq_ok_iff]
    constructor
    · rintro ⟨_, _, ⟨columns, hcolumns, hrows, hnull, -⟩, -⟩
      exact ⟨(Batch.forall_sortColumns hcolumns).1 hnull, hrows⟩
    · rintro ⟨hkeys, hrows⟩
      obtain ⟨columns, hcolumns⟩ := Batch.sortColumns_ok_iff.2 fun key hkey =>
        (hkeys key hkey).imp fun _ h => h.1
      exact ⟨_, _, ⟨columns, hcolumns, hrows, (Batch.forall_sortColumns hcolumns).2 hkeys, rfl⟩,
        rfl⟩
  · intro r hr
    obtain ⟨s, hs, rfl⟩ := sorted_eq_ok_iff.1 hr
    obtain ⟨hperm, horder⟩ := Batch.sorted_rows hs
    have hshape := (Batch.valid_iff.1 hb).1
    have hcopy := materialize_of_lt hshape (Batch.sorted_rows_lt hs) b.footprint
    obtain ⟨hkeepsShape, hkeepsValues⟩ := Batch.materialize_eq_ok hcopy
    refine ⟨s.rows, _, rfl, hperm, horder, ?_, ?_, hcopy,
      Batch.valid_iff.2 ⟨hkeepsShape hshape, hkeepsValues (Batch.valid_iff.1 hb).2⟩, rfl, ?_,
      fun i hi => b.row_taken hi⟩
    · rintro rfl
      exact Batch.rows_of_sort_nil hs
    · intro n
      rw [performAll_next]
      refine List.map_congr_left fun i _ => ?_
      show Answer.row (.ok s.rows[0 + i]?) = _
      rw [Nat.zero_add]
    · exact hperm.length_eq.trans List.length_range

/-- A batch of four rows. -/
def four : Batch where
  schema := ⟨[⟨"k", .int .int64, true, .empty⟩, ⟨"v", .bool, false, .empty⟩], .empty⟩
  columns := [⟨.int .int64, [some 30, none, some 10, some 30]⟩,
    ⟨.bool, [some true, some true, some false, some false]⟩]
  rows := 4

theorem mergeSort_four {le : Nat → Nat → Bool} (h01 : le 0 1 = false) (h23 : le 2 3 = false)
    (h13 : le 1 3 = true) (h03 : le 0 3 = false) (h02 : le 0 2 = true) :
    (List.range 4).mergeSort le = [1, 3, 0, 2] := by
  show ([0, 1, 2, 3] : List Nat).mergeSort le = _
  simp [List.mergeSort, List.MergeSort.Internal.splitInTwo, *]

theorem sort_four : four.sort [⟨0, false⟩, ⟨1, true⟩] = .ok ⟨[1, 3, 0, 2]⟩ := by
  refine Batch.sort_eq_ok_iff.2 ⟨[(four.columns[0], false), (four.columns[1], true)], rfl,
    by decide, by decide, ?_⟩
  exact congrArg Selection.mk (mergeSort_four rfl rfl rfl rfl rfl).symm

/-- Four rows in falling order of the first column, where a cell is missing, and then in rising
order of the second. -/
theorem four_sorted : four.Valid ∧ ∃ r copy, sorted four [⟨0, false⟩, ⟨1, true⟩] = .ok r ∧
    (performAll (List.replicate 5 .next) r).1
      = [.row (.ok (some 1)), .row (.ok (some 3)), .row (.ok (some 0)), .row (.ok (some 2)),
        .row (.ok none)] ∧
    r.materialize = .ok copy ∧ copy.Valid ∧
    copy.row 0 = [⟨.int .int64, none⟩, ⟨.bool, some true⟩] ∧
    copy.row 1 = [⟨.int .int64, some 30⟩, ⟨.bool, some false⟩] := by
  have hvalid : four.Valid := ⟨rfl, by decide, by decide⟩
  have hsorted := sorted_eq_ok_iff.2 ⟨_, sort_four, rfl⟩
  obtain ⟨rows, copy, hselection, -, -, -, hnext, hcopy, hkept, -, -, hcells⟩ :=
    (sorted_correct hvalid [⟨0, false⟩, ⟨1, true⟩]).2.2 _ hsorted
  obtain rfl : [1, 3, 0, 2] = rows := congrArg Selection.rows (Option.some.inj hselection)
  exact ⟨hvalid, _, copy, hsorted, hnext 5, hcopy, hkept, hcells 0 (by decide), hcells 1 (by decide)⟩

end Group.Resident
end ExternalSort
