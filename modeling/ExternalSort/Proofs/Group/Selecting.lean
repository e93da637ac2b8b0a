/-
Selections and the rows that are there.

The rows of a selection are checked once, when the run is made.  After that only two things
bear on whether they exist.  Letting go of the rows leaves a batch without any; and closing
the run puts the empty selection in place of the one it had.  Closing does both.  A release
through to the cursor does the first alone, so after it the selection names rows that are
gone, until the run is closed.  What a state owes to its history is just this: whether the
run was closed, and whether its rows were let go of.
-/
import ExternalSort.Proofs.Group.Fitting
import ExternalSort.Proofs.Group.Sorting

namespace ExternalSort

/-! ### Places that do not exist -/

theorem Column.pick_ok_iff {α : Type} {cells : List α} {i : Nat} :
    (∃ x, pick cells.toArray i = .ok x) ↔ i < cells.length := by
  unfold pick
  rw [List.getElem?_toArray]
  constructor
  · rintro ⟨x, hx⟩
    split at hx
    · rename_i y hy
      exact (List.getElem?_eq_some_iff.1 hy).1
    · exact nomatch hx
  · intro h
    rw [List.getElem?_eq_getElem h]
    exact ⟨_, rfl⟩

/-- Cells are gathered from places that exist, and from a column that holds nothing. -/
theorem Column.gather_ok_iff {c : Column} {places : List Nat} :
    (∃ c', c.gather places = .ok c') ↔ c.type = .null ∨ ∀ i ∈ places, i < c.length := by
  unfold gather
  by_cases hnull : c.type = .null
  · rw [if_pos hnull]
    exact ⟨fun _ => .inl hnull, fun _ => ⟨_, rfl⟩⟩
  · rw [if_neg hnull, Sequence.map_ok_iff, Sequence.mapM_ok_iff, or_iff_right hnull]
    exact forall₂_congr fun i _ => pick_ok_iff

/-- Rows are gathered if they exist, or if there is no column that could tell. -/
theorem Batch.gather_ok_iff {b : Batch} (hb : b.Shaped) {places : List Nat} :
    (∃ b', b.gather places = .ok b') ↔
      (∀ c ∈ b.columns, c.type = .null) ∨ ∀ i ∈ places, i < b.rows := by
  unfold gather
  rw [Sequence.map_ok_iff, Sequence.mapM_ok_iff]
  constructor
  · intro h
    by_cases hnull : ∀ c ∈ b.columns, c.type = .null
    · exact .inl hnull
    · obtain ⟨c, hc⟩ := not_forall.1 hnull
      obtain ⟨hc, htype⟩ := Classical.not_imp.1 hc
      have hplaces := (Column.gather_ok_iff.1 (h c hc)).resolve_left htype
      rw [hb.lengths c hc] at hplaces
      exact .inr hplaces
  · rintro (hnull | hplaces) c hc
    · exact Column.gather_ok_iff.2 (.inl (hnull c hc))
    · exact Column.gather_ok_iff.2 (.inr (hb.lt_length hplaces hc))

namespace Group.Resident

variable {b : Batch} {r : Resident}

/-! ### Runs as they are made -/

/-- The ways in which a run in memory is made. -/
inductive Made (b : Batch) (r : Resident) : Prop where
  | selected {selection : Option Selection} {size : Nat} (h : ofBatch b selection size = .ok r)
  | sorted {keys : List SortKey} (h : Resident.sorted b keys = .ok r)

/-- The rows of a selection that makes a run exist. -/
theorem lt_of_ofBatch {selection : Option Selection} {size : Nat}
    (h : ofBatch b selection size = .ok r) :
    r.selection = selection ∧ ∀ s, selection = some s → ∀ i ∈ s.rows, i < b.rows := by
  unfold ofBatch at h
  split at h
  · rename_i row hgreatest
    split at h
    · exact nomatch h
    · rename_i hrow
      obtain rfl := Except.ok.inj h
      refine ⟨rfl, ?_⟩
      rintro s rfl i hi
      exact Nat.lt_of_le_of_lt ((List.max?_eq_some_iff.1 hgreatest).2 i hi) (Nat.lt_of_not_le hrow)
  · rename_i hnone
    obtain rfl := Except.ok.inj h
    refine ⟨rfl, ?_⟩
    rintro s rfl i hi
    rw [List.max?_eq_none_iff.1 hnone] at hi
    exact nomatch hi

/-- A run that is made shows the batch from its first row on, and its selection names rows that
exist. -/
theorem Made.selected_lt (h : Made b r) :
    r.cursor = .ofBatch b ∧ ∀ s, r.selection = some s → ∀ i ∈ s.rows, i < b.rows := by
  cases h with
  | selected h =>
    obtain ⟨hselection, hlt⟩ := lt_of_ofBatch h
    exact ⟨cursor_ofBatch h, hselection.symm ▸ hlt⟩
  | sorted h =>
    obtain ⟨s, hs, rfl⟩ := sorted_eq_ok_iff.1 h
    refine ⟨rfl, fun s' hs' => ?_⟩
    obtain rfl : s = s' := Option.some.inj hs'
    exact Batch.sorted_rows_lt hs s rfl

/-! ### What requests do to the selection and to the rows -/

/-- Only closing a run changes its selection. -/
theorem selection_perform (r : Resident) {op : Operation} (hop : op ≠ .close) :
    (r.perform op).2.selection = r.selection := by
  cases op with
  | close => exact absurd rfl hop
  | next | advance _ | release => rfl
  | setSchema target =>
    rcases perform_setSchema r target with ⟨f, hset⟩ | ⟨b, -, hset⟩ <;> rw [hset]

/-- Closing and releasing alone change how many rows the batch has. -/
theorem rows_perform (r : Resident) {op : Operation} (hclose : op ≠ .close)
    (hrelease : op ≠ .release) : (r.perform op).2.cursor.batch.rows = r.cursor.batch.rows := by
  cases op with
  | close => exact absurd rfl hclose
  | release => exact absurd rfl hrelease
  | next =>
    rw [perform_next]
    exact congrArg Batch.rows (Cursor.batch_advance _ _)
  | advance _ => exact congrArg Batch.rows (Cursor.batch_advance _ _)
  | setSchema target =>
    rcases perform_setSchema r target with ⟨f, hset⟩ | ⟨b, hcoerce, hset⟩ <;> rw [hset]
    exact Batch.rows_coerce hcoerce

theorem selection_close (r : Resident) :
    (r.perform .close).2.selection = r.selection.map fun _ => .cleared := rfl

/-- **A run keeps its selection until it is closed**, and has the empty one ever after. -/
theorem selection_performAll (ops : List Operation) (r : Resident) :
    (.close ∉ ops → (performAll ops r).2.selection = r.selection) ∧
    (.close ∈ ops → (performAll ops r).2.selection = r.selection.map fun _ => .cleared) := by
  induction ops generalizing r with
  | nil => exact ⟨fun _ => rfl, fun h => (nomatch h)⟩
  | cons op ops ih =>
    obtain ⟨hkept, hcleared⟩ := ih (r.perform op).2
    by_cases hop : op = .close
    · subst hop
      refine ⟨fun h => absurd (List.mem_cons_self ..) h, fun _ => ?_⟩
      by_cases hrest : .close ∈ ops
      · refine (hcleared hrest).trans ?_
        rw [selection_close, Option.map_map]
        rfl
      · exact hkept hrest
    · refine ⟨fun h => ?_, fun h => ?_⟩
      · exact (hkept fun hrest => h (List.mem_cons_of_mem _ hrest)).trans (selection_perform r hop)
      · have hrest := (List.mem_cons.1 h).resolve_left (Ne.symm hop)
        exact (hcleared hrest).trans (by rw [selection_perform r hop])

/-- **A run keeps the number of its rows until it lets go of them**, and has none ever after. -/
theorem rows_performAll (ops : List Operation) (r : Resident) :
    (.close ∉ ops → .release ∉ ops →
      (performAll ops r).2.cursor.batch.rows = r.cursor.batch.rows) ∧
    (.close ∈ ops ∨ .release ∈ ops → (performAll ops r).2.cursor.batch.rows = 0) := by
  induction ops generalizing r with
  | nil => exact ⟨fun _ _ => rfl, fun h => h.elim (fun h => nomatch h) (fun h => nomatch h)⟩
  | cons op ops ih =>
    obtain ⟨hkept, hnone⟩ := ih (r.perform op).2
    refine ⟨fun hclose hrelease => ?_, fun h => ?_⟩
    · rw [List.mem_cons, not_or] at hclose hrelease
      exact (hkept hclose.2 hrelease.2).trans
        (rows_perform r (Ne.symm hclose.1) (Ne.symm hrelease.1))
    · by_cases hrest : .close ∈ ops ∨ .release ∈ ops
      · exact hnone hrest
      -- The rows went with this request; there are none for the others to bring back.
      · obtain ⟨hclose, hrelease⟩ := not_or.1 hrest
        refine (hkept hclose hrelease).trans ?_
        rcases h.imp (fun h => (List.mem_cons.1 h).resolve_right hclose)
          (fun h => (List.mem_cons.1 h).resolve_right hrelease) with rfl | rfl <;> rfl

/-! ### Rows that exist -/

/-- The selection has not outlived the rows: it names none, or the run was closed, or nobody let
go of the rows. -/
def Accompanied (ops : List Operation) (r : Resident) : Prop :=
  (∀ s, r.selection = some s → s.rows = []) ∨ .close ∈ ops ∨ .release ∉ ops

/-- The rows that a run delivers exist exactly if its selection has not outlived them. -/
theorem Made.order_lt_iff (h : Made b r) (ops : List Operation) :
    (∀ row ∈ (performAll ops r).2.order, row < (performAll ops r).2.cursor.batch.rows) ↔
      Accompanied ops r := by
  obtain ⟨hcursor, hlt⟩ := h.selected_lt
  obtain ⟨hkept, hcleared⟩ := selection_performAll ops r
  obtain ⟨hrows, hnone⟩ := rows_performAll ops r
  cases hselection : r.selection with
  | none =>
    -- Without a selection the rows of the batch are delivered, however many there are.
    have hleft : (performAll ops r).2.selection = none := by
      by_cases hclose : .close ∈ ops
      · rw [hcleared hclose, hselection]
        rfl
      · rw [hkept hclose, hselection]
    unfold Accompanied order
    rw [hleft, hselection]
    exact ⟨fun _ => .inl (by simp), fun _ _ hi => List.mem_range.1 hi⟩
  | some s =>
    by_cases hclose : .close ∈ ops
    · have hleft : (performAll ops r).2.order = [] := by
        rw [order, hcleared hclose, hselection]
        rfl
      rw [hleft]
      exact ⟨fun _ => .inr (.inl hclose), fun _ _ hi => absurd hi List.not_mem_nil⟩
    · have hleft : (performAll ops r).2.order = s.rows := by
        rw [order, hkept hclose, hselection]
        rfl
      rw [hleft]
      by_cases hrelease : .release ∈ ops
      · rw [hnone (.inr hrelease)]
        constructor
        · intro hzero
          refine .inl fun s' hs' => ?_
          obtain rfl : s = s' := Option.some.inj (hselection.symm.trans hs')
          exact List.eq_nil_iff_forall_not_mem.2 fun i hi => absurd (hzero i hi) (Nat.not_lt_zero i)
        · rintro (hempty | hclosed | hnot)
          · rw [hempty s hselection]
            exact fun _ hi => absurd hi List.not_mem_nil
          · exact absurd hclosed hclose
          · exact absurd hrelease hnot
      · rw [hrows hclose hrelease, hcursor]
        exact ⟨fun _ => .inr (.inr hrelease), fun _ => hlt s hselection⟩

/-- **A selection names rows that exist unless it has outlived them.**  Take a run in memory
that was made of a batch, with a selection or by sorting, and any requests in any order, those
that reach through to its cursor among them.  Asked for a row it never fails by itself.  Each
row that it gives then is one that the batch has at that moment, exactly if the selection has
not outlived the rows; and exactly then, too, the rows can be copied out, where any column
holds something. -/
theorem selection_in_range_iff (hb : b.Shaped) (h : Made b r) (ops : List Operation) :
    let left := (performAll ops r).2
    (∃ row, (left.perform .next).1 = .row (.ok row)) ∧
    (Accompanied ops r ↔ ∀ row ∈ left.order, row < left.cursor.batch.rows) ∧
    (∀ row, (left.perform .next).1 = .row (.ok (some row)) →
      (row < left.cursor.batch.rows ↔ Accompanied ops r)) ∧
    ((∃ copy, left.materialize = .ok copy) ↔
      Accompanied ops r ∨ ∀ c ∈ left.cursor.batch.columns, c.type = .null) := by
  intro left
  have hiff : (∀ row ∈ left.order, row < left.cursor.batch.rows) ↔ Accompanied ops r :=
    h.order_lt_iff ops
  have hshaped : left.cursor.batch.Shaped :=
    (fitting_performAll (h.selected_lt.1 ▸ .ofBatch hb) ops).shaped
  refine ⟨⟨_, congrArg Prod.fst (perform_next left)⟩, hiff.symm, ?_, ?_⟩
  · intro row hrow
    rw [perform_next] at hrow
    have hmem : row ∈ left.order :=
      List.mem_of_getElem? (Except.ok.inj (Answer.row.inj hrow))
    refine ⟨fun hlt => .inr (.inr fun hrelease => ?_), fun hkept => hiff.2 hkept row hmem⟩
    exact Nat.ne_of_gt (Nat.zero_lt_of_lt hlt) ((rows_performAll ops r).2 (.inr hrelease))
  · rw [← hiff]
    unfold materialize order
    cases left.selection with
    | none => exact ⟨fun _ => .inl fun _ hi => List.mem_range.1 hi, fun _ => ⟨_, rfl⟩⟩
    | some s => exact (Batch.gather_ok_iff hshaped).trans or_comm

/-- Two of three rows: let go of through the cursor once one was given, and closed after that. -/
theorem closed_after_release : three.Shaped ∧ ∃ r,
    ofBatch three (some ⟨[2, 0]⟩) 0 = .ok r ∧ Accompanied [.next, .release, .close] r ∧
    ∃ copy, (performAll [.next, .release, .close] r).2.materialize = .ok copy := by
  have hshaped : three.Shaped := ⟨rfl, by decide⟩
  have hmade : ofBatch three (some ⟨[2, 0]⟩) 0 = .ok ⟨.ofBatch three, some ⟨[2, 0]⟩, 0⟩ := rfl
  have hkept : Accompanied [.next, .release, .close] ⟨.ofBatch three, some ⟨[2, 0]⟩, 0⟩ :=
    .inr (.inl (by simp))
  obtain ⟨-, -, -, hcopy⟩ :=
    selection_in_range_iff hshaped (.selected hmade) [.next, .release, .close]
  exact ⟨hshaped, _, hmade, hkept, hcopy.2 (.inl hkept)⟩

/-- Two of three rows that were let go of through the cursor: the run gives the last of the three
when it has none, and the rows cannot be copied out. -/
theorem released_behind_selection : ∃ r, ofBatch three (some ⟨[2, 0]⟩) 0 = .ok r ∧
    let left := (performAll [.release] r).2
    left.cursor.batch.rows = 0 ∧ (left.perform .next).1 = .row (.ok (some 2)) ∧
    left.materialize = .error ⟨0, 2⟩ :=
  ⟨_, rfl, rfl, rfl, rfl⟩

end Group.Resident
end ExternalSort
