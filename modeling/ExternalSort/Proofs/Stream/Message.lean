/-
Messages, read where they were written.

A message is taken apart into its table and what follows, and the table into the number of
its kind, the length of its body and its header.  The table is verified first.  What that
costs is all that decides whether a message is read; `cost` below is what the header and
the tables under it cost, and the message itself is one table more.
-/
import ExternalSort.Proofs.Stream.Schema

namespace ExternalSort.Stream

open FlatTable FlatTable.Draft

/-! ### The table of a message -/

/-- The fields in the table of a message whose header stands at a place. -/
def messageEntries (kind bodyLength header : Nat) : List (Nat × Entry) :=
  [(0, .word 2 version), (1, .word 1 kind)] ++
    (if bodyLength = 0 then [] else [(3, .word 8 bodyLength)]) ++ [(2, .link header)]

theorem messageTable_eq (kind n : Nat) (d : Draft) :
    messageTable kind n d = (d.table (messageEntries kind n d.place)).finish
      (d.table (messageEntries kind n d.place)).place := rfl

theorem lookup_messageEntries {kind n header slot : Nat} (hslot : slot ≠ 3) :
    (messageEntries kind n header).lookup slot
      = ([(0, .word 2 version), (1, .word 1 kind), (2, .link header)] :
          List (Nat × Entry)).lookup slot := by
  have hthree : (slot == 3) = false := by simp [hslot]
  by_cases hn : n = 0
  · simp [messageEntries, hn]
  · simp [messageEntries, hn, List.lookup_cons, hthree]

theorem lookup_messageEntries_length {kind n header : Nat} :
    (messageEntries kind n header).lookup 3 = if n = 0 then none else some (.word 8 n) := by
  by_cases hn : n = 0 <;> simp [messageEntries, hn, List.lookup_cons]

theorem messageEntries_holds (kind n : Nat) {d : Draft} {header : Nat} (hheader : header ≤ d.size) :
    (∀ e ∈ messageEntries kind n header, d.Holds e.2) ∧
      (∀ e ∈ messageEntries kind n header, e.1 < greatestSlots) ∧
      (messageEntries kind n header).length ≤ greatestSlots := by
  by_cases hn : n = 0 <;> simp [messageEntries, hn, Holds, isGrain, greatestSlots, hheader]

theorem grain_table (d : Draft) (fields : List (Nat × Entry)) : 4 ≤ (d.table fields).grain :=
  Nat.le_trans (Nat.le_max_right _ 4) (body_leads_table d fields).grain

section Table

variable {bs : Buffer} {length q kind n header cost depth : Nat} {t : Table} {below : TableKind}

theorem costs_message (ht : Shown bs length q (messageEntries kind n header) t)
    (hkind : headerKind kind = some below) (hsmall : kind < 256)
    (hbelow : catalogue.Costs bs depth below (length - header) cost) :
    catalogue.Costs bs (depth + 1) .message q (1 + cost) := by
  have hlength : checkField t 3 (.word 8 : Shape TableKind) = some [] := by
    by_cases hn : n = 0
    · exact checkField_absent ht _ (by rw [lookup_messageEntries_length, if_pos hn])
    · exact checkField_word ht (by rw [lookup_messageEntries_length, if_neg hn])
  have hfields : ∀ e ∈ catalogue.fields .message, checkField t e.1 e.2 = some [] := by
    intro e he
    simp only [catalogue, tableShapes, List.mem_cons, List.not_mem_nil, or_false] at he
    rcases he with rfl | rfl | rfl
    · exact checkField_word ht (lookup_messageEntries (by decide))
    · exact hlength
    · exact checkField_absent ht _ (lookup_messageEntries (by decide))
  have hchoice : Choice.check t ⟨1, 2, headerKind⟩ = some [(below, length - header)] :=
    choice_check ht (lookup_messageEntries (by decide)) (lookup_messageEntries (by decide))
      hsmall hkind
  exact Catalogue.costs_of_below ht.stands (Catalogue.below_eq_chosen hfields hchoice)
    (.cons hbelow .nil)

end Table

/-- The header of a message: a table, wherever the draft stands, of which something can be
said and that costs so much. -/
def Header (below : TableKind) (cost : Nat) (shows : Table → Prop) (d : Draft) : Prop :=
  d.Sound ∧ d.place ≤ d.size ∧ ∀ (bs : Buffer) (length : Nat), d.Inside bs length →
    length < 2 ^ 31 → ∃ h, Table.at? bs (length - d.place) = some h ∧ shows h ∧
      ∀ depth, catalogue.Costs bs (depth + 3) below (length - d.place) cost

/-- The table of a message is read from its octets, whatever follows them, unless verifying
it costs too much. -/
theorem messageTable_read (kind n : Nat) {cost : Nat} {d : Draft} {below : TableKind}
    {shows : Table → Prop} (hheader : Header below cost shows d)
    (hkind : headerKind kind = some below) (hsmall : kind < 256) (hn : n < 2 ^ 64)
    (hlen : (messageTable kind n d).length < 2 ^ 31) (rest : Bytes) :
    ∃ t h, messageTable? (messageTable kind n d ++ rest)
        = (if cost < greatestCount then some t else none) ∧
      t.word 1 1 0 = kind ∧ bodyLength t = n ∧ t.table? 2 = some h ∧ shows h := by
  obtain ⟨hd, hplace, hshows⟩ := hheader
  obtain ⟨hholds, hslots, hcount⟩ := messageEntries_holds kind n hplace
  have hleads := leads_table hholds
  rw [messageTable_eq] at hlen ⊢
  obtain ⟨hin, hroot⟩ := inside_finish (hleads.sound hd) (grain_table _ _)
    (place_le_table _ _) (Nat.lt_trans hlen (by decide)) rest
  generalize ((d.table (messageEntries kind n d.place)).finish
    (d.table (messageEntries kind n d.place)).place) = octets at *
  obtain ⟨t, ht⟩ := Inside.table hd hholds hslots hcount hlen hin
  obtain ⟨h, hat, hsay, hcosts⟩ := hshows _ _ (hin.of_leads hleads) hlen
  have hverify := costs_message ht hkind hsmall (hcosts 60) greatestCount
  refine ⟨t, h, ?_, ht.word (lookup_messageEntries (by decide)) hsmall 0, ?_,
    ht.table? (lookup_messageEntries (by decide)) hat, hsay⟩
  · rw [messageTable?, Catalogue.root?, hroot]
    show (catalogue.verifyTable _ (60 + 3 + 1) greatestCount _ _ >>= fun _ => Table.at? _ _) = _
    rw [hverify, ht.stands, spend]
    by_cases hcost : cost < greatestCount
    · rw [if_pos (by omega), if_pos hcost]
      rfl
    · rw [if_neg (by omega), if_neg hcost]
      rfl
  · by_cases hzero : n = 0
    · rw [bodyLength, ht.word_absent (by rw [lookup_messageEntries_length, if_pos hzero]), hzero]
    · rw [bodyLength, ht.word (by rw [lookup_messageEntries_length, if_neg hzero]) hn]

/-! ### Messages in a stream -/

/-- The length that a message gives for a table of some length. -/
def tableRoom (length : Nat) : Nat := padded (length + 8) - 8

theorem le_tableRoom (length : Nat) : length ≤ tableRoom length := by
  unfold tableRoom padded grain
  omega

theorem tableRoom_lt {length : Nat} (h : length < 2 ^ 31) : tableRoom length < Nat.pow 256 4 := by
  show tableRoom length < 2 ^ 32
  unfold tableRoom padded grain
  omega

/-- A table with zeros up to the length that its message gives. -/
def roomy (table : Bytes) : Bytes :=
  table ++ List.replicate (tableRoom table.length - table.length) 0

theorem length_roomy (table : Bytes) : (roomy table).length = tableRoom table.length := by
  have := le_tableRoom table.length
  rw [roomy, List.length_append, List.length_replicate]
  omega

theorem message_eq (table body : Bytes) :
    message table body
      = marker ++ (Bytes.Little.ofNat 4 (tableRoom table.length) ++ (roomy table ++ body)) := by
  rw [message, roomy]
  simp only [List.append_assoc]
  rfl

theorem split_append (xs rest : Bytes) : split xs.length (xs ++ rest) = .ok (xs, rest) := by
  rw [split, List.take_left, List.drop_left, if_pos rfl]

theorem tableLength_message {table : Bytes} (body rest : Bytes) (h : table.length < 2 ^ 31) :
    tableLength (message table body ++ rest)
      = .ok (tableRoom table.length, roomy table ++ (body ++ rest)) := by
  have hmarker : split 4 (marker ++ (Bytes.Little.ofNat 4 (tableRoom table.length)
      ++ (roomy table ++ (body ++ rest)))) = _ := split_append marker _
  have hword := split_append (Bytes.Little.ofNat 4 (tableRoom table.length))
    (roomy table ++ (body ++ rest))
  rw [Bytes.Little.length_ofNat] at hword
  rw [message_eq, tableLength]
  simp only [List.append_assoc, hmarker, Sequence.ok_bind, if_true, hword,
    Bytes.Little.toNat_ofNat_of_lt (tableRoom_lt h)]

theorem nextTable_message {table : Bytes} (body rest : Bytes) (h : table.length < 2 ^ 31)
    (hne : table ≠ []) :
    nextTable (message table body ++ rest)
      = (readTable (roomy table)).map fun t => some (t, body ++ rest) := by
  have hroom : tableRoom table.length ≠ 0 := by
    have := le_tableRoom table.length
    have := List.length_pos_iff.2 hne
    omega
  have hfour : ¬((message table body ++ rest).take 4).length < 4 := by
    rw [message_eq, List.append_assoc, List.take_append_of_le_length (by decide)]
    decide
  have hsplit := split_append (roomy table) (body ++ rest)
  rw [length_roomy] at hsplit
  rw [nextTable, if_neg hfour, tableLength_message body rest h]
  show (if tableRoom table.length = 0 then _
    else split (tableRoom table.length) _ >>= fun w => _) = _
  rw [if_neg hroom, hsplit]
  show (readTable (roomy table) >>= fun t => Except.ok (some (t, body ++ rest))) = _
  cases readTable (roomy table) <;> rfl

/-! ### Schema messages -/

theorem header_schema (s : Schema) :
    Header .schema (tableCount s) (fun h => readSchemaTable h = .ok s) (writeSchema s .empty) := by
  have hleads := leads_writeSchema s .empty
  exact ⟨hleads.sound sound_empty, place_writeSchema s .empty,
    fun bs length hin hlen => writeSchema_kept s sound_empty hlen hin⟩

/-- The schema message is read, unless its tables are too many. -/
theorem readSchema_message (s : Schema) (rest : Bytes)
    (hlen : (messageTable schemaKind 0 (writeSchema s .empty)).length < 2 ^ 31) :
    readSchema (schemaMessage s ++ rest)
      = if tableCount s < greatestCount then .ok (s, rest) else .error .brokenTable := by
  obtain ⟨t, h, hread, hkind, -, htable, hshows⟩ := messageTable_read schemaKind 0
    (header_schema s) rfl (by decide) (by decide) hlen
    (List.replicate (tableRoom (messageTable schemaKind 0 (writeSchema s .empty)).length
      - (messageTable schemaKind 0 (writeSchema s .empty)).length) 0)
  have hlength := tableLength_message [] rest hlen
  rw [schemaMessage]
  generalize messageTable schemaKind 0 (writeSchema s .empty) = table at *
  have hsplit := split_append (roomy table) ([] ++ rest)
  rw [length_roomy] at hsplit
  have hroomy : messageTable? (roomy table) = _ := hread
  simp only [readSchema, hlength, hsplit, readTable, hroomy, Sequence.ok_bind]
  by_cases hcost : tableCount s < greatestCount
  · simp only [if_pos hcost, Sequence.ok_bind, hkind, htable]
    show (readSchemaTable h >>= fun s => Except.ok (s, [] ++ rest)) = _
    rw [hshows]
    rfl
  · simp only [if_neg hcost]
    rfl

/-! ### Where what was read stands -/

section Origin

variable {bs rest : Bytes} {n : Nat}

/-- What was split off was there. -/
theorem split_eq_ok {part : Bytes} (h : split n bs = .ok (part, rest)) :
    n ≤ bs.length ∧ part = bs.take n ∧ rest = bs.drop n := by
  unfold split at h
  dsimp only at h
  split at h
  · rename_i hlength
    rw [List.length_take] at hlength
    obtain ⟨rfl, rfl⟩ := Prod.mk.inj (Except.ok.inj h)
    exact ⟨by omega, rfl, rfl⟩
  · exact nomatch h

theorem split_suffix {part : Bytes} (h : split n bs = .ok (part, rest)) : rest <:+ bs := by
  obtain ⟨-, -, rfl⟩ := split_eq_ok h
  exact List.drop_suffix n bs

theorem tableLength_suffix (h : tableLength bs = .ok (n, rest)) : rest <:+ bs := by
  unfold tableLength at h
  obtain ⟨⟨first, behind⟩, hfirst, h⟩ := Sequence.bind_eq_ok.1 h
  dsimp only at h
  split at h
  · obtain ⟨⟨second, behind'⟩, hsecond, h⟩ := Sequence.bind_eq_ok.1 h
    obtain ⟨-, rfl⟩ := Prod.mk.inj (Except.ok.inj h)
    exact (split_suffix hsecond).trans (split_suffix hfirst)
  · obtain ⟨-, rfl⟩ := Prod.mk.inj (Except.ok.inj h)
    exact split_suffix hfirst

theorem readSchema_suffix {s : Schema} (h : readSchema bs = .ok (s, rest)) : rest <:+ bs := by
  unfold readSchema at h
  obtain ⟨⟨length, behind⟩, hlength, h⟩ := Sequence.bind_eq_ok.1 h
  obtain ⟨⟨octets, behind'⟩, hsplit, h⟩ := Sequence.bind_eq_ok.1 h
  obtain ⟨t, -, h⟩ := Sequence.bind_eq_ok.1 h
  split at h
  · obtain ⟨s', -, h⟩ := Sequence.bind_eq_ok.1 h
    obtain ⟨-, rfl⟩ := Prod.mk.inj (Except.ok.inj h)
    exact (split_suffix hsplit).trans (tableLength_suffix hlength)
  · exact nomatch h

theorem nextTable_suffix {t : Table} (h : nextTable bs = .ok (some (t, rest))) : rest <:+ bs := by
  unfold nextTable at h
  split at h
  · exact nomatch h
  obtain ⟨⟨length, behind⟩, hlength, h⟩ := Sequence.bind_eq_ok.1 h
  dsimp only at h
  split at h
  · exact nomatch h
  obtain ⟨⟨octets, behind'⟩, hsplit, h⟩ := Sequence.bind_eq_ok.1 h
  obtain ⟨t', -, h⟩ := Sequence.bind_eq_ok.1 h
  obtain ⟨-, rfl⟩ := Prod.mk.inj (Option.some.inj (Except.ok.inj h))
  exact (split_suffix hsplit).trans (tableLength_suffix hlength)

end Origin

end ExternalSort.Stream
