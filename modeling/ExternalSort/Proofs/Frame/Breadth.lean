/-
Batches with very many columns.

How long a frame is and whether it can be read are limited apart.  The length of a message
grows with what is written in it, by a bounded number of octets for each table and each text
(`schemaRoom`).  A reader counts the tables and stops at a number of them that has nothing to
do with the length.  So there are batches whose frames are short enough to be written and have
too many tables to be read: `broad` has as many columns as one likes, of which each is two
tables and nothing else.
-/
import ExternalSort.Proofs.Frame

namespace ExternalSort

namespace Stream

open FlatTable FlatTable.Draft

/-! ### How much is put in front -/

/-- A text takes its octets and a bounded number more. -/
theorem size_text_le (d : Draft) (xs : Bytes) : (d.text xs).size ≤ d.size + xs.length + 19 := by
  have hfront := size_align_le d (xs.length + 1) isGrain_four
  have hcount := size_align_le ((d.align (xs.length + 1) 4).push (xs ++ [0])) 4 isGrain_four
  have hword : (d.text xs).size
      = (((d.align (xs.length + 1) 4).push (xs ++ [0])).align 4 4).size + 4 := size_word ..
  rw [size_push, List.length_append, List.length_singleton] at hcount
  omega

/-- A list of references takes four octets for each, and a bounded number more. -/
theorem size_links_le (d : Draft) (targets : List Nat) :
    (d.links targets).size ≤ d.size + 4 * targets.length + 18 := by
  have hfront := size_align_le d (4 * targets.length) isGrain_four
  have hmod : (d.align (4 * targets.length) 4).size % 4 = 0 := by
    have := size_align_add_mod d (4 * targets.length) isGrain_four
    omega
  have hlinked := size_linked targets hmod
  have hcount := size_align_le
    (targets.foldr (fun t d => d.link t) (d.align (4 * targets.length) 4)) 4 isGrain_four
  have hword : (d.links targets).size = ((targets.foldr (fun t d => d.link t)
      (d.align (4 * targets.length) 4)).align 4 4).size + 4 := size_word ..
  omega

/-- Things that are written one after the other take together what each of them takes. -/
theorem size_writeAll_le {α : Type} {write : α → Draft → Draft} {room : α → Nat}
    (hroom : ∀ x d, (write x d).size ≤ d.size + room x) (xs : List α) (d : Draft) :
    (writeAll write xs d).1.size ≤ d.size + (xs.map room).sum ∧
      (writeAll write xs d).2.length = xs.length := by
  induction xs generalizing d with
  | nil => exact ⟨Nat.le_refl _, rfl⟩
  | cons x r ih =>
    obtain ⟨hsize, hlength⟩ := ih (write x d)
    have hfirst := hroom x d
    rw [writeAll_cons, List.map_cons, List.sum_cons, List.length_cons, List.length_cons, hlength]
    refine ⟨?_, rfl⟩
    dsimp only
    omega

/-- So they do with the list of their places in front. -/
theorem size_listed_le {α : Type} {write : α → Draft → Draft} {room : α → Nat}
    (hroom : ∀ x d, (write x d).size ≤ d.size + room x) (xs : List α) (d : Draft) :
    ((writeAll write xs d).1.links (writeAll write xs d).2).size
      ≤ d.size + ((xs.map room).sum + 4 * xs.length + 18) := by
  obtain ⟨hsize, hlength⟩ := size_writeAll_le hroom xs d
  have hlinks := size_links_le (writeAll write xs d).1 (writeAll write xs d).2
  rw [hlength] at hlinks
  omega

/-! ### Room for a schema -/

/-- Room for a pair of metadata: its texts and its table. -/
def pairRoom (p : String × String) : Nat :=
  (Text.Utf8.encode p.1).length + (Text.Utf8.encode p.2).length + 38 + greatestTable

/-- Room for metadata: its pairs and the list of them. -/
def metadataRoom (m : Metadata) : Nat := (m.pairs.map pairRoom).sum + 4 * m.pairs.length + 18

/-- Room for a field: its metadata, its name, the table of its type with the list of children,
and its own table. -/
def fieldRoom (f : Field) : Nat :=
  metadataRoom f.metadata + (Text.Utf8.encode f.name).length + 37 + 2 * greatestTable

/-- Room for a schema: its fields and the list of them, its metadata, and its own table. -/
def schemaRoom (s : Schema) : Nat :=
  (s.fields.map fieldRoom).sum + 4 * s.fields.length + 18 + metadataRoom s.metadata +
    greatestTable

theorem size_writePair_le (p : String × String) (d : Draft) :
    (writePair p d).size ≤ d.size + pairRoom p := by
  obtain ⟨key, value, rfl, rfl, hwritten, hholds⟩ := writePair_cases p d
  have hkey := size_text_le d (Text.Utf8.encode p.1)
  have hvalue := size_text_le (d.text (Text.Utf8.encode p.1)) (Text.Utf8.encode p.2)
  have htable := size_table_le hholds (by simp [greatestSlots]) (by simp [greatestSlots])
  rw [hwritten, pairRoom]
  omega

theorem size_writeMetadata_le (m : Metadata) (d : Draft) :
    (writeMetadata m d).size ≤ d.size + metadataRoom m := by
  unfold writeMetadata
  split
  · exact Nat.le_add_right _ _
  · exact size_listed_le size_writePair_le m.pairs d

theorem size_writeType_le (t : ColumnType) (d : Draft) :
    (writeType t d).1.size ≤ d.size + greatestTable + 18 := by
  unfold writeType
  split
  · obtain ⟨hholds, hslots, hcount⟩ := typeFields_holds t (d.links [])
    have hlinks : (d.links []).size ≤ d.size + 0 + 18 := size_links_le d []
    exact Nat.le_trans (size_table_le hholds hslots hcount) (by omega)
  · obtain ⟨hholds, hslots, hcount⟩ := typeFields_holds t d
    have htable := size_table_le hholds hslots hcount
    exact Nat.le_trans (size_links_le _ []) (Nat.add_le_add_right htable 18)

theorem size_writeField_le (f : Field) (d : Draft) :
    (writeField f d).size ≤ d.size + fieldRoom f := by
  obtain ⟨w, entries, rfl, -, hwritten, -, hholds, hslots, hcount⟩ := writeField_cases f d
  have hmetadata := size_writeMetadata_le f.metadata d
  have hname : (named f d).size ≤ _ := size_text_le _ (Text.Utf8.encode f.name)
  have htype := size_writeType_le f.type (named f d)
  have htable := size_table_le hholds hslots hcount
  rw [hwritten, fieldRoom]
  omega

theorem size_writeSchema_le (s : Schema) (d : Draft) :
    (writeSchema s d).size ≤ d.size + schemaRoom s := by
  obtain ⟨w, entries, rfl, -, hwritten, -, hholds, hslots, hcount⟩ := writeSchema_cases s d
  have hfields : (fielded s d).size ≤ _ := size_listed_le size_writeField_le s.fields d
  have hmetadata := size_writeMetadata_le s.metadata (fielded s d)
  have htable := size_table_le hholds hslots hcount
  rw [hwritten, schemaRoom]
  omega

/-! ### Room for a message -/

theorem tableRoom_le (length : Nat) : tableRoom length ≤ length + 63 := by
  unfold tableRoom padded grain
  omega

/-- **A schema message is no longer than the room for its schema**, but for a bounded number of
octets. -/
theorem length_schemaMessage_le (s : Schema) :
    (schemaMessage s).length ≤ schemaRoom s + greatestTable + 89 := by
  have hleads := leads_writeSchema s .empty
  obtain ⟨hholds, hslots, hcount⟩ :=
    messageEntries_holds schemaKind 0 (place_writeSchema s .empty)
  have hschema := size_writeSchema_le s .empty
  have htable := size_table_le hholds hslots hcount
  have hfinish := length_finish_le ((leads_table hholds).sound (hleads.sound sound_empty))
    ((writeSchema s .empty).table (messageEntries schemaKind 0 (writeSchema s .empty).place)).place
  have hroom := tableRoom_le (messageTable schemaKind 0 (writeSchema s .empty)).length
  have hempty : Draft.empty.size = 0 := rfl
  rw [← messageTable_eq] at hfinish
  rw [schemaMessage, length_message, List.length_nil]
  omega

/-- A stream is no longer than its messages may be. -/
theorem length_write_le (compression : Compression) (b : Batch) :
    (write compression b).length
      ≤ schemaRoom b.schema + 4 * greatestTable + 222 +
        16 * ((storedBuffers compression b).length + b.columns.length) +
        (bodyFor compression b).length := by
  have hschema := length_schemaMessage_le b.schema
  have htable : (tableFor compression b).length ≤ _ := length_batchTable_le ..
  have hroom := tableRoom_le (tableFor compression b).length
  rw [length_extentsFrom] at htable
  rw [write, List.length_append, List.length_append, length_batchMessage,
    show endMark.length = 8 from rfl]
  omega

end Stream

/-! ### A batch with so many columns -/

namespace Batch

open ExternalSort.Stream FlatTable

/-- One row in `n` columns without a name, each of which holds nothing. -/
def broad (n : Nat) : Batch where
  schema := ⟨List.replicate n ⟨"", .null, true, .empty⟩, .empty⟩
  columns := List.replicate n (.absent .null 1)
  rows := 1

theorem valid_broad (n : Nat) : (broad n).Valid := by
  constructor
  case types =>
    rw [broad, List.map_replicate, List.map_replicate]
    rfl
  case lengths =>
    intro c hc
    rw [List.eq_of_mem_replicate hc]
    rfl
  case required =>
    intro p hp hrequired
    rw [List.eq_of_mem_replicate (List.of_mem_zip hp).1] at hrequired
    exact nomatch hrequired

theorem tableCount_broad (n : Nat) : tableCount (broad n).schema = 1 + 2 * n := by
  rw [tableCount, broad, List.map_replicate, List.sum_replicate_nat, Nat.mul_comm]
  rfl

theorem storedBuffers_broad (compression : Compression) (n : Nat) :
    storedBuffers compression (broad n) = [] := by
  rw [storedBuffers, broad, List.map_eq_nil_iff, List.flatMap_eq_nil_iff]
  intro c hc
  rw [List.eq_of_mem_replicate hc]
  rfl

/-- Its frame takes a bounded number of octets for each column. -/
theorem length_write_broad_le (compression : Compression) (n : Nat) :
    (Stream.write compression (broad n)).length ≤ 650 * n + 1800 := by
  have hwrite := length_write_le compression (broad n)
  have hfield : fieldRoom ⟨"", .null, true, .empty⟩ = 629 := rfl
  have hschema : schemaRoom (broad n).schema = n * 629 + 4 * n + 323 := by
    rw [schemaRoom, broad, List.map_replicate, List.sum_replicate_nat, List.length_replicate,
      hfield, show metadataRoom .empty = 18 from rfl, show Draft.greatestTable = 287 from rfl]
  have hcolumns : (broad n).columns.length = n := List.length_replicate
  rw [bodyFor, storedBuffers_broad, hschema, hcolumns] at hwrite
  have htable : Draft.greatestTable = 287 := rfl
  simp only [bodyOf, List.flatMap_nil, List.length_nil] at hwrite
  omega

end Batch

/-- Up to a million columns it can be written. -/
theorem Frame.writable_broad (codec : Codec) {n : Nat} (h : n ≤ 1000000) :
    Writable codec (Batch.broad n) := by
  refine ⟨Batch.valid_broad n, Nat.le_trans (Batch.length_write_broad_le codec.compression n) ?_⟩
  have hgreatest : greatestPayload = 1073741824 := rfl
  omega

/-- From half a million columns on it is not read. -/
theorem Codec.reread_broad {n : Nat} (h : 500000 ≤ n) :
    reread (Batch.broad n) = .error (.columnar .brokenTable) := by
  have hgreatest : FlatTable.greatestCount = 1000000 := rfl
  rw [reread, Batch.tableCount_broad, if_neg (by omega)]

end ExternalSort
