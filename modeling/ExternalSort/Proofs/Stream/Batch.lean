/-
Batches, read where they were written.

The table of a batch lists its columns by their numbers of cells and its buffers by their
places in the body.  Both lists are read back item by item, the buffers are cut out of the
body one after the other, and each column takes its own.  A body may announce a compression;
its buffers then say that they are stored as they are, and are found behind these words.
Together with the schema message this gives the whole stream back, unless the tables of the
schema are more than a reader will verify: `read_fitting` says exactly when.
-/
import ExternalSort.Proofs.Batch.Valid
import ExternalSort.Proofs.Stream.Column
import ExternalSort.Proofs.Stream.Message

namespace ExternalSort.Stream

open FlatTable FlatTable.Draft

/-! ### The table of a batch -/

theorem length_pairOctets (a b : Nat) : (pairOctets a b).length = 16 := by
  rw [pairOctets, List.length_append, Bytes.Little.length_ofNat, Bytes.Little.length_ofNat]

theorem pairOf_pairOctets {a b : Nat} (ha : a < 2 ^ 64) (hb : b < 2 ^ 64) :
    pairOf (pairOctets a b) = (a, b) := by
  have hlen := Bytes.Little.length_ofNat 8 a
  rw [pairOf, pairOctets, List.take_left' hlen, List.drop_left' hlen,
    Bytes.Little.toNat_ofNat_of_lt (show a < Nat.pow 256 8 from ha),
    Bytes.Little.toNat_ofNat_of_lt (show b < Nat.pow 256 8 from hb)]

/-- The octets of a list of pairs. -/
def pairsOctets (ps : List (Nat × Nat)) : List Bytes := ps.map fun p => pairOctets p.1 p.2

theorem length_of_mem_pairsOctets {ps : List (Nat × Nat)} {x : Bytes} (h : x ∈ pairsOctets ps) :
    x.length = 16 := by
  obtain ⟨p, -, rfl⟩ := List.mem_map.1 h
  exact length_pairOctets ..

theorem map_pairOf {α : Type} (f : Nat × Nat → α) (ps : List (Nat × Nat))
    (h : ∀ p ∈ ps, p.1 < 2 ^ 64 ∧ p.2 < 2 ^ 64) :
    (pairsOctets ps).map (fun x => f (pairOf x)) = ps.map f := by
  rw [pairsOctets, List.map_map]
  refine List.map_congr_left ?_
  intro p hp
  exact congrArg f (pairOf_pairOctets (h p hp).1 (h p hp).2)

/-- A list of pairs in a draft is read by whatever table refers to it. -/
theorem pairs_inside {d : Draft} {bs : Buffer} {length : Nat} {ps : List (Nat × Nat)}
    (hlen : length < 2 ^ 31) (hin : (d.structs 8 (pairsOctets ps)).Inside bs length) :
    ∃ start, list? bs (length - (d.structs 8 (pairsOctets ps)).place) 16 1
        = some (start, (pairsOctets ps).length) ∧ Shows bs start (pairsOctets ps).flatten := by
  have hwidth : ∀ x ∈ pairsOctets ps, x.length = 16 := by
    intro x hx
    exact length_of_mem_pairsOctets hx
  have hflat := Bytes.length_flatten_of_width hwidth
  have hsize := Nat.le_trans (flatten_le_structs d 8 (pairsOctets ps)) hin.size_le
  have hcount : (pairsOctets ps).length < 2 ^ 32 := by omega
  exact ⟨_, Inside.structs isGrain_eight hwidth hcount hin⟩

/-- The field in the table of a batch that refers to the table of its compression, where
there is one. -/
def codecEntries (codec : Option Nat) : List (Nat × Entry) :=
  codec.elim [] fun place => [(3, .link place)]

/-- The fields in the table of a batch whose lists stand at these places. -/
def batchEntries (rows nodes buffers : Nat) (codec : Option Nat) : List (Nat × Entry) :=
  (if rows = 0 then [] else [(0, .word 8 rows)]) ++ [(1, .link nodes), (2, .link buffers)] ++
    codecEntries codec

theorem lookup_batchEntries {rows nodes buffers slot : Nat} {codec : Option Nat}
    (hslot : slot ≠ 0) : (batchEntries rows nodes buffers codec).lookup slot
      = ([(1, Entry.link nodes), (2, .link buffers)] ++ codecEntries codec).lookup slot := by
  have hzero : (slot == 0) = false := by simp [hslot]
  by_cases hrows : rows = 0
  · simp [batchEntries, hrows]
  · simp [batchEntries, hrows, List.lookup_cons, hzero]

theorem lookup_batchEntries_rows {rows nodes buffers : Nat} {codec : Option Nat} :
    (batchEntries rows nodes buffers codec).lookup 0
      = if rows = 0 then none else some (.word 8 rows) := by
  by_cases hrows : rows = 0 <;> cases codec <;>
    simp [batchEntries, codecEntries, hrows, List.lookup_cons]

theorem lookup_batchEntries_last {rows nodes buffers : Nat} {codec : Option Nat} :
    (batchEntries rows nodes buffers codec).lookup 4 = none := by
  rw [lookup_batchEntries (by decide)]
  cases codec <;> rfl

theorem lookup_batchEntries_codec {rows nodes buffers : Nat} {codec : Option Nat} :
    (batchEntries rows nodes buffers codec).lookup 3 = codec.map Entry.link := by
  rw [lookup_batchEntries (by decide)]
  cases codec <;> rfl

theorem batchEntries_holds (rows : Nat) {d : Draft} {nodes buffers : Nat} {codec : Option Nat}
    (hnodes : nodes ≤ d.size) (hbuffers : buffers ≤ d.size)
    (hcodec : ∀ place ∈ codec, place ≤ d.size) :
    (∀ e ∈ batchEntries rows nodes buffers codec, d.Holds e.2) ∧
      (∀ e ∈ batchEntries rows nodes buffers codec, e.1 < greatestSlots) ∧
      (batchEntries rows nodes buffers codec).length ≤ greatestSlots := by
  cases codec with
  | none =>
    by_cases hrows : rows = 0 <;>
      simp [batchEntries, codecEntries, hrows, Holds, isGrain, greatestSlots, hnodes, hbuffers]
  | some place =>
    have hplace := hcodec place rfl
    by_cases hrows : rows = 0 <;>
      simp [batchEntries, codecEntries, hrows, Holds, isGrain, greatestSlots, hnodes, hbuffers,
        hplace]

/-- The pairs of numbers that stand for the columns of a batch. -/
def nodePairs (b : Batch) : List (Nat × Nat) := b.columns.map fun c => (c.length, c.missing)

/-- The pairs of numbers that stand for the buffers of a batch. -/
def extentPairs (extents : List Extent) : List (Nat × Nat) :=
  extents.map fun e => (e.offset, e.length)

theorem nodes_read {b : Batch} (h : ∀ c ∈ b.columns, c.length < 2 ^ 64) :
    (pairsOctets (nodePairs b)).map (fun x => Node.mk (pairOf x).1 (pairOf x).2)
      = b.columns.map nodeOf := by
  have hpairs := map_pairOf (fun p => Node.mk p.1 p.2) (nodePairs b) fun p hp => by
    obtain ⟨c, hc, rfl⟩ := List.mem_map.1 hp
    exact ⟨h c hc, Nat.lt_of_le_of_lt (missing_le c) (h c hc)⟩
  rw [hpairs, nodePairs, List.map_map]
  rfl

theorem extents_read {extents : List Extent}
    (h : ∀ e ∈ extents, e.offset < 2 ^ 64 ∧ e.length < 2 ^ 64) :
    (pairsOctets (extentPairs extents)).map (fun x => Extent.mk (pairOf x).1 (pairOf x).2)
      = extents := by
  have hpairs := map_pairOf (fun p => Extent.mk p.1 p.2) (extentPairs extents)
    fun p hp => by
      obtain ⟨e, he, rfl⟩ := List.mem_map.1 hp
      exact h e he
  rw [hpairs, extentPairs, List.map_map]
  exact List.map_id' extents

/-! ### The table of a compression -/

/-- The fields in the table of the compression with a number. -/
def codecFields (number : Nat) : List (Nat × Entry) :=
  if number = 0 then [] else [(0, .word 1 number)]

theorem codecFields_holds (number : Nat) (d : Draft) :
    (∀ e ∈ codecFields number, d.Holds e.2) ∧ (∀ e ∈ codecFields number, e.1 < greatestSlots) ∧
      (codecFields number).length ≤ greatestSlots := by
  by_cases hzero : number = 0 <;> simp [codecFields, hzero, Holds, isGrain, greatestSlots]

/-- The table of a compression costs one. -/
theorem costs_codec {bs : Buffer} {length q number : Nat} {t : Table}
    (ht : Shown bs length q (codecFields number) t) (depth : Nat) :
    catalogue.Costs bs (depth + 1) .compression q 1 := by
  have hnumber : checkField t 0 (.word 1 : Shape TableKind) = some [] := by
    by_cases hzero : number = 0
    · exact checkField_absent ht _ (by rw [codecFields, if_pos hzero]; rfl)
    · exact checkField_word (v := number) ht (by rw [codecFields, if_neg hzero]; rfl)
  have hmethod : checkField t 1 (.word 1 : Shape TableKind) = some [] :=
    checkField_absent ht _ (by rw [codecFields]; split <;> rfl)
  have hbelow : catalogue.below .compression t = some [] := by
    refine Catalogue.below_eq_chosen ?_ rfl
    intro e he
    simp only [catalogue, tableShapes, List.mem_cons, List.not_mem_nil, or_false] at he
    rcases he with rfl | rfl
    · exact hnumber
    · exact hmethod
  exact Catalogue.costs_of_below ht.stands hbelow .nil

/-- The methods of compression that are written have names. -/
theorem codec_lt {compression : Compression} {number : Nat}
    (h : compression.codec? = some number) : number < 2 := by
  cases compression with
  | none => exact nomatch h
  | lz4 | zstd =>
    obtain rfl := Option.some.inj h
    decide

theorem readCompression_written {bs : Buffer} {length q number : Nat} {t : Table}
    (ht : Shown bs length q (codecFields number) t) (hnumber : number < 2) :
    readCompression (some t) = .ok true := by
  have hword : t.word 0 1 0 = number := by
    by_cases hzero : number = 0
    · rw [ht.word_absent (by rw [codecFields, if_pos hzero]; rfl), hzero]
    · exact ht.word (by rw [codecFields, if_neg hzero]; rfl)
        (Nat.lt_trans hnumber (show 2 < Nat.pow 256 1 by decide)) 0
  rw [readCompression, hword, if_pos hnumber]

/-- Where there is a place, the table of a compression stands there. -/
def Announced (bs : Buffer) (length : Nat) (codec : Option Nat) : Prop :=
  ∀ place ∈ codec, ∃ t, Table.at? bs (length - place) = some t ∧
    readCompression (some t) = .ok true ∧
    ∀ depth, catalogue.Costs bs (depth + 1) .compression (length - place) 1

/-- A draft with the list of buffers in front. -/
def buffersListed (extents : List Extent) (d : Draft) : Draft :=
  d.structs 8 (pairsOctets (extentPairs extents))

/-- A draft with the list of nodes in front. -/
def nodesListed (b : Batch) (d : Draft) : Draft := d.structs 8 (pairsOctets (nodePairs b))

theorem leads_buffersListed (extents : List Extent) (d : Draft) :
    d.Leads (buffersListed extents d) :=
  leads_structs _ _ isGrain_eight

theorem leads_nodesListed (b : Batch) (d : Draft) : d.Leads (nodesListed b d) :=
  leads_structs _ _ isGrain_eight

/-- The fields in the table of a batch that is put in front of its lists. -/
def listedEntries (b : Batch) (extents : List Extent) (start : Draft) (codec : Option Nat) :
    List (Nat × Entry) :=
  batchEntries b.rows (nodesListed b (buffersListed extents start)).place
    (buffersListed extents start).place codec

theorem listedEntries_holds (b : Batch) (extents : List Extent) {start : Draft}
    {codec : Option Nat} (hplace : ∀ place ∈ codec, place ≤ start.size) :
    (∀ e ∈ listedEntries b extents start codec,
        (nodesListed b (buffersListed extents start)).Holds e.2) ∧
      (∀ e ∈ listedEntries b extents start codec, e.1 < greatestSlots) ∧
      (listedEntries b extents start codec).length ≤ greatestSlots := by
  have hnodes := leads_nodesListed b (buffersListed extents start)
  have hstart := (leads_buffersListed extents start).trans hnodes
  exact batchEntries_holds b.rows (Nat.le_refl _) hnodes.size_le
    fun place hp => Nat.le_trans (hplace place hp) hstart.size_le

/-- The table of a batch is put in front of its two lists, and these in front of the table
of the compression, if there is one. -/
theorem writeBatch_cases (compression : Compression) (b : Batch) (extents : List Extent) :
    ∃ (start : Draft) (codec : Option Nat),
      Draft.empty.Leads start ∧ start.size ≤ greatestTable ∧
      codec.isSome = compression.codec?.isSome ∧
      (∀ place ∈ codec, place ≤ start.size) ∧
      (∀ bs length, length < 2 ^ 31 → start.Inside bs length → Announced bs length codec) ∧
      writeBatch compression b extents .empty
        = (nodesListed b (buffersListed extents start)).table
            (listedEntries b extents start codec) := by
  have hlisted : ∀ (start : Draft) (codec : Option Nat),
      (nodesListed b (buffersListed extents start)).table (listedEntries b extents start codec)
        = ((start.structs 8 (extents.map fun e => pairOctets e.offset e.length)).structs 8
          (b.columns.map fun c => pairOctets (nodeOf c).length (nodeOf c).missing)).table
          (batchEntries b.rows
            ((start.structs 8 (extents.map fun e => pairOctets e.offset e.length)).structs 8
              (b.columns.map fun c => pairOctets (nodeOf c).length (nodeOf c).missing)).place
            (start.structs 8 (extents.map fun e => pairOctets e.offset e.length)).place codec) := by
    intro start codec
    simp only [listedEntries, nodesListed, buffersListed, pairsOctets, nodePairs, extentPairs,
      List.map_map]
    rfl
  cases hcompression : compression.codec? with
  | none =>
    refine ⟨.empty, none, .refl _, Nat.zero_le _, rfl, fun _ h => (nomatch h),
      fun _ _ _ _ _ h => (nomatch h), ?_⟩
    rw [hlisted, writeBatch, hcompression]
    rfl
  | some number =>
    obtain ⟨hholds, hslots, hcount⟩ := codecFields_holds number .empty
    refine ⟨_, some (Draft.empty.table (codecFields number)).place,
      leads_table hholds, ?_, rfl, ?_, ?_, ?_⟩
    · exact Nat.le_trans (size_table_le hholds hslots hcount) (Nat.le_of_eq (Nat.zero_add _))
    · rintro place ⟨⟩
      exact place_le_table _ _
    · rintro bs length hlen hin place ⟨⟩
      obtain ⟨t, ht⟩ := Inside.table sound_empty hholds hslots hcount hlen hin
      exact ⟨t, ht.stands, readCompression_written ht (codec_lt hcompression), costs_codec ht⟩
    · rw [hlisted, writeBatch, hcompression]
      rfl

/-! ### The table of a batch, read -/

/-- What a table of a batch must say. -/
def headerOf (compressed : Bool) (b : Batch) (extents : List Extent) : BatchHeader :=
  ⟨b.rows, b.columns.map nodeOf, extents, compressed⟩

section Written

variable {b : Batch} {extents : List Extent} {bs : Buffer} {t : Table}
  {length q nodes buffers nodesStart buffersStart : Nat} {codec : Option Nat}
  (ht : Shown bs length q (batchEntries b.rows nodes buffers codec) t)
  (hannounced : Announced bs length codec)
  (hnodesList : list? bs (length - nodes) 16 1
    = some (nodesStart, (pairsOctets (nodePairs b)).length))
  (hbuffersList : list? bs (length - buffers) 16 1
    = some (buffersStart, (pairsOctets (extentPairs extents)).length))

include ht hannounced hnodesList hbuffersList

theorem batchHeader_written (hrows : b.rows < 2 ^ 64)
    (hnodes : ∀ c ∈ b.columns, c.length < 2 ^ 64)
    (hextents : ∀ e ∈ extents, e.offset < 2 ^ 64 ∧ e.length < 2 ^ 64)
    (hnodesShow : Shows bs nodesStart (pairsOctets (nodePairs b)).flatten)
    (hbuffersShow : Shows bs buffersStart (pairsOctets (extentPairs extents)).flatten) :
    batchHeader t = .ok (headerOf codec.isSome b extents) := by
  have hreadNodes := ht.structs? (lookup_batchEntries (show 1 ≠ 0 by decide))
    (fun x hx => length_of_mem_pairsOctets hx) hnodesList hnodesShow
  have hreadBuffers := ht.structs? (lookup_batchEntries (show 2 ≠ 0 by decide))
    (fun x hx => length_of_mem_pairsOctets hx) hbuffersList hbuffersShow
  have hreadRows : t.word 0 8 0 = b.rows := by
    by_cases hzero : b.rows = 0
    · rw [ht.word_absent (by rw [lookup_batchEntries_rows, if_pos hzero]), hzero]
    · exact ht.word (by rw [lookup_batchEntries_rows, if_neg hzero]) hrows 0
  have hcodec : readCompression (t.table? 3) = .ok codec.isSome := by
    cases codec with
    | none =>
      rw [Table.table?, ht.target?_absent lookup_batchEntries_codec]
      rfl
    | some place =>
      obtain ⟨below, hat, hmethod, -⟩ := hannounced place rfl
      rw [ht.table? lookup_batchEntries_codec hat, hmethod]
      rfl
  simp only [batchHeader, hreadNodes, hreadBuffers, hreadRows, hcodec, nodes_read hnodes,
    extents_read hextents]
  rfl

/-- The table of a batch costs one, and another one for its compression. -/
theorem costs_batch (depth : Nat) :
    catalogue.Costs bs (depth + 2) .batch q (1 + codec.toList.length) := by
  have hrows : checkField t 0 (.word 8 : Shape TableKind) = some [] := by
    by_cases hzero : b.rows = 0
    · exact checkField_absent ht _ (by rw [lookup_batchEntries_rows, if_pos hzero])
    · exact checkField_word ht (by rw [lookup_batchEntries_rows, if_neg hzero])
  have hcodec : checkField t 3 (.table .compression)
      = some (codec.toList.map fun place => (TableKind.compression, length - place)) := by
    cases codec with
    | none => exact checkField_absent ht _ lookup_batchEntries_codec
    | some place => exact checkField_table ht _ lookup_batchEntries_codec
  have hfields : ∀ e ∈ catalogue.fields .batch, checkField t e.1 e.2 = some (if e.1 = 3 then
      codec.toList.map fun place => (TableKind.compression, length - place) else []) := by
    intro e he
    simp only [catalogue, tableShapes, List.mem_cons, List.not_mem_nil, or_false] at he
    rcases he with rfl | rfl | rfl | rfl | rfl
    · exact hrows
    · exact checkField_items ht (lookup_batchEntries (Nat.succ_ne_zero _)) hnodesList
    · exact checkField_items ht (lookup_batchEntries (Nat.succ_ne_zero _)) hbuffersList
    · exact hcodec
    · exact checkField_absent ht _ lookup_batchEntries_last
  have hbelow : catalogue.below .batch t
      = some (codec.toList.map fun place => (TableKind.compression, length - place)) := by
    rw [Catalogue.below_eq_some _ hfields (show (catalogue.choice .batch).elim (some [])
      (·.check t) = some [] from rfl)]
    cases codec <;> rfl
  cases codec with
  | none => exact Catalogue.costs_of_below ht.stands hbelow .nil
  | some place =>
    obtain ⟨below, -, -, hcost⟩ := hannounced place rfl
    exact Catalogue.costs_of_below ht.stands hbelow (.cons (hcost depth) .nil)

end Written

/-- What verifying the table of a batch costs. -/
def batchCost (compression : Compression) : Nat := 1 + compression.codec?.toList.length

theorem batchCost_lt (compression : Compression) : batchCost compression < greatestCount := by
  cases compression <;> decide

/-- The table of a batch is read where it was written. -/
theorem header_batch (compression : Compression) {b : Batch} {extents : List Extent}
    (hrows : b.rows < 2 ^ 64) (hnodes : ∀ c ∈ b.columns, c.length < 2 ^ 64)
    (hextents : ∀ e ∈ extents, e.offset < 2 ^ 64 ∧ e.length < 2 ^ 64) :
    Header .batch (batchCost compression)
      (fun h => batchHeader h = .ok (headerOf compression.codec?.isSome b extents))
      (writeBatch compression b extents .empty) := by
  obtain ⟨start, codec, hstart, -, hsame, hplace, hannounced, hwritten⟩ :=
    writeBatch_cases compression b extents
  obtain ⟨hholds, hslots, hcount⟩ := listedEntries_holds b extents hplace
  have hnodesLeads := leads_nodesListed b (buffersListed extents start)
  have hstartLeads := (leads_buffersListed extents start).trans hnodesLeads
  have hsound := hstartLeads.sound (hstart.sound sound_empty)
  have hcost : batchCost compression = 1 + codec.toList.length := by
    rw [batchCost, Option.length_toList, Option.length_toList, hsame]
  rw [hwritten, ← hsame, hcost]
  refine ⟨(leads_table hholds).sound hsound, place_le_table _ _, ?_⟩
  intro bs length hin hlen
  obtain ⟨t, ht⟩ := Inside.table hsound hholds hslots hcount hlen hin
  have hinNodes := hin.of_leads (leads_table hholds)
  have hcodec := hannounced bs length hlen (hinNodes.of_leads hstartLeads)
  obtain ⟨nodesStart, hnodesList, hnodesShow⟩ := pairs_inside hlen hinNodes
  obtain ⟨buffersStart, hbuffersList, hbuffersShow⟩ :=
    pairs_inside hlen (hinNodes.of_leads hnodesLeads)
  exact ⟨t, ht.stands, batchHeader_written ht hcodec hnodesList hbuffersList hrows hnodes hextents
      hnodesShow hbuffersShow,
    fun depth => costs_batch ht hcodec hnodesList hbuffersList (depth + 1)⟩

/-! ### The body of a batch -/

theorem length_pad (b : Bytes) : (pad b).length = padded b.length := by
  have hle : b.length ≤ padded b.length := by
    unfold padded grain
    omega
  rw [pad, List.length_append, List.length_replicate]
  omega

theorem le_padded (n : Nat) : n ≤ padded n := by
  unfold padded grain
  omega

theorem bodyOf_cons (b : Bytes) (r : List Bytes) : bodyOf (b :: r) = pad b ++ bodyOf r := rfl

theorem bodyOf_append (xs ys : List Bytes) : bodyOf (xs ++ ys) = bodyOf xs ++ bodyOf ys :=
  List.flatMap_append

theorem length_le_bodyOf {bs : List Bytes} {b : Bytes} (h : b ∈ bs) :
    b.length ≤ (bodyOf bs).length := by
  induction bs with
  | nil => exact absurd h List.not_mem_nil
  | cons x r ih =>
    rw [bodyOf_cons, List.length_append, length_pad]
    rcases List.mem_cons.1 h with rfl | h
    · exact Nat.le_trans (le_padded _) (Nat.le_add_right ..)
    · exact Nat.le_trans (ih h) (Nat.le_add_left ..)

theorem extent_le {offset : Nat} {bs : List Bytes} {e : Extent} (h : e ∈ extentsFrom offset bs) :
    e.offset + e.length ≤ offset + (bodyOf bs).length := by
  induction bs generalizing offset with
  | nil => exact absurd h List.not_mem_nil
  | cons x r ih =>
    rw [bodyOf_cons, List.length_append, length_pad]
    rcases List.mem_cons.1 h with rfl | h
    · have := le_padded x.length
      show offset + x.length ≤ _
      omega
    · have := ih h
      omega

/-- A buffer is cut out of the body where it stands. -/
theorem slice_body (front b back : Bytes) :
    slice (front ++ (pad b ++ back)) ⟨front.length, b.length⟩ = .ok b := by
  have hlen : front.length + b.length ≤ (front ++ (pad b ++ back)).length := by
    rw [List.length_append, List.length_append, length_pad]
    have := le_padded b.length
    omega
  rw [slice, if_pos hlen, List.drop_left, pad, List.append_assoc, List.take_left]

/-- The buffers that stand in a body are fetched from it one after the other. -/
theorem takeBuffers_body {fetch : Extent → Outcome Bytes} {store : Bytes → Bytes}
    {body front : Bytes} {buffers rest : List Bytes}
    (hfetch : ∀ e x, slice body e = .ok (store x) → fetch e = .ok x)
    (hbody : body = front ++ bodyOf ((buffers ++ rest).map store)) :
    takeBuffers fetch buffers.length (extentsFrom front.length ((buffers ++ rest).map store))
      = .ok (buffers, extentsFrom (front.length + (bodyOf (buffers.map store)).length)
          (rest.map store)) := by
  induction buffers generalizing front with
  | nil => rfl
  | cons b r ih =>
    rw [List.cons_append, List.map_cons, bodyOf_cons] at hbody
    have hslice : slice body ⟨front.length, (store b).length⟩ = .ok (store b) := by
      rw [hbody]
      exact slice_body front (store b) _
    have hnext := @ih (front ++ pad (store b)) (by rw [hbody, List.append_assoc])
    rw [List.length_append, length_pad] at hnext
    rw [List.cons_append, List.map_cons, List.length_cons, extentsFrom, takeBuffers,
      hfetch _ _ hslice, Sequence.ok_bind, hnext, Sequence.ok_bind, List.map_cons, bodyOf_cons,
      List.length_append, length_pad, Nat.add_assoc]

theorem length_buffersOf (c : Column) : (buffersOf c).length = (layoutOf c.type).bufferCount := by
  unfold buffersOf
  cases layoutOf c.type <;> rfl

/-- A column of nothing is all missing. -/
theorem length_eq_missing {c : Column} (h : layoutOf c.type = .nothing) :
    (nodeOf c).length = (nodeOf c).missing := by
  obtain ⟨t, cells⟩ := c
  have hall : ∀ x ∈ cells, x.isNone = true := by
    intro x _
    cases x with
    | none => rfl
    | some v => cases t with
      | null => exact nomatch v
      | _ => exact nomatch h
  exact (List.countP_eq_length.2 hall).symm

/-- The columns are read from the body that their buffers make. -/
theorem readColumns_body {fetch : Extent → Outcome Bytes} {store : Bytes → Bytes} {body : Bytes}
    (front : Bytes) {fields : List Field} {columns : List Column}
    (hfetch : ∀ e x, slice body e = .ok (store x) → fetch e = .ok x)
    (htypes : columns.map (·.type) = fields.map (·.type))
    (hbody : body = front ++ bodyOf ((columns.flatMap buffersOf).map store))
    (hfitting : ∀ c ∈ columns, Fitting c) :
    readColumns fetch fields (columns.map nodeOf)
      (extentsFrom front.length ((columns.flatMap buffersOf).map store)) = .ok columns := by
  induction columns generalizing front fields with
  | nil =>
    rw [List.map_nil, eq_comm, List.map_eq_nil_iff] at htypes
    rw [htypes]
    rfl
  | cons c cs ih =>
    cases fields with
    | nil => exact absurd htypes (by simp)
    | cons f fs =>
      rw [List.map_cons, List.map_cons, List.cons.injEq] at htypes
      obtain ⟨htype, hrest⟩ := htypes
      rw [List.flatMap_cons] at hbody
      have htake := takeBuffers_body hfetch hbody
      have hnext := ih (front ++ bodyOf ((buffersOf c).map store)) hrest
        (by rw [hbody, List.map_append, bodyOf_append, List.append_assoc])
        (fun c' hc' => hfitting c' (List.mem_cons_of_mem _ hc'))
      rw [List.length_append] at hnext
      have hcolumn := readColumn_buffersOf (hfitting c (List.mem_cons_self ..))
      have hcount : ¬(layoutOf f.type = .nothing ∧ (nodeOf c).length ≠ (nodeOf c).missing) :=
        fun h => h.2 (length_eq_missing (htype ▸ h.1))
      rw [length_buffersOf, htype] at htake
      rw [htype] at hcolumn
      rw [List.map_cons, List.flatMap_cons, readColumns]
      simp only [if_neg hcount, htake, Sequence.ok_bind, hcolumn, Except.mapError, hnext]

/-! ### Buffers of a compressed body -/

theorem length_le_stored (compression : Compression) (b : Bytes) :
    b.length ≤ (stored compression b).length := by
  unfold stored
  split
  · exact Nat.le_refl _
  · rw [List.length_append]
    exact Nat.le_add_left ..

/-- A buffer is found behind what a compressed body says of it. -/
theorem unstored_stored {compression : Compression} (h : compression ≠ .none) (b : Bytes) :
    unstored (stored compression b) = .ok b := by
  cases b with
  | nil => rw [stored, if_pos (.inr rfl)]; rfl
  | cons x r =>
    have hne : ¬(compression = .none ∨ (x :: r).isEmpty = true) := by simp [h]
    have hsplit := split_append (List.replicate 8 0xFF) (x :: r)
    rw [List.length_replicate] at hsplit
    rw [stored, if_neg hne, unstored, if_neg (by simp), hsplit]
    rfl

theorem isSome_codec (compression : Compression) :
    compression.codec?.isSome = true ↔ compression ≠ .none := by
  cases compression <;> simp [Compression.codec?]

/-- A buffer is fetched as it was before it was stored. -/
theorem fetch_stored {compression : Compression} {body : Bytes} {e : Extent} {b : Bytes}
    (h : slice body e = .ok (stored compression b)) :
    (slice body e >>= fun x =>
      if compression.codec?.isSome then unstored x else Except.ok x) = .ok b := by
  rw [h, Sequence.ok_bind]
  by_cases hnone : compression = .none
  · subst hnone
    exact congrArg Except.ok (if_pos (.inl rfl))
  · rw [if_pos ((isSome_codec compression).2 hnone)]
    exact unstored_stored hnone b

/-! ### Streams -/

theorem length_message (table body : Bytes) :
    (message table body).length = 8 + tableRoom table.length + body.length := by
  rw [message_eq, List.length_append, List.length_append, List.length_append, length_roomy,
    Bytes.Little.length_ofNat]
  show 4 + (4 + (tableRoom table.length + body.length)) = _
  omega

/-- The buffers of a batch, as they stand in the body. -/
def storedBuffers (compression : Compression) (b : Batch) : List Bytes :=
  (b.columns.flatMap buffersOf).map (stored compression)

/-- The body of the message of a batch. -/
def bodyFor (compression : Compression) (b : Batch) : Bytes := bodyOf (storedBuffers compression b)

/-- The table of the message of a batch. -/
def tableFor (compression : Compression) (b : Batch) : Bytes :=
  messageTable batchKind (bodyFor compression b).length
    (writeBatch compression b (extentsFrom 0 (storedBuffers compression b)) .empty)

theorem batchMessage_eq (compression : Compression) (b : Batch) :
    batchMessage compression b = message (tableFor compression b) (bodyFor compression b) := rfl

theorem length_extentsFrom (offset : Nat) (bs : List Bytes) :
    (extentsFrom offset bs).length = bs.length := by
  induction bs generalizing offset with
  | nil => rfl
  | cons b r ih => rw [extentsFrom, List.length_cons, ih, List.length_cons]

theorem size_pairs_le (d : Draft) (ps : List (Nat × Nat)) :
    (d.structs 8 (pairsOctets ps)).size ≤ d.size + 16 * ps.length + 18 := by
  have hsize := size_structs_le d (pairsOctets ps) isGrain_eight
  rw [Bytes.length_flatten_of_width fun x hx => length_of_mem_pairsOctets hx, pairsOctets,
    List.length_map] at hsize
  rw [pairsOctets]
  omega

/-- The table of a message of a batch is long only where it lists many columns and buffers. -/
theorem length_batchTable_le (compression : Compression) (b : Batch) (extents : List Extent)
    (n : Nat) : (messageTable batchKind n (writeBatch compression b extents .empty)).length
      ≤ 3 * greatestTable + 54 + 16 * (extents.length + b.columns.length) := by
  obtain ⟨start, codec, hstart, hstartSize, -, hplace, -, hwritten⟩ :=
    writeBatch_cases compression b extents
  obtain ⟨hholds, hslots, hcount⟩ := listedEntries_holds b extents hplace
  have hlisted := (leads_buffersListed extents start).trans
    (leads_nodesListed b (buffersListed extents start))
  have hsound := (leads_table hholds).sound (hlisted.sound (hstart.sound sound_empty))
  have hbuffers : (buffersListed extents start).size ≤ _ := size_pairs_le start _
  have hnodes : (nodesListed b (buffersListed extents start)).size ≤ _ := size_pairs_le _ _
  rw [extentPairs, List.length_map] at hbuffers
  rw [nodePairs, List.length_map] at hnodes
  have hbatch := size_table_le hholds hslots hcount
  obtain ⟨hholds', hslots', hcount'⟩ := messageEntries_holds batchKind n
    (place_le_table (nodesListed b (buffersListed extents start))
      (listedEntries b extents start codec))
  have hmessage := size_table_le hholds' hslots' hcount'
  rw [hwritten, messageTable_eq]
  refine Nat.le_trans (length_finish_le ((leads_table hholds').sound hsound) _) ?_
  omega

/-- A batch has at most three buffers for each column. -/
theorem length_storedBuffers_le (compression : Compression) (b : Batch) :
    (storedBuffers compression b).length ≤ 3 * b.columns.length := by
  rw [storedBuffers, List.length_map]
  induction b.columns with
  | nil => exact Nat.le_refl _
  | cons c r ih =>
    have hcount : (layoutOf c.type).bufferCount ≤ 3 := by
      cases layoutOf c.type <;> simp [Layout.bufferCount]
    rw [List.flatMap_cons, List.length_append, length_buffersOf, List.length_cons]
    omega

theorem finish_ne_nil (d : Draft) (root : Nat) : d.finish root ≠ [] := by
  intro h
  have hsize := ((d.align 4 d.grain).link root).counted
  rw [show ((d.align 4 d.grain).link root).octets = [] from h, size_link] at hsize
  exact absurd hsize (by simp)

/-- The lengths that are written with a batch fit the words in which they are written. -/
structure BatchFitting (compression : Compression) (b : Batch) : Prop where
  rows : b.rows < 2 ^ 64
  columns : ∀ c ∈ b.columns, Fitting c
  table : (tableFor compression b).length < 2 ^ 31
  body : (bodyFor compression b).length < 2 ^ 64

theorem length_le_bodyFor {compression : Compression} {b : Batch} {c : Column} {x : Bytes}
    (hc : c ∈ b.columns) (hx : x ∈ buffersOf c) : x.length ≤ (bodyFor compression b).length := by
  have hstored : stored compression x ∈ storedBuffers compression b :=
    List.mem_map_of_mem (List.mem_flatMap.2 ⟨c, hc, hx⟩)
  exact Nat.le_trans (length_le_stored compression x) (length_le_bodyOf hstored)

theorem length_batchMessage (compression : Compression) (b : Batch) :
    (batchMessage compression b).length
      = 8 + tableRoom (tableFor compression b).length + (bodyFor compression b).length := by
  rw [batchMessage_eq, length_message]

/-- The lengths of a batch fit where its message is not long. -/
theorem fitting_of_message {compression : Compression} {b : Batch} (hrows : b.rows < 2 ^ 64)
    (hsize : (batchMessage compression b).length < 2 ^ 31) : BatchFitting compression b := by
  rw [length_batchMessage] at hsize
  have hroom := le_tableRoom (tableFor compression b).length
  refine ⟨hrows, ?_, by omega, by omega⟩
  intro c hc
  refine fitting_of_buffers ?_
  intro x hx
  have hbody : x.length ≤ (bodyFor compression b).length := length_le_bodyFor hc hx
  omega

/-- A valid batch is put together again from what its header says and from its body. -/
theorem assemble_body {compression : Compression} {b : Batch} (hvalid : b.Valid)
    (hfitting : ∀ c ∈ b.columns, Fitting c) :
    assemble b.schema (headerOf compression.codec?.isSome b
      (extentsFrom 0 (storedBuffers compression b))) (bodyFor compression b) = .ok b := by
  have hcolumns := readColumns_body [] (fun _ _ => fetch_stored) hvalid.types
    (show bodyFor compression b = _ from rfl) hfitting
  show (readColumns (fun e => slice (bodyFor compression b) e >>= fun x =>
      if compression.codec?.isSome then unstored x else Except.ok x) b.schema.fields
    (b.columns.map nodeOf) (extentsFrom ([] : Bytes).length (storedBuffers compression b)) >>=
      fun columns => Batch.build b.schema columns (some b.rows)) = _
  rw [storedBuffers, hcolumns, Sequence.ok_bind]
  exact hvalid.check

/-- The table of a batch message says that it is one, how long the body is, and what is in it. -/
theorem readTable_batch {compression : Compression} {b : Batch} (hvalid : b.Valid)
    (h : BatchFitting compression b) : ∃ t header,
      readTable (roomy (tableFor compression b)) = .ok t ∧ t.word 1 1 0 = batchKind ∧
      bodyLength t = (bodyFor compression b).length ∧ t.table? 2 = some header ∧
      batchHeader header = .ok (headerOf compression.codec?.isSome b
        (extentsFrom 0 (storedBuffers compression b))) := by
  obtain ⟨hrows, -, htable, hbody⟩ := h
  have hextents : ∀ e ∈ extentsFrom 0 (storedBuffers compression b),
      e.offset < 2 ^ 64 ∧ e.length < 2 ^ 64 := by
    intro e he
    have hle : e.offset + e.length ≤ 0 + (bodyFor compression b).length := extent_le he
    omega
  obtain ⟨t, header, hread, hkind, hlength, hheader, hshows⟩ := messageTable_read
    batchKind (bodyFor compression b).length
    (header_batch compression hrows (fun c hc => (hvalid.lengths c hc).symm ▸ hrows) hextents)
    rfl (by decide) hbody htable
    (List.replicate (tableRoom (tableFor compression b).length - (tableFor compression b).length) 0)
  rw [if_pos (batchCost_lt compression)] at hread
  have hroomy : messageTable? (roomy (tableFor compression b)) = some t := hread
  exact ⟨t, header, by rw [readTable, hroomy], hkind, hlength, hheader, hshows⟩

/-- The batch message is read with the schema that the batch has. -/
theorem readBatch_message {compression : Compression} {b : Batch} (hvalid : b.Valid)
    (h : BatchFitting compression b) (rest : Bytes) :
    readBatch b.schema (batchMessage compression b ++ rest) = .ok (some b) := by
  obtain ⟨t, header, htable, hkind, hlength, hheader, hshows⟩ := readTable_batch hvalid h
  have hsplit := split_append (bodyFor compression b) rest
  rw [batchMessage_eq, readBatch, nextTable_message _ _ h.table (finish_ne_nil _ _), htable]
  simp only [Except.map, Sequence.ok_bind, hkind, batchKind, hheader, hlength, hsplit]
  show (batchHeader header >>= fun header => assemble b.schema header (bodyFor compression b) >>=
    fun b => Except.ok (some b)) = _
  rw [hshows, Sequence.ok_bind, assemble_body hvalid h.columns]
  rfl

/-- What a batch was read from: the table of its message and, behind that, so many octets as the
table announces. -/
theorem readBatch_eq_some {s : Schema} {bs : Bytes} {b : Batch} (h : readBatch s bs = .ok (some b)) :
    ∃ t header behind body beyond, nextTable bs = .ok (some (t, behind)) ∧
      t.word 1 1 0 = batchKind ∧ t.table? 2 = some header ∧
      split (bodyLength t) behind = .ok (body, beyond) ∧
      (batchHeader header >>= fun header => assemble s header body) = .ok b := by
  unfold readBatch at h
  obtain ⟨next, hnext, h⟩ := Sequence.bind_eq_ok.1 h
  cases next with
  | none => exact nomatch h
  | some p =>
    obtain ⟨t, behind⟩ := p
    dsimp only at h
    split at h
    · exact nomatch h
    · exact nomatch h
    · rename_i header hkind hheader
      obtain ⟨⟨body, beyond⟩, hsplit, h⟩ := Sequence.bind_eq_ok.1 h
      obtain ⟨header', hread, h⟩ := Sequence.bind_eq_ok.1 h
      obtain ⟨b', hassemble, h⟩ := Sequence.bind_eq_ok.1 h
      obtain rfl : b' = b := Option.some.inj (Except.ok.inj h)
      exact ⟨t, header, behind, body, beyond, hnext, hkind, hheader, hsplit,
        Sequence.bind_eq_ok.2 ⟨header', hread, hassemble⟩⟩
    · exact nomatch h

theorem schemaTable_lt {s : Schema} (h : (schemaMessage s).length < 2 ^ 31) :
    (messageTable schemaKind 0 (writeSchema s .empty)).length < 2 ^ 31 := by
  rw [schemaMessage, length_message] at h
  have := le_tableRoom (messageTable schemaKind 0 (writeSchema s .empty)).length
  omega

/-- **What is written is read back, whatever follows it**, unless the fields and pairs of its
schema make more tables than a reader will verify. -/
theorem read_messages {compression : Compression} {b : Batch} (hvalid : b.Valid)
    (hschema : (schemaMessage b.schema).length < 2 ^ 31)
    (h : tableCount b.schema < greatestCount → BatchFitting compression b) (rest : Bytes) :
    read (schemaMessage b.schema ++ (batchMessage compression b ++ rest))
      = if tableCount b.schema < greatestCount then .ok (some b) else .error .brokenTable := by
  rw [read, readSchema_message b.schema _ (schemaTable_lt hschema)]
  by_cases hcount : tableCount b.schema < greatestCount
  · rw [if_pos hcount, if_pos hcount, Sequence.ok_bind]
    exact readBatch_message hvalid (h hcount) rest
  · rw [if_neg hcount, if_neg hcount]
    rfl

theorem read_fitting {compression : Compression} {b : Batch} (hvalid : b.Valid)
    (hschema : (schemaMessage b.schema).length < 2 ^ 31) (h : BatchFitting compression b) :
    read (write compression b)
      = if tableCount b.schema < greatestCount then .ok (some b) else .error .brokenTable := by
  rw [write, List.append_assoc]
  exact read_messages hvalid hschema (fun _ => h) endMark

/-- What is written is read back where it is not long. -/
theorem read_write {compression : Compression} {b : Batch} (hvalid : b.Valid)
    (hrows : b.rows < 2 ^ 64) (hsize : (write compression b).length < 2 ^ 31) :
    read (write compression b)
      = if tableCount b.schema < greatestCount then .ok (some b) else .error .brokenTable := by
  rw [write, List.length_append, List.length_append] at hsize
  exact read_fitting hvalid (by omega) (fitting_of_message hrows (by omega))

end ExternalSort.Stream
