/-
Columns, read from their own buffers.

The buffers of a column give the column back, cell by cell.  What a cell that is missing
leaves in the values does not matter: the validity bits take it out again, and where there
is no validity buffer no cell is missing.  The only limits are those of the words in which
lengths are written: the octets of all cells together fit the offsets, and the number of
missing cells is not taken for a negative one.
-/
import ExternalSort.Proofs.Bytes
import ExternalSort.Proofs.Sequence
import ExternalSort.Proofs.Text.Utf8
import ExternalSort.Stream.Reader

namespace ExternalSort.Stream

open Fault

/-! ### Bits -/

theorem bitsToNat_lt (bits : List Bool) : bitsToNat bits < 2 ^ bits.length := by
  induction bits with
  | nil => simp [bitsToNat]
  | cons b r ih =>
    rw [bitsToNat, List.length_cons, Nat.pow_succ]
    have := Bool.toNat_le b
    omega

theorem testBit_bitsToNat (bits : List Bool) (i : Nat) :
    (bitsToNat bits).testBit i = bits.getD i false := by
  induction bits generalizing i with
  | nil => simp [bitsToNat]
  | cons b r ih =>
    have hb : b.toNat + 2 * bitsToNat r = 2 * bitsToNat r + b.toNat := Nat.add_comm ..
    cases i with
    | zero =>
      have hmod : (2 * bitsToNat r + b.toNat) % 2 = b.toNat := by
        have := Bool.toNat_le b
        omega
      rw [bitsToNat, Nat.testBit_zero, hb, hmod]
      cases b <;> rfl
    | succ i =>
      have hhalf : (b.toNat + 2 * bitsToNat r) / 2 = bitsToNat r := by
        have := Bool.toNat_le b
        omega
      rw [bitsToNat, Nat.testBit_succ, hhalf, ih]
      rfl

/-- An octet made of at most eight bits has these bits, and after them none that is set. -/
theorem octetBits_ofNat {bits : List Bool} (h : bits.length ≤ 8) :
    octetBits (UInt8.ofNat (bitsToNat bits)) = bits ++ List.replicate (8 - bits.length) false := by
  have hlt : bitsToNat bits < 256 :=
    Nat.lt_of_lt_of_le (bitsToNat_lt bits) (Nat.pow_le_pow_right (by decide) h : _ ≤ 2 ^ 8)
  have hnat : (UInt8.ofNat (bitsToNat bits)).toNat = bitsToNat bits := by
    rw [UInt8.toNat_ofNat', Nat.mod_eq_of_lt hlt]
  rw [octetBits, hnat]
  refine List.ext_getElem (by simp; omega) ?_
  intro i hi hi'
  rw [List.getElem_map, List.getElem_range, testBit_bitsToNat, List.getD_eq_getElem?_getD]
  by_cases hin : i < bits.length
  · rw [List.getElem_append_left hin, List.getElem?_eq_getElem hin, Option.getD_some]
  · rw [List.getElem_append_right (by omega), List.getElem?_eq_none (by omega),
      List.getElem_replicate, Option.getD_none]

theorem packBits_cons {bits : List Bool} (h : bits ≠ []) :
    packBits bits = UInt8.ofNat (bitsToNat (bits.take 8)) :: packBits (bits.drop 8) := by
  rw [packBits, if_neg h]

/-- Packed bits are the bits, filled up to whole octets. -/
theorem flatMap_packBits (bits : List Bool) :
    ∃ n, (packBits bits).flatMap octetBits = bits ++ List.replicate n false ∧
      (packBits bits).length = (bits.length + 7) / 8 := by
  induction hn : bits.length using Nat.strongRecOn generalizing bits with
  | ind n ih =>
    by_cases hempty : bits = []
    · subst hempty
      subst hn
      exact ⟨0, by simp [packBits], by simp [packBits]⟩
    · have hpos := List.length_pos_iff.2 hempty
      obtain ⟨k, hk, hlen⟩ := ih (bits.drop 8).length (by rw [List.length_drop]; omega) _ rfl
      have htake : (bits.take 8).length ≤ 8 := List.length_take_le _ _
      rw [packBits_cons hempty, List.flatMap_cons, octetBits_ofNat htake, hk, List.length_cons,
        hlen]
      rw [List.length_drop, List.length_take]
      by_cases hlong : 8 ≤ bits.length
      · refine ⟨k, ?_, by omega⟩
        rw [Nat.min_eq_left hlong, Nat.sub_self, List.replicate_zero, List.append_nil,
          ← List.append_assoc, List.take_append_drop]
      · refine ⟨8 - bits.length + k, ?_, by omega⟩
        rw [Nat.min_eq_right (by omega), List.take_of_length_le (by omega),
          List.drop_of_length_le (by omega), List.nil_append, List.append_assoc,
          List.replicate_append_replicate]

theorem unpackBits_packBits (bits : List Bool) : unpackBits bits.length (packBits bits) = bits := by
  obtain ⟨n, hn, -⟩ := flatMap_packBits bits
  rw [unpackBits, hn, List.take_left]

theorem length_packBits (bits : List Bool) : (packBits bits).length = (bits.length + 7) / 8 :=
  (flatMap_packBits bits).choose_spec.2

/-! ### Words -/

theorem takeWords_flatMap (width : Nat) (ns : List Nat) (h : ∀ n ∈ ns, n < Nat.pow 256 width) :
    takeWords width ns.length (ns.flatMap (Bytes.Little.ofNat width)) = ns := by
  induction ns with
  | nil => rfl
  | cons n r ih =>
    have hlen := Bytes.Little.length_ofNat width n
    rw [List.flatMap_cons, List.length_cons, takeWords, List.take_left' hlen, List.drop_left' hlen,
      Bytes.Little.toNat_ofNat_of_lt (h n (List.mem_cons_self ..)),
      ih fun m hm => h m (List.mem_cons_of_mem _ hm)]

theorem length_flatMap_ofNat (width : Nat) (ns : List Nat) :
    (ns.flatMap (Bytes.Little.ofNat width)).length = ns.length * width := by
  induction ns with
  | nil => simp
  | cons n r ih =>
    rw [List.flatMap_cons, List.length_append, Bytes.Little.length_ofNat, ih, List.length_cons,
      Nat.succ_mul, Nat.add_comm]

/-! ### Cells that are missing -/

/-- What the validity buffer of cells says, read back. -/
def presence {α : Type} (cells : List (Option α)) : Option (List Bool) :=
  if cells.countP Option.isNone = 0 then none else some (cells.map Option.isSome)

/-- Whatever stands for a cell that is missing is taken out. -/
theorem mask_presence {α : Type} {f : Option α → Option α} (hf : ∀ v, f (some v) = some v)
    (cells : List (Option α)) : mask (presence cells) (cells.map f) = cells := by
  unfold presence
  by_cases hnone : cells.countP Option.isNone = 0
  · rw [if_pos hnone, mask]
    have hall : ∀ x ∈ cells, f x = x := by
      intro x hx
      have hx' := List.countP_eq_zero.1 hnone x hx
      cases x with
      | none => exact absurd rfl hx'
      | some v => exact hf v
    rw [List.map_congr_left hall, List.map_id']
  · rw [if_neg hnone, mask]
    clear hnone
    induction cells with
    | nil => rfl
    | cons x r ih =>
      rw [List.map_cons, List.map_cons, List.zipWith_cons_cons, ih]
      cases x with
      | none => rfl
      | some v => rw [hf v]; rfl

theorem length_validity (c : Column) : (validity c).length = (c.length + 7) / 8 := by
  unfold validity
  split
  · exact List.length_replicate
  · rw [length_packBits, List.length_map]
    rfl

theorem readValidity_validity {c : Column} (h : c.missing < Binary.twoTo 63) :
    readValidity (nodeOf c) (validity c) = .ok (presence c.cells) := by
  unfold readValidity presence
  show (if c.missing = 0 ∨ Binary.twoTo 63 ≤ c.missing then _ else _) = _
  by_cases hnone : c.missing = 0
  · rw [if_pos (.inl hnone)]
    exact congrArg Except.ok (if_pos hnone).symm
  · rw [if_neg (by omega), if_neg (by rw [length_validity]; exact Nat.lt_irrefl _),
      if_neg (show ¬c.cells.countP Option.isNone = 0 from hnone), validity, if_neg hnone]
    show Except.ok (some (unpackBits c.cells.length _)) = _
    rw [show c.cells.length = (c.cells.map Option.isSome).length from (List.length_map ..).symm,
      unpackBits_packBits]

/-! ### Pieces -/

theorem offsetsFrom_eq_cons (start : Nat) (lengths : List Nat) :
    offsetsFrom start lengths = start :: (offsetsFrom start lengths).tail := by
  cases lengths <;> rfl

theorem length_offsetsFrom (start : Nat) (lengths : List Nat) :
    (offsetsFrom start lengths).length = lengths.length + 1 := by
  induction lengths generalizing start with
  | nil => rfl
  | cons n r ih => rw [offsetsFrom, List.length_cons, ih, List.length_cons]

theorem le_of_mem_offsetsFrom {start : Nat} {lengths : List Nat} {o : Nat}
    (h : o ∈ offsetsFrom start lengths) : o ≤ start + lengths.sum := by
  induction lengths generalizing start with
  | nil => exact Nat.le_of_eq (List.mem_singleton.1 h)
  | cons n r ih =>
    rw [List.sum_cons]
    rcases List.mem_cons.1 h with rfl | h
    · omega
    · have := ih h
      omega

theorem getLast?_offsetsFrom (start : Nat) (lengths : List Nat) :
    (offsetsFrom start lengths).getLast? = some (start + lengths.sum) := by
  induction lengths generalizing start with
  | nil => rfl
  | cons n r ih =>
    rw [offsetsFrom, offsetsFrom_eq_cons, List.getLast?_cons_cons, ← offsetsFrom_eq_cons, ih,
      List.sum_cons, Nat.add_assoc]

theorem length_flatten_pieces (pieces : List Bytes) :
    (pieces.map List.length).sum = pieces.flatten.length := List.length_flatten.symm

theorem takeOffsets_offsetsFrom {width : Nat} {lengths : List Nat}
    (hsum : lengths.sum < 2 ^ (8 * width - 1)) :
    takeOffsets width (lengths.length + 1)
        ((offsetsFrom 0 lengths).flatMap (Bytes.Little.ofNat width))
      = (offsetsFrom 0 lengths).map Int.ofNat := by
  have hsmall : ∀ o ∈ offsetsFrom 0 lengths, o < 2 ^ (8 * width - 1) := by
    intro o ho
    have := le_of_mem_offsetsFrom ho
    omega
  have hpow : 2 ^ (8 * width - 1) ≤ Nat.pow 256 width :=
    Nat.le_trans (Nat.pow_le_pow_right (by decide) (Nat.sub_le ..))
      (Nat.le_of_eq (Nat.pow_mul 2 8 width))
  rw [takeOffsets, ← length_offsetsFrom 0 lengths,
    takeWords_flatMap width _ fun o ho => Nat.lt_of_lt_of_le (hsmall o ho) hpow]
  exact List.map_congr_left fun o ho => Bytes.Little.toInt_ofNat_of_lt (hsmall o ho)

theorem takePieces_cons {check : Nat → Nat → Nat → Except BufferFlaw Unit} {values : Bytes}
    {index before after : Nat} {offsets : List Int} (horder : before ≤ after)
    (hlimit : after ≤ values.length) :
    takePieces check values index before (Int.ofNat after :: offsets)
      = (check index before after >>= fun _ =>
          takePieces check values (index + 1) after offsets >>= fun rest =>
            .ok ((values.drop before).take (after - before) :: rest)) := by
  rw [takePieces, if_neg (show ¬Int.ofNat after < 0 from Int.not_lt.2 (Int.natCast_nonneg after)),
    if_neg (show ¬values.length < (Int.ofNat after).toNat from Nat.not_lt.2 hlimit),
    if_neg (show ¬(Int.ofNat after).toNat < before from Nat.not_lt.2 horder)]
  rfl

/-- The cells between the offsets are the pieces, if the check passes on each of them. -/
theorem takePieces_flatten {check : Nat → Nat → Nat → Except BufferFlaw Unit}
    {all before pieces : List Bytes} (hall : all = before ++ pieces)
    (hcheck : ∀ pre p post index, all = pre ++ p :: post →
      check index pre.flatten.length (pre.flatten.length + p.length) = .ok ()) (index : Nat) :
    takePieces check all.flatten index before.flatten.length
      ((offsetsFrom before.flatten.length (pieces.map List.length)).tail.map Int.ofNat)
      = .ok pieces := by
  induction pieces generalizing before index with
  | nil => rfl
  | cons p r ih =>
    have hnext := @ih (before ++ [p]) (by rw [hall, List.append_assoc]; rfl) (index + 1)
    have hends : (before ++ [p]).flatten.length = before.flatten.length + p.length := by
      rw [List.flatten_append, List.length_append, List.flatten_singleton]
    have hflatten : all.flatten = before.flatten ++ (p ++ r.flatten) := by
      rw [hall, List.flatten_append, List.flatten_cons]
    have hcell : (all.flatten.drop before.flatten.length).take
        (before.flatten.length + p.length - before.flatten.length) = p := by
      rw [hflatten, List.drop_left, Nat.add_sub_cancel_left, List.take_left]
    rw [hends] at hnext
    have htail : (offsetsFrom before.flatten.length ((p :: r).map List.length)).tail
        = (before.flatten.length + p.length)
          :: (offsetsFrom (before.flatten.length + p.length) (r.map List.length)).tail := by
      rw [List.map_cons, offsetsFrom, List.tail_cons, offsetsFrom_eq_cons, List.tail_cons]
    have hlimit : before.flatten.length + p.length ≤ all.flatten.length := by
      rw [hflatten, List.length_append, List.length_append]
      omega
    rw [htail, List.map_cons, takePieces_cons (Nat.le_add_right ..) hlimit,
      hcheck before p r index hall, Sequence.ok_bind, hnext, Sequence.ok_bind, hcell]

/-- Octets that texts begin stand between two characters. -/
theorem isBoundary_flatten {front : Bytes} {pieces : List Bytes}
    (h : ∀ p ∈ pieces, ∃ s, p = Text.Utf8.encode s) :
    isBoundary (front ++ pieces.flatten) front.length = true := by
  induction pieces with
  | nil => simp [isBoundary]
  | cons p r ih =>
    obtain ⟨s, hs⟩ := h p (List.mem_cons_self ..)
    cases hp : p with
    | nil =>
      rw [List.flatten_cons, List.nil_append]
      exact ih fun q hq => h q (List.mem_cons_of_mem _ hq)
    | cons b t =>
      have hhead := Text.Utf8.head_encode (hs.symm.trans hp)
      rw [isBoundary, List.flatten_cons, List.cons_append,
        List.getElem?_append_right (Nat.le_refl _), Nat.sub_self]
      simpa using hhead

/-- Texts among other texts pass the check. -/
theorem checkText_flatten {all pre post : List Bytes} {p : Bytes} {index : Nat}
    (hall : all = pre ++ p :: post) (h : ∀ p ∈ all, ∃ s, p = Text.Utf8.encode s) :
    checkText all.flatten (Text.Utf8.defect? all.flatten).isNone index pre.flatten.length
      (pre.flatten.length + p.length) = .ok () := by
  have hmem : ∀ q ∈ p :: post, q ∈ all := by
    intro q hq
    exact hall ▸ List.mem_append_right pre hq
  have hflatten : all.flatten = pre.flatten ++ (p ++ post.flatten) := by
    rw [hall, List.flatten_append, List.flatten_cons]
  rw [checkText]
  split
  · have hfirst : isBoundary all.flatten pre.flatten.length = true := by
      rw [hall, List.flatten_append]
      exact isBoundary_flatten fun q hq => h q (hmem q hq)
    have hlast : isBoundary all.flatten (pre.flatten.length + p.length) = true := by
      rw [hflatten, ← List.append_assoc, ← List.length_append]
      exact isBoundary_flatten fun q hq => h q (hmem q (List.mem_cons_of_mem _ hq))
    rw [if_pos (by rw [hfirst, hlast]; rfl)]
  · obtain ⟨s, hs⟩ := h p (hmem p (List.mem_cons_self ..))
    have hcell : (all.flatten.drop pre.flatten.length).take
        (pre.flatten.length + p.length - pre.flatten.length) = p := by
      rw [hflatten, List.drop_left, Nat.add_sub_cancel_left, List.take_left]
    rw [hcell, hs, Text.Utf8.defect?_encode]

theorem checkEnds_offsetsFrom (t : ColumnType) (lengths : List Nat) :
    checkEnds t lengths.length lengths.sum ((offsetsFrom 0 lengths).map Int.ofNat) = .ok () := by
  have hlast : ((offsetsFrom 0 lengths).map Int.ofNat).getLast? = some (lengths.sum : Int) := by
    rw [List.getLast?_map, getLast?_offsetsFrom, Nat.zero_add]
    rfl
  have hfirst : ((offsetsFrom 0 lengths).map Int.ofNat).head? = some 0 := by
    rw [offsetsFrom_eq_cons]
    rfl
  have hsum : ¬(lengths.sum : Int) < 0 := Int.not_lt.2 (Int.natCast_nonneg _)
  rw [checkEnds, hlast, hfirst]
  show (if (0 : Int) < 0 then _ else if (lengths.sum : Int) < 0 then _
    else if lengths.sum < (0 : Int).toNat then _
    else if lengths.sum < (lengths.sum : Int).toNat then _
    else if (lengths.sum : Int) < 0 then _ else Except.ok ()) = _
  rw [if_neg (Int.lt_irrefl 0), if_neg hsum, Int.toNat_zero, if_neg (Nat.not_lt_zero _),
    Int.toNat_natCast, if_neg (Nat.lt_irrefl _), if_neg hsum]

/-- Pieces are read back from their offsets and octets. -/
theorem readPieces_written {t : ColumnType} {width : Nat} {pieces : List Bytes}
    (hsize : pieces.flatten.length < 2 ^ (8 * width - 1))
    (htext : ∀ w, t = .text w → ∀ p ∈ pieces, ∃ s, p = Text.Utf8.encode s) :
    readPieces t width pieces.length
      ((if pieces = [] then [] else offsetsFrom 0 (pieces.map List.length)).flatMap
        (Bytes.Little.ofNat width)) pieces.flatten = .ok pieces := by
  by_cases hempty : pieces = []
  · subst hempty
    unfold readPieces
    rw [if_pos rfl, if_neg (by simp), if_pos ⟨rfl, rfl⟩]
  · have hlengths : (pieces.map List.length).length = pieces.length := List.length_map ..
    have hoctets : ((offsetsFrom 0 (pieces.map List.length)).flatMap
        (Bytes.Little.ofNat width)).length = (pieces.length + 1) * width := by
      rw [length_flatMap_ofNat, length_offsetsFrom, hlengths]
    have hless : pieces.length * width ≤ (pieces.length + 1) * width :=
      Nat.mul_le_mul_right _ (Nat.le_succ _)
    have hends := takeOffsets_offsetsFrom
      (show (pieces.map List.length).sum < 2 ^ (8 * width - 1) by rwa [length_flatten_pieces])
    rw [hlengths] at hends
    have hcheckEnds := checkEnds_offsetsFrom t (pieces.map List.length)
    rw [hlengths, length_flatten_pieces] at hcheckEnds
    have hcells : ∀ check : Nat → Nat → Nat → Except BufferFlaw Unit,
        (∀ pre p post index, pieces = pre ++ p :: post →
          check index pre.flatten.length (pre.flatten.length + p.length) = .ok ()) →
        takePieces check pieces.flatten 0 0
          ((offsetsFrom 0 (pieces.map List.length)).tail.map Int.ofNat) = .ok pieces :=
      fun check hcheck => takePieces_flatten (List.nil_append pieces).symm hcheck 0
    unfold readPieces
    rw [if_neg hempty, if_neg (by omega),
      if_neg (fun h => hempty (List.length_eq_zero_iff.1 h.1)), if_neg (by omega), hends]
    rw [offsetsFrom_eq_cons, List.map_cons] at hcheckEnds ⊢
    simp only [hcheckEnds, Sequence.ok_bind]
    refine hcells _ ?_
    intro pre p post index hall
    split
    · rename_i w
      exact checkText_flatten hall (htext w rfl)
    · rfl

/-! ### Columns -/

/-- A column of words is read back. -/
theorem readColumn_words {c : Column} {width : Nat} (hlayout : layoutOf c.type = .words width)
    (hword : ∀ v, wordOf c.type v < Nat.pow 256 width ∧ ofWord c.type (wordOf c.type v) = some v)
    (hmissing : c.missing < Binary.twoTo 63) :
    readColumn c.type (nodeOf c) (buffersOf c) = .ok c := by
  have hpos : 0 < Nat.pow 256 width := Nat.pow_pos (by decide)
  have hbuffers : buffersOf c = [validity c, (c.cells.map fun x => x.elim 0 (wordOf c.type)).flatMap
      (Bytes.Little.ofNat width)] := by
    rw [buffersOf, hlayout, List.flatMap_map]
  have hwords := takeWords_flatMap width (c.cells.map fun x => x.elim 0 (wordOf c.type))
    (fun n hn => by
      obtain ⟨x, -, rfl⟩ := List.mem_map.1 hn
      cases x with
      | none => exact hpos
      | some v => exact (hword v).1)
  rw [List.length_map] at hwords
  rw [hbuffers]
  unfold readColumn
  rw [hlayout]
  show (if ((c.cells.map fun x => x.elim 0 (wordOf c.type)).flatMap
      (Bytes.Little.ofNat width)).length < c.cells.length * width then _ else _) = _
  rw [if_neg (by rw [length_flatMap_ofNat, List.length_map]; exact Nat.lt_irrefl _),
    readValidity_validity hmissing, Sequence.ok_bind]
  show Except.ok (Column.mk c.type (mask _ ((takeWords width c.cells.length _).map _))) = _
  rw [hwords, List.map_map, mask_presence fun v => (hword v).2]

/-- A column of bits is read back. -/
theorem readColumn_bits {c : Column} (hlayout : layoutOf c.type = .bits)
    (hbit : ∀ v, ofWord c.type (wordOf c.type v != 0).toNat = some v)
    (hmissing : c.missing < Binary.twoTo 63) :
    readColumn c.type (nodeOf c) (buffersOf c) = .ok c := by
  have hbuffers : buffersOf c = [validity c,
      packBits (c.cells.map fun x => x.elim false fun v => wordOf c.type v != 0)] := by
    rw [buffersOf, hlayout]
  have hbits := unpackBits_packBits (c.cells.map fun x => x.elim false fun v => wordOf c.type v != 0)
  rw [List.length_map] at hbits
  rw [hbuffers]
  unfold readColumn
  rw [hlayout]
  show (if (packBits _).length < (c.cells.length + 7) / 8 then _ else _) = _
  rw [if_neg (by rw [length_packBits, List.length_map]; exact Nat.lt_irrefl _),
    readValidity_validity hmissing, Sequence.ok_bind]
  show Except.ok (Column.mk c.type (mask _ ((unpackBits c.cells.length _).map _))) = _
  rw [hbits, List.map_map, mask_presence hbit]

/-- A column of pieces is read back. -/
theorem readColumn_pieces {c : Column} {width : Nat} (hlayout : layoutOf c.type = .pieces width)
    (hpiece : ∀ v, ofPiece c.type (pieceOf c.type v) = some v)
    (htext : ∀ w, c.type = .text w → ∀ v, ∃ s, pieceOf c.type v = Text.Utf8.encode s)
    (hmissing : c.missing < Binary.twoTo 63)
    (hsize : (c.cells.map fun x => x.elim [] (pieceOf c.type)).flatten.length
      < 2 ^ (8 * width - 1)) :
    readColumn c.type (nodeOf c) (buffersOf c) = .ok c := by
  have hbuffers : buffersOf c = [validity c,
      (if (c.cells.map fun x => x.elim [] (pieceOf c.type)) = [] then []
        else offsetsFrom 0 ((c.cells.map fun x => x.elim [] (pieceOf c.type)).map List.length)).flatMap
        (Bytes.Little.ofNat width),
      (c.cells.map fun x => x.elim [] (pieceOf c.type)).flatten] := by
    rw [buffersOf, hlayout]
    cases c.cells <;> rfl
  have hpieces := readPieces_written (t := c.type) hsize fun w hw p hp => by
    obtain ⟨x, -, rfl⟩ := List.mem_map.1 hp
    cases x with
    | none => exact ⟨"", rfl⟩
    | some v => exact htext w hw v
  rw [List.length_map] at hpieces
  rw [hbuffers]
  unfold readColumn
  rw [hlayout]
  show (readValidity _ _ >>= fun valid =>
    readPieces c.type width c.cells.length _ _ >>= fun pieces =>
    Except.ok (Column.mk c.type (mask valid (pieces.map _)))) = _
  rw [readValidity_validity hmissing, Sequence.ok_bind, hpieces, Sequence.ok_bind, List.map_map,
    mask_presence hpiece]

theorem ofNat_toNat_word {width : Nat} (v : BitVec width) : BitVec.ofNat width v.toNat = v := by
  rw [BitVec.ofNat_toNat, BitVec.setWidth_eq]

theorem missing_le (c : Column) : c.missing ≤ c.length := List.countP_le_length

/-- The lengths that are written with a column fit their words. -/
structure Fitting (c : Column) : Prop where
  /-- The number of missing cells is not taken for a negative one. -/
  missing : layoutOf c.type ≠ .nothing → c.missing < Binary.twoTo 63
  /-- The octets of all cells together are not more than the last offset can say. -/
  pieces : ∀ width, layoutOf c.type = .pieces width →
    (c.cells.map fun x => x.elim [] (pieceOf c.type)).flatten.length < 2 ^ (8 * width - 1)

/-- A column has a validity buffer unless it holds nothing. -/
theorem validity_mem {c : Column} (h : layoutOf c.type ≠ .nothing) : validity c ∈ buffersOf c := by
  unfold buffersOf
  cases hlayout : layoutOf c.type with
  | nothing => exact absurd hlayout h
  | bits => exact List.mem_cons_self ..
  | words width => exact List.mem_cons_self ..
  | pieces width => exact List.mem_cons_self ..

theorem four_le_of_pieces {t : ColumnType} {width : Nat} (h : layoutOf t = .pieces width) :
    4 ≤ width := by
  cases t with
  | text w =>
    obtain rfl : w.octets = width := Layout.pieces.inj h
    cases w <;> decide
  | binary =>
    obtain rfl : OffsetWidth.narrow.octets = width := Layout.pieces.inj h
    decide
  | _ => exact nomatch h

/-- The lengths of a column fit where none of its buffers is long. -/
theorem fitting_of_buffers {c : Column} (hsize : ∀ b ∈ buffersOf c, b.length < 2 ^ 31) :
    Fitting c where
  missing h := by
    have hvalidity := hsize _ (validity_mem h)
    rw [length_validity] at hvalidity
    have := missing_le c
    show c.missing < 2 ^ 63
    omega
  pieces width h := by
    have hpow : 2 ^ 31 ≤ 2 ^ (8 * width - 1) :=
      Nat.pow_le_pow_right (by decide) (by have := four_le_of_pieces h; omega)
    refine Nat.lt_of_lt_of_le (hsize _ ?_) hpow
    simp [buffersOf, h]

/-- **A column is read back from its own buffers**, if its lengths fit the words in which they
are written. -/
theorem readColumn_buffersOf {c : Column} (h : Fitting c) :
    readColumn c.type (nodeOf c) (buffersOf c) = .ok c := by
  obtain ⟨hmissing, hpieces⟩ := h
  obtain ⟨t, cells⟩ := c
  cases t with
  | null =>
    refine congrArg (fun cells => Except.ok (Column.mk .null cells)) ?_
    refine List.ext_getElem (by simp [nodeOf, Column.length]) ?_
    intro i _ hi
    rw [List.getElem_replicate]
    cases hcell : cells[i] with
    | none => rfl
    | some v => exact nomatch v
  | bool => exact readColumn_bits rfl (fun v => by cases v <;> rfl) (hmissing (by simp [layoutOf]))
  | int k =>
    refine readColumn_words rfl (fun v => ⟨?_, ?_⟩) (hmissing (by simp [layoutOf]))
    · have hv : BitVec.toNat v < 2 ^ (8 * k.size.octets) := BitVec.isLt v
      rwa [Nat.pow_mul] at hv
    · exact congrArg some (ofNat_toNat_word v)
  | float p =>
    refine readColumn_words rfl (fun v => ⟨?_, ?_⟩) (hmissing (by simp [layoutOf]))
    · have hv : BitVec.toNat v < 2 ^ (8 * p.octets) := BitVec.isLt v
      rwa [Nat.pow_mul] at hv
    · exact congrArg some (ofNat_toNat_word v)
  | date =>
    refine readColumn_words rfl (fun v => ⟨?_, ?_⟩) (hmissing (by simp [layoutOf]))
    · exact BitVec.isLt v
    · exact congrArg some (ofNat_toNat_word v)
  | text w =>
    exact readColumn_pieces rfl Text.Utf8.decode?_encode (fun _ _ v => ⟨v, rfl⟩)
      (hmissing (by simp [layoutOf])) (hpieces _ rfl)
  | binary =>
    exact readColumn_pieces rfl (fun _ => rfl) (fun _ hw => nomatch hw)
      (hmissing (by simp [layoutOf])) (hpieces _ rfl)

end ExternalSort.Stream
