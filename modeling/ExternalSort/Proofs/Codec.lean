/-
Batches there and back.

Exactly the valid batches are encoded, and whatever is decoded is valid and was put together
from buffers that stand in the octets.  What decoding an encoded batch comes to is `reread`:
the batch itself, unless its schema makes more tables than will be verified.  How the codec
compresses does not matter.
-/
import ExternalSort.Codec
import ExternalSort.Frame
import ExternalSort.Proofs.Stream.Batch

namespace ExternalSort.Codec

open ExternalSort.Stream FlatTable

theorem encode_eq_ok_iff {c : Codec} {b : Batch} {payload : Bytes} :
    c.encode b = .ok payload ↔ b.Valid ∧ payload = Stream.write c.compression b := by
  unfold encode
  cases hcheck : b.check with
  | ok b' =>
    obtain ⟨hvalid, rfl⟩ := Batch.check_eq_ok_iff.1 hcheck
    constructor
    · intro h
      exact ⟨hvalid, (Except.ok.inj h).symm⟩
    · rintro ⟨-, rfl⟩
      rfl
  | error f =>
    constructor
    · intro h
      exact nomatch h
    · intro h
      rw [h.1.check] at hcheck
      exact nomatch hcheck

/-- What a batch is read back as. -/
def reread (b : Batch) : Except Fault Batch :=
  if tableCount b.schema < greatestCount then .ok b else .error (.columnar .brokenTable)

/-- **What was encoded is decoded to what it was.** -/
theorem decode_encode {c : Codec} {b : Batch} {payload : Bytes} (hrows : b.rows < 2 ^ 64)
    (hencode : c.encode b = .ok payload) (hlen : payload.length ≤ Frame.greatestPayload) :
    c.decode payload = reread b := by
  obtain ⟨hvalid, rfl⟩ := encode_eq_ok_iff.1 hencode
  have hgreatest : Frame.greatestPayload < 2 ^ 31 := by decide
  rw [decode, read_write hvalid hrows (Nat.lt_of_le_of_lt hlen hgreatest), reread]
  by_cases hcount : tableCount b.schema < greatestCount
  · rw [if_pos hcount, if_pos hcount]
  · rw [if_neg hcount, if_neg hcount]

/-! ### What is decoded was checked -/

/-- To decode octets is to read a batch from them. -/
theorem decode_eq_ok_iff {c : Codec} {bs : Bytes} {b : Batch} :
    c.decode bs = .ok b ↔ Stream.read bs = .ok (some b) := by
  unfold decode
  rcases Stream.read bs with f | none | b'
  · exact ⟨fun h => (nomatch h), fun h => nomatch h⟩
  · exact ⟨fun h => (nomatch h), fun h => nomatch h⟩
  · simp only [Except.ok.injEq, Option.some.injEq]

/-- A buffer that is stored as it is stands in what is stored of it. -/
theorem isInfix_of_unstored {bs part : Bytes} (h : unstored bs = .ok part) : part <:+: bs := by
  unfold unstored at h
  split at h
  · exact Except.ok.inj h ▸ List.infix_refl bs
  obtain ⟨⟨length, rest⟩, hsplit, h⟩ := Sequence.bind_eq_ok.1 h
  dsimp only at h
  split at h
  · exact Except.ok.inj h ▸ (split_suffix hsplit).isInfix
  split at h
  · exact Except.ok.inj h ▸ List.nil_infix
  · exact nomatch h

theorem isInfix_of_slice {body part : Bytes} {e : Extent} (h : slice body e = .ok part) :
    part <:+: body := by
  unfold slice at h
  split at h
  · rw [← Except.ok.inj h]
    exact (List.take_prefix _ _).isInfix.trans (List.drop_suffix _ _).isInfix
  · exact nomatch h

/-- A batch that is put together is valid; its columns were read from buffers that stand in the
body. -/
theorem assemble_passed {schema : Schema} {h : BatchHeader} {body : Bytes} {b : Batch}
    (hb : assemble schema h body = .ok b) : b.Valid ∧ b.schema = schema ∧ b.rows = h.rows ∧
      ∃ fetch, (∀ e part, fetch e = .ok part → part <:+: body) ∧
        readColumns fetch schema.fields h.nodes h.extents = .ok b.columns := by
  unfold assemble at hb
  obtain ⟨columns, hcolumns, hbuild⟩ := Sequence.bind_eq_ok.1 hb
  obtain ⟨hvalid, hschema, rfl, hrows⟩ := Batch.build_eq_ok_iff.1 hbuild
  refine ⟨hvalid, hschema, (Option.some.inj hrows).symm, _, fun e part hfetch => ?_, hcolumns⟩
  obtain ⟨cut, hcut, hfetch⟩ := Sequence.bind_eq_ok.1 hfetch
  split at hfetch
  · exact (isInfix_of_unstored hfetch).trans (isInfix_of_slice hcut)
  · exact Except.ok.inj hfetch ▸ isInfix_of_slice hcut

/-- What is decoded was put together from a schema, a header and a body that were read. -/
theorem decode_passed {c : Codec} {bs : Bytes} {b : Batch} (h : c.decode bs = .ok b) :
    ∃ s rest t header body, readSchema bs = .ok (s, rest) ∧ batchHeader t = .ok header ∧
      body <:+: bs ∧ assemble s header body = .ok b := by
  have hread := decode_eq_ok_iff.1 h
  unfold Stream.read at hread
  obtain ⟨⟨s, rest⟩, hschema, hbatch⟩ := Sequence.bind_eq_ok.1 hread
  obtain ⟨_, t, behind, body, _, hnext, -, -, hsplit, hmade⟩ := readBatch_eq_some hbatch
  obtain ⟨header, hheader, hassemble⟩ := Sequence.bind_eq_ok.1 hmade
  have hbehind := (nextTable_suffix hnext).trans (readSchema_suffix hschema)
  obtain ⟨-, rfl, -⟩ := split_eq_ok hsplit
  exact ⟨s, rest, t, header, _, hschema, hheader,
    (List.take_prefix _ _).isInfix.trans hbehind.isInfix, hassemble⟩

/-- Whatever is decoded is valid. -/
theorem valid_of_decode {c : Codec} {bs : Bytes} {b : Batch} (h : c.decode bs = .ok b) :
    b.Valid := by
  obtain ⟨_, _, _, _, _, -, -, -, hassemble⟩ := decode_passed h
  exact (assemble_passed hassemble).1

end ExternalSort.Codec
