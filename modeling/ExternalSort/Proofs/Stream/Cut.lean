/-
Streams that were cut off, and streams with something behind them.

A reader takes octets off the front and says what they were.  What it said it says again
whatever is put behind: it cannot have looked that far.  So octets that could be decoded
decode to the same batch with more octets behind them; and if the front of a stream could be
decoded to anything, it is to the batch of the whole stream.  How far a reader looks is the
same both times, so the front was not cut before the end of the batch message.

Nothing has to be known of where the cut goes.  A stream that ends where a message could
begin ends for the reader as it should, and the reader has no batch then.
-/
import ExternalSort.Proofs.Frame.Breadth
import ExternalSort.Proofs.Stream.Foreign

namespace ExternalSort

namespace Stream

open FlatTable

variable {bs rest more : Bytes} {n : Nat}

/-! ### What was read stays read -/

/-- Whatever is put behind what was split stays behind it. -/
theorem split_more {part : Bytes} (h : split n bs = .ok (part, rest)) (more : Bytes) :
    split n (bs ++ more) = .ok (part, rest ++ more) := by
  obtain ⟨hle, rfl, rfl⟩ := split_eq_ok h
  rw [split, List.take_append_of_le_length hle, List.drop_append_of_le_length hle,
    if_pos (List.length_take_of_le hle)]

theorem tableLength_more (h : tableLength bs = .ok (n, rest)) (more : Bytes) :
    tableLength (bs ++ more) = .ok (n, rest ++ more) := by
  unfold tableLength at h ⊢
  obtain ⟨⟨first, behind⟩, hfirst, h⟩ := Sequence.bind_eq_ok.1 h
  rw [split_more hfirst, Sequence.ok_bind]
  dsimp only at h ⊢
  split at h
  · rename_i hmarker
    obtain ⟨⟨second, behind'⟩, hsecond, h⟩ := Sequence.bind_eq_ok.1 h
    obtain ⟨rfl, rfl⟩ := Prod.mk.inj (Except.ok.inj h)
    rw [if_pos hmarker, split_more hsecond]
    rfl
  · rename_i hmarker
    obtain ⟨rfl, rfl⟩ := Prod.mk.inj (Except.ok.inj h)
    rw [if_neg hmarker]

theorem readSchema_more {s : Schema} (h : readSchema bs = .ok (s, rest)) (more : Bytes) :
    readSchema (bs ++ more) = .ok (s, rest ++ more) := by
  unfold readSchema at h ⊢
  obtain ⟨⟨length, behind⟩, hlength, h⟩ := Sequence.bind_eq_ok.1 h
  obtain ⟨⟨octets, behind'⟩, hsplit, h⟩ := Sequence.bind_eq_ok.1 h
  obtain ⟨t, htable, h⟩ := Sequence.bind_eq_ok.1 h
  simp only [tableLength_more hlength, split_more hsplit, htable, Sequence.ok_bind]
  split at h
  · obtain ⟨s', hs, h⟩ := Sequence.bind_eq_ok.1 h
    obtain ⟨rfl, rfl⟩ := Prod.mk.inj (Except.ok.inj h)
    rw [hs]
    rfl
  · exact nomatch h

theorem nextTable_more {t : Table} (h : nextTable bs = .ok (some (t, rest))) (more : Bytes) :
    nextTable (bs ++ more) = .ok (some (t, rest ++ more)) := by
  unfold nextTable at h ⊢
  split at h
  · exact nomatch h
  rename_i hfour
  rw [List.length_take] at hfour
  rw [if_neg (by rw [List.length_take, List.length_append]; omega)]
  obtain ⟨⟨length, behind⟩, hlength, h⟩ := Sequence.bind_eq_ok.1 h
  dsimp only at h
  split at h
  · exact nomatch h
  rename_i hzero
  obtain ⟨⟨octets, behind'⟩, hsplit, h⟩ := Sequence.bind_eq_ok.1 h
  obtain ⟨t', htable, h⟩ := Sequence.bind_eq_ok.1 h
  obtain ⟨rfl, rfl⟩ := Prod.mk.inj (Option.some.inj (Except.ok.inj h))
  simp only [tableLength_more hlength, if_neg hzero, split_more hsplit, htable, Sequence.ok_bind]

theorem readBatch_more {s : Schema} {b : Batch} (h : readBatch s bs = .ok (some b))
    (more : Bytes) : readBatch s (bs ++ more) = .ok (some b) := by
  obtain ⟨t, header, behind, body, beyond, hnext, hkind, hheader, hsplit, hassemble⟩ :=
    readBatch_eq_some h
  obtain ⟨header', hread, hassemble⟩ := Sequence.bind_eq_ok.1 hassemble
  rw [readBatch, nextTable_more hnext, Sequence.ok_bind]
  simp only [hkind, batchKind, hheader, split_more hsplit, Sequence.ok_bind, hread, hassemble]

/-- **A batch that was read is read whatever follows.** -/
theorem read_more {b : Batch} (h : read bs = .ok (some b)) (more : Bytes) :
    read (bs ++ more) = .ok (some b) := by
  unfold read at h ⊢
  obtain ⟨⟨s, behind⟩, hschema, h⟩ := Sequence.bind_eq_ok.1 h
  rw [readSchema_more hschema, Sequence.ok_bind]
  exact readBatch_more h more

/-! ### How far a reader looks -/

/-- Where a batch was read from the front of a message, the front is not shorter than the
message. -/
theorem length_le_of_readBatch {compression : Compression} {b d : Batch} (hvalid : b.Valid)
    (hfitting : BatchFitting compression b) {front : Bytes}
    (h : readBatch b.schema front = .ok (some d))
    (hfront : front ++ more = batchMessage compression b ++ rest) : more.length ≤ rest.length := by
  obtain ⟨t, header, behind, body, beyond, hnext, -, -, hsplit, -⟩ := readBatch_eq_some h
  obtain ⟨t', header', htable, -, hbody, -, -⟩ := readTable_batch hvalid hfitting
  -- The same table is found in the front and in the whole message.
  have hwhole := nextTable_more hnext more
  rw [hfront, batchMessage_eq, nextTable_message _ _ hfitting.table (finish_ne_nil _ _),
    htable] at hwhole
  obtain ⟨rfl, hbehind⟩ := Prod.mk.inj (Option.some.inj (Except.ok.inj hwhole))
  obtain ⟨hle, -, -⟩ := split_eq_ok hsplit
  have hlengths := congrArg List.length hbehind
  rw [List.length_append, List.length_append] at hlengths
  omega

/-- Where a batch was read from the front of a stream, the front is not shorter than the two
messages. -/
theorem length_le_of_read {compression : Compression} {b d : Batch} (hvalid : b.Valid)
    (hschema : (schemaMessage b.schema).length < 2 ^ 31)
    (hcount : tableCount b.schema < greatestCount) (hfitting : BatchFitting compression b)
    {front : Bytes} (h : read front = .ok (some d))
    (hfront : front ++ more = schemaMessage b.schema ++ (batchMessage compression b ++ rest)) :
    more.length ≤ rest.length := by
  unfold read at h
  obtain ⟨⟨s, behind⟩, hread, h⟩ := Sequence.bind_eq_ok.1 h
  have hwhole := readSchema_more hread more
  rw [hfront, readSchema_message _ _ (schemaTable_lt hschema), if_pos hcount] at hwhole
  obtain ⟨rfl, hbehind⟩ := Prod.mk.inj (Except.ok.inj hwhole)
  exact length_le_of_readBatch hvalid hfitting h hbehind.symm

end Stream

namespace Codec

open ExternalSort.Stream FlatTable

/-- Octets that were decoded are decoded to the same with more octets behind them. -/
theorem decode_more {c : Codec} {p : Bytes} {d : Batch} (h : c.decode p = .ok d) (more : Bytes) :
    c.decode (p ++ more) = .ok d :=
  decode_eq_ok_iff.2 (read_more (decode_eq_ok_iff.1 h) more)

/-- A batch as a machine can hold it: a word numbers its rows, the offsets of a column reach all
of its texts, and its octets fit in the memory, with a table for the schema of a length that can
be written. -/
structure Tangible (c : Codec) (b : Batch) : Prop where
  rows : b.rows < 2 ^ 64
  columns : ∀ col ∈ b.columns, Fitting col
  schema : (schemaMessage b.schema).length < 2 ^ 31
  body : (bodyFor c.compression b).length < 2 ^ 64

/-- The octets of the two messages of a batch, without the end of the stream. -/
def messages (c : Codec) (b : Batch) : Bytes :=
  schemaMessage b.schema ++ batchMessage c.compression b

theorem write_eq (c : Codec) (b : Batch) :
    Stream.write c.compression b = c.messages b ++ endMark := rfl

section

variable {c : Codec} {b : Batch}

theorem Tangible.fitting (h : c.Tangible b) (hvalid : b.Valid)
    (hcount : tableCount b.schema < greatestCount) : BatchFitting c.compression b :=
  ⟨h.rows, h.columns, length_tableFor_lt c.compression hvalid hcount, h.body⟩

theorem decode_messages (h : c.Tangible b) (hvalid : b.Valid) (rest : Bytes) :
    c.decode (c.messages b ++ rest) = reread b := by
  rw [decode, messages, List.append_assoc, read_messages hvalid h.schema (h.fitting hvalid), reread]
  by_cases hcount : tableCount b.schema < greatestCount
  · rw [if_pos hcount, if_pos hcount]
  · rw [if_neg hcount, if_neg hcount]

/-- The front of the stream of a batch that can be decoded has both messages, and is decoded to
the batch. -/
theorem decode_front (h : c.Tangible b) (hvalid : b.Valid) {front more : Bytes} {d : Batch}
    (hdecode : c.decode front = .ok d) (hfront : front ++ more = c.messages b ++ endMark) :
    (c.messages b).length ≤ front.length := by
  have hwhole := decode_more hdecode more
  rw [hfront, decode_messages h hvalid, reread] at hwhole
  split at hwhole
  · rename_i hcount
    have hfront' := hfront
    rw [messages, List.append_assoc] at hfront'
    have hle := length_le_of_read hvalid h.schema hcount (h.fitting hvalid hcount)
      (decode_eq_ok_iff.1 hdecode) hfront'
    have hlengths := congrArg List.length hfront
    rw [List.length_append, List.length_append] at hlengths
    omega
  · cases hwhole

/-- **A damaged payload never decodes to another batch.**  Take a batch that a machine can hold,
and what it was encoded to.  A front of that is decoded to the batch if it has both messages of
the stream, and is refused if anything of them is missing, wherever the cut goes; the whole
with anything behind it is decoded to the batch.  And whatever octets are decoded, of any
origin: with anything behind them they are decoded to the same.  (Where the schema makes more
tables than will be verified, no front is decoded, nor is the whole.) -/
theorem damage_never_misleads {payload : Bytes} (hencode : c.encode b = .ok payload)
    (h : c.Tangible b) :
    (∀ front, front <+: payload →
      if (c.messages b).length ≤ front.length then c.decode front = reread b
      else ∃ f, c.decode front = .error f) ∧
    (∀ more, c.decode (payload ++ more) = reread b) ∧
    ∀ octets d, c.decode octets = .ok d → ∀ more, c.decode (octets ++ more) = .ok d := by
  obtain ⟨hvalid, rfl⟩ := encode_eq_ok_iff.1 hencode
  rw [write_eq]
  refine ⟨fun front hfront => ?_, fun more => ?_, fun octets d hdecode => decode_more hdecode⟩
  · split
    · rename_i hlong
      obtain ⟨rest, rfl⟩ := List.prefix_of_prefix_length_le (List.prefix_append _ _) hfront hlong
      exact decode_messages h hvalid rest
    · rename_i hshort
      cases hdecode : c.decode front with
      | error f => exact ⟨f, rfl⟩
      | ok d =>
        obtain ⟨more, hmore⟩ := hfront
        exact absurd (decode_front h hvalid hdecode hmore) hshort
  · rw [List.append_assoc]
    exact decode_messages h hvalid (endMark ++ more)

end

/-- Three texts in whole messages, with an octet missing of the second, and with an octet more
than the whole stream. -/
theorem threeTexts_cut : ∃ payload, encode ⟨.none⟩ threeTexts = .ok payload ∧
    Tangible ⟨.none⟩ threeTexts ∧
    decode ⟨.none⟩ (payload.take (messages ⟨.none⟩ threeTexts).length) = .ok threeTexts ∧
    (∃ f, decode ⟨.none⟩ (payload.take ((messages ⟨.none⟩ threeTexts).length - 1)) = .error f) ∧
    decode ⟨.none⟩ (payload ++ [7]) = .ok threeTexts := by
  obtain ⟨payload, hencode, hle⟩ : ∃ payload, encode ⟨.none⟩ threeTexts = .ok payload ∧
      (messages ⟨.none⟩ threeTexts).length ≤ payload.length :=
    ⟨_, encode_eq_ok_iff.2 ⟨⟨rfl, by decide, by decide⟩, rfl⟩, by decide +kernel⟩
  have hfitting : BatchFitting .none threeTexts := fitting_of_message (by decide) (by decide +kernel)
  have htangible : Tangible ⟨.none⟩ threeTexts :=
    ⟨hfitting.rows, hfitting.columns, by decide +kernel, hfitting.body⟩
  have hpos : 0 < (messages ⟨.none⟩ threeTexts).length := by decide +kernel
  obtain ⟨hfront, hmore, -⟩ := damage_never_misleads hencode htangible
  generalize (messages ⟨.none⟩ threeTexts).length = whole at *
  have hwhole := hfront _ (List.take_prefix whole payload)
  have hcut := hfront _ (List.take_prefix (whole - 1) payload)
  rw [List.length_take_of_le hle, if_pos (Nat.le_refl _)] at hwhole
  rw [List.length_take, if_neg (by omega)] at hcut
  exact ⟨payload, hencode, htangible, hwhole, hcut, hmore [7]⟩

theorem decode_broad {n : Nat} (hleast : 500000 ≤ n) (hmost : n ≤ 1000000) :
    ∃ payload, encode ⟨.none⟩ (Batch.broad n) = .ok payload ∧
      payload.length ≤ Frame.greatestPayload ∧
      decode ⟨.none⟩ payload = .error (.columnar .brokenTable) := by
  have hw := Frame.writable_broad ⟨.none⟩ hmost
  refine ⟨_, encode_eq_ok_iff.2 ⟨hw.valid, rfl⟩, hw.length, ?_⟩
  rw [hw.decode (show 1 < 2 ^ 64 by decide), reread_broad hleast]

/-- With half a million columns the whole payload is refused, though nothing is missing of it. -/
theorem broad_is_refused : (Batch.broad 500000).Valid ∧
    ∃ payload, encode ⟨.none⟩ (Batch.broad 500000) = .ok payload ∧
      payload.length ≤ Frame.greatestPayload ∧
      decode ⟨.none⟩ (payload ++ []) = .error (.columnar .brokenTable) := by
  obtain ⟨payload, hencode, hlength, hdecode⟩ := decode_broad (Nat.le_refl _) (by decide)
  exact ⟨Batch.valid_broad _, payload, hencode, hlength, (List.append_nil payload).symm ▸ hdecode⟩

end Codec
end ExternalSort
