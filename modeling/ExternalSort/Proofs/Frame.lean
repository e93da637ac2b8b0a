/-
Frames on streams that do not fail.

What reading a frame comes to depends on the octets that are left and on nothing else, so
it is computed here from those octets: `Frame.take` is the whole of it.  A frame stands as
it was written if its octets are all there, and a part of a frame is no frame, wherever it
was cut.
-/
import ExternalSort.Proofs.Bytes
import ExternalSort.Proofs.Codec
import ExternalSort.Proofs.Storage.Stream

namespace ExternalSort.Frame

open Storage

/-! ### Reading -/

/-- What reading a frame from octets comes to, and the octets behind it. -/
def take (codec : Codec) (bs : Bytes) : Except Fault Batch × Bytes :=
  if bs.length < headerLength then (.error (.io .shortRead), bs.drop headerLength)
  else
    let length := Bytes.Little.toNat (bs.take headerLength)
    let rest := bs.drop headerLength
    if greatestPayload < length then (.error (.data (.frameTooLong length)), rest)
    else if rest.length < length then (.error (truncated rest.length length), rest.drop length)
    else (codec.decode (rest.take length), rest.drop length)

/-- A frame is read from any source in the same way. -/
theorem read_gives {σ : Type} {source : ByteSource σ} {holds : σ → Bytes → Prop}
    (h : source.Gives holds) (codec : Codec) {s : σ} {bs : Bytes} (hs : holds s bs) :
    ∃ s', read codec source s = ((take codec bs).1, s') ∧ holds s' (take codec bs).2 := by
  obtain ⟨s', hheader, hs'⟩ := ByteSource.readExact_gives h headerLength hs
  unfold read take
  rw [hheader]
  by_cases hshort : bs.length < headerLength
  · rw [if_pos hshort, if_pos hshort]
    exact ⟨s', rfl, hs'⟩
  · rw [if_neg hshort, if_neg hshort]
    by_cases hlong : greatestPayload < Bytes.Little.toNat (bs.take headerLength)
    · simp only [if_pos hlong]
      exact ⟨s', rfl, hs'⟩
    · obtain ⟨s'', hpayload, hs''⟩ := ByteSource.readUpTo_gives h
        (Bytes.Little.toNat (bs.take headerLength)) hs'
      simp only [if_neg hlong, hpayload, List.length_take]
      generalize Bytes.Little.toNat (bs.take headerLength) = length at hs'' ⊢
      by_cases hcut : (bs.drop headerLength).length < length
      · rw [if_pos hcut, if_pos (by omega), Nat.min_eq_right (by omega)]
        exact ⟨s'', rfl, hs''⟩
      · rw [if_neg hcut, if_neg (by omega)]
        exact ⟨s'', rfl, hs''⟩

theorem length_ofPayload (payload : Bytes) :
    (ofPayload payload).length = headerLength + payload.length := by
  rw [ofPayload, List.length_append, Bytes.Little.length_ofNat]

theorem header_ofPayload {payload : Bytes} (hlen : payload.length ≤ greatestPayload) :
    Bytes.Little.toNat (Bytes.Little.ofNat headerLength payload.length) = payload.length := by
  refine Bytes.Little.toNat_ofNat_of_lt (Nat.lt_of_le_of_lt hlen ?_)
  show 2 ^ 30 < 256 ^ 8
  decide

/-- A whole frame is taken as it stands, whatever follows it. -/
theorem take_ofPayload (codec : Codec) {payload : Bytes}
    (hlen : payload.length ≤ greatestPayload) (rest : Bytes) :
    take codec (ofPayload payload ++ rest) = (codec.decode payload, rest) := by
  have hheader := Bytes.Little.length_ofNat headerLength payload.length
  unfold take ofPayload
  rw [List.append_assoc, List.take_left' hheader, List.drop_left' hheader, header_ofPayload hlen,
    if_neg (by rw [List.length_append, hheader]; omega)]
  simp only [if_neg (Nat.not_lt.2 hlen), List.length_append, List.take_left, List.drop_left]
  rw [if_neg (by omega)]

/-- A part of a frame is no frame. -/
theorem take_part (codec : Codec) {payload part : Bytes}
    (hlen : payload.length ≤ greatestPayload) (hpart : part <+: ofPayload payload)
    (hshort : part.length < (ofPayload payload).length) :
    ∃ f rest, take codec part = (.error (.io f), rest) := by
  obtain ⟨more, hmore⟩ := hpart
  rw [length_ofPayload] at hshort
  unfold take
  by_cases hheader : part.length < headerLength
  · rw [if_pos hheader]
    exact ⟨_, _, rfl⟩
  · have htake : part.take headerLength = Bytes.Little.ofNat headerLength payload.length := by
      have := congrArg (List.take headerLength) hmore
      rwa [List.take_append_of_le_length (Nat.not_lt.1 hheader), ofPayload,
        List.take_left' (Bytes.Little.length_ofNat ..)] at this
    have hdrop : (part.drop headerLength).length < payload.length := by
      rw [List.length_drop]
      omega
    rw [if_neg hheader, htake, header_ofPayload hlen]
    simp only [if_neg (Nat.not_lt.2 hlen), if_pos hdrop]
    exact ⟨_, _, rfl⟩

/-! ### Writing -/

/-- The frame of a batch, as it stands in a file. -/
def ofBatch (codec : Codec) (b : Batch) : Bytes := ofPayload (Stream.write codec.compression b)

/-- A batch can be written: it is valid, and its frame is not too long. -/
structure Writable (codec : Codec) (b : Batch) : Prop where
  valid : b.Valid
  length : (Stream.write codec.compression b).length ≤ greatestPayload

/-- On a sink that does not fail exactly the batches that can be written are written. -/
theorem write_takes {σ : Type} {sink : ByteSink σ} {holds : σ → Bytes → Prop}
    (h : sink.Takes holds) (codec : Codec) (b : Batch) {s : σ} {taken : Bytes}
    (hs : holds s taken) :
    (Writable codec b ∧ ∃ s', write codec sink b s = (.ok (ofBatch codec b).length, s') ∧
        holds s' (taken ++ ofBatch codec b)) ∨
      (¬Writable codec b ∧ ∃ f, write codec sink b s = (.error f, s)) := by
  unfold write
  cases hencode : codec.encode b with
  | error f =>
    refine .inr ⟨?_, f, rfl⟩
    intro hw
    rw [(Codec.encode_eq_ok_iff.2 ⟨hw.valid, rfl⟩ : codec.encode b = _)] at hencode
    exact nomatch hencode
  | ok payload =>
    obtain ⟨hvalid, hpayload⟩ := Codec.encode_eq_ok_iff.1 hencode
    by_cases hlong : greatestPayload < payload.length
    · refine .inr ⟨?_, _, if_pos hlong⟩
      intro hw
      exact absurd hw.length (Nat.not_le.2 (hpayload ▸ hlong))
    · obtain ⟨s', hheader, hs'⟩ := ByteSink.writeAll_takes h
        (Bytes.Little.ofNat headerLength payload.length) hs
      obtain ⟨s'', hbody, hs''⟩ := ByteSink.writeAll_takes h payload hs'
      refine .inl ⟨⟨hvalid, hpayload ▸ Nat.not_lt.1 hlong⟩, s'', ?_, ?_⟩
      · simp only [if_neg hlong, hheader, hbody, ofBatch, ← hpayload, length_ofPayload]
      · rwa [ofBatch, ← hpayload, ofPayload, ← List.append_assoc]

/-- A valid batch is not written for its length, or because the sink failed. -/
theorem write_error {σ : Type} {sink : ByteSink σ} {codec : Codec} {b : Batch} {s s' : σ}
    {f : Fault} (hb : b.Valid) (h : write codec sink b s = (.error f, s')) :
    f = .data (.batchTooLong (Stream.write codec.compression b).length) ∧
        greatestPayload < (Stream.write codec.compression b).length ∨
      ∃ f', f = .io f' := by
  unfold write at h
  rw [Codec.encode_eq_ok_iff.2 ⟨hb, rfl⟩] at h
  simp only at h
  split at h
  · rename_i hlong
    exact .inl ⟨(Except.error.inj (Prod.mk.inj h).1).symm, hlong⟩
  · split at h
    · exact .inr ⟨_, (Except.error.inj (Prod.mk.inj h).1).symm⟩
    · split at h
      · exact .inr ⟨_, (Except.error.inj (Prod.mk.inj h).1).symm⟩
      · exact nomatch (Prod.mk.inj h).1

/-- The payload of a batch is worth what the batch is reread as. -/
theorem Writable.decode {codec : Codec} {b : Batch} (hw : Writable codec b)
    (hrows : b.rows < 2 ^ 64) :
    codec.decode (Stream.write codec.compression b) = Codec.reread b :=
  Codec.decode_encode hrows (Codec.encode_eq_ok_iff.2 ⟨hw.valid, rfl⟩) hw.length

/-- What was written as a frame is taken as what the batch is reread as. -/
theorem take_ofBatch {codec : Codec} {b : Batch} (hrows : b.rows < 2 ^ 64)
    (hw : Writable codec b) (rest : Bytes) :
    take codec (ofBatch codec b ++ rest) = (Codec.reread b, rest) := by
  rw [ofBatch, take_ofPayload codec hw.length rest, hw.decode hrows]

end ExternalSort.Frame
