/-
What of a frame passes through a stream that may fail.

A sink that failed has taken a part of the frame and not the whole of it; a source that
failed has given a part that is no frame.  So the octets that passed decide, by themselves
and after any failure, whether a frame was written and what was read.
-/
import ExternalSort.Proofs.Frame
import ExternalSort.Proofs.Storage.Passing

namespace ExternalSort

/-! ### Whose fault it is -/

namespace Codec

theorem isUserFacing_of_encode {c : Codec} {b : Batch} {f : Fault} (h : c.encode b = .error f) :
    f.isUserFacing := by
  unfold encode at h
  split at h
  · exact nomatch h
  · obtain rfl := Except.error.inj h
    rfl

theorem isUserFacing_of_decode {c : Codec} {bs : Bytes} {f : Fault} (h : c.decode bs = .error f) :
    f.isUserFacing := by
  unfold decode at h
  split at h
  · exact nomatch h
  · obtain rfl := Except.error.inj h
    rfl
  · obtain rfl := Except.error.inj h
    rfl

end Codec

namespace Frame

open Storage

variable {σ σ' : Type} {codec : Codec} {b : Batch}

/-! ### On streams that agree -/

theorem write_agrees {sink : ByteSink σ} {sink' : ByteSink σ'} {rel : σ → σ' → Prop}
    (h : sink.Agrees sink' rel) (codec : Codec) (b : Batch) {s : σ} {s' : σ'} (hs : rel s s') :
    Same rel (write codec sink b s) (write codec sink' b s') := by
  unfold write
  cases codec.encode b with
  | error f => exact ⟨rfl, hs⟩
  | ok payload =>
    dsimp only
    by_cases hlong : greatestPayload < payload.length
    · rw [if_pos hlong, if_pos hlong]
      exact ⟨rfl, hs⟩
    · rw [if_neg hlong, if_neg hlong]
      obtain ⟨hheader, hleft⟩ := h.writeAll (Bytes.Little.ofNat headerLength payload.length) hs
      generalize sink.writeAll _ s = step at hheader hleft ⊢
      generalize sink'.writeAll _ s' = step' at hheader hleft ⊢
      obtain ⟨outcome, t⟩ := step
      obtain ⟨_, t'⟩ := step'
      obtain rfl : outcome = _ := hheader
      cases outcome with
      | error f => exact ⟨rfl, hleft⟩
      | ok _ =>
        obtain ⟨hbody, hlast⟩ := h.writeAll payload hleft
        dsimp only
        generalize sink.writeAll payload t = step at hbody hlast ⊢
        generalize sink'.writeAll payload t' = step' at hbody hlast ⊢
        obtain ⟨outcome, u⟩ := step
        obtain ⟨_, u'⟩ := step'
        obtain rfl : outcome = _ := hbody
        cases outcome with
        | error f => exact ⟨rfl, hlast⟩
        | ok _ => exact ⟨rfl, hlast⟩

theorem read_agrees {source : ByteSource σ} {source' : ByteSource σ'} {rel : σ → σ' → Prop}
    (h : source.Agrees source' rel) (codec : Codec) {s : σ} {s' : σ'} (hs : rel s s') :
    Same rel (read codec source s) (read codec source' s') := by
  unfold read
  obtain ⟨hheader, hleft⟩ := h.readExact headerLength hs
  generalize source.readExact _ s = step at hheader hleft ⊢
  generalize source'.readExact _ s' = step' at hheader hleft ⊢
  obtain ⟨outcome, t⟩ := step
  obtain ⟨_, t'⟩ := step'
  obtain rfl : outcome = _ := hheader
  cases outcome with
  | error f => exact ⟨rfl, hleft⟩
  | ok header =>
    dsimp only
    by_cases hlong : greatestPayload < Bytes.Little.toNat header
    · rw [if_pos hlong, if_pos hlong]
      exact ⟨rfl, hleft⟩
    · rw [if_neg hlong, if_neg hlong]
      obtain ⟨hpayload, hlast⟩ := h.readUpTo (Bytes.Little.toNat header) hleft
      generalize source.readUpTo _ t = step at hpayload hlast ⊢
      generalize source'.readUpTo _ t' = step' at hpayload hlast ⊢
      obtain ⟨outcome, u⟩ := step
      obtain ⟨_, u'⟩ := step'
      obtain rfl : outcome = _ := hpayload
      cases outcome with
      | error f => exact ⟨rfl, hlast⟩
      | ok payload =>
        dsimp only
        split <;> exact ⟨rfl, hlast⟩

/-! ### On streams that are recorded -/

theorem ofBatch_ne_nil (codec : Codec) (b : Batch) : ofBatch codec b ≠ [] := by
  intro h
  have hlength := length_ofPayload (Stream.write codec.compression b)
  rw [← ofBatch, h, headerLength, List.length_nil] at hlength
  omega

/-- Only batches that can be written are written. -/
theorem writable_of_write {sink : ByteSink σ} {s s' : σ} {n : Nat}
    (h : write codec sink b s = (.ok n, s')) : Writable codec b := by
  unfold write at h
  split at h
  · exact nomatch (Prod.mk.inj h).1
  · rename_i payload hencode
    obtain ⟨hvalid, hpayload⟩ := Codec.encode_eq_ok_iff.1 hencode
    split at h
    · exact nomatch (Prod.mk.inj h).1
    · rename_i hshort
      exact ⟨hvalid, hpayload ▸ Nat.not_lt.1 hshort⟩

/-- A frame was written exactly if all its octets were taken; else a part of them was. -/
theorem write_records {sink : ByteSink σ} {took : σ → Bytes} (h : sink.Records took)
    (codec : Codec) (b : Batch) (s : σ) :
    ∃ passed, took (write codec sink b s).2 = took s ++ passed ∧
      ((write codec sink b s).1 = .ok passed.length ∧ passed = ofBatch codec b ∨
        ∃ f, (write codec sink b s).1 = .error f ∧ f.isUserFacing ∧ passed ≠ ofBatch codec b) := by
  have hnil := (ofBatch_ne_nil codec b).symm
  unfold write
  cases hencode : codec.encode b with
  | error f =>
    exact ⟨[], (List.append_nil _).symm, .inr ⟨f, rfl, Codec.isUserFacing_of_encode hencode, hnil⟩⟩
  | ok payload =>
    obtain ⟨-, hpayload⟩ := Codec.encode_eq_ok_iff.1 hencode
    have hframe : ofBatch codec b = Bytes.Little.ofNat headerLength payload.length ++ payload := by
      rw [ofBatch, ← hpayload, ofPayload]
    dsimp only
    by_cases hlong : greatestPayload < payload.length
    · rw [if_pos hlong]
      exact ⟨[], (List.append_nil _).symm, .inr ⟨_, rfl, rfl, hnil⟩⟩
    · rw [if_neg hlong]
      obtain ⟨first, hfirst, hpart, hheader⟩ :=
        h.writeAll (Bytes.Little.ofNat headerLength payload.length) s
      generalize sink.writeAll _ s = step at hfirst hheader ⊢
      obtain ⟨outcome, t⟩ := step
      cases outcome with
      | error f =>
        refine ⟨first, hfirst, .inr ⟨_, rfl, rfl, ?_⟩⟩
        intro hwhole
        have hlength := hpart.length_le
        rw [hwhole, hframe, List.length_append] at hlength
        have hempty : payload = [] := List.length_eq_zero_iff.1 (by omega)
        rw [hempty, List.append_nil] at hframe
        rw [hempty] at hheader
        cases hheader.2 (hwhole.trans hframe)
      | ok _ =>
        obtain rfl := hheader.1 rfl
        obtain ⟨second, hsecond, -, hbody⟩ := h.writeAll payload t
        dsimp only at hfirst ⊢
        generalize sink.writeAll payload t = step at hsecond hbody ⊢
        obtain ⟨outcome, u⟩ := step
        refine ⟨Bytes.Little.ofNat headerLength payload.length ++ second, ?_, ?_⟩
        · rw [← List.append_assoc, ← hfirst, ← hsecond]
          dsimp only
          split <;> rename_i heq <;> exact congrArg took (Prod.mk.inj heq).2.symm
        · cases outcome with
          | error f =>
            refine .inr ⟨_, rfl, rfl, ?_⟩
            intro hwhole
            cases hbody.2 (List.append_cancel_left (hwhole.trans hframe))
          | ok _ =>
            obtain rfl := hbody.1 rfl
            refine .inl ⟨?_, hframe.symm⟩
            rw [List.length_append, Bytes.Little.length_ofNat]

/-- What is taken from octets that are a frame is taken from them whatever follows. -/
theorem take_append {passed : Bytes} (h : take codec passed = (.ok b, [])) (rest : Bytes) :
    take codec (passed ++ rest) = (.ok b, rest) := by
  unfold take at h ⊢
  by_cases hshort : passed.length < headerLength
  · rw [if_pos hshort] at h
    exact nomatch (Prod.mk.inj h).1
  have hheader : (passed ++ rest).take headerLength = passed.take headerLength :=
    List.take_append_of_le_length (Nat.not_lt.1 hshort)
  have hbody : (passed ++ rest).drop headerLength = passed.drop headerLength ++ rest :=
    List.drop_append_of_le_length (Nat.not_lt.1 hshort)
  rw [if_neg hshort] at h
  rw [if_neg (by rw [List.length_append]; omega), hheader, hbody]
  generalize Bytes.Little.toNat (passed.take headerLength) = length at h ⊢
  generalize passed.drop headerLength = body at h ⊢
  dsimp only at h ⊢
  by_cases hlong : greatestPayload < length
  · rw [if_pos hlong] at h
    exact nomatch (Prod.mk.inj h).1
  by_cases hcut : body.length < length
  · rw [if_neg hlong, if_pos hcut] at h
    exact nomatch (Prod.mk.inj h).1
  rw [if_neg hlong, if_neg hcut] at h
  rw [if_neg hlong, if_neg (by rw [List.length_append]; omega)]
  obtain ⟨hdecode, hend⟩ := Prod.mk.inj h
  obtain hlength : body.length = length :=
    Nat.le_antisymm (List.drop_eq_nil_iff.1 hend) (Nat.not_lt.1 hcut)
  rw [List.take_of_length_le (Nat.le_of_eq hlength)] at hdecode
  rw [List.take_left' hlength, List.drop_left' hlength, hdecode]

/-- What a header and octets behind it come to, where these are no more than it announces. -/
theorem take_parts (codec : Codec) {header : Bytes} (payload : Bytes)
    (hheader : header.length = headerLength)
    (hpayload : payload.length ≤ Bytes.Little.toNat header) :
    take codec (header ++ payload)
      = if greatestPayload < Bytes.Little.toNat header then
          (.error (.data (.frameTooLong (Bytes.Little.toNat header))), payload)
        else if payload.length < Bytes.Little.toNat header then
          (.error (truncated payload.length (Bytes.Little.toNat header)), [])
        else (codec.decode payload, []) := by
  rw [take, if_neg (by rw [List.length_append]; omega), List.take_left' hheader,
    List.drop_left' hheader]
  dsimp only
  rw [List.take_of_length_le hpayload, List.drop_of_length_le hpayload]

/-- A frame was read exactly if the octets that were given are one; the source has then
given no octet more. -/
theorem read_records {source : ByteSource σ} {gave : σ → Bytes} (h : source.Records gave)
    (codec : Codec) (s : σ) :
    ∃ passed, gave (read codec source s).2 = gave s ++ passed ∧
      ((∃ b, (read codec source s).1 = .ok b ∧ take codec passed = (.ok b, [])) ∨
        ∃ f f' rest, (read codec source s).1 = .error f ∧ f.isUserFacing ∧
          take codec passed = (.error f', rest)) := by
  obtain ⟨header, hheader, hend⟩ := h.readExact headerLength s
  unfold read
  generalize source.readExact _ s = step at hheader hend ⊢
  obtain ⟨outcome, t⟩ := step
  rcases hend with ⟨hok, hlength⟩ | ⟨⟨f, herror⟩, hshort⟩
  · obtain rfl : outcome = .ok header := hok
    dsimp only at hheader ⊢
    by_cases hlong : greatestPayload < Bytes.Little.toNat header
    · have htake := take_parts codec [] hlength (Nat.zero_le _)
      rw [List.append_nil, if_pos hlong] at htake
      rw [if_pos hlong]
      exact ⟨header, hheader, .inr ⟨_, _, _, rfl, rfl, htake⟩⟩
    · obtain ⟨payload, hpayload, hle, hend⟩ := h.readUpTo (Bytes.Little.toNat header) t
      have htake := take_parts codec payload hlength hle
      rw [if_neg hlong] at htake ⊢
      generalize source.readUpTo _ t = step at hpayload hend ⊢
      obtain ⟨outcome, u⟩ := step
      have hgave : gave u = gave s ++ (header ++ payload) := by
        rw [← List.append_assoc, ← hheader]
        exact hpayload
      rcases hend with hok | ⟨⟨f, herror⟩, hshort⟩
      · obtain rfl : outcome = .ok payload := hok
        dsimp only
        by_cases hcut : payload.length < Bytes.Little.toNat header
        · rw [if_pos hcut] at htake ⊢
          exact ⟨_, hgave, .inr ⟨_, _, _, rfl, rfl, htake⟩⟩
        · rw [if_neg hcut] at htake ⊢
          cases hdecode : codec.decode payload with
          | ok b => exact ⟨_, hgave, .inl ⟨b, rfl, hdecode ▸ htake⟩⟩
          | error f =>
            exact ⟨_, hgave, .inr ⟨f, f, [], rfl, Codec.isUserFacing_of_decode hdecode,
              hdecode ▸ htake⟩⟩
      · obtain rfl : outcome = .error f := herror
        rw [if_pos hshort] at htake
        exact ⟨_, hgave, .inr ⟨_, _, _, rfl, rfl, htake⟩⟩
  · obtain rfl : outcome = .error f := herror
    refine ⟨header, hheader, .inr ⟨_, .io .shortRead, header.drop headerLength, rfl, rfl, ?_⟩⟩
    rw [take, if_pos hshort]

end Frame
end ExternalSort
