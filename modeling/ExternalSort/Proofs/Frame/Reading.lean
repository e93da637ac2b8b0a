/-
Frames in octets of any origin.

A frame says how long it is before anything of it is looked at.  So octets begin in one of
three ways: with a whole frame, with a length over the limit, or with a part of a frame
behind which nothing stands.  Of a whole frame exactly its own octets are taken, whatever
its payload is worth: a payload that holds no batch costs that batch and no other.  A
length over the limit says nothing about where the next frame would be, so only the length
itself is taken; and a part of a frame is taken up to the end.
-/
import ExternalSort.Proofs.Frame.Row

namespace ExternalSort.Frame

open Storage

/-! ### How octets begin -/

/-- The length that octets begin with. -/
def announced (bs : Bytes) : Nat := Bytes.Little.toNat (bs.take headerLength)

/-- The octets behind the length, so many as it says. -/
def payload (bs : Bytes) : Bytes := (bs.drop headerLength).take (announced bs)

/-- The octets begin with a whole frame. -/
structure Whole (bs : Bytes) : Prop where
  /-- The length is there. -/
  header : headerLength ≤ bs.length
  /-- It is within the limit. -/
  limit : announced bs ≤ greatestPayload
  /-- So many octets follow it. -/
  body : announced bs ≤ (bs.drop headerLength).length

/-- The octets begin with a length over the limit. -/
structure Overlong (bs : Bytes) : Prop where
  header : headerLength ≤ bs.length
  excess : greatestPayload < announced bs

/-- The octets end inside the length, or inside the payload that a length within the limit
announces. -/
inductive Cut (bs : Bytes) : Prop
  | header (h : bs.length < headerLength)
  | body (hheader : headerLength ≤ bs.length) (hlimit : announced bs ≤ greatestPayload)
      (h : (bs.drop headerLength).length < announced bs)

/-- There is no fourth way to begin. -/
theorem whole_or (bs : Bytes) : Whole bs ∨ Overlong bs ∨ Cut bs := by
  by_cases hheader : bs.length < headerLength
  · exact .inr (.inr (.header hheader))
  by_cases hlimit : greatestPayload < announced bs
  · exact .inr (.inl ⟨Nat.not_lt.1 hheader, hlimit⟩)
  by_cases hbody : (bs.drop headerLength).length < announced bs
  · exact .inr (.inr (.body (Nat.not_lt.1 hheader) (Nat.not_lt.1 hlimit) hbody))
  · exact .inl ⟨Nat.not_lt.1 hheader, Nat.not_lt.1 hlimit, Nat.not_lt.1 hbody⟩

theorem Whole.length_le {bs : Bytes} (h : Whole bs) :
    headerLength + announced bs ≤ bs.length := by
  have hheader := h.header
  have hbody := h.body
  rw [List.length_drop] at hbody
  omega

/-- Whether the octets begin with a whole frame, and with which, is settled within it. -/
theorem Whole.congr {bs other : Bytes} (h : Whole bs)
    (hsame : bs.take (headerLength + announced bs) <+: other) :
    Whole other ∧ announced other = announced bs ∧ payload other = payload bs := by
  obtain ⟨more, rfl⟩ := hsame
  have hheader := h.header
  have hlength : (bs.take (headerLength + announced bs)).length = headerLength + announced bs :=
    List.length_take_of_le h.length_le
  have hannounced :
      announced (bs.take (headerLength + announced bs) ++ more) = announced bs := by
    rw [announced, List.take_append_of_le_length (by omega), List.take_take,
      Nat.min_eq_left (Nat.le_add_right ..), ← announced]
  refine ⟨⟨?_, ?_, ?_⟩, hannounced, ?_⟩
  · rw [List.length_append]
    omega
  · rw [hannounced]
    exact h.limit
  · rw [hannounced, List.length_drop, List.length_append]
    omega
  · rw [payload, hannounced, List.drop_append_of_le_length (by omega), List.drop_take,
      Nat.add_sub_cancel_left, List.take_append_of_le_length (by
        rw [List.length_take]
        exact Nat.le_min.2 ⟨Nat.le_refl _, h.body⟩), List.take_take, Nat.min_self, ← payload]

/-! ### What is taken of them -/

variable (codec : Codec) {bs : Bytes}

/-- What is taken, by the ways to begin. -/
theorem take_eq (bs : Bytes) :
    take codec bs
      = if bs.length < headerLength then (.error (.io .shortRead), bs.drop headerLength)
        else if greatestPayload < announced bs then
          (.error (.data (.frameTooLong (announced bs))), bs.drop headerLength)
        else if (bs.drop headerLength).length < announced bs then
          (.error (truncated (bs.drop headerLength).length (announced bs)),
            (bs.drop headerLength).drop (announced bs))
        else (codec.decode (payload bs), (bs.drop headerLength).drop (announced bs)) :=
  rfl

theorem take_whole (h : Whole bs) :
    take codec bs = (codec.decode (payload bs), bs.drop (headerLength + announced bs)) := by
  rw [take_eq, if_neg (Nat.not_lt.2 h.header), if_neg (Nat.not_lt.2 h.limit),
    if_neg (Nat.not_lt.2 h.body), List.drop_drop]

theorem take_overlong (h : Overlong bs) :
    take codec bs = (.error (.data (.frameTooLong (announced bs))), bs.drop headerLength) := by
  rw [take_eq, if_neg (Nat.not_lt.2 h.header), if_pos h.excess]

/-- A cut frame is reported as octets that ended too soon, and nothing is left of it. -/
theorem take_cut (h : Cut bs) :
    ∃ f : Fault.IoFault, f.kind = .unexpectedEnd ∧ take codec bs = (.error (.io f), []) := by
  rw [take_eq]
  cases h with
  | header h =>
    rw [if_pos h, List.drop_of_length_le (Nat.le_of_lt h)]
    exact ⟨_, rfl, rfl⟩
  | body hheader hlimit h =>
    rw [if_neg (Nat.not_lt.2 hheader), if_neg (Nat.not_lt.2 hlimit), if_pos h,
      List.drop_of_length_le (Nat.le_of_lt h)]
    exact ⟨.described .unexpectedEnd _, rfl, rfl⟩

/-- A batch is taken of a whole frame only. -/
theorem take_eq_ok {b : Batch} :
    (take codec bs).1 = .ok b ↔ Whole bs ∧ codec.decode (payload bs) = .ok b := by
  constructor
  · intro h
    rcases whole_or bs with hwhole | hover | hcut
    · rw [take_whole codec hwhole] at h
      exact ⟨hwhole, h⟩
    · rw [take_overlong codec hover] at h
      exact nomatch h
    · obtain ⟨f, -, htake⟩ := take_cut codec hcut
      rw [htake] at h
      exact nomatch h
  · rintro ⟨hwhole, hdecode⟩
    rw [take_whole codec hwhole]
    exact hdecode

/-! ### What is read of them -/

variable {σ : Type} {source : ByteSource σ} {holds : σ → Bytes → Prop}

/-- **Any octets are read as frames in one way.**  A batch is read exactly where a whole
frame begins the octets whose payload is that batch.  Of a whole frame exactly its own
octets are taken, also where its payload holds no batch, and what it comes to is the same
whatever follows it; of a length over the limit only the length is taken; and where a frame
is cut the octets have ended too soon.  So a row of payloads is read one by one, each as
what it is worth by itself, and what stands behind the row is left. -/
theorem any_octets_are_read (h : source.Gives holds) {s : σ} (hs : holds s bs) :
    let outcome := (read codec source s).1
    let left := (read codec source s).2
    (Whole bs ∨ Overlong bs ∨ Cut bs) ∧
    (∀ b, outcome = .ok b ↔ Whole bs ∧ codec.decode (payload bs) = .ok b) ∧
    (Whole bs → outcome = codec.decode (payload bs) ∧
      holds left (bs.drop (headerLength + announced bs)) ∧
      ∀ s' more, holds s' (bs.take (headerLength + announced bs) ++ more) →
        (read codec source s').1 = outcome ∧ holds (read codec source s').2 more) ∧
    (Overlong bs → outcome = .error (.data (.frameTooLong (announced bs))) ∧
      holds left (bs.drop headerLength)) ∧
    (Cut bs → ∃ f : Fault.IoFault, f.kind = .unexpectedEnd ∧ outcome = .error (.io f)) ∧
    ∀ (payloads : List Bytes) more, (∀ p ∈ payloads, p.length ≤ greatestPayload) →
      bs = payloads.flatMap ofPayload ++ more →
      ∃ s', readEach codec source payloads.length s = (payloads.map codec.decode, s') ∧
        holds s' more := by
  intro outcome left
  obtain ⟨s', hread, hs'⟩ := read_gives h codec hs
  have houtcome : outcome = (take codec bs).1 := congrArg Prod.fst hread
  have hleft : left = s' := congrArg Prod.snd hread
  rw [houtcome, hleft]
  refine ⟨whole_or bs, fun b => take_eq_ok codec, ?_, ?_, ?_, ?_⟩
  · intro hwhole
    rw [take_whole codec hwhole] at hs' ⊢
    refine ⟨rfl, hs', ?_⟩
    intro t more ht
    obtain ⟨hother, hannounced, hpayload⟩ := hwhole.congr (List.prefix_append _ more)
    obtain ⟨t', hread', ht'⟩ := read_gives h codec ht
    rw [take_whole codec hother, hannounced, hpayload,
      List.drop_left' (List.length_take_of_le hwhole.length_le)] at hread' ht'
    rw [hread']
    exact ⟨rfl, ht'⟩
  · intro hover
    rw [take_overlong codec hover] at hs' ⊢
    exact ⟨rfl, hs'⟩
  · intro hcut
    obtain ⟨f, hkind, htake⟩ := take_cut codec hcut
    exact ⟨f, hkind, by rw [htake]⟩
  · rintro payloads more hlen rfl
    exact readEach_payloads h codec hlen hs

/-- A payload without an octet, one that holds no stream, and a batch behind each. -/
def patchy : List Bytes := [[], Stream.write .none bare, [1, 2, 3], Stream.write .none marked]

/-- The batches are read between what is none; a length over the limit is refused with the
octet behind it still there, and a single octet is no length. -/
theorem patchy_is_read :
    (∃ f f', readEach ⟨.none⟩ ByteSource.memory 4 (patchy.flatMap ofPayload ++ [9])
      = ([.error f, .ok bare, .error f', .ok marked], [9])) ∧
    read ⟨.none⟩ ByteSource.memory [1, 0, 0, 64, 0, 0, 0, 0, 7]
      = (.error (.data (.frameTooLong (2 ^ 30 + 1))), [7]) ∧
    ∃ f : Fault.IoFault, f.kind = .unexpectedEnd ∧
      (read ⟨.none⟩ ByteSource.memory [9]).1 = .error (.io f) := by
  have hlen : ∀ p ∈ patchy, p.length ≤ greatestPayload := by decide +kernel
  have hdecoded : patchy.map (Codec.decode ⟨.none⟩)
      = [.error (.columnar .shortStream), .ok bare, .error (.columnar .shortStream),
          .ok marked] := by
    have hbare : Writable ⟨.none⟩ bare :=
      ⟨⟨rfl, by decide, by decide⟩, hlen _ (by simp only [patchy, List.mem_cons, true_or, or_true])⟩
    have hmarked : Writable ⟨.none⟩ marked :=
      ⟨⟨rfl, by decide, by decide⟩, hlen _ (by simp only [patchy, List.mem_cons, true_or, or_true])⟩
    show [_, Codec.decode ⟨.none⟩ _, _, Codec.decode ⟨.none⟩ _] = _
    rw [hbare.decode (by decide), hmarked.decode (by decide)]
    rfl
  obtain ⟨-, -, -, -, -, hrow⟩ := any_octets_are_read ⟨.none⟩ gives_memory
    (rfl : patchy.flatMap ofPayload ++ [9] = _)
  obtain ⟨-, -, -, hover, -, -⟩ := any_octets_are_read ⟨.none⟩ gives_memory
    (rfl : ([1, 0, 0, 64, 0, 0, 0, 0, 7] : Bytes) = _)
  obtain ⟨-, -, -, -, hcut, -⟩ := any_octets_are_read ⟨.none⟩ gives_memory
    (rfl : ([9] : Bytes) = _)
  refine ⟨?_, ?_, hcut (.header (by decide))⟩
  · obtain ⟨left, hread, rfl⟩ := hrow patchy [9] hlen rfl
    exact ⟨_, _, hdecoded ▸ hread⟩
  · obtain ⟨houtcome, hleft⟩ := hover ⟨by decide, by decide⟩
    exact Prod.ext houtcome hleft

end ExternalSort.Frame
