/-
Frames in a row.

A frame tells its own length and nothing about its neighbours.  So frames that are written
one behind the other are read one after the other, each from where the one before it ended:
writing a row of batches appends their frames and nothing else, and reading as many frames
takes exactly these octets off again.  What stood in front of them and what follows is not
touched, and behind the last octet there is no frame.
-/
import ExternalSort.Proofs.Frame.Breadth

namespace ExternalSort.Frame

open Storage

variable {σ : Type}

/-- Appends the frames of batches, one call for each; gives what each call came to. -/
def writeEach (codec : Codec) (sink : ByteSink σ) :
    List Batch → σ → List (Except Fault Nat) × σ
  | [], s => ([], s)
  | b :: bs, s =>
    let written := write codec sink b s
    let rest := writeEach codec sink bs written.2
    (written.1 :: rest.1, rest.2)

/-- Reads so many frames, one call for each; gives what each call came to. -/
def readEach (codec : Codec) (source : ByteSource σ) : Nat → σ → List (Except Fault Batch) × σ
  | 0, s => ([], s)
  | n + 1, s =>
    let taken := read codec source s
    let rest := readEach codec source n taken.2
    (taken.1 :: rest.1, rest.2)

/-- The length in front of a frame is that of what is behind it, and behind it stands what
the batch is encoded as. -/
theorem ofBatch_parts {codec : Codec} {b : Batch} (hw : Writable codec b) :
    codec.encode b = .ok ((ofBatch codec b).drop headerLength) ∧
      Bytes.Little.toNat ((ofBatch codec b).take headerLength)
        = (ofBatch codec b).length - headerLength := by
  have hheader := Bytes.Little.length_ofNat headerLength (Stream.write codec.compression b).length
  constructor
  · rw [ofBatch, ofPayload, List.drop_left' hheader]
    exact Codec.encode_eq_ok_iff.2 ⟨hw.valid, rfl⟩
  · rw [ofBatch, length_ofPayload, ofPayload, List.take_left' hheader, header_ofPayload hw.length,
      Nat.add_sub_cancel_left]

/-- A sink that does not fail takes the frames as they stand in a row. -/
theorem writeEach_takes {sink : ByteSink σ} {holds : σ → Bytes → Prop} (h : sink.Takes holds)
    {codec : Codec} {bs : List Batch} (hw : ∀ b ∈ bs, Writable codec b) {s : σ} {taken : Bytes}
    (hs : holds s taken) :
    ∃ s', writeEach codec sink bs s = (bs.map fun b => .ok (ofBatch codec b).length, s') ∧
      holds s' (taken ++ bs.flatMap (ofBatch codec)) := by
  induction bs generalizing s taken with
  | nil => exact ⟨s, rfl, (List.append_nil taken).symm ▸ hs⟩
  | cons b bs ih =>
    obtain ⟨-, s', hwrite, hs'⟩ | ⟨hnot, -⟩ := write_takes h codec b hs
    · obtain ⟨s'', hrest, hs''⟩ := ih (fun b hb => hw b (List.mem_cons_of_mem _ hb)) hs'
      refine ⟨s'', ?_, ?_⟩
      · rw [writeEach, hwrite, hrest, List.map_cons]
      · rwa [List.flatMap_cons, ← List.append_assoc]
    · exact absurd (hw b (List.mem_cons_self ..)) hnot

/-- A source that does not fail gives, for each payload of a row, what it is worth by itself,
and is then behind the row. -/
theorem readEach_payloads {source : ByteSource σ} {holds : σ → Bytes → Prop}
    (h : source.Gives holds) (codec : Codec) {payloads : List Bytes}
    (hlen : ∀ p ∈ payloads, p.length ≤ greatestPayload) {s : σ} {more : Bytes}
    (hs : holds s (payloads.flatMap ofPayload ++ more)) :
    ∃ s', readEach codec source payloads.length s = (payloads.map codec.decode, s') ∧
      holds s' more := by
  induction payloads generalizing s with
  | nil => exact ⟨s, rfl, hs⟩
  | cons p payloads ih =>
    rw [List.flatMap_cons, List.append_assoc] at hs
    obtain ⟨s', hread, hs'⟩ := read_gives h codec hs
    rw [take_ofPayload codec (hlen p (List.mem_cons_self ..))] at hread hs'
    obtain ⟨s'', hrest, hs''⟩ := ih (fun q hq => hlen q (List.mem_cons_of_mem _ hq)) hs'
    exact ⟨s'', by rw [List.length_cons, readEach, hread, hrest, List.map_cons], hs''⟩

/-- So it gives the batches of a row of frames. -/
theorem readEach_gives {source : ByteSource σ} {holds : σ → Bytes → Prop} (h : source.Gives holds)
    {codec : Codec} {bs : List Batch} (hrows : ∀ b ∈ bs, b.rows < 2 ^ 64)
    (hw : ∀ b ∈ bs, Writable codec b) {s : σ} {more : Bytes}
    (hs : holds s (bs.flatMap (ofBatch codec) ++ more)) :
    ∃ s', readEach codec source bs.length s = (bs.map Codec.reread, s') ∧ holds s' more := by
  have hlen : ∀ p ∈ bs.map (Stream.write codec.compression), p.length ≤ greatestPayload :=
    List.forall_mem_map.2 fun b hb => (hw b hb).length
  obtain ⟨s', hread, hs'⟩ := readEach_payloads h codec hlen (by rwa [List.flatMap_map])
  have hworth : bs.map (codec.decode ∘ Stream.write codec.compression) = bs.map Codec.reread := by
    refine List.map_congr_left fun b hb => ?_
    rw [Function.comp_apply, (hw b hb).decode (hrows b hb)]
  rw [List.length_map, List.map_map, hworth] at hread
  exact ⟨s', hread, hs'⟩

/-- One call more is made behind those before it. -/
theorem readEach_succ (codec : Codec) (source : ByteSource σ) (n : Nat) (s : σ) :
    readEach codec source (n + 1) s
      = ((readEach codec source n s).1 ++ [(read codec source (readEach codec source n s).2).1],
        (read codec source (readEach codec source n s).2).2) := by
  induction n generalizing s with
  | zero => rfl
  | succ n ih =>
    rw [readEach, ih]
    rfl

/-- Behind the last octet there is no frame. -/
theorem read_end (codec : Codec) :
    read codec ByteSource.memory [] = (.error (.io .shortRead), []) := by
  obtain ⟨s, hread, rfl⟩ := read_gives gives_memory codec (s := []) rfl
  exact hread

/-- **Frames come back in their order, and nothing else with them.**  Each call that writes
gives the number of octets that it appends: the length in eight octets, and so many octets
as it says, what the batch is encoded as.  As many calls that read give the batches in
order, whatever follows the last frame, and leave exactly that; and where nothing follows,
one call more fails because the octets have ended. -/
theorem frames_come_back {codec : Codec} {bs : List Batch} (hrows : ∀ b ∈ bs, b.rows < 2 ^ 64)
    (hw : ∀ b ∈ bs, Writable codec b) (start more : Bytes) :
    let row := bs.flatMap (ofBatch codec)
    writeEach codec ByteSink.memory bs start
      = (bs.map fun b => .ok (ofBatch codec b).length, start ++ row) ∧
    (∀ b ∈ bs, codec.encode b = .ok ((ofBatch codec b).drop headerLength) ∧
      Bytes.Little.toNat ((ofBatch codec b).take headerLength)
        = (ofBatch codec b).length - headerLength) ∧
    readEach codec ByteSource.memory bs.length (row ++ more) = (bs.map Codec.reread, more) ∧
    ∃ f : Fault.IoFault, f.kind = .unexpectedEnd ∧
      readEach codec ByteSource.memory (bs.length + 1) row
        = (bs.map Codec.reread ++ [.error (.io f)], []) := by
  intro row
  have hread : ∀ more, readEach codec ByteSource.memory bs.length (row ++ more)
      = (bs.map Codec.reread, more) := by
    intro more
    obtain ⟨s, hread, rfl⟩ := readEach_gives gives_memory hrows hw (s := row ++ more) rfl
    exact hread
  refine ⟨?_, fun b hb => ofBatch_parts (hw b hb), hread more, .shortRead, rfl, ?_⟩
  · obtain ⟨s, hwritten, rfl⟩ := writeEach_takes takes_memory hw (s := start) rfl
    exact hwritten
  · have hall := hread []
    rw [List.append_nil] at hall
    rw [readEach_succ, hall, read_end]

/-- Three rows without a column. -/
def bare : Batch := ⟨⟨[], .empty⟩, [], 3⟩

/-- A cell that is no number, with a bit of its own, and a cell that is missing. -/
def marked : Batch where
  schema := ⟨[⟨"x", .float .double, true, .empty⟩], .ofList [("k", "v")]⟩
  columns := [⟨.float .double, [some 0x7FF8000000000001, none]⟩]
  rows := 2

/-- Two frames, with an octet in front of them and one behind. -/
theorem bare_and_marked_come_back :
    let row := ofBatch ⟨.none⟩ bare ++ ofBatch ⟨.none⟩ marked
    writeEach ⟨.none⟩ ByteSink.memory [bare, marked] [7]
      = ([.ok (ofBatch ⟨.none⟩ bare).length, .ok (ofBatch ⟨.none⟩ marked).length], 7 :: row) ∧
    readEach ⟨.none⟩ ByteSource.memory 2 (row ++ [9]) = ([.ok bare, .ok marked], [9]) ∧
    ∃ f : Fault.IoFault, f.kind = .unexpectedEnd ∧
      readEach ⟨.none⟩ ByteSource.memory 3 row = ([.ok bare, .ok marked, .error (.io f)], []) := by
  have hw : ∀ b ∈ [bare, marked], Writable ⟨.none⟩ b := by
    have hbare : Writable ⟨.none⟩ bare :=
      ⟨⟨rfl, by decide, by decide⟩, by decide +kernel⟩
    have hmarked : Writable ⟨.none⟩ marked :=
      ⟨⟨rfl, by decide, by decide⟩, by decide +kernel⟩
    intro b hb
    rcases List.mem_cons.1 hb with rfl | hb
    · exact hbare
    · obtain rfl := List.mem_singleton.1 hb
      exact hmarked
  obtain ⟨hwritten, -, hread, hend⟩ := frames_come_back (by decide) hw [7] [9]
  rw [List.flatMap_cons, List.flatMap_singleton] at hwritten hread hend
  exact ⟨hwritten, hread, hend⟩

/-! ### Frames that do not come back -/

/-- A sink without any room: it takes nothing. -/
def full : ByteSink Bytes := ⟨fun _ s => (.ok 0, s), fun _ _ => .ok⟩

theorem write_full {codec : Codec} {b : Batch} (hw : Writable codec b) (s : Bytes) :
    write codec full b s = (.error (.io .shortWrite), s) := by
  have hheader : Bytes.Little.ofNat headerLength (Stream.write codec.compression b).length ≠ [] := by
    intro h
    have hlength := congrArg List.length h
    rw [Bytes.Little.length_ofNat] at hlength
    exact nomatch hlength
  have hnothing : full.writeAll
      (Bytes.Little.ofNat headerLength (Stream.write codec.compression b).length) s
      = (.error .shortWrite, s) := by
    rw [ByteSink.writeAll, if_neg hheader]
    rfl
  rw [write, Codec.encode_eq_ok_iff.2 ⟨hw.valid, rfl⟩]
  dsimp only
  rw [if_neg (Nat.not_lt.2 hw.length), hnothing]

/-- A batch of so many columns is written, and not read. -/
theorem readEach_broad {n : Nat} (hleast : 500000 ≤ n) (hmost : n ≤ 1000000) :
    let frame := ofBatch ⟨.none⟩ (Batch.broad n)
    writeEach ⟨.none⟩ ByteSink.memory [Batch.broad n] [] = ([.ok frame.length], frame) ∧
    readEach ⟨.none⟩ ByteSource.memory 1 frame = ([.error (.columnar .brokenTable)], []) := by
  intro frame
  have hw : ∀ b ∈ [Batch.broad n], Writable ⟨.none⟩ b :=
    List.forall_mem_singleton.2 (writable_broad _ hmost)
  have hrows : ∀ b ∈ [Batch.broad n], b.rows < 2 ^ 64 :=
    List.forall_mem_singleton.2 (show 1 < 2 ^ 64 by decide)
  obtain ⟨s, hwritten, rfl⟩ := writeEach_takes takes_memory hw (s := []) rfl
  obtain ⟨s, hread, rfl⟩ := readEach_gives gives_memory hrows hw
    (s := [Batch.broad n].flatMap (ofBatch ⟨.none⟩) ++ []) rfl
  rw [List.map_singleton, Codec.reread_broad hleast, List.append_nil, List.flatMap_singleton]
    at hread
  rw [List.map_singleton, List.nil_append, List.flatMap_singleton] at hwritten
  exact ⟨hwritten, hread⟩

/-- **Not every frame comes back.**  A batch whose frame is short enough may have too many
columns to be read; and a sink without room takes no frame. -/
theorem broad_does_not_come_back :
    (Batch.broad 500000).Valid ∧ bare.Valid ∧
    (Stream.write .none (Batch.broad 500000)).length ≤ greatestPayload ∧
    (let frame := ofBatch ⟨.none⟩ (Batch.broad 500000)
    writeEach ⟨.none⟩ ByteSink.memory [Batch.broad 500000] [] = ([.ok frame.length], frame) ∧
    readEach ⟨.none⟩ ByteSource.memory 1 frame = ([.error (.columnar .brokenTable)], [])) ∧
    writeEach ⟨.none⟩ full [bare] [] = ([.error (.io .shortWrite)], []) := by
  have hbroad : Writable ⟨.none⟩ (Batch.broad 500000) := writable_broad _ (by decide)
  have hbare : Writable ⟨.none⟩ bare := ⟨⟨rfl, by decide, by decide⟩, by decide +kernel⟩
  refine ⟨hbroad.valid, hbare.valid, hbroad.length, readEach_broad (by decide) (by decide), ?_⟩
  rw [writeEach, write_full hbare]
  rfl

end ExternalSort.Frame
