/-
What is noted of a channel that is watched.

The notes are complete: what passes through a stream stands among the events, octet by
octet, with nothing else between them.  So a frame was written exactly if the events of
writing it hold its octets, and a frame was read exactly if they hold a frame.
-/
import ExternalSort.Proofs.Frame.Passing
import ExternalSort.Storage.Watched

namespace ExternalSort.Storage

/-! ### Events one behind the other -/

theorem calls_append (es es' : List Event) : calls (es ++ es') = calls es ++ calls es' :=
  List.filterMap_append

theorem taken_append (es es' : List Event) : taken (es ++ es') = taken es ++ taken es' :=
  List.flatMap_append

theorem given_append (es es' : List Event) : given (es ++ es') = given es ++ given es' :=
  List.flatMap_append

theorem talliesWritten_append (es es' : List Event) :
    talliesWritten (es ++ es') = talliesWritten es ++ talliesWritten es' :=
  List.filterMap_append

theorem talliesRead_append (es es' : List Event) :
    talliesRead (es ++ es') = talliesRead es ++ talliesRead es' :=
  List.filterMap_append

/-- A call of a sink. -/
inductive Event.IsWrite : Event → Prop where
  | write (outcome : Except Fault.IoFault Bytes) : IsWrite (.write outcome)

/-- A call of a source. -/
inductive Event.IsRead : Event → Prop where
  | read (outcome : Except Fault.IoFault Bytes) : IsRead (.read outcome)

/-- What passes through streams is no call of the channel. -/
theorem calls_writes {es : List Event} (h : ∀ e ∈ es, e.IsWrite) : calls es = [] := by
  refine List.filterMap_eq_nil_iff.2 fun e he => ?_
  cases h e he
  rfl

theorem calls_reads {es : List Event} (h : ∀ e ∈ es, e.IsRead) : calls es = [] := by
  refine List.filterMap_eq_nil_iff.2 fun e he => ?_
  cases h e he
  rfl

theorem taken_reads {es : List Event} (h : ∀ e ∈ es, e.IsRead) : taken es = [] := by
  refine List.flatMap_eq_nil_iff.2 fun e he => ?_
  cases h e he
  rfl

theorem given_writes {es : List Event} (h : ∀ e ∈ es, e.IsWrite) : given es = [] := by
  refine List.flatMap_eq_nil_iff.2 fun e he => ?_
  cases h e he
  rfl

/-- The source never gives more than it is asked for. -/
def ByteSource.Bounded {σ : Type} (source : ByteSource σ) : Prop :=
  ∀ n s, (givenOf (source.read n s).1).length ≤ n

namespace Watched

variable {ω κ ρ : Type} {c : Channel ω κ ρ}

/-- A file that is opened to be read is opened on the channel behind, and that is noted. -/
theorem openInput_eq {p : Path} {x t : Watched ω} {outcome : Except Fault ρ}
    (h : (channel c).openInput p x = (outcome, t)) : c.openInput p x.inner = (outcome, t.inner) ∧
      t.events = x.events ++ [.openInput p (outcome.map fun _ => ())] := by
  change heard _ _ x = _ at h
  unfold heard at h
  obtain ⟨rfl, rfl⟩ := Prod.mk.inj h
  exact ⟨rfl, rfl⟩

/-- What a sink is offered goes to the sink behind, and what that took of it is noted. -/
theorem write_eq {bs : Bytes} {k k' : κ} {x : Watched ω} {outcome : Except Fault.IoFault Nat}
    {s : ω} (h : c.sink.write bs (k, x.inner) = (outcome, k', s)) :
    (channel c).sink.write bs (k, x)
      = (outcome, k', ⟨s, x.events ++ [.write (outcome.map bs.take)]⟩) := by
  simp only [channel, h]
  rfl

theorem sink_records (c : Channel ω κ ρ) :
    (channel c).sink.Records fun x => taken x.2.events := by
  rintro bs ⟨k, s⟩
  show taken (s.events ++ [.write ((c.sink.write bs (k, s.inner)).1.map bs.take)])
    = taken s.events ++ takenOf bs (c.sink.write bs (k, s.inner)).1
  rw [taken_append]
  cases (c.sink.write bs (k, s.inner)).1 with
  | error f => rfl
  | ok n => exact congrArg (taken s.events ++ ·) (List.append_nil _)

theorem given_read (c : Channel ω κ ρ) (n : Nat) (x : ρ × Watched ω) :
    given ((channel c).source.read n x).2.2.events
      = given x.2.events ++ givenOf ((channel c).source.read n x).1 := by
  obtain ⟨r, s⟩ := x
  show given (s.events ++ [.read (c.source.read n (r, s.inner)).1])
    = given s.events ++ givenOf (c.source.read n (r, s.inner)).1
  rw [given_append]
  cases (c.source.read n (r, s.inner)).1 with
  | error f => rfl
  | ok got => exact congrArg (given s.events ++ ·) (List.append_nil _)

theorem source_records (h : c.source.Bounded) :
    (channel c).source.Records fun x => given x.2.events where
  bounded n x := h n (x.1, x.2.inner)
  record n x := given_read c n x

/-- What is noted while a frame is written: calls of the sink, which took the frame exactly
if it was written. -/
theorem write_frame (c : Channel ω κ ρ) (codec : Codec) (b : Batch) (k : κ) (s : Watched ω) :
    ∃ writes, (Frame.write codec (channel c).sink b (k, s)).2.2.events = s.events ++ writes ∧
      (∀ e ∈ writes, e.IsWrite) ∧
      ((Frame.write codec (channel c).sink b (k, s)).1 = .ok (taken writes).length ∧
          taken writes = Frame.ofBatch codec b ∨
        ∃ f, (Frame.write codec (channel c).sink b (k, s)).1 = .error f ∧ f.isUserFacing ∧
          taken writes ≠ Frame.ofBatch codec b) := by
  have hagrees : (channel c).sink.Agrees (channel c).sink fun x y =>
      x = y ∧ ∃ writes, x.2.events = s.events ++ writes ∧ ∀ e ∈ writes, e.IsWrite := by
    rintro ⟨k, x⟩ _ ⟨rfl, writes, hevents, hall⟩ bs -
    refine ⟨rfl, rfl, writes ++ [.write ((c.sink.write bs (k, x.inner)).1.map bs.take)], ?_, ?_⟩
    · rw [← List.append_assoc, ← hevents]
      rfl
    · intro e he
      rcases List.mem_append.1 he with he | he
      · exact hall e he
      · exact List.mem_singleton.1 he ▸ .write _
  obtain ⟨-, -, writes, hevents, hall⟩ := Frame.write_agrees hagrees codec b (s := (k, s))
    ⟨rfl, [], (List.append_nil _).symm, fun e he => (nomatch he)⟩
  obtain ⟨passed, hpassed, hend⟩ := Frame.write_records (sink_records c) codec b (k, s)
  rw [hevents, taken_append] at hpassed
  obtain rfl := List.append_cancel_left hpassed
  exact ⟨writes, hevents, hall, hend⟩

/-- What is noted while a frame is read: calls of the source, which gave a frame, and not an
octet more, exactly if one was read. -/
theorem read_frame (h : c.source.Bounded) (codec : Codec) (r : ρ) (s : Watched ω) :
    ∃ reads, (Frame.read codec (channel c).source (r, s)).2.2.events = s.events ++ reads ∧
      (∀ e ∈ reads, e.IsRead) ∧
      ((∃ b, (Frame.read codec (channel c).source (r, s)).1 = .ok b ∧
          Frame.take codec (given reads) = (.ok b, [])) ∨
        ∃ f f' rest, (Frame.read codec (channel c).source (r, s)).1 = .error f ∧ f.isUserFacing ∧
          Frame.take codec (given reads) = (.error f', rest)) := by
  have hagrees : (channel c).source.Agrees (channel c).source fun x y =>
      x = y ∧ ∃ reads, x.2.events = s.events ++ reads ∧ ∀ e ∈ reads, e.IsRead := by
    rintro ⟨r, x⟩ _ ⟨rfl, reads, hevents, hall⟩ n -
    refine ⟨rfl, rfl, reads ++ [.read (c.source.read n (r, x.inner)).1], ?_, ?_⟩
    · rw [← List.append_assoc, ← hevents]
      rfl
    · intro e he
      rcases List.mem_append.1 he with he | he
      · exact hall e he
      · exact List.mem_singleton.1 he ▸ .read _
  obtain ⟨-, -, reads, hevents, hall⟩ := Frame.read_agrees hagrees codec (s := (r, s))
    ⟨rfl, [], (List.append_nil _).symm, fun e he => (nomatch he)⟩
  obtain ⟨passed, hpassed, hend⟩ := Frame.read_records (source_records h) codec (r, s)
  rw [hevents, given_append] at hpassed
  obtain rfl := List.append_cancel_left hpassed
  exact ⟨reads, hevents, hall, hend⟩

end Watched
end ExternalSort.Storage
