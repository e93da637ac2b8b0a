/-
Rows come back as they went in.

A run that takes batches writes them down one after the other, and everything else that it
does before the reading only changes the target schema.  So what it delivers is known from
its history alone: the rows of the first batch, then those of the second and so on, each in
the shape of the schema that was set last, then nothing more for ever.  A batch that cannot
be brought into that shape ends the delivery with a fault, after the rows of those before
it.
-/
import ExternalSort.Proofs.Frame.Breadth
import ExternalSort.Proofs.Run.Storing

namespace ExternalSort.Run

open Storage

variable {ω κ ρ : Type} {c : Channel ω κ ρ}

/-- Where no frame was cut every batch is read back. -/
theorem outcomes_length (target : Option Schema) (bs : List Batch) (f : Fault.IoFault) :
    outcomes target bs bs.length f = bs.map (readBack target) := by
  rw [outcomes, List.take_length, if_neg (Nat.lt_irrefl _), List.append_nil]

/-- What a run that took certain batches has due where nothing touched its octets. -/
theorem Laid.awaiting_all {R : Reliable c} {r : Run κ ρ} {s : ω} {bs : List Batch}
    (h : Laid R r s bs) (hrows : ∀ b ∈ bs, b.rows < 2 ^ 64) :
    ∃ beyond, Awaiting R r s (delivered (bs.map (readBack r.cursor.target)))
      (firstFault? (bs.map (readBack r.cursor.target))) beyond := by
  have hwhole : framesBelow r.codec bs (frames r.codec bs).length = bs.length :=
    (framesBelow_eq_length r.codec bs _).2 (Nat.le_refl _)
  have hstored : Holding R r s ((frames r.codec bs ++ []).take (frames r.codec bs).length) := by
    rw [List.append_nil, List.take_length]
    exact h.holding
  obtain ⟨f, beyond, hawaiting, -⟩ := h.awaiting hrows hstored
  rw [hwhole, outcomes_length] at hawaiting
  exact ⟨beyond, hawaiting⟩

/-- What requests for rows are answered where nothing touched the octets. -/
theorem Laid.rowAnswers {R : Reliable c} {r : Run κ ρ} {s : ω} {bs : List Batch}
    (h : Laid R r s bs) (hrows : ∀ b ∈ bs, b.rows < 2 ^ 64)
    {ops : List Operation} (hops : ∀ op ∈ ops, op.Reads) :
    Run.rowAnswers (performAll c ops r s).1
      = schedule r.path (delivered (bs.map (readBack r.cursor.target)))
        (firstFault? (bs.map (readBack r.cursor.target))) (requests ops) := by
  obtain ⟨beyond, hawaiting⟩ := h.awaiting_all hrows
  exact (performAll_awaiting hops hawaiting).1

/-- **What was added is delivered, row by row and in order.**  However the requests for rows
are spread and whenever the writing is ended, they are answered with the rows of the batches
in the order in which these were added, each in the shape that was set, and then with none;
or, from the first batch on that cannot be had in that shape, with a fault. -/
theorem delivers_what_was_added (R : Reliable c) {codec : Codec} {path : Path} {s₀ s₁ s : ω}
    {r₀ r : Run κ ρ} {answers : List Answer} (hcreate : create c path codec s₀ = (.ok r₀, s₁))
    {early late : List Operation} (hearly : ∀ op ∈ early, op.Precedes)
    (hhistory : performAll c early r₀ s₁ = (answers, r, s)) (htaken : AllTaken early answers)
    (hrows : ∀ b ∈ offered early, b.rows < 2 ^ 64) (hlate : ∀ op ∈ late, op.Reads) :
    let outcomes := (offered early).map (readBack (schemaSet early answers none))
    rowAnswers (performAll c late r s).1
      = schedule path (delivered outcomes) (firstFault? outcomes) (requests late) := by
  obtain ⟨hlaid, hpath, -, htarget⟩ := known_of_history R hcreate hearly hhistory htaken
  have hanswers := hlaid.rowAnswers hrows hlate
  rw [hpath, htarget] at hanswers
  exact hanswers

/-! ### Two rows in a file -/

/-- A site without any file. -/
def blank : Site where
  files := ⟨[], [], 0⟩
  area := ⟨.standard, [], [], 0, 0, 0, 0, none⟩

/-- A batch of two rows. -/
def pair : Batch where
  schema := ⟨[⟨"x", .int .int32, false, .empty⟩], .empty⟩
  columns := [⟨.int .int32, [some 7, some 5]⟩]
  rows := 2

theorem writable_pair : Frame.Writable ⟨.none⟩ pair := by
  have hlength : (Stream.write .none pair).length ≤ Frame.greatestPayload := by decide +kernel
  exact ⟨⟨rfl, by decide, by decide⟩, hlength⟩

/-- A run in a new file takes a batch that can be written. -/
theorem taken_alone {b : Batch} (hw : Frame.Writable ⟨.none⟩ b) : ∃ r₀ s₁ answers r s,
    create Site.channel ⟨[97]⟩ ⟨.none⟩ blank = (.ok r₀, s₁) ∧
    performAll Site.channel [.add b, .finish] r₀ s₁ = (answers, r, s) ∧
    AllTaken [.add b, .finish] answers ∧ schemaSet [.add b, .finish] answers none = none ∧
    r.phase = .idle := by
  obtain ⟨r₀, s₁, hcreate⟩ : ∃ r₀ s₁, create Site.channel ⟨[97]⟩ ⟨.none⟩ blank = (.ok r₀, s₁) :=
    ⟨_, _, rfl⟩
  have hlaid : Laid Site.reliable r₀ s₁ [] := laid_create hcreate
  obtain ⟨hphase, htarget, hcodec⟩ := fresh_create hcreate
  have hadd := add_writable hlaid hphase htarget (hcodec.symm ▸ hw)
  have hidle := phase_finish (c := Site.channel) (s := (r₀.add Site.channel b s₁).2.2)
    ((phase_add (c := Site.channel) r₀ b s₁).trans hphase)
  refine ⟨r₀, s₁, _, _, _, hcreate, rfl, ?_, rfl, hidle⟩
  intro p hp b' hb
  rcases List.mem_cons.1 hp with rfl | hp
  · obtain rfl := Operation.add.inj hb
    exact congrArg Answer.done hadd
  · rcases List.mem_cons.1 hp with rfl | hp
    · exact nomatch hb
    · exact nomatch hp

theorem delivers_pair : ∃ r₀ s₁ answers r s,
    create Site.channel ⟨[97]⟩ ⟨.none⟩ blank = (.ok r₀, s₁) ∧
    performAll Site.channel [.add pair, .finish] r₀ s₁ = (answers, r, s) ∧
    rowAnswers (performAll Site.channel [.next, .finish, .next, .next] r s).1
      = [.ok (some (0, pair)), .ok (some (1, pair)), .ok none] := by
  obtain ⟨r₀, s₁, answers, r, s, hcreate, hhistory, htaken, hplain, -⟩ := taken_alone writable_pair
  have hanswers := delivers_what_was_added Site.reliable hcreate (by decide) hhistory htaken
    (by decide) (show ∀ op ∈ [.next, .finish, .next, .next], Operation.Reads op by decide)
  rw [hplain] at hanswers
  exact ⟨r₀, s₁, answers, r, s, hcreate, hhistory, hanswers⟩

/-! ### A batch with too many columns -/

/-- A batch of so many columns is taken and ends the delivery. -/
theorem broad_taken {n : Nat} (hleast : 500000 ≤ n) (hmost : n ≤ 1000000) :
    ∃ r₀ s₁ answers r s,
      create Site.channel ⟨[97]⟩ ⟨.none⟩ blank = (.ok r₀, s₁) ∧
      performAll Site.channel [.add (.broad n), .finish] r₀ s₁ = (answers, r, s) ∧
      AllTaken [.add (.broad n), .finish] answers ∧
      schemaSet [.add (.broad n), .finish] answers none = none ∧
      Site.reliable.stored ⟨[97]⟩ s (frames ⟨.none⟩ [.broad n]) ∧
      ∃ f, rowAnswers (performAll Site.channel [.next] r s).1 = [.error (.whileReading f)] := by
  obtain ⟨r₀, s₁, answers, r, s, hcreate, hhistory, htaken, hplain, hidle⟩ :=
    taken_alone (Frame.writable_broad ⟨.none⟩ hmost)
  have hearly : ∀ op ∈ [.add (.broad n), .finish], Operation.Precedes op :=
    List.forall_mem_cons.2 ⟨trivial, List.forall_mem_singleton.2 trivial⟩
  obtain ⟨hlaid, hpath, hcodec, htarget⟩ :=
    known_of_history Site.reliable hcreate hearly hhistory htaken
  have hstored := (holding_idle hidle).1 hlaid.holding
  have hanswers := hlaid.rowAnswers (List.forall_mem_singleton.2 (show 1 < 2 ^ 64 by decide))
    (show ∀ op ∈ [.next], Operation.Reads op by decide)
  have hread : readBack none (.broad n) = .error (.columnar .brokenTable) := by
    rw [readBack, Codec.reread_broad hleast]
    rfl
  rw [htarget, hplain, show offered [.add (.broad n), .finish] = [.broad n] from rfl,
    List.map_singleton, hread] at hanswers
  rw [hpath, hcodec] at hstored
  exact ⟨r₀, s₁, answers, r, s, hcreate, hhistory, htaken, hplain, hstored, _, hanswers⟩

end ExternalSort.Run
