/-
What a run holds before it is read.

Before the first request for a row a run holds the frames of the batches that it took, in
their order and with nothing between them; the number of batches that are pending is theirs,
and the husk shows no row.  That is `Laid`, and every operation but a request for a row and
closing keeps it, as long as no batch is refused.

The octets may then be cut anywhere, and others may follow them.  What loading comes to is
decided by the frames that are whole: each of them is what its batch is read back as, and
where one is cut, loading fails there.
-/
import ExternalSort.Proofs.Run.Delivery

namespace ExternalSort.Run

open Storage

/-! ### Histories before the reading -/

/-- Operations before the reading: anything but a request for a row and closing. -/
def Operation.Precedes : Operation → Prop
  | .next | .close => False
  | _ => True

instance : DecidablePred Operation.Precedes
  | .next | .close => isFalse id
  | .add _ | .finish | .setSchema _ | .advance _ | .release => isTrue trivial

/-- The batches that a history offers to a run. -/
def offered (ops : List Operation) : List Batch :=
  ops.filterMap fun
    | .add b => some b
    | _ => none

/-- Every batch that was offered was taken. -/
def AllTaken (ops : List Operation) (answers : List Answer) : Prop :=
  ∀ p ∈ ops.zip answers, ∀ b, p.1 = .add b → p.2 = .done (.ok ())

/-- Where nothing was offered nothing was refused. -/
theorem allTaken_of_offered_nil {ops : List Operation} (h : offered ops = [])
    (answers : List Answer) : AllTaken ops answers := by
  rintro ⟨op, answer⟩ hp b rfl
  have hmem : b ∈ offered ops := List.mem_filterMap.2 ⟨.add b, (List.of_mem_zip hp).1, rfl⟩
  rw [h] at hmem
  exact nomatch hmem

variable {ω κ ρ : Type} {c : Channel ω κ ρ} {R : Reliable c} {r : Run κ ρ} {s : ω}
  {bs : List Batch}

/-- The frames of batches, one behind the other. -/
def frames (codec : Codec) (bs : List Batch) : Bytes := (bs.map (Frame.ofBatch codec)).flatten

/-- A run that took certain batches and of which none was loaded yet. -/
structure Laid (R : Reliable c) (r : Run κ ρ) (s : ω) (bs : List Batch) : Prop where
  healthy : r.failed = none
  pending : r.pending = bs.length
  shows : r.count = 0
  writable : ∀ b ∈ bs, Frame.Writable r.codec b
  holding : Holding R r s (frames r.codec bs)

/-- What a run is as it was made. -/
theorem create_eq_ok {path : Path} {codec : Codec} {s₀ : ω}
    (h : create c path codec s₀ = (.ok r, s)) :
    ∃ sink, r = ⟨.ofBatch .shell, codec, path, 0, .writing sink, none⟩ ∧
      c.openOutput path s₀ = (.ok sink, s) := by
  unfold create at h
  split at h
  · exact nomatch (Prod.mk.inj h).1
  · rename_i sink s' hopen
    obtain ⟨hr, rfl⟩ := Prod.mk.inj h
    exact ⟨sink, (Except.ok.inj hr).symm, hopen⟩

/-- A new run is being written, without a target schema. -/
theorem fresh_create {path : Path} {codec : Codec} {s₀ : ω}
    (h : create c path codec s₀ = (.ok r, s)) :
    r.phase = .writing ∧ r.cursor.target = none ∧ r.codec = codec := by
  obtain ⟨sink, rfl, -⟩ := create_eq_ok h
  exact ⟨rfl, rfl, rfl⟩

theorem laid_create {path : Path} {codec : Codec} {s₀ : ω}
    (h : create c path codec s₀ = (.ok r, s)) : Laid R r s [] := by
  obtain ⟨sink, rfl, hopen⟩ := create_eq_ok h
  exact ⟨rfl, rfl, rfl, fun b hb => (nomatch hb), R.openOutput hopen⟩

theorem shows_shaped {b husk : Batch} (h : r.shaped b = .ok husk) : husk.rows = b.rows := by
  unfold shaped at h
  cases htarget : r.cursor.target with
  | none =>
    rw [htarget] at h
    obtain rfl := Except.ok.inj h
    rfl
  | some target =>
    rw [htarget] at h
    exact Batch.rows_coerce h

theorem frames_append (codec : Codec) (bs bs' : List Batch) :
    frames codec (bs ++ bs') = frames codec bs ++ frames codec bs' := by
  rw [frames, List.map_append, List.flatten_append]
  rfl

theorem frames_concat (codec : Codec) (bs : List Batch) (b : Batch) :
    frames codec (bs ++ [b]) = frames codec bs ++ Frame.ofBatch codec b := by
  rw [frames_append]
  exact congrArg (_ ++ ·) (List.append_nil _)

/-- A run that takes batches writes the frame of each that can be written, behind the
others. -/
theorem Laid.write (h : Laid R r s bs) {sink : κ} (hmedium : r.medium = .writing sink)
    (b : Batch) :
    (Frame.Writable r.codec b ∧ ∃ n sink' s',
        Frame.write r.codec c.sink b (sink, s) = (.ok n, sink', s') ∧
          R.writing r.path sink' s' (frames r.codec (bs ++ [b]))) ∨
      (¬Frame.Writable r.codec b ∧ ∃ f left,
        Frame.write r.codec c.sink b (sink, s) = (.error f, left)) := by
  have hholding := h.holding
  unfold Holding at hholding
  rw [hmedium] at hholding
  rcases Frame.write_takes (R.sink r.path) r.codec b (s := (sink, s)) hholding with
    ⟨hw, ⟨sink', s'⟩, hwrite, htaken⟩ | ⟨hnot, f, hwrite⟩
  · refine .inl ⟨hw, _, sink', s', hwrite, ?_⟩
    rw [frames_concat]
    exact htaken
  · exact .inr ⟨hnot, f, _, hwrite⟩

/-- A run takes every batch that can be written and whose husk can be reshaped. -/
theorem add_shaped (h : Laid R r s bs) (hphase : r.phase = .writing) {b husk : Batch}
    (hw : Frame.Writable r.codec b) (hhusk : r.shaped b.zeroed = .ok husk) :
    (r.add c b s).1 = .ok () := by
  have hexit := add_exit c r b s
  generalize r.add c b s = left at hexit ⊢
  cases hexit with
  | failed hfailed =>
    rw [h.healthy] at hfailed
    contradiction
  | phase _ hnot => exact absurd hphase hnot
  | unwritten _ hmedium hwrite =>
    rcases h.write hmedium b with ⟨-, n, _, _, hwrite', -⟩ | ⟨hnot, -⟩
    · rw [hwrite] at hwrite'
      cases (Prod.mk.inj hwrite').1
    · exact absurd hw hnot
  | unshaped _ _ _ hshape => exact nomatch hshape.symm.trans hhusk
  | taken _ _ _ _ => rfl

/-- Without a target schema a run takes every batch that can be written. -/
theorem add_writable (h : Laid R r s bs) (hphase : r.phase = .writing)
    (htarget : r.cursor.target = none) {b : Batch} (hw : Frame.Writable r.codec b) :
    (r.add c b s).1 = .ok () :=
  add_shaped h hphase hw (by rw [shaped, htarget]; rfl)

theorem phase_add (r : Run κ ρ) (b : Batch) (s : ω) : (r.add c b s).2.1.phase = r.phase := by
  have hexit := add_exit c r b s
  generalize r.add c b s = left at hexit ⊢
  cases hexit with
  | failed _ => rfl
  | phase _ _ => rfl
  | unwritten _ hmedium _ | unshaped _ hmedium _ _ | taken _ hmedium _ _ =>
    rw [phase, phase, hmedium]
    rfl

theorem phase_eq_writing_iff : r.phase = .writing ↔ ∃ sink, r.medium = .writing sink := by
  unfold phase
  constructor
  · intro h
    cases hmedium : r.medium with
    | writing sink => exact ⟨sink, rfl⟩
    | _ =>
      rw [hmedium] at h
      exact nomatch h
  · rintro ⟨sink, hmedium⟩
    rw [hmedium]
    rfl

/-- The writing, once ended, leaves a run idle. -/
theorem phase_finish (h : r.phase = .writing) : (r.finish c s).2.1.phase = .idle := by
  obtain ⟨sink, hmedium⟩ := phase_eq_writing_iff.1 h
  unfold finish
  rw [hmedium]
  rfl

/-- The frame that was written stands behind the others. -/
theorem written_frame (h : Laid R r s bs) {b : Batch} {sink sink' : κ} {s' : ω} {n : Nat}
    (hmedium : r.medium = .writing sink)
    (hwrite : Frame.write r.codec c.sink b (sink, s) = (.ok n, sink', s')) :
    (∀ x ∈ bs ++ [b], Frame.Writable r.codec x) ∧
      R.writing r.path sink' s' (frames r.codec (bs ++ [b])) := by
  rcases h.write hmedium b with ⟨hw, _, _, _, hwrite', hwriting⟩ | ⟨-, f, _, hwrite'⟩
  · rw [hwrite] at hwrite'
    obtain ⟨-, rfl, rfl⟩ : _ ∧ sink' = _ ∧ s' = _ := by
      simpa only [Prod.mk.injEq] using hwrite'
    refine ⟨?_, hwriting⟩
    intro x hx
    rcases List.mem_append.1 hx with hx | hx
    · exact h.writable x hx
    · exact List.mem_singleton.1 hx ▸ hw
  · rw [hwrite] at hwrite'
    exact nomatch (Prod.mk.inj hwrite').1

/-- A batch that counts as pending stands behind the others, whatever the answer was. -/
theorem laid_add (h : Laid R r s bs) {b : Batch}
    (hpending : (r.add c b s).2.1.pending = r.pending + 1) :
    Laid R (r.add c b s).2.1 (r.add c b s).2.2 (bs ++ [b]) := by
  have hlength : r.pending + 1 = (bs ++ [b]).length := by
    rw [List.length_append, h.pending]
    rfl
  have hexit := add_exit c r b s
  generalize r.add c b s = left at hexit hpending ⊢
  cases hexit with
  | failed _ | phase _ _ | unwritten _ _ _ =>
    exact absurd hpending (Nat.ne_of_lt (Nat.lt_succ_self _))
  | unshaped _ hmedium hwrite _ =>
    obtain ⟨hwritable, hwriting⟩ := written_frame h hmedium hwrite
    exact ⟨h.healthy, hlength, h.shows, hwritable, hwriting⟩
  | taken _ hmedium hwrite hhusk =>
    obtain ⟨hwritable, hwriting⟩ := written_frame h hmedium hwrite
    exact ⟨h.healthy, hlength, (shows_shaped hhusk).trans rfl, hwritable, hwriting⟩

theorem pending_add {b : Batch} (hok : (r.add c b s).1 = .ok ()) :
    (r.add c b s).2.1.pending = r.pending + 1 := by
  have hexit := add_exit c r b s
  generalize r.add c b s = left at hexit hok ⊢
  cases hexit with
  | taken _ _ _ _ => rfl
  | _ => exact nomatch hok

/-- A schema that is set is the target from then on, and what was taken stays. -/
theorem Laid.set (h : Laid R r s bs) {target : Schema} {r' : Run κ ρ}
    (hset : r.setSchema target = .ok r') : Laid R r' s bs ∧ r'.cursor.target = some target := by
  unfold setSchema at hset
  cases hcursor : r.cursor.setSchema target with
  | error f =>
    rw [hcursor] at hset
    cases hset
  | ok cursor =>
    obtain ⟨husk, hcoerce, rfl⟩ := Group.Cursor.setSchema_eq_ok hcursor
    rw [hcursor] at hset
    obtain rfl := Except.ok.inj hset
    exact ⟨⟨h.healthy, h.pending, (Batch.rows_coerce hcoerce).trans h.shows, h.writable,
      h.holding⟩, rfl⟩

/-- Operations before the reading leave what was taken, and put what they took behind it. -/
theorem laid_perform (h : Laid R r s bs) {op : Operation} (hop : op.Precedes)
    (htaken : ∀ b, op = .add b → (perform c r s op).1 = .done (.ok ())) :
    Laid R (perform c r s op).2.1 (perform c r s op).2.2 (bs ++ offered [op]) := by
  cases op with
  | add b => exact laid_add h (pending_add (Answer.done.inj (htaken b rfl)))
  | finish =>
    obtain ⟨n, medium, s', hfinish, hholding, -⟩ := finish_holding h.holding
    show Laid R (r.finish c s).2.1 (r.finish c s).2.2 (bs ++ [])
    rw [hfinish, List.append_nil]
    exact ⟨h.healthy, h.pending, h.shows, h.writable, hholding⟩
  | next => exact hop.elim
  | setSchema target =>
    show Laid R (perform c r s (.setSchema target)).2.1 (perform c r s (.setSchema target)).2.2
      (bs ++ [])
    rw [List.append_nil]
    rcases perform_setSchema (c := c) r s target with ⟨f, -, hset⟩ | ⟨husk, hcoerce, hset⟩ <;>
      rw [hset]
    · exact h
    · exact ⟨h.healthy, h.pending, (Batch.rows_coerce hcoerce).trans h.shows, h.writable, h.holding⟩
  | close => exact hop.elim
  | advance count =>
    show Laid R { r with cursor := (r.cursor.advance count).2 } s (bs ++ [])
    have hshows : (r.cursor.advance count).2.batch.rows = 0 := by
      rw [Group.Cursor.batch_advance]
      exact h.shows
    rw [List.append_nil]
    exact ⟨h.healthy, h.pending, hshows, h.writable, h.holding⟩
  | release =>
    show Laid R { r with cursor := r.cursor.release } s (bs ++ [])
    rw [List.append_nil]
    exact ⟨h.healthy, h.pending, rfl, h.writable, h.holding⟩

/-- **Before the reading a run holds what was offered to it**, if nothing was refused. -/
theorem laid_performAll {ops : List Operation} (hops : ∀ op ∈ ops, op.Precedes)
    (h : Laid R r s bs) (htaken : AllTaken ops (performAll c ops r s).1) :
    Laid R (performAll c ops r s).2.1 (performAll c ops r s).2.2 (bs ++ offered ops) := by
  induction ops generalizing r s bs with
  | nil => exact (List.append_nil bs).symm ▸ h
  | cons op ops ih =>
    obtain ⟨hop, hrest⟩ := List.forall_mem_cons.1 hops
    obtain ⟨hanswer, hanswers⟩ := List.forall_mem_cons.1 htaken
    have hstep := laid_perform h hop hanswer
    have hoffered : offered (op :: ops) = offered [op] ++ offered ops := by
      rw [offered, offered, offered, ← List.filterMap_append]
      rfl
    rw [hoffered, ← List.append_assoc]
    exact ih hrest hstep hanswers

/-! ### The target schema -/

/-- The schema that was set last. -/
def schemaSet : List Operation → List Answer → Option Schema → Option Schema
  | .setSchema target :: ops, .done (.ok _) :: answers, _ => schemaSet ops answers (some target)
  | _ :: ops, _ :: answers, target => schemaSet ops answers target
  | _, _, target => target

theorem schemaSet_cons (op : Operation) (answer : Answer) (ops : List Operation)
    (answers : List Answer) (target : Option Schema) :
    schemaSet (op :: ops) (answer :: answers) target
      = schemaSet ops answers (schemaSet [op] [answer] target) := by
  cases op with
  | setSchema target' =>
    cases answer with
    | done outcome => cases outcome <;> rfl
    | _ => rfl
  | _ => rfl

/-- A batch, taken or refused, leaves the target. -/
theorem target_add (r : Run κ ρ) (b : Batch) (s : ω) :
    (r.add c b s).2.1.cursor.target = r.cursor.target := by
  have hexit := add_exit c r b s
  generalize r.add c b s = left at hexit ⊢
  cases hexit <;> rfl

theorem target_perform (r : Run κ ρ) (s : ω) {op : Operation} (hop : op.Precedes) :
    (perform c r s op).2.1.cursor.target
      = schemaSet [op] [(perform c r s op).1] r.cursor.target := by
  cases op with
  | add b => exact target_add r b s
  | finish =>
    show (r.finish c s).2.1.cursor.target = r.cursor.target
    unfold finish
    split <;> rfl
  | next => exact hop.elim
  | setSchema target =>
    rcases perform_setSchema (c := c) r s target with ⟨f, -, hset⟩ | ⟨husk, -, hset⟩ <;>
      rw [hset] <;> simp only [schemaSet]
  | close => exact hop.elim
  | advance count =>
    show (r.cursor.advance count).2.target = r.cursor.target
    unfold Group.Cursor.advance
    split <;> rfl
  | release => rfl

/-- The target schema of a run is the one that was set last. -/
theorem target_performAll {ops : List Operation} (hops : ∀ op ∈ ops, op.Precedes)
    (r : Run κ ρ) (s : ω) :
    (performAll c ops r s).2.1.cursor.target
      = schemaSet ops (performAll c ops r s).1 r.cursor.target := by
  induction ops generalizing r s with
  | nil => rfl
  | cons op ops ih =>
    obtain ⟨hop, hrest⟩ := List.forall_mem_cons.1 hops
    have hlater := ih hrest (perform c r s op).2.1 (perform c r s op).2.2
    rw [target_perform r s hop] at hlater
    exact hlater.trans (schemaSet_cons op (perform c r s op).1 ops _ r.cursor.target).symm

/-- What is known of a run from its history, when that comes before the reading. -/
theorem known_of_history {path : Path} {codec : Codec} {s₀ s₁ s' : ω} {r₀ : Run κ ρ}
    {answers : List Answer} (R : Reliable c) (hcreate : create c path codec s₀ = (.ok r₀, s₁))
    {ops : List Operation} (hops : ∀ op ∈ ops, op.Precedes)
    (hhistory : performAll c ops r₀ s₁ = (answers, r, s')) (htaken : AllTaken ops answers) :
    Laid R r s' (offered ops) ∧ r.path = path ∧ r.codec = codec ∧
      r.cursor.target = schemaSet ops answers none := by
  have hlaid : Laid R (performAll c ops r₀ s₁).2.1 (performAll c ops r₀ s₁).2.2 (offered ops) :=
    laid_performAll hops (laid_create hcreate) (by rw [hhistory]; exact htaken)
  have hkept := kept_performAll (c := c) ops r₀ s₁
  have htarget := target_performAll (c := c) hops r₀ s₁
  obtain ⟨sink, hmade, -⟩ := create_eq_ok hcreate
  rw [hhistory] at hlaid hkept htarget
  subst hmade
  exact ⟨hlaid, hkept.path, hkept.codec, htarget⟩

/-! ### Frames that may be cut -/

/-- What a batch that was added is delivered as. -/
def readBack (target : Option Schema) (b : Batch) : Except Fault Batch :=
  (Codec.reread b).bind fun b => target.elim (.ok b) b.coerce

/-- How many frames lie wholly below a position. -/
def framesBelow (codec : Codec) : List Batch → Nat → Nat
  | [], _ => 0
  | b :: bs, m =>
    if (Frame.ofBatch codec b).length ≤ m then
      framesBelow codec bs (m - (Frame.ofBatch codec b).length) + 1
    else 0

theorem frames_cons (codec : Codec) (b : Batch) (bs : List Batch) :
    frames codec (b :: bs) = Frame.ofBatch codec b ++ frames codec bs := by
  rw [frames, List.map_cons, List.flatten_cons, frames]

theorem framesBelow_le (codec : Codec) (bs : List Batch) (m : Nat) :
    framesBelow codec bs m ≤ bs.length := by
  induction bs generalizing m with
  | nil => exact Nat.le_refl 0
  | cons b bs ih =>
    rw [framesBelow]
    split
    · exact Nat.succ_le_succ (ih _)
    · exact Nat.zero_le _

/-- The first frames lie below a position exactly if all their octets do. -/
theorem le_framesBelow (codec : Codec) {bs : List Batch} {n : Nat} (hn : n ≤ bs.length) (m : Nat) :
    n ≤ framesBelow codec bs m ↔ (frames codec (bs.take n)).length ≤ m := by
  induction bs generalizing n m with
  | nil =>
    obtain rfl := Nat.le_zero.1 hn
    exact iff_of_true (Nat.zero_le _) (Nat.zero_le _)
  | cons b bs ih =>
    cases n with
    | zero => exact iff_of_true (Nat.zero_le _) (Nat.zero_le _)
    | succ n =>
      rw [List.take_succ_cons, frames_cons, List.length_append, framesBelow]
      by_cases hwhole : (Frame.ofBatch codec b).length ≤ m
      · rw [if_pos hwhole, Nat.add_le_add_iff_right, ih (Nat.le_of_succ_le_succ hn)]
        omega
      · rw [if_neg hwhole]
        omega

/-- All frames lie below a position exactly if all their octets do. -/
theorem framesBelow_eq_length (codec : Codec) (bs : List Batch) (m : Nat) :
    framesBelow codec bs m = bs.length ↔ (frames codec bs).length ≤ m := by
  have hall := le_framesBelow codec (Nat.le_refl bs.length) m
  rw [List.take_length] at hall
  have hle := framesBelow_le codec bs m
  rw [← hall]
  omega

theorem loadOne_whole {codec : Codec} {b : Batch} (hrows : b.rows < 2 ^ 64)
    (hw : Frame.Writable codec b) (target : Option Schema) (rest : Bytes) :
    loadOne codec target (Frame.ofBatch codec b ++ rest) = (readBack target b, rest) := by
  unfold loadOne readBack
  rw [Frame.take_ofBatch hrows hw]
  cases Codec.reread b with
  | error f => rfl
  | ok b => rfl

theorem loadOne_cut {codec : Codec} {b : Batch} (hw : Frame.Writable codec b) {m : Nat}
    (hcut : m < (Frame.ofBatch codec b).length) (target : Option Schema) (more : Bytes) :
    ∃ f rest, loadOne codec target ((Frame.ofBatch codec b ++ more).take m)
      = (.error (.io f), rest) := by
  rw [List.take_append_of_le_length (Nat.le_of_lt hcut)]
  obtain ⟨f, rest, htake⟩ := Frame.take_part codec hw.length (List.take_prefix m _)
    (by rw [List.length_take]; exact Nat.lt_of_le_of_lt (Nat.min_le_left ..) hcut)
  refine ⟨f, rest, ?_⟩
  unfold loadOne Frame.ofBatch
  rw [htake]

/-- What loading batches comes to where only the first `whole` of their frames are whole. -/
def outcomes (target : Option Schema) (bs : List Batch) (whole : Nat) (f : Fault.IoFault) :
    List (Except Fault Batch) :=
  (bs.take whole).map (readBack target) ++ if whole < bs.length then [.error (.io f)] else []

theorem outcomes_succ (target : Option Schema) (b : Batch) (bs : List Batch) (whole : Nat)
    (f : Fault.IoFault) :
    outcomes target (b :: bs) (whole + 1) f = readBack target b :: outcomes target bs whole f := by
  simp only [outcomes, List.take_succ_cons, List.map_cons, List.cons_append, List.length_cons,
    Nat.add_lt_add_iff_right]

/-- **Whole frames are what their batches are read back as, and a frame that was cut is no
frame.**  Nothing behind the last frame is touched. -/
theorem loads_frames {codec : Codec} {bs : List Batch} (hrows : ∀ b ∈ bs, b.rows < 2 ^ 64)
    (hw : ∀ b ∈ bs, Frame.Writable codec b)
    (target : Option Schema) (more : Bytes) (m : Nat) :
    let loaded := loads codec target bs.length ((frames codec bs ++ more).take m)
    ∃ f, delivered loaded.1 = delivered (outcomes target bs (framesBelow codec bs m) f) ∧
      firstFault? loaded.1 = firstFault? (outcomes target bs (framesBelow codec bs m) f) ∧
      (firstFault? loaded.1 = none → loaded.2 = more.take (m - (frames codec bs).length)) := by
  induction bs generalizing m with
  | nil => exact ⟨.shortRead, rfl, rfl, fun _ => rfl⟩
  | cons b bs ih =>
    rw [frames_cons, List.append_assoc, List.length_cons, framesBelow, loads]
    by_cases hwhole : (Frame.ofBatch codec b).length ≤ m
    · obtain ⟨f, hdelivered, hfault, hrest⟩ := ih (fun b hb => hrows b (List.mem_cons_of_mem _ hb))
        (fun b hb => hw b (List.mem_cons_of_mem _ hb)) (m - (Frame.ofBatch codec b).length)
      refine ⟨f, ?_⟩
      rw [if_pos hwhole, outcomes_succ, List.take_append, List.take_of_length_le hwhole,
        loadOne_whole (hrows b (List.mem_cons_self ..)) (hw b (List.mem_cons_self ..))]
      cases readBack target b with
      | error f => exact ⟨rfl, rfl, fun h => absurd h (Option.some_ne_none _)⟩
      | ok b' =>
        refine ⟨congrArg (rowsOf b' ++ ·) hdelivered, hfault, ?_⟩
        intro h
        rw [List.length_append, ← Nat.sub_sub]
        exact hrest h
    · obtain ⟨f, rest, hone⟩ := loadOne_cut (hw b (List.mem_cons_self ..)) (Nat.lt_of_not_le hwhole)
        target (frames codec bs ++ more)
      refine ⟨f, ?_⟩
      rw [if_neg hwhole, hone]
      exact ⟨rfl, rfl, fun h => absurd h (Option.some_ne_none _)⟩

/-- What a run that took certain batches has due, where its octets stand as they were written
or were cut. -/
theorem Laid.awaiting (h : Laid R r s bs) (hrows : ∀ b ∈ bs, b.rows < 2 ^ 64) {more : Bytes}
    {m : Nat} {s' : ω}
    (hcut : Holding R r s' ((frames r.codec bs ++ more).take m)) :
    ∃ f beyond, Awaiting R r s'
        (delivered (outcomes r.cursor.target bs (framesBelow r.codec bs m) f))
        (firstFault? (outcomes r.cursor.target bs (framesBelow r.codec bs m) f)) beyond ∧
      (firstFault? (outcomes r.cursor.target bs (framesBelow r.codec bs m) f) = none →
        beyond = more.take (m - (frames r.codec bs).length)) := by
  obtain ⟨f, hdelivered, hfault, hrest⟩ := loads_frames hrows h.writable r.cursor.target more m
  refine ⟨f, _, ⟨h.healthy, _, hcut, ?_, ?_, rfl⟩, ?_⟩
  · have hnone : r.cursor.batch.rows = 0 := h.shows
    rw [h.pending, hdelivered, remaining_nil (by omega), List.nil_append]
  · rw [h.pending, hfault]
  · rw [h.pending, ← hfault]
    exact hrest

end ExternalSort.Run
