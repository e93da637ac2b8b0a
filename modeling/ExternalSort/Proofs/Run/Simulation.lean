/-
Runs on two channels.

A run knows its channel only by calls, and makes them in a fixed order: octets go to the
sink, which is closed; the file is opened, read and closed again; at last it is removed.  If
two channels come to the same in each of these calls, and stay related by it, then a run
answers alike on both.  What is needed of the channels is said once, in `Simulation`; that
nothing a run does leads out of the relation is proved here for every operation.

The two runs may work on different files.  Their answers differ then in the name of the
file, where a message gives it, and in nothing else.
-/
import ExternalSort.Proofs.Frame.Passing
import ExternalSort.Proofs.Run.History

namespace ExternalSort

namespace Fault

/-- A failure without the name of the file. -/
def unnamed : Fault → Fault
  | .storage (.afterFailure stage _) => .storage (.afterFailure stage ⟨[]⟩)
  | .operation (.addAfterFailure stage _) => .operation (.addAfterFailure stage ⟨[]⟩)
  | .dataRead heading cause => .dataRead heading cause.unnamed
  | f => f

end Fault

namespace Run

open Storage

/-- An answer without the name of the file. -/
def Answer.unnamed : Answer → Answer
  | .done outcome => .done (outcome.mapError Fault.unnamed)
  | .count outcome => .count (outcome.mapError Fault.unnamed)
  | .row outcome => .row (outcome.mapError Fault.unnamed)
  | answer => answer

/-- The same answer, but for the file that it names. -/
inductive Likewise (p p' : Path) : Answer → Answer → Prop where
  | same {answer : Answer} : Likewise p p' answer answer
  | add {stage : Stage} : Likewise p p' (.done (.error (.operation (.addAfterFailure stage p))))
      (.done (.error (.operation (.addAfterFailure stage p'))))
  | next {stage : Stage} :
      Likewise p p' (.row (.error (.whileReading (.storage (.afterFailure stage p)))))
        (.row (.error (.whileReading (.storage (.afterFailure stage p')))))

theorem Likewise.eq {p : Path} {answer answer' : Answer} (h : Likewise p p answer answer') :
    answer = answer' := by
  cases h <;> rfl

theorem Likewise.unnamed {p p' : Path} {answer answer' : Answer}
    (h : Likewise p p' answer answer') : answer.unnamed = answer'.unnamed := by
  cases h <;> rfl

variable {ω ω' κ κ' ρ ρ' : Type}

/-- Both were refused alike, or both were opened. -/
inductive Opened {α β : Type} (left : α → β → Prop) (opened : ρ × α → ρ' × β → Prop) :
    Except Fault ρ × α → Except Fault ρ' × β → Prop where
  | refused {f : Fault} {s : α} {s' : β} : left s s' → Opened left opened (.error f, s) (.error f, s')
  | opened {x : ρ × α} {y : ρ' × β} : opened x y → Opened left opened (.ok x.1, x.2) (.ok y.1, y.2)

/-- Two channels that come to the same in everything that a run asks of them, for a run in a
file of the first and a run in a file of the second.  `ending` relates the states once the
streams are closed and the file is about to go. -/
structure Simulation (c : Channel ω κ ρ) (d : Channel ω' κ' ρ') (p p' : Path) where
  writing : κ × ω → κ' × ω' → Prop
  idle : ω → ω' → Prop
  reading : ρ × ω → ρ' × ω' → Prop
  ending : ω → ω' → Prop
  closed : ω → ω' → Prop
  sink : c.sink.Agrees d.sink writing
  written : ∀ {x y}, writing x y → c.written x.1 = d.written y.1
  closeSink : ∀ {x y}, writing x y → Same idle (retireSink c x.1 x.2) (retireSink d y.1 y.2)
  openInput : ∀ {s s'}, idle s s' → Opened idle reading (c.openInput p s) (d.openInput p' s')
  source : c.source.Agrees d.source reading
  closeSource : ∀ {x y}, reading x y →
    Same ending (retireSource c x.1 x.2) (retireSource d y.1 y.2)
  ending_of_idle : ∀ {s s'}, idle s s' → ending s s'
  delete : ∀ {s s'}, ending s s' → Same closed (c.delete p s) (d.delete p' s')

variable {c : Channel ω κ ρ} {d : Channel ω' κ' ρ'} {p p' : Path}

/-- The same stream is open on both channels, in related states. -/
inductive Media (S : Simulation c d p p') : Medium κ ρ × ω → Medium κ' ρ' × ω' → Prop where
  | writing {x y} : S.writing x y → Media S (.writing x.1, x.2) (.writing y.1, y.2)
  | idle {s s'} : S.idle s s' → Media S (.idle, s) (.idle, s')
  | reading {x y} : S.reading x y → Media S (.reading x.1, x.2) (.reading y.1, y.2)
  | closed {s s'} : S.closed s s' → Media S (.closed, s) (.closed, s')

/-- Runs in the two files that agree in everything but their streams. -/
inductive Twins (S : Simulation c d p p') : Run κ ρ × ω → Run κ' ρ' × ω' → Prop where
  | intro {cursor codec pending failed medium medium' s s'} : Media S (medium, s) (medium', s') →
      Twins S (⟨cursor, codec, p, pending, medium, failed⟩, s)
        (⟨cursor, codec, p', pending, medium', failed⟩, s')

/-- Such runs with their sources open. -/
inductive Ready (S : Simulation c d p p') : ρ × Run κ ρ × ω → ρ' × Run κ' ρ' × ω' → Prop where
  | intro {cursor codec pending failed} {x : ρ × ω} {y : ρ' × ω'} : S.reading x y →
      Ready S (x.1, ⟨cursor, codec, p, pending, .reading x.1, failed⟩, x.2)
        (y.1, ⟨cursor, codec, p', pending, .reading y.1, failed⟩, y.2)

variable {S : Simulation c d p p'} {r : Run κ ρ} {r' : Run κ' ρ'} {s : ω} {s' : ω'}

namespace Twins

theorem cursor (h : Twins S (r, s) (r', s')) : r.cursor = r'.cursor := by
  cases h
  rfl

theorem pending (h : Twins S (r, s) (r', s')) : r.pending = r'.pending := by
  cases h
  rfl

theorem failed (h : Twins S (r, s) (r', s')) : r.failed = r'.failed := by
  cases h
  rfl

theorem phase (h : Twins S (r, s) (r', s')) : r.phase = r'.phase := by
  obtain ⟨hmedia⟩ := h
  cases hmedia <;> rfl

/-- What happens to the cursor and the flag alike leaves runs alike. -/
theorem with_cursor (h : Twins S (r, s) (r', s')) (cursor : Group.Cursor) :
    Twins S ({ r with cursor }, s) ({ r' with cursor }, s') := by
  obtain ⟨hmedia⟩ := h
  exact ⟨hmedia⟩

theorem with_failed (h : Twins S (r, s) (r', s')) (failed : Option Stage) :
    Twins S ({ r with failed }, s) ({ r' with failed }, s') := by
  obtain ⟨hmedia⟩ := h
  exact ⟨hmedia⟩

theorem hollow (h : Twins S (r, s) (r', s')) : Twins S (r.hollow, s) (r'.hollow, s') := by
  obtain ⟨hmedia⟩ := h
  exact ⟨hmedia⟩

/-! ### Writing -/

theorem add (h : Twins S (r, s) (r', s')) (b : Batch) :
    Likewise p p' (.done (r.add c b s).1) (.done (r'.add d b s').1) ∧
      Twins S (r.add c b s).2 (r'.add d b s').2 := by
  obtain @⟨cursor, codec, pending, failed, medium, medium', s, s', hmedia⟩ := h
  cases failed with
  | some stage => exact ⟨.add, ⟨hmedia⟩⟩
  | none =>
    cases hmedia with
    | idle hidle => exact ⟨.same, ⟨.idle hidle⟩⟩
    | reading hreading => exact ⟨.same, ⟨.reading hreading⟩⟩
    | closed hclosed => exact ⟨.same, ⟨.closed hclosed⟩⟩
    | @writing x y hwriting =>
      obtain ⟨houtcome, hleft⟩ := Frame.write_agrees S.sink codec b hwriting
      simp only [Run.add]
      generalize Frame.write codec c.sink b x = step at houtcome hleft ⊢
      generalize Frame.write codec d.sink b y = step' at houtcome hleft ⊢
      obtain ⟨outcome, k, t⟩ := step
      obtain ⟨_, k', t'⟩ := step'
      obtain rfl : outcome = _ := houtcome
      cases outcome with
      | error f => exact ⟨.same, ⟨.writing hleft⟩⟩
      | ok n =>
        simp only [shaped]
        cases cursor.target.elim (.ok b.zeroed) b.zeroed.coerce with
        | error f => exact ⟨.same, ⟨.writing hleft⟩⟩
        | ok husk => exact ⟨.same, ⟨.writing hleft⟩⟩

theorem finish (h : Twins S (r, s) (r', s')) : Same (Twins S) (r.finish c s) (r'.finish d s') := by
  obtain ⟨hmedia⟩ := h
  cases hmedia with
  | idle hidle => exact ⟨rfl, ⟨.idle hidle⟩⟩
  | reading hreading => exact ⟨rfl, ⟨.reading hreading⟩⟩
  | closed hclosed => exact ⟨rfl, ⟨.closed hclosed⟩⟩
  | writing hwriting =>
    obtain ⟨houtcome, hleft⟩ := S.closeSink hwriting
    refine ⟨?_, ⟨.idle hleft⟩⟩
    simp only [Run.finish, houtcome, S.written hwriting]

/-! ### Reading -/

theorem prepare (h : Twins S (r, s) (r', s')) :
    Opened (Twins S) (Ready S) (r.prepare c s) (r'.prepare d s') := by
  obtain ⟨houtcome, hleft⟩ := h.finish
  unfold Run.prepare
  generalize r.finish c s = step at houtcome hleft ⊢
  generalize r'.finish d s' = step' at houtcome hleft ⊢
  obtain ⟨outcome, r, s⟩ := step
  obtain ⟨_, r', s'⟩ := step'
  obtain rfl : outcome = _ := houtcome
  cases outcome with
  | error f => exact .refused hleft
  | ok n =>
    obtain ⟨hmedia⟩ := hleft
    cases hmedia with
    | writing hwriting => exact .refused ⟨.writing hwriting⟩
    | closed hclosed => exact .refused ⟨.closed hclosed⟩
    | @reading x y hreading =>
      exact .opened (x := (x.1, _, x.2)) (y := (y.1, _, y.2)) (.intro hreading)
    | @idle s s' hidle =>
      have hopen := S.openInput hidle
      simp only
      generalize c.openInput p s = step at hopen ⊢
      generalize d.openInput p' s' = step' at hopen ⊢
      cases hopen with
      | refused hleft => exact .refused ⟨.idle hleft⟩
      | @opened x y hreading =>
        exact .opened (x := (x.1, _, x.2)) (y := (y.1, _, y.2)) (.intro hreading)

theorem receive (h : Twins S (r, s) (r', s')) (b : Batch) :
    (∃ f, r.receive b = .error f ∧ r'.receive b = .error f) ∨
      ∃ q q', r.receive b = .ok q ∧ r'.receive b = .ok q' ∧ Twins S (q, s) (q', s') := by
  obtain @⟨cursor, codec, pending, failed, medium, medium', s, s', hmedia⟩ := h
  simp only [Run.receive, shaped]
  cases cursor.target.elim (.ok b) b.coerce with
  | error f => exact .inl ⟨f, rfl, rfl⟩
  | ok b =>
    simp only
    generalize Batch.transfer _ _ = moved
    cases moved with
    | error f => exact .inl ⟨f, rfl, rfl⟩
    | ok filled => exact .inr ⟨_, _, rfl, rfl, ⟨hmedia⟩⟩

theorem load (h : Twins S (r, s) (r', s')) : Same (Twins S) (r.load c s) (r'.load d s') := by
  have hprepare := h.hollow.prepare
  unfold Run.load
  generalize r.hollow.prepare c s = step at hprepare ⊢
  generalize r'.hollow.prepare d s' = step' at hprepare ⊢
  cases hprepare with
  | refused hleft => exact ⟨rfl, hleft⟩
  | opened hready =>
    obtain @⟨cursor, codec, pending, failed, x, y, hreading⟩ := hready
    obtain ⟨houtcome, hleft⟩ := Frame.read_agrees S.source codec hreading
    simp only
    generalize Frame.read codec c.source x = step at houtcome hleft ⊢
    generalize Frame.read codec d.source y = step' at houtcome hleft ⊢
    obtain ⟨outcome, source, t⟩ := step
    obtain ⟨_, source', t'⟩ := step'
    obtain rfl : outcome = _ := houtcome
    cases outcome with
    | error f => exact ⟨rfl, ⟨.reading hleft⟩⟩
    | ok b =>
      have htwins : Twins S (⟨cursor, codec, p, pending, .reading source, failed⟩, t)
          (⟨cursor, codec, p', pending, .reading source', failed⟩, t') := ⟨.reading hleft⟩
      rcases htwins.receive b with ⟨f, hr, hr'⟩ | ⟨q, q', hr, hr', hq⟩
      · simp only [hr, hr']
        exact ⟨rfl, htwins⟩
      · simp only [hr, hr']
        exact ⟨rfl, hq⟩

theorem loadRow (n : Nat) (h : Twins S (r, s) (r', s')) :
    Same (Twins S) (Run.loadRow c n r s) (Run.loadRow d n r' s') := by
  induction n generalizing r r' s s' with
  | zero => exact ⟨rfl, h⟩
  | succ n ih =>
    obtain ⟨houtcome, hleft⟩ := h.load
    unfold Run.loadRow
    generalize r.load c s = step at houtcome hleft ⊢
    generalize r'.load d s' = step' at houtcome hleft ⊢
    obtain ⟨outcome, q, t⟩ := step
    obtain ⟨_, q', t'⟩ := step'
    obtain rfl : outcome = _ := houtcome
    cases outcome with
    | error f => exact ⟨rfl, hleft.hollow.with_failed (some .read)⟩
    | ok _ =>
      have hcount : q'.count = q.count := by rw [count, count, hleft.cursor]
      simp only [hcount]
      split
      · have hfirst := hleft.with_cursor { q.cursor with pointer := 1 }
        refine ⟨rfl, ?_⟩
        rw [hleft.cursor] at hfirst ⊢
        exact hfirst
      · exact ih hleft

theorem next (h : Twins S (r, s) (r', s')) :
    Likewise p p' (.row (r.nextRow c s).1) (.row (r'.nextRow d s').1) ∧
      Twins S (r.nextRow c s).2 (r'.nextRow d s').2 := by
  have hclosed : r'.isClosed = r.isClosed := by rw [isClosed, isClosed, h.phase]
  unfold nextRow Run.next
  by_cases hr : r.isClosed
  · simp only [hclosed, if_pos hr]
    exact ⟨.same, h⟩
  · simp only [hclosed, if_neg hr, ← h.failed]
    cases hfailed : r.failed with
    | some stage =>
      obtain ⟨hmedia⟩ := h
      exact ⟨.next, ⟨hmedia⟩⟩
    | none =>
      have hcount : r'.count = r.count := by rw [count, count, h.cursor]
      simp only [hcount, ← h.cursor, ← h.pending]
      by_cases hrows : r.cursor.pointer < r.count
      · simp only [if_pos hrows]
        obtain ⟨hmedia⟩ := h
        exact ⟨.same, ⟨hmedia⟩⟩
      · obtain ⟨houtcome, hleft⟩ := h.loadRow r.pending
        simp only [if_neg hrows, ← houtcome, ← hleft.cursor]
        exact ⟨.same, hleft⟩

/-! ### Closing -/

theorem retire (h : Twins S (r, s) (r', s')) (hopen : r.phase ≠ .closed) :
    Same S.ending (Run.retire c r.medium s) (Run.retire d r'.medium s') := by
  obtain ⟨hmedia⟩ := h
  cases hmedia with
  | closed _ => exact absurd rfl hopen
  | idle hidle => exact ⟨rfl, S.ending_of_idle hidle⟩
  | writing hwriting =>
    obtain ⟨houtcome, hleft⟩ := S.closeSink hwriting
    exact ⟨by simp only [Run.retire, houtcome], S.ending_of_idle hleft⟩
  | reading hreading =>
    obtain ⟨houtcome, hleft⟩ := S.closeSource hreading
    exact ⟨by simp only [Run.retire, houtcome], hleft⟩

theorem close (h : Twins S (r, s) (r', s')) : Same (Twins S) (r.close c s) (r'.close d s') := by
  have hclosed : r'.isClosed = r.isClosed := by rw [isClosed, isClosed, h.phase]
  unfold Run.close
  rw [hclosed]
  split
  · exact ⟨rfl, h⟩
  · rename_i hnot
    obtain ⟨hfirst, hending⟩ := h.retire (by simpa [isClosed] using hnot)
    obtain ⟨hdelete, hleft⟩ := S.delete hending
    obtain ⟨hmedia⟩ := h
    exact ⟨by simp only [hfirst, hdelete], ⟨.closed hleft⟩⟩

/-! ### Histories -/

/-- **Runs that are alike answer alike, and stay alike.** -/
theorem perform (h : Twins S (r, s) (r', s')) (op : Operation) :
    Likewise p p' (Run.perform c r s op).1 (Run.perform d r' s' op).1 ∧
      Twins S (Run.perform c r s op).2 (Run.perform d r' s' op).2 := by
  cases op with
  | add b => exact h.add b
  | next => exact h.next
  | finish =>
    obtain ⟨houtcome, hleft⟩ := h.finish
    simp only [Run.perform, houtcome]
    exact ⟨.same, hleft⟩
  | close =>
    obtain ⟨houtcome, hleft⟩ := h.close
    simp only [Run.perform, houtcome]
    exact ⟨.same, hleft⟩
  | setSchema target =>
    obtain @⟨cursor, codec, pending, failed, medium, medium', s, s', hmedia⟩ := h
    simp only [Run.perform, setSchema]
    cases cursor.setSchema target with
    | error f => exact ⟨.same, ⟨hmedia⟩⟩
    | ok cursor => exact ⟨.same, ⟨hmedia⟩⟩
  | advance count =>
    have hcursor := h.with_cursor (r.cursor.advance count).2
    simp only [Run.perform, ← h.cursor]
    exact ⟨.same, hcursor⟩
  | release =>
    have hcursor := h.with_cursor r.cursor.release
    simp only [Run.perform, ← h.cursor]
    exact ⟨.same, hcursor⟩

end Twins
end Run
end ExternalSort
