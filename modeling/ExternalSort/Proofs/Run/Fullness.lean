/-
A disk that is full at any octet.

A run writes its frames one behind the other into a sink that has room for so many octets.
Two numbers decide everything: how many octets the frames of the batches have so far, and how
many there is room for.  While all of them fit the run takes batches.  The first frame that
does not fit is written up to where the room ends, be that within its length, within its
payload or before its first octet; the run says why, and it is failed from then on, so that
nothing is written for any batch behind it.

So the octets that the sink took are the first of all the frames, as many as there is room
for.  The run counts the frames that are whole among them, and the channel is told the number
of the octets.
-/
import ExternalSort.Proofs.Run.Accounts
import ExternalSort.Proofs.Storage.Narrow

namespace ExternalSort.Run

open Storage

variable {ω κ ρ : Type} {c : Channel ω κ ρ} {room : Nat} {full : Fault.IoFault} {path : Path}
  {codec : Codec} {bs : List Batch} {b : Batch}

/-! ### Whole frames -/

/-- One frame more lies below a position, or as many as before. -/
theorem framesBelow_concat (codec : Codec) (bs : List Batch) (b : Batch) (m : Nat) :
    framesBelow codec (bs ++ [b]) m
      = if (frames codec (bs ++ [b])).length ≤ m then bs.length + 1
        else framesBelow codec bs m := by
  induction bs generalizing m with
  | nil =>
    have hnone : (frames codec []).length = 0 := rfl
    rw [List.nil_append, frames_cons, List.length_append, hnone, Nat.add_zero]
    rfl
  | cons a bs ih =>
    rw [List.cons_append, framesBelow, framesBelow, frames_cons, List.length_append, ih,
      List.length_cons]
    by_cases hwhole : (Frame.ofBatch codec a).length ≤ m
    · rw [if_pos hwhole, if_pos hwhole]
      by_cases hall : (frames codec (bs ++ [b])).length ≤ m - (Frame.ofBatch codec a).length
      · rw [if_pos hall, if_pos (by omega)]
      · rw [if_neg hall, if_neg (by omega)]
    · rw [if_neg hwhole, if_neg hwhole, if_neg (by omega)]

/-- Of the first frames those lie below a position that do so of all frames. -/
theorem framesBelow_take (codec : Codec) {n : Nat} (hn : n ≤ bs.length) (m : Nat) :
    framesBelow codec (bs.take n) m = min n (framesBelow codec bs m) := by
  induction bs generalizing n m with
  | nil =>
    obtain rfl := Nat.le_zero.1 hn
    rfl
  | cons b bs ih =>
    cases n with
    | zero => rw [List.take_zero, Nat.zero_min, framesBelow]
    | succ n =>
      rw [List.take_succ_cons, framesBelow, framesBelow, ih (Nat.le_of_succ_le_succ hn)]
      split <;> omega

/-! ### One batch more -/

/-- What a run says to a batch behind others, where there is room for so many octets. -/
def roomAnswer (path : Path) (codec : Codec) (room : Nat) (full : Fault.IoFault)
    (bs : List Batch) (b : Batch) : Except Fault Unit :=
  if (frames codec (bs ++ [b])).length ≤ room then .ok ()
  else if (frames codec bs).length ≤ room then .error (.io full)
  else .error (.operation (.addAfterFailure .write path))

/-- A run to which batches were added, whose sink has room for so many octets: what it is, and
what all the events so far say. -/
structure Filling (N : Narrow c room full) (path : Path) (codec : Codec) (bs : List Batch)
    (r : Run κ ρ) (s : ω) (es : List Event) : Prop where
  path : r.path = path
  form : r.codec = codec
  target : r.cursor.target = none
  medium : ∃ k, r.medium = .writing k ∧ N.writing k s (taken es)
  taken : taken es = (frames codec bs).take room
  untallied : talliesWritten es = []
  pending : r.pending = framesBelow codec bs room
  failed : r.failed = if (frames codec bs).length ≤ room then none else some .write

section Step

variable {N : Narrow c room full} {r : Run κ ρ} {s : ω} {es : List Event}

/-- While there is room, a frame is written as far as there is room for it. -/
theorem Filling.write (h : Filling N path codec bs r s es)
    (hroom : (frames codec bs).length ≤ room) (hw : Frame.Writable codec b) :
    ∃ k n k' x, r.medium = .writing k ∧
      Frame.write r.codec (Watched.channel c).sink b (k, ⟨s, []⟩)
        = (if (frames codec (bs ++ [b])).length ≤ room then .ok n else .error (.io full), k', x) ∧
      N.writing k' x.inner (Storage.taken (es ++ x.events)) ∧
      Storage.taken (es ++ x.events) = (frames codec (bs ++ [b])).take room ∧
      talliesWritten (es ++ x.events) = [] := by
  obtain ⟨k, hmedium, hwriting⟩ := h.medium
  have hprior : Storage.taken es = frames codec bs := by
    rw [h.taken, List.take_of_length_le hroom]
  obtain ⟨⟨k', x⟩, hwrite, hleft, htaken, htallies⟩ :=
    Frame.write_fills (N.fills_watched (Storage.taken es)) hw (s := (k, ⟨s, []⟩))
      ⟨hwriting, List.append_nil _, rfl⟩
  rw [← taken_append] at htaken
  rw [hprior, ← frames_concat] at hwrite hleft htaken
  refine ⟨k, (Frame.ofBatch codec b).length, k', x, hmedium, ?_, ?_, htaken, ?_⟩
  · rw [h.form]
    exact hwrite
  · rw [htaken]
    exact hleft
  · rw [talliesWritten_append, h.untallied, htallies]
    rfl

/-- **A batch is added as far as there is room for its frame.** -/
theorem Filling.add (h : Filling N path codec bs r s es) (hw : Frame.Writable codec b) :
    ∃ r' x, r.add (Watched.channel c) b ⟨s, []⟩ = (roomAnswer path codec room full bs b, r', x) ∧
      Filling N path codec (bs ++ [b]) r' x.inner (es ++ x.events) ∧
      (room < (frames codec bs).length → x.events = []) := by
  have hlonger : (frames codec bs).length ≤ (frames codec (bs ++ [b])).length := by
    rw [frames_concat, List.length_append]
    exact Nat.le_add_right ..
  have hfailed := h.failed
  rw [roomAnswer]
  by_cases hroom : (frames codec bs).length ≤ room
  · obtain ⟨k, n, k', x, hmedium, hwrite, hwriting, htaken, htallies⟩ := h.write hroom hw
    rw [if_pos hroom] at hfailed ⊢
    by_cases hfits : (frames codec (bs ++ [b])).length ≤ room
    · rw [if_pos hfits] at hwrite ⊢
      refine ⟨{ r with medium := .writing k', pending := r.pending + 1,
                       cursor := r.cursor.replace b.zeroed }, x, ?_, ?_,
        fun hover => absurd hroom (Nat.not_le.2 hover)⟩
      · simp only [Run.add, hfailed, hmedium, hwrite, shaped, h.target]
        rfl
      · refine ⟨h.path, h.form, h.target, ⟨k', rfl, hwriting⟩, htaken, htallies, ?_, ?_⟩
        · rw [framesBelow_concat, if_pos hfits, h.pending, (framesBelow_eq_length ..).2 hroom]
        · rw [if_pos hfits]
          exact hfailed
    · rw [if_neg hfits] at hwrite ⊢
      refine ⟨{ r with medium := .writing k', failed := some .write }, x, ?_, ?_,
        fun hover => absurd hroom (Nat.not_le.2 hover)⟩
      · simp only [Run.add, hfailed, hmedium, hwrite]
      · refine ⟨h.path, h.form, h.target, ⟨k', rfl, hwriting⟩, htaken, htallies, ?_, ?_⟩
        · rw [framesBelow_concat, if_neg hfits]
          exact h.pending
        · rw [if_neg hfits]
  · rw [if_neg hroom] at hfailed ⊢
    have hover : ¬(frames codec (bs ++ [b])).length ≤ room := by omega
    rw [if_neg hover]
    refine ⟨r, ⟨s, []⟩, ?_, ?_, fun _ => rfl⟩
    · simp only [Run.add, hfailed, h.path]
    · rw [List.append_nil]
      refine ⟨h.path, h.form, h.target, h.medium, ?_, h.untallied, ?_, ?_⟩
      · rw [h.taken, frames_concat, List.take_append_of_le_length (by omega)]
      · rw [framesBelow_concat, if_neg hover, h.pending]
      · rw [if_neg hover, hfailed]

/-- Whichever way the writing ends, the number of octets that were taken is tallied. -/
theorem Filling.ended (h : Filling N path codec bs r s es) {op : Operation}
    (hop : op = .finish ∨ op = .close) :
    talliesWritten (es ++ led c r s op) = [min room (frames codec bs).length] ∧
      Storage.taken (es ++ led c r s op) = (frames codec bs).take room := by
  obtain ⟨k, hmedium, hwriting⟩ := h.medium
  have hled : talliesWritten (led c r s op) = [c.written k] ∧ Storage.taken (led c r s op) = [] := by
    obtain ⟨cursor, _, _, _, medium, _⟩ := r
    obtain rfl : medium = _ := hmedium
    rcases hop with rfl | rfl <;> exact ⟨rfl, rfl⟩
  rw [talliesWritten_append, taken_append, h.untallied, hled.1, hled.2, List.append_nil, h.taken,
    N.written hwriting, h.taken, List.length_take]
  exact ⟨rfl, rfl⟩

end Step

/-! ### One request after the other -/

/-- A request to add a batch behind others: the run as it is then, and what the request comes
to. -/
structure Pressed (path : Path) (codec : Codec) (room : Nat) (full : Fault.IoFault)
    (bs : List Batch) (b : Batch) (q : Request κ ρ) : Prop where
  op : q.op = .add b
  answer : q.answer = .done (roomAnswer path codec room full bs b)
  silent : room < (frames codec bs).length → q.events = []
  pending : q.before.pending = framesBelow codec bs room
  failed : q.before.failed = if (frames codec bs).length ≤ room then none else some .write

section Lives

variable {N : Narrow c room full} {l : Life κ ρ} {s : ω}

theorem filling_begin {s₀ : ω} (hready : N.ready s₀)
    (h : Life.begin c path codec s₀ = (.ok l, s)) : Filling N path codec [] l.run s l.events := by
  obtain ⟨sink, hopen, rfl⟩ := Life.begin_eq_ok h
  exact ⟨rfl, rfl, rfl, ⟨sink, rfl, N.openOutput hready hopen⟩, List.take_nil.symm, rfl, rfl,
    (if_pos (Nat.zero_le room)).symm⟩

theorem Filling.ask (h : Filling N path codec bs l.run s l.events) (hw : Frame.Writable codec b) :
    Filling N path codec (bs ++ [b]) (l.ask c s (.add b)).1.run (l.ask c s (.add b)).2
        (l.ask c s (.add b)).1.events ∧
      ∃ q, (l.ask c s (.add b)).1.requests = l.requests ++ [q] ∧
        Pressed path codec room full bs b q := by
  obtain ⟨r, x, hadd, hfilling, hsilent⟩ := h.add hw
  have hask : l.ask c s (.add b) = ({ l with run := r, requests := l.requests ++
      [⟨l.run, .add b, .done (roomAnswer path codec room full bs b), x.events⟩] }, x.inner) := by
    simp only [Life.ask, perform, hadd]
  have hevents : (l.ask c s (.add b)).1.events = l.events ++ x.events := by
    rw [Life.events_ask]
    simp only [led, perform, hadd]
  rw [hevents, hask]
  exact ⟨hfilling, _, rfl, rfl, rfl, hsilent, h.pending, h.failed⟩

/-- Each batch meets the run as those before it left it. -/
theorem Filling.askAll {more : List Batch} (h : Filling N path codec bs l.run s l.events)
    (hw : ∀ b ∈ more, Frame.Writable codec b) :
    let left := l.askAll c (more.map .add) s
    Filling N path codec (bs ++ more) left.1.run left.2 left.1.events ∧
      ∃ qs, left.1.requests = l.requests ++ qs ∧ qs.length = more.length ∧
        ∀ i q b, qs[i]? = some q → more[i]? = some b →
          Pressed path codec room full (bs ++ more.take i) b q := by
  induction more generalizing l s bs with
  | nil =>
    rw [List.append_nil]
    exact ⟨h, [], (List.append_nil _).symm, rfl, fun i q b hq => nomatch hq⟩
  | cons b more ih =>
    obtain ⟨hb, hmore⟩ := List.forall_mem_cons.1 hw
    obtain ⟨hfilling, q, hrequests, hpressed⟩ := h.ask hb
    obtain ⟨hleft, qs, hothers, hlength, hall⟩ := ih hfilling hmore
    rw [List.append_assoc] at hleft
    refine ⟨hleft, q :: qs, ?_, congrArg (· + 1) hlength, ?_⟩
    · rw [hrequests, List.append_assoc] at hothers
      exact hothers
    · intro i q' b' hq hb'
      cases i with
      | zero =>
        obtain rfl := Option.some.inj hq
        obtain rfl := Option.some.inj hb'
        rw [List.take_zero, List.append_nil]
        exact hpressed
      | succ i =>
        have hone := hall i q' b' hq hb'
        rwa [List.append_assoc] at hone

end Lives

/-- The request at a place, where so many of the frames have room. -/
structure AtPlace (path : Path) (full : Fault.IoFault) (fit i : Nat) (b : Batch)
    (q : Request κ ρ) : Prop where
  op : q.op = .add b
  /-- The batches whose frames have room are taken, the one behind them meets the failure of the
  sink, and all others are refused. -/
  answer : q.answer = .done (if i < fit then .ok () else if i = fit then .error (.io full)
    else .error (.operation (.addAfterFailure .write path)))
  /-- For a batch that is refused nothing is asked of the channel. -/
  silent : fit < i → q.events = []
  pending : q.before.pending = min i fit
  failed : q.before.failed = if i ≤ fit then none else some .write

theorem Pressed.atPlace {i : Nat} {q : Request κ ρ} (hb : bs[i]? = some b)
    (h : Pressed path codec room full (bs.take i) b q) :
    AtPlace path full (framesBelow codec bs room) i b q := by
  obtain ⟨hi, -⟩ := List.getElem?_eq_some_iff.1 hb
  have hbefore := le_framesBelow codec (Nat.le_of_lt hi) room
  have hwith : i < framesBelow codec bs room ↔ _ := le_framesBelow codec hi room
  rw [List.take_add_one, hb, Option.toList_some] at hwith
  obtain ⟨hop, hanswer, hsilent, hpending, hfailed⟩ := h
  rw [roomAnswer, if_congr hwith.symm rfl (if_congr hbefore.symm rfl rfl)] at hanswer
  rw [framesBelow_take codec (Nat.le_of_lt hi)] at hpending
  rw [if_congr hbefore.symm rfl rfl] at hfailed
  rw [← Nat.not_le, ← hbefore, Nat.not_le] at hsilent
  refine ⟨hop, ?_, hsilent, hpending, hfailed⟩
  rw [hanswer]
  generalize framesBelow codec bs room = fit
  by_cases hfits : i < fit
  · rw [if_pos hfits, if_pos hfits]
  · have hlast : i ≤ fit ↔ i = fit := ⟨fun h => Nat.le_antisymm h (Nat.not_lt.1 hfits), Nat.le_of_eq⟩
    rw [if_neg hfits, if_neg hfits, if_congr hlast rfl rfl]

/-- **A full disk stops a run at the frame that does not fit, whichever octet that is.**  Where
a sink has room for so many octets and fails from then on, exactly the batches are taken
before the first whose frame, with all before it, is longer than that.  That batch is answered
with the failure of the sink, every later one is refused without a call of the channel, and
the run goes on counting the batches that it took.  The sink took the first octets of all the
frames, as many as there was room for, and their number is tallied once, when the writing
ends. -/
theorem stops_where_full (N : Narrow c room full) {s₀ s₁ : ω} {l₀ : Life κ ρ}
    (hready : N.ready s₀) (hbegin : Life.begin c path codec s₀ = (.ok l₀, s₁))
    (hw : ∀ b ∈ bs, Frame.Writable codec b) :
    let fit := framesBelow codec bs room
    let l := (l₀.askAll c (bs.map .add) s₁).1
    let s := (l₀.askAll c (bs.map .add) s₁).2
    (∀ k ≤ bs.length, k ≤ fit ↔ (frames codec (bs.take k)).length ≤ room) ∧
    (l.requests.length = bs.length ∧ ∀ i q b, l.requests[i]? = some q → bs[i]? = some b →
      AtPlace path full fit i b q) ∧
    (l.run.pending = fit ∧ l.run.failed = if fit < bs.length then some .write else none) ∧
    taken l.events = (frames codec bs).take room ∧
    ∀ op, op = .finish ∨ op = .close →
      let ended := (l.ask c s op).1
      talliesWritten ended.events = [min room (frames codec bs).length] ∧
        taken ended.events = (frames codec bs).take room := by
  intro fit l s
  obtain ⟨hfilling, qs, hrequests, hlength, hpressed⟩ :=
    (filling_begin (N := N) hready hbegin).askAll hw
  rw [(Life.create_of_begin hbegin).2, List.nil_append] at hrequests
  rw [List.nil_append] at hfilling
  refine ⟨fun k hk => le_framesBelow codec hk room, ⟨?_, ?_⟩, ⟨hfilling.pending, ?_⟩,
    hfilling.taken, ?_⟩
  · exact (congrArg List.length hrequests).trans hlength
  · intro i q b hq hb
    have hone := hpressed i q b (hrequests ▸ hq) hb
    rw [List.nil_append] at hone
    exact hone.atPlace hb
  · have hall : fit < bs.length ↔ ¬(frames codec bs).length ≤ room := by
      rw [← framesBelow_eq_length]
      exact Nat.lt_iff_le_and_ne.trans (and_iff_right (framesBelow_le ..))
    rw [hfilling.failed, if_congr hall rfl rfl, ite_not]
  · intro op hop ended
    have hended := hfilling.ended hop
    rwa [← Life.events_ask] at hended

theorem eq_triple_of_length {α : Type} : ∀ {xs : List α}, xs.length = 3 → ∃ x y z, xs = [x, y, z]
  | [x, y, z], _ => ⟨x, y, z, rfl⟩

/-- Where sinks take no more than five hundred octets the pair is taken once.  Of its second
frame thirty-six octets are taken, and nothing is tried for a third one. -/
theorem pairs_stop_where_full : ∃ l₀ s₁, Life.begin brittle ⟨[97]⟩ ⟨.none⟩ scarce = (.ok l₀, s₁) ∧
    let l := (l₀.askAll brittle ([pair, pair, pair].map .add) s₁).1
    l.requests.map (·.answer) = [.done (.ok ()), .done (.error (.io Faulty.full)),
      .done (.error (.operation (.addAfterFailure .write ⟨[97]⟩)))] ∧
    l.run.pending = 1 ∧ l.run.failed = some .write ∧
    taken l.events = Frame.ofBatch ⟨.none⟩ pair ++ (Frame.ofBatch ⟨.none⟩ pair).take 36 := by
  obtain ⟨l₀, s₁, hbegin⟩ : ∃ l₀ s₁,
      Life.begin brittle ⟨[97]⟩ ⟨.none⟩ scarce = (.ok l₀, s₁) := ⟨_, _, rfl⟩
  have hready : (Faulty.narrow Site.reliable Site.backed.metered 500).ready scarce :=
    ⟨rfl, rfl, nofun⟩
  have hw : ∀ b ∈ [pair, pair, pair], Frame.Writable ⟨.none⟩ b := by
    intro b hb
    obtain rfl : b = pair := by simpa using hb
    exact writable_pair
  have hfit : framesBelow ⟨.none⟩ [pair, pair, pair] 500 = 1 := by decide +kernel
  have hstops := stops_where_full (Faulty.narrow Site.reliable Site.backed.metered 500) hready
    hbegin hw
  refine ⟨l₀, s₁, hbegin, ?_⟩
  dsimp only at hstops ⊢
  generalize l₀.askAll brittle ([pair, pair, pair].map .add) s₁ = left at hstops ⊢
  obtain ⟨l, s⟩ := left
  obtain ⟨-, ⟨hlength, hanswers⟩, ⟨hpending, hfailed⟩, htaken, -⟩ := hstops
  obtain ⟨q₀, q₁, q₂, hrequests⟩ := eq_triple_of_length hlength
  rw [hfit] at hanswers hpending hfailed
  rw [hrequests] at hanswers
  refine ⟨?_, hpending, hfailed, htaken.trans (by decide +kernel)⟩
  rw [hrequests, List.map_cons, List.map_cons, List.map_singleton,
    (hanswers 0 q₀ pair rfl rfl).answer, (hanswers 1 q₁ pair rfl rfl).answer,
    (hanswers 2 q₂ pair rfl rfl).answer]
  rfl

end ExternalSort.Run
