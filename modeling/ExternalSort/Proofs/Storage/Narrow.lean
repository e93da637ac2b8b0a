/-
Sinks with room for so many octets.

A full disk is a sink that takes octets while there is room and fails from then on, with one
failure and taking nothing more.  It may take less than it is offered at any call.  However
the octets are cut into calls, it has then taken the first of them, as many as there is room
for, and whoever writes everything learns of the failure exactly if that was not all.

A channel whose sinks are of this kind is `Narrow`.  A channel that does not fail becomes
narrow behind a budget.
-/
import ExternalSort.Proofs.Storage.Metered
import ExternalSort.Proofs.Storage.Watched

namespace ExternalSort

open Fault

namespace Storage

variable {σ ω κ ρ : Type}

/-! ### Sinks -/

/-- In states `holds s bs` the sink has taken `bs`.  It goes on taking while these are fewer
than `room`, and then it only fails. -/
structure ByteSink.Fills (sink : ByteSink σ) (room : Nat) (full : IoFault)
    (holds : σ → Bytes → Prop) : Prop where
  within : ∀ {s taken}, holds s taken → taken.length ≤ room
  takes : ∀ {s taken}, holds s taken → taken.length < room → ∀ bs ≠ [],
    ∃ n s', sink.write bs s = (.ok (n + 1), s') ∧ n < bs.length ∧ holds s' (taken ++ bs.take (n + 1))
  fails : ∀ {s taken}, holds s taken → taken.length = room → ∀ bs ≠ [],
    ∃ s', sink.write bs s = (.error full, s') ∧ holds s' taken

section Fills

variable {sink : ByteSink σ} {room : Nat} {full : IoFault} {holds : σ → Bytes → Prop}

/-- Of octets that are written as many are taken as there is room for. -/
theorem ByteSink.Fills.writeAll (h : sink.Fills room full holds) (bs : Bytes) {s : σ}
    {taken : Bytes} (hs : holds s taken) :
    ∃ s', sink.writeAll bs s
        = (if (taken ++ bs).length ≤ room then .ok () else .error full, s') ∧
      holds s' ((taken ++ bs).take room) := by
  have hwithin := h.within hs
  induction hn : bs.length using Nat.strongRecOn generalizing bs s taken with
  | ind n ih =>
    rw [ByteSink.writeAll]
    by_cases hempty : bs = []
    · subst hempty
      rw [if_pos rfl, List.append_nil, if_pos hwithin, List.take_of_length_le hwithin]
      exact ⟨s, rfl, hs⟩
    rw [if_neg hempty]
    have hpos := List.length_pos_iff.2 hempty
    by_cases hroom : taken.length < room
    · obtain ⟨k, s', hwrite, hk, hs'⟩ := h.takes hs hroom bs hempty
      obtain ⟨s'', hall, hs''⟩ := ih (bs.drop (k + 1)).length (by rw [List.length_drop]; omega) _
        hs' (h.within hs') rfl
      rw [List.append_assoc, List.take_append_drop] at hall hs''
      rw [hwrite]
      exact ⟨s'', hall, hs''⟩
    · obtain hfull : taken.length = room := Nat.le_antisymm hwithin (Nat.not_lt.1 hroom)
      obtain ⟨s', hwrite, hs'⟩ := h.fails hs hfull bs hempty
      rw [hwrite, if_neg (by rw [List.length_append]; omega), List.take_left' hfull]
      exact ⟨s', rfl, hs'⟩

end Fills
end Storage

/-- A frame is written if there is room for all of it; else that part of it is taken for which
there is room. -/
theorem Frame.write_fills {σ : Type} {sink : Storage.ByteSink σ} {room : Nat} {full : IoFault}
    {holds : σ → Bytes → Prop} (h : sink.Fills room full holds) {codec : Codec} {b : Batch}
    (hw : Writable codec b) {s : σ} {taken : Bytes} (hs : holds s taken) :
    ∃ s', write codec sink b s
        = (if (taken ++ ofBatch codec b).length ≤ room then .ok (ofBatch codec b).length
          else .error (.io full), s') ∧
      holds s' ((taken ++ ofBatch codec b).take room) := by
  obtain ⟨s', hheader, hs'⟩ := h.writeAll
    (Bytes.Little.ofNat headerLength (Stream.write codec.compression b).length) hs
  rw [write, Codec.encode_eq_ok_iff.2 ⟨hw.valid, rfl⟩]
  dsimp only
  rw [if_neg (Nat.not_lt.2 hw.length), hheader, ofBatch, length_ofPayload, ofPayload,
    ← List.append_assoc]
  generalize Stream.write codec.compression b = payload at hheader hs' ⊢
  generalize hfront : taken ++ Bytes.Little.ofNat headerLength payload.length = front at hs' ⊢
  by_cases hfits : front.length ≤ room
  · rw [List.take_of_length_le hfits] at hs'
    obtain ⟨s'', hbody, hs''⟩ := h.writeAll payload hs'
    rw [if_pos hfits]
    dsimp only
    rw [hbody]
    by_cases hall : (front ++ payload).length ≤ room
    · rw [if_pos hall, if_pos hall]
      exact ⟨s'', rfl, hs''⟩
    · rw [if_neg hall, if_neg hall]
      exact ⟨s'', rfl, hs''⟩
  · rw [if_neg hfits, if_neg (by rw [List.length_append]; omega),
      List.take_append_of_le_length (by omega)]
    exact ⟨s', rfl, hs'⟩

namespace Storage

variable {ω κ ρ : Type}

/-! ### Channels -/

/-- A channel whose sinks have room for so many octets, and count what they take. -/
structure Narrow (c : Channel ω κ ρ) (room : Nat) (full : IoFault) where
  /-- Nothing was written yet. -/
  ready : ω → Prop
  /-- A sink has taken certain octets. -/
  writing : κ → ω → Bytes → Prop
  openOutput : ∀ {p s k s'}, ready s → c.openOutput p s = (.ok k, s') → writing k s' []
  sink : c.sink.Fills room full fun x taken => writing x.1 x.2 taken
  written : ∀ {k s taken}, writing k s taken → c.written k = taken.length

/-- What a watched sink is noted to have taken, behind what was taken before, is what it
took; and nothing is tallied meanwhile. -/
theorem Narrow.fills_watched {c : Channel ω κ ρ} {room : Nat} {full : IoFault}
    (N : Narrow c room full) (prior : Bytes) :
    (Watched.channel c).sink.Fills room full fun x t => N.writing x.1 x.2.inner t ∧
      prior ++ taken x.2.events = t ∧ talliesWritten x.2.events = [] where
  within h := N.sink.within (s := (_, _)) h.1
  takes {x t} h hroom bs hne := by
    obtain ⟨hwriting, htaken, htallies⟩ := h
    obtain ⟨n, ⟨k', s'⟩, hwrite, hn, hs'⟩ := N.sink.takes (s := (x.1, x.2.inner)) hwriting hroom bs hne
    refine ⟨n, _, Watched.write_eq hwrite, hn, hs', ?_, ?_⟩
    · rw [taken_append, ← List.append_assoc, htaken]
      exact congrArg (t ++ ·) (List.append_nil _)
    · rw [talliesWritten_append, htallies]
      rfl
  fails {x t} h hroom bs hne := by
    obtain ⟨hwriting, htaken, htallies⟩ := h
    obtain ⟨⟨k', s'⟩, hwrite, hs'⟩ := N.sink.fails (s := (x.1, x.2.inner)) hwriting hroom bs hne
    refine ⟨_, Watched.write_eq hwrite, hs', ?_, ?_⟩
    · rw [taken_append, ← List.append_assoc, htaken]
      exact List.append_nil t
    · rw [talliesWritten_append, htallies]
      rfl

/-- The failure of a sink whose budget is used up. -/
def Faulty.full : IoFault := .described .other "disk full"

namespace Faulty

/-- So many octets are left in the budget of sinks, which fail once it is used up. -/
structure Spares (k : Knobs) (left : Nat) : Prop where
  budget : k.writeBudget = some left
  fails : k.takesNothing = false
  /-- A single call may take something. -/
  chunk : k.chunk ≠ some 0

theorem limited_pos {n : Nat} {limit : Option Nat} (hn : 0 < n) (h : limit ≠ some 0) :
    0 < limited n limit := by
  cases limit with
  | none => exact hn
  | some m =>
    have hm : m ≠ 0 := fun hzero => h (congrArg some hzero)
    exact Nat.lt_min.2 ⟨hn, Nat.pos_of_ne_zero hm⟩

/-- A sink behind a budget with something left takes what the sink behind it takes. -/
theorem write_left {sink : ByteSink (κ × ω)} {holds : κ × ω → Bytes → Prop}
    (h : sink.Takes holds) {k : κ} {s : Faulty ω} {taken : Bytes} (hs : holds (k, s.inner) taken)
    {left : Nat} (hspares : Spares s.knobs left) (hleft : 0 < left) {bs : Bytes} (hne : bs ≠ []) :
    ∃ n k' s', write sink bs k s = (.ok (n + 1), k', s') ∧ n < bs.length ∧ n < left ∧
      holds (k', s'.inner) (taken ++ bs.take (n + 1)) ∧ Spares s'.knobs (left - (n + 1)) := by
  have hbudget : s.knobs.writeBudget ≠ some 0 := by
    rw [hspares.budget]
    exact fun h => absurd (Option.some.inj h) (by omega)
  have hlimit : limited (limited bs.length s.knobs.chunk) (some left) ≤ left :=
    Nat.min_le_right ..
  have hpos : 0 < limited (limited bs.length s.knobs.chunk) (some left) :=
    limited_pos (limited_pos (List.length_pos_iff.2 hne) hspares.chunk)
      fun h => absurd (Option.some.inj h) (by omega)
  unfold write
  rw [if_neg hbudget, hspares.budget]
  generalize limited (limited bs.length s.knobs.chunk) (some left) = most at hlimit hpos ⊢
  have hpart : bs.take most ≠ [] := fun h => by
    rcases List.take_eq_nil_iff.1 h with h | h
    · omega
    · exact hne h
  obtain ⟨n, ⟨k', inner⟩, hwrite, hn, hs'⟩ := h _ _ _ hs hpart
  rw [List.length_take] at hn
  rw [List.take_take, Nat.min_eq_left (by omega)] at hs'
  dsimp only
  rw [hwrite]
  exact ⟨n, k', _, rfl, by omega, by omega, hs', rfl, hspares.fails, hspares.chunk⟩

/-- Sinks that do not fail count what they take. -/
theorem takes_counted {c : Channel ω κ ρ} {totals : ω → Totals} (R : Reliable c)
    (hM : Metered c totals) (p : Path) :
    c.sink.Takes fun x taken => R.writing p x.1 x.2 taken ∧ c.written x.1 = taken.length := by
  rintro ⟨k, s⟩ taken bs ⟨hwriting, hcount⟩ hne
  obtain ⟨n, ⟨k', s'⟩, hwrite, hn, htaken⟩ := R.sink p _ _ _ hwriting hne
  have hwritten := hM.written bs k s
  rw [hwrite, hcount] at hwritten
  exact ⟨n, (k', s'), hwrite, hn, htaken, by rw [List.length_append]; exact hwritten⟩

/-- **A channel that does not fail is narrow behind a budget.** -/
def narrow {c : Channel ω κ ρ} {totals : ω → Totals} (R : Reliable c) (hM : Metered c totals)
    (room : Nat) : Narrow (channel c) room full where
  ready s := Spares s.knobs room
  writing k s taken := (∃ p, R.writing p k s.inner taken ∧ c.written k = taken.length) ∧
    taken.length ≤ room ∧ Spares s.knobs (room - taken.length)
  openOutput {p s k s'} hready hopen := by
    change guarded .openOutput (c.openOutput p) s = _ at hopen
    unfold guarded at hopen
    dsimp only at hopen
    split at hopen
    · exact nomatch (Prod.mk.inj hopen).1
    · obtain ⟨hok, rfl⟩ := Prod.mk.inj hopen
      have hinner : c.openOutput p s.inner = (.ok k, (c.openOutput p s.inner).2) :=
        Prod.ext hok rfl
      exact ⟨⟨p, R.openOutput hinner, hM.start hinner⟩, Nat.zero_le _, hready⟩
  written := fun ⟨⟨_, _, hcount⟩, _⟩ => hcount
  sink := {
    within := fun h => h.2.1
    takes := by
      rintro ⟨k, s⟩ taken ⟨⟨p, htaken⟩, -, hspares⟩ hroom bs hne
      obtain ⟨n, k', s', hwrite, hn, hleft, htaken', hspares'⟩ :=
        write_left (takes_counted R hM p) (k := k) (s := s) htaken hspares (by omega) hne
      have hlength : (taken ++ bs.take (n + 1)).length = taken.length + (n + 1) := by
        rw [List.length_append, List.length_take_of_le hn]
      refine ⟨n, (k', s'), hwrite, hn, ⟨p, htaken'⟩, by omega, ?_⟩
      rwa [hlength, ← Nat.sub_sub]
    fails := by
      rintro ⟨k, s⟩ taken ⟨htaken, hwithin, hspares⟩ hroom bs -
      refine ⟨(k, s), ?_, htaken, hwithin, hspares⟩
      rw [hroom, Nat.sub_self] at hspares
      show write c.sink bs k s = _
      rw [write, if_pos hspares.budget, hspares.fails]
      rfl }

end Faulty
end Storage
end ExternalSort
