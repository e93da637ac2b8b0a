/-
Channels that count octets.

A stream counts what passes through it, from nothing.  The state behind a channel has two
totals, to which tallies are added, and nothing else that is asked of the channel touches
them.  Spill areas count like that, whatever in front of them is made to fail.

The totals start again at two to the 64th, so what is said of them is said up to that.
-/
import ExternalSort.Proofs.Storage.Backed

namespace ExternalSort.Storage

/-- What was counted by all streams that are closed. -/
structure Totals where
  written : Nat
  consumed : Nat

def Site.totals (s : Site) : Totals := ⟨s.area.written, s.area.consumed⟩

namespace Totals

variable {n m n' m' : Nat} {t t' t'' : Totals}

/-- So many octets were added, up to where counts start again. -/
structure Raised (n m : Nat) (t t' : Totals) : Prop where
  written : t'.written % Area.wrap = (t.written + n) % Area.wrap
  consumed : t'.consumed % Area.wrap = (t.consumed + m) % Area.wrap

theorem Raised.of_eq (h : t' = t) : Raised 0 0 t t' := h ▸ ⟨rfl, rfl⟩

theorem Raised.refl (t : Totals) : Raised 0 0 t t := .of_eq rfl

theorem Raised.trans (h : Raised n m t t') (h' : Raised n' m' t' t'') :
    Raised (n + n') (m + m') t t'' where
  written := by rw [h'.written, Nat.add_mod, h.written, ← Nat.add_mod, Nat.add_assoc]
  consumed := by rw [h'.consumed, Nat.add_mod, h.consumed, ← Nat.add_mod, Nat.add_assoc]

end Totals

variable {ω κ ρ : Type}

/-- A channel whose streams count what passes, on a state with totals that change by tallies
only. -/
structure Metered (c : Channel ω κ ρ) (totals : ω → Totals) : Prop where
  start : ∀ {p s k s'}, c.openOutput p s = (.ok k, s') → c.written k = 0
  written : ∀ bs k s, c.written (c.sink.write bs (k, s)).2.1
    = c.written k + (takenOf bs (c.sink.write bs (k, s)).1).length
  fresh : ∀ {p s r s'}, c.openInput p s = (.ok r, s') → c.consumed r = 0
  consumed : ∀ n r s, c.consumed (c.source.read n (r, s)).2.1
    = c.consumed r + (givenOf (c.source.read n (r, s)).1).length
  tallyWrite : ∀ n s, Totals.Raised n 0 (totals s) (totals (c.tallyWrite n s))
  tallyRead : ∀ n s, Totals.Raised 0 n (totals s) (totals (c.tallyRead n s))
  openOutput : ∀ p s, totals (c.openOutput p s).2 = totals s
  openInput : ∀ p s, totals (c.openInput p s).2 = totals s
  delete : ∀ p s, totals (c.delete p s).2 = totals s
  write : ∀ bs k s, totals (c.sink.write bs (k, s)).2.2 = totals s
  closeSink : ∀ k s, totals (c.closeSink k s).2 = totals s
  read : ∀ n r s, totals (c.source.read n (r, s)).2.2 = totals s
  closeSource : ∀ r s, totals (c.closeSource r s).2 = totals s

/-! ### Streams on files -/

theorem FileSink.written_write (k : FileSink) (bs : Bytes) (t : FileTree) :
    (k.write bs t).1.written = k.written + bs.length := by
  have hflush : (k.flush t).1.written = k.written := by
    unfold FileSink.flush
    split <;> rfl
  unfold FileSink.write
  dsimp only
  split
  · rfl
  · by_cases hover : k.capacity - k.held.length < bs.length
    · rw [if_pos hover]
      split <;> exact congrArg (· + bs.length) hflush
    · rw [if_neg hover]
      split <;> rfl

theorem FileSource.consumed_read (r : FileSource) (n : Nat) (t : FileTree) :
    (r.read n t).2.consumed = r.consumed + (givenOf (r.read n t).1).length := by
  unfold FileSource.read
  split
  · split
    · rfl
    · dsimp only
      split <;> rfl
  · rfl

/-! ### Spill areas -/

theorem Site.totals_of_area {s s' : Site} (h : s'.area = s.area) : s'.totals = s.totals := by
  rw [totals, totals, h]

variable {site : ω → Site} {c : Channel ω FileSink FileSource}

theorem Relayed.totals {α : Type} {s : ω} {reply : Except Fault α × Site}
    {left : Except Fault α × ω} (h : Relayed site s reply left)
    (hreply : reply.2.totals = (site s).totals) : (site left.2).totals = (site s).totals := by
  rcases h.left with hleft | hleft
  · rw [hleft, hreply]
  · rw [hleft]

/-- **The streams of a spill area count what passes, and only tallies change its totals.** -/
theorem Backed.metered (h : Backed c site) : Metered c fun s => (site s).totals where
  start {p s k s'} hopen := by
    have hmade := (h.openOutput_made p s).2
    rw [hopen] at hmade
    rw [h.written]
    rcases hmade with ⟨⟨f, hf⟩, -⟩ | ⟨loc, n, -, hsink⟩
    · exact nomatch hf
    · rw [hsink k rfl]
      rfl
  written bs k s := by
    rw [h.written]
    have haccepts := h.write bs k s
    generalize c.sink.write bs (k, s) = left at haccepts ⊢
    cases haccepts with
    | @part part t hpart _ =>
      show (k.write part (site s).files).1.written = k.written + (bs.take part.length).length
      rw [FileSink.written_write, ← List.prefix_iff_eq_take.1 hpart]
    | nothing _ => rfl
    | failed _ _ hwritten => exact hwritten
  fresh {p s r s'} hopen := by
    have hrelayed := h.openInput p s
    rw [hopen] at hrelayed
    have hsource : (Site.openInput p (site s)).1 = .ok r := congrArg (·.1) hrelayed.of_ok
    rw [h.consumed]
    unfold Site.openInput at hsource
    split at hsource
    · exact nomatch hsource
    · rw [← Except.ok.inj hsource]
      rfl
    · rw [← Except.ok.inj hsource]
      rfl
  consumed n r s := by
    rw [h.consumed]
    have hyields := h.read n r s
    generalize c.source.read n (r, s) = left at hyields ⊢
    cases hyields with
    | part _ _ => exact FileSource.consumed_read r _ _
    | failed _ _ hconsumed => exact hconsumed
  tallyWrite n s := by
    rw [h.tallyWrite]
    exact ⟨Nat.mod_mod .., rfl⟩
  tallyRead n s := by
    rw [h.tallyRead]
    exact ⟨rfl, Nat.mod_mod ..⟩
  openOutput p s := Site.totals_of_area (h.openOutput_made p s).1
  openInput p s := by rw [h.openInput_site]
  delete p s := (h.delete p s).totals (by
    show (Site.delete p (site s)).2.totals = _
    unfold Site.delete
    split <;> rfl)
  write bs k s := by
    have haccepts := h.write bs k s
    generalize c.sink.write bs (k, s) = left at haccepts ⊢
    cases haccepts with
    | part _ ht | nothing ht => exact Site.totals_of_area (by rw [ht])
    | failed ht _ _ => exact Site.totals_of_area ht.area
  closeSink k s := by
    have hempties := h.closeSink k s
    generalize c.closeSink k s = left at hempties ⊢
    cases hempties with
    | done ht => exact Site.totals_of_area (by rw [ht])
    | failed ht => exact Site.totals_of_area ht.area
  read n r s := by rw [(h.read_site n r s).1]
  closeSource r s := (h.closeSource r s).totals rfl

/-- A source on a spill area gives no more than it is asked for. -/
theorem Backed.bounded (h : Backed c site) : c.source.Bounded := by
  rintro n ⟨r, s⟩
  have hyields := h.read n r s
  generalize c.source.read n (r, s) = left at hyields ⊢
  cases hyields with
  | part hm _ => exact Nat.le_trans (r.length_read _ _) hm
  | failed _ _ _ => exact Nat.zero_le n

end ExternalSort.Storage
