/-
Channels that may fail, but only as channels do.

What a channel reports may be any failure of storage, but it does not blame the library; and
a source never gives more than it is asked for.  Spill areas are such channels, and so is
what stands in front of one and makes it fail.
-/
import ExternalSort.Proofs.Storage.Watched
import ExternalSort.Storage.Area

namespace ExternalSort.Storage

variable {ω κ ρ : Type}

/-- Whatever a call fails with is not laid to the library. -/
def Facing {α : Type} (outcome : Except Fault α) : Prop := ∀ f, outcome = .error f → f.isUserFacing

theorem facing_ok {α : Type} (a : α) : Facing (.ok a) := fun _ h => nomatch h

theorem facing_error {α : Type} {f : Fault} (h : f.isUserFacing) :
    Facing (.error f : Except Fault α) := by
  intro f' hf
  obtain rfl := Except.error.inj hf
  exact h

/-- A channel whose failures are those of storage. -/
structure Channel.Fair (c : Channel ω κ ρ) : Prop where
  openInput : ∀ p s, Facing (c.openInput p s).1
  delete : ∀ p s, Facing (c.delete p s).1
  closeSink : ∀ k s, Facing (c.closeSink k s).1
  closeSource : ∀ r s, Facing (c.closeSource r s).1
  source : c.source.Bounded

/-- A source on a file gives no more than it is asked for. -/
theorem FileSource.length_read (r : FileSource) (n : Nat) (t : FileTree) :
    (givenOf (r.read n t).1).length ≤ n := by
  unfold FileSource.read
  split
  · split
    · exact Nat.zero_le n
    · dsimp only
      split <;> exact List.length_take_le n _
  · exact List.length_take_le n _

/-- A spill area is fair. -/
theorem Site.fair : Site.channel.Fair where
  openInput p s := by
    show Facing (Site.openInput p s).1
    unfold Site.openInput
    split
    · exact facing_error rfl
    · exact facing_ok _
    · exact facing_ok _
  delete p s := by
    show Facing (Site.delete p s).1
    unfold Site.delete
    split
    · dsimp only
      split
      · exact facing_ok _
      · exact facing_error rfl
    · exact facing_ok _
  closeSink k s := facing_ok ()
  closeSource r s := facing_ok ()
  source n := by
    rintro ⟨r, s⟩
    exact r.length_read n s.files

theorem facing_spoiled (call : Call) (text : String) {f : ω → Except Fault Unit × ω}
    (hf : ∀ s, Facing (f s).1) (s : Faulty ω) : Facing (Faulty.spoiled call text f s).1 := by
  have hinner := hf s.inner
  have hthrough : (s.note call).through f
      = ((f s.inner).1, { s.note call with inner := (f s.inner).2 }) := rfl
  unfold Faulty.spoiled
  dsimp only
  rw [hthrough]
  generalize (f s.inner).1 = outcome at hinner ⊢
  cases outcome with
  | error e => exact facing_error (hinner e rfl)
  | ok _ =>
    dsimp only
    split
    · exact facing_error rfl
    · exact facing_ok ()

theorem Faulty.limited_le (n : Nat) (limit : Option Nat) : Faulty.limited n limit ≤ n := by
  cases limit with
  | none => exact Nat.le_refl n
  | some k => exact Nat.min_le_left n k

/-- To make a fair channel fail leaves it fair. -/
theorem Faulty.fair {c : Channel ω κ ρ} (h : c.Fair) : (Faulty.channel c).Fair where
  openInput p s := by
    show Facing (Faulty.guarded .openInput (c.openInput p) s).1
    unfold Faulty.guarded
    dsimp only
    split
    · exact facing_error rfl
    · exact h.openInput p s.inner
  delete p s := by
    show Facing (Faulty.guarded .delete (c.delete p) s).1
    unfold Faulty.guarded
    dsimp only
    split
    · exact facing_error rfl
    · exact h.delete p s.inner
  closeSink k s := facing_spoiled .closeSink _ (h.closeSink k) s
  closeSource r s := facing_spoiled .closeSource _ (h.closeSource r) s
  source n := by
    rintro ⟨r, s⟩
    show (givenOf (Faulty.read c.source n r s).1).length ≤ n
    unfold Faulty.read
    split
    · exact Nat.zero_le n
    · have hbound := h.source (Faulty.limited (Faulty.limited n s.knobs.chunk) s.knobs.readBudget)
        (r, s.inner)
      generalize c.source.read _ (r, s.inner) = step at hbound ⊢
      obtain ⟨outcome, r', inner⟩ := step
      have hle := Nat.le_trans hbound
        (Nat.le_trans (Faulty.limited_le _ s.knobs.readBudget) (Faulty.limited_le n s.knobs.chunk))
      cases outcome with
      | error f => exact Nat.zero_le n
      | ok got => exact hle

/-- To watch a fair channel leaves it fair. -/
theorem Watched.fair {c : Channel ω κ ρ} (h : c.Fair) : (Watched.channel c).Fair where
  openInput p x := h.openInput p x.inner
  delete p x := h.delete p x.inner
  closeSink k x := h.closeSink k x.inner
  closeSource r x := h.closeSource r x.inner
  source n x := h.source n (x.1, x.2.inner)

end ExternalSort.Storage
