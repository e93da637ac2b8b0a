/-
What passes through streams, call by call.

Whoever writes everything or reads up to a length sees a stream only through its single
calls.  So two streams that agree in every call agree over all of it, whatever may fail
(`Agrees`).  And where a state keeps a record of what each call took or gave (`Records`),
the record tells what passed altogether, a failure on the way included: nothing passed
behind it, and it did not pass whole.
-/
import ExternalSort.Storage.Stream

namespace ExternalSort.Storage

variable {σ σ' : Type}

/-- The same outcome, and what is left is related. -/
structure Same {α β γ : Type} (rel : β → γ → Prop) (x : α × β) (y : α × γ) : Prop where
  outcome : x.1 = y.1
  left : rel x.2 y.2

/-! ### Streams that agree -/

/-- In related states both sinks come to the same, and the states stay related. -/
def ByteSink.Agrees (sink : ByteSink σ) (sink' : ByteSink σ') (rel : σ → σ' → Prop) : Prop :=
  ∀ ⦃s s'⦄, rel s s' → ∀ bs ≠ [], Same rel (sink.write bs s) (sink'.write bs s')

/-- In related states both sources come to the same, and the states stay related. -/
def ByteSource.Agrees (source : ByteSource σ) (source' : ByteSource σ') (rel : σ → σ' → Prop) :
    Prop :=
  ∀ ⦃s s'⦄, rel s s' → ∀ n > 0, Same rel (source.read n s) (source'.read n s')

section Agrees

variable {sink : ByteSink σ} {sink' : ByteSink σ'} {source : ByteSource σ}
  {source' : ByteSource σ'} {rel : σ → σ' → Prop}

theorem ByteSink.Agrees.writeAll (h : sink.Agrees sink' rel) (bs : Bytes) {s : σ} {s' : σ'}
    (hs : rel s s') : Same rel (sink.writeAll bs s) (sink'.writeAll bs s') := by
  induction hn : bs.length using Nat.strongRecOn generalizing bs s s' with
  | ind n ih =>
    rw [ByteSink.writeAll, ByteSink.writeAll]
    by_cases hempty : bs = []
    · rw [if_pos hempty, if_pos hempty]
      exact ⟨rfl, hs⟩
    · rw [if_neg hempty, if_neg hempty]
      obtain ⟨houtcome, hleft⟩ := h hs bs hempty
      generalize sink.write bs s = step at houtcome hleft ⊢
      generalize sink'.write bs s' = step' at houtcome hleft ⊢
      obtain ⟨outcome, t⟩ := step
      obtain ⟨_, t'⟩ := step'
      obtain rfl : outcome = _ := houtcome
      match outcome with
      | .error f => exact ⟨rfl, hleft⟩
      | .ok 0 => exact ⟨rfl, hleft⟩
      | .ok (k + 1) =>
        have hpos := List.length_pos_iff.2 hempty
        exact ih (bs.drop (k + 1)).length (by rw [List.length_drop]; omega) _ hleft rfl

theorem ByteSource.Agrees.readUpTo (h : source.Agrees source' rel) (n : Nat) {s : σ} {s' : σ'}
    (hs : rel s s') : Same rel (source.readUpTo n s) (source'.readUpTo n s') := by
  induction n using Nat.strongRecOn generalizing s s' with
  | ind n ih =>
    rw [ByteSource.readUpTo, ByteSource.readUpTo]
    by_cases hzero : n = 0
    · rw [if_pos hzero, if_pos hzero]
      exact ⟨rfl, hs⟩
    · rw [if_neg hzero, if_neg hzero]
      obtain ⟨houtcome, hleft⟩ := h hs n (Nat.pos_of_ne_zero hzero)
      generalize source.read n s = step at houtcome hleft ⊢
      generalize source'.read n s' = step' at houtcome hleft ⊢
      obtain ⟨outcome, t⟩ := step
      obtain ⟨_, t'⟩ := step'
      obtain rfl : outcome = _ := houtcome
      match outcome with
      | .error f => exact ⟨rfl, hleft⟩
      | .ok [] => exact ⟨rfl, hleft⟩
      | .ok (b :: bs) =>
        obtain ⟨hrest, hlast⟩ := ih (n - (bs.length + 1)) (by omega) hleft
        simp only
        generalize source.readUpTo _ t = more at hrest hlast ⊢
        generalize source'.readUpTo _ t' = more' at hrest hlast ⊢
        obtain ⟨outcome, u⟩ := more
        obtain ⟨_, u'⟩ := more'
        obtain rfl : outcome = _ := hrest
        cases outcome with
        | error f => exact ⟨rfl, hlast⟩
        | ok rest => exact ⟨rfl, hlast⟩

theorem ByteSource.Agrees.readExact (h : source.Agrees source' rel) (n : Nat) {s : σ} {s' : σ'}
    (hs : rel s s') : Same rel (source.readExact n s) (source'.readExact n s') := by
  obtain ⟨houtcome, hleft⟩ := h.readUpTo n hs
  unfold ByteSource.readExact
  generalize source.readUpTo n s = step at houtcome hleft ⊢
  generalize source'.readUpTo n s' = step' at houtcome hleft ⊢
  obtain ⟨outcome, t⟩ := step
  obtain ⟨_, t'⟩ := step'
  obtain rfl : outcome = _ := houtcome
  cases outcome with
  | error f => exact ⟨rfl, hleft⟩
  | ok bs =>
    dsimp only
    split <;> exact ⟨rfl, hleft⟩

end Agrees

/-! ### Streams that are recorded -/

/-- The octets that a call of a sink took of those it was offered. -/
def takenOf (bs : Bytes) : Except Fault.IoFault Nat → Bytes
  | .ok n => bs.take n
  | .error _ => []

/-- The octets that a call of a source gave. -/
def givenOf : Except Fault.IoFault Bytes → Bytes
  | .ok bs => bs
  | .error _ => []

/-- The state keeps a record of what the sink takes. -/
def ByteSink.Records (sink : ByteSink σ) (took : σ → Bytes) : Prop :=
  ∀ bs s, took (sink.write bs s).2 = took s ++ takenOf bs (sink.write bs s).1

/-- The state keeps a record of what the source gives, and that is never more than it is
asked for. -/
structure ByteSource.Records (source : ByteSource σ) (gave : σ → Bytes) : Prop where
  record : ∀ n s, gave (source.read n s).2 = gave s ++ givenOf (source.read n s).1
  bounded : ∀ n s, (givenOf (source.read n s).1).length ≤ n

section Records

variable {sink : ByteSink σ} {source : ByteSource σ} {took gave : σ → Bytes}

/-- Octets are written whole exactly where the writing succeeds. -/
theorem ByteSink.Records.writeAll (h : sink.Records took) (bs : Bytes) (s : σ) :
    ∃ passed, took (sink.writeAll bs s).2 = took s ++ passed ∧ passed <+: bs ∧
      ((sink.writeAll bs s).1 = .ok () ↔ passed = bs) := by
  induction hn : bs.length using Nat.strongRecOn generalizing bs s with
  | ind n ih =>
    rw [ByteSink.writeAll]
    by_cases hempty : bs = []
    · subst hempty
      rw [if_pos rfl]
      exact ⟨[], (List.append_nil _).symm, List.prefix_rfl, iff_of_true rfl rfl⟩
    · rw [if_neg hempty]
      have hstep := h bs s
      generalize sink.write bs s = step at hstep ⊢
      obtain ⟨outcome, t⟩ := step
      match outcome with
      | .error f => exact ⟨[], hstep, List.nil_prefix, iff_of_false nofun (Ne.symm hempty)⟩
      | .ok 0 => exact ⟨[], hstep, List.nil_prefix, iff_of_false nofun (Ne.symm hempty)⟩
      | .ok (k + 1) =>
        have hpos := List.length_pos_iff.2 hempty
        obtain ⟨passed, hpassed, hprefix, hwhole⟩ := ih (bs.drop (k + 1)).length
          (by rw [List.length_drop]; omega) (bs.drop (k + 1)) t rfl
        refine ⟨bs.take (k + 1) ++ passed, ?_, ?_, ?_⟩
        · rw [hpassed, hstep, List.append_assoc]
          rfl
        · conv => rhs; rw [← List.take_append_drop (k + 1) bs]
          exact (List.prefix_append_right_inj _).2 hprefix
        · rw [hwhole]
          conv => rhs; rhs; rw [← List.take_append_drop (k + 1) bs]
          exact List.append_cancel_left_eq .. ▸ Iff.rfl

/-- What was read up to a length is what passed, and where reading failed less passed. -/
theorem ByteSource.Records.readUpTo (h : source.Records gave) (n : Nat) (s : σ) :
    ∃ passed, gave (source.readUpTo n s).2 = gave s ++ passed ∧ passed.length ≤ n ∧
      ((source.readUpTo n s).1 = .ok passed ∨
        (∃ f, (source.readUpTo n s).1 = .error f) ∧ passed.length < n) := by
  induction n using Nat.strongRecOn generalizing s with
  | ind n ih =>
    rw [ByteSource.readUpTo]
    by_cases hzero : n = 0
    · rw [if_pos hzero]
      exact ⟨[], (List.append_nil _).symm, Nat.zero_le n, .inl rfl⟩
    · rw [if_neg hzero]
      have hstep := h.record n s
      have hbound := h.bounded n s
      generalize source.read n s = step at hstep hbound ⊢
      obtain ⟨outcome, t⟩ := step
      match outcome with
      | .error f =>
        exact ⟨[], hstep, Nat.zero_le n, .inr ⟨⟨f, rfl⟩, Nat.pos_of_ne_zero hzero⟩⟩
      | .ok [] => exact ⟨[], hstep, Nat.zero_le n, .inl rfl⟩
      | .ok (b :: bs) =>
        have hlength : bs.length + 1 ≤ n := hbound
        obtain ⟨rest, hrest, hlen, hend⟩ := ih (n - (bs.length + 1)) (by omega) t
        have hpassed : gave (source.readUpTo (n - (bs.length + 1)) t).2
            = gave s ++ (b :: bs ++ rest) := by
          rw [hrest, hstep, List.append_assoc]
          rfl
        have htotal : (b :: bs ++ rest).length = bs.length + 1 + rest.length := by
          rw [List.length_append, List.length_cons]
        refine ⟨b :: bs ++ rest, ?_, by omega, ?_⟩
        · rw [← hpassed]
          dsimp only
          split <;> rename_i heq <;> rw [heq]
        · rcases hend with hok | ⟨⟨f, herror⟩, hshort⟩
          · left
            dsimp only
            split <;> rename_i heq <;> rw [heq] at hok
            · rw [Except.ok.inj hok]
            · contradiction
          · right
            refine ⟨⟨f, ?_⟩, by omega⟩
            dsimp only
            split <;> rename_i heq <;> rw [heq] at herror
            · contradiction
            · exact herror

/-- Where not exactly so many octets were read, fewer passed. -/
theorem ByteSource.Records.readExact (h : source.Records gave) (n : Nat) (s : σ) :
    ∃ passed, gave (source.readExact n s).2 = gave s ++ passed ∧
      ((source.readExact n s).1 = .ok passed ∧ passed.length = n ∨
        (∃ f, (source.readExact n s).1 = .error f) ∧ passed.length < n) := by
  obtain ⟨passed, hpassed, hlen, hend⟩ := h.readUpTo n s
  unfold ByteSource.readExact
  generalize source.readUpTo n s = step at hpassed hend ⊢
  obtain ⟨outcome, t⟩ := step
  refine ⟨passed, ?_, ?_⟩
  · rw [← hpassed]
    dsimp only
    split
    · rename_i heq
      split <;> exact congrArg gave (Prod.mk.inj heq).2.symm
    · rename_i heq
      exact congrArg gave (Prod.mk.inj heq).2.symm
  · rcases hend with hok | ⟨⟨f, herror⟩, hshort⟩
    · obtain rfl : outcome = .ok passed := hok
      by_cases hshort : passed.length < n
      · exact .inr ⟨⟨.shortRead, by simp only [if_pos hshort]⟩, hshort⟩
      · exact .inl ⟨by simp only [if_neg hshort], by omega⟩
    · obtain rfl : outcome = .error f := herror
      exact .inr ⟨⟨f, rfl⟩, hshort⟩

end Records
end ExternalSort.Storage
