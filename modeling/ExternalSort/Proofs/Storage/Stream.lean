/-
Streams that do not fail.

A sink or a source may take or give less than it is asked for; that is no failure.  What it
does over a row of calls is known all the same: `Takes` says that a sink has taken certain
octets whatever the single calls come to, `Gives` that a source still has certain octets to
give.  Programs that write everything and read up to a length then see nothing of the
single calls.
-/
import ExternalSort.Proofs.Bytes
import ExternalSort.Storage.Stream

namespace ExternalSort.Storage

variable {σ : Type}

/-- In states `holds s bs` the sink has taken `bs`, and it goes on taking. -/
def ByteSink.Takes (sink : ByteSink σ) (holds : σ → Bytes → Prop) : Prop :=
  ∀ s taken bs, holds s taken → bs ≠ [] →
    ∃ n s', sink.write bs s = (.ok (n + 1), s') ∧ n < bs.length ∧ holds s' (taken ++ bs.take (n + 1))

/-- In states `holds s rest` the source has `rest` to give, and it ends only behind that. -/
def ByteSource.Gives (source : ByteSource σ) (holds : σ → Bytes → Prop) : Prop :=
  ∀ s rest n, holds s rest → 0 < n →
    ∃ got s', source.read n s = (.ok got, s') ∧ got <+: rest ∧ got.length ≤ n ∧
      (got = [] → rest = []) ∧ holds s' (rest.drop got.length)

theorem ByteSink.writeAll_takes {sink : ByteSink σ} {holds : σ → Bytes → Prop}
    (h : sink.Takes holds) (bs : Bytes) {s : σ} {taken : Bytes} (hs : holds s taken) :
    ∃ s', sink.writeAll bs s = (.ok (), s') ∧ holds s' (taken ++ bs) := by
  induction hn : bs.length using Nat.strongRecOn generalizing bs s taken with
  | ind n ih =>
    by_cases hempty : bs = []
    · subst hempty
      refine ⟨s, ?_, (List.append_nil taken).symm ▸ hs⟩
      rw [ByteSink.writeAll, if_pos rfl]
    · obtain ⟨k, s', hwrite, hk, hs'⟩ := h s taken bs hs hempty
      obtain ⟨s'', hall, hs''⟩ := ih (bs.drop (k + 1)).length
        (by rw [List.length_drop]; omega) _ hs' rfl
      refine ⟨s'', ?_, ?_⟩
      · rw [ByteSink.writeAll, if_neg hempty, hwrite]
        exact hall
      · rwa [List.append_assoc, List.take_append_drop] at hs''

theorem ByteSource.readUpTo_gives {source : ByteSource σ} {holds : σ → Bytes → Prop}
    (h : source.Gives holds) (n : Nat) {s : σ} {rest : Bytes} (hs : holds s rest) :
    ∃ s', source.readUpTo n s = (.ok (rest.take n), s') ∧ holds s' (rest.drop n) := by
  induction n using Nat.strongRecOn generalizing s rest with
  | ind n ih =>
    by_cases hzero : n = 0
    · subst hzero
      refine ⟨s, ?_, hs⟩
      rw [ByteSource.readUpTo, if_pos rfl]
      rfl
    · obtain ⟨got, s', hread, ⟨more, rfl⟩, hlen, hend, hs'⟩ := h s rest n hs (by omega)
      rw [List.drop_left] at hs'
      cases got with
      | nil =>
        have hmore : more = [] := hend rfl
        subst hmore
        refine ⟨s', ?_, by simpa using hs'⟩
        rw [ByteSource.readUpTo, if_neg hzero, hread]
        simp
      | cons b bs =>
        obtain ⟨s'', hnext, hs''⟩ := ih (n - (bs.length + 1)) (by omega) hs'
        rw [List.length_cons] at hlen
        refine ⟨s'', ?_, ?_⟩
        · rw [ByteSource.readUpTo, if_neg hzero, hread]
          simp only [hnext]
          rw [List.take_append, List.take_of_length_le (show (b :: bs).length ≤ n from hlen),
            List.length_cons]
        · rwa [List.drop_append, List.drop_of_length_le (show (b :: bs).length ≤ n from hlen),
            List.length_cons, List.nil_append]

/-- Reading exactly so many octets fails only where there are fewer. -/
theorem ByteSource.readExact_gives {source : ByteSource σ} {holds : σ → Bytes → Prop}
    (h : source.Gives holds) (n : Nat) {s : σ} {rest : Bytes} (hs : holds s rest) :
    ∃ s', source.readExact n s
        = (if rest.length < n then .error .shortRead else .ok (rest.take n), s') ∧
      holds s' (rest.drop n) := by
  obtain ⟨s', hread, hs'⟩ := readUpTo_gives h n hs
  refine ⟨s', ?_, hs'⟩
  have hlen : (rest.take n).length < n ↔ rest.length < n := by
    rw [List.length_take]
    omega
  rw [ByteSource.readExact, hread]
  by_cases hshort : rest.length < n
  · simp only [if_pos hshort, if_pos (hlen.2 hshort)]
  · simp only [if_neg hshort, if_neg (fun h => hshort (hlen.1 h))]

/-! ### Memory -/

theorem takes_memory : ByteSink.memory.Takes Eq := by
  rintro s taken bs rfl hne
  obtain ⟨b, r, rfl⟩ := List.exists_cons_of_ne_nil hne
  refine ⟨r.length, s ++ (b :: r), rfl, Nat.lt_succ_self _, ?_⟩
  rw [List.take_of_length_le (show (b :: r).length ≤ r.length + 1 from Nat.le_refl _)]

theorem gives_memory : ByteSource.memory.Gives Eq := by
  rintro s rest n rfl hn
  refine ⟨s.take n, s.drop n, rfl, List.take_prefix n s, List.length_take_le n s, ?_, ?_⟩
  · intro h
    rcases List.take_eq_nil_iff.1 h with h | h
    · omega
    · exact h
  · exact (Bytes.drop_length_take s n).symm

end ExternalSort.Storage
