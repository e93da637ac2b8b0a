/-
Channels on a spill area that may fail.

A channel may stand in front of a spill area and let its calls fail at will, at any time and
in any pattern.  A call then comes to what the area itself replies, or it fails: refused
before the area did anything, or spoiled when the work was done.  Sinks may take less than
they are offered and sources be asked for less, and where a sink fails its file may hold
anything.  All that is said of the files of an area holds for every such channel.
-/
import ExternalSort.Proofs.Storage.Fair
import ExternalSort.Proofs.Storage.Tenancy
import ExternalSort.Run.Closing
import ExternalSort.Storage.Faulty

namespace ExternalSort.Storage

open Fault

variable {ω α : Type} {site : ω → Site} {s : ω}

/-- A call comes to what the area replies, or it fails, with the work done or not. -/
inductive Relayed (site : ω → Site) (s : ω) (reply : Except Fault α × Site) :
    Except Fault α × ω → Prop where
  | done {t : ω} : site t = reply.2 → Relayed site s reply (reply.1, t)
  | spoiled {f : Fault} {t : ω} : site t = reply.2 → Relayed site s reply (.error f, t)
  | refused {f : Fault} {t : ω} : site t = site s → Relayed site s reply (.error f, t)

theorem Relayed.of_ok {reply : Except Fault α × Site} {a : α} {t : ω}
    (h : Relayed site s reply (.ok a, t)) : reply = (.ok a, site t) := by
  generalize hleft : (Except.ok a, t) = left at h
  cases h with
  | done ht =>
    obtain ⟨ha, rfl⟩ := Prod.mk.inj hleft
    exact Prod.ext ha.symm ht.symm
  | spoiled _ => exact nomatch (Prod.mk.inj hleft).1
  | refused _ => exact nomatch (Prod.mk.inj hleft).1

theorem Relayed.left {reply : Except Fault α × Site} {left : Except Fault α × ω}
    (h : Relayed site s reply left) : site left.2 = reply.2 ∨ site left.2 = site s := by
  cases h with
  | done ht | spoiled ht => exact .inl ht
  | refused ht => exact .inr ht

/-- Nothing is other than before but what one file holds. -/
structure Site.Overwritten (n : Nat) (s s' : Site) : Prop where
  files : FileTree.Rewritten n s.files s'.files
  area : s'.area = s.area

theorem Site.Overwritten.of_eq {n : Nat} {s s' : Site} (h : s' = s) :
    Site.Overwritten n s s' := by
  subst h
  exact ⟨.refl _, rfl⟩

/-- A sink takes a part of what it is offered, or nothing, or fails, whatever it has put into
its file by then. -/
inductive Accepts (site : ω → Site) (bs : Bytes) (k : FileSink) (s : ω) :
    Except IoFault Nat × FileSink × ω → Prop where
  | part {part : Bytes} {t : ω} : part <+: bs →
      site t = { site s with files := (k.write part (site s).files).2 } →
      Accepts site bs k s (.ok part.length, (k.write part (site s).files).1, t)
  | nothing {t : ω} : site t = site s → Accepts site bs k s (.ok 0, k, t)
  | failed {f : IoFault} {k' : FileSink} {t : ω} : Site.Overwritten k.file (site s) (site t) →
      k'.file = k.file → k'.written = k.written → Accepts site bs k s (.error f, k', t)

/-- A sink puts what it holds into its file, or fails, whatever it has put there by then. -/
inductive Empties (site : ω → Site) (k : FileSink) (s : ω) : Except Fault Unit × ω → Prop where
  | done {t : ω} : site t = { site s with files := (k.flush (site s).files).2 } →
      Empties site k s (.ok (), t)
  | failed {f : Fault} {t : ω} : Site.Overwritten k.file (site s) (site t) →
      Empties site k s (.error f, t)

/-- A source gives what it has, as far as it is asked for it, or fails. -/
inductive Yields (site : ω → Site) (n : Nat) (r : FileSource) (s : ω) :
    Except IoFault Bytes × FileSource × ω → Prop where
  | part {m : Nat} {t : ω} : m ≤ n → site t = site s →
      Yields site n r s ((r.read m (site s).files).1, (r.read m (site s).files).2, t)
  | failed {f : IoFault} {r' : FileSource} {t : ω} : site t = site s → r'.file = r.file →
      r'.consumed = r.consumed → Yields site n r s (.error f, r', t)

/-- A channel on the spill area that `site` finds in its state. -/
structure Backed (c : Channel ω FileSink FileSource) (site : ω → Site) : Prop where
  openOutput : ∀ p s, Relayed site s (Site.channel.openOutput p (site s)) (c.openOutput p s)
  openInput : ∀ p s, Relayed site s (Site.channel.openInput p (site s)) (c.openInput p s)
  delete : ∀ p s, Relayed site s (Site.channel.delete p (site s)) (c.delete p s)
  tallyWrite : ∀ n s, site (c.tallyWrite n s) = Site.channel.tallyWrite n (site s)
  tallyRead : ∀ n s, site (c.tallyRead n s) = Site.channel.tallyRead n (site s)
  write : ∀ bs k s, Accepts site bs k s (c.sink.write bs (k, s))
  written : c.written = FileSink.written
  closeSink : ∀ k s, Empties site k s (c.closeSink k s)
  read : ∀ n r s, Yields site n r s (c.source.read n (r, s))
  consumed : c.consumed = FileSource.consumed
  closeSource : ∀ r s, Relayed site s (Site.channel.closeSource r (site s)) (c.closeSource r s)

/-- A spill area is behind itself. -/
theorem Site.backed : Backed Site.channel id where
  openOutput _ _ := .done rfl
  openInput _ _ := .done rfl
  delete _ _ := .done rfl
  tallyWrite _ _ := rfl
  tallyRead _ _ := rfl
  write bs k s := .part (t := { s with files := (k.write bs s.files).2 }) (List.prefix_refl bs) rfl
  written := rfl
  closeSink k s := .done (t := { s with files := (k.flush s.files).2 }) rfl
  read n _ _ := .part (m := n) (Nat.le_refl n) rfl
  consumed := rfl
  closeSource _ _ := .done rfl

/-! ### What calls do to the area -/

section Calls

variable {c : Channel ω FileSink FileSource}

theorem FileSource.file_read (r : FileSource) (n : Nat) (t : FileTree) :
    (r.read n t).2.file = r.file := by
  unfold FileSource.read
  split
  · split
    · rfl
    · dsimp only
      split <;> rfl
  · rfl

/-- Nothing is other than before but what one file holds, and the totals. -/
structure Site.Rewritten (n : Nat) (s s' : Site) : Prop where
  files : FileTree.Rewritten n s.files s'.files
  config : s'.area.config = s.area.config
  given : s'.area.given = s.area.given

theorem Site.Rewritten.of_eq {n : Nat} {s s' : Site} (h : s' = s) : Site.Rewritten n s s' := by
  subst h
  exact ⟨.refl _, rfl, rfl⟩

theorem Site.Rewritten.trans {n : Nat} {s s' s'' : Site} (h : Site.Rewritten n s s')
    (h' : Site.Rewritten n s' s'') : Site.Rewritten n s s'' :=
  ⟨h.files.trans h'.files, h'.config.trans h.config, h'.given.trans h.given⟩

theorem Site.Overwritten.rewritten {n : Nat} {s s' : Site} (h : Site.Overwritten n s s') :
    Site.Rewritten n s s' := by
  refine ⟨h.files, ?_, ?_⟩ <;> rw [h.area]

theorem Backed.written_file (h : Backed c site) (bs : Bytes) (k : FileSink) (s : ω) :
    Site.Rewritten k.file (site s) (site (c.sink.write bs (k, s)).2.2) ∧
      (c.sink.write bs (k, s)).2.1.file = k.file := by
  have haccepts := h.write bs k s
  generalize c.sink.write bs (k, s) = left at haccepts ⊢
  cases haccepts with
  | @part part t _ ht =>
    obtain ⟨hfiles, hfile⟩ := FileTree.Rewritten.write k part (site s).files
    refine ⟨?_, hfile⟩
    rw [ht]
    exact ⟨hfiles, rfl, rfl⟩
  | nothing ht => exact ⟨.of_eq ht, rfl⟩
  | failed ht hfile _ => exact ⟨ht.rewritten, hfile⟩

theorem Backed.read_site (h : Backed c site) (n : Nat) (r : FileSource) (s : ω) :
    site (c.source.read n (r, s)).2.2 = site s ∧ (c.source.read n (r, s)).2.1.file = r.file := by
  have hyields := h.read n r s
  generalize c.source.read n (r, s) = left at hyields ⊢
  cases hyields with
  | part _ ht => exact ⟨ht, r.file_read _ _⟩
  | failed ht hfile _ => exact ⟨ht, hfile⟩

theorem Backed.openInput_site (h : Backed c site) (p : Path) (s : ω) :
    site (c.openInput p s).2 = site s := by
  have hsame : (Site.openInput p (site s)).2 = site s := by
    unfold Site.openInput
    split <;> rfl
  rcases (h.openInput p s).left with hleft | hleft
  · exact hleft.trans hsame
  · exact hleft

/-- A file that is opened to be written was made anew, or nothing was done. -/
theorem Site.openOutput_made (p : Path) (s : Site) :
    (∃ f, Site.openOutput p s = (.error f, s)) ∨ ∃ loc n files,
      FileTree.Made p loc n s.files files ∧
      Site.openOutput p s = (.ok (.start n s.area.config.bufferSize), { s with files }) := by
  unfold Site.openOutput
  cases hcreate : s.files.create p with
  | mk outcome files =>
    cases outcome with
    | error f =>
      obtain rfl := FileTree.create_refused hcreate
      exact .inl ⟨_, rfl⟩
    | ok n =>
      obtain ⟨loc, hmade⟩ := FileTree.create_made hcreate
      exact .inr ⟨loc, n, files, hmade, rfl⟩

theorem Backed.openOutput_made (h : Backed c site) (p : Path) (s : ω) :
    (site (c.openOutput p s).2).area = (site s).area ∧
      ((∃ f, (c.openOutput p s).1 = .error f) ∧ site (c.openOutput p s).2 = site s ∨
        ∃ loc n, FileTree.Made p loc n (site s).files (site (c.openOutput p s).2).files ∧
          ∀ k, (c.openOutput p s).1 = .ok k → k = .start n (site s).area.config.bufferSize) := by
  have hrelayed := h.openOutput p s
  change Relayed site s (Site.openOutput p (site s)) _ at hrelayed
  generalize c.openOutput p s = left at hrelayed ⊢
  rcases Site.openOutput_made p (site s) with ⟨f, hopen⟩ | ⟨loc, n, files, hmade, hopen⟩
  · rw [hopen] at hrelayed
    cases hrelayed with
    | done ht | spoiled ht | refused ht =>
      dsimp only at ht ⊢
      rw [ht]
      exact ⟨rfl, .inl ⟨⟨_, rfl⟩, rfl⟩⟩
  · rw [hopen] at hrelayed
    cases hrelayed with
    | done ht =>
      dsimp only at ht ⊢
      rw [ht]
      exact ⟨rfl, .inr ⟨loc, n, hmade, fun k hk => (Except.ok.inj hk).symm⟩⟩
    | spoiled ht =>
      dsimp only at ht ⊢
      rw [ht]
      exact ⟨rfl, .inr ⟨loc, n, hmade, fun k hk => (nomatch hk)⟩⟩
    | refused ht =>
      dsimp only at ht ⊢
      rw [ht]
      exact ⟨rfl, .inl ⟨⟨_, rfl⟩, rfl⟩⟩

/-- What retiring a sink leaves is what the tally and the closing leave. -/
theorem Backed.retireSink_site (h : Backed c site) (k : FileSink) (s : ω) :
    Site.Rewritten k.file (site s) (site (Run.retireSink c k s).2) := by
  have htally := h.tallyWrite (c.written k) s
  have hempties := h.closeSink k (c.tallyWrite (c.written k) s)
  unfold Run.retireSink
  generalize c.tallyWrite (c.written k) s = t at htally hempties ⊢
  have htallied : Site.Rewritten k.file (site s) (site t) := by
    rw [htally]
    exact ⟨.refl _, rfl, rfl⟩
  have hclosed : Site.Rewritten k.file (site t) (site (c.closeSink k t).2) := by
    generalize c.closeSink k t = left at hempties ⊢
    cases hempties with
    | done hu =>
      dsimp only
      rw [hu]
      exact ⟨.flush k _, rfl, rfl⟩
    | failed hu => exact hu.rewritten
  exact htallied.trans hclosed

theorem Backed.retireSource_site (h : Backed c site) (r : FileSource) (s : ω) :
    site (Run.retireSource c r s).2
      = { site s with area := (site s).area.addConsumed (c.consumed r) } := by
  have htally := h.tallyRead (c.consumed r) s
  rcases (h.closeSource r (c.tallyRead (c.consumed r) s)).left with hleft | hleft <;>
    rw [Run.retireSource, hleft, htally] <;> rfl

end Calls

/-! ### Channels that fail on demand -/

section Faulty

variable {c : Channel ω FileSink FileSource}

theorem relayed_guarded (call : Call) {f : ω → Except Fault α × ω} {reply : Except Fault α × Site}
    {s : Faulty ω} (h : Relayed site s.inner reply (f s.inner)) :
    Relayed (site ·.inner) s reply (Faulty.guarded call f s) := by
  have hthrough : (s.note call).through f
      = ((f s.inner).1, { s.note call with inner := (f s.inner).2 }) := rfl
  unfold Faulty.guarded
  dsimp only
  split
  · exact .refused rfl
  · rw [hthrough]
    generalize f s.inner = left at h ⊢
    cases h with
    | done ht => exact .done ht
    | spoiled ht => exact .spoiled ht
    | refused ht => exact .refused ht

theorem relayed_spoiled (call : Call) (text : String) {f : ω → Except Fault Unit × ω}
    {reply : Except Fault Unit × Site} {s : Faulty ω}
    (h : Relayed site s.inner reply (f s.inner)) :
    Relayed (site ·.inner) s reply (Faulty.spoiled call text f s) := by
  have hthrough : (s.note call).through f
      = ((f s.inner).1, { s.note call with inner := (f s.inner).2 }) := rfl
  unfold Faulty.spoiled
  dsimp only
  rw [hthrough]
  generalize f s.inner = left at h ⊢
  cases h with
  | spoiled ht => exact .spoiled ht
  | refused ht => exact .refused ht
  | done ht =>
    obtain ⟨outcome, after⟩ := reply
    cases outcome with
    | error e => exact .spoiled ht
    | ok u =>
      dsimp only
      split
      · exact .spoiled ht
      · exact Relayed.done (α := Unit) ht

theorem empties_spoiled (text : String) {k : FileSink} {s : Faulty ω}
    (h : Empties site k s.inner (c.closeSink k s.inner)) :
    Empties (site ·.inner) k s (Faulty.spoiled .closeSink text (c.closeSink k) s) := by
  have hthrough : (s.note .closeSink).through (c.closeSink k)
      = ((c.closeSink k s.inner).1,
        { s.note .closeSink with inner := (c.closeSink k s.inner).2 }) := rfl
  unfold Faulty.spoiled
  dsimp only
  rw [hthrough]
  generalize c.closeSink k s.inner = left at h ⊢
  cases h with
  | failed ht => exact .failed ht
  | done ht =>
    dsimp only
    split
    · refine .failed ⟨?_, ?_⟩ <;> dsimp only <;> rw [ht]
      exact .flush k _
    · exact .done ht

/-- **To make a channel on a spill area fail leaves it on the area.** -/
theorem Faulty.backed (h : Backed c site) : Backed (Faulty.channel c) (site ·.inner) where
  openOutput p s := relayed_guarded .openOutput (h.openOutput p s.inner)
  openInput p s := relayed_guarded .openInput (h.openInput p s.inner)
  delete p s := relayed_guarded .delete (h.delete p s.inner)
  tallyWrite n s := h.tallyWrite n s.inner
  tallyRead n s := h.tallyRead n s.inner
  written := h.written
  consumed := h.consumed
  closeSink k s := empties_spoiled _ (h.closeSink k s.inner)
  closeSource r s := relayed_spoiled .closeSource _ (h.closeSource r s.inner)
  write bs k s := by
    show Accepts _ bs k s (Faulty.write c.sink bs k s)
    unfold Faulty.write
    split
    · split
      · exact .nothing rfl
      · exact .failed (.of_eq rfl) rfl rfl
    · dsimp only
      generalize Faulty.limited _ s.knobs.writeBudget = n
      have hinner := h.write (bs.take n) k s.inner
      generalize c.sink.write (bs.take n) (k, s.inner) = left at hinner ⊢
      cases hinner with
      | part hpart ht => exact .part (hpart.trans (List.take_prefix n bs)) ht
      | nothing ht => exact .nothing ht
      | failed ht hfile hwritten => exact .failed ht hfile hwritten
  read n r s := by
    show Yields _ n r s (Faulty.read c.source n r s)
    unfold Faulty.read
    split
    · exact .failed rfl rfl rfl
    · have hle := Nat.le_trans (Faulty.limited_le (Faulty.limited n s.knobs.chunk) s.knobs.readBudget)
        (Faulty.limited_le n s.knobs.chunk)
      generalize Faulty.limited _ s.knobs.readBudget = m at hle ⊢
      have hinner := h.read m r s.inner
      generalize c.source.read m (r, s.inner) = left at hinner ⊢
      cases hinner with
      | failed ht hfile hconsumed => exact .failed ht hfile hconsumed
      | @part m' t hm ht =>
        have hpart : ∀ u : Faulty ω, site u.inner = site s.inner →
            Yields (fun x : Faulty ω => site x.inner) n r s
              ((r.read m' (site s.inner).files).1, (r.read m' (site s.inner).files).2, u) :=
          fun _ hu => .part (Nat.le_trans hm hle) hu
        generalize r.read m' (site s.inner).files = given at hpart ⊢
        obtain ⟨outcome, r'⟩ := given
        cases outcome with
        | error f => exact hpart _ ht
        | ok got => exact hpart _ ht

end Faulty
end ExternalSort.Storage
