/-
Names of spill files are fresh.

The directories of the operator take turns with the requests, whatever comes of them; the
files are numbered by the requests that succeed.  Two counts are kept for that, and each is
what it is said to be.  No name is given twice: the number is in the name, whatever text
stands behind it and whichever directory it is in, and two spellings of one directory do not
make two names of one.  The directory of a name is there when the name is given; a cleanup
does not change that, because what it removed, or failed to remove, is made again.
-/
import ExternalSort.Proofs.Storage.History

namespace ExternalSort.Storage.Site

open FileTree

variable {s : Site} {ops : List Operation} {x : Step} {i : Nat} {p : Path}

/-! ### Names that were given -/

/-- The texts behind the numbers have no slash. -/
def Plain (ops : List Operation) : Prop := ∀ extra, .name extra ∈ ops → Area.Plain extra

/-- The names that are given have numbers from a certain one on, and lie in their directories. -/
theorem numbered (hroots : s.area.roots ≠ []) (hplain : Plain ops)
    (hp : p ∈ (history ops s).filterMap Step.path?) : ∃ n extra l, s.area.given ≤ n ∧
      p.destination = l ++ [Area.fileName n extra] := by
  obtain ⟨x, hx, hpath⟩ := List.mem_filterMap.1 hp
  obtain ⟨extra, root, -, hop, rfl⟩ := path_of_step ((alike_before hx).roots ▸ hroots) hpath
  obtain ⟨i, hi⟩ := List.mem_iff_getElem?.1 hx
  have hgiven := (counts_before hroots hi).2
  refine ⟨x.before.area.given, extra, root.destination, by omega, ?_⟩
  exact Area.destination_fileName (hplain extra (hop ▸ operation_mem hx)) root _

/-- **No name is given twice.** -/
theorem pairwise_paths (hroots : s.area.roots ≠ []) (hplain : Plain ops) :
    ((history ops s).filterMap Step.path?).Pairwise fun p q => p.destination ≠ q.destination := by
  induction ops generalizing s with
  | nil => exact .nil
  | cons op ops ih =>
    have hrest := (alike_perform s op).roots ▸ hroots
    have hplain' : Plain ops := fun extra h => hplain extra (List.mem_cons_of_mem _ h)
    rw [history, List.filterMap_cons]
    cases hpath : Step.path? ⟨s, op⟩ with
    | none => exact ih hrest hplain'
    | some p =>
      refine List.pairwise_cons.2 ⟨fun q hq hsame => ?_, ih hrest hplain'⟩
      obtain ⟨extra, root, -, hop, rfl⟩ := path_of_step (x := ⟨s, op⟩) hroots hpath
      obtain ⟨n, extra', l, hn, hq⟩ := numbered hrest hplain' hq
      have hgiven := (counts_step (x := ⟨s, op⟩) hroots).2
      rw [hpath] at hgiven
      rw [Area.destination_fileName (hplain extra (hop ▸ List.mem_cons_self ..)), hq] at hsame
      have hnumber := Area.fileName_injective (List.singleton_inj.1 (List.append_inj' hsame rfl).2)
      have hafter : (s.perform op).2.area.given = s.area.given + 1 := hgiven
      dsimp only at hnumber
      omega

/-! ### Every request -/

/-- A request for a name is the turn of a directory.  It is refused if the directory cannot be
made; or a name in that directory is given, which stands then if the directories that the area
made stood before. -/
theorem request_step (hroots : x.before.area.roots ≠ []) {extra : Option String}
    (hop : x.operation = .name extra) : ∃ root, x.before.area.root? = some root ∧
      ((∃ f, x.answer = .named (.error (.io f)) ∧ (x.before.files.makeAll root).1 = .error f) ∨
        x.answer = .named (.ok (root.join (Area.fileName x.before.area.given extra))) ∧
          (x.before.Standing → root.octets ≠ [] →
            x.after.files.entry? root.destination = some .directory)) := by
  obtain ⟨s, op⟩ := x
  subst hop
  obtain ⟨root, hroot⟩ := root?_of_roots hroots
  have hnaming := nextFile_naming hroot extra
  have hstanding := hnaming.standing
  refine ⟨root, hroot, ?_⟩
  unfold Step.answer Step.after
  simp only [perform]
  generalize s.nextFile extra = left at hnaming hstanding ⊢
  cases hnaming with
  | refused hmake => exact .inl ⟨_, rfl, congrArg Prod.fst hmake⟩
  | known _ | made _ => exact .inr ⟨rfl, fun hs hoctets => (hstanding hs hoctets).2 _ rfl⟩

/-- **Names of spill files are fresh.**  Take an area as it was started, and any history of it:
requests for names, with any texts without a slash; cleanups; and changes of the files by
others, which may make any directory fail to be made.  The area has a directory.  The requests,
counted through from the first, take its directories in turn.  Each is refused with what kept
its directory from being made, or is given a name right below that directory, whose number is
how many were given before; and if nobody but the area removed directories so far, the directory
stands.  All names that are given are different, in whatever way they are spelled, and lead to
different places. -/
theorem names_fresh {config : SpillConfig} {temporary : Path} {t t' : FileTree} {area : Area}
    (hstart : Area.start config temporary t = (.ok area, t')) {ops : List Operation}
    (hplain : Plain ops) :
    let steps := history ops ⟨t', area⟩
    0 < area.roots.length ∧
    (∀ i x extra, steps[i]? = some x → x.operation = .name extra →
      let number := (steps.take i).countP (·.path?.isSome)
      ∃ root, area.roots[(steps.take i).countP Step.isRequest % area.roots.length]? = some root ∧
        ((∃ f, x.answer = .named (.error (.io f)) ∧ (x.before.files.makeAll root).1 = .error f) ∨
          x.answer = .named (.ok (root.join (Area.fileName number extra))) ∧
            (root.join (Area.fileName number extra)).destination
              = root.destination ++ [Area.fileName number extra] ∧
            ((∀ y ∈ steps.take i, y.Spares) →
              x.after.files.entry? root.destination = some .directory))) ∧
    (steps.filterMap Step.path?).Pairwise fun p q =>
      p.same q = false ∧ p.destination ≠ q.destination := by
  intro steps
  have hnew := Area.new_start hstart
  have hroots : area.roots ≠ [] := hnew.roots_ne_nil
  refine ⟨List.length_pos_iff.2 hroots, ?_, ?_⟩
  · intro i x extra hx hop number
    have halike := (alike_before (List.mem_of_getElem? hx)).roots
    obtain ⟨hasked, hgiven⟩ := counts_before (s := ⟨t', area⟩) hroots hx
    rw [hnew.asked, Nat.zero_add] at hasked
    rw [hnew.given, Nat.zero_add] at hgiven
    obtain ⟨root, hroot, hanswer⟩ := request_step (halike ▸ hroots) hop
    rw [Area.root?, halike, hasked] at hroot
    rw [hgiven] at hanswer
    have hplace := Area.destination_fileName
      (hplain extra (hop ▸ operation_mem (List.mem_of_getElem? hx))) root number
    refine ⟨root, hroot,
      hanswer.imp_right fun ⟨hpath, hstands⟩ => ⟨hpath, hplace, fun hspares => ?_⟩⟩
    refine hstands (standing_before hroots hnew.octets_ne_nil ?_ hx hspares)
      (hnew.octets_ne_nil root (List.mem_of_getElem? hroot))
    exact fun made hmade => nomatch (show made ∈ [] from hnew.created ▸ hmade)
  · refine (pairwise_paths hroots hplain).imp fun hne => ⟨?_, hne⟩
    exact Bool.eq_false_iff.2 fun hsame => hne (Path.destination_of_same hsame)

/-- Two spill directories. -/
def pair : SpillConfig := ⟨[.ofText "d", .ofText "e"], "x", 16, .none⟩

/-- Somebody puts a file in the way of the second. -/
def block (t : FileTree) : FileTree := t.insert [Text.Utf8.encode "e"] (.file 7)

/-- Five requests for names, with a cleanup among them and a file put in the way. -/
def errands : List Operation :=
  [.name none, .name (some "1"), .cleanup, .meddle block, .name none, .name none, .name none]

theorem plain_errands : Plain errands := by
  intro extra h e he
  simp only [errands, List.mem_cons, List.not_mem_nil, Operation.name.injEq, reduceCtorEq, or_false,
    false_or] at h
  rcases h with rfl | rfl | rfl | rfl | rfl <;> cases he
  decide

/-- Two directories take turns; the second cannot be made any more once it was cleaned up.  Its
turn passes and leaves no gap in the numbers. -/
theorem names_past_block : ∃ area t', Area.start pair ⟨[]⟩ .empty = (.ok area, t') ∧
    Plain errands ∧
    let steps := history errands ⟨t', area⟩
    steps.filterMap Step.path?
      = [.ofText "d/x/spill0", .ofText "e/x/spill1_1", .ofText "d/x/spill2", .ofText "d/x/spill3"] ∧
    (steps.filterMap Step.path?).Pairwise (fun p q =>
      p.same q = false ∧ p.destination ≠ q.destination) ∧
    ∃ x, steps[1]? = some x ∧
      x.after.files.entry? (["e", "x"].map Text.Utf8.encode) = some .directory := by
  obtain ⟨area, t', hstart, hpaths, hsecond, hroots⟩ : ∃ area t',
      Area.start pair ⟨[]⟩ .empty = (.ok area, t') ∧
      (history errands ⟨t', area⟩).filterMap Step.path? = [.ofText "d/x/spill0",
        .ofText "e/x/spill1_1", .ofText "d/x/spill2", .ofText "d/x/spill3"] ∧
      (Step.path? ⟨(perform ⟨t', area⟩ (.name none)).2, .name (some "1")⟩).isSome ∧
      area.roots = [.ofText "d/x", .ofText "e/x"] :=
    ⟨_, _, rfl, by decide +kernel⟩
  obtain ⟨-, hrequests, hdistinct⟩ := names_fresh hstart plain_errands
  refine ⟨area, t', hstart, plain_errands, hpaths, hdistinct, _, rfl, ?_⟩
  obtain ⟨root, hroot, ⟨f, hrefused, -⟩ | ⟨-, -, hstands⟩⟩ := hrequests 1 _ (some "1") rfl rfl
  · unfold Step.path? at hsecond
    rw [hrefused] at hsecond
    exact nomatch hsecond
  · rw [hroots] at hroot
    obtain rfl : .ofText "e/x" = root := Option.some.inj hroot
    refine hstands fun y hy => ?_
    obtain rfl := List.mem_singleton.1 hy
    exact fun change hchange => nomatch hchange

end ExternalSort.Storage.Site
