/-
Lists of steps that may fail.

A step that gives a result passes it on, and one that fails ends everything.  So what comes
out of several steps came out of each of them, and a list of steps all of which succeed
gives the list of their results.
-/
namespace ExternalSort.Sequence

universe u

variable {α β : Type} {ε : Type u}

theorem ok_bind {ε : Type} (a : α) (f : α → Except ε β) : (Except.ok a >>= f) = f a := rfl

/-- What comes out of two steps in a row came out of the second. -/
theorem bind_eq_ok {ε : Type} {x : Except ε α} {f : α → Except ε β} {b : β} :
    (x >>= f) = .ok b ↔ ∃ a, x = .ok a ∧ f a = .ok b := by
  cases x with
  | error e => exact ⟨fun h => (nomatch h), fun ⟨_, h, _⟩ => nomatch h⟩
  | ok a =>
    refine ⟨fun h => ⟨a, rfl, h⟩, fun ⟨a', ha, h⟩ => ?_⟩
    obtain rfl : a = a' := Except.ok.inj ha
    exact h

theorem mapM_option {f : α → Option β} {g : α → β} {xs : List α}
    (h : ∀ x ∈ xs, f x = some (g x)) : xs.mapM f = some (xs.map g) := by
  induction xs with
  | nil => rfl
  | cons x r ih =>
    rw [List.mapM_cons, h x (List.mem_cons_self ..),
      ih fun y hy => h y (List.mem_cons_of_mem _ hy)]
    rfl

/-- Steps that all succeed give as many results as there are steps, each its own. -/
theorem getElem_of_mapM_eq_ok {ε : Type} {f : α → Except ε β} {xs : List α} {ys : List β}
    (h : xs.mapM f = .ok ys) : ys.length = xs.length ∧
      ∀ (i : Nat) (hi : i < xs.length) (hi' : i < ys.length), f xs[i] = .ok ys[i] := by
  induction xs generalizing ys with
  | nil =>
    obtain rfl : [] = ys := Except.ok.inj h
    exact ⟨rfl, fun i hi _ => absurd hi (Nat.not_lt_zero i)⟩
  | cons x r ih =>
    rw [List.mapM_cons] at h
    obtain ⟨y, hy, hrest⟩ := bind_eq_ok.1 h
    obtain ⟨zs, hzs, hcons⟩ := bind_eq_ok.1 hrest
    obtain rfl : y :: zs = ys := Except.ok.inj hcons
    obtain ⟨hlen, hitems⟩ := ih hzs
    refine ⟨congrArg (· + 1) hlen, ?_⟩
    intro i hi hi'
    cases i with
    | zero => exact hy
    | succ i => exact hitems i (Nat.lt_of_succ_lt_succ hi) (Nat.lt_of_succ_lt_succ hi')

/-- A list of results is what steps come to, if each step comes to its own. -/
theorem mapM_eq_ok {ε : Type u} {f : α → Except ε β} {xs : List α} {ys : List β}
    (hlen : ys.length = xs.length)
    (h : ∀ (i : Nat) (hi : i < xs.length) (hi' : i < ys.length), f xs[i] = .ok ys[i]) :
    xs.mapM f = .ok ys := by
  induction xs generalizing ys with
  | nil =>
    rw [List.length_eq_zero_iff.1 hlen]
    rfl
  | cons x r ih =>
    cases ys with
    | nil => exact absurd hlen (by simp)
    | cons y zs =>
      have hfirst : f x = .ok y := h 0 (Nat.zero_lt_succ _) (Nat.zero_lt_succ _)
      have hrest := ih (Nat.succ.inj hlen) fun i hi hi' =>
        h (i + 1) (Nat.succ_lt_succ hi) (Nat.succ_lt_succ hi')
      rw [List.mapM_cons, hfirst, hrest]
      rfl

/-- Steps none of which fails give the list of what they come to. -/
theorem mapM_of_ok {ε : Type u} {f : α → Except ε β} {g : α → β} {xs : List α}
    (h : ∀ x ∈ xs, f x = .ok (g x)) : xs.mapM f = .ok (xs.map g) := by
  refine mapM_eq_ok (List.length_map ..) ?_
  intro i hi hi'
  rw [List.getElem_map]
  exact h _ (List.getElem_mem hi)

/-- Steps succeed together exactly if each of them does. -/
theorem mapM_ok_iff {ε : Type} {f : α → Except ε β} {xs : List α} :
    (∃ ys, xs.mapM f = .ok ys) ↔ ∀ x ∈ xs, ∃ y, f x = .ok y := by
  constructor
  · rintro ⟨ys, h⟩ x hx
    obtain ⟨hlen, hitems⟩ := getElem_of_mapM_eq_ok h
    obtain ⟨i, hi, rfl⟩ := List.getElem_of_mem hx
    exact ⟨_, hitems i hi (hlen ▸ hi)⟩
  · intro h
    induction xs with
    | nil => exact ⟨[], rfl⟩
    | cons x r ih =>
      obtain ⟨y, hy⟩ := h x (List.mem_cons_self ..)
      obtain ⟨ys, hys⟩ := ih fun x hx => h x (List.mem_cons_of_mem _ hx)
      refine ⟨y :: ys, ?_⟩
      rw [List.mapM_cons, hy, hys]
      rfl

/-- What is made of a result is there exactly if the result is. -/
theorem map_ok_iff {ε : Type} {f : α → β} {x : Except ε α} :
    (∃ b, x.map f = .ok b) ↔ ∃ a, x = .ok a := by
  cases x with
  | error e => exact ⟨fun ⟨_, h⟩ => (nomatch h), fun ⟨_, h⟩ => nomatch h⟩
  | ok a => exact ⟨fun _ => ⟨a, rfl⟩, fun _ => ⟨f a, rfl⟩⟩

/-- Steps that fail together fail with what one of them failed with. -/
theorem mapM_eq_error {ε : Type} {f : α → Except ε β} {xs : List α} {e : ε}
    (h : xs.mapM f = .error e) : ∃ x ∈ xs, f x = .error e := by
  induction xs with
  | nil => exact nomatch h
  | cons x r ih =>
    rw [List.mapM_cons] at h
    cases hx : f x with
    | error e' =>
      rw [hx] at h
      obtain rfl : e' = e := Except.error.inj h
      exact ⟨x, List.mem_cons_self .., hx⟩
    | ok y =>
      rw [hx, ok_bind] at h
      cases hr : r.mapM f with
      | error e' =>
        rw [hr] at h
        obtain rfl : e' = e := Except.error.inj h
        obtain ⟨x', hmem, hx'⟩ := ih hr
        exact ⟨x', List.mem_cons_of_mem _ hmem, hx'⟩
      | ok ys =>
        rw [hr] at h
        exact nomatch h

/-- The items of two lists at one place stand together in their zip. -/
theorem mem_zip {xs : List α} {ys : List β} {i : Nat} (hi : i < xs.length) (hi' : i < ys.length) :
    (xs[i], ys[i]) ∈ xs.zip ys :=
  List.mem_iff_getElem.2 ⟨i, by rw [List.length_zip]; omega, List.getElem_zip⟩

/-- Lists of one length have an item beside each item. -/
theorem exists_mem_zip {xs : List α} {ys : List β} (hlen : ys.length = xs.length) {x : α}
    (hx : x ∈ xs) : ∃ y, (x, y) ∈ xs.zip ys := by
  obtain ⟨i, hi, rfl⟩ := List.getElem_of_mem hx
  exact ⟨_, mem_zip hi (hlen ▸ hi)⟩

/-- Steps come to a list exactly if each comes to the item in its place. -/
theorem mapM_eq_ok_iff {ε : Type} {f : α → Except ε β} {xs : List α} {ys : List β} :
    xs.mapM f = .ok ys ↔ ys.length = xs.length ∧ ∀ p ∈ xs.zip ys, f p.1 = .ok p.2 := by
  constructor
  · intro h
    obtain ⟨hlen, hitems⟩ := getElem_of_mapM_eq_ok h
    refine ⟨hlen, fun p hp => ?_⟩
    obtain ⟨i, hi, rfl⟩ := List.getElem_of_mem hp
    rw [List.getElem_zip]
    rw [List.length_zip] at hi
    exact hitems i (by omega) (by omega)
  · rintro ⟨hlen, hitems⟩
    exact mapM_eq_ok hlen fun i hi hi' => hitems _ (mem_zip hi hi')

/-- Numbered steps give a list whose items are known by their numbers. -/
theorem mapM_range {n : Nat} {f : Nat → Option β} {ys : List β} (hlen : ys.length = n)
    (h : ∀ (i : Nat) (hi : i < ys.length), f i = some ys[i]) : (List.range n).mapM f = some ys := by
  subst hlen
  cases ys with
  | nil => rfl
  | cons y r =>
    have hmap := mapM_option (f := f) (g := fun i => (y :: r).getD i y)
      fun i (hi : i ∈ List.range (y :: r).length) => by
        have hi' := List.mem_range.1 hi
        rw [h i hi', List.getD_eq_getElem?_getD, List.getElem?_eq_getElem hi', Option.getD_some]
    rw [hmap]
    congr 1
    refine List.ext_getElem (by simp) ?_
    intro i hi hi'
    rw [List.getElem_map, List.getElem_range, List.getD_eq_getElem?_getD,
      List.getElem?_eq_getElem hi', Option.getD_some]

end ExternalSort.Sequence
