/-
What stands in a draft, and what the finished buffer shows of it.

A draft grows at its front, so nothing that stands in it ever moves when places are counted
from the end.  Two relations carry that.  `Leads` goes from a draft to one that more was put
in front of.  `Inside` goes from a draft to a finished buffer around it; it also says that
the length counted from the front of the buffer to the end of the draft is a multiple of
every size that the draft was aligned to, which is what makes a place counted from the end
as aligned as a position counted from the front.

`Inside` passes from a draft to every draft that led to it.  So each thing that is written
has one lemma, about the moment at which it is written, and what is put in front of it
later does not matter.
-/
import ExternalSort.FlatTable.Draft
import ExternalSort.Proofs.Bytes
import ExternalSort.Proofs.FlatTable.Position
import ExternalSort.Proofs.Text.Utf8

namespace ExternalSort.FlatTable.Draft

/-! ### Drafts that lead to one another -/

/-- Sizes that something is aligned to. -/
def isGrain (g : Nat) : Prop := g = 1 ∨ g = 2 ∨ g = 4 ∨ g = 8

theorem isGrain_two : isGrain 2 := .inr (.inl rfl)

theorem isGrain_four : isGrain 4 := .inr (.inr (.inl rfl))

theorem isGrain_eight : isGrain 8 := .inr (.inr (.inr rfl))

/-- The octets `xs` stand at a place. -/
def Stands (d : Draft) (place : Nat) (xs : Bytes) : Prop :=
  place ≤ d.size ∧ xs <+: d.octets.drop (d.size - place)

/-- The grain is a size, and the plans that are remembered stand where they are said to. -/
structure Sound (d : Draft) : Prop where
  grain : isGrain d.grain
  plans : ∀ p ∈ d.plans, p.2 % 2 = 0 ∧ d.Stands p.2 p.1

theorem sound_empty : Sound empty := ⟨.inl rfl, by simp [empty]⟩

/-- More was put in front of `d` to get `e`. -/
structure Leads (d e : Draft) : Prop where
  octets : d.octets <:+ e.octets
  grain : d.grain ≤ e.grain
  sound : d.Sound → e.Sound

namespace Leads

theorem refl (d : Draft) : Leads d d := ⟨List.suffix_rfl, Nat.le_refl _, id⟩

theorem trans {d e f : Draft} (h : Leads d e) (h' : Leads e f) : Leads d f :=
  ⟨h.octets.trans h'.octets, Nat.le_trans h.grain h'.grain, fun hs => h'.sound (h.sound hs)⟩

theorem size_le {d e : Draft} (h : Leads d e) : d.size ≤ e.size := by
  rw [d.counted, e.counted]
  exact h.octets.length_le

end Leads

theorem Stands.of_suffix {d e : Draft} {place : Nat} {xs : Bytes} (h : d.Stands place xs)
    (hde : d.octets <:+ e.octets) : e.Stands place xs := by
  obtain ⟨hle, hpre⟩ := h
  obtain ⟨front, hfront⟩ := hde
  have hsize : e.size = front.length + d.size := by
    rw [e.counted, ← hfront, List.length_append, d.counted]
  refine ⟨by omega, ?_⟩
  have hdrop : e.octets.drop (e.size - place) = d.octets.drop (d.size - place) := by
    rw [← hfront, show e.size - place = front.length + (d.size - place) by omega,
      ← List.drop_drop, List.drop_left]
  rwa [hdrop]

theorem Stands.left {d : Draft} {place : Nat} {xs ys : Bytes} (h : d.Stands place (xs ++ ys)) :
    d.Stands place xs :=
  ⟨h.1, (List.prefix_append xs ys).trans h.2⟩

theorem Stands.right {d : Draft} {place : Nat} {xs ys : Bytes} (h : d.Stands place (xs ++ ys)) :
    d.Stands (place - xs.length) ys := by
  obtain ⟨hle, rest, hrest⟩ := h
  have hlen : place = xs.length + ys.length + rest.length := by
    have := congrArg List.length hrest
    rw [List.length_append, List.length_append, List.length_drop, ← d.counted] at this
    omega
  refine ⟨by omega, rest, ?_⟩
  rw [show d.size - (place - xs.length) = d.size - place + xs.length by omega, ← List.drop_drop,
    ← hrest, List.append_assoc, List.drop_left]

/-! ### The finished buffer around a draft -/

/-- A buffer holds a draft; `length` octets go up to the draft's end. -/
structure Inside (d : Draft) (bs : Buffer) (length : Nat) : Prop where
  octets : ∃ front rest, bs.toList = front ++ d.octets ++ rest ∧ length = front.length + d.size
  aligned : ∀ g, isGrain g → g ≤ d.grain → length % g = 0

namespace Inside

variable {d e : Draft} {bs : Buffer} {length : Nat}

theorem of_leads (h : e.Inside bs length) (hde : d.Leads e) : d.Inside bs length := by
  obtain ⟨front, rest, hbs, hlen⟩ := h.octets
  obtain ⟨more, hmore⟩ := hde.octets
  refine ⟨⟨front ++ more, rest, ?_, ?_⟩,
    fun g hg hle => h.aligned g hg (Nat.le_trans hle hde.grain)⟩
  · rw [hbs, ← hmore]
    simp only [List.append_assoc]
  · rw [hlen, e.counted, ← hmore, List.length_append, List.length_append, d.counted]
    omega

theorem size_le (h : d.Inside bs length) : d.size ≤ length := by
  obtain ⟨_, _, _, hlen⟩ := h.octets
  omega

theorem length_le (h : d.Inside bs length) : length ≤ bs.size := by
  obtain ⟨front, rest, hbs, hlen⟩ := h.octets
  have hsize : bs.size = front.length + d.size + rest.length := by
    rw [← Array.length_toList, hbs, List.length_append, List.length_append, d.counted]
  omega

/-- What stands at a place is shown at the position of the place. -/
theorem shows {place : Nat} {xs : Bytes} (h : d.Inside bs length) (hs : d.Stands place xs) :
    Shows bs (length - place) xs := by
  obtain ⟨front, rest, hbs, hlen⟩ := h.octets
  obtain ⟨hle, hpre⟩ := hs
  have hdrop : bs.toList.drop (length - place) = d.octets.drop (d.size - place) ++ rest := by
    have hsplit : length - place = front.length + (d.size - place) := by omega
    rw [hbs, List.append_assoc, hsplit, ← List.drop_drop, List.drop_left,
      List.drop_append_of_le_length (by rw [← d.counted]; omega)]
  rw [Shows, hdrop]
  exact hpre.trans (List.prefix_append _ _)

/-- A place that is a multiple of a size has a position that is one. -/
theorem position_mod {place g : Nat} (h : d.Inside bs length) (hg : isGrain g)
    (hle : g ≤ d.grain) (hmod : place % g = 0) :
    (length - place) % g = 0 := by
  have := h.aligned g hg hle
  exact Nat.mod_eq_zero_of_dvd
    (Nat.dvd_sub (Nat.dvd_of_mod_eq_zero this) (Nat.dvd_of_mod_eq_zero hmod))

end Inside

/-! ### Putting octets in front -/

theorem stands_push (d : Draft) (xs : Bytes) : (d.push xs).Stands (d.push xs).size xs := by
  refine ⟨Nat.le_refl _, ?_⟩
  rw [Nat.sub_self, List.drop_zero]
  exact List.prefix_append _ _

theorem leads_push (d : Draft) (xs : Bytes) : Leads d (d.push xs) := by
  have hsuf : d.octets <:+ (d.push xs).octets := List.suffix_append _ _
  refine ⟨hsuf, Nat.le_refl _, fun hs => ⟨hs.grain, fun p hp => ?_⟩⟩
  obtain ⟨heven, hstands⟩ := hs.plans p hp
  exact ⟨heven, hstands.of_suffix hsuf⟩

theorem isGrain_max {a b : Nat} (ha : isGrain a) (hb : isGrain b) : isGrain (max a b) := by
  rcases Nat.le_total a b with h | h
  · rwa [Nat.max_eq_right h]
  · rwa [Nat.max_eq_left h]

theorem leads_align (d : Draft) (length : Nat) {g : Nat} (hg : isGrain g) :
    Leads d (d.align length g) := by
  have hpush := leads_push d (List.replicate (gap (d.size + length) g) 0)
  refine ⟨hpush.octets, Nat.le_max_left _ _, ?_⟩
  intro hs
  obtain ⟨_, hplans⟩ := hpush.sound hs
  exact ⟨isGrain_max hs.grain hg, hplans⟩

theorem size_push (d : Draft) (xs : Bytes) : (d.push xs).size = xs.length + d.size := rfl

theorem size_align (d : Draft) (length g : Nat) :
    (d.align length g).size = gap (d.size + length) g + d.size := by
  show (List.replicate _ 0).length + d.size = _
  rw [List.length_replicate]

theorem gap_lt {length g : Nat} (hg : 0 < g) : gap length g < g := Nat.mod_lt _ hg

theorem add_gap_mod {length g : Nat} (hg : 0 < g) : (length + gap length g) % g = 0 := by
  have hlt := Nat.mod_lt length hg
  rcases Nat.eq_zero_or_pos (length % g) with h0 | hpos
  · rw [gap, h0, Nat.sub_zero, Nat.mod_self, Nat.add_zero, h0]
  · rw [gap, Nat.mod_eq_of_lt (by omega : g - length % g < g), Nat.add_mod,
      Nat.mod_eq_of_lt (by omega : g - length % g < g), ← Nat.add_sub_assoc (Nat.le_of_lt hlt),
      Nat.add_sub_cancel_left, Nat.mod_self]

theorem gap_eq_zero {length g : Nat} (hmod : length % g = 0) : gap length g = 0 := by
  rw [gap, hmod, Nat.sub_zero, Nat.mod_self]

theorem isGrain.pos {g : Nat} (hg : isGrain g) : 0 < g := by
  unfold isGrain at hg
  omega

theorem size_align_le (d : Draft) (length : Nat) {g : Nat} (hg : isGrain g) :
    (d.align length g).size ≤ d.size + 7 := by
  have hgap : gap (d.size + length) g < g := gap_lt hg.pos
  rw [size_align]
  unfold isGrain at hg
  omega

/-- After aligning, what is put in front next starts at a multiple of the grain. -/
theorem size_align_add_mod (d : Draft) (length : Nat) {g : Nat} (hg : isGrain g) :
    ((d.align length g).size + length) % g = 0 := by
  rw [size_align, show gap (d.size + length) g + d.size + length
    = d.size + length + gap (d.size + length) g by omega]
  exact add_gap_mod hg.pos

/-- Where nothing is missing, aligning puts nothing in front. -/
theorem align_octets {d : Draft} {length g : Nat} (hmod : (d.size + length) % g = 0) :
    (d.align length g).octets = d.octets := by
  show List.replicate (gap (d.size + length) g) 0 ++ d.octets = d.octets
  rw [gap_eq_zero hmod]
  rfl

/-! ### Words and references -/

theorem leads_word (d : Draft) {width : Nat} (value : Nat) (hw : isGrain width) :
    Leads d (d.word width value) :=
  (leads_align d width hw).trans (leads_push _ _)

theorem place_word (d : Draft) (width value : Nat) :
    (d.word width value).place = (d.word width value).size := rfl

theorem size_word (d : Draft) (width value : Nat) :
    (d.word width value).size = (d.align width width).size + width := by
  show (Bytes.Little.ofNat width value).length + _ = _
  rw [Bytes.Little.length_ofNat]
  exact Nat.add_comm _ _

theorem size_word_mod (d : Draft) {width : Nat} (value : Nat) (hw : isGrain width) :
    (d.word width value).size % width = 0 := by
  rw [size_word]
  exact size_align_add_mod d width hw

theorem stands_word (d : Draft) (width value : Nat) :
    (d.word width value).Stands (d.word width value).place (Bytes.Little.ofNat width value) :=
  stands_push _ _

theorem leads_link (d : Draft) (target : Nat) : Leads d (d.link target) :=
  (leads_align d 4 isGrain_four).trans (leads_push _ _)

theorem place_link (d : Draft) (target : Nat) : (d.link target).place = (d.link target).size := rfl

theorem size_link (d : Draft) (target : Nat) :
    (d.link target).size = (d.align 4 4).size + 4 := by
  show (Bytes.Little.ofNat 4 _).length + _ = _
  rw [Bytes.Little.length_ofNat]
  exact Nat.add_comm _ _

theorem size_link_mod (d : Draft) (target : Nat) : (d.link target).size % 4 = 0 := by
  rw [size_link]
  exact size_align_add_mod d 4 isGrain_four

theorem stands_link (d : Draft) (target : Nat) :
    (d.link target).Stands (d.link target).place
      (Bytes.Little.ofNat 4 ((d.link target).size - target)) := by
  rw [size_link]
  exact stands_push _ _

theorem grain_word (d : Draft) (width value : Nat) : width ≤ (d.word width value).grain :=
  Nat.le_max_right _ _

theorem grain_link (d : Draft) (target : Nat) : 4 ≤ (d.link target).grain := Nat.le_max_right _ _

variable {bs : Buffer} {length : Nat}

/-- A word is read where it was written. -/
theorem Inside.word {d : Draft} {width value : Nat} (hw : isGrain width)
    (h : (d.word width value).Inside bs length) :
    alignedWord? bs (length - (d.word width value).place) width
      = some (value % Nat.pow 256 width) :=
  (h.shows (stands_word d width value)).alignedWord
    (h.position_mod hw (grain_word d width value) (size_word_mod d value hw))

/-- A reference leads to the position of the place that it was written for. -/
theorem Inside.link {d : Draft} {target : Nat} (ht : target ≤ d.size)
    (hlen : length < Nat.pow 256 4) (h : (d.link target).Inside bs length) :
    target? bs (length - (d.link target).place) = some (length - target) := by
  have hsize := h.size_le
  have hle : d.size ≤ (d.link target).size := (leads_link d target).size_le
  have hmod := h.position_mod isGrain_four (grain_link d target)
    (size_link_mod d target)
  have hword := (h.shows (stands_link d target)).alignedWord hmod
  rw [place_link, Nat.mod_eq_of_lt (by omega : (d.link target).size - target < Nat.pow 256 4)]
    at hword
  rw [target?, place_link, hword, Option.map_some]
  congr 1
  omega

/-! ### Texts and lists

All of them are a body with a word of four octets in front.  The body is aligned so that the
word has nothing to fill up, and the two stand together.
-/

/-- The body and its count stand next to each other. -/
theorem stands_word_push {d : Draft} {body : Bytes} {count : Nat}
    (hmod : (d.push body).size % 4 = 0) :
    ((d.push body).word 4 count).Stands ((d.push body).word 4 count).place
      (Bytes.Little.ofNat 4 count ++ body) := by
  have hmod' : ((d.push body).size + 4) % 4 = 0 := by omega
  have hoct : ((d.push body).word 4 count).octets
      = Bytes.Little.ofNat 4 count ++ (body ++ d.octets) := by
    show Bytes.Little.ofNat 4 count ++ ((d.push body).align 4 4).octets = _
    rw [align_octets hmod']
    rfl
  refine ⟨Nat.le_refl _, ?_⟩
  rw [place_word, Nat.sub_self, List.drop_zero, hoct, ← List.append_assoc]
  exact List.prefix_append _ _

theorem leads_text (d : Draft) (xs : Bytes) : Leads d (d.text xs) :=
  ((leads_align d (xs.length + 1) isGrain_four).trans (leads_push _ _)).trans
    (leads_word _ _ isGrain_four)

/-- A text is read where it was written. -/
theorem Inside.text {d : Draft} {s : String} (hlen : length < Nat.pow 256 4)
    (h : (d.text (Text.Utf8.encode s)).Inside bs length) :
    text? bs (length - (d.text (Text.Utf8.encode s)).place) = some s := by
  generalize hxs : Text.Utf8.encode s = xs at h ⊢
  have hmod : ((d.align (xs.length + 1) 4).push (xs ++ [0])).size % 4 = 0 := by
    rw [size_push, List.length_append, List.length_singleton, Nat.add_comm]
    exact size_align_add_mod d (xs.length + 1) isGrain_four
  have hpos : (length - (d.text xs).place) % 4 = 0 :=
    h.position_mod isGrain_four (grain_word _ 4 xs.length)
      (size_word_mod ((d.align (xs.length + 1) 4).push (xs ++ [0])) xs.length isGrain_four)
  have hshows : Shows bs (length - (d.text xs).place)
      (Bytes.Little.ofNat 4 xs.length ++ (xs ++ [0])) := h.shows (stands_word_push hmod)
  have hcount : xs.length < Nat.pow 256 4 := by
    have hword := (leads_word ((d.align (xs.length + 1) 4).push (xs ++ [0])) xs.length
      isGrain_four).size_le
    have hsize : (d.text xs).size ≤ length := h.size_le
    rw [size_push, List.length_append, List.length_singleton] at hword
    have : (d.text xs).size
      = (((d.align (xs.length + 1) 4).push (xs ++ [0])).word 4 xs.length).size := rfl
    omega
  generalize length - (d.text xs).place = q at hpos hshows ⊢
  have hlist : list? bs q 1 1 = some (q + 4, xs.length) := by
    rw [← List.append_assoc] at hshows
    exact hshows.left.list hpos (Nat.mod_one _) (Nat.mul_one _).symm hcount
  have hbody := hshows.right
  rw [Bytes.Little.length_ofNat] at hbody
  have hwindow : window bs (q + 4) xs.length = xs := hbody.left.window_eq
  have hzero : bs[q + 4 + xs.length]? = some 0 := hbody.right.octet
  rw [text?, hlist]
  show (do
    let s ← Text.Utf8.decode? (window bs (q + 4) xs.length)
    if bs[q + 4 + xs.length]? = some 0 then some s else none) = some s
  rw [hwindow, hzero, ← hxs, Text.Utf8.decode?_encode]
  rfl

theorem leads_structs (d : Draft) {grain : Nat} (items : List Bytes) (hg : isGrain grain) :
    Leads d (d.structs grain items) :=
  ((leads_align d items.flatten.length (isGrain_max hg isGrain_four)).trans
    (leads_push _ _)).trans (leads_word _ _ isGrain_four)

/-- A list of structs takes at least the octets of its items. -/
theorem flatten_le_structs (d : Draft) (grain : Nat) (items : List Bytes) :
    items.flatten.length ≤ (d.structs grain items).size := by
  have hword : ((d.align items.flatten.length (max grain 4)).push items.flatten).size
      ≤ (d.structs grain items).size := (leads_word _ _ isGrain_four).size_le
  rw [size_push] at hword
  omega

/-- A list of structs takes the octets of its items, its count, and what is filled up. -/
theorem size_structs_le (d : Draft) {grain : Nat} (items : List Bytes) (hg : isGrain grain) :
    (d.structs grain items).size ≤ d.size + items.flatten.length + 18 := by
  show (((d.align items.flatten.length (max grain 4)).push items.flatten).word 4 items.length).size
    ≤ _
  have hfront := size_align_le d items.flatten.length (isGrain_max hg isGrain_four)
  have hcount := size_align_le
    ((d.align items.flatten.length (max grain 4)).push items.flatten) 4 isGrain_four
  rw [size_push] at hcount
  rw [size_word]
  omega

/-- A list of structs of equal width shows its count and its items. -/
theorem Inside.structs {d : Draft} {grain width : Nat} {items : List Bytes}
    (hg : isGrain grain) (hwidth : ∀ x ∈ items, x.length = width)
    (hlen : items.length < Nat.pow 256 4) (h : (d.structs grain items).Inside bs length) :
    list? bs (length - (d.structs grain items).place) width 1
        = some (length - (d.structs grain items).place + 4, items.length) ∧
      Shows bs (length - (d.structs grain items).place + 4) items.flatten := by
  have hmax := isGrain_max hg isGrain_four
  have hmod : ((d.align items.flatten.length (max grain 4)).push items.flatten).size % 4 = 0 := by
    have hgrain := size_align_add_mod d items.flatten.length hmax
    rw [size_push, Nat.add_comm]
    refine Nat.mod_eq_zero_of_dvd (Nat.dvd_trans ?_ (Nat.dvd_of_mod_eq_zero hgrain))
    rcases hg with rfl | rfl | rfl | rfl <;> decide
  have hpos : (length - (d.structs grain items).place) % 4 = 0 :=
    h.position_mod isGrain_four (grain_word _ 4 items.length)
      (size_word_mod _ items.length isGrain_four)
  have hshows : Shows bs (length - (d.structs grain items).place)
      (Bytes.Little.ofNat 4 items.length ++ items.flatten) := h.shows (stands_word_push hmod)
  have hflat := Bytes.length_flatten_of_width hwidth
  have hright := hshows.right
  rw [Bytes.Little.length_ofNat] at hright
  exact ⟨hshows.list hpos (Nat.mod_one _) hflat hlen, hright⟩

/-! The references of a list are written from the last to the first, so the first stands in
front. -/

theorem leads_linked (d : Draft) (targets : List Nat) :
    Leads d (targets.foldr (fun t d => d.link t) d) := by
  induction targets with
  | nil => exact .refl d
  | cons t r ih => exact ih.trans (leads_link _ t)

theorem size_linked {d : Draft} (targets : List Nat) (hmod : d.size % 4 = 0) :
    (targets.foldr (fun t d => d.link t) d).size = d.size + 4 * targets.length := by
  induction targets with
  | nil => rfl
  | cons t r ih =>
    rw [List.foldr_cons, size_link, size_align, gap_eq_zero (by rw [ih]; omega), ih,
      List.length_cons]
    omega

/-- The `i`-th reference of a list leads to its target. -/
theorem Inside.linked {d : Draft} {targets : List Nat} (hmod : d.size % 4 = 0)
    (htargets : ∀ t ∈ targets, t ≤ d.size) (hlen : length < Nat.pow 256 4)
    (h : (targets.foldr (fun t d => d.link t) d).Inside bs length) (i : Nat)
    (hi : i < targets.length) :
    target? bs (length - (d.size + 4 * targets.length) + 4 * i) = some (length - targets[i]) := by
  induction targets generalizing i with
  | nil => exact absurd hi (Nat.not_lt_zero i)
  | cons t r ih =>
    have hin : (r.foldr (fun t d => d.link t) d).Inside bs length := h.of_leads (leads_link _ t)
    have hsize := size_linked (d := d) (t :: r) hmod
    have hle := h.size_le
    rw [hsize] at hle
    cases i with
    | zero =>
      have ht : t ≤ (r.foldr (fun t d => d.link t) d).size :=
        Nat.le_trans (htargets t (List.mem_cons_self ..)) (leads_linked d r).size_le
      have hlink := Inside.link ht hlen h
      rw [place_link] at hlink
      rw [← hsize]
      exact hlink
    | succ i =>
      have := ih (fun t' ht' => htargets t' (List.mem_cons_of_mem _ ht')) hin i
        (Nat.lt_of_succ_lt_succ hi)
      rw [List.getElem_cons_succ, ← this, List.length_cons]
      rw [List.length_cons] at hle
      congr 1
      omega

theorem leads_links (d : Draft) (targets : List Nat) : Leads d (d.links targets) :=
  ((leads_align d (4 * targets.length) isGrain_four).trans
    (leads_linked _ targets)).trans (leads_word _ _ isGrain_four)

/-- A list of references shows its count, and each reference leads to its target. -/
theorem Inside.links {d : Draft} {targets : List Nat} (htargets : ∀ t ∈ targets, t ≤ d.size)
    (hlen : length < Nat.pow 256 4) (h : (d.links targets).Inside bs length) :
    list? bs (length - (d.links targets).place) 4 4
        = some (length - (d.links targets).place + 4, targets.length) ∧
      ∀ (i : Nat) (hi : i < targets.length),
        target? bs (length - (d.links targets).place + 4 + 4 * i) = some (length - targets[i]) := by
  generalize hbase : d.align (4 * targets.length) 4 = base at *
  have hmod : base.size % 4 = 0 := by
    have := size_align_add_mod d (4 * targets.length) isGrain_four
    rw [hbase] at this
    omega
  have hbody := size_linked targets hmod
  have hplace : (d.links targets).place = base.size + 4 * targets.length + 4 := by
    show ((List.foldr (fun t d => d.link t) (d.align (4 * targets.length) 4) targets).word 4
      targets.length).place = _
    rw [hbase, place_word, size_word, size_align, gap_eq_zero (by rw [hbody]; omega), hbody]
    omega
  have hword : (d.links targets)
      = (targets.foldr (fun t d => d.link t) base).word 4 targets.length := by
    rw [← hbase]
    rfl
  have hin : (targets.foldr (fun t d => d.link t) base).Inside bs length := by
    rw [hword] at h
    exact h.of_leads (leads_word _ _ isGrain_four)
  have hsize : base.size + 4 * targets.length + 4 ≤ length := by
    have := h.size_le
    rwa [hword, ← place_word, ← hword, hplace] at this
  have hcount : alignedWord? bs (length - (d.links targets).place) 4 = some targets.length := by
    rw [hword] at h ⊢
    rw [Inside.word isGrain_four h, Nat.mod_eq_of_lt (by omega)]
  have hbase_le : ∀ t ∈ targets, t ≤ base.size := by
    intro t ht
    exact Nat.le_trans (htargets t ht) (hbase ▸ (leads_align d _ isGrain_four).size_le)
  have hle := h.length_le
  refine ⟨?_, ?_⟩
  · rw [list?, hcount]
    show (if (length - (d.links targets).place + 4) % 4 = 0 ∧
      length - (d.links targets).place + 4 + targets.length * 4 ≤ bs.size then _ else none) = _
    have hpos : (length - (d.links targets).place) % 4 = 0 := by
      rw [hword] at h ⊢
      exact h.position_mod isGrain_four (grain_word _ 4 _) (size_word_mod _ _ isGrain_four)
    rw [if_pos ⟨by omega, by omega⟩]
  · intro i hi
    rw [← Inside.linked hmod hbase_le hlen hin i hi, hplace]
    congr 1
    omega

end ExternalSort.FlatTable.Draft
