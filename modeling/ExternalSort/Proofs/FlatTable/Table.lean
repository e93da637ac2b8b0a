/-
Tables, read where they were written.

A table begins with a reference to its plan, and the plan says how far from there each field
stands.  The plan may be one that another table left behind; the reference then leads
backwards.  Either way the plan stands somewhere, word for word, and that is all that
reading a field needs: `Shown` says that every field that was written leads to what was
written, and that every other field is absent.
-/
import ExternalSort.Proofs.Bytes
import ExternalSort.Proofs.FlatTable.Draft

namespace ExternalSort.FlatTable

/-- What the value of a field shows at its position. -/
def Entry.Reads (bs : Buffer) (length position : Nat) : Entry → Prop
  | .word width value => alignedWord? bs position width = some (value % Nat.pow 256 width)
  | .link place => target? bs position = some (length - place)

/-- The table `t` at a position has the fields that were written, and no others. -/
structure Shown (bs : Buffer) (length position : Nat) (fields : List (Nat × Entry))
    (t : Table) : Prop where
  stands : Table.at? bs position = some t
  octets : t.octets = bs
  absent : ∀ slot, fields.lookup slot = none → t.field? slot = none
  present : ∀ slot e, fields.lookup slot = some e →
    ∃ p, t.field? slot = some p ∧ e.Reads bs length p

namespace Draft

/-- A value can be written: its width is a size, and what it refers to stands already. -/
def Holds (d : Draft) : Entry → Prop
  | .word width _ => isGrain width
  | .link place => place ≤ d.size

theorem Holds.of_size_le {d d' : Draft} {e : Entry} (h : d.Holds e) (hle : d.size ≤ d'.size) :
    d'.Holds e := by
  cases e with
  | word width value => exact h
  | link place => exact Nat.le_trans h hle

theorem leads_entry {d : Draft} {e : Entry} (h : d.Holds e) : Leads d (d.entry e) := by
  cases e with
  | word width value => exact leads_word d value h
  | link place => exact leads_link d place

theorem place_entry (d : Draft) (e : Entry) : (d.entry e).place = (d.entry e).size := by
  cases e <;> rfl

/-- A value takes at least one octet, and with what is filled up at most fifteen. -/
theorem size_entry {d : Draft} {e : Entry} (h : d.Holds e) :
    d.size < (d.entry e).size ∧ (d.entry e).size ≤ d.size + 15 := by
  cases e with
  | word width value =>
    have hgap : gap (d.size + width) width < width := gap_lt (isGrain.pos h)
    show d.size < (d.word width value).size ∧ (d.word width value).size ≤ d.size + 15
    rw [size_word, size_align]
    unfold Holds isGrain at h
    omega
  | link place =>
    have hgap : gap (d.size + 4) 4 < 4 := gap_lt (by decide)
    show d.size < (d.link place).size ∧ (d.link place).size ≤ d.size + 15
    rw [size_link, size_align]
    omega

theorem Inside.entry {d : Draft} {e : Entry} {bs : Buffer} {length : Nat} (h : d.Holds e)
    (hlen : length < Nat.pow 256 4) (hin : (d.entry e).Inside bs length) :
    e.Reads bs length (length - (d.entry e).place) := by
  cases e with
  | word width value => exact Inside.word h hin
  | link place => exact Inside.link h hlen hin

/-! ### The fields of a table -/

theorem leads_entries (fields : List (Nat × Entry)) {d : Draft} (h : ∀ f ∈ fields, d.Holds f.2) :
    Leads d (entries fields d).1 := by
  induction fields generalizing d with
  | nil => exact .refl d
  | cons f r ih =>
    have hf := h f (List.mem_cons_self ..)
    have hlead := leads_entry hf
    exact hlead.trans (ih fun g hg =>
      (h g (List.mem_cons_of_mem _ hg)).of_size_le hlead.size_le)

theorem size_entries (fields : List (Nat × Entry)) {d : Draft} (h : ∀ f ∈ fields, d.Holds f.2) :
    (entries fields d).1.size ≤ d.size + 15 * fields.length := by
  induction fields generalizing d with
  | nil => exact Nat.le_refl _
  | cons f r ih =>
    have hf := h f (List.mem_cons_self ..)
    have hrest := ih fun g hg =>
      (h g (List.mem_cons_of_mem _ hg)).of_size_le (leads_entry hf).size_le
    have hsize := (size_entry hf).2
    show (entries r (d.entry f.2)).1.size ≤ _
    rw [List.length_cons]
    omega

/-- A field that was not written has no place. -/
theorem lookup_entries_none (fields : List (Nat × Entry)) (d : Draft) {slot : Nat}
    (h : fields.lookup slot = none) : (entries fields d).2.lookup slot = none := by
  induction fields generalizing d with
  | nil => rfl
  | cons f r ih =>
    obtain ⟨key, e⟩ := f
    rw [List.lookup_cons] at h
    show ((key, (d.entry e).place) :: (entries r (d.entry e)).2).lookup slot = none
    rw [List.lookup_cons]
    cases hkey : slot == key with
    | true => rw [hkey] at h; exact absurd h (by simp)
    | false => rw [hkey] at h; exact ih (d.entry e) h

/-- A field that was written has a place, and shows its value there. -/
theorem lookup_entries (fields : List (Nat × Entry)) {d : Draft} (h : ∀ f ∈ fields, d.Holds f.2)
    {slot : Nat} {e : Entry} (hslot : fields.lookup slot = some e) :
    ∃ p, (entries fields d).2.lookup slot = some p ∧ d.size < p ∧ p ≤ (entries fields d).1.size ∧
      ∀ bs length, length < Nat.pow 256 4 → (entries fields d).1.Inside bs length →
        e.Reads bs length (length - p) := by
  induction fields generalizing d with
  | nil => exact absurd hslot (by simp)
  | cons f r ih =>
    obtain ⟨key, x⟩ := f
    have hx : d.Holds x := h (key, x) (List.mem_cons_self ..)
    have hrest : ∀ g ∈ r, (d.entry x).Holds g.2 := by
      intro g hg
      exact (h g (List.mem_cons_of_mem _ hg)).of_size_le (leads_entry hx).size_le
    have hleads := leads_entries r hrest
    rw [List.lookup_cons] at hslot
    show ∃ p, ((key, (d.entry x).place) :: (entries r (d.entry x)).2).lookup slot = some p ∧
      d.size < p ∧ p ≤ (entries r (d.entry x)).1.size ∧ _
    rw [List.lookup_cons]
    cases hkey : slot == key with
    | true =>
      rw [hkey] at hslot
      obtain rfl : x = e := Option.some.inj hslot
      refine ⟨_, rfl, ?_, ?_, ?_⟩
      · rw [place_entry]
        exact (size_entry hx).1
      · rw [place_entry]
        exact hleads.size_le
      · intro bs length hlen hin
        exact Inside.entry hx hlen (hin.of_leads hleads)
    | false =>
      rw [hkey] at hslot
      obtain ⟨p, hp, hlt, hle, hreads⟩ := ih hrest hslot
      exact ⟨p, hp, Nat.lt_trans (size_entry hx).1 hlt, hle, hreads⟩

theorem entries_slots (fields : List (Nat × Entry)) (d : Draft) :
    (entries fields d).2.map Prod.fst = fields.map Prod.fst := by
  induction fields generalizing d with
  | nil => rfl
  | cons f r ih =>
    show f.1 :: (entries r (d.entry f.2)).2.map Prod.fst = f.1 :: r.map Prod.fst
    rw [ih]

/-! ### Plans -/

/-- How many slots a plan has: up to the last one that is used. -/
def slotCount (places : List (Nat × Nat)) : Nat := places.foldl (fun n p => max n (p.1 + 1)) 0

theorem foldl_max_le (places : List (Nat × Nat)) {n bound : Nat} (hn : n ≤ bound)
    (h : ∀ p ∈ places, p.1 < bound) : places.foldl (fun n p => max n (p.1 + 1)) n ≤ bound := by
  induction places generalizing n with
  | nil => exact hn
  | cons p r ih =>
    have hp : p.1 < bound := h p (List.mem_cons_self ..)
    exact ih (Nat.max_le.2 ⟨hn, hp⟩) fun q hq => h q (List.mem_cons_of_mem _ hq)

theorem le_foldl_max (places : List (Nat × Nat)) (n : Nat) :
    n ≤ places.foldl (fun n p => max n (p.1 + 1)) n ∧
      ∀ p ∈ places, p.1 < places.foldl (fun n p => max n (p.1 + 1)) n := by
  induction places generalizing n with
  | nil => exact ⟨Nat.le_refl _, fun p hp => absurd hp (List.not_mem_nil)⟩
  | cons p r ih =>
    obtain ⟨hle, hmem⟩ := ih (max n (p.1 + 1))
    have hn := Nat.le_max_left n (p.1 + 1)
    have hp := Nat.le_max_right n (p.1 + 1)
    refine ⟨Nat.le_trans hn hle, ?_⟩
    intro q hq
    rcases List.mem_cons.1 hq with rfl | hq
    · exact Nat.lt_of_lt_of_le hp hle
    · exact hmem q hq

theorem mem_of_lookup {α β : Type} [BEq α] [LawfulBEq α] {pairs : List (α × β)} {a : α} {b : β}
    (h : pairs.lookup a = some b) : (a, b) ∈ pairs := by
  obtain ⟨front, rest, rfl, -⟩ := List.lookup_eq_some_iff.1 h
  exact List.mem_append_right front (List.mem_cons_self ..)

theorem lt_slotCount {places : List (Nat × Nat)} {slot p : Nat}
    (h : places.lookup slot = some p) : slot < slotCount places :=
  (le_foldl_max places 0).2 _ (mem_of_lookup h)

/-- The offsets of the slots, as they stand in a plan. -/
def offsets (start : Nat) (places : List (Nat × Nat)) : List Bytes :=
  (List.range (slotCount places)).map fun i =>
    Bytes.Little.ofNat 2 ((places.lookup i).elim 0 fun p => start - p)

theorem plan_eq (start size : Nat) (places : List (Nat × Nat)) :
    plan start size places = Bytes.Little.ofNat 2 (4 + 2 * slotCount places) ++
      Bytes.Little.ofNat 2 size ++ (offsets start places).flatten := by
  rw [offsets, ← List.flatMap_def]
  rfl

theorem length_plan (start size : Nat) (places : List (Nat × Nat)) :
    (plan start size places).length = 4 + 2 * slotCount places := by
  have hflat : (offsets start places).flatten.length = slotCount places * 2 := by
    have hwidth : ∀ xs ∈ offsets start places, xs.length = 2 := by simp [offsets]
    rw [Bytes.length_flatten_of_width hwidth, offsets, List.length_map, List.length_range]
  rw [plan_eq, List.length_append, List.length_append, Bytes.Little.length_ofNat,
    Bytes.Little.length_ofNat, hflat]
  omega

variable {bs : Buffer} {q start size : Nat} {places : List (Nat × Nat)}

/-- The length of a plan is read from its first word. -/
theorem plan_length_word (h : Shows bs q (plan start size places))
    (hslots : slotCount places ≤ 16) : wordAt? bs q 2 = some (4 + 2 * slotCount places) := by
  rw [plan_eq] at h
  have hfits : 36 < 256 * 256 := by decide
  rw [h.left.left.word, Nat.mod_eq_of_lt (Nat.lt_of_le_of_lt (by omega) hfits)]

/-- The offset of a slot is read from the slot's word. -/
theorem plan_slot_word (h : Shows bs q (plan start size places)) {i : Nat}
    (hi : i < slotCount places) :
    wordAt? bs (q + 4 + 2 * i) 2
      = some (((places.lookup i).elim 0 fun p => start - p) % Nat.pow 256 2) := by
  rw [plan_eq] at h
  have hlen : i < (offsets start places).length := by simpa [offsets] using hi
  have hpart := h.right.part (2 * i) 2
  rw [Bytes.flatten_part (by simp [offsets]) i hlen, List.length_append,
    Bytes.Little.length_ofNat, Bytes.Little.length_ofNat] at hpart
  have hword : (offsets start places)[i]
      = Bytes.Little.ofNat 2 ((places.lookup i).elim 0 fun p => start - p) := by
    simp [offsets]
  rw [hword] at hpart
  exact hpart.word

/-! ### Whole tables -/

section Table

variable (d : Draft) (fields : List (Nat × Entry))

/-- The fields of a table, filled up to where the reference to the plan goes. -/
def tableBody : Draft := (entries fields d).1.align 4 4

/-- The place of a table. -/
def tableStart : Nat := (tableBody d fields).size + 4

/-- The plan that a table asks for. -/
def ownPlan : Bytes :=
  plan (tableStart d fields) (tableStart d fields - d.size) (entries fields d).2

/-- The reference from a table to its plan. -/
def planLink (start place : Nat) : Bytes :=
  Bytes.Little.ofNat 4 ((Binary.twoTo 32 + place - start) % Binary.twoTo 32)

/-- A table takes the plan that stands already, or puts its own in front. -/
theorem table_cases :
    (∃ place, (tableBody d fields).plans.lookup (ownPlan d fields) = some place ∧
      d.table fields = (tableBody d fields).push (planLink (tableStart d fields) place)) ∨
    d.table fields =
      { (tableBody d fields).push (ownPlan d fields ++ planLink (tableStart d fields)
          (tableStart d fields + (ownPlan d fields).length)) with
        place := tableStart d fields
        plans := (ownPlan d fields, tableStart d fields + (ownPlan d fields).length) ::
          (tableBody d fields).plans } := by
  unfold table
  dsimp only
  split
  · rename_i place hplace
    exact .inl ⟨place, hplace, rfl⟩
  · exact .inr rfl

theorem length_planLink (start place : Nat) : (planLink start place).length = 4 :=
  Bytes.Little.length_ofNat ..

theorem tableStart_mod : tableStart d fields % 4 = 0 :=
  size_align_add_mod (entries fields d).1 4 isGrain_four

theorem place_table : (d.table fields).place = tableStart d fields := by
  rcases table_cases d fields with ⟨place, -, h⟩ | h
  · rw [h]
    show (planLink _ _).length + _ = _
    rw [length_planLink, tableStart, Nat.add_comm]
  · rw [h]

variable {d fields}

theorem leads_tableBody (h : ∀ f ∈ fields, d.Holds f.2) : Leads d (tableBody d fields) :=
  (leads_entries fields h).trans (leads_align _ 4 isGrain_four)

/-- The plan and the reference to it, where both are put in front together. -/
theorem stands_ownPlan (d : Draft) (fields : List (Nat × Entry)) :
    ((tableBody d fields).push (ownPlan d fields ++ planLink (tableStart d fields)
      (tableStart d fields + (ownPlan d fields).length))).Stands
        (tableStart d fields + (ownPlan d fields).length)
        (ownPlan d fields ++ planLink (tableStart d fields)
          (tableStart d fields + (ownPlan d fields).length)) := by
  have hpush := stands_push (tableBody d fields) (ownPlan d fields ++
    planLink (tableStart d fields) (tableStart d fields + (ownPlan d fields).length))
  rw [size_push, List.length_append, length_planLink] at hpush
  rw [show tableStart d fields + (ownPlan d fields).length
    = (ownPlan d fields).length + 4 + (tableBody d fields).size by rw [tableStart]; omega] at hpush ⊢
  exact hpush

theorem ownPlan_even (d : Draft) (fields : List (Nat × Entry)) :
    (tableStart d fields + (ownPlan d fields).length) % 2 = 0 := by
  have hstart := tableStart_mod d fields
  rw [ownPlan, length_plan]
  omega

theorem body_leads_table (d : Draft) (fields : List (Nat × Entry)) :
    Leads (tableBody d fields) (d.table fields) := by
  rcases table_cases d fields with ⟨place, -, h⟩ | h
  · rw [h]
    exact leads_push _ _
  · rw [h]
    -- The plan is put in front together with the reference, and is remembered.
    have hpush := leads_push (tableBody d fields) (ownPlan d fields ++
      planLink (tableStart d fields) (tableStart d fields + (ownPlan d fields).length))
    refine ⟨hpush.octets, hpush.grain, fun hs => ⟨hs.grain, fun p hp => ?_⟩⟩
    rcases List.mem_cons.1 hp with rfl | hp
    · exact ⟨ownPlan_even d fields, (stands_ownPlan d fields).left⟩
    · exact (hpush.sound hs).plans p hp

theorem place_le_table (d : Draft) (fields : List (Nat × Entry)) :
    (d.table fields).place ≤ (d.table fields).size := by
  rw [place_table]
  rcases table_cases d fields with ⟨place, -, h⟩ | h
  · rw [h]
    exact Nat.le_of_eq (by rw [size_push, length_planLink, tableStart, Nat.add_comm])
  · rw [h]
    show _ ≤ (ownPlan d fields ++ planLink _ _).length + (tableBody d fields).size
    rw [List.length_append, length_planLink, tableStart]
    omega

theorem leads_table (h : ∀ f ∈ fields, d.Holds f.2) : Leads d (d.table fields) :=
  (leads_tableBody h).trans (body_leads_table d fields)

/-- The plan of a table stands somewhere, and the table refers to it. -/
theorem table_plan (hd : d.Sound) (h : ∀ f ∈ fields, d.Holds f.2) :
    ∃ place, place % 2 = 0 ∧ (d.table fields).Stands place (ownPlan d fields) ∧
      (d.table fields).Stands (tableStart d fields) (planLink (tableStart d fields) place) := by
  rcases table_cases d fields with ⟨place, hplace, htable⟩ | htable
  · have hbody := (leads_tableBody h).sound hd
    obtain ⟨heven, hstands⟩ := hbody.plans (ownPlan d fields, place) (mem_of_lookup hplace)
    refine ⟨place, heven, hstands.of_suffix (body_leads_table d fields).octets, ?_⟩
    have hpush := stands_push (tableBody d fields) (planLink (tableStart d fields) place)
    rwa [size_push, length_planLink, Nat.add_comm, ← htable] at hpush
  · have hstands := stands_ownPlan d fields
    have hlink := hstands.right
    rw [Nat.add_sub_cancel] at hlink
    refine ⟨_, ownPlan_even d fields, ?_, ?_⟩
    · rw [htable]
      exact hstands.left
    · rw [htable]
      exact hlink

end Table

/-! ### Reading a table back -/

/-- How many slots the plans of a table written here may have. -/
def greatestSlots : Nat := 16

theorem slotCount_entries {d : Draft} {fields : List (Nat × Entry)}
    (hslots : ∀ f ∈ fields, f.1 < greatestSlots) : slotCount (entries fields d).2 ≤ 16 := by
  refine foldl_max_le _ (Nat.zero_le _) ?_
  intro p hp
  have hmem : p.1 ∈ fields.map Prod.fst := by
    rw [← entries_slots fields d]
    exact List.mem_map_of_mem hp
  obtain ⟨f, hf, hfp⟩ := List.mem_map.1 hmem
  exact hfp ▸ hslots f hf

/-- The most octets that a table written here takes: its fields with what is filled up before
each, the plan, and the reference to it. -/
def greatestTable : Nat := 15 * greatestSlots + 7 + 4 + (4 + 2 * greatestSlots)

theorem size_table_le {d : Draft} {fields : List (Nat × Entry)} (h : ∀ f ∈ fields, d.Holds f.2)
    (hslots : ∀ f ∈ fields, f.1 < greatestSlots) (hcount : fields.length ≤ greatestSlots) :
    (d.table fields).size ≤ d.size + greatestTable := by
  have hentries := size_entries fields h
  have hbody : (tableBody d fields).size ≤ (entries fields d).1.size + 7 :=
    size_align_le _ 4 isGrain_four
  have hplan : (ownPlan d fields).length ≤ 4 + 2 * greatestSlots := by
    have := slotCount_entries (d := d) hslots
    rw [ownPlan, length_plan, greatestSlots]
    omega
  have hown : (d.table fields).size ≤ (tableBody d fields).size + (ownPlan d fields).length + 4 := by
    rcases table_cases d fields with ⟨place, -, htable⟩ | htable
    · rw [htable, size_push, length_planLink]
      omega
    · rw [htable]
      show (ownPlan d fields ++ planLink _ _).length + (tableBody d fields).size ≤ _
      rw [List.length_append, length_planLink]
      omega
  unfold greatestTable
  omega

/-- A slot that no field uses has no word in the plan, or a zero. -/
theorem field?_of_lookup_none {t : Table} {start size : Nat} {places : List (Nat × Nat)}
    (hplan : Shows t.octets t.plan (plan start size places))
    (hlen : t.planLength = 4 + 2 * slotCount places) {slot : Nat}
    (hslot : places.lookup slot = none) : t.field? slot = none := by
  rw [Table.field?]
  split
  · rw [plan_slot_word hplan (by omega), hslot]
    rfl
  · rfl

/-- A slot that a field uses leads from the table to the field. -/
theorem field?_of_lookup {t : Table} {start size p : Nat} {places : List (Nat × Nat)}
    (hplan : Shows t.octets t.plan (plan start size places))
    (hlen : t.planLength = 4 + 2 * slotCount places) {slot : Nat}
    (hslot : places.lookup slot = some p) (hp : p < start) (hoffset : start - p < 2 ^ 16) :
    t.field? slot = some (t.position + (start - p)) := by
  have hlt := lt_slotCount hslot
  have hword : wordAt? t.octets (t.plan + 4 + 2 * slot) 2 = some (start - p) := by
    rw [plan_slot_word hplan hlt, hslot]
    exact congrArg some (Nat.mod_eq_of_lt hoffset)
  obtain ⟨n, hn⟩ : ∃ n, start - p = n + 1 := ⟨start - p - 1, by omega⟩
  rw [Table.field?, if_pos (by omega), hword, hn]
  rfl

/-- The words in front of the fields are read: the reference to the plan, which may lead
forwards or backwards, and the length of the plan. -/
theorem Inside.table_at {d : Draft} {fields : List (Nat × Entry)} {bs : Buffer} {length : Nat}
    (hd : d.Sound) (h : ∀ f ∈ fields, d.Holds f.2) (hslots : ∀ f ∈ fields, f.1 < greatestSlots)
    (hlen : length < 2 ^ 31) (hin : (d.table fields).Inside bs length) :
    ∃ place, Shows bs (length - place) (ownPlan d fields) ∧
      Table.at? bs (length - (d.table fields).place) = some ⟨bs, length - tableStart d fields,
        length - place, 4 + 2 * slotCount (entries fields d).2⟩ := by
  obtain ⟨place, heven, hplan, hlink⟩ := table_plan hd h
  have hgrain : 4 ≤ (d.table fields).grain :=
    Nat.le_trans (Nat.le_max_right _ 4) (body_leads_table d fields).grain
  have hsize := hin.size_le
  have hplace : place ≤ length := Nat.le_trans hplan.1 hsize
  have hstart : tableStart d fields ≤ length := Nat.le_trans hlink.1 hsize
  have hword : alignedWord? bs (length - tableStart d fields) 4
      = some ((2 ^ 32 + place - tableStart d fields) % 2 ^ 32) := by
    have hmod := hin.position_mod isGrain_four hgrain (tableStart_mod d fields)
    have hread := (hin.shows hlink).alignedWord hmod
    rwa [show Binary.twoTo 32 = 2 ^ 32 from rfl, show Nat.pow 256 4 = 2 ^ 32 from rfl,
      Nat.mod_mod] at hread
  have hback := Bytes.Little.toInt_ofNat_sub (a := place) (b := tableStart d fields)
    (by omega) (by omega)
  have hpos : ((length - tableStart d fields : Nat) : Int)
      - ((place : Int) - tableStart d fields) = (length - place : Nat) := by omega
  have hshows := hin.shows hplan
  have hplanLen : (ownPlan d fields).length = 4 + 2 * slotCount (entries fields d).2 :=
    length_plan ..
  have hplanSize := hshows.le_size (List.ne_nil_of_length_pos (by omega))
  have hlenWord : alignedWord? bs (length - place) 2
      = some (4 + 2 * slotCount (entries fields d).2) := by
    have hmod := hin.position_mod isGrain_two (Nat.le_trans (by decide) hgrain) heven
    rw [alignedWord?, if_pos hmod]
    exact plan_length_word hshows (slotCount_entries hslots)
  refine ⟨place, hshows, ?_⟩
  rw [place_table, Table.at?, hword]
  show (if ((length - tableStart d fields : Nat) : Int) - Bytes.Little.toInt 4
      (Bytes.Little.ofNat 4 ((2 ^ 32 + place - tableStart d fields) % 2 ^ 32)) < 0 ∨ _
    then none else _) = _
  rw [hback, hpos, if_neg (by omega)]
  show (alignedWord? bs (length - place) 2 >>= fun n => if n % 2 = 0 ∧ _ then _ else none) = _
  rw [hlenWord]
  show (if (4 + 2 * slotCount (entries fields d).2) % 2 = 0 ∧
    length - place + (4 + 2 * slotCount (entries fields d).2) ≤ bs.size then _ else none) = _
  rw [if_pos ⟨by omega, by omega⟩]
  rfl

/-- A table is read where it was written, with the fields that were written. -/
theorem Inside.table {d : Draft} {fields : List (Nat × Entry)} {bs : Buffer} {length : Nat}
    (hd : d.Sound) (h : ∀ f ∈ fields, d.Holds f.2) (hslots : ∀ f ∈ fields, f.1 < greatestSlots)
    (hcount : fields.length ≤ greatestSlots) (hlen : length < 2 ^ 31)
    (hin : (d.table fields).Inside bs length) :
    ∃ t, Shown bs length (length - (d.table fields).place) fields t := by
  obtain ⟨place, hplan, hat⟩ := Inside.table_at hd h hslots hlen hin
  have hentries : (entries fields d).1.Inside bs length :=
    hin.of_leads ((leads_align _ 4 isGrain_four).trans (body_leads_table d fields))
  have hstart : tableStart d fields ≤ length := by
    rw [← place_table]
    exact Nat.le_trans (place_le_table d fields) hin.size_le
  refine ⟨_, hat, rfl, ?_, ?_⟩
  · intro slot hslot
    exact field?_of_lookup_none hplan rfl (lookup_entries_none fields d hslot)
  · intro slot e hslot
    obtain ⟨p, hp, hlow, hhigh, hreads⟩ := lookup_entries fields h hslot
    have hsizes := size_entries fields h
    have hbody : (entries fields d).1.size ≤ (tableBody d fields).size :=
      (leads_align _ 4 isGrain_four).size_le
    have halign : (tableBody d fields).size ≤ (entries fields d).1.size + 3 := by
      have : gap ((entries fields d).1.size + 4) 4 < 4 := gap_lt (by decide)
      rw [tableBody, size_align]
      omega
    have hlow16 : fields.length ≤ 16 := hcount
    have hpstart : p < tableStart d fields := by
      rw [tableStart]
      omega
    have hoffset : tableStart d fields - p < 2 ^ 16 := by
      rw [tableStart]
      omega
    refine ⟨length - p, ?_, hreads bs length (Nat.lt_trans hlen (by decide)) hentries⟩
    rw [field?_of_lookup hplan rfl hp hpstart hoffset]
    exact congrArg some (by show length - tableStart d fields + _ = _; omega)

/-! ### The finished buffer -/

theorem dvd_of_grain_le {g g' : Nat} (hg : isGrain g) (hg' : isGrain g') (h : g ≤ g') : g ∣ g' := by
  rcases hg with rfl | rfl | rfl | rfl <;> rcases hg' with rfl | rfl | rfl | rfl <;>
    first | decide | exact absurd h (by decide)

theorem length_finish_le {d : Draft} (hd : d.Sound) (root : Nat) :
    (d.finish root).length ≤ d.size + 18 := by
  have halign := size_align_le d 4 hd.grain
  have hlink := size_align_le (d.align 4 d.grain) 4 isGrain_four
  have hsize : (d.finish root).length = ((d.align 4 d.grain).link root).size :=
    ((d.align 4 d.grain).link root).counted.symm
  rw [hsize, size_link]
  omega

/-- A finished buffer, whatever follows it, holds the draft and leads to its root. -/
theorem inside_finish {d : Draft} (hd : d.Sound) (hgrain : 4 ≤ d.grain) {root : Nat}
    (hroot : root ≤ d.size) (hlen : (d.finish root).length < Nat.pow 256 4) (rest : Bytes) :
    d.Inside (d.finish root ++ rest).toArray (d.finish root).length ∧
      target? (d.finish root ++ rest).toArray 0 = some ((d.finish root).length - root) := by
  generalize he : (d.align 4 d.grain).link root = e
  have hfinish : d.finish root = e.octets := by rw [← he]; rfl
  have hsizeAlign : ((d.align 4 d.grain).size + 4) % d.grain = 0 :=
    size_align_add_mod d 4 hd.grain
  have hsizeMod : e.size % d.grain = 0 := by
    have hfill : ((d.align 4 d.grain).size + 4) % 4 = 0 :=
      Nat.mod_eq_zero_of_dvd (Nat.dvd_trans (dvd_of_grain_le isGrain_four hd.grain hgrain)
        (Nat.dvd_of_mod_eq_zero hsizeAlign))
    rw [← he, size_link, size_align _ 4 4, gap_eq_zero hfill, Nat.zero_add, hsizeAlign]
  have heGrain : e.grain = d.grain := by
    rw [← he]
    show max (max d.grain d.grain) 4 = d.grain
    omega
  have hinside : e.Inside (d.finish root ++ rest).toArray (d.finish root).length := by
    refine ⟨⟨[], rest, by simp [hfinish], by simp [hfinish, e.counted]⟩, ?_⟩
    intro g hg hle
    rw [hfinish, ← e.counted]
    exact Nat.mod_eq_zero_of_dvd (Nat.dvd_trans
      (dvd_of_grain_le hg hd.grain (heGrain ▸ hle)) (Nat.dvd_of_mod_eq_zero hsizeMod))
  have halign := leads_align d 4 hd.grain
  refine ⟨hinside.of_leads (he ▸ halign.trans (leads_link _ root)), ?_⟩
  rw [← he] at hinside
  have hlink := Inside.link (Nat.le_trans hroot halign.size_le) hlen hinside
  rwa [place_link, he, e.counted, ← hfinish, Nat.sub_self] at hlink

end Draft

end ExternalSort.FlatTable
