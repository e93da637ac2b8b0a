/-
Schemas, read where they were written.

A schema is a table that leads to a table for each field, and a field to a table for its
type.  Both lead to a table for each pair of their metadata.  What is written of each is read
back as it was, and verifying it costs one for each of these tables.  Everything is said about
a draft that a finished buffer holds, so that it does not matter what is put in front later.

Fields and pairs are written in the same way, as lists of references to tables.  A `Form` is
what the two differ in.
-/
import ExternalSort.Proofs.FlatTable.Verify
import ExternalSort.Stream.Reader

namespace ExternalSort.Stream

open FlatTable FlatTable.Draft

variable {bs : Buffer} {length depth : Nat}

/-- A choice leads to the table that its number names. -/
theorem choice_check {q : Nat} {fields : List (Nat × Entry)} {t : Table}
    {c : Choice TableKind} {number place : Nat} {kind : TableKind}
    (ht : Shown bs length q fields t) (hkey : fields.lookup c.key = some (.word 1 number))
    (hvalue : fields.lookup c.value = some (.link place)) (hnumber : number < 256)
    (hkind : c.kind number = some kind) : c.check t = some [(kind, length - place)] := by
  obtain ⟨k, hk, hword⟩ := ht.present _ _ hkey
  obtain ⟨v, hv, htarget⟩ := ht.present _ _ hvalue
  have haligned : alignedWord? bs k 1 = some number := by
    rw [show alignedWord? bs k 1 = _ from hword, Nat.mod_eq_of_lt hnumber]
  have hposition : target? bs v = some (length - place) := htarget
  simp only [Choice.check, hk, hv, ht.octets, haligned, hkind, hposition, Option.bind_eq_bind,
    Option.bind_some]

/-! ### Types -/

theorem kindNumber_lt (t : ColumnType) : kindNumber t < 256 := by
  cases t with
  | text w => cases w <;> decide
  | null | bool | int | float | binary | date =>
    have hle : (8 : Nat) < 256 := by decide
    exact Nat.lt_of_le_of_lt (by simp [kindNumber]) hle

theorem typeKind_kindNumber (t : ColumnType) :
    typeKind (kindNumber t) = some (.type (kindNumber t)) := by
  rcases t with _ | _ | _ | _ | (_ | _) | _ | _ <;> rfl

theorem bits_lt (k : IntKind) : k.bits < Nat.pow 256 4 := by
  show 8 * k.size.octets < 256 ^ 4
  cases k.size <;> decide

/-- The table of a type: its fields are words of known widths in two slots. -/
theorem typeFields_holds (t : ColumnType) (d : Draft) :
    (∀ f ∈ typeFields t, d.Holds f.2) ∧ (∀ f ∈ typeFields t, f.1 < greatestSlots) ∧
      (typeFields t).length ≤ greatestSlots := by
  rcases t with _ | _ | ⟨_ | _, size⟩ | (_ | _) | (_ | _) | _ | _ <;>
    simp [typeFields, Holds, isGrain, greatestSlots]

/-- What is checked of the table of a type leads no further. -/
theorem checkField_type {q : Nat} {t : Table} (ty : ColumnType)
    (ht : Shown bs length q (typeFields ty) t) :
    ∀ f ∈ tableShapes (.type (kindNumber ty)), checkField t f.1 f.2 = some [] := by
  intro f hf
  rcases ty with _ | _ | ⟨_ | _, size⟩ | (_ | _) | (_ | _) | _ | _ <;>
    simp [tableShapes, typeShapes, kindNumber] at hf
  · rcases hf with rfl | rfl
    · exact checkField_word ht rfl
    · exact checkField_absent ht _ rfl
  · rcases hf with rfl | rfl
    · exact checkField_word ht rfl
    · exact checkField_word ht rfl
  · subst hf
    exact checkField_word ht rfl
  · subst hf
    exact checkField_word ht rfl
  · subst hf
    exact checkField_word ht rfl

/-- The table of a type costs one. -/
theorem costs_type {q : Nat} {t : Table} (ty : ColumnType)
    (ht : Shown bs length q (typeFields ty) t) :
    catalogue.Costs bs (depth + 1) (.type (kindNumber ty)) q 1 := by
  have hbelow : catalogue.below (.type (kindNumber ty)) t = some [] :=
    Catalogue.below_eq_chosen (checkField_type ty ht) rfl
  exact Catalogue.costs_of_below ht.stands hbelow .nil

theorem readType_written {q : Nat} {t : Table} (ty : ColumnType)
    (ht : Shown bs length q (typeFields ty) t) :
    readType (kindNumber ty) (some t) = .ok ty := by
  rcases ty with _ | _ | ⟨signed, size⟩ | (_ | _) | (_ | _) | _ | _
  · rfl
  · rfl
  · have hbits : t.word 0 4 0 = 8 * size.octets := by
      cases signed
      · exact ht.word rfl (bits_lt ⟨false, size⟩) 0
      · exact ht.word rfl (bits_lt ⟨true, size⟩) 0
    have hsigned : t.word 1 1 0 = signed.toNat := by
      cases signed
      · exact ht.word_absent rfl 1 0
      · exact ht.word rfl (by decide) 0
    simp only [readType, kindNumber, Option.elim, hbits, hsigned]
    cases signed <;> cases size <;> rfl
  · have hword : t.word 0 2 0 = 1 := ht.word rfl (by decide) 0
    simp only [readType, kindNumber, Option.elim, hword]
  · have hword : t.word 0 2 0 = 2 := ht.word rfl (by decide) 0
    simp only [readType, kindNumber, Option.elim, hword]
  · rfl
  · rfl
  · rfl
  · have hword : t.word 0 2 1 = 0 := ht.word rfl (by decide) 1
    simp [readType, kindNumber, Option.elim, hword]

/-- The table of a type and the list of children are put in front of what stands. -/
theorem leads_writeType (ty : ColumnType) (d : Draft) :
    d.Leads (writeType ty d).1 ∧ (writeType ty d).2.1 ≤ (writeType ty d).1.size ∧
      (writeType ty d).2.2 ≤ (writeType ty d).1.size := by
  unfold writeType
  split
  · have hlinks := leads_links d []
    have htable := leads_table (typeFields_holds ty (d.links [])).1
    exact ⟨hlinks.trans htable, place_le_table _ _, htable.size_le⟩
  · have htable := leads_table (typeFields_holds ty d).1
    have hlinks := leads_links (d.table (typeFields ty)) []
    exact ⟨htable.trans hlinks, Nat.le_trans (place_le_table _ _) hlinks.size_le, Nat.le_refl _⟩

/-- The table of a type is read where it was written, and there are no children. -/
theorem writeType_inside (ty : ColumnType) {d : Draft} (hd : d.Sound) (hlen : length < 2 ^ 31)
    (hin : (writeType ty d).1.Inside bs length) :
    (∃ t, Shown bs length (length - (writeType ty d).2.1) (typeFields ty) t) ∧
      (∃ start, list? bs (length - (writeType ty d).2.2) 4 4 = some (start, 0)) := by
  have hlen4 : length < Nat.pow 256 4 := Nat.lt_trans hlen (by decide)
  unfold writeType at hin ⊢
  split at hin
  · rename_i hfirst
    rw [if_pos hfirst]
    obtain ⟨hholds, hslots, hcount⟩ := typeFields_holds ty (d.links [])
    have hlinks := hin.of_leads (leads_table hholds)
    exact ⟨Inside.table ((leads_links d []).sound hd) hholds hslots hcount hlen hin,
      _, (Inside.links (by simp) hlen4 hlinks).1⟩
  · rename_i hlast
    rw [if_neg hlast]
    obtain ⟨hholds, hslots, hcount⟩ := typeFields_holds ty d
    have htable := hin.of_leads (leads_links _ [])
    exact ⟨Inside.table hd hholds hslots hcount hlen htable,
      _, (Inside.links (by simp) hlen4 hin).1⟩

/-! ### Things kept in tables -/

/-- A form in which things are kept in tables. -/
structure Form (α : Type) where
  kind : TableKind
  /-- What a table is read as. -/
  reads : Table → Option α
  /-- How deep the tables of a thing go. -/
  height : Nat
  /-- How many tables a thing has. -/
  cost : α → Nat

/-- A table can be read as `x`, and verifying it takes the cost of that. -/
structure Kept {α : Type} (form : Form α) (bs : Buffer) (length : Nat) (x : α) (place : Nat)
    (t : Table) : Prop where
  stands : Table.at? bs (length - place) = some t
  reads : form.reads t = some x
  costs : ∀ depth, catalogue.Costs bs (depth + form.height) form.kind (length - place)
    (form.cost x)

/-! ### Things written one after the other -/

section All

variable {α : Type} {write : α → Draft → Draft}

/-- One step of writing things one after the other. -/
def writeStep (write : α → Draft → Draft) (w : Draft × List Nat) (x : α) : Draft × List Nat :=
  (write x w.1, (write x w.1).place :: w.2)

theorem writeAll_eq (xs : List α) (d : Draft) :
    writeAll write xs d = ((xs.foldl (writeStep write) (d, [])).1,
      (xs.foldl (writeStep write) (d, [])).2.reverse) := rfl

theorem foldl_writeStep (xs : List α) (d : Draft) (before : List Nat) :
    xs.foldl (writeStep write) (d, before)
      = ((writeAll write xs d).1, (writeAll write xs d).2.reverse ++ before) := by
  induction xs generalizing d before with
  | nil => rfl
  | cons x r ih =>
    have hstep : writeStep write (d, before) x = (write x d, (write x d).place :: before) := rfl
    have hfirst : writeStep write (d, []) x = (write x d, [(write x d).place]) := rfl
    rw [writeAll_eq, List.foldl_cons, List.foldl_cons, hstep, hfirst, ih, ih,
      List.reverse_reverse, List.append_assoc]
    rfl

theorem writeAll_cons (x : α) (r : List α) (d : Draft) :
    writeAll write (x :: r) d
      = ((writeAll write r (write x d)).1,
        (write x d).place :: (writeAll write r (write x d)).2) := by
  have hfirst : writeStep write (d, []) x = (write x d, [(write x d).place]) := rfl
  rw [writeAll_eq, List.foldl_cons, hfirst, foldl_writeStep, List.reverse_append,
    List.reverse_reverse]
  rfl

theorem leads_writeAll (hleads : ∀ x (d : Draft), d.Leads (write x d)) (xs : List α) (d : Draft) :
    d.Leads (writeAll write xs d).1 := by
  induction xs generalizing d with
  | nil => exact Leads.refl d
  | cons x r ih =>
    rw [writeAll_cons]
    exact (hleads x d).trans (ih _)

theorem place_writeAll (hleads : ∀ x (d : Draft), d.Leads (write x d))
    (hplace : ∀ x d, (write x d).place ≤ (write x d).size) (xs : List α) (d : Draft) :
    ∀ p ∈ (writeAll write xs d).2, p ≤ (writeAll write xs d).1.size := by
  induction xs generalizing d with
  | nil => intro p hp; exact absurd hp (List.not_mem_nil)
  | cons x r ih =>
    rw [writeAll_cons]
    intro p hp
    rcases List.mem_cons.1 hp with rfl | hp
    · exact Nat.le_trans (hplace x d) (leads_writeAll hleads r _).size_le
    · exact ih _ p hp

variable {form : Form α}

/-- Each of some tables is kept at its place. -/
inductive KeptAll (form : Form α) (bs : Buffer) (length : Nat) :
    List α → List Nat → List Table → Prop where
  | nil : KeptAll form bs length [] [] []
  | cons {x p t xs ps ts} : Kept form bs length x p t → KeptAll form bs length xs ps ts →
      KeptAll form bs length (x :: xs) (p :: ps) (t :: ts)

theorem keptAll_writeAll (hleads : ∀ x (d : Draft), d.Leads (write x d))
    (hkept : ∀ x (d : Draft), d.Sound → (write x d).Inside bs length →
      ∃ t, Kept form bs length x (write x d).place t)
    (xs : List α) {d : Draft} (hd : d.Sound) (hin : (writeAll write xs d).1.Inside bs length) :
    ∃ ts, KeptAll form bs length xs (writeAll write xs d).2 ts := by
  induction xs generalizing d with
  | nil => exact ⟨[], .nil⟩
  | cons x r ih =>
    rw [writeAll_cons] at hin ⊢
    obtain ⟨t, ht⟩ := hkept x d hd (hin.of_leads (leads_writeAll hleads r _))
    obtain ⟨ts, hts⟩ := ih ((hleads x d).sound hd) hin
    exact ⟨t :: ts, .cons ht hts⟩

variable {xs : List α} {ps : List Nat} {ts : List Table}

namespace KeptAll

theorem length_eq (h : KeptAll form bs length xs ps ts) :
    ps.length = xs.length ∧ ts.length = ps.length := by
  induction h with
  | nil => exact ⟨rfl, rfl⟩
  | cons _ _ ih => exact ⟨congrArg (· + 1) ih.1, congrArg (· + 1) ih.2⟩

theorem stands (h : KeptAll form bs length xs ps ts) (i : Nat) (hi : i < ps.length)
    (hi' : i < ts.length) : Table.at? bs (length - ps[i]) = some ts[i] := by
  induction h generalizing i with
  | nil => exact absurd hi (Nat.not_lt_zero i)
  | cons ht _ ih =>
    cases i with
    | zero => exact ht.stands
    | succ i => exact ih i (Nat.lt_of_succ_lt_succ hi) (Nat.lt_of_succ_lt_succ hi')

theorem filterMap_eq (h : KeptAll form bs length xs ps ts) : ts.filterMap form.reads = xs := by
  induction h with
  | nil => rfl
  | cons ht _ ih => rw [List.filterMap_cons, ht.reads, ih]

theorem costs (h : KeptAll form bs length xs ps ts) (depth : Nat) :
    List.Forall₂ (fun k cost => catalogue.Costs bs (depth + form.height) k.1 k.2 cost)
      (ps.map fun p => (form.kind, length - p)) (xs.map form.cost) := by
  induction h with
  | nil => exact .nil
  | cons ht _ ih => exact .cons (ht.costs depth) ih

end KeptAll

end All

/-- A list of references to tables that are kept. -/
def ListKept {α : Type} (form : Form α) (bs : Buffer) (length : Nat) (xs : List α)
    (place : Nat) : Prop :=
  ∃ start ps ts, KeptAll form bs length xs ps ts ∧
    list? bs (length - place) 4 4 = some (start, ps.length) ∧
    ∀ (i : Nat) (hi : i < ps.length), target? bs (start + 4 * i) = some (length - ps[i])

/-- Things that are written one after the other, with the list of their places in front. -/
theorem listKept_writeAll {α : Type} {form : Form α} {write : α → Draft → Draft}
    (hleads : ∀ x (d : Draft), d.Leads (write x d))
    (hplace : ∀ x d, (write x d).place ≤ (write x d).size)
    (hkept : ∀ x (d : Draft), d.Sound → (write x d).Inside bs length →
      ∃ t, Kept form bs length x (write x d).place t)
    (xs : List α) {d : Draft} (hd : d.Sound) (hlen : length < 2 ^ 31)
    (hin : ((writeAll write xs d).1.links (writeAll write xs d).2).Inside bs length) :
    ListKept form bs length xs ((writeAll write xs d).1.links (writeAll write xs d).2).place := by
  obtain ⟨ts, hts⟩ := keptAll_writeAll hleads hkept xs hd (hin.of_leads (leads_links _ _))
  obtain ⟨hlist, htargets⟩ := Inside.links (place_writeAll hleads hplace xs d)
    (Nat.lt_trans hlen (by decide)) hin
  exact ⟨_, _, ts, hts, hlist, htargets⟩

/-- A field of a table that leads to such a list is checked down to the tables of the list. -/
theorem ListKept.check {α : Type} {form : Form α} {xs : List α} {place q slot : Nat}
    {fields : List (Nat × Entry)} {t : Table} (h : ListKept form bs length xs place)
    (ht : Shown bs length q fields t) (hslot : fields.lookup slot = some (.link place)) :
    ∃ below ts, checkField t slot (.tables form.kind) = some below ∧
      (∀ depth, List.Forall₂
        (fun k cost => catalogue.Costs bs (depth + form.height) k.1 k.2 cost) below
        (xs.map form.cost)) ∧
      t.tables? slot = some ts ∧ ∃ ps, KeptAll form bs length xs ps ts := by
  obtain ⟨start, ps, ts, hts, hlist, htargets⟩ := h
  obtain ⟨-, hlen⟩ := hts.length_eq
  exact ⟨_, ts, checkField_tables ht form.kind _ hslot hlist htargets, hts.costs,
    ht.tables? hslot hlist hlen fun i hi hi' => ⟨htargets i hi, hts.stands i hi hi'⟩, ps, hts⟩

/-! ### Metadata -/

/-- The text of a pair's key and that of its value, read as `readMetadata` reads them. -/
def readPair (t : Table) : Option (String × String) := do some (← t.text? 0, ← t.text? 1)

/-- Pairs have one table each. -/
def pairForm : Form (String × String) := ⟨.pair, readPair, 1, fun _ => 1⟩

/-- A pair is a table put in front of its two texts. -/
theorem writePair_cases (p : String × String) (d : Draft) :
    ∃ key value : Draft, key = d.text (Text.Utf8.encode p.1) ∧
      value = key.text (Text.Utf8.encode p.2) ∧
      writePair p d = value.table [(0, .link key.place), (1, .link value.place)] ∧
      ∀ e ∈ ([(0, .link key.place), (1, .link value.place)] : List (Nat × Entry)),
        value.Holds e.2 := by
  refine ⟨_, _, rfl, rfl, rfl, ?_⟩
  intro e he
  simp only [List.mem_cons, List.not_mem_nil, or_false] at he
  rcases he with rfl | rfl
  · show (d.text (Text.Utf8.encode p.1)).size ≤ _
    exact (leads_text _ _).size_le
  · exact Nat.le_refl _

theorem leads_writePair (p : String × String) (d : Draft) : d.Leads (writePair p d) := by
  obtain ⟨key, value, rfl, rfl, hwritten, hholds⟩ := writePair_cases p d
  rw [hwritten]
  exact (leads_text d _).trans ((leads_text _ _).trans (leads_table hholds))

theorem place_writePair (p : String × String) (d : Draft) :
    (writePair p d).place ≤ (writePair p d).size := by
  obtain ⟨key, value, -, -, hwritten, -⟩ := writePair_cases p d
  rw [hwritten]
  exact place_le_table _ _

/-- A pair is read where it was written, and costs one. -/
theorem kept_pair (p : String × String) {d : Draft} (hd : d.Sound) (hlen : length < 2 ^ 31)
    (hin : (writePair p d).Inside bs length) :
    ∃ t, Kept pairForm bs length p (writePair p d).place t := by
  have hlen4 : length < Nat.pow 256 4 := Nat.lt_trans hlen (by decide)
  obtain ⟨key, value, hkeyText, hvalueText, hwritten, hholds⟩ := writePair_cases p d
  rw [hwritten] at hin ⊢
  have hkeyLeads : d.Leads key := hkeyText ▸ leads_text d _
  have hvalueLeads : key.Leads value := hvalueText ▸ leads_text key _
  obtain ⟨t, ht⟩ := Inside.table (hvalueLeads.sound (hkeyLeads.sound hd)) hholds
    (by simp [greatestSlots]) (by simp [greatestSlots]) hlen hin
  have hinValue := hin.of_leads (leads_table hholds)
  have hinKey := hinValue.of_leads hvalueLeads
  have hvalue : text? bs (length - value.place) = some p.2 := by
    rw [hvalueText] at hinValue ⊢
    exact Inside.text hlen4 hinValue
  have hkey : text? bs (length - key.place) = some p.1 := by
    rw [hkeyText] at hinKey ⊢
    exact Inside.text hlen4 hinKey
  refine ⟨t, ht.stands, ?_, ?_⟩
  · show readPair t = some p
    rw [readPair, ht.text? rfl hkey, ht.text? rfl hvalue]
    rfl
  · intro depth
    have hbelow : catalogue.below .pair t = some [] := by
      refine Catalogue.below_eq_chosen ?_ rfl
      intro e he
      simp only [catalogue, tableShapes, List.mem_cons, List.not_mem_nil, or_false] at he
      rcases he with rfl | rfl
      · exact checkField_text ht rfl hkey
      · exact checkField_text ht rfl hvalue
    exact Catalogue.costs_of_below ht.stands hbelow .nil

/-- Pairs that are in order already stay as they are. -/
theorem ofList_pairs (m : Metadata) : Metadata.ofList m.pairs = m := by
  have hinsert : ∀ (ps : List (String × String)) (p : String × String),
      (∀ q ∈ ps, q.1 < p.1) → Metadata.insertPair p.1 p.2 ps = ps ++ [p] := by
    intro ps p hps
    induction ps with
    | nil => rfl
    | cons q r ih =>
      have hq := hps q (List.mem_cons_self ..)
      rw [Metadata.insertPair, if_neg (String.lt_asymm hq),
        if_neg (fun h : p.1 = q.1 => String.lt_irrefl q.1 (h ▸ hq)),
        ih fun q' hq' => hps q' (List.mem_cons_of_mem _ hq')]
      rfl
  have hfold : ∀ (r : List (String × String)) (acc : Metadata),
      (acc.pairs ++ r).Pairwise (fun a b => a.1 < b.1) →
      (r.foldl (fun m p => m.insert p.1 p.2) acc).pairs = acc.pairs ++ r := by
    intro r
    induction r with
    | nil => intro acc _; exact (List.append_nil _).symm
    | cons p r ih =>
      intro acc hacc
      have hlast : (acc.insert p.1 p.2).pairs = acc.pairs ++ [p] := by
        refine hinsert acc.pairs p ?_
        intro q hq
        exact (List.pairwise_append.1 hacc).2.2 q hq p (List.mem_cons_self ..)
      rw [List.foldl_cons, ih _ (by rwa [hlast, List.append_assoc]), hlast, List.append_assoc]
      rfl
  have hpairs := hfold m.pairs .empty m.ascending
  obtain ⟨ps, hps⟩ := m
  rw [Metadata.ofList]
  generalize List.foldl _ _ _ = m' at hpairs ⊢
  obtain ⟨ps', hps'⟩ := m'
  exact (Metadata.mk.injEq ..).mpr hpairs

theorem leads_writeMetadata (m : Metadata) (d : Draft) : d.Leads (writeMetadata m d) := by
  unfold writeMetadata
  split
  · exact Leads.refl d
  · exact (leads_writeAll leads_writePair m.pairs d).trans (leads_links _ _)

theorem place_writeMetadata {m : Metadata} (hsome : ¬m.pairs.isEmpty) (d : Draft) :
    (writeMetadata m d).place ≤ (writeMetadata m d).size := by
  rw [writeMetadata, if_neg hsome]
  exact Nat.le_refl _

theorem lookup_metadataEntry (slot : Nat) (m : Metadata) (place : Nat) :
    (metadataEntry slot m place).lookup slot
      = if m.pairs.isEmpty then none else some (.link place) := by
  unfold metadataEntry
  split
  · rfl
  · rw [List.lookup_cons, beq_self_eq_true]

theorem lookup_metadataEntry_ne {slot other : Nat} (h : other ≠ slot) (m : Metadata)
    (place : Nat) : (metadataEntry slot m place).lookup other = none := by
  have hother : (other == slot) = false := by simp [h]
  unfold metadataEntry
  split
  · rfl
  · rw [List.lookup_cons, hother]
    rfl

/-- Metadata is checked and read where it was written.  Without pairs there is no list of them,
which reads like an empty one. -/
theorem metadata_check {m : Metadata} {d : Draft} {q slot : Nat} {fields : List (Nat × Entry)}
    {t : Table} (hd : d.Sound) (hlen : length < 2 ^ 31)
    (hin : (writeMetadata m d).Inside bs length) (ht : Shown bs length q fields t)
    (hslot : fields.lookup slot
      = if m.pairs.isEmpty then none else some (.link (writeMetadata m d).place)) :
    ∃ below, checkField t slot (.tables TableKind.pair) = some below ∧
      (∀ depth, List.Forall₂ (fun k cost => catalogue.Costs bs (depth + 1) k.1 k.2 cost) below
        (List.replicate m.pairs.length 1)) ∧
      readMetadata t slot = m := by
  by_cases hempty : m.pairs.isEmpty
  · rw [if_pos hempty] at hslot
    rw [List.isEmpty_iff] at hempty
    refine ⟨[], checkField_absent ht _ hslot, fun _ => ?_, ?_⟩
    · rw [hempty]
      exact .nil
    · rw [readMetadata, Table.tables?, ht.target?_absent hslot, ← ofList_pairs m, hempty]
      rfl
  · rw [if_neg hempty] at hslot
    rw [writeMetadata, if_neg hempty] at hin hslot
    have hlist : ListKept pairForm bs length m.pairs _ := listKept_writeAll leads_writePair
      place_writePair (fun p d hd hin => kept_pair p hd hlen hin) m.pairs hd hlen hin
    obtain ⟨below, pts, hcheck, hcosts, hread, ps, hpts⟩ := hlist.check ht hslot
    refine ⟨below, hcheck, fun depth => ?_, ?_⟩
    · rw [← List.map_const']
      exact hcosts depth
    · rw [readMetadata, hread]
      show Metadata.ofList (pts.filterMap readPair) = _
      rw [show pts.filterMap readPair = m.pairs from hpts.filterMap_eq, ofList_pairs]

/-! ### Fields -/

/-- How many tables a field has: its own, that of its type, and one for each pair. -/
def fieldTables (f : Field) : Nat := 2 + f.metadata.pairs.length

/-- Fields have a table, and below it those of their types and of their pairs. -/
def fieldForm : Form Field := ⟨.field, fun t => (readField t).toOption, 2, fieldTables⟩

/-- The fields in the table of a field whose parts stand at these places. -/
def fieldEntries (f : Field) (name type children pairs : Nat) : List (Nat × Entry) :=
  [(0, .link name), (2, .word 1 (kindNumber f.type))] ++
    (if f.nullable then [(1, .word 1 1)] else []) ++ [(5, .link children), (3, .link type)] ++
    metadataEntry 6 f.metadata pairs

theorem fieldEntries_holds (f : Field) {d : Draft} {name type children pairs : Nat}
    (hname : name ≤ d.size) (htype : type ≤ d.size) (hchildren : children ≤ d.size)
    (hpairs : ¬f.metadata.pairs.isEmpty → pairs ≤ d.size) :
    (∀ e ∈ fieldEntries f name type children pairs, d.Holds e.2) ∧
      (∀ e ∈ fieldEntries f name type children pairs, e.1 < greatestSlots) ∧
      (fieldEntries f name type children pairs).length ≤ greatestSlots := by
  by_cases hempty : f.metadata.pairs.isEmpty
  · cases hnullable : f.nullable <;>
      simp [fieldEntries, metadataEntry, hnullable, hempty, Holds, isGrain, greatestSlots, hname,
        htype, hchildren]
  · have hplace := hpairs hempty
    cases hnullable : f.nullable <;>
      simp [fieldEntries, metadataEntry, hnullable, hempty, Holds, isGrain, greatestSlots, hname,
        htype, hchildren, hplace]

/-- The draft with the metadata of a field and its name in front. -/
def named (f : Field) (d : Draft) : Draft :=
  (writeMetadata f.metadata d).text (Text.Utf8.encode f.name)

theorem leads_named (f : Field) (d : Draft) : d.Leads (named f d) :=
  (leads_writeMetadata f.metadata d).trans (leads_text _ _)

/-- A field is a table put in front of its metadata, its name and its type. -/
theorem writeField_cases (f : Field) (d : Draft) :
    ∃ (w : Draft × Nat × Nat) (entries : List (Nat × Entry)),
      w = writeType f.type (named f d) ∧
      entries = fieldEntries f (named f d).place w.2.1 w.2.2 (writeMetadata f.metadata d).place ∧
      writeField f d = w.1.table entries ∧ (named f d).Leads w.1 ∧
      (∀ e ∈ entries, w.1.Holds e.2) ∧ (∀ e ∈ entries, e.1 < greatestSlots) ∧
      entries.length ≤ greatestSlots := by
  obtain ⟨hleads, htype, hchildren⟩ := leads_writeType f.type (named f d)
  have hname : (named f d).place ≤ (writeType f.type (named f d)).1.size := hleads.size_le
  have hpairs : ¬f.metadata.pairs.isEmpty →
      (writeMetadata f.metadata d).place ≤ (writeType f.type (named f d)).1.size := fun hsome =>
    Nat.le_trans (place_writeMetadata hsome d) ((leads_text _ _).trans hleads).size_le
  exact ⟨_, _, rfl, rfl, rfl, hleads, fieldEntries_holds f hname htype hchildren hpairs⟩

theorem leads_writeField (f : Field) (d : Draft) : d.Leads (writeField f d) := by
  obtain ⟨w, entries, -, -, hwritten, hleads, hholds, -⟩ := writeField_cases f d
  rw [hwritten]
  exact (leads_named f d).trans (hleads.trans (leads_table hholds))

theorem place_writeField (f : Field) (d : Draft) :
    (writeField f d).place ≤ (writeField f d).size := by
  obtain ⟨w, entries, -, -, hwritten, -⟩ := writeField_cases f d
  rw [hwritten]
  exact place_le_table _ _

section Field

variable {f : Field} {q name type children pairs start : Nat} {t ty : Table}

/-- Every slot but those of nullability and of metadata is used in the same way by all fields. -/
theorem lookup_fieldEntries {slot : Nat} (hone : slot ≠ 1) (hsix : slot ≠ 6) :
    (fieldEntries f name type children pairs).lookup slot
      = ([(0, .link name), (2, .word 1 (kindNumber f.type)), (5, .link children),
          (3, .link type)] : List (Nat × Entry)).lookup slot := by
  have hfirst : (slot == 1) = false := by simp [hone]
  have hlast := lookup_metadataEntry_ne hsix f.metadata pairs
  cases hnullable : f.nullable <;>
    simp [fieldEntries, hnullable, List.lookup_cons, hfirst, hlast]

theorem lookup_fieldEntries_nullable :
    (fieldEntries f name type children pairs).lookup 1
      = if f.nullable then some (.word 1 1) else none := by
  have hlast := lookup_metadataEntry_ne (show 1 ≠ 6 by decide) f.metadata pairs
  cases hnullable : f.nullable <;>
    simp [fieldEntries, hnullable, List.lookup_cons, hlast]

theorem lookup_fieldEntries_metadata :
    (fieldEntries f name type children pairs).lookup 6
      = if f.metadata.pairs.isEmpty then none else some (.link pairs) := by
  rw [← lookup_metadataEntry 6]
  cases hnullable : f.nullable <;>
    simp [fieldEntries, hnullable, List.lookup_cons]

variable (ht : Shown bs length q (fieldEntries f name type children pairs) t)
  (hty : Shown bs length (length - type) (typeFields f.type) ty)
  (hname : text? bs (length - name) = some f.name)

include ht hty hname

theorem readField_written (hmetadata : readMetadata t 6 = f.metadata) : readField t = .ok f := by
  have hnumber : t.word 2 1 0 = kindNumber f.type :=
    ht.word (lookup_fieldEntries (by decide) (by decide)) (kindNumber_lt f.type) 0
  have htable : t.table? 3 = some ty :=
    ht.table? (lookup_fieldEntries (by decide) (by decide)) hty.stands
  have htext : t.text? 0 = some f.name :=
    ht.text? (lookup_fieldEntries (by decide) (by decide)) hname
  have hdictionary : t.field? 4 = none :=
    ht.absent 4 (lookup_fieldEntries (by decide) (by decide))
  have hnullable : (t.word 1 1 0 != 0) = f.nullable := by
    cases hnullable : f.nullable
    · rw [ht.word_absent (by rw [lookup_fieldEntries_nullable, hnullable]; rfl) 1 0]
      rfl
    · rw [ht.word (v := 1) (by rw [lookup_fieldEntries_nullable, hnullable]; rfl) (by decide) 0]
      rfl
  simp only [readField, hnumber, htable, readType_written f.type hty, htext, hdictionary,
    hnullable, hmetadata]
  rfl

/-- The table of a field costs one, and so do the table of its type and those of its pairs. -/
theorem costs_field (hchildren : list? bs (length - children) 4 4 = some (start, 0))
    {below : List (TableKind × Nat)} (hpairs : checkField t 6 (.tables TableKind.pair) = some below)
    (hcosts : List.Forall₂ (fun k cost => catalogue.Costs bs (depth + 1) k.1 k.2 cost) below
      (List.replicate f.metadata.pairs.length 1)) :
    catalogue.Costs bs (depth + 2) .field q (fieldTables f) := by
  have hnullable : checkField t 1 (.word 1 : Shape TableKind) = some [] := by
    cases hnullable : f.nullable
    · exact checkField_absent ht _ (by rw [lookup_fieldEntries_nullable, hnullable]; rfl)
    · exact checkField_word (v := 1) ht (by rw [lookup_fieldEntries_nullable, hnullable]; rfl)
  have hfields : ∀ e ∈ catalogue.fields .field,
      checkField t e.1 e.2 = some (if e.1 = 6 then below else []) := by
    intro e he
    simp only [catalogue, tableShapes, List.mem_cons, List.not_mem_nil, or_false] at he
    rcases he with rfl | rfl | rfl | rfl | rfl
    · exact checkField_text ht (lookup_fieldEntries (by decide) (by decide)) hname
    · exact hnullable
    · exact checkField_absent ht _ (lookup_fieldEntries (by decide) (by decide))
    · exact checkField_tables ht TableKind.field []
        (lookup_fieldEntries (by decide) (by decide)) hchildren (by simp)
    · exact hpairs
  have hchoice : Choice.check t ⟨2, 3, typeKind⟩
      = some [(.type (kindNumber f.type), length - type)] :=
    choice_check ht (lookup_fieldEntries (by decide) (by decide))
      (lookup_fieldEntries (by decide) (by decide)) (kindNumber_lt f.type)
      (typeKind_kindNumber f.type)
  have hbelow : catalogue.below .field t
      = some (below ++ [(.type (kindNumber f.type), length - type)]) := by
    simpa [catalogue, tableShapes] using Catalogue.below_eq_some _ hfields hchoice
  have htype : List.Forall₂ (fun k cost => catalogue.Costs bs (depth + 1) k.1 k.2 cost)
      [(.type (kindNumber f.type), length - type)] [1] := .cons (costs_type f.type hty) .nil
  have hsum := Catalogue.costs_of_below ht.stands hbelow (List.rel_append hcosts htype)
  rw [List.sum_append, List.sum_replicate_nat, List.sum_singleton, Nat.mul_one] at hsum
  rwa [fieldTables, show 2 + f.metadata.pairs.length = 1 + (f.metadata.pairs.length + 1) by omega]

end Field

/-- A field is read where it was written. -/
theorem kept_field (f : Field) {d : Draft} (hd : d.Sound) (hlen : length < 2 ^ 31)
    (hin : (writeField f d).Inside bs length) :
    ∃ t, Kept fieldForm bs length f (writeField f d).place t := by
  obtain ⟨w, entries, hw, hentries, hwritten, hleads, hholds, hslots, hcount⟩ :=
    writeField_cases f d
  rw [hwritten] at hin ⊢
  have hmetadata : (writeMetadata f.metadata d).Sound := (leads_writeMetadata _ _).sound hd
  have hnamed : (named f d).Sound := (leads_named f d).sound hd
  have hinw := hin.of_leads (leads_table hholds)
  have hinNamed := hinw.of_leads hleads
  have hname : text? bs (length - (named f d).place) = some f.name :=
    Inside.text (Nat.lt_trans hlen (by decide)) hinNamed
  obtain ⟨t, ht⟩ := Inside.table (hleads.sound hnamed) hholds hslots hcount hlen hin
  obtain ⟨⟨ty, hty⟩, start, hchildren⟩ := writeType_inside f.type hnamed hlen (hw ▸ hinw)
  rw [← hw] at hty hchildren
  subst hentries
  obtain ⟨below, hpairs, hcosts, hread⟩ := metadata_check hd hlen
    (hinNamed.of_leads (leads_text _ _)) ht lookup_fieldEntries_metadata
  refine ⟨t, ht.stands, ?_, fun depth => costs_field ht hty hname hchildren hpairs (hcosts depth)⟩
  show (readField t).toOption = some f
  rw [readField_written ht hty hname hread]
  rfl

theorem mapM_readField {fs : List Field} {ps : List Nat} {ts : List Table}
    (h : KeptAll fieldForm bs length fs ps ts) : ts.mapM readField = .ok fs := by
  induction h with
  | nil => rfl
  | @cons f _ t _ _ _ ht _ ih =>
    have hread : readField t = .ok f := by
      have hreads : (readField t).toOption = some f := ht.reads
      generalize readField t = r at hreads ⊢
      cases r with
      | error e => exact absurd hreads (by simp [Except.toOption])
      | ok g => exact congrArg Except.ok (Option.some.inj hreads)
    rw [List.mapM_cons, hread, ih]
    rfl

/-! ### Schemas -/

/-- How many tables the table of a schema and all below it are. -/
def tableCount (s : Schema) : Nat :=
  1 + ((s.fields.map fieldTables).sum + s.metadata.pairs.length)

/-- Every field makes two tables at least. -/
theorem two_mul_length_lt_tableCount (s : Schema) : 2 * s.fields.length < tableCount s := by
  have hsum : ∀ fs : List Field, 2 * fs.length ≤ (fs.map fieldTables).sum := by
    intro fs
    induction fs with
    | nil => exact Nat.le_refl _
    | cons f r ih =>
      rw [List.length_cons, List.map_cons, List.sum_cons, fieldTables]
      omega
  have hfields := hsum s.fields
  rw [tableCount]
  omega

/-- The fields in the table of a schema whose list of fields, and whose list of pairs if there
is one, stand at these places. -/
def schemaEntries (s : Schema) (fields pairs : Nat) : List (Nat × Entry) :=
  [(1, .link fields)] ++ metadataEntry 2 s.metadata pairs

/-- The draft with the fields of a schema and their list in front. -/
def fielded (s : Schema) (d : Draft) : Draft :=
  (writeAll writeField s.fields d).1.links (writeAll writeField s.fields d).2

theorem leads_fielded (s : Schema) (d : Draft) : d.Leads (fielded s d) :=
  (leads_writeAll leads_writeField s.fields d).trans (leads_links _ _)

/-- A schema is a table put in front of its fields and its metadata. -/
theorem writeSchema_cases (s : Schema) (d : Draft) :
    ∃ (w : Draft) (entries : List (Nat × Entry)), w = writeMetadata s.metadata (fielded s d) ∧
      entries = schemaEntries s (fielded s d).place w.place ∧ writeSchema s d = w.table entries ∧
      (fielded s d).Leads w ∧ (∀ e ∈ entries, w.Holds e.2) ∧ (∀ e ∈ entries, e.1 < greatestSlots) ∧
      entries.length ≤ greatestSlots := by
  have hleads := leads_writeMetadata s.metadata (fielded s d)
  have hfields : (fielded s d).place ≤ (writeMetadata s.metadata (fielded s d)).size :=
    hleads.size_le
  refine ⟨_, _, rfl, rfl, rfl, hleads, ?_⟩
  by_cases hempty : s.metadata.pairs.isEmpty
  · simp [schemaEntries, metadataEntry, hempty, Holds, greatestSlots, hfields]
  · have hpairs := place_writeMetadata hempty (fielded s d)
    simp [schemaEntries, metadataEntry, hempty, Holds, greatestSlots, hfields, hpairs]

theorem leads_writeSchema (s : Schema) (d : Draft) : d.Leads (writeSchema s d) := by
  obtain ⟨w, entries, -, -, hwritten, hleads, hholds, -⟩ := writeSchema_cases s d
  rw [hwritten]
  exact (leads_fielded s d).trans (hleads.trans (leads_table hholds))

theorem place_writeSchema (s : Schema) (d : Draft) :
    (writeSchema s d).place ≤ (writeSchema s d).size := by
  obtain ⟨w, entries, -, -, hwritten, -⟩ := writeSchema_cases s d
  rw [hwritten]
  exact place_le_table _ _

section Schema

variable {s : Schema} {q fieldsPlace pairsPlace : Nat} {t : Table}

theorem lookup_schemaEntries {slot : Nat} (hone : slot ≠ 1) (htwo : slot ≠ 2) :
    (schemaEntries s fieldsPlace pairsPlace).lookup slot = none := by
  have hfirst : (slot == 1) = false := by simp [hone]
  have hlast := lookup_metadataEntry_ne htwo s.metadata pairsPlace
  simp [schemaEntries, List.lookup_cons, hfirst, hlast]

theorem lookup_schemaEntries_metadata :
    (schemaEntries s fieldsPlace pairsPlace).lookup 2
      = if s.metadata.pairs.isEmpty then none else some (.link pairsPlace) := by
  rw [← lookup_metadataEntry 2]
  rfl

/-- Below the table of a schema are those of its fields and of its pairs. -/
theorem below_schema (ht : Shown bs length q (schemaEntries s fieldsPlace pairsPlace) t)
    {fields pairs : List (TableKind × Nat)}
    (hfields : checkField t 1 (.tables TableKind.field) = some fields)
    (hpairs : checkField t 2 (.tables TableKind.pair) = some pairs) :
    catalogue.below .schema t = some (fields ++ pairs) := by
  have hall : catalogue.below .schema t = some ((catalogue.fields .schema).flatMap _ ++ []) :=
    Catalogue.below_eq_some (fun e => if e.1 = 1 then fields else if e.1 = 2 then pairs else [])
      (fun e he => ?_) rfl
  · simpa [catalogue, tableShapes] using hall
  · simp only [catalogue, tableShapes, List.mem_cons, List.not_mem_nil, or_false] at he
    rcases he with rfl | rfl | rfl | rfl
    · exact checkField_absent ht _ (lookup_schemaEntries (by decide) (by decide))
    · exact hfields
    · exact hpairs
    · exact checkField_absent ht _ (lookup_schemaEntries (by decide) (by decide))

end Schema

/-- The table of a schema is read where it was written, and costs one for each table. -/
theorem writeSchema_kept (s : Schema) {d : Draft} (hd : d.Sound) (hlen : length < 2 ^ 31)
    (hin : (writeSchema s d).Inside bs length) :
    ∃ t, Table.at? bs (length - (writeSchema s d).place) = some t ∧
      readSchemaTable t = .ok s ∧
      ∀ depth, catalogue.Costs bs (depth + 3) .schema (length - (writeSchema s d).place)
        (tableCount s) := by
  obtain ⟨w, entries, hw, hentries, hwritten, hleads, hholds, hslots, hcount⟩ :=
    writeSchema_cases s d
  rw [hwritten] at hin ⊢
  have hfielded := (leads_fielded s d).sound hd
  have hinw := hin.of_leads (leads_table hholds)
  obtain ⟨t, ht⟩ := Inside.table (hleads.sound hfielded) hholds hslots hcount hlen hin
  subst hentries hw
  have hlist : ListKept fieldForm bs length s.fields (fielded s d).place :=
    listKept_writeAll leads_writeField place_writeField
      (fun f d hd hin => kept_field f hd hlen hin) s.fields hd hlen (hinw.of_leads hleads)
  obtain ⟨fields, fts, hcheckFields, hcostFields, hreadFields, fps, hfts⟩ :=
    hlist.check ht (show List.lookup 1 _ = _ from rfl)
  obtain ⟨pairs, hcheckPairs, hcostPairs, hreadPairs⟩ := metadata_check hfielded hlen hinw
    ht lookup_schemaEntries_metadata
  refine ⟨t, ht.stands, ?_, fun depth => ?_⟩
  · simp only [readSchemaTable, hreadFields, mapM_readField hfts, hreadPairs]
    rfl
  · have hcosts := Catalogue.costs_of_below ht.stands (below_schema ht hcheckFields hcheckPairs)
      (List.rel_append (hcostFields depth) (hcostPairs (depth + 1)))
    rwa [List.sum_append, List.sum_replicate_nat, Nat.mul_one] at hcosts

end ExternalSort.Stream
