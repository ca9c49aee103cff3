import HeapStore.Proofs.StoredPages
import Mathlib.Order.Bounds.Basic

/-!
# Pages as maps

A page is a map from some of its slots to records. A record that is stored goes to the lowest slot that is free, and
stays there until a record that is the same is deleted at its place. Which slots are in use is told by the records and
by the bits of the header. Each change makes its mark in both, so both tell the same after any changes.

* `HeapPage.edit_cases`: what one change can do to a page.
* `HeapPage.insert_eq_ok`, `HeapPage.delete_eq_ok`: when the two changes can be made, and the page that they make.
* `HeapPage.insertAll`: records that are stored one after another. `HeapPage.insertAll_ok` and
  `HeapPage.insertAll_full`: **a page takes as many as it has free slots**.
* `Page.Edit.Deletes`: the change that names a record. `HeapPage.record?_editAll`: **nothing else removes it**.
* `HeapPage.edited_map`: whatever is done to a page, it is **a map from its slots to records** (`HeapPage.IsMap`).
-/

namespace HeapStore

/-- The change names a record at its place. -/
def Page.Edit.Deletes (place : RecordId) (r : Record) : Page.Edit → Prop
  | .delete r' => r'.place = some place ∧ r.Same r'
  | _ => False

namespace HeapPage

open Page (Edit)

variable {id : PageId} {s : Schema} {size : Nat} {bytes : Bytes} {h q : HeapPage} {p : Page} {r : Record}
  {place : RecordId} {fault : RecordFault} {slot i : Nat}

/-! ## One change -/

/-- The free slot that the bits give is the lowest that holds no record. -/
theorem Keeps.isLeast_freeSlot? (k : h.Keeps p) :
    h.freeSlot? = some slot ↔ IsLeast {i | i < h.records.length ∧ h.record? i = none} slot := by
  have hfree : ∀ i, h.isUsed i = false ↔ h.record? i = none := by
    intro i
    rw [k.isUsed_eq, Option.isSome_eq_false_iff, Option.isNone_iff_eq_none]
  rw [freeSlot?_eq_some]
  constructor
  · rintro ⟨hlt, hnone, hless⟩
    refine ⟨⟨hlt, (hfree slot).1 hnone⟩, fun i hi => ?_⟩
    by_contra hge
    -- a free slot below it would have been found first
    have hused := hless i (Nat.lt_of_not_le hge)
    rw [(hfree i).2 hi.2] at hused
    cases hused
  · rintro ⟨⟨hlt, hnone⟩, hleast⟩
    refine ⟨hlt, (hfree slot).2 hnone, fun i hi => ?_⟩
    by_contra hf
    rw [Bool.not_eq_true, hfree] at hf
    have hle := hleast ⟨Nat.lt_trans hi hlt, hf⟩
    omega

/-- **A record is stored if its types are those of the page and a slot is free**, and it goes to the lowest one. -/
theorem insert_eq_ok (k : h.Keeps p) : h.insert r = (.ok place, q) ↔ r.schema.types = h.schema.types ∧ ∃ slot,
    IsLeast {i | i < h.records.length ∧ h.record? i = none} slot ∧ place = ⟨h.id, slot⟩ ∧
      q = h.setSlot slot (some { r with place := some place }) := by
  unfold insert
  constructor
  · intro hi
    split at hi
    · cases hi
    · next ht =>
      split at hi
      · cases hi
      · next slot hs =>
        cases hi
        exact ⟨not_not.1 ht, slot, k.isLeast_freeSlot?.1 hs, rfl, rfl⟩
  · rintro ⟨ht, slot, hleast, rfl, rfl⟩
    rw [if_neg (not_not.2 ht), k.isLeast_freeSlot?.2 hleast]

/-- A record that is not stored leaves the page alone. -/
theorem insert_eq_error (hi : h.insert r = (.error fault, q)) : q = h := by
  unfold insert at hi
  split at hi
  · cases hi
    rfl
  · split at hi
    · cases hi
      rfl
    · cases hi

/-- **A record is deleted if the same record lies at its place.** -/
theorem delete_eq_ok : h.delete r = (.ok (), q) ↔ ∃ slot r', r.place = some ⟨h.id, slot⟩ ∧
    h.record? slot = some r' ∧ r'.Same r ∧ q = h.setSlot slot none := by
  constructor
  · intro hd
    unfold delete at hd
    split at hd
    · cases hd
    · next page slot hp =>
      split at hd
      · cases hd
      · next hid =>
        split at hd
        · cases hd
        · cases hd
        · next r' hr =>
          split at hd
          · next hsame =>
            cases hd
            refine ⟨slot, r', by rw [hp, not_not.1 hid], ?_, hsame, rfl⟩
            unfold record?
            rw [hr]
            rfl
          · cases hd
  · rintro ⟨slot, r', hplace, hr, hsame, rfl⟩
    have hfound := record?_of_lt (lt_of_record? hr)
    rw [hr] at hfound
    unfold delete
    simp only [hplace, hfound, ne_eq, not_true_eq_false, if_false]
    rw [if_pos hsame]

/-- A record that is not deleted leaves the page alone. -/
theorem delete_eq_error (hd : h.delete r = (.error fault, q)) : q = h := by
  unfold delete at hd
  split at hd
  · cases hd
    rfl
  · split at hd
    · cases hd
      rfl
    · split at hd
      · cases hd
        rfl
      · cases hd
        rfl
      · split at hd
        · cases hd
        · cases hd
          rfl

/-- What one change can do: it leaves all slots alone, or stores a record in the lowest free slot, or frees the slot of
a record that it names. -/
theorem edit_cases (k : h.Keeps p) (c : Edit) :
    ((h.edit c).records = h.records ∧ (h.edit c).header = h.header) ∨
      (∃ r slot, IsLeast {i | i < h.records.length ∧ h.record? i = none} slot ∧ h.edit c = h.setSlot slot (some r)) ∨
      ∃ slot r, h.record? slot = some r ∧ c.Deletes ⟨h.id, slot⟩ r ∧ h.edit c = h.setSlot slot none := by
  cases c with
  | insert r =>
    show ((h.insert r).2.records = _ ∧ (h.insert r).2.header = _) ∨ _
    rcases hi : h.insert r with ⟨fault | place, q⟩
    · obtain rfl := insert_eq_error hi
      exact .inl ⟨rfl, rfl⟩
    · obtain ⟨-, slot, hleast, -, rfl⟩ := (insert_eq_ok k).1 hi
      exact .inr (.inl ⟨_, slot, hleast, congrArg Prod.snd hi⟩)
  | delete r =>
    show ((h.delete r).2.records = _ ∧ (h.delete r).2.header = _) ∨ _
    rcases hd : h.delete r with ⟨fault | _, q⟩
    · obtain rfl := delete_eq_error hd
      exact .inl ⟨rfl, rfl⟩
    · obtain ⟨slot, r', hplace, hr', hsame, rfl⟩ := delete_eq_ok.1 hd
      exact .inr (.inr ⟨slot, r', hr', ⟨hplace, hsame⟩, congrArg Prod.snd hd⟩)
  | mark owner => exact .inl ⟨rfl, rfl⟩
  | settle => exact .inl ⟨rfl, rfl⟩

/-- A slot that is taken and freed again leaves nothing behind. -/
theorem setSlot_setSlot_none (k : h.Keeps p) (hs : slot < h.records.length) (hn : h.record? slot = none) (r : Record) :
    (h.setSlot slot (some r)).setSlot slot none = h := by
  have hrecords : (h.records.set slot (some r)).set slot none = h.records := by
    have hfree := record?_of_lt hs
    rw [hn, List.getElem?_eq_getElem hs, Option.some_inj] at hfree
    rw [List.set_set, ← hfree, List.set_getElem_self]
  have hheader : (h.header.setUsed slot true).setUsed slot false = h.header := by
    -- the bit was clear, as the slot had no record
    refine Bytes.setUsed_setUsed_false fun hu => ?_
    have hused : h.isUsed slot = true := by
      unfold isUsed
      rw [decide_eq_true hs, Bytes.isUsed_iff.2 hu, Bool.and_self]
    rw [k.isUsed_eq, hn] at hused
    cases hused
  show { h with header := (h.header.setUsed slot true).setUsed slot false,
                records := (h.records.set slot (some r)).set slot none } = h
  rw [hrecords, hheader]

/-! ## Filling a page -/

/-- **Each slot is free or holds a record.** -/
theorem Keeps.freeSlots_add_stored (k : h.Keeps p) : h.freeSlots + h.stored.length = h.records.length := by
  have hstored : h.stored.length = h.records.countP fun r => decide ¬r.isNone = true := by
    unfold stored
    rw [List.length_filterMap_eq_countP]
    congr 1
    funext r
    cases r <;> rfl
  rw [k.count_free, hstored, ← List.length_eq_countP_add_countP]

/-- A slot that gets a record is one free slot less. -/
theorem Keeps.freeSlots_setSlot {p' : Page} (k : h.Keeps p) (k' : (h.setSlot slot (some r)).Keeps p')
    (hs : slot < h.records.length) (hn : h.record? slot = none) :
    (h.setSlot slot (some r)).freeSlots + 1 = h.freeSlots := by
  have hfree : h.records[slot] = none := by
    rw [← Option.some_inj, ← List.getElem?_eq_getElem, record?_of_lt hs, hn]
  have hpos : 0 < h.records.countP Option.isNone :=
    List.countP_pos_iff.2 ⟨_, List.getElem_mem hs, by rw [hfree]; rfl⟩
  rw [k'.count_free, k.count_free]
  show (h.records.set slot (some r)).countP Option.isNone + 1 = _
  rw [List.countP_set hs, hfree, Option.isNone_none, if_pos rfl, Option.isNone_some, if_neg Bool.false_ne_true]
  omega

/-- A record of the right types takes one of the free slots. -/
theorem Keeps.insert_step (k : h.Keeps p) (ht : r.schema.types = h.schema.types) (hf : h.freeSlots ≠ 0) :
    ∃ place q p', h.insert r = (.ok place, q) ∧ q.Keeps p' ∧ q.freeSlots + 1 = h.freeSlots ∧ q.id = h.id ∧
      q.schema = h.schema := by
  cases hs : h.freeSlot? with
  | none => exact absurd (freeSlot?_eq_none_iff.1 hs) hf
  | some slot =>
    have hleast := k.isLeast_freeSlot?.1 hs
    have hi := (insert_eq_ok k).2 ⟨ht, slot, hleast, rfl, rfl⟩
    have hk := k.edit (.insert r)
    rw [show h.edit (.insert r) = _ from congrArg Prod.snd hi] at hk
    exact ⟨_, _, _, hi, hk, k.freeSlots_setSlot hk hleast.1.1 hleast.1.2, rfl, rfl⟩

/-- A page without free slots is full. -/
theorem insert_of_full (ht : r.schema.types = h.schema.types) (hf : h.freeSlots = 0) :
    h.insert r = (.error (.pageFull h.id), h) := by
  unfold insert
  rw [if_neg (not_not.2 ht), freeSlot?_eq_none_iff.2 hf]

/-- Records that are stored one after another, up to the first fault. -/
def insertAll (h : HeapPage) : List Record → Except RecordFault (List RecordId) × HeapPage
  | [] => (.ok [], h)
  | r :: rs =>
    match h.insert r with
    | (.ok place, q) => ((q.insertAll rs).1.map (place :: ·), (q.insertAll rs).2)
    | (.error fault, q) => (.error fault, q)

/-- **As many records as there are free slots are stored.** -/
theorem insertAll_ok (rs : List Record) : ∀ {h : HeapPage} {p : Page}, h.Keeps p →
    (∀ r ∈ rs, r.schema.types = h.schema.types) → rs.length ≤ h.freeSlots →
      ∃ places q, h.insertAll rs = (.ok places, q) ∧ q.freeSlots + rs.length = h.freeSlots := by
  induction rs with
  | nil => exact fun _ _ _ => ⟨[], _, rfl, rfl⟩
  | cons r rs ih =>
    intro h p k ht hle
    rw [List.length_cons] at hle ⊢
    obtain ⟨place, q, p', hi, hk, hfree, -, hschema⟩ := k.insert_step (ht r List.mem_cons_self) (by omega)
    obtain ⟨places, q', hall, hfree'⟩ := ih hk
      (fun r' hm => (ht r' (List.mem_cons_of_mem _ hm)).trans (congrArg Schema.types hschema.symm)) (by omega)
    refine ⟨place :: places, q', ?_, by omega⟩
    unfold insertAll
    rw [hi]
    simp only [hall]
    rfl

/-- **More records than that are not.** -/
theorem insertAll_full (rs : List Record) : ∀ {h : HeapPage} {p : Page}, h.Keeps p →
    (∀ r ∈ rs, r.schema.types = h.schema.types) → h.freeSlots < rs.length →
      (h.insertAll rs).1 = .error (.pageFull h.id) := by
  induction rs with
  | nil => exact fun _ _ hlt => absurd hlt (Nat.not_lt_zero _)
  | cons r rs ih =>
    intro h p k ht hlt
    have hr := ht r List.mem_cons_self
    rw [List.length_cons] at hlt
    unfold insertAll
    by_cases hf : h.freeSlots = 0
    · rw [insert_of_full hr hf]
    · obtain ⟨place, q, p', hi, hk, hfree, hid, hschema⟩ := k.insert_step hr hf
      have hrest := ih hk
        (fun r' hm => (ht r' (List.mem_cons_of_mem _ hm)).trans (congrArg Schema.types hschema.symm)) (by omega)
      rw [hi]
      simp only [hrest, hid]
      rfl

/-! ## What stays -/

/-- A record stays in its slot unless the change names it. -/
theorem record?_edit (k : h.Keeps p) {c : Edit} (hr : h.record? i = some r) (hc : ¬ c.Deletes ⟨h.id, i⟩ r) :
    (h.edit c).record? i = some r := by
  rcases edit_cases k c with ⟨hrecords, -⟩ | ⟨r', slot, hleast, he⟩ | ⟨slot, r', hr', hd, he⟩
  · unfold record? at hr ⊢
    rw [hrecords]
    exact hr
  · -- the slot that is taken was free, so it is another one
    have hne : i ≠ slot := by
      rintro rfl
      rw [hleast.1.2] at hr
      cases hr
    rw [he, record?_setSlot hleast.1.1, if_neg hne]
    exact hr
  · have hne : i ≠ slot := by
      rintro rfl
      rw [hr] at hr'
      cases hr'
      exact hc hd
    rw [he, record?_setSlot (lt_of_record? hr'), if_neg hne]
    exact hr

/-- **A record stays in its slot until a change names it.** -/
theorem record?_editAll (edits : List Edit) : ∀ {h : HeapPage} {p : Page}, h.Keeps p → h.record? i = some r →
    (∀ c ∈ edits, ¬ c.Deletes ⟨h.id, i⟩ r) → (h.editAll edits).record? i = some r := by
  induction edits with
  | nil => exact fun _ hr _ => hr
  | cons c edits ih =>
    intro h p k hr hc
    refine ih (k.edit c) (record?_edit k hr (hc c List.mem_cons_self)) fun c' hm => ?_
    rw [(k.edit c).id, (Page.edit_keeps p c).1, ← k.id]
    exact hc c' (List.mem_cons_of_mem _ hm)

/-- The bits that belong to no slot stay as they are. -/
theorem used_edit (k : h.Keeps p) (c : Edit) (hb : h.records.length ≤ i) :
    ((h.edit c).header.Used i ↔ h.header.Used i) ∧ (h.edit c).records.length = h.records.length := by
  rcases edit_cases k c with ⟨hrecords, hheader⟩ | ⟨r, slot, hleast, he⟩ | ⟨slot, r, hr, -, he⟩
  · rw [hrecords, hheader]
    exact ⟨Iff.rfl, rfl⟩
  · have hlt : slot < h.records.length := hleast.1.1
    rw [he]
    exact ⟨Bytes.used_setUsed_of_ne (by omega), List.length_set⟩
  · have hlt := lt_of_record? hr
    rw [he]
    exact ⟨Bytes.used_setUsed_of_ne (by omega), List.length_set⟩

theorem used_editAll (edits : List Edit) : ∀ {h : HeapPage} {p : Page}, h.Keeps p → h.records.length ≤ i →
    ((h.editAll edits).header.Used i ↔ h.header.Used i) := by
  induction edits with
  | nil => exact fun _ _ => Iff.rfl
  | cons c edits ih =>
    intro h p k hb
    obtain ⟨hused, hlength⟩ := used_edit k c hb
    exact (ih (k.edit c) (by rw [hlength]; exact hb)).trans hused

/-! ## The map -/

/-- A page, which was read from some bytes and then changed, as a map from its slots to records. -/
structure IsMap (id : PageId) (s : Schema) (size : Nat) (bytes : Bytes) (h : HeapPage) : Prop where
  length : h.records.length = s.slotCount size
  header : h.header.length = s.headerSize size
  /-- The bits of the header say which slots hold records. -/
  used : ∀ slot < s.slotCount size, h.header.Used slot ↔ ∃ r, h.record? slot = some r
  placed : ∀ slot r, h.record? slot = some r → slot < s.slotCount size ∧ r.place = some ⟨id, slot⟩
  /-- The bits behind those of the slots are as they were read. -/
  spare : ∀ bit, s.slotCount size ≤ bit → bit < 8 * s.headerSize size → (h.header.Used bit ↔ bytes.Used bit)
  /-- The free slots are counted by the clear bits, and the others by the records. -/
  count : h.freeSlots + h.stored.length = s.slotCount size
  listed : ∀ r, r ∈ h.stored ↔ ∃ slot, h.record? slot = some r
  insert_iff : ∀ r : Record, (∃ place q, h.insert r = (.ok place, q)) ↔
    r.schema.types = s.types ∧ ∃ slot < s.slotCount size, h.record? slot = none
  inserted : ∀ r place q, h.insert r = (.ok place, q) → ∃ slot, place = ⟨id, slot⟩ ∧
    IsLeast {i | i < s.slotCount size ∧ h.record? i = none} slot ∧ q.record? slot = some { r with place := some place } ∧
      (∀ i ≠ slot, q.record? i = h.record? i) ∧ q.header = h.header.setUsed slot true
  delete_iff : ∀ r, (∃ q, h.delete r = (.ok (), q)) ↔ ∃ slot < s.slotCount size, r.place = some ⟨id, slot⟩ ∧
    ∃ r', h.record? slot = some r' ∧ r'.Same r
  deleted : ∀ r q, h.delete r = (.ok (), q) → ∃ slot, r.place = some ⟨id, slot⟩ ∧ q.record? slot = none ∧
    (∀ i ≠ slot, q.record? i = h.record? i) ∧ q.header = h.header.setUsed slot false
  /-- A change that cannot be made changes nothing. -/
  failed : (∀ r fault q, h.insert r = (.error fault, q) → q = h) ∧ ∀ r fault q, h.delete r = (.error fault, q) → q = h
  /-- As many records are stored as there are free slots, and then the page is full. -/
  filled : ∀ rs : List Record, (∀ r ∈ rs, r.schema.types = s.types) →
    (rs.length ≤ h.freeSlots → ∃ places q, h.insertAll rs = (.ok places, q) ∧ q.freeSlots + rs.length = h.freeSlots) ∧
      (h.freeSlots < rs.length → (h.insertAll rs).1 = .error (.pageFull id))
  /-- A record stays in its slot until it is deleted there. -/
  kept : ∀ slot r edits, h.record? slot = some r → (∀ c ∈ edits, ¬ Edit.Deletes ⟨id, slot⟩ r c) →
    (h.editAll edits).record? slot = some r
  /-- A record that is stored and deleted again leaves nothing behind, so the stored bytes are as before. -/
  undone : ∀ r place q, h.insert r = (.ok place, q) →
    q.delete { r with place := some place } = (.ok (), h)

theorem Keeps.isMap (k : h.Keeps p) (bytes : Bytes) (hspare : ∀ bit, h.schema.slotCount h.size ≤ bit →
    bit < 8 * h.schema.headerSize h.size → (h.header.Used bit ↔ bytes.Used bit)) :
    IsMap h.id h.schema h.size bytes h where
  length := k.length_records
  header := k.length_header
  used slot hs := by
    rw [← k.length_records] at hs
    rw [← Option.isSome_iff_exists, ← k.isUsed_eq]
    unfold isUsed
    rw [decide_eq_true hs, Bool.true_and, Bytes.isUsed_iff]
  placed slot r hr := by
    refine ⟨k.length_records ▸ lt_of_record? hr, ?_⟩
    have hrel := k.records slot
    rw [hr] at hrel
    cases hp : p.record? slot with
    | none =>
      rw [hp] at hrel
      cases hrel
    | some r' =>
      rw [hp] at hrel
      cases hrel with
      | some htwin => rw [htwin.2, Page.place_of_record? hp, k.id]
  spare := hspare
  count := k.freeSlots_add_stored.trans k.length_records
  listed r := mem_stored
  insert_iff r := by
    rw [← k.length_records]
    constructor
    · rintro ⟨place, q, hi⟩
      obtain ⟨ht, slot, hleast, -, -⟩ := (insert_eq_ok k).1 hi
      exact ⟨ht, slot, hleast.1⟩
    · rintro ⟨ht, slot, hlt, hnone⟩
      have hfree : h.freeSlots ≠ 0 := by
        rw [k.count_free, Nat.ne_zero_iff_zero_lt, List.countP_pos_iff]
        refine ⟨h.record? slot, List.mem_of_getElem? (record?_of_lt hlt), ?_⟩
        rw [hnone]
        rfl
      obtain ⟨place, q, -, hi, -⟩ := k.insert_step ht hfree
      exact ⟨place, q, hi⟩
  inserted r place q hi := by
    rw [← k.length_records]
    obtain ⟨-, slot, hleast, rfl, rfl⟩ := (insert_eq_ok k).1 hi
    refine ⟨slot, rfl, hleast, ?_, fun i hne => ?_, rfl⟩
    · rw [record?_setSlot hleast.1.1, if_pos rfl]
    · rw [record?_setSlot hleast.1.1, if_neg hne]
  delete_iff r := by
    rw [← k.length_records]
    constructor
    · rintro ⟨q, hd⟩
      obtain ⟨slot, r', hplace, hr', hsame, -⟩ := delete_eq_ok.1 hd
      exact ⟨slot, lt_of_record? hr', hplace, r', hr', hsame⟩
    · rintro ⟨slot, -, hplace, r', hr', hsame⟩
      exact ⟨_, delete_eq_ok.2 ⟨slot, r', hplace, hr', hsame, rfl⟩⟩
  deleted r q hd := by
    obtain ⟨slot, r', hplace, hr', -, rfl⟩ := delete_eq_ok.1 hd
    have hlt := lt_of_record? hr'
    refine ⟨slot, hplace, ?_, fun i hne => ?_, rfl⟩
    · rw [record?_setSlot hlt, if_pos rfl]
    · rw [record?_setSlot hlt, if_neg hne]
  failed := ⟨fun r fault q hi => insert_eq_error hi, fun r fault q hd => delete_eq_error hd⟩
  filled rs ht := ⟨insertAll_ok rs k ht, insertAll_full rs k ht⟩
  kept slot r edits hr hc := record?_editAll edits k hr hc
  undone r place q hi := by
    obtain ⟨-, slot, hleast, rfl, rfl⟩ := (insert_eq_ok k).1 hi
    refine delete_eq_ok.2 ⟨slot, { r with place := some ⟨h.id, slot⟩ }, rfl, ?_, ⟨rfl, rfl⟩, ?_⟩
    · rw [record?_setSlot hleast.1.1, if_pos rfl]
    · exact (setSlot_setSlot_none k hleast.1.1 hleast.1.2 _).symm

/-- **Whatever is done to a page, it is a map from its slots to records.** A page was read from any bytes that store
one, or has no records at first, and begins with the header of these bytes. After any changes the bits of its header
say which slots hold records, each record has the place of its slot, and the bits that belong to no slot are as they
were. A record is stored if and only if its types are those of the page and a slot is free, in the lowest such slot,
and it is deleted if and only if the same record lies at its place; nothing else changes, and nothing at all if it
fails. So a page takes as many records as it has free slots, each stays until it is deleted by name, and to store a
record and delete it again is to do nothing. -/
theorem edited_map (id : PageId) (s : Schema) (size : Nat) (edits : List Edit) :
    (∀ h, blank id s size = .ok h → h.header = Bytes.zeros (s.headerSize size) ∧
      IsMap id s size (Bytes.zeros size) (h.editAll edits)) ∧
    ∀ bytes h, decode id s size bytes = .ok h → h.header = bytes.take (s.headerSize size) ∧
      IsMap id s size bytes (h.editAll edits) := by
  have hdecode : ∀ bytes h, decode id s size bytes = .ok h → h.header = bytes.take (s.headerSize size) ∧
      IsMap id s size bytes (h.editAll edits) := by
    intro bytes h hd
    obtain ⟨p, hp, k⟩ := keeps_of_decode hd
    obtain ⟨hid, hschema, hsize, -⟩ := Page.fields_of_decode hp
    obtain ⟨hid', hschema', hsize', -⟩ := Page.editAll_keeps edits p
    have hheader : h.header = bytes.take (s.headerSize size) := k.header.trans (Page.header_of_decode hp)
    have ke := k.editAll edits
    have hmap := ke.isMap bytes fun bit hle hlt => by
      -- the spare bits are still those that were read
      rw [ke.schema, ke.size, hschema', hsize', hschema, hsize] at hle hlt
      have hlength : h.records.length = s.slotCount size := by rw [k.length_records, k.schema, k.size, hschema, hsize]
      rw [used_editAll edits k (by rw [hlength]; exact hle), hheader]
      unfold Bytes.Used
      rw [List.getElem?_take, if_pos (by omega)]
    rw [ke.id, ke.schema, ke.size, hid', hschema', hsize', hid, hschema, hsize] at hmap
    exact ⟨hheader, hmap⟩
  refine ⟨fun h hb => ?_, hdecode⟩
  obtain ⟨hheader, hmap⟩ := hdecode _ h hb
  refine ⟨?_, hmap⟩
  unfold Bytes.zeros at hheader
  rw [List.take_replicate, Nat.min_eq_left (s.headerSize_le size)] at hheader
  exact hheader

end HeapPage

namespace Sample

open Page (Edit)

/-- A record is stored in the free slot of the page, and the record in its first slot is deleted. -/
def exchange : List Edit := [.insert (record 6), .delete { record 5 with place := some ⟨⟨table, 0⟩, 0⟩ }]

/-- The bits behind those of the two slots stay set, and a page without records takes two. -/
theorem edited_map_untidy :
    (∃ h, HeapPage.blank ⟨table, 0⟩ schema 9 = .ok h ∧
      HeapPage.IsMap ⟨table, 0⟩ schema 9 (Bytes.zeros 9) (h.editAll []) ∧ h.freeSlots = 2) ∧
    ∃ h, HeapPage.decode ⟨table, 0⟩ schema 9 untidy = .ok h ∧
      HeapPage.IsMap ⟨table, 0⟩ schema 9 untidy (h.editAll exchange) ∧ (h.editAll exchange).header = [0xFE] := by
  have hblank : ((HeapPage.blank ⟨table, 0⟩ schema 9).map HeapPage.freeSlots).toOption = some 2 := by decide +kernel
  have hread : ((HeapPage.decode ⟨table, 0⟩ schema 9 untidy).map fun h => (h.editAll exchange).header).toOption =
      some [0xFE] := by decide +kernel
  obtain ⟨h, hh, hfree⟩ := exists_of_map_toOption hblank
  obtain ⟨q, hq, hheader⟩ := exists_of_map_toOption hread
  exact ⟨⟨h, hh, ((HeapPage.edited_map ⟨table, 0⟩ schema 9 []).1 h hh).2, hfree⟩,
    q, hq, ((HeapPage.edited_map ⟨table, 0⟩ schema 9 exchange).2 untidy q hq).2, hheader⟩

end Sample

end HeapStore
