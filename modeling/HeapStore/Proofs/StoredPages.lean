import HeapStore.Page.Stored
import HeapStore.Proofs.HeaderBits
import HeapStore.Proofs.PageEdits
import Mathlib.Data.Option.Basic

/-!
# Pages and their headers

A page in memory keeps a header and records, and `Page` has slots of which both can be told. What is done to the one is
done to the other: they are read from the same bytes or refused for the same fault, answer alike, and are stored alike.

* `Record.Twin`: records of the same fields at the same place. Only the names of their columns may differ.
* `HeapPage.Keeps`: the header is that of the slots, and the records are what the slots hold.
* `decode_keeps`: both are read from the same bytes. `Keeps.insert`, `Keeps.delete`: **each change answers alike and is
  made in both**, or in neither. `Keeps.editAll`: and so after any changes.
* `Keeps.encode_eq`, `Keeps.freeSlots_eq`: both store the same bytes, and count the same free slots.
* `edited_same`: **nobody can tell one page from the other** (`HeapPage.Same`).
-/

namespace HeapStore

/-- The records have the same fields, and lie at the same place. -/
def Record.Twin (a b : Record) : Prop := a.Same b ∧ a.place = b.place

namespace HeapPage

variable {h : HeapPage} {p : Page} {r : Record} {slot : Nat} {id : PageId} {s : Schema} {size : Nat} {bytes : Bytes}

/-- The page keeps what the slots of the other one hold: in its records, and in the bits of its header. -/
structure Keeps (h : HeapPage) (p : Page) : Prop where
  id : h.id = p.id
  schema : h.schema = p.schema
  size : h.size = p.size
  header : h.header = p.header
  length : h.records.length = p.slots.length
  records : ∀ slot, Option.Rel Record.Twin (h.record? slot) (p.record? slot)
  dirty : h.dirty = p.dirty
  image : h.image = p.image

theorem lt_of_record? (hr : h.record? slot = some r) : slot < h.records.length := by
  unfold record? at hr
  rw [Option.join_eq_some_iff] at hr
  exact (List.getElem?_eq_some_iff.1 hr).1

theorem record?_of_lt (hs : slot < h.records.length) : h.records[slot]? = some (h.record? slot) := by
  unfold record?
  rw [List.getElem?_eq_getElem hs]
  rfl

theorem record?_setSlot (hs : slot < h.records.length) (o : Option Record) (i : Nat) :
    (h.setSlot slot o).record? i = if i = slot then o else h.record? i := by
  show ((h.records.set slot o)[i]?).join = _
  rw [List.getElem?_set]
  by_cases hi : i = slot
  · subst hi
    rw [if_pos rfl, if_pos hs, if_pos rfl]
    rfl
  · rw [if_neg (Ne.symm hi), if_neg hi]
    rfl

theorem mem_stored : r ∈ h.stored ↔ ∃ slot, h.record? slot = some r := by
  unfold stored
  rw [List.mem_filterMap]
  constructor
  · rintro ⟨_, hm, rfl⟩
    obtain ⟨slot, hlt, hr⟩ := List.getElem_of_mem hm
    refine ⟨slot, ?_⟩
    unfold record?
    rw [List.getElem?_eq_getElem hlt, hr]
    rfl
  · rintro ⟨slot, hr⟩
    unfold record? at hr
    rw [Option.join_eq_some_iff] at hr
    exact ⟨some r, List.mem_of_getElem? hr, rfl⟩

/-- The lowest free slot is free, and no slot below it is. -/
theorem freeSlot?_eq_some : h.freeSlot? = some slot ↔ slot < h.records.length ∧ h.isUsed slot = false ∧
    ∀ i < slot, h.isUsed i = true := by
  unfold freeSlot?
  rw [List.find?_range_eq_some, List.mem_range]
  simp only [Bool.not_eq_true', Bool.not_not]
  exact ⟨fun ⟨hf, hlt, hless⟩ => ⟨hlt, hf, hless⟩, fun ⟨hlt, hf, hless⟩ => ⟨hf, hlt, hless⟩⟩

theorem freeSlot?_eq_none_iff : h.freeSlot? = none ↔ h.freeSlots = 0 := by
  unfold freeSlot? freeSlots
  rw [List.find?_eq_none, List.length_eq_zero_iff, List.filter_eq_nil_iff]

/-! ## What can be told of both -/

namespace Keeps

variable (k : h.Keeps p)

include k

theorem length_records : h.records.length = h.schema.slotCount h.size := by
  rw [k.length, p.length_slots, k.schema, k.size]

theorem length_header : h.header.length = h.schema.headerSize h.size := by
  rw [k.header, k.schema, k.size]
  exact Bits.length_pack _ _

theorem record?_eq_none_iff : h.record? slot = none ↔ p.record? slot = none := by
  have hrel := k.records slot
  cases hr : h.record? slot with
  | none =>
    cases hp : p.record? slot with
    | none => exact Iff.rfl
    | some r' =>
      rw [hr, hp] at hrel
      cases hrel
  | some r =>
    cases hp : p.record? slot with
    | none =>
      rw [hr, hp] at hrel
      cases hrel
    | some r' => exact ⟨fun he => (Option.some_ne_none r he).elim, fun he => (Option.some_ne_none r' he).elim⟩

/-- **The bits say which slots hold records.** -/
theorem isUsed_eq (slot : Nat) : h.isUsed slot = (h.record? slot).isSome := by
  rw [Bool.eq_iff_iff, Option.isSome_iff_ne_none, ne_eq, k.record?_eq_none_iff]
  unfold isUsed
  rw [Bool.and_eq_true, decide_eq_true_eq, Bytes.isUsed_iff, k.length, k.header]
  constructor
  · rintro ⟨hlt, hu⟩
    obtain ⟨row, hrow⟩ := (Page.used_header_iff hlt).1 hu
    unfold Page.record?
    rw [hrow]
    exact Option.some_ne_none _
  · intro hr
    obtain ⟨r, hr⟩ := Option.ne_none_iff_exists'.1 hr
    obtain ⟨row, hrow, -⟩ := Option.map_eq_some_iff.1 hr
    have hlt : slot < p.slots.length := (List.getElem?_eq_some_iff.1 (Page.row?_eq_some_iff.1 hrow)).1
    exact ⟨hlt, (Page.used_header_iff hlt).2 ⟨row, hrow⟩⟩

/-- The records are alike in each slot, so the slots are taken alike. -/
theorem isSome_eq (hs : slot < p.slots.length) : h.isUsed slot = p.slots[slot].isSome := by
  have hrow : p.row? slot = p.slots[slot] := by
    unfold Page.row?
    rw [List.getElem?_eq_getElem hs]
    rfl
  rw [k.isUsed_eq, Bool.eq_iff_iff, Option.isSome_iff_ne_none, Option.isSome_iff_ne_none, ne_eq, ne_eq,
    k.record?_eq_none_iff, ← hrow]
  unfold Page.record?
  rw [Option.map_eq_none_iff]

theorem freeSlot?_eq : h.freeSlot? = p.slots.findIdx? Option.isNone := by
  apply Option.ext
  intro slot
  rw [freeSlot?_eq_some, List.findIdx?_eq_some_iff_getElem, k.length]
  constructor
  · rintro ⟨hlt, hfree, hless⟩
    rw [k.isSome_eq hlt, Option.isSome_eq_false_iff] at hfree
    refine ⟨hlt, hfree, fun i hi hnone => ?_⟩
    have hused := hless i hi
    rw [k.isSome_eq (Nat.lt_trans hi hlt), ← Option.not_isNone, hnone] at hused
    cases hused
  · rintro ⟨hlt, hfree, hless⟩
    refine ⟨hlt, by rw [k.isSome_eq hlt, Option.isSome_eq_false_iff]; exact hfree, fun i hi => ?_⟩
    rw [k.isSome_eq (Nat.lt_trans hi hlt), ← Option.not_isNone, Bool.not_eq_true']
    exact Bool.eq_false_iff.2 (hless i hi)

/-- The clear bits count the slots without records. -/
theorem count_free : h.freeSlots = h.records.countP Option.isNone := by
  have hrecords : h.records = (List.range h.records.length).map h.record? := by
    refine List.ext_getElem (by rw [List.length_map, List.length_range]) fun i hi _ => ?_
    rw [List.getElem_map, List.getElem_range, ← Option.some_inj, ← record?_of_lt hi, List.getElem?_eq_getElem hi]
  unfold freeSlots
  rw [← List.countP_eq_length_filter, hrecords, List.countP_map, ← hrecords]
  refine List.countP_congr fun i _ => ?_
  rw [k.isUsed_eq, Function.comp_apply, Option.not_isSome]

/-- Both count the same free slots: the one by its bits, the other by its rows. -/
theorem freeSlots_eq : h.freeSlots = p.freeSlots := by
  have hslots : h.records.map Option.isNone = p.slots.map Option.isNone := by
    refine List.ext_getElem (by rw [List.length_map, List.length_map, k.length]) fun i hi hi' => ?_
    rw [List.length_map] at hi hi'
    have hr : h.records[i] = h.record? i := by rw [← Option.some_inj, ← record?_of_lt hi, List.getElem?_eq_getElem hi]
    rw [List.getElem_map, List.getElem_map, hr, ← Option.not_isSome, ← Option.not_isSome, ← k.isUsed_eq,
      k.isSome_eq hi']
  rw [k.count_free]
  show h.records.countP ((fun free => free) ∘ Option.isNone) = p.slots.countP ((fun free => free) ∘ Option.isNone)
  rw [← List.countP_map, ← List.countP_map, hslots]

/-- **Both store the same bytes**: the one its header and its records, the other its slots. -/
theorem encode_eq : h.encode = p.encode := by
  have hslots : h.records.map h.encodeSlot = p.slots.map p.schema.encodeSlot := by
    refine List.ext_getElem (by rw [List.length_map, List.length_map, k.length]) fun i hi hi' => ?_
    rw [List.length_map] at hi hi'
    rw [List.getElem_map, List.getElem_map]
    have hrel := k.records i
    unfold record? Page.record? Page.row? at hrel
    rw [List.getElem?_eq_getElem hi, List.getElem?_eq_getElem hi'] at hrel
    cases hrow : p.slots[i] with
    | none =>
      rw [hrow] at hrel
      cases hr : h.records[i] with
      | none =>
        show Bytes.zeros h.schema.width = Bytes.zeros p.schema.width
        rw [k.schema]
      | some r =>
        rw [hr] at hrel
        cases hrel
    | some row =>
      rw [hrow] at hrel
      cases hr : h.records[i] with
      | none =>
        rw [hr] at hrel
        cases hrel
      | some r =>
        rw [hr] at hrel
        cases hrel with
        | some htwin => exact congrArg encodeAll htwin.1.2
  unfold encode Page.encode
  rw [List.flatMap_def, List.flatMap_def, hslots, k.header, k.size]

/-! ## What is done to both -/

/-- A slot gets a record, or loses it, in both. -/
theorem setSlot (hs : slot < p.slots.length) {o : Option Record} {row : Option p.schema.Row}
    (ho : Option.Rel Record.Twin o (row.map (p.recordAt slot))) : (h.setSlot slot o).Keeps (p.setSlot slot row) where
  id := k.id
  schema := k.schema
  size := k.size
  header := by
    have hsome : o.isSome = row.isSome := by
      cases row with
      | none =>
        cases ho
        rfl
      | some row =>
        cases ho
        rfl
    rw [Page.header_setSlot hs, ← k.header, ← hsome]
    rfl
  length := by
    show (h.records.set slot o).length = (p.slots.set slot row).length
    rw [List.length_set, List.length_set, k.length]
  records i := by
    rw [record?_setSlot (by rw [k.length]; exact hs), Page.record?_setSlot hs]
    split
    · exact ho
    · exact k.records i
  dirty := k.dirty
  image := k.image

/-- **A record is stored in both, in the same slot, or in neither.** -/
theorem insert (r : Record) :
    (∃ place q, p.insert r = .ok (place, q) ∧ (h.insert r).1 = .ok place ∧ (h.insert r).2.Keeps q) ∨
      ∃ fault, p.insert r = .error fault ∧ h.insert r = (.error fault, h) := by
  unfold HeapPage.insert Page.insert
  rw [k.schema, k.freeSlot?_eq]
  by_cases ht : r.schema.types = p.schema.types
  · rw [if_neg (not_not.2 ht), dif_pos ht]
    -- the slot that the bits give is the first one without a row
    cases hf : p.slots.findIdx? Option.isNone with
    | none =>
      refine .inr ⟨_, rfl, ?_⟩
      simp only [k.id]
    | some slot =>
      have hs : slot < p.slots.length := (List.findIdx?_eq_some_iff_getElem.1 hf).1
      refine .inl ⟨_, _, rfl, by simp only [k.id], k.setSlot hs (.some ⟨⟨ht, rfl⟩, ?_⟩)⟩
      show some (⟨h.id, slot⟩ : RecordId) = some ⟨p.id, slot⟩
      rw [k.id]
  · rw [if_pos ht, dif_neg ht]
    exact .inr ⟨_, rfl, rfl⟩

/-- **A record is deleted from both, or from neither.** -/
theorem delete (r : Record) :
    (∃ q, p.delete r = .ok q ∧ (h.delete r).1 = .ok () ∧ (h.delete r).2.Keeps q) ∨
      ∃ fault, p.delete r = .error fault ∧ h.delete r = (.error fault, h) := by
  unfold HeapPage.delete Page.delete
  rw [k.id]
  cases hplace : r.place with
  | none => exact .inr ⟨_, rfl, rfl⟩
  | some place =>
    obtain ⟨page, slot⟩ := place
    simp only
    by_cases hpage : page = p.id
    · rw [if_neg (not_not.2 hpage), if_neg (not_not.2 hpage)]
      by_cases hs : slot < p.slots.length
      · have hrel := k.records slot
        have hrow : p.slots[slot]? = some (p.row? slot) := by
          unfold Page.row?
          rw [List.getElem?_eq_getElem hs]
          rfl
        rw [record?_of_lt (by rw [k.length]; exact hs), hrow]
        unfold Page.record? at hrel
        cases hr : p.row? slot with
        | none =>
          rw [hr] at hrel
          cases hh : h.record? slot with
          | none => exact .inr ⟨_, rfl, rfl⟩
          | some r' =>
            rw [hh] at hrel
            cases hrel
        | some row =>
          rw [hr] at hrel
          cases hh : h.record? slot with
          | none =>
            rw [hh] at hrel
            cases hrel
          | some r' =>
            rw [hh] at hrel
            cases hrel with
            | some htwin =>
              -- the two records are compared with the third one alike
              have hsame : r'.Same r ↔ (p.recordAt slot row).Same r := by
                unfold Record.Same
                rw [htwin.1.1, htwin.1.2]
              simp only
              by_cases hd : r'.Same r
              · rw [if_pos hd, if_pos (hsame.1 hd)]
                exact .inl ⟨_, rfl, rfl, k.setSlot hs .none⟩
              · rw [if_neg hd, if_neg fun hc => hd (hsame.2 hc)]
                exact .inr ⟨_, rfl, rfl⟩
      · have hge := Nat.le_of_not_lt hs
        rw [List.getElem?_eq_none hge, List.getElem?_eq_none (by rw [k.length]; exact hge)]
        exact .inr ⟨_, rfl, rfl⟩
    · rw [if_pos hpage, if_pos hpage]
      exact .inr ⟨_, rfl, rfl⟩

theorem mark (owner : Option TxId) : (h.mark owner).Keeps (p.mark owner) :=
  { k with dirty := rfl }

theorem settle : h.settle.Keeps p.settle :=
  { k with image := k.encode_eq }

end Keeps

/-- One change. One that cannot be made leaves the page as it is. -/
def edit (h : HeapPage) : Page.Edit → HeapPage
  | .insert r => (h.insert r).2
  | .delete r => (h.delete r).2
  | .mark owner => h.mark owner
  | .settle => h.settle

/-- One change after another. -/
def editAll (h : HeapPage) : List Page.Edit → HeapPage
  | [] => h
  | c :: edits => (h.edit c).editAll edits

theorem Keeps.edit (k : h.Keeps p) (c : Page.Edit) : (h.edit c).Keeps (p.edit c) := by
  cases c with
  | insert r =>
    rcases k.insert r with ⟨place, q, hq, -, hk⟩ | ⟨fault, hq, hh⟩
    · show (h.insert r).2.Keeps _
      unfold Page.edit
      simp only [hq]
      exact hk
    · show (h.insert r).2.Keeps _
      unfold Page.edit
      simp only [hq, hh]
      exact k
  | delete r =>
    rcases k.delete r with ⟨q, hq, -, hk⟩ | ⟨fault, hq, hh⟩
    · show (h.delete r).2.Keeps _
      unfold Page.edit
      simp only [hq]
      exact hk
    · show (h.delete r).2.Keeps _
      unfold Page.edit
      simp only [hq, hh]
      exact k
  | mark owner => exact k.mark owner
  | settle => exact k.settle

/-- **After any changes each page is still what the other one is.** -/
theorem Keeps.editAll (edits : List Page.Edit) : ∀ {h : HeapPage} {p : Page}, h.Keeps p →
    (h.editAll edits).Keeps (p.editAll edits) := by
  induction edits with
  | nil => exact fun k => k
  | cons c edits ih => exact fun k => ih (k.edit c)

/-! ## Reading -/

/-- The slots of which flags are known, read one after another from where the first of them begins. -/
theorem readSlots_eq (id : PageId) (s : Schema) (size : Nat) (header bytes : Bytes) (flags : List Bool) : ∀ first : Nat,
    (∀ i used, flags[i]? = some used → header.isUsed (first + i) = used) →
      (List.range' first flags.length).mapM (readSlot id s size header bytes) =
        (s.decodeSlots flags (bytes.drop (s.slotStart size first))).map fun slots =>
          (slots.val.zipIdx first).map fun x => x.1.map fun row => ⟨s, row, some ⟨id, x.2⟩⟩ := by
  induction flags with
  | nil => exact fun _ _ => rfl
  | cons used flags ih =>
    intro first hflags
    have hfirst : header.isUsed first = used := hflags 0 used rfl
    -- the other flags are those of the slots behind the first one
    have hrest := ih (first + 1) fun i u hu => by
      rw [Nat.add_assoc, Nat.add_comm 1 i]
      exact hflags (i + 1) u hu
    -- the rest begins where the first slot ends
    have hdrop : (bytes.drop (s.slotStart size first)).drop s.width = bytes.drop (s.slotStart size (first + 1)) := by
      rw [List.drop_drop]
      unfold Schema.slotStart
      rw [Nat.succ_mul, Nat.add_assoc]
    show (List.range' first (flags.length + 1)).mapM _ = _
    rw [List.range'_succ, List.mapM_cons]
    generalize hd : s.decodeSlots flags (bytes.drop (s.slotStart size (first + 1))) = rest at hrest
    unfold Schema.decodeSlots
    rw [hrest, hdrop, hd]
    unfold readSlot
    rw [hfirst]
    cases used with
    | false => cases rest <;> rfl
    | true =>
      unfold Record.decode Bytes.slice
      cases s.decode ((bytes.drop (s.slotStart size first)).take s.width) with
      | error fault => rfl
      | ok row => cases rest <;> rfl

/-- The slots of a page are read from where its header ends, and their records know their places. -/
theorem decode_eq_slots (hl : bytes.length = size) (hs : s.slotCount size ≠ 0) : decode id s size bytes =
    (s.decodeSlots (Page.flagsOf s size bytes) (bytes.drop (s.headerSize size))).map fun slots =>
      { id, schema := s, size
        header := bytes.take (s.headerSize size)
        records := slots.val.zipIdx.map fun x => x.1.map fun row => ⟨s, row, some ⟨id, x.2⟩⟩
        dirty := none
        image := bytes } := by
  have hrange : List.range (s.slotCount size) = List.range' 0 (Page.flagsOf s size bytes).length := by
    rw [Page.length_flagsOf hl, List.range_eq_range']
  have hstart : s.slotStart size 0 = s.headerSize size := by
    unfold Schema.slotStart
    omega
  have hread := readSlots_eq id s size (bytes.take (s.headerSize size)) bytes (Page.flagsOf s size bytes) 0
    fun i used hi => by
      have hslot := Page.lt_of_flagsOf hl hi
      have hbits := s.slotCount_le_bits size
      -- the bits of all slots are in the header
      have hused : Bytes.Used (bytes.take (s.headerSize size)) i ↔ bytes.Used i := by
        unfold Bytes.Used
        rw [List.getElem?_take, if_pos (by omega)]
      rw [Nat.zero_add]
      cases used with
      | true => exact Bytes.isUsed_iff.2 (hused.2 ((Page.flagsOf_eq_true_iff hl).1 hi).2)
      | false =>
        rw [Bool.eq_false_iff, ne_eq, Bytes.isUsed_iff, hused]
        exact ((Page.flagsOf_eq_false_iff hl).1 hi).2
  rw [← hrange, hstart] at hread
  unfold decode
  rw [if_neg (not_not.2 hl), if_neg hs]
  simp only [hread]
  cases s.decodeSlots (Page.flagsOf s size bytes) (bytes.drop (s.headerSize size)) <;> rfl

/-- A page that is read has what the same slots hold. -/
theorem keeps_of_slots {slots : { slots : List (Option s.Row) // slots.length = (Page.flagsOf s size bytes).length }}
    (hp : Page.decode id s size bytes = .ok p)
    (hd : s.decodeSlots (Page.flagsOf s size bytes) (bytes.drop (s.headerSize size)) = .ok slots) :
    Keeps { id, schema := s, size
            header := bytes.take (s.headerSize size)
            records := slots.val.zipIdx.map fun x => x.1.map fun row => ⟨s, row, some ⟨id, x.2⟩⟩
            dirty := none
            image := bytes } p := by
  obtain ⟨slots', hd', hcontents, -⟩ := Page.of_decode hp
  obtain rfl : slots = slots' := Except.ok.inj (hd.symm.trans hd')
  obtain ⟨hid, hschema, hsize, hdirty, himage, -⟩ := Page.fields_of_decode hp
  refine ⟨hid.symm, hschema.symm, hsize.symm, (Page.header_of_decode hp).symm, ?_, fun slot => ?_, hdirty.symm,
    himage.symm⟩
  · rw [p.length_slots, hschema, hsize, List.length_map, List.length_zipIdx, slots.property]
    exact Page.length_flagsOf (Page.length_of_decode hp)
  · have hrow := congrFun hcontents slot
    unfold Page.contents at hrow
    unfold record? Page.record?
    rw [List.getElem?_map, List.getElem?_zipIdx, Nat.zero_add]
    cases hfound : slots.val[slot]? with
    | none =>
      rw [hfound, Option.join_none, Option.map_none, Option.map_eq_none_iff] at hrow
      rw [hrow]
      exact .none
    | some found =>
      cases found with
      | none =>
        rw [hfound, Option.join_some, Option.map_none, Option.map_eq_none_iff] at hrow
        rw [hrow]
        exact .none
      | some row =>
        rw [hfound] at hrow
        obtain ⟨row', hrow', hfields⟩ := Option.map_eq_some_iff.1 hrow
        rw [hrow']
        refine .some ⟨⟨?_, hfields.symm⟩, ?_⟩
        · show s.types = p.schema.types
          rw [hschema]
        · show some (⟨id, slot⟩ : RecordId) = some ⟨p.id, slot⟩
          rw [hid]

/-- **Both pages are read from the same bytes, or refused for the same fault.** -/
theorem decode_keeps (id : PageId) (s : Schema) (size : Nat) (bytes : Bytes) :
    (∃ h p, decode id s size bytes = .ok h ∧ Page.decode id s size bytes = .ok p ∧ h.Keeps p) ∨
      ∃ fault, decode id s size bytes = .error fault ∧ Page.decode id s size bytes = .error fault := by
  by_cases hl : bytes.length = size
  · by_cases hs : s.slotCount size = 0
    · refine .inr ⟨.pageTooSmall size s.width, ?_, ?_⟩
      · unfold decode
        rw [if_neg (not_not.2 hl), if_pos hs]
      · unfold Page.decode
        rw [dif_pos hl, if_pos hs]
    · rw [decode_eq_slots hl hs]
      cases hd : s.decodeSlots (Page.flagsOf s size bytes) (bytes.drop (s.headerSize size)) with
      | error fault =>
        refine .inr ⟨fault, rfl, ?_⟩
        unfold Page.flagsOf at hd
        unfold Page.decode
        rw [dif_pos hl, if_neg hs]
        simp only [hd]
        rfl
      | ok slots =>
        obtain ⟨p, hp⟩ : ∃ p, Page.decode id s size bytes = .ok p := Page.decode_isOk_of_slots hl hs ⟨slots, hd⟩
        exact .inl ⟨_, p, rfl, hp, keeps_of_slots hp hd⟩
  · refine .inr ⟨.undecodable (.pageWidth size bytes.length), ?_, ?_⟩
    · unfold decode
      rw [if_pos hl]
    · unfold Page.decode
      rw [dif_neg hl]

/-- The pages of both images are read alike. -/
theorem Keeps.ofImage (k : h.Keeps p) : (∃ h' p', h.ofImage = .ok h' ∧ p.ofImage = .ok p' ∧ h'.Keeps p') ∨
    ∃ fault, h.ofImage = .error fault ∧ p.ofImage = .error fault := by
  unfold HeapPage.ofImage Page.ofImage
  rw [k.id, k.schema, k.size, k.image]
  exact decode_keeps _ _ _ _

/-- What both say of a page: its stored bytes, its free slots, whether a record can be stored or deleted and where, and
the page of its image. -/
structure Same (h : HeapPage) (p : Page) : Prop where
  keeps : h.Keeps p
  encode : h.encode = p.encode
  freeSlots : h.freeSlots = p.freeSlots
  insert : ∀ r, (h.insert r).1 = (p.insert r).map Prod.fst
  delete : ∀ r, (h.delete r).1 = (p.delete r).map fun _ => ()
  image : (∃ h' p', h.ofImage = .ok h' ∧ p.ofImage = .ok p' ∧ h'.Keeps p') ∨
    ∃ fault, h.ofImage = .error fault ∧ p.ofImage = .error fault

theorem Keeps.same (k : h.Keeps p) : h.Same p where
  keeps := k
  encode := k.encode_eq
  freeSlots := k.freeSlots_eq
  insert r := by
    rcases k.insert r with ⟨place, q, hq, hh, -⟩ | ⟨fault, hq, hh⟩
    · rw [hq, hh]
      rfl
    · rw [hq, hh]
      rfl
  delete r := by
    rcases k.delete r with ⟨q, hq, hh, -⟩ | ⟨fault, hq, hh⟩
    · rw [hq, hh]
      rfl
    · rw [hq, hh]
      rfl
  image := k.ofImage

/-- **Both pages are the same to whoever uses them**, from the bytes that they were read from on and after any changes. -/
theorem edited_same (id : PageId) (s : Schema) (size : Nat) (bytes : Bytes) (edits : List Page.Edit) :
    (∃ h p, decode id s size bytes = .ok h ∧ Page.decode id s size bytes = .ok p ∧
      (h.editAll edits).Same (p.editAll edits)) ∨
      ∃ fault, decode id s size bytes = .error fault ∧ Page.decode id s size bytes = .error fault := by
  rcases decode_keeps id s size bytes with ⟨h, p, hh, hp, k⟩ | hfault
  · exact .inl ⟨h, p, hh, hp, (k.editAll edits).same⟩
  · exact .inr hfault

/-- A page that is read has the slots of one. -/
theorem keeps_of_decode (hd : decode id s size bytes = .ok h) : ∃ p, Page.decode id s size bytes = .ok p ∧ h.Keeps p := by
  rcases decode_keeps id s size bytes with ⟨h', p, hd', hp, k⟩ | ⟨fault, hd', -⟩
  · rw [hd] at hd'
    cases hd'
    exact ⟨p, hp, k⟩
  · rw [hd] at hd'
    cases hd'

end HeapPage

end HeapStore
