import HeapStore.Page.Encoding
import Mathlib.Data.List.Nodup

/-!
# The rows of a page

A page as a function from slots to fields (`Page.contents`), and what the two changes of a page do to it.

* `Page.Changes`: one slot has other fields, and all else is the same.
* `Page.insert_ok`: a record that is stored **takes a slot that was free**, the first one (`Page.insert_least`). A page
  without a free slot stores nothing (`Page.freeSlots_of_insert`).
* `Page.delete_ok`: a record that is deleted **was in its slot**.
* `Page.mem_records`, `Page.records_sorted`: the records of a page are what its slots hold, slot by slot.
-/

namespace HeapStore

/-- The fields in each slot of a page. -/
abbrev Contents : Type := Nat → Option (List Field)

namespace Page

variable {p q : Page} {r : Record} {place : RecordId} {slot slot' : Nat}

/-- The fields in each slot. -/
def contents (p : Page) : Contents := fun slot => (p.row? slot).map Subtype.val

/-- One slot has other fields, and all else is the same. -/
structure Changes (p q : Page) (slot : Nat) (fields : Option (List Field)) : Prop where
  id : q.id = p.id
  schema : q.schema = p.schema
  size : q.size = p.size
  image : q.image = p.image
  contents : ∀ slot', q.contents slot' = if slot' = slot then fields else p.contents slot'

theorem row?_eq_some_iff {row : p.schema.Row} : p.row? slot = some row ↔ p.slots[slot]? = some (some row) := by
  unfold row?
  rw [Option.join_eq_some_iff]

theorem row?_setSlot (h : slot < p.slots.length) (row : Option p.schema.Row) (slot' : Nat) :
    (p.setSlot slot row).row? slot' = if slot' = slot then row else p.row? slot' := by
  show ((p.slots.set slot row)[slot']?).join = _
  rw [List.getElem?_set]
  by_cases hs : slot = slot'
  · rw [if_pos hs, if_pos h, if_pos hs.symm]
    rfl
  · rw [if_neg hs, if_neg (Ne.symm hs)]
    rfl

theorem record?_setSlot (h : slot < p.slots.length) (row : Option p.schema.Row) (slot' : Nat) :
    (p.setSlot slot row).record? slot' = if slot' = slot then row.map (p.recordAt slot) else p.record? slot' := by
  unfold record?
  rw [row?_setSlot h]
  split
  · next he =>
    subst he
    rfl
  · rfl

theorem changes_setSlot (h : slot < p.slots.length) (row : Option p.schema.Row) :
    p.Changes (p.setSlot slot row) slot (row.map Subtype.val) := by
  refine ⟨rfl, rfl, rfl, rfl, fun slot' => ?_⟩
  unfold contents
  rw [row?_setSlot h]
  split <;> rfl

/-- A record that is stored takes a slot that was free. -/
theorem insert_ok (h : p.insert r = .ok (place, q)) : place.page = p.id ∧ p.contents place.slot = none ∧
    r.schema.types = p.schema.types ∧ p.Changes q place.slot (some r.fields) := by
  unfold insert at h
  split at h
  · next ht =>
    split at h
    · next slot hs =>
      cases h
      obtain ⟨hlt, hfree, -⟩ := List.findIdx?_eq_some_iff_getElem.1 hs
      refine ⟨rfl, ?_, ht, changes_setSlot hlt _⟩
      unfold contents row?
      rw [List.getElem?_eq_getElem hlt, Option.isNone_iff_eq_none.1 hfree]
      rfl
    · cases h
  · cases h

/-- A page that stores a record has a free slot. -/
theorem freeSlots_of_insert (h : p.insert r = .ok (place, q)) : p.freeSlots ≠ 0 := by
  unfold insert at h
  split at h
  · split at h
    · next slot hs =>
      obtain ⟨hlt, hfree, -⟩ := List.findIdx?_eq_some_iff_getElem.1 hs
      unfold freeSlots
      rw [Nat.ne_zero_iff_zero_lt, List.countP_pos_iff]
      exact ⟨_, List.getElem_mem hlt, hfree⟩
    · cases h
  · cases h

/-- **A record that is stored takes the first free slot.** -/
theorem insert_least (h : p.insert r = .ok (place, q)) :
    place.slot < p.slots.length ∧ ∀ slot < place.slot, p.row? slot ≠ none := by
  unfold insert at h
  split at h
  · split at h
    · next slot hs =>
      cases h
      obtain ⟨hlt, -, hless⟩ := List.findIdx?_eq_some_iff_getElem.1 hs
      refine ⟨hlt, fun slot' (hslot : slot' < slot) hnone => hless slot' hslot ?_⟩
      unfold row? at hnone
      rw [List.getElem?_eq_getElem (Nat.lt_trans hslot hlt)] at hnone
      exact Option.isNone_iff_eq_none.2 hnone
    · cases h
  · cases h

/-- The record that was stored, in its slot. -/
theorem record?_of_insert (h : p.insert r = .ok (place, q)) :
    ∃ r', q.record? place.slot = some r' ∧ r'.Same r ∧ r'.place = some place := by
  obtain ⟨hplace, -, ht, hq⟩ := insert_ok h
  have hc := hq.contents place.slot
  rw [if_pos rfl] at hc
  obtain ⟨row, hrow, hval⟩ := Option.map_eq_some_iff.1 hc
  refine ⟨q.recordAt place.slot row, ?_, ⟨?_, hval⟩, ?_⟩
  · unfold record?
    rw [hrow]
    rfl
  · show q.schema.types = r.schema.types
    rw [hq.schema, ht]
  · show some (⟨q.id, place.slot⟩ : RecordId) = some place
    rw [hq.id, ← hplace]

/-- On a page without free slots each slot holds a row. -/
theorem row?_of_full (h : p.freeSlots = 0) (hs : slot < p.slots.length) : p.row? slot ≠ none := by
  unfold freeSlots at h
  rw [List.countP_eq_zero] at h
  intro hnone
  unfold row? at hnone
  rw [List.getElem?_eq_getElem hs] at hnone
  exact h _ (List.getElem_mem hs) (Option.isNone_iff_eq_none.2 hnone)

/-- A record of the right types is stored where a slot is free. -/
theorem insert_total (ht : r.schema.types = p.schema.types) (hf : p.freeSlots ≠ 0) :
    ∃ place q, p.insert r = .ok (place, q) := by
  unfold freeSlots at hf
  rw [Nat.ne_zero_iff_zero_lt, List.countP_pos_iff] at hf
  obtain ⟨slot, hm, hs⟩ := hf
  unfold insert
  rw [dif_pos ht]
  split
  · exact ⟨_, _, rfl⟩
  · next hn =>
    rw [List.findIdx?_eq_none_iff] at hn
    have := hn slot hm
    rw [hs] at this
    cases this

/-- A record that is deleted was in its slot. -/
theorem delete_ok (h : p.delete r = .ok q) : ∃ slot, r.place = some ⟨p.id, slot⟩ ∧
    p.contents slot = some r.fields ∧ p.Changes q slot none := by
  unfold delete at h
  split at h
  · cases h
  · next page slot hp =>
    split at h
    · cases h
    · next hid =>
      rw [not_not] at hid
      split at h
      · cases h
      · cases h
      · next row hs =>
        split at h
        · next hsame =>
          cases h
          have hlt : slot < p.slots.length := by
            by_contra hge
            rw [List.getElem?_eq_none (by omega)] at hs
            cases hs
          refine ⟨slot, by rw [hp, hid], ?_, changes_setSlot hlt none⟩
          unfold contents
          rw [row?_eq_some_iff.2 hs]
          exact congrArg some hsame.2
        · cases h

/-- From a page without records nothing is deleted. -/
theorem delete_of_empty (h : ∀ slot, p.row? slot = none) : p.delete r ≠ .ok q := by
  intro hd
  obtain ⟨slot, -, hc, -⟩ := delete_ok hd
  unfold contents at hc
  rw [h slot] at hc
  cases hc

/-- A page without records has all its slots free. -/
theorem freeSlots_of_empty (h : ∀ slot, p.row? slot = none) (hs : p.schema.slotCount p.size ≠ 0) :
    p.freeSlots ≠ 0 := by
  have hlt : 0 < p.slots.length := by
    rw [p.length_slots]
    exact Nat.pos_of_ne_zero hs
  unfold freeSlots
  rw [Nat.ne_zero_iff_zero_lt, List.countP_pos_iff]
  refine ⟨p.slots[0], List.getElem_mem hlt, ?_⟩
  have := h 0
  unfold row? at this
  rw [List.getElem?_eq_getElem hlt] at this
  cases h0 : p.slots[0] with
  | none => rfl
  | some row =>
    rw [h0] at this
    cases this

/-! ## Records -/

theorem mem_records : r ∈ p.records ↔ ∃ slot row, p.row? slot = some row ∧ r = p.recordAt slot row := by
  unfold records
  rw [List.mem_filterMap]
  constructor
  · rintro ⟨⟨row?, slot⟩, hm, hr⟩
    obtain ⟨row, rfl, rfl⟩ := Option.map_eq_some_iff.1 hr
    refine ⟨slot, row, ?_, rfl⟩
    rw [row?_eq_some_iff]
    exact List.mem_zipIdx_iff_getElem?.1 hm
  · rintro ⟨slot, row, hr, rfl⟩
    exact ⟨(some row, slot), List.mem_zipIdx_iff_getElem?.2 (row?_eq_some_iff.1 hr), rfl⟩

/-- The records of a page come slot by slot. -/
theorem records_sorted (p : Page) : p.records.Pairwise fun a b =>
    ∃ s t, a.place = some ⟨p.id, s⟩ ∧ b.place = some ⟨p.id, t⟩ ∧ s < t := by
  have hz : p.slots.zipIdx.Pairwise fun a b => a.2 < b.2 := by
    have h : (p.slots.zipIdx.map Prod.snd).Pairwise (· < ·) := by
      rw [List.zipIdx_map_snd]
      exact List.pairwise_lt_range'
    exact List.pairwise_map.1 h
  unfold records
  rw [List.pairwise_filterMap]
  refine hz.imp ?_
  rintro ⟨a, s⟩ ⟨b, t⟩ hlt x hx y hy
  obtain ⟨row, -, rfl⟩ := Option.map_eq_some_iff.1 hx
  obtain ⟨row', -, rfl⟩ := Option.map_eq_some_iff.1 hy
  exact ⟨s, t, rfl, rfl, hlt⟩

end Page

end HeapStore
