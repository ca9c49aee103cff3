import HeapStore.Proofs.Scans

/-!
# What a listing lists

The records of pages as a function from places to fields.

* `View.contents`: the fields in each slot of each page, as a transaction sees them.
* `Lists`: **records that are exactly those of given places, in order** of page and slot. At most one list of
  places and fields is in order and exact, so this says all there is to say of a listing but its schema.
* `View.listing_lists`: the listing of the first pages of a table. `Engine.listing_all` says that this is the whole
  table, since nothing lies behind the pages of the file.
-/

namespace HeapStore

/-- The first place comes before the second one in the file of their table. -/
def RecordId.Before (a b : RecordId) : Prop :=
  a.page.number < b.page.number ∨ a.page.number = b.page.number ∧ a.slot < b.slot

/-- The first record lies before the second one. -/
def Record.Precedes (a b : Record) : Prop := ∃ s t, a.place = some s ∧ b.place = some t ∧ s.Before t

/-- The records are exactly those of the places with such fields, in order. -/
structure Lists (holds : RecordId → List Field → Prop) (rs : List Record) : Prop where
  placed : ∀ r ∈ rs, r.place.isSome
  sorted : rs.Pairwise Record.Precedes
  exact : ∀ place fields, (∃ r ∈ rs, r.place = some place ∧ r.fields = fields) ↔ holds place fields

theorem Lists.congr {holds holds' : RecordId → List Field → Prop} {rs : List Record} (h : Lists holds rs)
    (he : ∀ place fields, holds place fields ↔ holds' place fields) : Lists holds' rs :=
  ⟨h.placed, h.sorted, fun place fields => (h.exact place fields).trans (he place fields)⟩

namespace View

variable {v : View} {id : PageId} {p : Page} {table : TableId}

/-- The fields in each slot of a page, as a transaction sees it. A page that cannot be read has none. -/
def contents (v : View) (id : PageId) : Contents :=
  match v.page id with
  | .ok p => p.contents
  | .error _ => fun _ => none

theorem contents_of_ok (h : v.page id = .ok p) : v.contents id = p.contents := by
  unfold contents
  rw [h]

theorem contents_of_error {fault : AccessFault} (h : v.page id = .error fault) : v.contents id = fun _ => none := by
  unfold contents
  rw [h]

/-- The records of a page are what its slots hold. -/
theorem mem_recordsOn (hid : ∀ p, v.page id = .ok p → p.id = id) {r : Record} (h : r ∈ v.recordsOn id) :
    ∃ slot, r.place = some ⟨id, slot⟩ ∧ v.contents id slot = some r.fields := by
  unfold recordsOn at h
  cases hp : v.page id with
  | error fault =>
    rw [hp] at h
    exact absurd h List.not_mem_nil
  | ok p =>
    rw [hp] at h
    obtain ⟨slot, row, hrow, rfl⟩ := Page.mem_records.1 h
    refine ⟨slot, ?_, ?_⟩
    · show some (RecordId.mk p.id slot) = _
      rw [hid p hp]
    · rw [contents_of_ok hp]
      unfold Page.contents
      rw [hrow]
      rfl

theorem exists_mem_recordsOn (hid : ∀ p, v.page id = .ok p → p.id = id) {slot : Nat} {fields : List Field}
    (h : v.contents id slot = some fields) : ∃ r ∈ v.recordsOn id, r.place = some ⟨id, slot⟩ ∧ r.fields = fields := by
  cases hp : v.page id with
  | error fault =>
    rw [contents_of_error hp] at h
    cases h
  | ok p =>
    rw [contents_of_ok hp] at h
    obtain ⟨row, hrow, rfl⟩ := Option.map_eq_some_iff.1 h
    refine ⟨p.recordAt slot row, ?_, ?_, rfl⟩
    · rw [recordsOn_of_ok hp]
      exact Page.mem_records.2 ⟨slot, row, hrow, rfl⟩
    · show some (RecordId.mk p.id slot) = _
      rw [hid p hp]

/-- **The listing of the first pages is exact and in order.** -/
theorem listing_lists (hid : ∀ k p, v.page ⟨table, k⟩ = .ok p → p.id = ⟨table, k⟩) (n : Nat) :
    Lists (fun place fields => place.page.table = table ∧ place.page.number < n ∧
      v.contents place.page place.slot = some fields) (v.listing table n) where
  placed r hr := by
    obtain ⟨k, -, hr⟩ := List.mem_flatMap.1 hr
    obtain ⟨slot, hp, -⟩ := mem_recordsOn (hid k) hr
    rw [hp]
    rfl
  sorted := by
    unfold listing recordsOf
    rw [List.pairwise_flatMap]
    constructor
    · intro k _
      cases hp : v.page ⟨table, k⟩ with
      | error fault =>
        unfold recordsOn
        rw [hp]
        exact List.Pairwise.nil
      | ok p =>
        rw [recordsOn_of_ok hp]
        -- records of one page are in the order of their slots
        refine p.records_sorted.imp ?_
        rintro a b ⟨s, t, ha, hb, hlt⟩
        exact ⟨_, _, ha, hb, .inr ⟨rfl, hlt⟩⟩
    · -- records of two pages are in the order of the pages
      refine List.pairwise_lt_range.imp ?_
      intro j k hlt a ha b hb
      obtain ⟨s, hs, -⟩ := mem_recordsOn (hid j) ha
      obtain ⟨t, ht, -⟩ := mem_recordsOn (hid k) hb
      exact ⟨_, _, hs, ht, .inl hlt⟩
  exact place fields := by
    constructor
    · rintro ⟨r, hr, hp, rfl⟩
      obtain ⟨k, hk, hr⟩ := List.mem_flatMap.1 hr
      obtain ⟨slot, hs, hc⟩ := mem_recordsOn (hid k) hr
      rw [hp] at hs
      cases hs
      exact ⟨rfl, List.mem_range.1 hk, hc⟩
    · rintro ⟨rfl, hn, hc⟩
      obtain ⟨r, hr, hp, hf⟩ := exists_mem_recordsOn (hid place.page.number) hc
      exact ⟨r, List.mem_flatMap.2 ⟨_, List.mem_range.2 hn, hr⟩, hp, hf⟩

end View

namespace Engine

variable {e : Engine} {tx : TxId} {id : PageId} {table : TableId}

/-- Nothing lies behind the pages of a file. -/
theorem Coherent.contents_behind (h : e.Coherent) (hn : e.pages id.table ≤ id.number) (slot : Nat) :
    (e.view tx).contents id slot = none := by
  cases hp : (e.view tx).page id with
  | error fault => rw [View.contents_of_error hp]
  | ok p =>
    obtain ⟨-, file, hf, -⟩ := h.of_view_page hp
    obtain ⟨p', hp', hrow⟩ := h.view_page_behind hf hn tx
    rw [hp] at hp'
    cases hp'
    rw [View.contents_of_ok hp]
    unfold Page.contents
    rw [hrow slot]
    rfl

/-- **The listing of all pages of a file is that of its table.** -/
theorem listing_all (h : e.Coherent) (tx : TxId) (table : TableId) :
    Lists (fun place fields => place.page.table = table ∧ (e.view tx).contents place.page place.slot = some fields)
      ((e.view tx).listing table (e.pages table)) := by
  refine (View.listing_lists (fun k p hp => (h.of_view_page hp).1) _).congr fun place fields => ?_
  constructor
  · rintro ⟨ht, -, hc⟩
    exact ⟨ht, hc⟩
  · rintro ⟨rfl, hc⟩
    refine ⟨rfl, ?_, hc⟩
    by_contra hn
    rw [h.contents_behind (by omega)] at hc
    cases hc

end Engine

end HeapStore
