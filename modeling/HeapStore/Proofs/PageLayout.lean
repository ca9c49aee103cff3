import HeapStore.Proofs.Deliveries
import HeapStore.Proofs.PageBytes
import HeapStore.Settings.Basic
import Mathlib.Order.Bounds.Basic

/-!
# The layout of pages

How many slots a page has follows from one division of bits, while its header and its slots are whole bytes. No slot is
lost by the rounding, and none is pushed over the end. A size is too small for a schema wherever it is used, or nowhere.

* `Schema.slotCount_isGreatest`: **as many slots as fit beside a header with a bit for each.**
* `Page.reads_of_decode`: a page is read from its header and from the bytes of the slots that are in use.
* `Page.decode_ne_pageTooSmall`, `importAll_ne_pageTooSmall`: nothing else is reported as a page that is too small.
* `Schema.layout_exact`: **the layout of pages of one size**, and the sizes that are refused.
-/

namespace HeapStore

/-! ## How many slots fit -/

namespace Schema

variable {s : Schema} {size n : Nat}

/-- So many rows and a header with a bit for each take no more bytes than the page has. -/
def HasRoom (s : Schema) (size n : Nat) : Prop := (n + 7) / 8 + n * s.width ≤ size

/-- Bytes and bits have room for the same number of rows: the header is rounded up, and so is what the rows leave it. -/
theorem hasRoom_iff : s.HasRoom size n ↔ n * (s.width * 8 + 1) ≤ size * 8 := by
  have hbits : n * (s.width * 8 + 1) = n * s.width * 8 + n := by rw [Nat.mul_add, Nat.mul_one, Nat.mul_assoc]
  unfold HasRoom
  rw [hbits]
  omega

/-- **The number of slots is the greatest for which rows and header have room.** -/
theorem slotCount_isGreatest (s : Schema) (size : Nat) : IsGreatest {n | s.HasRoom size n} (s.slotCount size) := by
  have hpos : 0 < s.width * 8 + 1 := Nat.succ_pos _
  constructor
  · exact hasRoom_iff.2 (Nat.div_mul_le_self _ _)
  · intro n hn
    exact (Nat.le_div_iff_mul_le hpos).2 (hasRoom_iff.1 hn)

/-- A page without slots has no more bytes than a row. -/
theorem slotCount_eq_zero_iff : s.slotCount size = 0 ↔ size ≤ s.width := by
  unfold slotCount
  rw [Nat.div_eq_zero_iff]
  omega

theorem slotCount_ne_zero_iff : s.slotCount size ≠ 0 ↔ s.width < size := by
  rw [ne_eq, slotCount_eq_zero_iff, Nat.not_le]

/-- A slot ends where the next one begins. -/
theorem slotStart_succ (s : Schema) (size slot : Nat) : s.slotStart size slot + s.width = s.slotStart size (slot + 1) := by
  unfold slotStart
  rw [Nat.succ_mul, Nat.add_assoc]

theorem slotStart_mono (s : Schema) (size : Nat) {i j : Nat} (h : i ≤ j) : s.slotStart size i ≤ s.slotStart size j :=
  Nat.add_le_add_left (Nat.mul_le_mul_right _ h) _

/-- A slot ends on the page. -/
theorem slot_inside {slot : Nat} (hs : slot < s.slotCount size) : s.slotStart size slot + s.width ≤ size := by
  have hfit : s.slotStart size (s.slotCount size) ≤ size := s.header_add_slots_le size
  rw [slotStart_succ]
  exact (s.slotStart_mono size hs).trans hfit

/-! ## What is read -/

/-- A slot in use is read from its own bytes, and a free one from none. -/
theorem getElem?_decodeSlots (flags : List Bool) : ∀ {bytes : Bytes}
    {slots : { slots : List (Option s.Row) // slots.length = flags.length }}, s.decodeSlots flags bytes = .ok slots →
    ∀ i, (flags[i]? = some false → slots.val[i]? = some none) ∧ (flags[i]? = some true →
      ∃ row, s.decode (bytes.slice (i * s.width) s.width) = .ok row ∧ slots.val[i]? = some (some row)) := by
  induction flags with
  | nil =>
    intro bytes slots _ i
    exact ⟨nofun, nofun⟩
  | cons used flags ih =>
    intro bytes slots h i
    -- the bytes of a slot behind the first are those of the slot before it, behind the first row
    have hslice : ∀ i, Bytes.slice (bytes.drop s.width) (i * s.width) s.width = bytes.slice ((i + 1) * s.width) s.width := by
      intro i
      unfold Bytes.slice
      rw [List.drop_drop, Nat.succ_mul, Nat.add_comm]
    cases used with
    | false =>
      obtain ⟨rest, hrest, hslots⟩ := decodeSlots_free_eq_ok.1 h
      rw [hslots]
      cases i with
      | zero => exact ⟨fun _ => rfl, nofun⟩
      | succ i =>
        rw [← hslice]
        exact ih hrest i
    | true =>
      obtain ⟨row, rest, hrow, hrest, hslots⟩ := decodeSlots_used_eq_ok.1 h
      rw [hslots]
      cases i with
      | zero =>
        refine ⟨nofun, fun _ => ⟨row, ?_, rfl⟩⟩
        rw [Nat.zero_mul]
        exact hrow
      | succ i =>
        rw [← hslice]
        exact ih hrest i

end Schema

/-! ## Pages that are too small -/

/-- Bytes that are no field are undecodable. -/
theorem FieldType.decode_eq_error {t : FieldType} {bytes : Bytes} {fault : RecordFault}
    (h : t.decode bytes = .error fault) : ∃ cause, fault = .undecodable cause := by
  unfold FieldType.decode at h
  split at h
  · cases t with
    | int => cases h
    | text =>
      simp only [decodeText] at h
      split at h
      · split at h
        · cases h
        · cases h
          exact ⟨_, rfl⟩
      · cases h
        exact ⟨_, rfl⟩
  · cases h
    exact ⟨_, rfl⟩

theorem bind_eq_error_iff {ε α β : Type} {x : Except ε α} {f : α → Except ε β} {fault : ε} :
    (x >>= f) = .error fault ↔ x = .error fault ∨ ∃ a, x = .ok a ∧ f a = .error fault := by
  cases x with
  | error fault => simp [bind, Except.bind]
  | ok a => simp [bind, Except.bind]

theorem mapError_eq_error_iff {ε ε' α : Type} {x : Except ε α} {f : ε → ε'} {fault : ε'} :
    x.mapError f = .error fault ↔ ∃ cause, x = .error cause ∧ f cause = fault := by
  cases x with
  | error cause => simp [Except.mapError]
  | ok a => simp [Except.mapError]

theorem decodeAll_eq_error (ts : List FieldType) : ∀ {bytes : Bytes} {fault : RecordFault},
    decodeAll ts bytes = .error fault → ∃ cause, fault = .undecodable cause := by
  induction ts with
  | nil => exact fun h => nomatch h
  | cons t ts ih =>
    intro bytes fault h
    unfold decodeAll at h
    rcases bind_eq_error_iff.1 h with hf | ⟨_, -, h⟩
    · exact FieldType.decode_eq_error hf
    · rcases bind_eq_error_iff.1 h with hfs | ⟨_, -, h⟩
      · exact ih hfs
      · cases h

theorem Schema.decode_eq_error {s : Schema} {bytes : Bytes} {fault : RecordFault} (h : s.decode bytes = .error fault) :
    ∃ cause, fault = .undecodable cause := by
  unfold Schema.decode at h
  split at h
  · exact decodeAll_eq_error s.types h
  · cases h
    exact ⟨_, rfl⟩

theorem Schema.decodeSlots_eq_error {s : Schema} (flags : List Bool) : ∀ {bytes : Bytes} {fault : RecordFault},
    s.decodeSlots flags bytes = .error fault → ∃ cause, fault = .undecodable cause := by
  induction flags with
  | nil => exact fun h => nomatch h
  | cons used flags ih =>
    intro bytes fault h
    unfold Schema.decodeSlots at h
    cases used with
    | false =>
      cases hrest : s.decodeSlots flags (bytes.drop s.width) with
      | error cause =>
        rw [hrest] at h
        cases h
        exact ih hrest
      | ok rest =>
        rw [hrest] at h
        cases h
    | true =>
      cases hrow : s.decode (bytes.take s.width) with
      | error cause =>
        rw [hrow] at h
        cases h
        exact Schema.decode_eq_error hrow
      | ok row =>
        cases hrest : s.decodeSlots flags (bytes.drop s.width) with
        | error cause =>
          rw [hrow, hrest] at h
          cases h
          exact ih hrest
        | ok rest =>
          rw [hrow, hrest] at h
          cases h

namespace Page

variable {id : PageId} {s : Schema} {size : Nat} {bytes : Bytes} {p : Page}

/-- **A page is read from its header and from the bytes of the slots in use.** -/
theorem reads_of_decode (h : decode id s size bytes = .ok p) {slot : Nat} (hs : slot < s.slotCount size) :
    (¬ bytes.Used slot → p.contents slot = none) ∧ (bytes.Used slot →
      ∃ row, s.decode (bytes.slice (s.slotStart size slot) s.width) = .ok row ∧ p.contents slot = some row.val) := by
  have hl := length_of_decode h
  obtain ⟨slots, hd, hcontents, -⟩ := of_decode h
  obtain ⟨hfree, hused⟩ := Schema.getElem?_decodeSlots _ hd slot
  have hslice : Bytes.slice (bytes.drop (s.headerSize size)) (slot * s.width) s.width =
      bytes.slice (s.slotStart size slot) s.width := by
    unfold Bytes.slice Schema.slotStart
    rw [List.drop_drop]
  rw [hcontents]
  simp only
  constructor
  · intro hu
    rw [hfree ((flagsOf_eq_false_iff hl).2 ⟨hs, hu⟩)]
    rfl
  · intro hu
    obtain ⟨row, hrow, hslot⟩ := hused ((flagsOf_eq_true_iff hl).2 ⟨hs, hu⟩)
    rw [hslice] at hrow
    refine ⟨row, hrow, ?_⟩
    rw [hslot]
    rfl

/-- A page with a slot is never too small, whatever its bytes. -/
theorem decode_ne_pageTooSmall (hs : s.slotCount size ≠ 0) (a b : Nat) :
    decode id s size bytes ≠ .error (.pageTooSmall a b) := by
  intro h
  unfold decode at h
  split at h
  · cases hd : s.decodeSlots ((Bits.unpack (bytes.take (s.headerSize size))).take (s.slotCount size))
        (bytes.drop (s.headerSize size)) with
    | ok slots =>
      simp only [hd] at h
      cases h
    | error fault =>
      obtain ⟨cause, rfl⟩ := Schema.decodeSlots_eq_error _ hd
      simp only [hd] at h
      cases h
  · cases h

theorem insert_ne_pageTooSmall (p : Page) (r : Record) (a b : Nat) : p.insert r ≠ .error (.pageTooSmall a b) := by
  intro h
  unfold insert at h
  split at h
  · split at h
    · cases h
    · cases h
  · cases h

end Page

section Imports

variable {t : TableFile} {a b : Nat}

theorem TableFile.blank_ne_pageTooSmall (hs : t.schema.slotCount t.pageSize ≠ 0) (n : Nat) :
    t.blank n ≠ .error (.record (.pageTooSmall a b)) := by
  intro h
  obtain ⟨_, hd, hcause⟩ := mapError_eq_error_iff.1 h
  cases hcause
  exact Page.decode_ne_pageTooSmall hs a b hd

theorem Filling.add_ne_pageTooSmall (hs : t.schema.slotCount t.pageSize ≠ 0) {f : Filling} {disk : Disk} {r : Record} :
    f.add t disk r ≠ .error (.record (.pageTooSmall a b)) := by
  intro h
  unfold Filling.add at h
  have hput : ∀ (page : Page) (disk : Disk), (((page.insert r).mapError ImportFault.record).bind fun placed =>
      .ok ((⟨placed.2, f.written + 1⟩ : Filling), disk)) ≠ .error (.record (.pageTooSmall a b)) := by
    intro page disk h
    rcases bind_eq_error_iff.1 h with hi | ⟨_, -, h⟩
    · obtain ⟨_, hi, hcause⟩ := mapError_eq_error_iff.1 hi
      cases hcause
      exact page.insert_ne_pageTooSmall r a b hi
    · cases h
  by_cases hfull : f.page.freeSlots = 0
  · -- the page at hand is written, and a blank one takes its place
    simp only [if_pos hfull] at h
    rcases bind_eq_error_iff.1 h with hstore | ⟨disk, -, h⟩
    · obtain ⟨_, -, hcause⟩ := mapError_eq_error_iff.1 hstore
      cases hcause
    · rcases bind_eq_error_iff.1 h with hp | ⟨page, -, h⟩
      · exact TableFile.blank_ne_pageTooSmall hs _ hp
      · exact hput page disk h
  · simp only [if_neg hfull] at h
    exact hput f.page disk h

/-- A delivery that is not imported has the fault that is reported. -/
theorem Delivery.fails_of_error {schema : Schema} {d : Delivery} {fault : ImportFault}
    (h : importDelivery schema d = .error fault) : d.Fails schema.types fault := by
  rcases Delivery.cases schema.types d with hblank | ⟨values, hgives⟩ | ⟨cause, hfails⟩
  · rw [hblank.import_eq] at h
    cases h
  · obtain ⟨r, hr, -⟩ := hgives.import_eq
    rw [hr] at h
    cases h
  · have himport := hfails.import_eq
    rw [h] at himport
    cases himport
    exact hfails

/-- What is delivered does not make a page too small. -/
theorem importAll_ne_pageTooSmall (hs : t.schema.slotCount t.pageSize ≠ 0) (ds : List Delivery) :
    ∀ {f : Filling} {disk : Disk}, (importAll t ds f disk).1 ≠ .error (.record (.pageTooSmall a b)) := by
  induction ds with
  | nil =>
    intro f disk h
    unfold importAll at h
    split at h
    · cases h
    · split at h <;> cases h
  | cons d ds ih =>
    intro f disk h
    unfold importAll at h
    split at h
    · next fault hread =>
      cases h
      -- the fault is one of what is delivered
      exact (Delivery.fails_of_error hread).ne.2 _ rfl
    · exact ih h
    · split at h
      · next hadd =>
        cases h
        exact Filling.add_ne_pageTooSmall hs hadd
      · exact ih h

end Imports

/-! ## The layout -/

/-- How a page of some size is laid out for the rows of a schema, and who finds it too small. -/
structure Layout (s : Schema) (size : Nat) : Prop where
  /-- There are as many slots as rows fit beside a header with a bit for each. -/
  greatest : IsGreatest {n | (n + 7) / 8 + n * s.width ≤ size} (s.slotCount size)
  /-- The header comes first and has a bit for each slot. -/
  header : s.headerSize size ≤ size ∧ s.headerSize size = s.slotStart size 0 ∧
    ∀ slot < s.slotCount size, slot / 8 < s.headerSize size
  /-- No two slots share a byte. -/
  apart : ∀ i j, i < j → s.slotStart size i + s.width ≤ s.slotStart size j
  /-- All slots end on the page. -/
  inside : ∀ slot < s.slotCount size, s.slotStart size slot + s.width ≤ size
  /-- A page is read from its header and from the bytes of the slots in use, of which none is missing. -/
  slices : ∀ bytes : Bytes, bytes.length = size → (bytes.take (s.headerSize size)).length = s.headerSize size ∧
    ∀ slot < s.slotCount size, (bytes.slice (s.slotStart size slot) s.width).length = s.width ∧
      ∀ id p, Page.decode id s size bytes = .ok p → (¬ bytes.Used slot → p.contents slot = none) ∧ (bytes.Used slot →
        ∃ row, s.decode (bytes.slice (s.slotStart size slot) s.width) = .ok row ∧ p.contents slot = some row.val)
  /-- There is none if and only if the page is no longer than a row. -/
  empty : s.slotCount size = 0 ↔ size ≤ s.width
  /-- Without a slot no page is read, no file is opened, and nothing is imported. -/
  refused : s.slotCount size = 0 →
    (∀ id bytes, bytes.length = size → Page.decode id s size bytes = .error (.pageTooSmall size s.width)) ∧
    (∀ disk path, TableFile.attach disk path s size = (.error (.record (.pageTooSmall size s.width)), disk)) ∧
    ∀ (disk : Disk) input output delimiter, disk.importText input output size s.types delimiter =
      (.error (.record (.pageTooSmall size s.width)), disk)
  /-- With one slot a page of that size is not too small for anybody. -/
  accepted : s.slotCount size ≠ 0 → ∀ a b,
    (∀ id bytes, Page.decode id s size bytes ≠ .error (.pageTooSmall a b)) ∧
    (∀ disk path, (TableFile.attach disk path s size).1 ≠ .error (.record (.pageTooSmall a b))) ∧
    ∀ (disk : Disk) input output delimiter,
      (disk.importText input output size s.types delimiter).1 ≠ .error (.record (.pageTooSmall a b))
  /-- Settings with this size are valid if some schema has a slot on its pages, and there is room for a page. -/
  settings : ∀ settings : Settings, settings.pageSize = size →
    (settings.validate = .ok settings ↔ settings.bufferPages ≠ 0 ∧ ∃ s' : Schema, s'.slotCount size ≠ 0) ∧
    (settings.validate = .error (.invalid (.smallPage size)) ↔
      settings.bufferPages ≠ 0 ∧ ∀ s' : Schema, s'.slotCount size = 0)

namespace Schema

variable {s : Schema} {size : Nat}

/-- The narrowest row is one number. -/
theorem exists_slotCount_ne_zero_iff : (∃ s : Schema, s.slotCount size ≠ 0) ↔ Settings.minPageSize ≤ size := by
  constructor
  · rintro ⟨s, hs⟩
    have hwidth : FieldType.int.width ≤ s.width := by
      obtain ⟨columns, hne⟩ := s
      match columns with
      | [] => exact absurd rfl hne
      | c :: cs =>
        have hle : FieldType.int.width ≤ c.type.width := by cases c.type <;> decide
        exact hle.trans (Nat.le_add_right _ _)
    exact Nat.succ_le_of_lt (hwidth.trans_lt (slotCount_ne_zero_iff.1 hs))
  · intro h
    refine ⟨⟨[⟨.int, none⟩], List.cons_ne_nil _ _⟩, slotCount_ne_zero_iff.2 ?_⟩
    exact Nat.lt_of_succ_le h

/-- The schema of the types of another one has the same width. -/
theorem ofTypes_types (s : Schema) : ∃ s', ofTypes s.types = .ok s' ∧ s'.types = s.types := by
  have hne : (s.types.map fun t => Column.mk t none) ≠ [] := by
    rw [ne_eq, List.map_eq_nil_iff]
    exact fun h => s.columns_ne_nil (List.map_eq_nil_iff.1 h)
  refine ⟨⟨_, hne⟩, dif_pos hne, ?_⟩
  show (s.types.map fun t => Column.mk t none).map Column.type = s.types
  rw [List.map_map]
  exact List.map_id _

/-- An import finds its pages too small if and only if they have no slot. -/
theorem importText_pageTooSmall (s : Schema) (size : Nat) (disk : Disk) (input output : String) (delimiter : UInt8) :
    (s.slotCount size = 0 → disk.importText input output size s.types delimiter =
      (.error (.record (.pageTooSmall size s.width)), disk)) ∧ (s.slotCount size ≠ 0 → ∀ a b,
      (disk.importText input output size s.types delimiter).1 ≠ .error (.record (.pageTooSmall a b))) := by
  obtain ⟨s', hs', htypes⟩ := s.ofTypes_types
  have hwidth : s'.width = s.width := congrArg totalWidth htypes
  have hcount : s'.slotCount size = s.slotCount size := by
    unfold slotCount
    rw [hwidth]
  unfold Disk.importText Disk.importWith
  simp only [hs']
  constructor
  · intro hnone
    have hblank : Page.blank ⟨⟨0⟩, 0⟩ s' size = .error (.pageTooSmall size s.width) := by
      unfold Page.blank Page.decode
      rw [dif_pos (Bytes.length_zeros size), if_pos (hcount.trans hnone), hwidth]
    simp only [hblank]
  · intro hsome a b h
    rw [← hcount] at hsome
    cases hblank : Page.blank ⟨⟨0⟩, 0⟩ s' size with
    | error fault =>
      rw [hblank] at h
      cases h
      exact Page.decode_ne_pageTooSmall hsome a b hblank
    | ok page =>
      rw [hblank] at h
      simp only at h
      split at h
      · cases h
      · cases hsource : disk.source (Path.ofText input) with
        | error cause =>
          rw [hsource] at h
          cases h
        | ok source =>
          rw [hsource] at h
          rcases hcreate : disk.create (Path.ofText output) with ⟨cause | location, made⟩ <;> rw [hcreate] at h
          · cases h
          · exact importAll_ne_pageTooSmall (t := ⟨⟨0⟩, s', location, size⟩) hsome _ h

/-- **The layout of pages.** For every schema and size the slots are as many as there is room for, header and slots do
not meet and end on the page, and no byte is read that is not there. There is no slot if and only if the page is no longer
than a row, and then it is too small wherever pages are read, opened or written anew. Settings are refused for their size
if there is no slot for any schema. -/
theorem layout_exact (s : Schema) (size : Nat) : Layout s size where
  greatest := s.slotCount_isGreatest size
  header := ⟨s.headerSize_le size, by rw [slotStart, Nat.zero_mul, Nat.add_zero], fun _ hs => Page.div_lt_headerSize hs⟩
  apart i j h := by
    rw [slotStart_succ]
    exact s.slotStart_mono size h
  inside _ hs := slot_inside hs
  slices bytes hl := by
    refine ⟨?_, fun slot hs => ⟨?_, fun id p h => Page.reads_of_decode h hs⟩⟩
    · have hle := s.headerSize_le size
      rw [List.length_take]
      omega
    · have hle := slot_inside hs
      unfold Bytes.slice
      rw [List.length_take, List.length_drop]
      omega
  empty := slotCount_eq_zero_iff
  refused hs := by
    refine ⟨fun id bytes hl => ?_, fun disk path => ?_, fun disk input output delimiter => ?_⟩
    · unfold Page.decode
      rw [dif_pos hl, if_pos hs]
    · unfold TableFile.attach
      rw [if_pos hs]
    · exact (s.importText_pageTooSmall size disk input output delimiter).1 hs
  accepted hs a b := by
    refine ⟨fun id bytes => Page.decode_ne_pageTooSmall hs a b, fun disk path h => ?_, fun disk input output delimiter => ?_⟩
    · unfold TableFile.attach at h
      rw [if_neg hs] at h
      split at h <;> cases h
    · exact (s.importText_pageTooSmall size disk input output delimiter).2 hs a b
  settings := by
    rintro settings rfl
    have hsome : (∃ s : Schema, s.slotCount settings.pageSize ≠ 0) ↔ Settings.minPageSize ≤ settings.pageSize :=
      exists_slotCount_ne_zero_iff
    have hall : (∀ s : Schema, s.slotCount settings.pageSize = 0) ↔ settings.pageSize < Settings.minPageSize := by
      rw [← Nat.not_le, ← hsome, not_exists]
      exact forall_congr' fun s => not_not.symm
    unfold Settings.validate
    rw [hsome, hall]
    split
    · next hb => exact ⟨⟨by rintro ⟨⟩, fun h => absurd hb h.1⟩, ⟨by rintro ⟨⟩, fun h => absurd hb h.1⟩⟩
    · next hb =>
      split
      · next hp => exact ⟨⟨by rintro ⟨⟩, fun h => absurd hp (Nat.not_lt.2 h.2)⟩, ⟨fun _ => ⟨hb, hp⟩, fun _ => rfl⟩⟩
      · next hp => exact ⟨⟨fun _ => ⟨hb, Nat.not_lt.1 hp⟩, fun _ => rfl⟩, ⟨by rintro ⟨⟩, fun h => absurd h.2 hp⟩⟩

/-- A row of three numbers. -/
example : (⟨[⟨.int, none⟩, ⟨.int, none⟩, ⟨.int, none⟩], by decide⟩ : Schema).slotCount 4096 = 337 := by decide

end Schema

end HeapStore
