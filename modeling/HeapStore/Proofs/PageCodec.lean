import HeapStore.Page.Encoding
import Mathlib.Tactic.Ring

/-!
# Pages survive storing

What is written is read back: fields, rows, slots, and with them the page.

* `Schema.decode_encode`: a row is read back from its stored bytes.
* `Schema.header_add_slots_le`: the header and all slots lie on the page.
* `Page.decode_encode`: **a page is read back from its stored bytes**, clean and with these bytes as
  its image. The bits behind the last slot come back too.
* `Page.decode_zeros`: zeros are a page without records.
* `Page.fields_of_decode`: what a page that was read has from where it was read.
-/

namespace HeapStore

open Bytes (ofText ofWord toWord zeros)

/-! ## Rows -/

theorem decodeText_ofText {s : String} (h : (ofText s).length ≤ maxTextBytes) (rest : Bytes) :
    decodeText (ofText s).length (ofText s ++ rest) = .ok ⟨.text s, h⟩ := by
  have ht : Text.Utf8.decode ((ofText s ++ rest).take (ofText s).length) = .ok s := by
    rw [List.take_left' rfl, Text.Utf8.decode_ofText]
  unfold decodeText
  rw [dif_pos h]
  split
  · next s' hs =>
    rw [ht] at hs
    cases hs
    rfl
  · next fault hs =>
    rw [ht] at hs
    cases hs

/-- A field is read back from its stored bytes. -/
theorem FieldType.decode_encode : {t : FieldType} → {f : Field} → (h : t.Accepts f) →
    t.decode f.encode = .ok ⟨f, h⟩
  | .int, .int n, _ => by
    have hl : (ofWord n.toUInt32).length = 4 := Bytes.length_ofWord _
    simp [FieldType.decode, Field.encode, FieldType.width, hl, Bytes.toWord_ofWord]
  | .text, .text s, h => by
    have hle : (ofText s).length ≤ 128 := h
    have hl : (Field.text s).encode.length = FieldType.text.width := Field.length_encode _
    have hw : (UInt32.ofNat (ofText s).length).toNat = (ofText s).length := by
      rw [UInt32.toNat_ofNat', Nat.mod_eq_of_lt (by omega)]
    have he : (Field.text s).encode =
        ofWord (.ofNat (ofText s).length) ++ (ofText s ++ zeros (maxTextBytes - (ofText s).length)) := by
      simp only [Field.encode, List.take_of_length_le h, List.append_assoc]
    unfold FieldType.decode
    rw [if_pos hl]
    simp only [he]
    rw [List.take_left' (Bytes.length_ofWord _), List.drop_left' (Bytes.length_ofWord _),
      Bytes.toWord_ofWord, hw, decodeText_ofText h]

theorem decodeAll_encodeAll : {ts : List FieldType} → {fs : List Field} → (h : Fits ts fs) →
    decodeAll ts (encodeAll fs) = .ok ⟨fs, h⟩
  | [], [], _ => rfl
  | t :: ts, f :: fs, h => by
    have hl : f.encode.length = t.width := by rw [Field.length_encode, h.1.type_eq]
    have hc : encodeAll (f :: fs) = f.encode ++ encodeAll fs := rfl
    have ih := decodeAll_encodeAll h.2
    unfold decodeAll
    rw [hc, List.take_left' hl, List.drop_left' hl, FieldType.decode_encode h.1, ih]
    rfl

/-- **A row is read back** from its stored bytes. -/
theorem Schema.decode_encode (s : Schema) (row : s.Row) : s.decode (s.encode row) = .ok row := by
  unfold Schema.decode
  rw [if_pos (s.length_encode row)]
  exact decodeAll_encodeAll row.property

/-! ## Slots -/

namespace Schema

variable (s : Schema)

/-- The slots are as many as fit: each takes the bytes of a row and one bit of the header. -/
theorem slotCount_mul_le (size : Nat) : 8 * (s.slotCount size * s.width) + s.slotCount size ≤ size * 8 := by
  have h : s.slotCount size * (s.width * 8 + 1) ≤ size * 8 := Nat.div_mul_le_self _ _
  have he : s.slotCount size * (s.width * 8 + 1) = 8 * (s.slotCount size * s.width) + s.slotCount size := by
    ring
  omega

/-- The header and the slots lie on the page. -/
theorem header_add_slots_le (size : Nat) :
    s.headerSize size + s.slotCount size * s.width ≤ size := by
  have h := s.slotCount_mul_le size
  simp only [headerSize]
  omega

theorem length_encodeSlot (slot : Option s.Row) : (s.encodeSlot slot).length = s.width := by
  cases slot <;> simp [encodeSlot]

theorem length_encodeSlots (slots : List (Option s.Row)) :
    (slots.flatMap s.encodeSlot).length = slots.length * s.width := by
  induction slots with
  | nil => simp
  | cons slot slots ih =>
    rw [List.flatMap_cons, List.length_append, s.length_encodeSlot, ih, List.length_cons]
    ring

theorem decodeSlots_free {flags : List Bool} {bytes : Bytes} {slots : List (Option s.Row)}
    {h : slots.length = flags.length} (hd : s.decodeSlots flags (bytes.drop s.width) = .ok ⟨slots, h⟩) :
    s.decodeSlots (false :: flags) bytes = .ok ⟨none :: slots, congrArg Nat.succ h⟩ := by
  unfold decodeSlots
  rw [hd]
  rfl

theorem decodeSlots_used {flags : List Bool} {bytes : Bytes} {row : s.Row} {slots : List (Option s.Row)}
    {h : slots.length = flags.length} (hr : s.decode (bytes.take s.width) = .ok row)
    (hd : s.decodeSlots flags (bytes.drop s.width) = .ok ⟨slots, h⟩) :
    s.decodeSlots (true :: flags) bytes = .ok ⟨some row :: slots, congrArg Nat.succ h⟩ := by
  unfold decodeSlots
  rw [hd, hr]
  rfl

/-- Slots are read back from their stored bytes, whatever stands behind them. -/
theorem decodeSlots_encodeSlots (slots : List (Option s.Row)) (rest : Bytes) :
    s.decodeSlots (slots.map Option.isSome) (slots.flatMap s.encodeSlot ++ rest) =
      .ok ⟨slots, (List.length_map _).symm⟩ := by
  induction slots with
  | nil => rfl
  | cons slot slots ih =>
    have hl := s.length_encodeSlot slot
    rw [List.flatMap_cons, List.append_assoc]
    cases slot with
    | none => exact s.decodeSlots_free (by rw [List.drop_left' hl]; exact ih)
    | some row =>
      refine s.decodeSlots_used ?_ (by rw [List.drop_left' hl]; exact ih)
      rw [List.take_left' hl]
      exact s.decode_encode row

theorem decodeSlots_allFree (n : Nat) : ∀ bytes,
    s.decodeSlots (List.replicate n false) bytes = .ok ⟨List.replicate n none, by simp⟩ := by
  induction n with
  | zero => intro _; rfl
  | succ n ih => intro bytes; exact s.decodeSlots_free (ih _)

end Schema

theorem Bits.unpack_zeros (n : Nat) : Bits.unpack (zeros n) = List.replicate (8 * n) false := by
  induction n with
  | zero => rfl
  | succ n ih =>
    have h : Bits.unpack (zeros (n + 1)) = List.replicate 8 false ++ Bits.unpack (zeros n) := rfl
    rw [h, ih, List.replicate_append_replicate]
    congr 1
    omega

/-! ## Pages -/

namespace Page

variable {id : PageId} {s : Schema} {size : Nat} {bytes : Bytes}

/-- Reading a page, once its slots are read. -/
theorem decode_of_slots (hsize : bytes.length = size) (hs : s.slotCount size ≠ 0)
    {flags : List Bool} (hflags : Bits.unpack (bytes.take (s.headerSize size)) = flags)
    {slots : List (Option s.Row)} (h : slots.length = (flags.take (s.slotCount size)).length)
    (hd : s.decodeSlots (flags.take (s.slotCount size)) (bytes.drop (s.headerSize size)) = .ok ⟨slots, h⟩)
    (h1 : slots.length = s.slotCount size)
    (h2 : slots.length + (flags.drop (s.slotCount size)).length = 8 * s.headerSize size) :
    decode id s size bytes =
      .ok ⟨id, s, size, slots, flags.drop (s.slotCount size), none, bytes, h1, h2⟩ := by
  subst hflags
  unfold decode
  rw [dif_pos hsize, if_neg hs]
  simp only [hd]
  rfl

/-- What a page that was read has from where it was read. -/
theorem fields_of_decode {p : Page} (h : decode id s size bytes = .ok p) :
    p.id = id ∧ p.schema = s ∧ p.size = size ∧ p.dirty = none ∧ p.image = bytes ∧
      s.slotCount size ≠ 0 := by
  unfold decode at h
  split at h
  · split at h
    · cases h
    · next hs =>
      simp only [Except.map] at h
      split at h
      · cases h
      · cases h
        exact ⟨rfl, rfl, rfl, rfl, rfl, hs⟩
  · cases h

/-- The number of a page plays no part in reading it. -/
theorem decode_id (id id' : PageId) :
    decode id' s size bytes = (decode id s size bytes).map fun p => { p with id := id' } := by
  unfold decode
  split
  · split
    · rfl
    · simp only [Except.map]
      split <;> rfl
  · rfl

/-- The bits of the header come back when a page is read. -/
theorem unpack_header (p : Page) : Bits.unpack p.header = p.slots.map Option.isSome ++ p.spare := by
  unfold header
  rw [Bits.unpack_pack]
  rw [List.length_append, List.length_map, p.length_spare]

/-- **A page is read back from its stored bytes**, clean and with these bytes as its image. -/
theorem decode_encode (p : Page) (hs : p.schema.slotCount p.size ≠ 0) :
    decode p.id p.schema p.size p.encode = .ok (p.mark none).settle := by
  have hh : p.header.length = p.schema.headerSize p.size := Bits.length_pack _ _
  have hb : (p.slots.flatMap p.schema.encodeSlot).length = p.schema.slotCount p.size * p.schema.width := by
    rw [Schema.length_encodeSlots, p.length_slots]
  have hfit := p.schema.header_add_slots_le p.size
  obtain ⟨rest, he⟩ : ∃ rest, p.encode = p.header ++ (p.slots.flatMap p.schema.encodeSlot ++ rest) := by
    unfold encode Bytes.resize
    rw [List.take_of_length_le (by rw [List.length_append]; omega), List.append_assoc]
    exact ⟨_, rfl⟩
  have hl : (p.slots.map Option.isSome).length = p.schema.slotCount p.size := by
    rw [List.length_map, p.length_slots]
  have hflags : Bits.unpack (p.encode.take (p.schema.headerSize p.size)) =
      p.slots.map Option.isSome ++ p.spare := by
    rw [he, List.take_left' hh, p.unpack_header]
  have hd : ∀ flags, flags = p.slots.map Option.isSome → ∀ h,
      p.schema.decodeSlots flags (p.encode.drop (p.schema.headerSize p.size)) = .ok ⟨p.slots, h⟩ := by
    rintro _ rfl _
    rw [he, List.drop_left' hh]
    exact p.schema.decodeSlots_encodeSlots p.slots rest
  rw [decode_of_slots p.length_encode hs hflags (by rw [List.take_left' hl, List.length_map])
    (hd _ (List.take_left' hl) _) p.length_slots (by rw [List.drop_left' hl]; exact p.length_spare)]
  simp only [List.drop_left' hl]
  rfl

/-- Zeros are a page without records. -/
theorem decode_zeros (hs : s.slotCount size ≠ 0) :
    ∃ p, decode id s size (zeros size) = .ok p ∧ ∀ slot, p.row? slot = none := by
  have hle := s.headerSize_le size
  have hbits := s.slotCount_le_bits size
  have hflags : Bits.unpack ((zeros size).take (s.headerSize size)) =
      List.replicate (8 * s.headerSize size) false := by
    unfold zeros
    rw [List.take_replicate, Nat.min_eq_left hle]
    exact Bits.unpack_zeros _
  have hd : ∀ flags, flags = List.replicate (s.slotCount size) false → ∀ h,
      s.decodeSlots flags ((zeros size).drop (s.headerSize size)) =
        .ok ⟨List.replicate (s.slotCount size) none, h⟩ := by
    rintro _ rfl _
    exact s.decodeSlots_allFree _ _
  have htake : (List.replicate (8 * s.headerSize size) false).take (s.slotCount size) =
      List.replicate (s.slotCount size) false := by
    rw [List.take_replicate, Nat.min_eq_left hbits]
  refine ⟨_, decode_of_slots (Bytes.length_zeros _) hs hflags (by simp [htake])
    (hd _ htake _) List.length_replicate ?_, ?_⟩
  · simp only [List.length_replicate, List.drop_replicate]
    omega
  · intro slot
    simp only [row?, List.getElem?_replicate]
    split <;> rfl

end Page

end HeapStore
