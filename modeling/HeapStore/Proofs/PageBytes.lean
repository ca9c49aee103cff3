import HeapStore.Proofs.PageRows
import HeapStore.Proofs.RowBytes

/-!
# Pages byte by byte

Which bytes are a page, and what is left of them when the page is stored again. Nothing is looked at in free slots,
behind texts and behind the last slot, and there the stored page has zeros; all else stays, also the header bits that
belong to no slot.

* `Bits.pack_unpack`, `Bits.getElem?_unpack`: the flags of bytes, and the bytes of flags.
* `Schema.LooseSlots`, `Page.Loose`: the bytes that are not looked at, behind the header and on the page.
* `Page.Valid`: the bytes that are a page, in terms of single bytes.
* `Page.decode_canonical`: **exactly these are read, and stored again they differ in the loose bytes only**, which are
  zeros then. Two of them are stored alike if and only if they are read alike.
-/

namespace HeapStore

open Bytes (Clears TextAt textLength zeros)

namespace Bits

theorem value_ofNat (n : Nat) : ∀ m, value (ofNat n m) = m % Nat.pow 2 n := by
  induction n with
  | zero =>
    intro m
    exact (Nat.mod_one m).symm
  | succ n ih =>
    intro m
    have hmod : m % (2 * Nat.pow 2 n) = m % 2 + 2 * (m / 2 % Nat.pow 2 n) := Nat.mod_mul
    have hbit : (m % 2 == 1).toNat = m % 2 := by
      rcases Nat.mod_two_eq_zero_or_one m with h | h <;> rw [h] <;> rfl
    have hpow : Nat.pow 2 (n + 1) = 2 * Nat.pow 2 n := Nat.pow_succ'
    unfold ofNat value
    rw [ih, hpow, hmod, hbit]

theorem unpack_cons (b : UInt8) (bytes : Bytes) : unpack (b :: bytes) = ofNat 8 b.toNat ++ unpack bytes := rfl

/-- Bytes survive the way through their flags. -/
theorem pack_unpack (bytes : Bytes) : pack bytes.length (unpack bytes) = bytes := by
  induction bytes with
  | nil => rfl
  | cons b bytes ih =>
    have hb : UInt8.ofNat (value (ofNat 8 b.toNat)) = b := by
      have hmod : b.toNat % Nat.pow 2 8 = b.toNat := Nat.mod_eq_of_lt b.toNat_lt
      rw [value_ofNat, hmod, UInt8.ofNat_toNat]
    rw [unpack_cons, List.length_cons]
    unfold pack
    rw [List.take_left' (length_ofNat 8 _), List.drop_left' (length_ofNat 8 _), hb, ih]

theorem getElem?_ofNat (n : Nat) : ∀ m i, i < n → (ofNat n m)[i]? = some (m.testBit i) := by
  induction n with
  | zero =>
    intro m i hi
    omega
  | succ n ih =>
    intro m i hi
    unfold ofNat
    cases i with
    | zero =>
      have hbit : m.testBit 0 = (m % 2 == 1) := by
        rw [Nat.testBit_zero]
        rfl
      rw [hbit]
      rfl
    | succ i =>
      rw [List.getElem?_cons_succ, ih _ i (by omega), Nat.testBit_succ]

/-- The flags of bytes are their bits, the lowest of each byte first. -/
theorem getElem?_unpack (bytes : Bytes) : ∀ i, (unpack bytes)[i]? = bytes[i / 8]?.map fun b => b.toNat.testBit (i % 8) := by
  induction bytes with
  | nil =>
    intro i
    rfl
  | cons b bytes ih =>
    intro i
    rw [unpack_cons]
    rcases Nat.lt_or_ge i 8 with hi | hi
    · rw [List.getElem?_append_left (by rw [length_ofNat]; exact hi), getElem?_ofNat 8 _ i hi, Nat.div_eq_of_lt hi,
        Nat.mod_eq_of_lt hi]
      rfl
    · have hdiv : i / 8 = (i - 8) / 8 + 1 := by omega
      have hmod : i % 8 = (i - 8) % 8 := by omega
      rw [List.getElem?_append_right (by rw [length_ofNat]; exact hi), length_ofNat, ih, hdiv, hmod,
        List.getElem?_cons_succ]

end Bits

/-! ## Slots -/

namespace Schema

variable {s : Schema} {used : Bool} {flags : List Bool} {bytes bytes' : Bytes} {i : Nat}

/-- The bytes of slots that are not looked at: those of free slots, those behind the texts of the others, and those
behind all slots. -/
inductive LooseSlots (s : Schema) (flags : List Bool) (bytes : Bytes) (i : Nat) : Prop where
  | behind (h : flags.length * s.width ≤ i)
  | free {slot : Nat} (hf : flags[slot]? = some false) (hle : slot * s.width ≤ i) (hlt : i < (slot + 1) * s.width)
  | padding {slot k : Nat} (hf : flags[slot]? = some true) (ht : s.types[k]? = some .text)
    (hle : slot * s.width + fieldStart s.types k + 4 + textLength bytes (slot * s.width + fieldStart s.types k) ≤ i)
    (hlt : i < slot * s.width + fieldStart s.types k + FieldType.text.width)

theorem looseSlots_first (hi : i < s.width) : s.LooseSlots (used :: flags) bytes i ↔
    used = false ∨ used = true ∧ LooseAll s.types (bytes.take s.width) i := by
  rw [looseAll_take (show totalWidth s.types ≤ s.width from Nat.le_refl _)]
  constructor
  · intro h
    cases h with
    | behind h =>
      rw [List.length_cons, Nat.succ_mul] at h
      omega
    | @free slot hf hle hlt =>
      cases slot with
      | zero => exact .inl (Option.some.inj hf)
      | succ slot =>
        rw [Nat.succ_mul] at hle
        omega
    | @padding slot k hf ht hle hlt =>
      cases slot with
      | zero =>
        rw [Nat.zero_mul, Nat.zero_add] at hle hlt
        exact .inr ⟨Option.some.inj hf, k, ht, hle, hlt⟩
      | succ slot =>
        rw [Nat.succ_mul] at hle
        omega
  · rintro (rfl | ⟨rfl, k, ht, hle, hlt⟩)
    · have hf : (false :: flags)[0]? = some false := rfl
      exact .free hf (by omega) (by omega)
    · have hf : (true :: flags)[0]? = some true := rfl
      exact .padding hf ht (by rw [Nat.zero_mul, Nat.zero_add]; exact hle)
        (by rw [Nat.zero_mul, Nat.zero_add]; exact hlt)

theorem looseSlots_rest : s.LooseSlots (used :: flags) bytes (s.width + i) ↔
    s.LooseSlots flags (bytes.drop s.width) i := by
  have hshift : ∀ a b, (a + 1) * s.width + b = s.width + (a * s.width + b) := by
    intro a b
    rw [Nat.succ_mul]
    omega
  constructor
  · intro h
    cases h with
    | behind h =>
      rw [List.length_cons, Nat.succ_mul] at h
      exact .behind (by omega)
    | @free slot hf hle hlt =>
      cases slot with
      | zero => omega
      | succ slot =>
        rw [Nat.succ_mul] at hle hlt
        have hf : flags[slot]? = some false := hf
        exact .free hf (by omega) (by omega)
    | @padding slot k hf ht hle hlt =>
      cases slot with
      | zero =>
        have hfit : fieldStart s.types k + FieldType.text.width ≤ s.width := fieldStart_add_width_le ht
        omega
      | succ slot =>
        rw [hshift] at hle hlt
        have hf : flags[slot]? = some true := hf
        exact .padding hf ht (by rw [Bytes.textLength_drop]; omega) (by omega)
  · intro h
    cases h with
    | behind h =>
      refine .behind ?_
      rw [List.length_cons, Nat.succ_mul]
      omega
    | @free slot hf hle hlt =>
      have hf : (used :: flags)[slot + 1]? = some false := hf
      refine .free hf ?_ ?_
      · rw [Nat.succ_mul]
        omega
      · rw [Nat.succ_mul]
        omega
    | @padding slot k hf ht hle hlt =>
      rw [Bytes.textLength_drop] at hle
      have hf : (used :: flags)[slot + 1]? = some true := hf
      refine .padding hf ht ?_ ?_
      · rw [hshift]
        omega
      · rw [hshift]
        omega

/-! ## Reading and storing slots -/

theorem decodeSlots_free_eq_ok {slots : { slots : List (Option s.Row) // slots.length = (false :: flags).length }} :
    s.decodeSlots (false :: flags) bytes = .ok slots ↔
      ∃ rest, s.decodeSlots flags (bytes.drop s.width) = .ok rest ∧ slots.val = none :: rest.val := by
  have hstep : s.decodeSlots (false :: flags) bytes = (do
      let rest ← s.decodeSlots flags (bytes.drop s.width)
      .ok ⟨none :: rest.val, congrArg Nat.succ rest.property⟩) := rfl
  rw [hstep]
  simp only [bind_eq_ok_iff]
  constructor
  · rintro ⟨rest, hr, he⟩
    cases he
    exact ⟨rest, hr, rfl⟩
  · rintro ⟨rest, hr, hslots⟩
    exact ⟨rest, hr, congrArg Except.ok (Subtype.ext hslots.symm)⟩

theorem decodeSlots_used_eq_ok {slots : { slots : List (Option s.Row) // slots.length = (true :: flags).length }} :
    s.decodeSlots (true :: flags) bytes = .ok slots ↔ ∃ row rest, s.decode (bytes.take s.width) = .ok row ∧
      s.decodeSlots flags (bytes.drop s.width) = .ok rest ∧ slots.val = some row :: rest.val := by
  have hstep : s.decodeSlots (true :: flags) bytes = (do
      let row ← s.decode (bytes.take s.width)
      let rest ← s.decodeSlots flags (bytes.drop s.width)
      .ok ⟨some row :: rest.val, congrArg Nat.succ rest.property⟩) := by
    rw [decodeSlots]
    cases s.decode (bytes.take s.width) <;> rfl
  rw [hstep]
  simp only [bind_eq_ok_iff]
  constructor
  · rintro ⟨row, hd, rest, hr, he⟩
    cases he
    exact ⟨row, rest, hd, hr, rfl⟩
  · rintro ⟨row, rest, hd, hr, hslots⟩
    exact ⟨row, hd, rest, hr, congrArg Except.ok (Subtype.ext hslots.symm)⟩

/-- A row is read where enough bytes are left. -/
theorem decode_take (h : s.width ≤ bytes.length) :
    s.decode (bytes.take s.width) = decodeAll s.types (bytes.take s.width) := by
  unfold Schema.decode
  rw [if_pos (by rw [List.length_take]; omega)]

/-- The texts of slots, counted from the second slot on. -/
theorem textAt_next_slot (s : Schema) (bytes : Bytes) (slot start : Nat) :
    TextAt (bytes.drop s.width) (slot * s.width + start) ↔ TextAt bytes ((slot + 1) * s.width + start) := by
  have hshift : s.width + (slot * s.width + start) = (slot + 1) * s.width + start := by
    rw [Nat.succ_mul]
    omega
  rw [Bytes.textAt_drop, hshift]

/-- **Exactly the bytes whose used slots are rows are slots.** -/
theorem decodeSlots_isOk_iff (flags : List Bool) : ∀ {bytes : Bytes}, flags.length * s.width ≤ bytes.length →
    ((∃ slots, s.decodeSlots flags bytes = .ok slots) ↔ ∀ slot k, flags[slot]? = some true →
      s.types[k]? = some .text → TextAt bytes (slot * s.width + fieldStart s.types k)) := by
  induction flags with
  | nil =>
    intro bytes _
    constructor
    · intro _ slot k hf
      cases hf
    · exact fun _ => ⟨⟨[], rfl⟩, rfl⟩
  | cons used flags ih =>
    intro bytes hl
    rw [List.length_cons, Nat.succ_mul] at hl
    have hdrop : flags.length * s.width ≤ (bytes.drop s.width).length := by
      rw [List.length_drop]
      omega
    -- the slots behind the first one are read from the bytes behind it
    have hrest := ih hdrop
    simp only [textAt_next_slot] at hrest
    cases used with
    | false =>
      constructor
      · rintro ⟨slots, hslots⟩ slot k hf ht
        obtain ⟨rest, hr, -⟩ := decodeSlots_free_eq_ok.1 hslots
        cases slot with
        | zero => cases hf
        | succ slot => exact hrest.1 ⟨rest, hr⟩ slot k hf ht
      · intro h
        obtain ⟨rest, hr⟩ := hrest.2 fun slot k => h (slot + 1) k
        exact ⟨⟨none :: rest.val, congrArg Nat.succ rest.property⟩, decodeSlots_free_eq_ok.2 ⟨rest, hr, rfl⟩⟩
    | true =>
      have hwidth : totalWidth s.types = s.width := rfl
      have htake : totalWidth s.types ≤ (bytes.take s.width).length := by
        rw [List.length_take]
        omega
      have hrow := decodeAll_isOk_iff s.types htake
      rw [← decode_take (by omega)] at hrow
      constructor
      · rintro ⟨slots, hslots⟩ slot k hf ht
        obtain ⟨row, rest, hd, hr, -⟩ := decodeSlots_used_eq_ok.1 hslots
        cases slot with
        | zero =>
          rw [Nat.zero_mul, Nat.zero_add]
          exact (textAt_take_row hwidth.le ht).1 (hrow.1 ⟨row, hd⟩ k ht)
        | succ slot => exact hrest.1 ⟨rest, hr⟩ slot k hf ht
      · intro h
        obtain ⟨row, hd⟩ := hrow.2 fun k ht => by
          have h0 := h 0 k rfl ht
          rw [Nat.zero_mul, Nat.zero_add] at h0
          exact (textAt_take_row hwidth.le ht).2 h0
        obtain ⟨rest, hr⟩ := hrest.2 fun slot k => h (slot + 1) k
        exact ⟨⟨some row :: rest.val, congrArg Nat.succ rest.property⟩,
          decodeSlots_used_eq_ok.2 ⟨row, rest, hd, hr, rfl⟩⟩

/-- The flags of slots say which of them hold rows. -/
theorem isSome_of_decodeSlots (flags : List Bool) : ∀ {bytes : Bytes}
    {slots : { slots : List (Option s.Row) // slots.length = flags.length }},
    s.decodeSlots flags bytes = .ok slots → slots.val.map Option.isSome = flags := by
  induction flags with
  | nil =>
    intro bytes slots h
    cases h
    rfl
  | cons used flags ih =>
    intro bytes slots h
    cases used with
    | false =>
      obtain ⟨rest, hr, hslots⟩ := decodeSlots_free_eq_ok.1 h
      rw [hslots, List.map_cons, ih hr]
      rfl
    | true =>
      obtain ⟨row, rest, -, hr, hslots⟩ := decodeSlots_used_eq_ok.1 h
      rw [hslots, List.map_cons, ih hr]
      rfl

/-- **Slots that are stored again** are as they were, but for zeros in free slots, behind texts and behind all slots. -/
theorem clears_of_decodeSlots (flags : List Bool) : ∀ {bytes : Bytes}
    {slots : { slots : List (Option s.Row) // slots.length = flags.length }},
    flags.length * s.width ≤ bytes.length → s.decodeSlots flags bytes = .ok slots →
      Clears (s.LooseSlots flags bytes) bytes
        (slots.val.flatMap s.encodeSlot ++ zeros (bytes.length - flags.length * s.width)) := by
  induction flags with
  | nil =>
    intro bytes slots hl h
    cases h
    -- behind the last slot all is cleared
    have hzero : ([] : List Bool).length * s.width = 0 := Nat.zero_mul _
    rw [hzero, Nat.sub_zero]
    exact Bytes.clears_zeros bytes fun i _ => .behind (by rw [hzero]; omega)
  | cons used flags ih =>
    intro bytes slots hl h
    rw [List.length_cons, Nat.succ_mul] at hl
    have htake : (bytes.take s.width).length = s.width := by
      rw [List.length_take]
      omega
    have hrestLength : (bytes.drop s.width).length - flags.length * s.width =
        bytes.length - (used :: flags).length * s.width := by
      rw [List.length_drop, List.length_cons, Nat.succ_mul]
      omega
    -- it is enough to know what becomes of the first slot
    have hfirst : ∀ (slot : Option s.Row) (rest : { rest : List (Option s.Row) // rest.length = flags.length }),
        s.decodeSlots flags (bytes.drop s.width) = .ok rest → slots.val = slot :: rest.val →
        Clears (fun i => used = false ∨ used = true ∧ LooseAll s.types (bytes.take s.width) i) (bytes.take s.width)
          (s.encodeSlot slot) →
        Clears (s.LooseSlots (used :: flags) bytes) bytes
          (slots.val.flatMap s.encodeSlot ++ zeros (bytes.length - (used :: flags).length * s.width)) := by
      intro slot rest hr hslots hclear
      have hrest := ih (by rw [List.length_drop]; omega) hr
      have hboth : Clears (s.LooseSlots (used :: flags) bytes) _ _ := hclear.append hrest
        (fun i hi => looseSlots_first (by omega)) (fun i => by rw [htake]; exact looseSlots_rest)
      rw [List.take_append_drop, ← List.append_assoc, hrestLength] at hboth
      rw [hslots, List.flatMap_cons]
      exact hboth
    cases used with
    | false =>
      obtain ⟨rest, hr, hslots⟩ := decodeSlots_free_eq_ok.1 h
      refine hfirst none rest hr hslots ?_
      have hzeros : s.encodeSlot none = zeros (bytes.take s.width).length := by
        rw [htake]
        rfl
      rw [hzeros]
      exact Bytes.clears_zeros _ fun _ _ => .inl rfl
    | true =>
      obtain ⟨row, rest, hd, hr, hslots⟩ := decodeSlots_used_eq_ok.1 h
      refine hfirst (some row) rest hr hslots ?_
      rw [decode_take (by omega)] at hd
      have hrow := clears_of_decodeAll s.types htake hd
      exact ⟨hrow.length, fun i hi hc => hrow.zero i hi (hc.resolve_left nofun).2,
        fun i hn => hrow.same i fun hc => hn (.inr ⟨rfl, hc⟩)⟩

/-- Free slots, the bytes behind texts and those behind all slots are not looked at. -/
theorem decodeSlots_congr (flags : List Bool) : ∀ {bytes bytes' : Bytes}, flags.length * s.width ≤ bytes.length →
    bytes'.length = bytes.length → (∀ i, ¬ s.LooseSlots flags bytes i → bytes[i]? = bytes'[i]?) →
      s.decodeSlots flags bytes = s.decodeSlots flags bytes' := by
  induction flags with
  | nil => exact fun _ _ _ => rfl
  | cons used flags ih =>
    intro bytes bytes' hl hl' h
    rw [List.length_cons, Nat.succ_mul] at hl
    have hrest : s.decodeSlots flags (bytes.drop s.width) = s.decodeSlots flags (bytes'.drop s.width) := by
      apply ih
      · rw [List.length_drop]
        omega
      · rw [List.length_drop, List.length_drop, hl']
      · intro i hn
        rw [List.getElem?_drop, List.getElem?_drop]
        exact h _ fun hc => hn (looseSlots_rest.1 hc)
    cases used with
    | false =>
      unfold decodeSlots
      rw [hrest]
      rfl
    | true =>
      have hrow : s.decode (bytes.take s.width) = s.decode (bytes'.take s.width) := by
        rw [decode_take (by omega), decode_take (by omega)]
        apply decodeAll_congr
        · rw [List.length_take]
          exact Nat.min_eq_left (by omega)
        · rw [List.length_take]
          exact Nat.min_eq_left (by omega)
        · intro i hn
          rw [List.getElem?_take, List.getElem?_take]
          split
          · next hi =>
            refine h i fun hc => ?_
            rcases (looseSlots_first hi).1 hc with hu | ⟨-, hc⟩
            · cases hu
            · exact hn hc
          · rfl
      unfold decodeSlots
      rw [hrest, hrow]

end Schema

/-! ## Pages -/

/-- The bit of a slot is set. -/
def Bytes.Used (bytes : Bytes) (slot : Nat) : Prop := ∃ b, bytes[slot / 8]? = some b ∧ b.toNat.testBit (slot % 8) = true

open Bytes (Used)

namespace Page

variable {id : PageId} {s : Schema} {size : Nat} {bytes bytes' : Bytes} {p q : Page} {i slot k : Nat}

/-- The bytes of a page that are not looked at: those of free slots, those behind the texts of the others, and those
behind the last slot. -/
inductive Loose (s : Schema) (size : Nat) (bytes : Bytes) (i : Nat) : Prop where
  | behind (h : s.slotStart size (s.slotCount size) ≤ i)
  | free {slot : Nat} (hs : slot < s.slotCount size) (hu : ¬ bytes.Used slot) (hle : s.slotStart size slot ≤ i)
    (hlt : i < s.slotStart size (slot + 1))
  | padding {slot k : Nat} (hs : slot < s.slotCount size) (hu : bytes.Used slot) (ht : s.types[k]? = some .text)
    (hle : s.slotStart size slot + fieldStart s.types k + 4 +
      textLength bytes (s.slotStart size slot + fieldStart s.types k) ≤ i)
    (hlt : i < s.slotStart size slot + fieldStart s.types k + FieldType.text.width)

/-- The bytes are as many as they should be, at least one slot has room, and every text of a slot whose bit is set has a
length of at most `maxTextBytes` and is UTF-8. -/
structure Valid (s : Schema) (size : Nat) (bytes : Bytes) : Prop where
  length : bytes.length = size
  room : s.slotCount size ≠ 0
  texts : ∀ slot k, slot < s.slotCount size → bytes.Used slot → s.types[k]? = some .text →
    TextAt bytes (s.slotStart size slot + fieldStart s.types k)

/-- The flags of the slots. -/
def flagsOf (s : Schema) (size : Nat) (bytes : Bytes) : List Bool :=
  (Bits.unpack (bytes.take (s.headerSize size))).take (s.slotCount size)

theorem length_flagsOf (hl : bytes.length = size) : (flagsOf s size bytes).length = s.slotCount size := by
  have hle := s.headerSize_le size
  have hbits := s.slotCount_le_bits size
  unfold flagsOf
  rw [List.length_take, Bits.length_unpack, List.length_take]
  omega

/-- The header has a bit for each slot. -/
theorem div_lt_headerSize (hs : slot < s.slotCount size) : slot / 8 < s.headerSize size := by
  have hbits := s.slotCount_le_bits size
  omega

theorem getElem?_flagsOf (hs : slot < s.slotCount size) :
    (flagsOf s size bytes)[slot]? = bytes[slot / 8]?.map fun b => b.toNat.testBit (slot % 8) := by
  unfold flagsOf
  rw [List.getElem?_take, if_pos hs, Bits.getElem?_unpack, List.getElem?_take, if_pos (div_lt_headerSize hs)]

theorem lt_of_flagsOf {used : Bool} (hl : bytes.length = size) (h : (flagsOf s size bytes)[slot]? = some used) :
    slot < s.slotCount size := by
  obtain ⟨hlt, -⟩ := List.getElem?_eq_some_iff.1 h
  rw [length_flagsOf hl] at hlt
  exact hlt

theorem flagsOf_eq_true_iff (hl : bytes.length = size) :
    (flagsOf s size bytes)[slot]? = some true ↔ slot < s.slotCount size ∧ bytes.Used slot := by
  constructor
  · intro h
    have hs := lt_of_flagsOf hl h
    rw [getElem?_flagsOf hs, Option.map_eq_some_iff] at h
    exact ⟨hs, h⟩
  · rintro ⟨hs, hu⟩
    rw [getElem?_flagsOf hs, Option.map_eq_some_iff]
    exact hu

theorem flagsOf_eq_false_iff (hl : bytes.length = size) :
    (flagsOf s size bytes)[slot]? = some false ↔ slot < s.slotCount size ∧ ¬ bytes.Used slot := by
  have htrue : (flagsOf s size bytes)[slot]? = some true ↔ _ := flagsOf_eq_true_iff hl
  constructor
  · intro h
    have hs := lt_of_flagsOf hl h
    refine ⟨hs, fun hu => ?_⟩
    rw [h] at htrue
    cases htrue.2 ⟨hs, hu⟩
  · rintro ⟨hs, hu⟩
    have hlt : slot < (flagsOf s size bytes).length := by
      rw [length_flagsOf hl]
      exact hs
    rw [List.getElem?_eq_getElem hlt] at htrue ⊢
    cases hf : (flagsOf s size bytes)[slot] with
    | false => rfl
    | true => exact absurd (htrue.1 (congrArg some hf)).2 hu

/-- Behind the header the bytes that are not looked at are those of its slots. -/
theorem loose_iff (hl : bytes.length = size) : Loose s size bytes (s.headerSize size + i) ↔
    s.LooseSlots (flagsOf s size bytes) (bytes.drop (s.headerSize size)) i := by
  have hlength : ∀ slot k, textLength (bytes.drop (s.headerSize size)) (slot * s.width + fieldStart s.types k) =
      textLength bytes (s.slotStart size slot + fieldStart s.types k) := by
    intro slot k
    unfold Schema.slotStart
    rw [Bytes.textLength_drop, Nat.add_assoc]
  constructor
  · intro h
    cases h with
    | behind h =>
      unfold Schema.slotStart at h
      exact .behind (by rw [length_flagsOf hl]; omega)
    | free hs hu hle hlt =>
      unfold Schema.slotStart at hle hlt
      exact .free ((flagsOf_eq_false_iff hl).2 ⟨hs, hu⟩) (by omega) (by omega)
    | padding hs hu ht hle hlt =>
      rw [← hlength] at hle
      unfold Schema.slotStart at hle hlt
      exact .padding ((flagsOf_eq_true_iff hl).2 ⟨hs, hu⟩) ht (by omega) (by omega)
  · intro h
    cases h with
    | behind h =>
      rw [length_flagsOf hl] at h
      exact .behind (by unfold Schema.slotStart; omega)
    | free hf hle hlt =>
      obtain ⟨hs, hu⟩ := (flagsOf_eq_false_iff hl).1 hf
      exact .free hs hu (by unfold Schema.slotStart; omega) (by unfold Schema.slotStart; omega)
    | padding hf ht hle hlt =>
      obtain ⟨hs, hu⟩ := (flagsOf_eq_true_iff hl).1 hf
      rw [hlength] at hle
      exact .padding hs hu ht (by unfold Schema.slotStart at hle ⊢; omega) (by unfold Schema.slotStart; omega)

/-- All of the header is looked at. -/
theorem not_loose_of_lt (hi : i < s.headerSize size) : ¬ Loose s size bytes i := by
  intro h
  cases h with
  | behind h =>
    unfold Schema.slotStart at h
    omega
  | free _ _ hle _ =>
    unfold Schema.slotStart at hle
    omega
  | padding _ _ _ hle _ =>
    unfold Schema.slotStart at hle
    omega

/-! ## Reading and storing pages -/

/-- The slots behind the header all lie on the page. -/
theorem slots_le (hl : bytes.length = size) :
    (flagsOf s size bytes).length * s.width ≤ (bytes.drop (s.headerSize size)).length := by
  have hfit := s.header_add_slots_le size
  rw [length_flagsOf hl, List.length_drop]
  omega

/-- The header of a page that is read is the one that was stored. -/
theorem header_of_decode (h : decode id s size bytes = .ok p) : p.header = bytes.take (s.headerSize size) := by
  have hle := s.headerSize_le size
  unfold decode at h
  split at h
  · next hl =>
    split at h
    · cases h
    · simp only [Except.map] at h
      split at h
      · cases h
      · next slots hd =>
        cases h
        have htake : (bytes.take (s.headerSize size)).length = s.headerSize size := by
          rw [List.length_take]
          omega
        -- the slots in use are those whose bits are set, and the bits behind them are kept as they are
        show Bits.pack (s.headerSize size) (slots.val.map Option.isSome ++
          (Bits.unpack (bytes.take (s.headerSize size))).drop (s.slotCount size)) = _
        rw [Schema.isSome_of_decodeSlots _ hd, List.take_append_drop]
        have hpack := Bits.pack_unpack (bytes.take (s.headerSize size))
        rw [htake] at hpack
        exact hpack
  · cases h

/-- What is read is the header and the slots behind it. -/
theorem of_decode (h : decode id s size bytes = .ok p) :
    ∃ slots, s.decodeSlots (flagsOf s size bytes) (bytes.drop (s.headerSize size)) = .ok slots ∧
      p.contents = (fun slot => slots.val[slot]?.join.map Subtype.val) ∧
      p.encode = Bytes.resize (bytes.take (s.headerSize size) ++ slots.val.flatMap s.encodeSlot) size := by
  have hheader := header_of_decode h
  unfold decode at h
  split at h
  · split at h
    · cases h
    · simp only [Except.map] at h
      split at h
      · cases h
      · next slots hd =>
        cases h
        refine ⟨slots, hd, rfl, ?_⟩
        unfold encode
        rw [hheader]
  · cases h

/-- A page is read if its slots are. -/
theorem decode_isOk_of_slots (hl : bytes.length = size) (hs : s.slotCount size ≠ 0)
    (h : ∃ slots, s.decodeSlots (flagsOf s size bytes) (bytes.drop (s.headerSize size)) = .ok slots) :
    ∃ p, decode id s size bytes = .ok p := by
  obtain ⟨slots, hd⟩ := h
  unfold decode
  rw [dif_pos hl, if_neg hs]
  unfold flagsOf at hd
  simp only [hd]
  exact ⟨_, rfl⟩

theorem length_of_decode (h : decode id s size bytes = .ok p) : bytes.length = size := by
  unfold decode at h
  split at h
  · next hl => exact hl
  · cases h

/-- **Exactly the valid bytes are a page.** -/
theorem decode_isOk_iff : (∃ p, decode id s size bytes = .ok p) ↔ Valid s size bytes := by
  have hslots : bytes.length = size →
      ((∃ slots, s.decodeSlots (flagsOf s size bytes) (bytes.drop (s.headerSize size)) = .ok slots) ↔
        ∀ slot k, slot < s.slotCount size → bytes.Used slot → s.types[k]? = some .text →
          TextAt bytes (s.slotStart size slot + fieldStart s.types k)) := by
    intro hl
    rw [Schema.decodeSlots_isOk_iff _ (slots_le hl)]
    unfold Schema.slotStart
    simp only [flagsOf_eq_true_iff hl, Bytes.textAt_drop, ← Nat.add_assoc, and_imp]
  constructor
  · rintro ⟨p, h⟩
    have hl := length_of_decode h
    obtain ⟨-, -, -, -, -, hroom⟩ := fields_of_decode h
    obtain ⟨slots, hd, -, -⟩ := of_decode h
    exact ⟨hl, hroom, (hslots hl).1 ⟨slots, hd⟩⟩
  · intro h
    exact decode_isOk_of_slots h.length h.room ((hslots h.length).2 h.texts)

/-- **A page that is stored again** is as it was, but for zeros in its loose bytes. -/
theorem clears_of_decode (h : decode id s size bytes = .ok p) : Clears (Loose s size bytes) bytes p.encode := by
  have hl := length_of_decode h
  obtain ⟨slots, hd, -, hencode⟩ := of_decode h
  have hle := s.headerSize_le size
  have htake : (bytes.take (s.headerSize size)).length = s.headerSize size := by
    rw [List.length_take]
    omega
  have hbody := Schema.clears_of_decodeSlots (flagsOf s size bytes) (slots_le hl) hd
  have hheader : Clears (fun _ => False) (bytes.take (s.headerSize size)) (bytes.take (s.headerSize size)) :=
    Bytes.clears_none _ fun _ _ h => h
  have hboth : Clears (Loose s size bytes) _ _ := hheader.append hbody
    (fun i hi => ⟨not_loose_of_lt (by omega), False.elim⟩) (fun i => by rw [htake]; exact loose_iff hl)
  -- header and slots lie on the page, so nothing of them is cut off
  have hresize : p.encode = bytes.take (s.headerSize size) ++ (slots.val.flatMap s.encodeSlot ++
      zeros ((bytes.drop (s.headerSize size)).length - (flagsOf s size bytes).length * s.width)) := by
    have hfit := slots_le (s := s) hl
    have hwidth : (slots.val.flatMap s.encodeSlot).length = (flagsOf s size bytes).length * s.width := by
      rw [s.length_encodeSlots, slots.property]
    rw [List.length_drop] at hfit ⊢
    rw [hencode]
    unfold Bytes.resize
    rw [List.take_of_length_le (by rw [List.length_append, htake, hwidth]; omega), List.length_append, htake, hwidth,
      List.append_assoc, hl, Nat.sub_sub]
  rw [List.take_append_drop] at hboth
  rw [hresize]
  exact hboth

theorem flagsOf_congr (hl : bytes.length = size) (hl' : bytes'.length = size)
    (hu : ∀ slot < s.slotCount size, bytes'.Used slot ↔ bytes.Used slot) :
    flagsOf s size bytes' = flagsOf s size bytes := by
  apply List.ext_getElem?
  intro slot
  rcases Nat.lt_or_ge slot (s.slotCount size) with hs | hs
  · by_cases hb : bytes.Used slot
    · rw [(flagsOf_eq_true_iff hl).2 ⟨hs, hb⟩, (flagsOf_eq_true_iff hl').2 ⟨hs, (hu slot hs).2 hb⟩]
    · have hb' : ¬ bytes'.Used slot := fun h => hb ((hu slot hs).1 h)
      rw [(flagsOf_eq_false_iff hl).2 ⟨hs, hb⟩, (flagsOf_eq_false_iff hl').2 ⟨hs, hb'⟩]
  · rw [List.getElem?_eq_none (by rw [length_flagsOf hl']; exact hs),
      List.getElem?_eq_none (by rw [length_flagsOf hl]; exact hs)]

/-- What the slots of a page hold is what is read behind the header. -/
theorem decode_map_contents (hl : bytes.length = size) (hs : s.slotCount size ≠ 0) :
    (decode id s size bytes).map contents =
      (s.decodeSlots (flagsOf s size bytes) (bytes.drop (s.headerSize size))).map fun slots slot =>
        slots.val[slot]?.join.map Subtype.val := by
  unfold decode flagsOf
  rw [dif_pos hl, if_neg hs]
  simp only
  generalize s.decodeSlots _ _ = o
  cases o <;> rfl

/-- **Loose bytes are not looked at.** The slots are the same, or the fault, if the bits of the slots and the bytes behind
the header that are not loose are the same. -/
theorem contents_congr (id : PageId) (hl : bytes'.length = bytes.length)
    (hu : ∀ slot < s.slotCount size, bytes'.Used slot ↔ bytes.Used slot)
    (hb : ∀ i, s.headerSize size ≤ i → ¬ Loose s size bytes i → bytes'[i]? = bytes[i]?) :
    (decode id s size bytes').map contents = (decode id s size bytes).map contents := by
  by_cases hsize : bytes.length = size
  · have hsize' : bytes'.length = size := hl.trans hsize
    by_cases hs : s.slotCount size = 0
    · unfold decode
      rw [dif_pos hsize, dif_pos hsize', if_pos hs, if_pos hs]
    · have hslots : s.decodeSlots (flagsOf s size bytes) (bytes.drop (s.headerSize size)) =
          s.decodeSlots (flagsOf s size bytes) (bytes'.drop (s.headerSize size)) := by
        refine Schema.decodeSlots_congr _ (slots_le hsize) ?_ fun i hn => ?_
        · rw [List.length_drop, List.length_drop, hl]
        · rw [List.getElem?_drop, List.getElem?_drop]
          exact (hb _ (by omega) fun hc => hn ((loose_iff hsize).1 hc)).symm
      rw [decode_map_contents hsize hs, decode_map_contents hsize' hs, flagsOf_congr hsize hsize' hu, hslots]
  · unfold decode
    rw [dif_neg hsize, dif_neg (by rw [hl]; exact hsize), hl]

/-- Pages are stored alike if and only if they have the same header and the same records in the same slots. -/
theorem encode_eq_iff (hid : p.id = q.id) (hschema : p.schema = q.schema) (hsize : p.size = q.size)
    (hs : p.schema.slotCount p.size ≠ 0) :
    p.encode = q.encode ↔ p.header = q.header ∧ ∀ slot, p.record? slot = q.record? slot := by
  constructor
  · intro h
    -- both are read back from the same bytes
    have hp := p.decode_encode hs
    have hq := q.decode_encode (by rw [← hschema, ← hsize]; exact hs)
    rw [← hid, ← hschema, ← hsize, ← h, hp] at hq
    have hread : (p.mark none).settle = (q.mark none).settle := Except.ok.inj hq
    have hheader : (p.mark none).settle.header = (q.mark none).settle.header := congrArg header hread
    have hrecord : ∀ slot, (p.mark none).settle.record? slot = (q.mark none).settle.record? slot :=
      fun slot => congrArg (fun p => record? p slot) hread
    exact ⟨hheader, hrecord⟩
  · rintro ⟨hheader, hrecords⟩
    obtain ⟨id, s, size, slots, spare, dirty, image, hlength, hspare⟩ := p
    obtain ⟨id', s', size', slots', spare', dirty', image', hlength', hspare'⟩ := q
    cases hid
    cases hschema
    cases hsize
    have hrows : ∀ slot : Nat, slots[slot]?.join = slots'[slot]?.join := by
      intro slot
      have hr := hrecords slot
      unfold record? row? at hr
      simp only at hr
      cases hslot : slots[slot]?.join with
      | none =>
        rw [hslot] at hr
        exact (Option.map_eq_none_iff.1 hr.symm).symm
      | some row =>
        rw [hslot] at hr
        obtain ⟨row', hrow', he⟩ := Option.map_eq_some_iff.1 hr.symm
        cases he
        exact hrow'.symm
    have hslots : slots = slots' := by
      apply List.ext_getElem
      · rw [hlength, hlength']
      · intro slot hlt hlt'
        have hr := hrows slot
        rw [List.getElem?_eq_getElem hlt, List.getElem?_eq_getElem hlt'] at hr
        exact hr
    subst hslots
    unfold encode
    rw [hheader]

/-! ## The stored form -/

/-- What reading some bytes as a page and storing the page again comes to. -/
structure Canonical (id : PageId) (s : Schema) (size : Nat) (bytes : Bytes) : Prop where
  /-- The header and all slots with their fields lie on the page. -/
  inside : ∀ slot < s.slotCount size, slot / 8 < s.headerSize size ∧ s.slotStart size (slot + 1) ≤ size ∧
    ∀ k t, s.types[k]? = some t → s.slotStart size slot + fieldStart s.types k + t.width ≤ s.slotStart size (slot + 1)
  accepted : (∃ p, decode id s size bytes = .ok p) ↔ Valid s size bytes
  length : ∀ p, decode id s size bytes = .ok p → p.encode.length = size
  zero : ∀ p, decode id s size bytes = .ok p → ∀ i < size, Loose s size bytes i → p.encode[i]? = some 0
  same : ∀ p, decode id s size bytes = .ok p → ∀ i, ¬ Loose s size bytes i → p.encode[i]? = bytes[i]?
  again : ∀ p, decode id s size bytes = .ok p → ∃ q, decode id s size p.encode = .ok q ∧ q.encode = p.encode
  /-- Two pages are stored alike if and only if they are read alike. -/
  alike : ∀ bytes' p q, decode id s size bytes = .ok p → decode id s size bytes' = .ok q →
    ((p.header = q.header ∧ ∀ slot, p.record? slot = q.record? slot) ↔ p.encode = q.encode)
  /-- The loose bytes and the bits that belong to no slot do not matter for what is read, nor for the fault. -/
  unread : ∀ bytes' : Bytes, bytes'.length = bytes.length →
    (∀ slot < s.slotCount size, bytes'.Used slot ↔ bytes.Used slot) →
    (∀ i, s.headerSize size ≤ i → ¬ Loose s size bytes i → bytes'[i]? = bytes[i]?) →
    (decode id s size bytes').map contents = (decode id s size bytes).map contents

/-- **To read a page and store it again brings its bytes into a canonical form.** For every schema, size and byte string,
exactly the valid bytes are read; free slots, the bytes behind texts and behind the last slot, and the bits of the header
that belong to no slot are not looked at, and nothing outside of the bytes is. Stored again the page has zeros in its
loose bytes, and otherwise the bytes that were read, with all bits of the header. So to do it twice is to do it once, and
two pages are read alike if and only if their canonical forms are equal. -/
theorem decode_canonical (id : PageId) (s : Schema) (size : Nat) (bytes : Bytes) : Canonical id s size bytes where
  inside slot hs := by
    have hfit := s.header_add_slots_le size
    have hslots : (slot + 1) * s.width ≤ s.slotCount size * s.width := Nat.mul_le_mul_right _ hs
    refine ⟨div_lt_headerSize hs, ?_, fun k t ht => ?_⟩
    · unfold Schema.slotStart
      omega
    · have hfield : fieldStart s.types k + t.width ≤ s.width := fieldStart_add_width_le ht
      unfold Schema.slotStart
      rw [Nat.succ_mul]
      omega
  accepted := decode_isOk_iff
  length p h := by
    rw [(clears_of_decode h).length]
    exact length_of_decode h
  zero p h i hi hc := by
    rw [← length_of_decode h] at hi
    exact (clears_of_decode h).zero i hi hc
  same p h i hn := (clears_of_decode h).same i hn
  again p h := by
    obtain ⟨hid, hschema, hsize, -, -, hroom⟩ := fields_of_decode h
    have hread := p.decode_encode (by rw [hschema, hsize]; exact hroom)
    rw [hid, hschema, hsize] at hread
    exact ⟨_, hread, rfl⟩
  alike bytes' p q h h' := by
    obtain ⟨hid, hschema, hsize, -, -, hroom⟩ := fields_of_decode h
    obtain ⟨hid', hschema', hsize', -⟩ := fields_of_decode h'
    exact (encode_eq_iff (hid.trans hid'.symm) (hschema.trans hschema'.symm) (hsize.trans hsize'.symm)
      (by rw [hschema, hsize]; exact hroom)).symm
  unread bytes' hl hu hb := contents_congr id hl hu hb

/-- The second slot is free and is cleared; the bits that belong to no slot stay. -/
example : ((decode ⟨⟨1⟩, 0⟩ ⟨[⟨.int, none⟩], by decide⟩ 9 [0xFD, 0, 0, 0, 5, 7, 7, 7, 7]).map encode).toOption =
    some [0xFD, 0, 0, 0, 5, 0, 0, 0, 0] := by decide +kernel

end Page

end HeapStore
