import HeapStore.Proofs.Packing

/-!
# The bits of a header

The header of a page has a bit for each slot, and some that belong to none. It is made from the slots when the page is
stored. Here it is shown to be the header of the page before, in which the bit of one slot has been set or cleared, and
all other bits of its byte and all other bytes are left alone.

* `Bytes.isUsed_iff`, `Bytes.unpack_setUsed`: the bit of a slot as one of the flags of the bytes.
* `Page.header_setSlot`: **a slot that changes its row changes its own bit**, and no other.
* `Page.used_header_iff`: the bits of the slots say which of them hold rows.
-/

namespace HeapStore

namespace Bits

theorem testBit_one_shiftLeft {k : Nat} (hk : k < 8) (j : Nat) :
    (1 <<< UInt8.ofNat k : UInt8).toNat.testBit j = decide (k = j) := by
  have hlt : 2 ^ k < 2 ^ 8 := Nat.pow_lt_pow_right (by decide) hk
  have hpow : (1 <<< UInt8.ofNat k : UInt8).toNat = 2 ^ k := by
    rw [UInt8.toNat_shiftLeft, UInt8.toNat_ofNat', Nat.mod_mod_of_dvd _ (by decide), Nat.mod_eq_of_lt hk,
      UInt8.toNat_one, Nat.one_shiftLeft, Nat.mod_eq_of_lt hlt]
  rw [hpow, Nat.testBit_two_pow]

theorem testBit_not {j : Nat} (hj : j < 8) (b : UInt8) : (~~~b).toNat.testBit j = !b.toNat.testBit j := by
  have hbit : ∀ b : UInt8, b.toNat.testBit j = b.toBitVec.getLsbD j := fun _ => rfl
  rw [hbit, hbit, UInt8.toBitVec_not, BitVec.getLsbD_not, decide_eq_true hj, Bool.true_and]

/-- A bit that is set or cleared is the only one that changes. -/
theorem testBit_setBit {k j : Nat} (hk : k < 8) (hj : j < 8) (b : UInt8) (used : Bool) :
    (setBit b k used).toNat.testBit j = if k = j then used else b.toNat.testBit j := by
  cases used with
  | false =>
    show (b &&& ~~~(1 <<< UInt8.ofNat k)).toNat.testBit j = _
    rw [UInt8.toNat_and, Nat.testBit_and, testBit_not hj, testBit_one_shiftLeft hk]
    by_cases h : k = j <;> simp [h]
  | true =>
    show (b ||| (1 <<< UInt8.ofNat k)).toNat.testBit j = _
    rw [UInt8.toNat_or, Nat.testBit_or, testBit_one_shiftLeft hk]
    by_cases h : k = j <;> simp [h]

/-- A bit that is shifted down and masked is the bit. -/
theorem isSet_eq {k : Nat} (hk : k < 8) (b : UInt8) : isSet b k = b.toNat.testBit k := by
  have hmask : ((b >>> UInt8.ofNat k) &&& 1).toNat = 1 &&& b.toNat >>> k := by
    rw [UInt8.toNat_and, UInt8.toNat_shiftRight, UInt8.toNat_ofNat', Nat.mod_mod_of_dvd _ (by decide),
      Nat.mod_eq_of_lt hk, UInt8.toNat_one, Nat.and_comm]
  have hbit : (1 &&& b.toNat >>> k) < 2 := Nat.lt_of_le_of_lt Nat.and_le_left (by decide)
  unfold isSet
  rw [Bool.eq_iff_iff, beq_iff_eq, ← UInt8.toNat_inj, hmask, UInt8.toNat_one]
  unfold Nat.testBit
  rw [bne_iff_ne]
  omega

/-- Bytes are known from their flags. -/
theorem unpack_inj {bytes bytes' : Bytes} (h : unpack bytes = unpack bytes') : bytes = bytes' := by
  have hlength := congrArg List.length h
  rw [length_unpack, length_unpack] at hlength
  have hpack := congrArg (pack bytes.length) h
  rw [pack_unpack, show bytes.length = bytes'.length by omega, pack_unpack] at hpack
  exact hpack

end Bits

namespace Bytes

variable {bytes : Bytes} {slot i : Nat} {used : Bool}

/-- What is read of a slot is its bit. -/
theorem isUsed_iff : bytes.isUsed slot = true ↔ bytes.Used slot := by
  have hk : slot % 8 < 8 := Nat.mod_lt slot (by decide)
  unfold isUsed Used
  cases bytes[slot / 8]? with
  | none => simp
  | some b => simp only [Bits.isSet_eq hk, Option.some.injEq, exists_eq_left']

/-- The bit of a slot is its flag. -/
theorem used_iff_unpack : bytes.Used slot ↔ (Bits.unpack bytes)[slot]? = some true := by
  rw [Bits.getElem?_unpack, Option.map_eq_some_iff]
  rfl

theorem unpack_setUsed (bytes : Bytes) (slot : Nat) (used : Bool) :
    Bits.unpack (bytes.setUsed slot used) = (Bits.unpack bytes).set slot used := by
  apply List.ext_getElem?
  intro i
  unfold setUsed
  rw [Bits.getElem?_unpack, List.getElem?_modify, List.getElem?_set, Bits.length_unpack]
  by_cases hbyte : slot / 8 = i / 8
  · -- the bits of one byte: the bit of the slot, and seven others
    rw [Bits.getElem?_unpack, hbyte]
    cases hb : bytes[i / 8]? with
    | none =>
      rw [List.getElem?_eq_none_iff] at hb
      have hout : ¬ slot < 8 * bytes.length := by omega
      simp [hout]
    | some b =>
      have hlt : i / 8 < bytes.length := (List.getElem?_eq_some_iff.1 hb).1
      have hbit := Bits.testBit_setBit (Nat.mod_lt slot (by decide)) (Nat.mod_lt i (by decide)) b used
      simp only [Option.map_eq_map, Option.map_some, if_true, hbit]
      by_cases hs : slot = i
      · subst hs
        rw [if_pos rfl, if_pos rfl, if_pos (by omega)]
      · rw [if_neg (by omega), if_neg hs]
  · have hs : slot ≠ i := fun he => hbyte (by rw [he])
    rw [if_neg hs, Bits.getElem?_unpack]
    cases bytes[i / 8]? with
    | none => rfl
    | some b => simp only [Option.map_eq_map, Option.map_some, if_neg hbyte]

/-- All other bits are as they were. -/
theorem used_setUsed_of_ne (hi : i ≠ slot) : (bytes.setUsed slot used).Used i ↔ bytes.Used i := by
  rw [used_iff_unpack, used_iff_unpack, unpack_setUsed, List.getElem?_set_ne hi.symm]

/-- A bit that is set where it was clear, and cleared again, has not changed. -/
theorem setUsed_setUsed_false (h : ¬ bytes.Used slot) : (bytes.setUsed slot true).setUsed slot false = bytes := by
  apply Bits.unpack_inj
  rw [used_iff_unpack] at h
  rw [unpack_setUsed, unpack_setUsed, List.set_set]
  by_cases hs : slot < (Bits.unpack bytes).length
  · rw [List.getElem?_eq_getElem hs, Option.some_inj, Bool.not_eq_true] at h
    rw [← h, List.set_getElem_self]
  · exact List.set_eq_of_length_le (Nat.le_of_not_lt hs)

end Bytes

namespace Page

variable {p : Page} {slot : Nat}

/-- **A slot that changes its row changes its own bit**, and no other. -/
theorem header_setSlot (hs : slot < p.slots.length) (row : Option p.schema.Row) :
    (p.setSlot slot row).header = p.header.setUsed slot row.isSome := by
  apply Bits.unpack_inj
  rw [Bytes.unpack_setUsed, unpack_header, unpack_header]
  show (p.slots.set slot row).map Option.isSome ++ p.spare = _
  rw [List.map_set, List.set_append_left _ _ (by rw [List.length_map]; exact hs)]

/-- The bits of the slots say which of them hold rows. -/
theorem used_header_iff (hs : slot < p.slots.length) : p.header.Used slot ↔ ∃ row, p.row? slot = some row := by
  rw [Bytes.used_iff_unpack, unpack_header, List.getElem?_append_left (by rw [List.length_map]; exact hs),
    List.getElem?_map, List.getElem?_eq_getElem hs, Option.map_some]
  unfold row?
  rw [List.getElem?_eq_getElem hs]
  show some p.slots[slot].isSome = some true ↔ ∃ row, p.slots[slot] = some row
  rw [Option.some_inj, Option.isSome_iff_exists]

end Page

end HeapStore
