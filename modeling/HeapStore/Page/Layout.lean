import HeapStore.Row.Schema

/-!
# The layout of a page

A page starts with a header of one bit for each slot, rounded up to whole bytes. The slots follow, each
as wide as a row, and zeros fill the rest.

* `Schema.slotCount`: how many slots a page has, each costing a row and one bit.
* `Schema.headerSize`: the bytes of the header; `headerSize_le` says that they lie on the page.
* `Schema.slotStart`: where a slot begins.
-/

namespace HeapStore.Schema

variable (s : Schema)

/-- The number of slots of a page of `size` bytes. -/
def slotCount (size : Nat) : Nat := size * 8 / (s.width * 8 + 1)

/-- The number of header bytes of a page of `size` bytes. -/
def headerSize (size : Nat) : Nat := (s.slotCount size + 7) / 8

/-- Where a slot begins on a page. -/
def slotStart (size slot : Nat) : Nat := s.headerSize size + slot * s.width

theorem slotCount_le_bits (size : Nat) : s.slotCount size ≤ 8 * s.headerSize size := by
  simp only [headerSize]
  omega

theorem headerSize_le (size : Nat) : s.headerSize size ≤ size := by
  have : s.slotCount size ≤ size * 8 := Nat.div_le_self ..
  simp only [headerSize]
  omega

end HeapStore.Schema
