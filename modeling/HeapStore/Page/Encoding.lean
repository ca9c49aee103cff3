import HeapStore.Bits
import HeapStore.Page.Basic

/-!
# Pages as bytes

A page is stored as its header, its slots and zeros up to its size. The bytes of free slots, and those
behind texts and slots, are not looked at when a page is read and are zeros when it is written; all
header bits are kept.

* `Page.encode`: the stored bytes.
* `Page.decode`: the page that bytes store, clean and with these bytes as its image.
* `Page.blank`: a page without records.
* `Page.settle`, `Page.ofImage`: taking a new image, and reading the old one.
-/

namespace HeapStore

open Bytes (zeros)

/-- The slots in the bytes behind a header, one for each of its flags. -/
def Schema.decodeSlots (s : Schema) : (flags : List Bool) → Bytes →
    Except RecordFault { slots : List (Option s.Row) // slots.length = flags.length }
  | [], _ => .ok ⟨[], rfl⟩
  | used :: flags, bytes => do
    let slot ← if used then some <$> s.decode (bytes.take s.width) else pure none
    let ⟨slots, h⟩ ← s.decodeSlots flags (bytes.drop s.width)
    .ok ⟨slot :: slots, congrArg Nat.succ h⟩

/-- The stored bytes of a slot. -/
def Schema.encodeSlot (s : Schema) : Option s.Row → Bytes
  | some row => s.encode row
  | none => zeros s.width

namespace Page

/-- The stored header. -/
def header (p : Page) : Bytes :=
  Bits.pack (p.schema.headerSize p.size) (p.slots.map Option.isSome ++ p.spare)

/-- The stored bytes of a page. -/
def encode (p : Page) : Bytes :=
  Bytes.resize (p.header ++ p.slots.flatMap p.schema.encodeSlot) p.size

@[simp] theorem length_encode (p : Page) : p.encode.length = p.size := Bytes.length_resize ..

/-- The page that the bytes store, if they are as many as its size and every slot in use holds a row. -/
def decode (id : PageId) (s : Schema) (size : Nat) (bytes : Bytes) : Except RecordFault Page :=
  if hsize : bytes.length = size then
    if s.slotCount size = 0 then .error (.pageTooSmall size s.width)
    else
      let flags := Bits.unpack (bytes.take (s.headerSize size))
      have hflags : flags.length = 8 * s.headerSize size := by
        have := s.headerSize_le size
        simp only [flags, Bits.length_unpack, List.length_take]
        omega
      have hslots := s.slotCount_le_bits size
      (s.decodeSlots (flags.take (s.slotCount size)) (bytes.drop (s.headerSize size))).map
        fun ⟨slots, h⟩ =>
          { id, schema := s, size, slots
            spare := flags.drop (s.slotCount size)
            dirty := none
            image := bytes
            length_slots := by rw [h, List.length_take]; omega
            length_spare := by rw [h, List.length_take, List.length_drop]; omega }
  else .error (.undecodable (.pageWidth size bytes.length))

/-- A page whose slots are all free. -/
def blank (id : PageId) (s : Schema) (size : Nat) : Except RecordFault Page :=
  decode id s size (zeros size)

/-- The page with its present bytes as its image. -/
def settle (p : Page) : Page := { p with image := p.encode }

/-- The page as its image has it. -/
def ofImage (p : Page) : Except RecordFault Page := decode p.id p.schema p.size p.image

end Page

end HeapStore
