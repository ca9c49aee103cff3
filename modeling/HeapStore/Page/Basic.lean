import HeapStore.Page.Layout
import HeapStore.Row.Record

/-!
# Pages of records

A page of a table has a fixed number of slots, each free or holding one row. A row that is stored takes
the first free slot and stays there until it is deleted. The header of the page, and the places of its
records, are told from the slots; a `HeapPage` keeps them.

* `Page.insert`, `Page.delete`: the two changes.
* `Page.record?`, `Page.records`: the records with their places.
* `Page.dirty`: the transaction whose changes the page holds and the disk does not.
* `Page.image`: the bytes of the page when it was read, or when it was last settled.
-/

namespace HeapStore

structure Page where
  id : PageId
  schema : Schema
  size : Nat
  slots : List (Option schema.Row)
  /-- The bits of the last header byte that belong to no slot. -/
  spare : List Bool
  dirty : Option TxId
  image : Bytes
  length_slots : slots.length = schema.slotCount size
  length_spare : slots.length + spare.length = 8 * schema.headerSize size

namespace Page

variable (p : Page)

/-- The number of free slots. -/
def freeSlots : Nat := p.slots.countP Option.isNone

/-- The row in a slot. -/
def row? (slot : Nat) : Option p.schema.Row := p.slots[slot]?.join

/-- A row of the page as a record in its slot. -/
def recordAt (slot : Nat) (row : p.schema.Row) : Record := ⟨p.schema, row, some ⟨p.id, slot⟩⟩

/-- The record in a slot. -/
def record? (slot : Nat) : Option Record := (p.row? slot).map (p.recordAt slot)

/-- The records in the order of their slots. -/
def records : List Record :=
  p.slots.zipIdx.filterMap fun (row, slot) => row.map (p.recordAt slot)

/-- The page with one slot changed. -/
def setSlot (slot : Nat) (row : Option p.schema.Row) : Page :=
  { p with
    slots := p.slots.set slot row
    length_slots := by rw [List.length_set, p.length_slots]
    length_spare := by rw [List.length_set, p.length_spare] }

/-- The page marked as changed by a transaction, or as unchanged. -/
def mark (owner : Option TxId) : Page := { p with dirty := owner }

/-- Stores the record in the first free slot. -/
def insert (r : Record) : Except RecordFault (RecordId × Page) :=
  if h : r.schema.types = p.schema.types then
    match p.slots.findIdx? Option.isNone with
    | some slot => .ok (⟨p.id, slot⟩, p.setSlot slot (some ⟨r.fields, h ▸ r.row.property⟩))
    | none => .error (.pageFull p.id)
  else .error (.schemaMismatch (.otherPage r.schema p.schema))

/-- Frees the slot that holds the record. -/
def delete (r : Record) : Except RecordFault Page :=
  match r.place with
  | none => .error (.notFound p.id .unplaced)
  | some ⟨page, slot⟩ =>
    if page ≠ p.id then .error (.notFound p.id (.elsewhere page))
    else match p.slots[slot]? with
      | none => .error (.notFound p.id (.outOfRange slot))
      | some none => .error (.notFound p.id (.empty slot))
      | some (some row) =>
        if (p.recordAt slot row).Same r then .ok (p.setSlot slot none)
        else .error (.notFound p.id (.differs slot))

end Page

end HeapStore
