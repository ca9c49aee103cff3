import HeapStore.Page.Encoding

/-!
# Pages with their headers

A page in memory has its header as it is stored, and its records, which know their places. So it says twice
which slots are in use: by the bits of the header and by the records. Records are stored and counted by the
bits, and deleted by the records.

* `HeapPage.decode`, `HeapPage.encode`: a page from its stored bytes, and these.
* `HeapPage.insert`, `HeapPage.delete`: the two changes. They give the page as it is afterwards, also when
  they fail.
* `HeapPage.freeSlots`, `HeapPage.stored`: the number of free slots, and the records.
-/

namespace HeapStore

open Bytes (zeros)

structure HeapPage where
  id : PageId
  schema : Schema
  size : Nat
  header : Bytes
  records : List (Option Record)
  dirty : Option TxId
  image : Bytes

namespace HeapPage

/-- The record of one slot, if its bit is set. -/
def readSlot (id : PageId) (s : Schema) (size : Nat) (header bytes : Bytes) (slot : Nat) :
    Except RecordFault (Option Record) :=
  if header.isUsed slot then
    (Record.decode s (bytes.slice (s.slotStart size slot) s.width)).map fun r => some { r with place := some ⟨id, slot⟩ }
  else .ok none

/-- The page that the bytes store, if they are as many as its size and every slot in use holds a record. -/
def decode (id : PageId) (s : Schema) (size : Nat) (bytes : Bytes) : Except RecordFault HeapPage :=
  if bytes.length ≠ size then .error (.undecodable (.pageWidth size bytes.length))
  else if s.slotCount size = 0 then .error (.pageTooSmall size s.width)
  else do
    let header := bytes.take (s.headerSize size)
    let records ← (List.range (s.slotCount size)).mapM (readSlot id s size header bytes)
    .ok { id, schema := s, size, header, records, dirty := none, image := bytes }

/-- A page whose slots are all free. -/
def blank (id : PageId) (s : Schema) (size : Nat) : Except RecordFault HeapPage := decode id s size (zeros size)

variable (p : HeapPage)

/-- The stored bytes of a slot. -/
def encodeSlot : Option Record → Bytes
  | some r => r.encode
  | none => zeros p.schema.width

/-- The stored bytes of the page. -/
def encode : Bytes := Bytes.resize (p.header ++ p.records.flatMap p.encodeSlot) p.size

/-- The page as its image has it. -/
def ofImage : Except RecordFault HeapPage := decode p.id p.schema p.size p.image

/-- The slot is one of the page and its bit is set. -/
def isUsed (slot : Nat) : Bool := decide (slot < p.records.length) && p.header.isUsed slot

/-- The number of free slots. -/
def freeSlots : Nat := ((List.range p.records.length).filter fun slot => !p.isUsed slot).length

/-- The lowest free slot. -/
def freeSlot? : Option Nat := (List.range p.records.length).find? fun slot => !p.isUsed slot

/-- The record in a slot. -/
def record? (slot : Nat) : Option Record := p.records[slot]?.join

/-- The records in the order of their slots. -/
def stored : List Record := p.records.filterMap fun r => r

/-- The page with another record in a slot, or with none, and with the bit of the slot. -/
def setSlot (slot : Nat) (r : Option Record) : HeapPage :=
  { p with header := p.header.setUsed slot r.isSome, records := p.records.set slot r }

/-- Stores the record in the lowest free slot. -/
def insert (r : Record) : Except RecordFault RecordId × HeapPage :=
  if r.schema.types ≠ p.schema.types then (.error (.schemaMismatch (.otherPage r.schema p.schema)), p)
  else match p.freeSlot? with
    | none => (.error (.pageFull p.id), p)
    | some slot =>
      let place : RecordId := ⟨p.id, slot⟩
      (.ok place, p.setSlot slot (some { r with place := some place }))

/-- Frees the slot that holds the record. -/
def delete (r : Record) : Except RecordFault Unit × HeapPage :=
  match r.place with
  | none => (.error (.notFound p.id .unplaced), p)
  | some ⟨page, slot⟩ =>
    if page ≠ p.id then (.error (.notFound p.id (.elsewhere page)), p)
    else match p.records[slot]? with
      | none => (.error (.notFound p.id (.outOfRange slot)), p)
      | some none => (.error (.notFound p.id (.empty slot)), p)
      | some (some r') =>
        if r'.Same r then (.ok (), p.setSlot slot none) else (.error (.notFound p.id (.differs slot)), p)

/-- The page marked as changed by a transaction, or as unchanged. -/
def mark (owner : Option TxId) : HeapPage := { p with dirty := owner }

/-- The page with its present bytes as its image. -/
def settle : HeapPage := { p with image := p.encode }

end HeapPage

end HeapStore
