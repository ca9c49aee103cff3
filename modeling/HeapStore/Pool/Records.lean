import HeapStore.Engine.Scan
import HeapStore.Pool.Basic

/-!
# Records in pools

A record goes into the first free slot of a table, and its slot becomes free again. The copy that was changed is marked,
and put into the list again if it is not there any more.

* `Pool.insert`, `Pool.delete`: the two changes. `Pool.recache`: what becomes of the copy that they changed.
* `Pool.next`, `Pool.scan`: scans.
-/

namespace HeapStore.Pool

variable (p : Pool)

/-! ## Changes -/

/-- Puts a record into the copy of a page, which then holds changes of the transaction. -/
def insertAt (id : PageId) (h : Handle) (tx : TxId) (r : Record) : Outcome AccessFault RecordId :=
  match p.content id h with
  | .error fault => (.error fault, p)
  | .ok page =>
    match page.insert r with
    | .error cause => (.error (.record cause), p)
    | .ok (place, page) => (.ok place, p.write h (page.mark (some tx)))

/-- A copy has a free slot. -/
def hasFree (h : Handle) : Bool := p.copies[h]?.any fun page => page.freeSlots ≠ 0

/-- Puts a record on the first of the pages that has a free slot, if one of them has. -/
def insertOnFirst (file : TableFile) (tx : TxId) (r : Record) :
    List Nat → Pool → Outcome AccessFault (Option (RecordId × Handle))
  | [], p => (.ok none, p)
  | number :: numbers, p =>
    match p.fetch tx (file.pageId number) .exclusive with
    | (.error fault, p) => (.error fault, p)
    | (.ok h, p) =>
      if p.hasFree h then
        let (place, p) := p.insertAt (file.pageId number) h tx r
        (place.map fun place => some (place, h), p)
      else insertOnFirst file tx r numbers p

/-- Appends pages until one has a free slot, and puts a record there. -/
def insertOnNew (file : TableFile) (tx : TxId) (r : Record) :
    (tries : Nat) → Pool → Outcome AccessFault (RecordId × Handle)
  | 0, p => (.error (.record (.pageFull (file.pageId 0))), p)
  | tries + 1, p =>
    match file.append p.disk with
    | .error fault => (.error fault, p)
    | .ok (number, disk) =>
      match insertOnFirst file tx r [number] { p with disk } with
      | (.error fault, p) => (.error fault, p)
      | (.ok (some done), p) => (.ok done, p)
      | (.ok none, p) => insertOnNew file tx r tries p

/-- Puts a record into the file of a table, and gives the copy that it changed. -/
def insertInto (file : TableFile) (tx : TxId) (r : Record) : Outcome AccessFault (RecordId × Handle) :=
  if r.schema.types ≠ file.schema.types then
    (.error (.record (.schemaMismatch (.otherTable r.schema file.schema))), p)
  else match file.count p.disk with
    | .error fault => (.error fault, p)
    | .ok count =>
      match insertOnFirst file tx r (List.range count) p with
      | (.error fault, p) => (.error fault, p)
      | (.ok (some done), p) => (.ok done, p)
      | (.ok none, p) => insertOnNew file tx r (p.cache.entries.length + 1) p

/-- Marks a copy as changed by the transaction, and puts it into the list if this page has not this copy there. -/
def recache (tx : TxId) (h : Handle) : Outcome AccessFault Unit :=
  match p.copies[h]? with
  | none => (.ok (), p)
  | some page =>
    let p := p.write h (page.mark (some tx))
    let (found, cache) := p.cache.get? page.id
    let p := { p with cache }
    if found = some h then (.ok (), p)
    else
      let (room, p) := if p.cache.contains page.id then (.ok (), p) else p.makeRoom
      match room with
      | .error fault => (.error fault, p)
      | .ok () => (.ok (), { p with cache := p.cache.put page.id h })

/-- Puts a record into a table. -/
def insert (tx : TxId) (table : TableId) (r : Record) : Outcome AccessFault RecordId :=
  match p.file table with
  | .error fault => (.error fault, p)
  | .ok file =>
    match p.insertInto file tx r with
    | (.error fault, p) => (.error fault, p)
    | (.ok (place, h), p) =>
      let (cached, p) := p.recache tx h
      (cached.map fun _ => place, p)

/-- Deletes a record from the copy of a page, which then holds changes of the transaction. -/
def deleteAt (id : PageId) (h : Handle) (tx : TxId) (r : Record) : Outcome AccessFault Unit :=
  match p.content id h with
  | .error fault => (.error fault, p)
  | .ok page =>
    match page.delete r with
    | .error cause => (.error (.record cause), p)
    | .ok page => (.ok (), p.write h (page.mark (some tx)))

/-- Deletes a record from the file of a table, and gives the copy that it changed. -/
def deleteFrom (file : TableFile) (tx : TxId) (r : Record) : Outcome AccessFault Handle :=
  match r.location with
  | .error cause => (.error (.record cause), p)
  | .ok place =>
    let absent : AccessFault := .record (.notFound place.page (.noPage file.table))
    if place.page.table ≠ file.table then (.error absent, p)
    else match file.count p.disk with
      | .error fault => (.error fault, p)
      | .ok count =>
        if count ≤ place.page.number then (.error absent, p)
        else match p.fetch tx place.page .exclusive with
          | (.error fault, p) => (.error fault, p)
          | (.ok h, p) =>
            let (deleted, p) := p.deleteAt place.page h tx r
            (deleted.map fun _ => h, p)

/-- Deletes a record from the table where it lies. -/
def delete (tx : TxId) (r : Record) : Outcome AccessFault Unit :=
  match r.location with
  | .error cause => (.error (.record cause), p)
  | .ok place =>
    match p.file place.page.table with
    | .error _ => (.error (.record (.notFound place.page (.noTable place.page.table))), p)
    | .ok file =>
      match p.deleteFrom file tx r with
      | (.error fault, p) => (.error fault, p)
      | (.ok h, p) => p.recache tx h

/-! ## Scans -/

/-- A scan of a table, from its first record on. -/
def openScan (tx : TxId) (table : TableId) : Except EngineFault Scan :=
  match p.catalog.file table with
  | .error cause => .error (.catalog cause)
  | .ok file =>
    match file.count p.disk with
    | .error cause => .error (.access cause)
    | .ok pageCount => .ok { file, tx, pageCount }

/-- The next record or the fault that ends the scan. -/
def next (s : Scan) (p : Pool) : Option (Except AccessFault Record) × Scan × Pool :=
  if s.done then (none, s, p)
  else if s.pageCount ≤ s.number then (none, s.finish, p)
  else match p.fetch s.tx (s.file.pageId s.number) .shared with
    | (.error fault, p) => (some (.error fault), s.finish, p)
    | (.ok h, p) =>
      match p.copies[h]?.bind (Scan.recordFrom? · s.slot) with
      | some (slot, r) => (some (.ok r), { s with slot := slot + 1 }, p)
      | none => next { s with number := s.number + 1, slot := 0 } p
termination_by s.pageCount - s.number

/-- What a scan gives in at most `n` steps. -/
def items : (n : Nat) → Scan → Pool → List (Except AccessFault Record) × Scan × Pool
  | 0, s, p => ([], s, p)
  | n + 1, s, p =>
    match next s p with
    | (none, s, p) => ([], s, p)
    | (some item, s, p) =>
      let (rest, s, p) := items n s p
      (item :: rest, s, p)

/-- All that a scan of a table gives. -/
def scan (tx : TxId) (table : TableId) : Outcome EngineFault (List (Except AccessFault Record)) :=
  match p.openScan tx table with
  | .error fault => (.error fault, p)
  | .ok s =>
    let (items, _, p) := items s.bound s p
    (.ok items, p)

end HeapStore.Pool
