import HeapStore.Engine.Basic

/-!
# Inserting and deleting

A record goes into the first free slot of the first page of its table that has one; every page on the way
is locked exclusively. If no page has a free slot the table grows by a page. The copy that is changed was
fetched by the same call and is still there, so it is not put into the cache again. (A `Pool` does so, and
`Pool.recache_of_changed` says that it need not.)

* `Engine.insert`: a new record.
* `Engine.delete`: the slot of a record becomes free.
-/

namespace HeapStore.Engine

variable (e : Engine)

/-- Puts a record into the copy of a page, which then holds changes of the transaction. -/
def putInto (f : Frame) (tx : TxId) (r : Record) : Outcome AccessFault RecordId :=
  match f.page.insert r with
  | .error cause => (.error (.record cause), e)
  | .ok (place, page) =>
    (.ok place, { e with cache := e.cache.update page.id (page.mark (some tx)) })

/-- Puts a record on the first of the pages that has a free slot, if one of them has. -/
def putOnFirst (file : TableFile) (tx : TxId) (r : Record) :
    List Nat → Engine → Outcome AccessFault (Option RecordId)
  | [], e => (.ok none, e)
  | number :: numbers, e =>
    match e.fetch tx (file.pageId number) .exclusive with
    | (.error fault, e) => (.error fault, e)
    | (.ok f, e) =>
      if f.page.freeSlots = 0 then putOnFirst file tx r numbers e
      else
        let (place, e) := e.putInto f tx r
        (place.map some, e)

/-- Appends pages until one has a free slot, and puts a record there. A page that is appended may be in
the cache already, full, if the file was cut behind the back of the engine; so `tries` is the number of
copies and one more. -/
def putOnNew (file : TableFile) (tx : TxId) (r : Record) :
    (tries : Nat) → Engine → Outcome AccessFault RecordId
  | 0, e => (.error (.record (.pageFull (file.pageId 0))), e)
  | tries + 1, e =>
    match file.append e.disk with
    | .error fault => (.error fault, e)
    | .ok (number, disk) =>
      match putOnFirst file tx r [number] { e with disk } with
      | (.error fault, e) => (.error fault, e)
      | (.ok (some place), e) => (.ok place, e)
      | (.ok none, e) => putOnNew file tx r tries e

/-- Puts a record into the file of a table. -/
def insertInto (file : TableFile) (tx : TxId) (r : Record) : Outcome AccessFault RecordId :=
  if r.schema.types ≠ file.schema.types then
    (.error (.record (.schemaMismatch (.otherTable r.schema file.schema))), e)
  else match file.count e.disk with
    | .error fault => (.error fault, e)
    | .ok count =>
      match putOnFirst file tx r (List.range count) e with
      | (.error fault, e) => (.error fault, e)
      | (.ok (some place), e) => (.ok place, e)
      | (.ok none, e) => putOnNew file tx r (e.cache.frames.length + 1) e

/-- Puts a record into a table. -/
def insert (tx : TxId) (table : TableId) (r : Record) : Outcome AccessFault RecordId :=
  match e.file table with
  | .error fault => (.error fault, e)
  | .ok file => e.insertInto file tx r

/-- Frees the slot of a record in the copy of its page. -/
def takeFrom (f : Frame) (tx : TxId) (r : Record) : Outcome AccessFault Unit :=
  match f.page.delete r with
  | .error cause => (.error (.record cause), e)
  | .ok page => (.ok (), { e with cache := e.cache.update page.id (page.mark (some tx)) })

/-- Deletes a record from the file of a table. -/
def deleteFrom (file : TableFile) (tx : TxId) (r : Record) : Outcome AccessFault Unit :=
  match r.location with
  | .error cause => (.error (.record cause), e)
  | .ok place =>
    let absent : AccessFault := .record (.notFound place.page (.noPage file.table))
    if place.page.table ≠ file.table then (.error absent, e)
    else match file.count e.disk with
      | .error fault => (.error fault, e)
      | .ok count =>
        if count ≤ place.page.number then (.error absent, e)
        else match e.fetch tx place.page .exclusive with
          | (.error fault, e) => (.error fault, e)
          | (.ok f, e) => e.takeFrom f tx r

/-- Deletes a record from the table where it lies. -/
def delete (tx : TxId) (r : Record) : Outcome AccessFault Unit :=
  match r.location with
  | .error cause => (.error (.record cause), e)
  | .ok place =>
    match e.file place.page.table with
    | .error _ => (.error (.record (.notFound place.page (.noTable place.page.table))), e)
    | .ok file => e.deleteFrom file tx r

end HeapStore.Engine
