import HeapStore.Engine.Fault
import HeapStore.Pool.Lru
import HeapStore.Catalog.Basic

/-!
# Pools

A pool reaches pages as an engine does, and keeps their copies apart from the list that says which of them are cached.
A copy has a handle and stays where it is; the list has the handles of the cached ones under the numbers of the pages
that they were read for. That number, and that of the page in the copy, are kept twice. So is the capacity: the pool
makes room before it puts a copy into the list, and a list that is full drops its last copy by itself.

Every function gives the pool as it is afterwards, also when it fails.

* `Pool.fetch`: the copy of a page for a transaction. `Pool.evictLast`: room for another one.
* `Pool.flush`, `Pool.discardEach`: a copy that is written to the disk, and copies that are read again.
* `Pool.complete`: the end of a transaction.
-/

namespace HeapStore

/-- The number of a copy. -/
abbrev Handle : Type := Nat

structure Pool where
  disk : Disk
  catalog : Catalog := {}
  locks : LockTable := {}
  /-- The number of the transaction that began last. -/
  lastTx : Nat := 0
  capacity : Nat
  cache : Lru Handle
  /-- The copies that there have been, by their handles. -/
  copies : List Page := []
  /-- The copies that somebody is reading. -/
  guarded : List Handle := []

namespace Pool

variable (p : Pool)

/-- What a function of the pool gives: an answer or a fault, and the pool afterwards. -/
abbrev Outcome (ε α : Type) : Type := Except ε α × Pool

/-- The outcome with a fault of access as a fault of the engine. -/
def raised (o : Outcome AccessFault α) : Outcome EngineFault α := (o.1.mapError .access, o.2)

/-- A new transaction. -/
def begin : TxId × Pool := (⟨p.lastTx + 1⟩, { p with lastTx := p.lastTx + 1 })

def file (table : TableId) : Except AccessFault TableFile := p.catalog.tableFile table

/-- The page as the disk has it. -/
def stored (id : PageId) : Except AccessFault Page := do (← p.file id.table).read p.disk id

/-- A copy gets another content. -/
def write (h : Handle) (page : Page) : Pool := { p with copies := p.copies.set h page }

/-- The content of a copy of the given page. Whoever has a handle has a copy. -/
def content (id : PageId) (h : Handle) : Except AccessFault Page :=
  match p.copies[h]? with
  | some page => .ok page
  | none => .error (.notCached id)

/-- The handles of the cached copies, the most recently used one first. -/
def handles : List Handle := p.cache.entries.map Prod.snd

/-- The transaction whose changes a copy holds. -/
def owner? (h : Handle) : Option TxId := p.copies[h]?.bind Page.dirty

/-- The pages whose cached copies differ from the disk, and whose changes they hold. -/
def dirtyPages : List (PageId × TxId) := p.cache.entries.filterMap fun x => (p.owner? x.2).map fun tx => (x.1, tx)

/-! ## Room -/

/-- The copy is like the disk, and nobody is reading it. -/
def evictable (h : Handle) : Bool := (p.owner? h).isNone && !p.guarded.contains h

/-- The copy that may go and was used least recently goes. -/
def evictLast : Outcome AccessFault Unit :=
  match p.cache.entries.reverse.find? fun x => p.evictable x.2 with
  | none => (.error (.allPagesDirty p.capacity), p)
  | some x => (.ok (), { p with cache := p.cache.pop x.1 })

/-- Room is made if there is none. -/
def makeRoom : Outcome AccessFault Unit :=
  if p.capacity ≤ p.cache.entries.length then p.evictLast else (.ok (), p)

/-! ## Writing and dropping changes -/

/-- Writes a copy to the disk if it holds changes. -/
def flush (h : Handle) : Outcome AccessFault Unit :=
  match p.copies[h]? with
  | none => (.ok (), p)
  | some page =>
    if page.dirty.isNone then (.ok (), p)
    else match p.file page.id.table with
      | .error fault => (.error fault, p)
      | .ok file =>
        match file.write p.disk page with
        | .error fault => (.error fault, p)
        | .ok disk => (.ok (), { p.write h (page.mark none).settle with disk })

/-- Writes the copy of a page if it is cached. -/
def flushPage (id : PageId) : Outcome AccessFault Unit :=
  match p.cache.peek? id with
  | none => (.ok (), p)
  | some h => p.flush h

/-- Writes copies one after another, up to the first fault. -/
def flushEach : List Handle → Pool → Outcome AccessFault Unit
  | [], p => (.ok (), p)
  | h :: hs, p =>
    match p.flush h with
    | (.error fault, p) => (.error fault, p)
    | (.ok (), p) => flushEach hs p

def flushAll : Outcome AccessFault Unit := flushEach p.handles p

/-- The cached copies that hold changes of the transaction. -/
def ownedBy (tx : TxId) : List Handle := p.handles.filter fun h => p.owner? h == some tx

def flushPages (tx : TxId) : Outcome AccessFault Unit := flushEach (p.ownedBy tx) p

/-- Reads pages again from the disk in place of the copies that still hold changes of the transaction, up to the
first fault. -/
def discardEach (tx : TxId) : List Handle → Pool → Outcome AccessFault Unit
  | [], p => (.ok (), p)
  | h :: hs, p =>
    match p.copies[h]? with
    | none => discardEach tx hs p
    | some page =>
      if page.dirty ≠ some tx then discardEach tx hs p
      else match p.stored page.id with
        | .error fault => (.error fault, p)
        | .ok fresh => discardEach tx hs (p.write h fresh)

def discardPages (tx : TxId) : Outcome AccessFault Unit := discardEach tx (p.ownedBy tx) p

/-- Ends the transaction. Its locks go either way. -/
def complete (tx : TxId) (keep : Bool) : Outcome AccessFault Unit :=
  let (r, p) := if keep then p.flushPages tx else p.discardPages tx
  (r, { p with locks := (p.locks.releaseAll tx).table })

/-! ## Pages -/

/-- The copy of a page, which is read from the disk if it is not cached. -/
def load (id : PageId) : Outcome AccessFault Handle :=
  match p.cache.get? id with
  | (some h, cache) => (.ok h, { p with cache })
  | (none, _) =>
    match p.stored id with
    | .error fault => (.error fault, p)
    | .ok page =>
      match p.makeRoom with
      | (.error fault, p) => (.error fault, p)
      | (.ok (), p) =>
        let h := p.copies.length
        (.ok h, { p with copies := p.copies ++ [page], cache := p.cache.put id h })

/-- The copy of a page, locked for the transaction, which is aborted if the lock is denied. -/
def fetch (tx : TxId) (id : PageId) (mode : LockMode) : Outcome AccessFault Handle :=
  match p.locks.acquire tx id mode with
  | .ok locks => { p with locks }.load id
  | .error cause => (.error (.aborted tx cause), (p.complete tx false).2)

/-- Lets go of one page before the end of the transaction. -/
def unlock (tx : TxId) (id : PageId) : Pool := { p with locks := (p.locks.release tx id).table }

/-- Marks the cached copy of a page as changed by a transaction, or as unchanged. -/
def mark (id : PageId) (owner : Option TxId) : Outcome AccessFault Unit :=
  match p.cache.peek? id with
  | none => (.error (.notCached id), p)
  | some h => (.ok (), { p with copies := p.copies.modify h (·.mark owner) })

/-- The copy of a page is cached no more. -/
def remove (id : PageId) : Pool := { p with cache := p.cache.pop id }

end Pool

end HeapStore
