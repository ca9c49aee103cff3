import HeapStore.Cache.Basic
import HeapStore.Catalog.Basic
import HeapStore.Engine.Fault

/-!
# The engine

An engine holds the disk, the catalog, the cache and the lock table, and gives numbers to transactions.
A transaction reaches a page by locking it; the page is then in the cache. Changed pages stay there until
the transaction ends: then they are written to the disk, or read from it again, and all its locks go.

Every function gives the engine as it is afterwards, also when it fails. A `Pool` does the same with a list of keys and
handles, apart from the copies.

* `Engine.fetch`: a page for a transaction. A request that is denied ends the transaction.
* `Engine.flushPages`, `Engine.discardPages`: writing back changed pages, and dropping the changes.
* `Engine.complete`: the end of a transaction; `Engine.commit` and `Engine.abort` are its two kinds.
* `Engine.start`, `Engine.openCatalog`: an engine without tables, or with those of a file of definitions.
-/

namespace HeapStore

structure Engine where
  settings : Settings
  disk : Disk
  catalog : Catalog := {}
  cache : Cache
  locks : LockTable := {}
  /-- The number of the transaction that began last. -/
  lastTx : Nat := 0

namespace Engine

variable (e : Engine)

/-- What a function of the engine gives: an answer or a fault, and the engine afterwards. -/
abbrev Outcome (ε α : Type) : Type := Except ε α × Engine

/-- The outcome with a fault of access as a fault of the engine. -/
def raised (o : Outcome AccessFault α) : Outcome EngineFault α := (o.1.mapError .access, o.2)

/-- An engine without tables. -/
def start (settings : Settings) (disk : Disk) : Except EngineFault Engine :=
  match settings.validate with
  | .error cause => .error (.settings cause)
  | .ok settings => .ok { settings, disk, cache := { capacity := settings.bufferPages } }

/-- A new transaction. -/
def begin : TxId × Engine := (⟨e.lastTx + 1⟩, { e with lastTx := e.lastTx + 1 })

/-! ## Tables -/

/-- The file of a table whose pages are used. -/
def file (table : TableId) : Except AccessFault TableFile := e.catalog.tableFile table

/-- A new table with its file at a path. -/
def createTable (path : Path) (name : String) (schema : Schema) (key : Option String) :
    Outcome EngineFault TableId :=
  match TableFile.attach e.disk path schema e.settings.pageSize with
  | (.error cause, disk) => (.error (.access cause), { e with disk })
  | (.ok file, disk) =>
    let (id, catalog) := e.catalog.add file name key
    (.ok id, { e with catalog, disk })

/-- The tables that the file at a path defines. -/
def loadTables (path : Path) : Outcome CatalogFault (List TableId) :=
  let (ids, catalog, disk) := e.catalog.load e.disk path e.settings.pageSize
  (ids, { e with catalog, disk })

/-- An engine with the tables that the file at a path defines, and the disk if there is none. -/
def openCatalog (settings : Settings) (disk : Disk) (path : Path) : Except (EngineFault × Disk) Engine :=
  match start settings disk with
  | .error fault => .error (fault, disk)
  | .ok e =>
    match e.loadTables path with
    | (.ok _, e) => .ok e
    | (.error cause, e) => .error (.catalog cause, e.disk)

/-! ## Writing and dropping changes -/

/-- The page as the disk has it. -/
def stored (id : PageId) : Except AccessFault Page := do (← e.file id.table).read e.disk id

/-- Writes the copy of a page to the disk if it holds changes. -/
def flushPage (id : PageId) : Outcome AccessFault Unit :=
  match e.cache.find? id with
  | none => (.ok (), e)
  | some f =>
    if f.isClean then (.ok (), e)
    else match e.file id.table with
      | .error fault => (.error fault, e)
      | .ok file =>
        match file.write e.disk f.page with
        | .error fault => (.error fault, e)
        | .ok disk =>
          (.ok (), { e with disk, cache := e.cache.update id (f.page.mark none).settle })

/-- Writes the copies of pages one after another, up to the first fault. -/
def flushEach : List PageId → Engine → Outcome AccessFault Unit
  | [], e => (.ok (), e)
  | id :: ids, e =>
    match e.flushPage id with
    | (.error fault, e) => (.error fault, e)
    | (.ok (), e) => flushEach ids e

/-- Writes all copies that hold changes. -/
def flushAll : Outcome AccessFault Unit := flushEach e.cache.pages e

/-- Writes the copies that hold changes of the transaction. -/
def flushPages (tx : TxId) : Outcome AccessFault Unit := flushEach (e.cache.owned tx) e

/-- Reads pages again from the disk in place of their copies, up to the first fault. -/
def discardEach : List PageId → Engine → Outcome AccessFault Unit
  | [], e => (.ok (), e)
  | id :: ids, e =>
    match e.stored id with
    | .error fault => (.error fault, e)
    | .ok page => discardEach ids { e with cache := e.cache.update id page }

/-- Drops the changes of the transaction. -/
def discardPages (tx : TxId) : Outcome AccessFault Unit := discardEach (e.cache.owned tx) e

/-- Writes all changes of all transactions, whether they have ended or not. -/
def checkpoint : Outcome EngineFault Unit := raised e.flushAll

/-! ## The end of a transaction -/

/-- The engine without the locks of the transaction. -/
def unlockAll (tx : TxId) : Engine := { e with locks := (e.locks.releaseAll tx).table }

/-- Ends the transaction. Its locks go even if its changes can be neither written nor dropped. -/
def complete (tx : TxId) (keep : Bool) : Outcome AccessFault Unit :=
  let (r, e) := if keep then e.flushPages tx else e.discardPages tx
  (r, e.unlockAll tx)

/-- Ends the transaction and keeps its changes. -/
def commit (tx : TxId) : Outcome EngineFault Unit := raised (e.complete tx true)

/-- Ends the transaction and drops its changes. -/
def abort (tx : TxId) : Outcome EngineFault Unit := raised (e.complete tx false)

/-! ## Pages -/

/-- The copy of a page, which is read from the disk if it is not in the cache. -/
def load (id : PageId) : Outcome AccessFault Frame :=
  match e.cache.find? id with
  | some f => (.ok f, { e with cache := e.cache.touch id })
  | none =>
    match e.stored id with
    | .error fault => (.error fault, e)
    | .ok page =>
      match e.cache.makeRoom? with
      | none => (.error (.allPagesDirty e.cache.capacity), e)
      | some cache =>
        let (f, cache) := cache.add page
        (.ok f, { e with cache })

/-- The copy of a page, locked for the transaction. If the lock is denied the transaction is aborted;
if the page cannot be read the lock stays. -/
def fetch (tx : TxId) (id : PageId) (mode : LockMode) : Outcome AccessFault Frame :=
  match e.locks.acquire tx id mode with
  | .ok locks => { e with locks }.load id
  | .error cause => (.error (.aborted tx cause), (e.complete tx false).2)

/-- Lets go of one page before the end of the transaction. -/
def unlock (tx : TxId) (id : PageId) : Engine :=
  { e with locks := (e.locks.release tx id).table }

/-- Marks the copy of a page as changed by a transaction, or as unchanged. -/
def mark (id : PageId) (owner : Option TxId) : Outcome AccessFault Unit :=
  match e.cache.find? id with
  | none => (.error (.notCached id), e)
  | some f => (.ok (), { e with cache := e.cache.update id (f.page.mark owner) })

/-- Makes room in the cache. -/
def evict : Outcome AccessFault Unit :=
  match e.cache.evict? with
  | none => (.error (.allPagesDirty e.cache.capacity), e)
  | some cache => (.ok (), { e with cache })

/-- How the cache of an engine is described. -/
def cacheForm : String :=
  Text.Form.fields "BufferPool"
    [("capacity", toString e.cache.capacity), ("cached", toString e.cache.frames.length),
      ("lock_timeout", e.settings.timeoutLabel)]

end Engine

end HeapStore
