import HeapStore.Page.Encoding

/-!
# The cache

The cache keeps copies of pages, the most recently used first. When room is needed, the copy used least
recently goes among those that may: a copy that differs from the disk stays, and so does one that
somebody is reading.

Every copy has a number of its own. One that has left the cache can still be reached by it, for as long
as somebody may hold on to it.

* `Cache.find?`, `Cache.touch`: the copy of a page, and its use.
* `Cache.add`, `Cache.evict?`, `Cache.remove`: copies that come and go.
* `Cache.update`, `Cache.change`: the content of a copy, by its page or by its number.
-/

namespace HeapStore

/-- A copy of a page. -/
structure Frame where
  copy : Nat
  page : Page

structure Cache where
  capacity : Nat
  /-- The copies in the cache, the most recently used first. -/
  frames : List Frame := []
  /-- The copies that have left the cache. -/
  gone : List Frame := []
  /-- How many copies there have been. -/
  copies : Nat := 0
  /-- The copies that somebody is reading. -/
  guarded : List Nat := []

namespace Frame

variable (f : Frame)

/-- The copy is one of the given page. -/
def isOf (id : PageId) : Bool := f.page.id == id

/-- The copy holds changes of the transaction. -/
def ownedBy (tx : TxId) : Bool := f.page.dirty == some tx

def isClean : Bool := f.page.dirty.isNone

end Frame

namespace Cache

variable (c : Cache)

/-- The copy of a page. -/
def find? (id : PageId) : Option Frame := c.frames.find? (·.isOf id)

/-- The pages in the cache, the most recently used first. -/
def pages : List PageId := c.frames.map fun f => f.page.id

/-- The pages whose copies differ from the disk, and whose changes they hold. -/
def dirtyPages : List (PageId × TxId) :=
  c.frames.filterMap fun f => f.page.dirty.map fun tx => (f.page.id, tx)

/-- The pages whose copies hold changes of the transaction. -/
def owned (tx : TxId) : List PageId := (c.frames.filter (·.ownedBy tx)).map fun f => f.page.id

/-- The copy of a page becomes the most recently used one. -/
def touch (id : PageId) : Cache :=
  { c with frames := c.frames.filter (·.isOf id) ++ c.frames.filter (!·.isOf id) }

/-- The copy of a page gets another content. -/
def update (id : PageId) (page : Page) : Cache :=
  { c with frames := c.frames.map fun f => if f.isOf id then { f with page } else f }

/-- The copy of a page leaves the cache. -/
def remove (id : PageId) : Cache :=
  { c with
    frames := c.frames.filter (!·.isOf id)
    gone := c.frames.filter (·.isOf id) ++ c.gone }

/-- The copy is like the disk, and nobody is reading it. -/
def evictable (f : Frame) : Bool := f.isClean && !c.guarded.contains f.copy

/-- The cache without the copy that may go and was used least recently. -/
def evict? : Option Cache :=
  (c.frames.reverse.find? c.evictable).map fun f => c.remove f.page.id

/-- The cache with room for one more copy. -/
def makeRoom? : Option Cache := if c.capacity ≤ c.frames.length then c.evict? else some c

/-- A new copy, the most recently used one. -/
def add (page : Page) : Frame × Cache :=
  let f : Frame := ⟨c.copies, page⟩
  (f, { c with frames := f :: c.frames, copies := c.copies + 1 })

/-- The content of a copy, in the cache or not. -/
def content? (copy : Nat) : Option Page :=
  ((c.frames ++ c.gone).find? fun f => f.copy == copy).map Frame.page

/-- A copy gets another content, in the cache or not. -/
def change (copy : Nat) (page : Page) : Cache :=
  let put (f : Frame) : Frame := if f.copy = copy then { f with page } else f
  { c with frames := c.frames.map put, gone := c.gone.map put }

/-- Somebody begins to read a copy. -/
def guard (copy : Nat) : Cache := { c with guarded := copy :: c.guarded }

/-- Somebody has finished reading a copy. -/
def unguard (copy : Nat) : Cache := { c with guarded := c.guarded.erase copy }

end Cache

end HeapStore
