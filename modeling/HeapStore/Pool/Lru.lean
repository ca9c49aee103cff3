import HeapStore.Ids

/-!
# Lists by recency

A list keeps values under the numbers of pages, the most recently used one first. It has a capacity. When a new value
comes and the list is full the last one goes, whatever it is.

* `Lru.get?`, `Lru.peek?`, `Lru.contains`: the value of a page, with its use or without.
* `Lru.put`, `Lru.pop`: a value that comes, and one that goes.
-/

namespace HeapStore

structure Lru (α : Type) where
  capacity : Nat
  /-- The values with their pages, the most recently used one first. -/
  entries : List (PageId × α) := []
  /-- What went because something else came: no function looks at it. -/
  lost : List (PageId × α) := []

namespace Lru

variable {α : Type} (l : Lru α)

def keys : List PageId := l.entries.map Prod.fst

/-- The value of a page. -/
def peek? (id : PageId) : Option α := (l.entries.find? (·.1 == id)).map Prod.snd

def contains (id : PageId) : Bool := l.entries.any (·.1 == id)

/-- The value of a page, which becomes the most recently used one. -/
def get? (id : PageId) : Option α × Lru α :=
  match l.entries.find? (·.1 == id) with
  | none => (none, l)
  | some x => (some x.2, { l with entries := x :: l.entries.filter (·.1 != id) })

/-- A value for a page, in front of all others. It takes the place of the value that the page had. If it had none and
the list is full the last one goes. -/
def put (id : PageId) (a : α) : Lru α :=
  match l.entries.find? (·.1 == id) with
  | some x => { l with entries := (id, a) :: l.entries.filter (·.1 != id), lost := x :: l.lost }
  | none =>
    if l.entries.length < l.capacity then { l with entries := (id, a) :: l.entries }
    else { l with entries := (id, a) :: l.entries.dropLast, lost := l.entries.getLast?.toList ++ l.lost }

/-- The value of a page goes. -/
def pop (id : PageId) : Lru α := { l with entries := l.entries.filter (·.1 != id) }

end Lru

end HeapStore
