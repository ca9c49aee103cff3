import HeapStore.Ids
import Std.Data.ExtTreeSet.Lemmas

/-!
# The lock table

A transaction holds a page shared, with others, or exclusively, alone. The table knows the holders of
each page and, the other way round, the pages of each transaction, so that a transaction can let go of
all its pages at its end.

* `LockTable.grant?`: one request. It is granted at once or denied; a sole holder who shares a page may
  go on to hold it exclusively, and an exclusive holder is granted everything.
* `LockTable.release`, `LockTable.releaseAll`: letting go of one page or of all. Each also says whether
  those who wait for a page are woken.
* `LockTable.mode?`, `LockTable.lockedPages`: how a transaction holds a page, and which pages it holds.
-/

namespace HeapStore

open Std

/-- How a page is asked for and held. -/
inductive LockMode where
  | shared
  | exclusive
deriving DecidableEq, Repr

/-- The holders of one page. -/
inductive Hold where
  | shared (holders : ExtTreeSet TxId)
  | exclusive (holder : TxId)

namespace Hold

/-- A page that one transaction holds. -/
def single (tx : TxId) : LockMode → Hold
  | .shared => .shared {tx}
  | .exclusive => .exclusive tx

/-- How the transaction is among the holders. -/
def mode? (tx : TxId) : Hold → Option LockMode
  | .shared holders => if tx ∈ holders then some .shared else none
  | .exclusive holder => if holder = tx then some .exclusive else none

/-- The holders after a request of a transaction, if it is granted. -/
def grant? (tx : TxId) : LockMode → Hold → Option Hold
  | _, .exclusive holder => if holder = tx then some (.exclusive tx) else none
  | .shared, .shared holders => some (.shared (holders.insert tx))
  | .exclusive, .shared holders =>
    if holders.size = 1 ∧ tx ∈ holders then some (.exclusive tx) else none

/-- The holders without the transaction, if any are left. -/
def drop? (tx : TxId) : Hold → Option Hold
  | .shared holders =>
    let rest := holders.erase tx
    if rest.isEmpty then none else some (.shared rest)
  | .exclusive holder => if holder = tx then none else some (.exclusive holder)

end Hold

/-- Who holds which page. -/
structure LockTable where
  pages : ExtTreeMap PageId Hold := {}
  held : ExtTreeMap TxId (ExtTreeSet PageId) := {}

/-- The table after a release, and whether those who wait are woken. -/
structure Released where
  table : LockTable
  wakes : Bool

namespace LockTable

variable (t : LockTable) (tx : TxId) (page : PageId)

/-- How the transaction holds the page. -/
def mode? : Option LockMode := t.pages[page]?.bind (Hold.mode? tx)

def holds : Bool := (t.mode? tx page).isSome

/-- The pages that the transaction holds, in their order. -/
def lockedPages : List PageId := (t.held.getD tx {}).toList

/-- The table with new holders of a page, the transaction among them. -/
def put (hold : Hold) : LockTable :=
  { pages := t.pages.insert page hold
    held := t.held.insert tx ((t.held.getD tx {}).insert page) }

/-- One request: the table with the page granted, unless other holders forbid it. -/
def grant? (mode : LockMode) : Option LockTable :=
  match t.pages[page]? with
  | none => some (t.put tx page (.single tx mode))
  | some hold => (hold.grant? tx mode).map (t.put tx page)

/-- The table without the transaction among the holders of the page; its own pages stay listed. -/
def dropHolder : LockTable :=
  { t with pages := t.pages.alter page fun hold => hold.bind (Hold.drop? tx) }

/-- The table without the page among those of the transaction. -/
def unlist : LockTable :=
  let rest := (t.held.getD tx {}).erase page
  { t with held := if rest.isEmpty then t.held.erase tx else t.held.insert tx rest }

/-- The transaction lets go of one page. -/
def release : Released :=
  if t.holds tx page then ⟨(t.dropHolder tx page).unlist tx page, true⟩ else ⟨t, false⟩

/-- The transaction lets go of all its pages. -/
def releaseAll : Released :=
  match t.lockedPages tx with
  | [] => ⟨t, false⟩
  | pages =>
    let t := pages.foldl (fun t page => t.dropHolder tx page) t
    ⟨{ t with held := t.held.erase tx }, true⟩

end LockTable

end HeapStore
