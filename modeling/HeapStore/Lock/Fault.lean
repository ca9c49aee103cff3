import HeapStore.Lock.Table

/-!
# Faults of locking

A request that is not granted in time is given up.

* `LockFault.message`, `LockFault.form`: its wording. How long the request waited is not told: a mark
  stands in its place.
-/

namespace HeapStore

def LockMode.label : LockMode → String
  | .shared => "Shared"
  | .exclusive => "Exclusive"

inductive LockFault where
  | timeout (tx : TxId) (page : PageId) (mode : LockMode)

namespace LockFault

/-- The mark in place of the time that a request waited. -/
def waited : String := "<waited>"

def message : LockFault → String
  | .timeout tx page mode =>
    s!"{tx.label} timed out after {waited} waiting for {mode.label} lock on {page.label}"

def label : LockFault → String
  | .timeout .. => "Timeout"

def form (fault : LockFault) : String :=
  match fault with
  | .timeout tx page mode =>
    Text.Form.fields fault.label
      [("tid", tx.form), ("page_id", page.form), ("mode", mode.label), ("waited", waited)]

end LockFault

/-- One request, with its fault if it is denied. -/
def LockTable.acquire (t : LockTable) (tx : TxId) (page : PageId) (mode : LockMode) :
    Except LockFault LockTable :=
  match t.grant? tx page mode with
  | some t => .ok t
  | none => .error (.timeout tx page mode)

end HeapStore
