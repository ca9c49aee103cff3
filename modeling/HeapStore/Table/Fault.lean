import HeapStore.Disk.Fault
import HeapStore.Lock.Fault
import HeapStore.Row.Fault

/-!
# Faults of access to pages

Why a transaction does not get what it asks of the pages of a table.

* `AccessFault.message`, `AccessFault.form`: the wording of each fault, and its structured form.
* `AccessFault.path`: the names of the fault and of the faults inside it, from the outside in.
* `AccessFault.aborts`: the fault has ended the transaction.
-/

namespace HeapStore

inductive AccessFault where
  | aborted (tx : TxId) (cause : LockFault)
  | allPagesDirty (capacity : Nat)
  | noTable (table : TableId)
  | notCached (page : PageId)
  | file (cause : FileFault)
  | record (cause : RecordFault)

namespace AccessFault

def message : AccessFault → String
  | .aborted tx cause => s!"Transaction {tx.label} aborted: {cause.message}"
  | .allPagesDirty capacity =>
    s!"Buffer pool is full: all {capacity} cached pages are dirty or in use"
  | .noTable table => s!"Table not found: {table.label}"
  | .notCached page => s!"Page not cached: {page.label}"
  | .file cause => s!"File error: {cause.message}"
  | .record cause => s!"Record error: {cause.message}"

def label : AccessFault → String
  | .aborted .. => "TransactionAborted"
  | .allPagesDirty _ => "AllPagesDirty"
  | .noTable _ => "TableNotFound"
  | .notCached _ => "PageNotCached"
  | .file _ => "File"
  | .record _ => "Record"

/-- The names of the fault and of the faults inside it, from the outside in. -/
def path (fault : AccessFault) : List String :=
  match fault with
  | .aborted _ cause => [fault.label, cause.label]
  | .file cause => [fault.label, cause.label]
  | .record cause => [fault.label, cause.label]
  | _ => [fault.label]

/-- The fault has ended the transaction, which may be tried again from its start. -/
def aborts : AccessFault → Bool
  | .aborted .. => true
  | _ => false

open Text.Form

/-- The structured form of a fault. -/
def form (fault : AccessFault) : String :=
  match fault with
  | .aborted tx cause => fields fault.label [("tid", tx.form), ("source", cause.form)]
  | .allPagesDirty capacity => fields fault.label [("capacity", toString capacity)]
  | .noTable table => tuple fault.label [table.form]
  | .notCached page => tuple fault.label [page.form]
  | .file cause => tuple fault.label [cause.form]
  | .record cause => tuple fault.label [cause.form]

end AccessFault

end HeapStore
