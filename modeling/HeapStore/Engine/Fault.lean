import HeapStore.Catalog.Fault
import HeapStore.Settings.Basic

/-!
# Faults of the engine

Whatever can go wrong in an engine comes from its pages, its catalog, its settings or a record.

* `EngineFault.message`, `EngineFault.form`: the wording of each fault, and its structured form.
* `EngineFault.aborts`: the fault has ended the transaction.
-/

namespace HeapStore

inductive EngineFault where
  | access (cause : AccessFault)
  | catalog (cause : CatalogFault)
  | settings (cause : SettingsFault)
  | record (cause : RecordFault)

namespace EngineFault

def message : EngineFault → String
  | .access cause => cause.message
  | .catalog cause => s!"Catalog error: {cause.message}"
  | .settings cause => s!"Configuration error: {cause.message}"
  | .record cause => s!"Record error: {cause.message}"

def label : EngineFault → String
  | .access _ => "Buffer"
  | .catalog _ => "Catalog"
  | .settings _ => "Config"
  | .record _ => "Record"

/-- The names of the fault and of the faults inside it, from the outside in. -/
def path (fault : EngineFault) : List String :=
  fault.label :: match fault with
  | .access cause => cause.path
  | .catalog cause => cause.path
  | .settings cause => [cause.label]
  | .record cause => [cause.label]

/-- The structured form of a fault. -/
def form (fault : EngineFault) : String :=
  Text.Form.tuple fault.label <| match fault with
  | .access cause => [cause.form]
  | .catalog cause => [cause.form]
  | .settings cause => [cause.form]
  | .record cause => [cause.form]

/-- The fault has ended the transaction, which may be tried again from its start. -/
def aborts : EngineFault → Bool
  | .access cause => cause.aborts
  | _ => false

end EngineFault

end HeapStore
