import HeapStore.Table.Fault

/-!
# Faults of the catalog

What can be wrong with a list of table definitions, and with asking for a table.

* `CatalogFault.message`, `CatalogFault.form`: the wording of each fault, and its structured form.
* `CatalogFault.path`: the names of the fault and of the faults inside it.
-/

namespace HeapStore

/-- Why a line is no table definition. -/
inductive Malformation where
  | noOpening
  | noClosing
  | misordered
  | noName
  | column (text : String)

inductive CatalogFault where
  | io (cause : IoFault)
  | malformed (line : Nat) (cause : Malformation)
  | unknownType (line : Nat) (name : String)
  | unknownMark (line : Nat) (text : String)
  | noTable (name : String)
  | file (cause : AccessFault)

open Text (quote)

def Malformation.message : Malformation → String
  | .noOpening => "missing '('"
  | .noClosing => "missing ')'"
  | .misordered => "')' before '('"
  | .noName => "missing table name"
  | .column text => s!"bad field {quote text}"

namespace CatalogFault

def message : CatalogFault → String
  | .io cause => cause.message
  | .malformed line cause => s!"Invalid catalog entry on line {line}: {cause.message}"
  | .unknownType line name => s!"Unknown type {quote name} on line {line}"
  | .unknownMark line text => s!"Unknown annotation {quote text} on line {line}"
  | .noTable name => s!"Table {name} not found"
  | .file cause => s!"Cannot open table file: {cause.message}"

def label : CatalogFault → String
  | .io _ => "Io"
  | .malformed .. => "Parse"
  | .unknownType .. => "UnknownType"
  | .unknownMark .. => "UnknownAnnotation"
  | .noTable _ => "TableNotFound"
  | .file _ => "File"

/-- The names of the fault and of the faults inside it, from the outside in. -/
def path (fault : CatalogFault) : List String :=
  match fault with
  | .file cause => fault.label :: cause.path
  | _ => [fault.label]

open Text.Form

/-- The structured form of a fault. -/
def form (fault : CatalogFault) : String :=
  match fault with
  | .io cause => tuple fault.label [cause.form]
  | .malformed line cause =>
    fields fault.label [("line", toString line), ("reason", quote cause.message)]
  | .unknownType line name => fields fault.label [("line", toString line), ("ty", quote name)]
  | .unknownMark line text =>
    fields fault.label [("line", toString line), ("annotation", quote text)]
  | .noTable name => tuple fault.label [quote name]
  | .file cause => tuple fault.label [cause.form]

end CatalogFault

end HeapStore
