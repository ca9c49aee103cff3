import HeapStore.Disk.Fault
import HeapStore.Import.Delimited
import HeapStore.Row.Fault

/-!
# Faults of importing

Why delimited text does not become the file of a table.

* `ImportFault.message`, `ImportFault.form`: the wording of each fault, and its structured form.
* `ImportFault.path`: the names of the fault and of the faults inside it.
-/

namespace HeapStore

inductive ImportFault where
  | unreadable (cause : IoFault)
  | notUtf8 (start : Delimited.Position) (index validUpTo : Nat)
  | fieldCount (line expected actual : Nat)
  | field (line : Nat) (cause : RecordFault)
  | outputExists (name : String)
  | file (cause : FileFault)
  | record (cause : RecordFault)

namespace ImportFault

def message : ImportFault → String
  | .unreadable cause => s!"CSV error: {cause.message}"
  | .notUtf8 start index validUpTo =>
    s!"CSV error: CSV parse error: record {start.row} " ++
      s!"(line {start.line}, field: {index}, byte: {start.byte}): " ++
      s!"invalid utf-8: invalid UTF-8 in field {index} near byte index {validUpTo}"
  | .fieldCount line expected actual => s!"Line {line}: expected {expected} fields, got {actual}"
  | .field line cause => s!"Line {line}: {cause.message}"
  | .outputExists name => s!"Output {name} already exists"
  | .file cause => s!"File error: {cause.message}"
  | .record cause => s!"Record error: {cause.message}"

def label : ImportFault → String
  | .unreadable _ | .notUtf8 .. => "Csv"
  | .fieldCount .. => "FieldCount"
  | .field .. => "Field"
  | .outputExists _ => "OutputExists"
  | .file _ => "File"
  | .record _ => "Record"

/-- The names of the fault and of the faults inside it, from the outside in. -/
def path (fault : ImportFault) : List String :=
  fault.label :: match fault with
  | .unreadable _ => ["Io"]
  | .notUtf8 .. => ["Utf8"]
  | .field _ cause => [cause.label]
  | .file cause => [cause.label]
  | .record cause => [cause.label]
  | .fieldCount .. | .outputExists _ => []

open Text.Form

/-- The structured form of a position. -/
def positionForm (p : Delimited.Position) : String :=
  fields "Position"
    [("byte", toString p.byte), ("line", toString p.line), ("record", toString p.row)]

/-- The structured form of a fault. -/
def form (fault : ImportFault) : String :=
  match fault with
  | .unreadable cause => tuple fault.label [tuple "Error" [tuple "Io" [cause.form]]]
  | .notUtf8 start index validUpTo =>
    let err := fields "Utf8Error" [("field", toString index), ("valid_up_to", toString validUpTo)]
    tuple fault.label
      [tuple "Error" [fields "Utf8" [("pos", optional (some (positionForm start))), ("err", err)]]]
  | .fieldCount line expected actual =>
    fields fault.label
      [("line", toString line), ("expected", toString expected), ("actual", toString actual)]
  | .field line cause => fields fault.label [("line", toString line), ("source", cause.form)]
  | .outputExists name => tuple fault.label [Text.quote name]
  | .file cause => tuple fault.label [cause.form]
  | .record cause => tuple fault.label [cause.form]

end ImportFault

end HeapStore
