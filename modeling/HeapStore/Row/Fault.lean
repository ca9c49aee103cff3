import HeapStore.Ids
import HeapStore.Row.Schema
import HeapStore.Text.Utf8

/-!
# Faults of records and pages

What can be wrong with rows, records and the pages that hold them, one constructor for each cause.

* `RecordFault.message`: the wording of each fault.
* `RecordFault.form`: its structured form, and `RecordFault.label` the name it starts with.
-/

namespace HeapStore

/-- Why a row or a list of columns does not go with a schema. -/
inductive Misfit where
  | noColumns
  | extraNames (names types : Nat)
  | fieldCount (expected actual : Nat)
  | valueCount (expected actual : Nat)
  | otherPage (record page : Schema)
  | otherTable (record table : Schema)

/-- Why a record is not on the page where it is looked for. -/
inductive Absence where
  | unplaced
  | elsewhere (page : PageId)
  | differs (slot : Nat)
  | empty (slot : Nat)
  | outOfRange (slot : Nat)
  | noPage (table : TableId)
  | noTable (table : TableId)

/-- Why bytes are not a field, a row or a page. -/
inductive DecodeFault where
  | fieldWidth (type : FieldType) (actual : Nat)
  | textLength (length : Nat)
  | utf8 (fault : Text.Utf8.Fault)
  | rowWidth (expected actual : Nat)
  | pageWidth (expected actual : Nat)

/-- What stands where a field of some type is expected. -/
inductive Found where
  | field (value : Field)
  | written (text : String)

inductive RecordFault where
  | schemaMismatch (cause : Misfit)
  | typeMismatch (expected : FieldType) (found : Found)
  | textTooLong (length : Nat)
  | unknownType (name : String)
  | pageFull (page : PageId)
  | notFound (page : PageId) (cause : Absence)
  | unplaced (record : String)
  | pageTooSmall (pageSize width : Nat)
  | undecodable (cause : DecodeFault)

def Misfit.message : Misfit → String
  | .noColumns => "A schema needs at least one field"
  | .extraNames names types => s!"{names} names given for {types} fields"
  | .fieldCount expected actual => s!"Expected {expected} fields, got {actual}"
  | .valueCount expected actual => s!"Expected {expected} values, got {actual}"
  | .otherPage record page =>
    s!"Record schema [{record.label}] does not match page schema [{page.label}]"
  | .otherTable record table =>
    s!"Record schema [{record.label}] does not match table schema [{table.label}]"

def Absence.message : Absence → String
  | .unplaced => "record has no location"
  | .elsewhere page => s!"record lives on {page.label}"
  | .differs slot => s!"slot {slot} holds a different record"
  | .empty slot => s!"slot {slot} is empty"
  | .outOfRange slot => s!"slot {slot} out of range"
  | .noPage table => s!"{table.label} has no such page"
  | .noTable table => s!"{table.label} is not registered"

def DecodeFault.message : DecodeFault → String
  | .fieldWidth type actual => s!"Expected {type.width} bytes for {type.label}, got {actual}"
  | .textLength length => s!"String length {length} exceeds max length {maxTextBytes}"
  | .utf8 fault => s!"Invalid UTF-8: {fault.message}"
  | .rowWidth expected actual => s!"Expected {expected} bytes, got {actual}"
  | .pageWidth expected actual => s!"Expected {expected} page bytes, got {actual}"

def Found.message : Found → String
  | .field value => value.form
  | .written text => Text.quote text

namespace RecordFault

/-- The wording of a fault. -/
def message : RecordFault → String
  | .schemaMismatch cause => s!"Schema mismatch: {cause.message}"
  | .typeMismatch expected found =>
    s!"Type mismatch: expected {expected.label}, got {found.message}"
  | .textTooLong length => s!"String length {length} exceeds max length {maxTextBytes}"
  | .unknownType name => s!"Unknown field type: {name}"
  | .pageFull page => s!"Page full: {page.label}"
  | .notFound page cause => s!"Record not found on page {page.label}: {cause.message}"
  | .unplaced record => s!"Record has no location: {record}"
  | .pageTooSmall pageSize width =>
    s!"Page size {pageSize} cannot hold a single record of {width} bytes"
  | .undecodable cause => s!"Deserialization error: {cause.message}"

/-- The name of the kind of fault. -/
def label : RecordFault → String
  | .schemaMismatch _ => "SchemaMismatch"
  | .typeMismatch .. => "TypeMismatch"
  | .textTooLong _ => "StringTooLong"
  | .unknownType _ => "UnknownType"
  | .pageFull _ => "PageFull"
  | .notFound .. => "RecordNotFound"
  | .unplaced _ => "Unplaced"
  | .pageTooSmall .. => "PageTooSmall"
  | .undecodable _ => "Deserialization"

open Text (quote)
open Text.Form

/-- The structured form of a fault. -/
def form (fault : RecordFault) : String :=
  match fault with
  | .schemaMismatch cause => tuple fault.label [quote cause.message]
  | .typeMismatch expected found =>
    fields fault.label [("expected", quote expected.label), ("actual", quote found.message)]
  | .textTooLong length =>
    fields fault.label [("len", toString length), ("max", toString maxTextBytes)]
  | .unknownType name => tuple fault.label [quote name]
  | .pageFull page => tuple fault.label [page.form]
  | .notFound page cause =>
    fields fault.label [("page_id", page.form), ("detail", quote cause.message)]
  | .unplaced record => tuple fault.label [quote record]
  | .pageTooSmall pageSize width =>
    fields fault.label [("page_size", toString pageSize), ("record_size", toString width)]
  | .undecodable cause => tuple fault.label [quote cause.message]

end RecordFault

end HeapStore
