import HeapStore.Row.Encoding
import HeapStore.Row.Reading

/-!
# Records

A record is a row together with its schema and, once it has been stored, the place where it lies.

* `Record.Same`: two records hold the same fields of the same types, wherever they lie.
* `Record.location`: the place of a stored record.
* `Record.decode`: the record that bytes store.
-/

namespace HeapStore

structure Record where
  schema : Schema
  row : schema.Row
  place : Option RecordId

namespace Record

/-- A record that is stored nowhere, if the fields fit the schema. -/
def ofFields (schema : Schema) (fields : List Field) : Except RecordFault Record :=
  (schema.accept fields).map fun row => ⟨schema, row, none⟩

variable (r : Record)

def fields : List Field := r.row.val

/-- The fields of a record, separated by tabulators. -/
def plain : String := "\t".intercalate (r.fields.map Field.plain)

def encode : Bytes := r.schema.encode r.row

def decode (schema : Schema) (bytes : Bytes) : Except RecordFault Record :=
  (schema.decode bytes).map fun row => ⟨schema, row, none⟩

/-- The place of a stored record. -/
def location : Except RecordFault RecordId :=
  match r.place with
  | some place => .ok place
  | none => .error (.unplaced r.plain)

/-- The same fields of the same types. -/
def Same (a b : Record) : Prop := a.schema.types = b.schema.types ∧ a.fields = b.fields

instance (a b : Record) : Decidable (a.Same b) :=
  inferInstanceAs (Decidable (_ ∧ _))

end Record

end HeapStore
