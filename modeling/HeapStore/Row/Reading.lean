import HeapStore.Row.Fault
import HeapStore.Text.Decimal
import HeapStore.Text.Split

/-!
# Making rows

Rows are made from fields that already have a type, or from texts.

* `FieldType.read?`, `FieldType.ofName?`: a field, and a type of field, from a text.
* `Schema.accept`: a row from fields, or the first field that does not fit (`accept_of_fits`).
* `Schema.read`: a row from one text for each column.
* `Schema.ofColumns`, `Schema.ofTypes`: a schema from its columns.
-/

namespace HeapStore

open Text (trim)

namespace FieldType

/-- A type by its name in any mixture of ASCII cases, blanks around it apart. -/
def ofName? (name : List Char) : Except RecordFault FieldType :=
  let lower := (trim name).map Char.toLower
  if lower = "int".toList then .ok .int
  else if lower = "string".toList then .ok .text
  else .error (.unknownType (String.ofList lower))

/-- A text field, if the text is not too long. -/
def text? (s : String) : Except RecordFault (Value .text) :=
  if h : (Bytes.ofText s).length ≤ maxTextBytes then .ok ⟨.text s, h⟩
  else .error (.textTooLong (Bytes.ofText s).length)

/-- The field that a text stands for, blanks around it apart. -/
def read? : (t : FieldType) → List Char → Except RecordFault t.Value
  | .int, cs =>
    match Text.readInt32 (trim cs) with
    | some n => .ok ⟨.int n, trivial⟩
    | none => .error (.typeMismatch .int (.written (String.ofList (trim cs))))
  | .text, cs => text? (String.ofList (trim cs))

/-- The field itself where its type is asked for. -/
def accept : (t : FieldType) → Field → Except RecordFault t.Value
  | .int, .int n => .ok ⟨.int n, trivial⟩
  | .text, .text s => text? s
  | t, f => .error (.typeMismatch t (.field f))

theorem accept_of_accepts : {t : FieldType} → {f : Field} → (h : t.Accepts f) →
    t.accept f = .ok ⟨f, h⟩
  | .int, .int _, _ => rfl
  | .text, .text _, h => dif_pos h

end FieldType

/-- The fields as a list of the given types, or the first fault. -/
def acceptAll : (ts : List FieldType) → (fs : List Field) → Except RecordFault { fs // Fits ts fs }
  | [], [] => .ok ⟨[], trivial⟩
  | t :: ts, f :: fs => do
    let ⟨f, hf⟩ ← t.accept f
    let ⟨fs, hfs⟩ ← acceptAll ts fs
    .ok ⟨f :: fs, .cons hf hfs⟩
  | ts, fs => .error (.schemaMismatch (.fieldCount ts.length fs.length))

/-- The fields that texts stand for, or the first fault. -/
def readAll : (ts : List FieldType) → List (List Char) → Except RecordFault { fs // Fits ts fs }
  | [], [] => .ok ⟨[], trivial⟩
  | t :: ts, c :: cs => do
    let ⟨f, hf⟩ ← t.read? c
    let ⟨fs, hfs⟩ ← readAll ts cs
    .ok ⟨f :: fs, .cons hf hfs⟩
  | ts, cs => .error (.schemaMismatch (.valueCount ts.length cs.length))

theorem acceptAll_of_fits : {ts : List FieldType} → {fs : List Field} → (h : Fits ts fs) →
    acceptAll ts fs = .ok ⟨fs, h⟩
  | [], [], _ => rfl
  | t :: ts, f :: fs, h => by
    simp only [acceptAll, FieldType.accept_of_accepts h.1, acceptAll_of_fits h.2]
    rfl

namespace Schema

/-- A schema with the given columns. -/
def ofColumns (columns : List Column) : Except RecordFault Schema :=
  if h : columns ≠ [] then .ok ⟨columns, h⟩ else .error (.schemaMismatch .noColumns)

/-- A schema of columns without names. -/
def ofTypes (types : List FieldType) : Except RecordFault Schema :=
  ofColumns (types.map fun t => ⟨t, none⟩)

/-- A schema whose first columns have the given names. -/
def ofNames (types : List FieldType) (names : List String) : Except RecordFault Schema :=
  if types.length < names.length then
    .error (.schemaMismatch (.extraNames names.length types.length))
  else ofColumns (types.mapIdx fun i t => ⟨t, names[i]?⟩)

variable (s : Schema)

/-- The row with the given fields: there must be one for each column, and each must fit. -/
def accept (fields : List Field) : Except RecordFault s.Row :=
  if fields.length = s.types.length then acceptAll s.types fields
  else .error (.schemaMismatch (.fieldCount s.types.length fields.length))

/-- Every list of fields that fits is a row. -/
theorem accept_of_fits {s : Schema} {fields : List Field} (h : Fits s.types fields) :
    s.accept fields = .ok ⟨fields, h⟩ := by
  rw [accept, if_pos (fits_length h), acceptAll_of_fits h]

/-- The row that the texts stand for, one text for each column. -/
def read (texts : List (List Char)) : Except RecordFault s.Row :=
  if texts.length = s.types.length then readAll s.types texts
  else .error (.schemaMismatch (.valueCount s.types.length texts.length))

end Schema

end HeapStore
