import HeapStore.Row.Field

/-!
# Schemas and rows

A schema lists the columns of a table; a row of it has one field for each column. Two schemas describe
the same rows if their types agree; names play no part.

* `Schema.width`: the bytes of a row.
* `Fits`: which lists of fields are rows.
* `fits_length`: a row has as many fields as the schema has columns.
-/

namespace HeapStore

structure Column where
  type : FieldType
  name : Option String
deriving DecidableEq

/-- How a column is shown to a user. -/
def Column.label (c : Column) : String := c.type.label ++ "(" ++ c.name.getD "null" ++ ")"

/-- The columns of a table, of which there is at least one. -/
structure Schema where
  columns : List Column
  columns_ne_nil : columns ≠ []
deriving DecidableEq

/-- The fields have the types, one by one. -/
def Fits : List FieldType → List Field → Prop
  | [], [] => True
  | t :: ts, f :: fs => t.Accepts f ∧ Fits ts fs
  | _, _ => False

instance Fits.decide : (ts : List FieldType) → (fs : List Field) → Decidable (Fits ts fs)
  | [], [] => .isTrue trivial
  | t :: ts, f :: fs =>
    have := Fits.decide ts fs
    inferInstanceAs (Decidable (t.Accepts f ∧ Fits ts fs))
  | [], _ :: _ => .isFalse id
  | _ :: _, [] => .isFalse id

theorem Fits.cons {t : FieldType} {ts : List FieldType} {f : Field} {fs : List Field}
    (hf : t.Accepts f) (hfs : Fits ts fs) : Fits (t :: ts) (f :: fs) := ⟨hf, hfs⟩

theorem fits_length : {ts : List FieldType} → {fs : List Field} → Fits ts fs → fs.length = ts.length
  | [], [], _ => rfl
  | _ :: _, _ :: _, h => congrArg Nat.succ (fits_length h.2)

/-- The bytes of fields of the given types. -/
def totalWidth : List FieldType → Nat
  | [] => 0
  | t :: ts => t.width + totalWidth ts

namespace Schema

variable (s : Schema)

def types : List FieldType := s.columns.map Column.type

/-- The bytes of a row. -/
def width : Nat := totalWidth s.types

/-- The rows of a schema. -/
abbrev Row : Type := { fields : List Field // Fits s.types fields }

/-- The place of the first column with the given name. -/
def find? (name : String) : Option Nat := s.columns.findIdx? fun c => c.name == some name

/-- How a schema is shown to a user. -/
def label : String := ", ".intercalate (s.columns.map Column.label)

end Schema

end HeapStore
