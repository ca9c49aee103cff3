import HeapStore.Bytes
import HeapStore.Text.Form

/-!
# Fields

A field holds a whole number of 32 bits or a text of at most `maxTextBytes` bytes. Every type of field
has one width on disk, so the place of a field follows from the types before it.

* `FieldType.width`: the bytes of a field of that type.
* `FieldType.Accepts`: which fields may stand where the type is asked for.
-/

namespace HeapStore

/-- The greatest number of bytes of a text field. -/
def maxTextBytes : Nat := 128

inductive FieldType where
  | int
  | text
deriving DecidableEq, Repr

inductive Field where
  | int (value : Int32)
  | text (value : String)
deriving DecidableEq

/-- Four bytes hold a number; a text has four bytes for its length before its own bytes. -/
def FieldType.width : FieldType → Nat
  | .int => 4
  | .text => 4 + maxTextBytes

def FieldType.label : FieldType → String
  | .int => "INT"
  | .text => "STRING"

/-- How a field is shown to a user. -/
def Field.plain : Field → String
  | .int n => toString n.toInt
  | .text s => s

/-- How a message shows a field where its type matters. -/
def Field.form : Field → String
  | .int n => Text.Form.tuple "Int" [toString n.toInt]
  | .text s => Text.Form.tuple "Str" [Text.quote s]

def Field.type : Field → FieldType
  | .int _ => .int
  | .text _ => .text

/-- The field has the type, and a text is not too long. -/
def FieldType.Accepts : FieldType → Field → Prop
  | .int, .int _ => True
  | .text, .text s => (Bytes.ofText s).length ≤ maxTextBytes
  | _, _ => False

instance : (t : FieldType) → (f : Field) → Decidable (t.Accepts f)
  | .int, .int _ => .isTrue trivial
  | .text, .text s => inferInstanceAs (Decidable ((Bytes.ofText s).length ≤ maxTextBytes))
  | .int, .text _ => .isFalse id
  | .text, .int _ => .isFalse id

theorem FieldType.Accepts.type_eq : {t : FieldType} → {f : Field} → t.Accepts f → f.type = t
  | .int, .int _, _ => rfl
  | .text, .text _, _ => rfl

/-- A field of a given type. -/
abbrev FieldType.Value (t : FieldType) : Type := { f : Field // t.Accepts f }

end HeapStore
