import HeapStore.Row.Fault

/-!
# Rows as bytes

A number is stored in four bytes. A text is stored as its length in four bytes, its UTF-8, and zeros up
to the greatest length. A row is stored as its fields one after another.

* `Field.encode`, `Schema.encode`: the stored bytes; `length_encodeAll` gives their number.
* `FieldType.decode`, `Schema.decode`: the field or row that bytes store. Bytes behind a text are not
  looked at.
-/

namespace HeapStore

open Bytes (ofText ofWord toWord zeros)

/-- The stored bytes of a field. A text that is too long loses its end. -/
def Field.encode : Field → Bytes
  | .int n => ofWord n.toUInt32
  | .text s =>
    let payload := (ofText s).take maxTextBytes
    ofWord (.ofNat payload.length) ++ payload ++ zeros (maxTextBytes - payload.length)

theorem Field.length_encode (f : Field) : f.encode.length = f.type.width := by
  cases f with
  | int n => rfl
  | text s =>
    simp only [encode, List.length_append, Bytes.length_ofWord, Bytes.length_zeros, List.length_take,
      type, FieldType.width]
    omega

/-- The stored bytes of a list of fields. -/
def encodeAll (fields : List Field) : Bytes := fields.flatMap Field.encode

theorem length_encodeAll : {ts : List FieldType} → {fs : List Field} → Fits ts fs →
    (encodeAll fs).length = totalWidth ts
  | [], [], _ => rfl
  | t :: ts, f :: fs, h => by
    have ih := length_encodeAll h.2
    simp only [encodeAll, List.flatMap_cons, List.length_append, totalWidth, Field.length_encode,
      h.1.type_eq] at ih ⊢
    rw [ih]

/-- The text in the first `length` bytes. -/
def decodeText (length : Nat) (bytes : Bytes) : Except RecordFault (FieldType.Value .text) :=
  if h : length ≤ maxTextBytes then
    match hs : Text.Utf8.decode (bytes.take length) with
    | .ok s => .ok ⟨.text s, by
        have : (ofText s).length = (bytes.take length).length := by
          rw [Text.Utf8.decode_eq_ok_iff.1 hs]
        simp only [FieldType.Accepts, this, List.length_take]
        omega⟩
    | .error fault => .error (.undecodable (.utf8 fault))
  else .error (.undecodable (.textLength length))

/-- The field of a type that the bytes store. -/
def FieldType.decode (t : FieldType) (bytes : Bytes) : Except RecordFault t.Value :=
  if bytes.length = t.width then
    match t with
    | .int => .ok ⟨.int (toWord bytes).toInt32, trivial⟩
    | .text => decodeText (toWord (bytes.take 4)).toNat (bytes.drop 4)
  else .error (.undecodable (.fieldWidth t bytes.length))

/-- The fields of the given types that the bytes store one after another. -/
def decodeAll : (ts : List FieldType) → Bytes → Except RecordFault { fs // Fits ts fs }
  | [], _ => .ok ⟨[], trivial⟩
  | t :: ts, bytes => do
    let ⟨f, hf⟩ ← t.decode (bytes.take t.width)
    let ⟨fs, hfs⟩ ← decodeAll ts (bytes.drop t.width)
    .ok ⟨f :: fs, .cons hf hfs⟩

/-- The stored bytes of a row. -/
def Schema.encode (s : Schema) (row : s.Row) : Bytes := encodeAll row.val

/-- The row that the bytes store. -/
def Schema.decode (s : Schema) (bytes : Bytes) : Except RecordFault s.Row :=
  if bytes.length = s.width then decodeAll s.types bytes
  else .error (.undecodable (.rowWidth s.width bytes.length))

@[simp] theorem Schema.length_encode (s : Schema) (row : s.Row) : (s.encode row).length = s.width :=
  length_encodeAll row.property

end HeapStore
