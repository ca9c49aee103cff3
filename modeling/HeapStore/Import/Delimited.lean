import HeapStore.Bytes

/-!
# Delimited text

Rows of fields as bytes. Fields are divided by a delimiter, rows by line feeds and carriage returns, and
lines without a character are no rows. A field that begins with a quotation mark goes on to the next one;
two of them stand for one inside it, and behind it the field goes on as if it were not quoted.

* `Reading.step`: one byte more of a row.
* `rows`: the rows of a byte string, each with the position where its reading began: right behind the
  end of the row before it.
-/

namespace HeapStore.Delimited

/-- A place in a byte string. -/
structure Position where
  byte : Nat
  line : Nat
  /-- The number of rows before it. -/
  row : Nat
deriving DecidableEq, Repr

/-- The place behind one more byte. -/
def Position.next (p : Position) (b : UInt8) : Position :=
  { p with byte := p.byte + 1, line := if b = 0x0A then p.line + 1 else p.line }

/-- A row and the position where its reading began. -/
structure Row where
  start : Position
  fields : List Bytes
deriving DecidableEq, Repr

/-- Where in a row the reading is. -/
inductive State where
  | beforeRow
  | beforeField
  | inField
  | inQuotes
  /-- Behind a quotation mark that ends the quotes, or is the first of two. -/
  | behindQuote
deriving DecidableEq, Repr

/-- A row that is being read; its fields and the bytes of the last one are in reverse order. -/
structure Reading where
  state : State := .beforeRow
  fields : List Bytes := []
  field : Bytes := []

/-- The reading of a row after one byte, or the row that has ended. -/
inductive Progress where
  | more (reading : Reading)
  | ended (fields : List Bytes)

namespace Reading

def quote : UInt8 := 0x22

/-- A line feed or a carriage return. -/
def endsRow (b : UInt8) : Bool := b == 0x0A || b == 0x0D

variable (r : Reading) (delimiter b : UInt8)

/-- The fields, the last one included. -/
def close : List Bytes := (r.field.reverse :: r.fields).reverse

/-- One byte more of the last field. -/
def push (state : State) : Reading := { r with state, field := b :: r.field }

/-- A byte outside of quotes. -/
def plain : Progress :=
  if b = delimiter then .more ⟨.beforeField, r.field.reverse :: r.fields, []⟩
  else if endsRow b then .ended r.close
  else .more (r.push b .inField)

/-- A byte where a field may begin. -/
def begin : Progress :=
  if b = quote then .more { r with state := .inQuotes } else r.plain delimiter b

/-- One byte more. -/
def step : Progress :=
  match r.state with
  | .beforeRow => if endsRow b then .more r else r.begin delimiter b
  | .beforeField => r.begin delimiter b
  | .inField => r.plain delimiter b
  | .inQuotes => .more (if b = quote then { r with state := .behindQuote } else r.push b .inQuotes)
  | .behindQuote => if b = quote then .more (r.push b .inQuotes) else r.plain delimiter b

/-- The row that ends where the bytes end, if one has begun. -/
def last : Option (List Bytes) := if r.state = .beforeRow then none else some r.close

end Reading

/-- The rows of the bytes behind `here`, while a row is read whose reading began at `start`. -/
def rowsFrom (delimiter : UInt8) (start here : Position) (r : Reading) : Bytes → List Row
  | [] => r.last.toList.map (Row.mk start)
  | b :: bytes =>
    match r.step delimiter b with
    | .more r => rowsFrom delimiter start (here.next b) r bytes
    | .ended fields =>
      let behind : Position := { here.next b with row := here.row + 1 }
      ⟨start, fields⟩ :: rowsFrom delimiter behind behind {} bytes

/-- The mark of byte order, which may stand before the first row. -/
def mark : Bytes := [0xEF, 0xBB, 0xBF]

/-- The rows of a byte string. -/
def rows (delimiter : UInt8) (bytes : Bytes) : List Row :=
  if mark.isPrefixOf bytes then rowsFrom delimiter ⟨0, 1, 0⟩ ⟨3, 1, 0⟩ {} (bytes.drop 3)
  else rowsFrom delimiter ⟨0, 1, 0⟩ ⟨0, 1, 0⟩ {} bytes

end HeapStore.Delimited
