import HeapStore.Import.Fault
import HeapStore.Table.File

/-!
# Importing delimited text

Each row of a delimited text becomes a record, and the records fill the pages of a new file from its
first slot on. A page is written when the record behind it is there, and the last one at the end, so a
text with a fault leaves only full pages.

Rows come from a reader, one after another. It may deliver a row of any fields at any place, or the fault
that kept it from reading one.

* `importRow`: the record of a row. A row of one empty field has none.
* `importAll`: the records of whatever a reader delivers, put on pages.
* `Disk.importWith`: what a reader makes of a file as the file of a table.
* `Disk.importText`: the same with the reader of delimited text.
-/

namespace HeapStore

open Text (trim)

/-- A byte of ASCII that is blank. -/
def isBlankByte (b : UInt8) : Bool :=
  b == 0x20 || b == 0x09 || b == 0x0A || b == 0x0C || b == 0x0D

/-- The bytes without the blank ones at both ends. -/
def trimBytes (bytes : Bytes) : Bytes :=
  ((bytes.dropWhile isBlankByte).reverse.dropWhile isBlankByte).reverse

namespace Delimited.Row

variable (row : Row)

/-- The fields whose text is read: without blank bytes around them. -/
def raw : List Bytes := row.fields.map trimBytes

/-- The texts of fields, the first of which has the given number. -/
def textsFrom (start : Position) : (field : Nat) → List Bytes → Except ImportFault (List (List Char))
  | _, [] => .ok []
  | field, bytes :: rest =>
    match Text.Utf8.decode bytes with
    | .error fault => .error (.notUtf8 start field fault.start)
    | .ok text => do .ok (trim text.toList :: (← textsFrom start (field + 1) rest))

/-- The texts of the fields, without blanks around them. -/
def texts : Except ImportFault (List (List Char)) := textsFrom row.start 0 row.raw

end Delimited.Row

/-- The record of a row, if it is not a row of one empty field. -/
def importRow (schema : Schema) (row : Delimited.Row) : Except ImportFault (Option Record) := do
  let texts ← row.texts
  if texts = [[]] then .ok none
  else if texts.length ≠ schema.types.length then
    .error (.fieldCount row.start.line schema.types.length texts.length)
  else match readAll schema.types texts with
    | .error cause => .error (.field row.start.line cause)
    | .ok fields => .ok (some ⟨schema, fields, none⟩)

/-- A page that is being filled, and the number of records so far. -/
structure Filling where
  page : Page
  written : Nat

/-- A page of a file without records. -/
def TableFile.blank (t : TableFile) (number : Nat) : Except ImportFault Page :=
  (Page.blank (t.pageId number) t.schema t.pageSize).mapError .record

/-- Puts a record on the page that is being filled, or on the next one if that is full. -/
def Filling.add (t : TableFile) (disk : Disk) (f : Filling) (r : Record) :
    Except ImportFault (Filling × Disk) := do
  let (page, disk) ←
    if f.page.freeSlots = 0 then do
      let disk ← (t.store disk f.page).mapError .file
      .ok (← t.blank (f.page.id.number + 1), disk)
    else .ok (f.page, disk)
  let (_, page) ← (page.insert r).mapError .record
  .ok (⟨page, f.written + 1⟩, disk)

/-- What a reader delivers at one place: a row, or why there is none to be read. -/
abbrev Delivery := Except IoFault Delimited.Row

/-- The record of what is delivered, if it is not a row of one empty field. -/
def importDelivery (schema : Schema) : Delivery → Except ImportFault (Option Record)
  | .error cause => .error (.unreadable cause)
  | .ok row => importRow schema row

/-- Puts the records of what is delivered on pages, up to the first fault, and gives their number. -/
def importAll (t : TableFile) : List Delivery → Filling → Disk → Except ImportFault Nat × Disk
  | [], f, disk =>
    if f.written = 0 then (.ok 0, disk)
    else match t.store disk f.page with
      | .error cause => (.error (.file cause), disk)
      | .ok disk => (.ok f.written, disk)
  | d :: ds, f, disk =>
    match importDelivery t.schema d with
    | .error fault => (.error fault, disk)
    | .ok none => importAll t ds f disk
    | .ok (some r) =>
      match f.add t disk r with
      | .error fault => (.error fault, disk)
      | .ok (f, disk) => importAll t ds f disk

/-- What the reader of delimited text delivers: the rows of the bytes. Of a folder nothing can be read. -/
def deliveries (delimiter : UInt8) : Option Bytes → List Delivery
  | none => [.error .isDirectory]
  | some bytes => (Delimited.rows delimiter bytes).map .ok

namespace Disk

/-- There is something at the path that is no empty file. -/
def occupied (disk : Disk) (path : Path) : Bool :=
  match (disk.locate path).toOption.bind disk.node? with
  | some (.file content) => content.length != 0
  | some .folder => true
  | none => false

/-- What is read from a path. A folder can be opened like a file, but nothing is read from it. -/
def source (disk : Disk) (path : Path) : Except IoFault (Option Bytes) :=
  match disk.bytes path with
  | .ok bytes => .ok (some bytes)
  | .error .isDirectory => .ok none
  | .error cause => .error cause

/-- The file of a table of the given types from what a reader makes of another file: the number of records
or the first fault, and the disk afterwards. -/
def importWith (reader : Option Bytes → List Delivery) (disk : Disk) (input output : String) (pageSize : Nat)
    (types : List FieldType) : Except ImportFault Nat × Disk :=
  let path := Path.ofText output
  match Schema.ofTypes types with
  | .error cause => (.error (.record cause), disk)
  | .ok schema =>
    match Page.blank ⟨⟨0⟩, 0⟩ schema pageSize with
    | .error cause => (.error (.record cause), disk)
    | .ok page =>
      if disk.occupied path then (.error (.outputExists output), disk)
      else match disk.source (Path.ofText input) with
        | .error cause => (.error (.unreadable cause), disk)
        | .ok source =>
          match disk.create path with
          | (.error cause, disk) => (.error (.file (.io cause)), disk)
          | (.ok location, disk) => importAll ⟨⟨0⟩, schema, location, pageSize⟩ (reader source) ⟨page, 0⟩ disk

/-- The file of a table from the delimited text in another file. -/
def importText (disk : Disk) (input output : String) (pageSize : Nat) (types : List FieldType)
    (delimiter : UInt8) : Except ImportFault Nat × Disk :=
  disk.importWith (deliveries delimiter) input output pageSize types

end Disk

end HeapStore
