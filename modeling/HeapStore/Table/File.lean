import HeapStore.Disk.Basic
import HeapStore.Disk.Paged
import HeapStore.Page.Encoding
import HeapStore.Table.Fault

/-!
# The file of a table

The pages of a table lie one after another in one file. The functions here go straight to the disk:
they ask for no lock and know of no cache.

* `TableFile.attach`: the file of a table, which is there afterwards, empty if it was missing.
* `TableFile.count`, `TableFile.read`, `TableFile.write`, `TableFile.append`: its pages.
-/

namespace HeapStore

structure TableFile where
  table : TableId
  schema : Schema
  location : Location
  pageSize : Nat

namespace TableFile

/-- The file at a path, for a table that has no number yet, or why there is none, and the disk afterwards. A
page must have room for a row. -/
def attach (disk : Disk) (path : Path) (schema : Schema) (pageSize : Nat) :
    Except AccessFault TableFile × Disk :=
  if schema.slotCount pageSize = 0 then
    (.error (.record (.pageTooSmall pageSize schema.width)), disk)
  else match disk.create path with
    | (.error cause, disk) => (.error (.file (.io cause)), disk)
    | (.ok location, disk) => (.ok ⟨⟨0⟩, schema, location, pageSize⟩, disk)

variable (t : TableFile) (disk : Disk)

/-- What the file holds. -/
def bytes : Except FileFault Bytes := (disk.held t.location).mapError .io

/-- The number of pages. -/
def count : Except AccessFault Nat :=
  ((disk.size t.location).map (Paged.countOf t.pageSize)).mapError fun cause => .file (.io cause)

/-- The pages are those of the bytes that the file holds. -/
theorem count_eq : t.count disk = ((t.bytes disk).map (Paged.count t.pageSize)).mapError .file := by
  unfold count bytes
  rw [Disk.size_eq]
  cases disk.held t.location <;> rfl

/-- The page of the table with the given number. -/
def pageId (number : Nat) : PageId := ⟨t.table, number⟩

/-- The page that the file holds at the number of the page. -/
def read (page : PageId) : Except AccessFault Page := do
  let stored ← (do Paged.read t.pageSize (← t.bytes disk) page.number t.pageSize).mapError .file
  (Page.decode page t.schema t.pageSize stored).mapError .record

/-- The disk after the page was written at its number, as far as the file goes. -/
def store (page : Page) : Except FileFault Disk := do
  let file ← Paged.write t.pageSize (← t.bytes disk) page.id.number page.encode
  .ok (disk.set t.location file)

/-- The disk after the page was written at its number. -/
def write (page : Page) : Except AccessFault Disk := (t.store disk page).mapError .file

/-- The number of a new page without records, and the disk with it. -/
def append : Except AccessFault (Nat × Disk) :=
  (do
    let (number, file) ← Paged.append t.pageSize (← t.bytes disk) (Bytes.zeros t.pageSize)
    .ok (number, disk.set t.location file)).mapError .file

end TableFile

end HeapStore
