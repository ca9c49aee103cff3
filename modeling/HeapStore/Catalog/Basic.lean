import HeapStore.Catalog.Definition
import HeapStore.Table.File

/-!
# The catalog

The catalog knows the tables by number and by name. Each new table gets a new number; a table that takes
the name of another replaces it.

* `Catalog.add`: a new table.
* `Catalog.table`, `Catalog.named`: a table by its number, and the number of a name.
* `Catalog.load`: all tables of a file of definitions. Tables that were added stay when a later one
  cannot be.
-/

namespace HeapStore

open Std

/-- A table of the catalog. -/
structure Table where
  name : String
  file : TableFile
  key : Option String

structure Catalog where
  tables : ExtTreeMap TableId Table := {}
  names : ExtTreeMap String TableId := {}
  /-- The number of the table that was added last. -/
  lastId : Nat := 0

namespace Catalog

variable (c : Catalog)

/-- The table with a number. -/
def table (id : TableId) : Except CatalogFault Table :=
  match c.tables[id]? with
  | some table => .ok table
  | none => .error (.noTable id.label)

/-- The file of the table with a number. -/
def file (id : TableId) : Except CatalogFault TableFile := (c.table id).map Table.file

/-- The file of the table whose pages are used. -/
def tableFile (id : TableId) : Except AccessFault TableFile := (c.file id).mapError fun _ => .noTable id

/-- The number of the table with a name. -/
def named (name : String) : Except CatalogFault TableId :=
  match c.names[name]? with
  | some id => .ok id
  | none => .error (.noTable name)

/-- The numbers of all tables, in the order in which they were added. -/
def ids : List TableId := c.tables.keys

/-- The catalog with one more table, which replaces one of the same name. -/
def add (file : TableFile) (name : String) (key : Option String) : TableId × Catalog :=
  let id : TableId := ⟨c.lastId + 1⟩
  let kept := match c.names[name]? with
    | some old => c.tables.erase old
    | none => c.tables
  (id,
    { tables := kept.insert id ⟨name, { file with table := id }, key⟩
      names := c.names.insert name id
      lastId := id.number })

/-- The catalog without tables. The numbers that were given are not given again. -/
def clear : Catalog := { c with tables := {}, names := {} }

/-- The name of the file of a defined table. -/
def fileName (name : String) : String := name ++ ".dat"

/-- Adds a table for each definition, with its file in the given folder, up to the first fault. -/
def addAll (folder : Path) (pageSize : Nat) :
    List Definition → Catalog → Disk → Except CatalogFault (List TableId) × Catalog × Disk
  | [], c, disk => (.ok [], c, disk)
  | d :: ds, c, disk =>
    match TableFile.attach disk (folder.within (fileName d.name)) d.schema pageSize with
    | (.error cause, disk) => (.error (.file cause), c, disk)
    | (.ok file, disk) =>
      let (id, c) := c.add file d.name d.key
      let (ids, c, disk) := addAll folder pageSize ds c disk
      (ids.map (id :: ·), c, disk)

/-- The definitions in a file. -/
def definitions (disk : Disk) (path : Path) : Except CatalogFault (List Definition) := do
  let text ← (disk.text path).mapError .io
  Definition.parseAll text.toList

/-- Adds the tables that the file at a path defines. Their files lie beside it. -/
def load (disk : Disk) (path : Path) (pageSize : Nat) :
    Except CatalogFault (List TableId) × Catalog × Disk :=
  match definitions disk path with
  | .error fault => (.error fault, c, disk)
  | .ok ds => addAll path.folder pageSize ds c disk

end Catalog

end HeapStore
