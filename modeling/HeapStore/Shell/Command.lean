import HeapStore.Engine.Change
import HeapStore.Engine.Scan
import HeapStore.Import.Basic
import HeapStore.Settings.Reading
import HeapStore.Shell.Arguments
import HeapStore.Text.Box

/-!
# Commands

A command works on the disk and gives a reply. Those that use a table open an engine on its catalog and
run one transaction, which is committed if all went well and aborted if not.

* `Reply`: what a command shows, and how it ends: with 0 if it did its work, with 1 if it failed, with 2 if
  the command line could not be read, with 101 if it broke off because a text cannot be measured.
* `Command.attempt`: the reply to a command, whatever became of the settings, and the disk afterwards.
* `run`: the reply to the words of a command line.
-/

namespace HeapStore.Shell

structure Reply where
  exit : Nat
  output : String := ""
  error : String := ""

/-- The command did its work. -/
def success (output : String) : Reply := { exit := 0, output }

/-- The command failed. -/
def failure (form : String) : Reply := { exit := 1, error := s!"Error: {form}\n" }

/-- The command broke off. -/
def broken : Reply := { exit := 101 }

/-- The reply to words that are no invocation. -/
def Stop.reply : Stop → Reply
  | .help topic => success topic.text
  | .version => success versionText
  | .misuse =>
    { exit := 2, error := "error: not a command line\n\nFor more information, try '--help'.\n" }

/-- Ends a transaction as its outcome asks for. If it cannot be ended that is the outcome. -/
def finish (tx : TxId) : Engine.Outcome EngineFault α → Engine.Outcome EngineFault α
  | (.ok a, e) =>
    let (r, e) := e.commit tx
    (r.map fun _ => a, e)
  | (.error fault, e) =>
    let (r, e) := e.abort tx
    (r.bind fun _ => .error fault, e)

/-- Runs a transaction on a table. -/
def withTable (settings : Settings) (disk : Disk) (catalog table : String)
    (act : Engine → TxId → Table → Engine.Outcome EngineFault α) (reply : α → Reply) :
    Reply × Disk :=
  match Engine.openCatalog settings disk (Path.ofText catalog) with
  | .error (fault, disk) => (failure fault.form, disk)
  | .ok e =>
    match e.catalog.named table >>= e.catalog.table with
    | .error fault => (failure fault.form, e.disk)
    | .ok table =>
      let (tx, e) := e.begin
      match finish tx (act e tx table) with
      | (.ok a, e) => (reply a, e.disk)
      | (.error fault, e) => (failure fault.form, e.disk)

/-- Stores a row that is given as texts. -/
def insertTexts (values : List String) (e : Engine) (tx : TxId) (table : Table) :
    Engine.Outcome EngineFault RecordId :=
  let schema := table.file.schema
  match schema.read (values.map String.toList) with
  | .error cause => (.error (.record cause), e)
  | .ok row =>
    Engine.raised (e.insert tx table.file.table ⟨schema, row, none⟩)

/-- Deletes the record in a slot. -/
def deleteAt (page slot : Nat) (e : Engine) (tx : TxId) (table : Table) :
    Engine.Outcome EngineFault Unit :=
  let id : PageId := ⟨table.file.table, page⟩
  match e.fetch tx id .exclusive with
  | (.error fault, e) => (.error (.access fault), e)
  | (.ok f, e) =>
    match f.page.record? slot with
    | none => (.error (.record (.notFound id (.empty slot))), e)
    | some r => Engine.raised (e.delete tx r)

/-! ## What commands show -/

/-- The title of a column: its name, or its type if it has none. -/
def columnTitle (c : Column) : Text.Box.Cell :=
  .ofText (c.name.getD c.type.label) .left

/-- A field in a table. Numbers stand on the right. -/
def fieldCell (f : Field) : Text.Box.Cell :=
  .ofText f.plain (match f with
    | .int _ => .right
    | .text _ => .left)

/-- The cells of a record. -/
def rowCells (r : Record) : List Text.Box.Cell := r.fields.map fieldCell

/-- The records of a table in a box, and their number. -/
def showRecords (schema : Schema) (records : List Record) : String :=
  Text.Box.draw (schema.columns.map columnTitle) (records.map rowCells) ++
    s!"{records.length} rows\n"

/-- Some cell cannot be measured. -/
def hasUnmeasured (cells : List Text.Box.Cell) : Bool := cells.any Text.Box.Cell.isUnmeasured

/-- What is shown of a scan, unless it ended with a fault. The records before a fault are measured first: if
that breaks off, the fault is not told. -/
def showItems (schema : Schema) (items : List (Except AccessFault Record)) : Except EngineFault Reply :=
  if (items.filterMap Except.toOption).any fun r => hasUnmeasured (rowCells r) then .ok broken
  else match items.mapM id with
    | .error cause => .error (.access cause)
    | .ok records => .ok (success (showRecords schema records))

/-- What is shown of a table. Its titles are measured first. -/
def showTable (e : Engine) (tx : TxId) (table : Table) : Engine.Outcome EngineFault Reply :=
  let schema := table.file.schema
  if hasUnmeasured (schema.columns.map columnTitle) then (.ok broken, e)
  else
    let (items, e) := e.scan tx table.file.table
    (items >>= showItems schema, e)

/-! ## Running -/

/-- The reply to a command, and the disk afterwards. -/
def Command.run (settings : Settings) (disk : Disk) : Command → Reply × Disk
  | .convert input output types =>
    match disk.importText input output settings.pageSize types 0x2C with
    | (.ok n, disk) => (success s!"Wrote {n} records to {output}\n", disk)
    | (.error fault, disk) => (failure fault.form, disk)
  | .scan catalog table =>
    withTable settings disk catalog table showTable id
  | .insert catalog table values =>
    withTable settings disk catalog table (insertTexts values) fun place =>
      success s!"Inserted at page {place.page.number} slot {place.slot}\n"
  | .delete catalog table page slot =>
    withTable settings disk catalog table (deleteAt page slot) fun _ =>
      success s!"Deleted page {page} slot {slot}\n"

/-- The same once the settings have been read, or could not be. -/
def Command.attempt (settings : Except SettingsFault Settings) (disk : Disk) (c : Command) : Reply × Disk :=
  match settings with
  | .error fault => (failure fault.form, disk)
  | .ok settings => c.run settings disk

/-- The settings that an invocation asks for. -/
def Invocation.settings (i : Invocation) (disk : Disk) : Except SettingsFault Settings :=
  match i.config with
  | some name => Settings.load disk (Path.ofText name)
  | none => .ok {}

/-- The reply to the words of a command line, and the disk afterwards. -/
def run (disk : Disk) (words : List String) : Reply × Disk :=
  match parse words with
  | .error stop => (stop.reply, disk)
  | .ok i => i.command.attempt (i.settings disk) disk

end HeapStore.Shell
