import HeapStore.Disk.Fault
import HeapStore.Disk.Path
import HeapStore.Text.Utf8
import Std.Data.ExtTreeMap.Lemmas

/-!
# The disk

Folders and files, each at its location. A path is followed name by name to the location where it leads;
that only works as long as each name but the last is that of a folder.

* `Disk.locate`: where a path leads.
* `Disk.bytes`, `Disk.text`: what the file at a path holds.
* `Disk.create`: a file that is there afterwards, empty if it was missing. The folders on the way are made
  first, and stay if the file cannot be made after all.
* `Disk.held`, `Disk.set`: what the file at a location holds, and the disk with another file there.
* `Disk.size`: how many bytes that is, which is known without a look at them (`size_eq`).
-/

namespace HeapStore

open Std

/-- Where a file or folder lies: the names from the base folder or the topmost folder on. -/
abbrev Location := List String

namespace Location

/-- The name of the topmost folder. -/
def root : String := "/"

/-- The name of the folder above. -/
def up : String := ".."

/-- The location is that of a folder above the base folder, or of the base folder itself. -/
def isAbove (here : Location) : Bool := here.all fun name => name == root || name == up

/-- The location of the folder above. There is none above the topmost one, which stands for it. -/
def parent (here : Location) : Location :=
  if here = [root] then here
  else if here.isAbove then here ++ [up]
  else here.dropLast

/-- The location of a name in the folder at a location. -/
def step (here : Location) (name : String) : Except IoFault Location :=
  if name = up then .ok here.parent
  else if Path.maxNameBytes < (Bytes.ofText name).length then .error .nameTooLong
  else .ok (here ++ [name])

/-- A text by which the location is found from the base folder. -/
def text : Location → String
  | [] => "."
  | first :: rest =>
    if first = root then root ++ "/".intercalate rest else "/".intercalate (first :: rest)

end Location

namespace Path

variable (p : Path)

/-- Where a path starts. -/
def start : Location := if p.rooted then [Location.root] else []

/-- A path that is not even looked at is refused. -/
def check : Except IoFault Unit :=
  if p.text.toList.contains '\x00' then .error .nulInName
  else if maxBytes < (Bytes.ofText p.text).length then .error .nameTooLong
  else .ok ()

end Path

/-- What a file holds: the bytes that were written, and behind them zeros that never were. A file that was
made longer from outside ends in such zeros, and there may be more of them than fit in memory. -/
structure Content where
  written : Bytes
  blank : Nat := 0
deriving DecidableEq

namespace Content

variable (c : Content)

/-- All the bytes. -/
def bytes : Bytes := if c.blank = 0 then c.written else c.written ++ Bytes.zeros c.blank

/-- How many bytes there are. -/
def length : Nat := c.written.length + c.blank

@[simp] theorem bytes_written (bytes : Bytes) : Content.bytes ⟨bytes, 0⟩ = bytes := if_pos rfl

@[simp] theorem length_bytes : c.bytes.length = c.length := by
  unfold bytes length
  split
  next h => omega
  next => rw [List.length_append, Bytes.length_zeros]

end Content

/-- What lies at a location. -/
inductive Node where
  | folder
  | file (content : Content)
deriving DecidableEq

structure Disk where
  nodes : ExtTreeMap Location Node := {}

namespace Disk

variable (d : Disk)

/-- What lies at a location. -/
def node? (here : Location) : Option Node :=
  if here.isAbove then some .folder else d.nodes[here]?

/-- The disk with a file, whether it was there before or not. -/
def set (here : Location) (bytes : Bytes) : Disk := ⟨d.nodes.insert here (.file ⟨bytes, 0⟩)⟩

/-- The disk with a folder. -/
def addFolder (here : Location) : Disk := ⟨d.nodes.insert here .folder⟩

/-! ## Following paths -/

/-- There is a folder at the location. -/
def needFolder (here : Location) : Except IoFault Unit :=
  match d.node? here with
  | some .folder => .ok ()
  | some (.file _) => .error .notDirectory
  | none => .error .notFound

/-- Where names lead, one after another, from a location on. -/
def follow : Location → (names : List String) → Except IoFault Location
  | here, [] => .ok here
  | here, name :: names => do
    d.needFolder here
    follow (← here.step name) names

/-- Where a path leads. There may be nothing there, unless more than the last name says that it is a
folder. -/
def locate (p : Path) : Except IoFault Location := do
  p.check
  let here ← d.follow p.start p.names
  if p.ending ≠ .nothing then d.needFolder here
  .ok here

/-- What the file at a location holds. -/
def held (here : Location) : Except IoFault Bytes :=
  match d.node? here with
  | some (.file content) => .ok content.bytes
  | some .folder => .error .isDirectory
  | none => .error .notFound

/-- How many bytes the file at a location holds. -/
def size (here : Location) : Except IoFault Nat :=
  match d.node? here with
  | some (.file content) => .ok content.length
  | some .folder => .error .isDirectory
  | none => .error .notFound

theorem size_eq (here : Location) : d.size here = (d.held here).map List.length := by
  unfold size held
  split <;> simp [Except.map]

/-- What the file at a path holds. -/
def bytes (p : Path) : Except IoFault Bytes := do d.held (← d.locate p)

/-- The text of the file at a path. -/
def text (p : Path) : Except IoFault String := do
  match Text.Utf8.decode (← d.bytes p) with
  | .ok text => .ok text
  | .error _ => .error .notText

/-! ## Making folders and files -/

/-- The folder at a location, which is new if nothing was there. -/
def haveFolder (here : Location) : Except IoFault Location × Disk :=
  match d.node? here with
  | some .folder => (.ok here, d)
  | some (.file _) => (.error .alreadyExists, d)
  | none => (.ok here, d.addFolder here)

/-- The location of the folder at a path, after it was made if it was missing. The folders above it are made
first if the way to it is not there. -/
def makeFolders (d : Disk) (p : Path) : Except IoFault Location × Disk :=
  match _ : p.names.getLast? with
  | none => (.ok p.start, d)
  | some name =>
    match d.locate p with
    | .ok here => d.haveFolder here
    | .error .notFound =>
      match makeFolders d p.folder with
      | (.error fault, d) => (.error fault, d)
      | (.ok above, d) =>
        match above.step name with
        | .error fault => (.error fault, d)
        | .ok here => d.haveFolder here
    | .error fault => (.error fault, d)
termination_by p.names.length
decreasing_by
  have : p.names ≠ [] := fun _ => by simp_all
  have := List.length_pos_iff.mpr this
  simp only [Path.folder, List.length_dropLast]
  omega

/-- Where the file at a path is written. -/
def target (p : Path) : Except IoFault Location := do
  p.check
  if p.ending = .slash then throw .isDirectory
  let here ← d.locate p
  if d.node? here = some .folder then throw .isDirectory
  .ok here

/-- The location of the file at a path, after it was made if it was missing, and the folders above it
too. -/
def create (p : Path) : Except IoFault Location × Disk :=
  match d.makeFolders p.folder with
  | (.error fault, d) => (.error fault, d)
  | (.ok _, d) =>
    match d.target p with
    | .error fault => (.error fault, d)
    | .ok here => (.ok here, if (d.node? here).isNone then d.set here [] else d)

end Disk

end HeapStore
