import HeapStore.Shell.Command

/-!
# The files of a command line

A command line names files, and the catalog among them names tables, whose files lie beside it. Nothing
else is read or written.

* `namedFiles`, `tableFiles`: the two kinds of files.
* `changes`: what a command has changed.
-/

namespace HeapStore.Shell

/-- The files that a command names. -/
def Command.files : Command → List String
  | .convert input output _ => [input, output]
  | .scan catalog _ | .insert catalog _ _ | .delete catalog _ _ _ => [catalog]

/-- The catalog of a command that uses one. -/
def Command.catalog? : Command → Option String
  | .convert .. => none
  | .scan catalog _ | .insert catalog _ _ | .delete catalog _ _ _ => some catalog

/-- The files that the words of a command line name. -/
def namedFiles (words : List String) : List Path :=
  match parse words with
  | .error _ => []
  | .ok i => (i.config.toList ++ i.command.files).map Path.ofText

/-- The files of the tables of the catalog that the words of a command line name. -/
def tableFiles (disk : Disk) (words : List String) : List Path :=
  match parse words with
  | .error _ => []
  | .ok i =>
    (i.command.catalog?.toList.map Path.ofText).flatMap fun path =>
      match Catalog.definitions disk path with
      | .error _ => []
      | .ok ds => ds.map fun d => path.folder.within (Catalog.fileName d.name)

/-- What was not there before, or not as it is, with its location. A folder comes before what is in it. -/
def changes (before after : Disk) : List (Location × Node) :=
  after.nodes.toList.filter fun (location, node) => before.node? location ≠ some node

end HeapStore.Shell
