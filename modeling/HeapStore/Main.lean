import HeapStore.Shell.Files

/-!
# The program

Reads the files that the command line needs, runs the command on them, writes back what has changed, and
shows the reply.
-/

namespace HeapStore

/-- The number by which the operating system says that a file is a folder. -/
def folderCode : UInt32 := 21

/-- The disk with what lies at the end of a path, if the way there is known. -/
def readStage (disk : Disk) (path : Path) : IO Disk := do
  match disk.locate path with
  | .error _ => return disk
  | .ok here =>
    if (disk.node? here).isSome then return disk
    try
      return disk.set here (← IO.FS.readBinFile here.text).toList
    catch
      | .inappropriateType _ code _ =>
        return if code = folderCode then disk.addFolder here else disk
      | _ => return disk

/-- The disk with what lies at a path and on the way to it. -/
def readInto (disk : Disk) (path : Path) : IO Disk := path.stages.foldlM readStage disk

/-- Makes a folder, or writes a file. -/
def writeBack (here : Location) : Node → IO Unit
  | .folder => IO.FS.createDirAll here.text
  | .file content => IO.FS.writeBinFile here.text ⟨content.bytes.toArray⟩

end HeapStore

open HeapStore in
def main (words : List String) : IO UInt32 := do
  let disk ← (Shell.namedFiles words).foldlM readInto {}
  let disk ← (Shell.tableFiles disk words).foldlM readInto disk
  let (reply, after) := Shell.run disk words
  for (here, node) in Shell.changes disk after do writeBack here node
  IO.print reply.output
  IO.eprint reply.error
  return reply.exit.toUInt32
