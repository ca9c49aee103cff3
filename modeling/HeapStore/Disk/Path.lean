import HeapStore.Bytes
import HeapStore.Text.Split

/-!
# Paths

A path is the way to a file or folder as it is written: names between slashes. A slash in front means that
it starts at the topmost folder, otherwise it starts at the base folder. A dot stays where the way has led so
far, two dots lead to the folder above. Where a path leads is for the disk to say, since two dots behind the
name of a file, or behind a name that is missing, lead nowhere.

* `Path.ofText`: the path that a text stands for, and `Path.text` the text of a path.
* `Path.folder`: the path without its last name.
* `Path.within`: the path of a text that is looked up in a folder.
-/

namespace HeapStore

/-- What stands behind the last name of a path. -/
inductive PathEnd where
  | nothing
  | slash
  /-- A dot behind a slash. -/
  | dot
deriving DecidableEq, Repr

structure Path where
  /-- There is a slash in front. -/
  rooted : Bool
  /-- The names between slashes, without single dots. -/
  names : List String
  ending : PathEnd
deriving DecidableEq, Repr

namespace Path

/-- The pieces of a text between slashes. -/
def pieces (s : String) : List (List Char) := Text.split (· == '/') s.toList

/-- What stands behind the last name, given the pieces of a text. -/
def endOf (pieces : List (List Char)) : PathEnd :=
  if (pieces.filter fun piece => !piece.isEmpty).getLast? = some ['.'] then .dot
  else if pieces.getLast? = some [] then .slash
  else .nothing

/-- The path that a text stands for. -/
def ofText (s : String) : Path :=
  { rooted := s.toList.head? = some '/'
    names := ((pieces s).filter fun piece => piece ≠ [] ∧ piece ≠ ['.']).map String.ofList
    ending := endOf (pieces s) }

variable (p : Path)

/-- The text of a path, without what can be left out. -/
def text : String :=
  (if p.rooted then "/" else "") ++ "/".intercalate p.names ++
    match p.ending with
    | .nothing => ""
    | .slash => "/"
    | .dot => "/."

/-- The path without its last name. -/
def folder : Path := { p with names := p.names.dropLast, ending := .nothing }

/-- The paths on the way: to the first name, to the second, and so on. -/
def stages : List Path :=
  (List.range p.names.length).map fun n =>
    { p with names := p.names.take (n + 1), ending := .nothing }

/-- The path of a text that is looked up in the folder at a path. -/
def within (s : String) : Path :=
  let behind := ofText s
  if behind.rooted then behind else { behind with rooted := p.rooted, names := p.names ++ behind.names }

/-- The number of bytes of a name is at most this. -/
def maxNameBytes : Nat := 255

/-- The number of bytes of a path is at most this. -/
def maxBytes : Nat := 4095

end Path

example : (Path.ofText "./a//b/../c/.").names = ["a", "b", "..", "c"] := by decide +kernel

example : (Path.ofText "/a/b/./").text = "/a/b/." := by decide +kernel

example : ((Path.ofText "a/b.txt").folder.within "c/d.dat").text = "a/c/d.dat" := by decide +kernel

end HeapStore
