import HeapStore.Text.Form

/-!
# Faults of the disk

* `IoFault`: a file or folder cannot be used.
* `FileFault`: a page of a file cannot be read or written.
-/

namespace HeapStore

/-- Why the disk refuses a file. -/
inductive IoFault where
  | notFound
  | notDirectory
  | isDirectory
  | alreadyExists
  | nameTooLong
  | nulInName
  | notText
deriving DecidableEq, Repr

namespace IoFault

/-- The kind of fault, by which messages name it. -/
def kind : IoFault → String
  | .notFound => "NotFound"
  | .notDirectory => "NotADirectory"
  | .isDirectory => "IsADirectory"
  | .alreadyExists => "AlreadyExists"
  | .nameTooLong => "InvalidFilename"
  | .nulInName => "InvalidInput"
  | .notText => "InvalidData"

def message (fault : IoFault) : String := s!"IO error: {fault.kind}"

open Text (quote)
open Text.Form

/-- A fault that the operating system reports by a number. -/
def systemForm (fault : IoFault) (code : Nat) (text : String) : String :=
  fields "Os" [("code", toString code), ("kind", fault.kind), ("message", quote text)]

/-- A fault that is found before the operating system is asked, or after it answered. -/
def ownForm (fault : IoFault) (text : String) : String :=
  fields "Error" [("kind", fault.kind), ("message", quote text)]

/-- The structured form of a fault. -/
def form (fault : IoFault) : String :=
  match fault with
  | .notFound => fault.systemForm 2 "No such file or directory"
  | .alreadyExists => fault.systemForm 17 "File exists"
  | .notDirectory => fault.systemForm 20 "Not a directory"
  | .isDirectory => fault.systemForm 21 "Is a directory"
  | .nameTooLong => fault.systemForm 36 "File name too long"
  | .nulInName => fault.ownForm "file name contained an unexpected NUL byte"
  | .notText => fault.ownForm "stream did not contain valid UTF-8"

end IoFault

/-- Why a page of a file is not read or written. -/
inductive FileFault where
  | io (cause : IoFault)
  | pageNotFound (number count : Nat)
  | pageOutOfRange (number count : Nat)
  | pageWidth (expected actual : Nat)

namespace FileFault

def message : FileFault → String
  | .io cause => cause.message
  | .pageNotFound number count =>
    s!"Page not found: page_no={number}, file holds {count} pages"
  | .pageOutOfRange number count =>
    s!"Page out of range: page_no={number}, file holds {count} pages"
  | .pageWidth expected actual => s!"Invalid page size: expected {expected}, got {actual}"

def label : FileFault → String
  | .io _ => "Io"
  | .pageNotFound .. => "PageNotFound"
  | .pageOutOfRange .. => "PageOutOfRange"
  | .pageWidth .. => "InvalidPageSize"

open Text.Form

/-- The structured form of a fault. -/
def form (fault : FileFault) : String :=
  match fault with
  | .io cause => tuple fault.label [cause.form]
  | .pageNotFound number count | .pageOutOfRange number count =>
    fields fault.label [("page_no", toString number), ("page_count", toString count)]
  | .pageWidth expected actual =>
    fields fault.label [("expected", toString expected), ("actual", toString actual)]

end FileFault

end HeapStore
