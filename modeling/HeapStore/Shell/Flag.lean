/-!
# Flags of the command line

A command line has a verb, and each verb has flags, all of which must be given a value. The flag `config`
may stand before the verb or among its flags.

* `Verb.flags`: the flags of a verb in the order in which its usage lists them.
* `Kind`: what the value of a flag may be.
-/

namespace HeapStore.Shell

/-- What the value of a flag is. -/
inductive Kind where
  | path
  | text
  /-- Texts between commas. -/
  | texts
  /-- Types of fields between commas. -/
  | types
  /-- The number of a page. -/
  | page
  /-- The number of a slot. -/
  | slot
deriving DecidableEq

/-- The kind holds a list, and values of a flag that is given again are added to it. -/
def Kind.isList : Kind → Bool
  | .texts | .types => true
  | .path | .text | .page | .slot => false

structure Flag where
  name : String
  kind : Kind
  about : String := ""
deriving DecidableEq

/-- The flag that names a file of settings. -/
def Flag.config : Flag :=
  ⟨"config", .path, "JSON engine configuration; defaults are used when omitted"⟩

/-- What is asked for. -/
inductive Verb where
  | convert
  | scan
  | insert
  | delete
deriving DecidableEq

namespace Verb

def all : List Verb := [.convert, .scan, .insert, .delete]

def name : Verb → String
  | .convert => "convert"
  | .scan => "scan"
  | .insert => "insert"
  | .delete => "delete"

def about : Verb → String
  | .convert => "Convert a comma separated text file into a heap file"
  | .scan => "Print every record of a table"
  | .insert => "Insert one record and commit"
  | .delete => "Delete the record at a page and slot and commit"

def ofName? (name : String) : Option Verb := all.find? fun v => v.name == name

/-- The flags of a verb. -/
def flags : Verb → List Flag
  | .convert =>
    [{ name := "input", kind := .path }, { name := "output", kind := .path },
      { name := "types", kind := .types, about := "Field types, e.g. int,int,string" }]
  | .scan => [{ name := "catalog", kind := .path }, { name := "table", kind := .text }]
  | .insert =>
    [{ name := "catalog", kind := .path }, { name := "table", kind := .text },
      { name := "values", kind := .texts }]
  | .delete =>
    [{ name := "catalog", kind := .path }, { name := "table", kind := .text },
      { name := "page", kind := .page }, { name := "slot", kind := .slot }]

end Verb

end HeapStore.Shell
