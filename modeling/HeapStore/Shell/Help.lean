import HeapStore.Shell.Flag

/-!
# Help on the command line

* `Topic.text`: what is shown about the program, a verb, or help itself.
* `versionText`: the name and the version of the program.
-/

namespace HeapStore.Shell

/-- What help is asked for. -/
inductive Topic where
  | program
  | verb (v : Verb)
  | help

def programName : String := "heapdb"

def versionText : String := programName ++ " 0.1.0\n"

/-- The text with spaces behind it up to a width. -/
def pad (width : Nat) (text : String) : String :=
  text ++ String.ofList (List.replicate (width - text.length) ' ')

/-- Lines of two columns, the second of which begins two places behind the widest entry of the first. -/
def twoColumns (lines : List (String × String)) : String :=
  let widest := (lines.map fun (left, _) => left.length).foldl max 0
  String.join (lines.map fun (left, right) => pad (widest + 2) left ++ right ++ "\n")

/-- How usage shows a flag with its value. -/
def Flag.usage (f : Flag) : String := s!"--{f.name} <{f.name.toUpper}>"

/-- How the list of flags shows a flag. -/
def Flag.entry (f : Flag) : String × String := ("      " ++ f.usage, f.about)

def helpEntry : String × String := ("  -h, --help", "Print help")

def versionEntry : String × String := ("  -V, --version", "Print version")

def helpAbout : String := "Print this message or the help of the given subcommand(s)"

/-- How usage shows the words behind `help`. -/
def helpWords : String := "[COMMAND]..."

/-- The verbs, with help as the last of them. -/
def verbList : String :=
  "Commands:\n" ++
    twoColumns (Verb.all.map (fun v => ("  " ++ v.name, v.about)) ++ [("  help", helpAbout)])

/-- The flags of a verb and the flag that names a file of settings. The latter stands beside the first
flag of the verb, in the order of their names. -/
def Verb.listedFlags (v : Verb) : List Flag :=
  match v.flags with
  | [] => [.config]
  | f :: fs => (if f.name < Flag.config.name then [f, .config] else [.config, f]) ++ fs

def flagList (entries : List (String × String)) : String := "Options:\n" ++ twoColumns entries

def usage (words : List String) : String :=
  "Usage: " ++ " ".intercalate (programName :: words) ++ "\n\n"

/-- What help shows. -/
def Topic.text : Topic → String
  | .program =>
    "Page-based heap file storage engine\n\n" ++ usage ["[OPTIONS]", "<COMMAND>"] ++
      verbList ++ "\n" ++ flagList [Flag.config.entry, helpEntry, versionEntry]
  | .verb v =>
    v.about ++ "\n\n" ++ usage (v.name :: "[OPTIONS]" :: v.flags.map Flag.usage) ++
      flagList (v.listedFlags.map Flag.entry ++ [helpEntry])
  | .help =>
    helpAbout ++ "\n\n" ++ usage ["help", helpWords] ++
      "Arguments:\n" ++ twoColumns [("  " ++ helpWords, "Print help for the subcommand(s)")]

end HeapStore.Shell
