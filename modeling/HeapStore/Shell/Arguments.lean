import HeapStore.Disk.Paged
import HeapStore.Row.Reading
import HeapStore.Shell.Help
import HeapStore.Text.Json

/-!
# Reading the command line

The words of a command line are flags, their values, and the verb. A flag is given as `--name value` or
as `--name=value`; a value that begins with a dash can only be given the second way.

* `Invocation`: what a command line asks for.
* `parse`: the invocation, or why there is none: help or the version is asked for, or the words are no
  command line.
-/

namespace HeapStore.Shell

inductive Command where
  | convert (input output : String) (types : List FieldType)
  | scan (catalog table : String)
  | insert (catalog table : String) (values : List String)
  | delete (catalog table : String) (page slot : Nat)

structure Invocation where
  config : Option String
  command : Command

/-- Why words are no invocation. -/
inductive Stop where
  | help (topic : Topic)
  | version
  | misuse

/-! ## Words -/

inductive Word where
  | plain (text : String)
  | flag (name : String) (value : Option String)
  | letter (first : Char)
  /-- Behind it there are no more flags. -/
  | divider

/-- The text before the first equals sign, and the text behind it if there is one. -/
def cutAtEquals (cs : List Char) : String × Option String :=
  (String.ofList (cs.takeWhile (· != '=')),
    ((cs.dropWhile (· != '=')).tail?).map String.ofList)

def Word.ofString (s : String) : Word :=
  match s.toList with
  | ['-', '-'] => .divider
  | '-' :: '-' :: cs => .flag (cutAtEquals cs).1 (cutAtEquals cs).2
  | '-' :: c :: _ => .letter c
  | _ => .plain s

/-! ## Values -/

/-- The value of a flag. -/
inductive Value where
  | text (text : String)
  | texts (texts : List String)
  | types (types : List FieldType)
  | number (n : Nat)

/-- The texts between commas. -/
def pieces (s : String) : List String :=
  (Text.split (· == ',') s.toList).map String.ofList

/-- The value that a word gives to a flag. -/
def Kind.read? (k : Kind) (s : String) : Option Value :=
  match k with
  | .path => if s = "" then none else some (.text s)
  | .text => some (.text s)
  | .texts => some (.texts (pieces s))
  | .types =>
    (((pieces s).mapM fun piece => FieldType.ofName? piece.toList).toOption).map .types
  | .page =>
    (Text.readInt s.toList).bind fun n =>
      if 0 ≤ n ∧ n < Paged.numberBound then some (.number n.toNat) else none
  | .slot => (Text.readCount s.toList).bind fun n =>
    if n < Json.wordBound then some (.number n) else none

/-- The flags that were given, with their values. -/
abbrev Given : Type := List (String × Value)

namespace Given

variable (given : Given)

/-- One flag more. Only a flag that holds a list may be given again. -/
def add (f : Flag) (word : String) : Except Stop Given :=
  if !f.kind.isList && (given.lookup f.name).isSome then .error .misuse
  else match f.kind.read? word with
    | some value => .ok (given ++ [(f.name, value)])
    | none => .error .misuse

def text? (name : String) : Option String :=
  match given.lookup name with
  | some (.text s) => some s
  | _ => none

def number? (name : String) : Option Nat :=
  match given.lookup name with
  | some (.number n) => some n
  | _ => none

/-- All texts of a list, of which there is at least one. -/
def texts? : Option (List String) :=
  match given.flatMap fun (_, value) => match value with
    | .texts texts => texts
    | _ => [] with
  | [] => none
  | texts => some texts

/-- All types of a list, of which there is at least one. -/
def types? : Option (List FieldType) :=
  match given.flatMap fun (_, value) => match value with
    | .types types => types
    | _ => [] with
  | [] => none
  | types => some types

/-- The command that flags describe, if none of them is missing. -/
def command? : Verb → Option Command
  | .convert => do some (.convert (← given.text? "input") (← given.text? "output") (← given.types?))
  | .scan => do some (.scan (← given.text? "catalog") (← given.text? "table"))
  | .insert => do some (.insert (← given.text? "catalog") (← given.text? "table") (← given.texts?))
  | .delete => do
    some (.delete (← given.text? "catalog") (← given.text? "table") (← given.number? "page")
      (← given.number? "slot"))

end Given

/-! ## Command lines -/

/-- One flag more among those that are known. -/
def take (known : List Flag) (given : Given) (name word : String) : Except Stop Given :=
  match known.find? fun f => f.name == name with
  | some f => given.add f word
  | none => .error .misuse

/-- The flags behind a verb. -/
def readFlags (v : Verb) (given : Given) : List String → Except Stop Given
  | [] => .ok given
  | w :: ws =>
    match Word.ofString w with
    | .plain _ => .error .misuse
    | .divider => if ws = [] then .ok given else .error .misuse
    | .letter c => .error (if c = 'h' then .help (.verb v) else .misuse)
    | .flag "help" none => .error (.help (.verb v))
    | .flag name (some word) => do
      let given ← take (.config :: v.flags) given name word
      readFlags v given ws
    | .flag name none =>
      match ws with
      | [] => .error .misuse
      | word :: ws =>
        match Word.ofString word with
        | .plain word => do
          let given ← take (.config :: v.flags) given name word
          readFlags v given ws
        | _ => .error .misuse

/-- What the words behind `help` ask for. -/
def readTopic : List String → Stop
  | [] => .help .program
  | [w] =>
    if w = "help" then .help .help
    else match Verb.ofName? w with
      | some v => .help (.verb v)
      | none => .misuse
  | _ => .misuse

/-- The invocation of a verb, given the flags before it and the words behind it. -/
def readVerb (before : Given) (v : Verb) (ws : List String) : Except Stop Invocation := do
  let given ← readFlags v [] ws
  match given.command? v with
  | some command => .ok ⟨given.text? "config" <|> before.text? "config", command⟩
  | none => .error .misuse

/-- The invocation of the words behind the given flags. -/
def parseFrom (given : Given) : List String → Except Stop Invocation
  | [] => .error .misuse
  | w :: ws =>
    match Word.ofString w with
    | .divider => .error .misuse
    | .letter 'h' => .error (.help .program)
    | .letter 'V' => .error .version
    | .letter _ => .error .misuse
    | .flag "help" none => .error (.help .program)
    | .flag "version" none => .error .version
    | .flag name (some word) => do
      let given ← take [.config] given name word
      parseFrom given ws
    | .flag name none =>
      match ws with
      | [] => .error .misuse
      | word :: ws =>
        match Word.ofString word with
        | .plain word => do
          let given ← take [.config] given name word
          parseFrom given ws
        | _ => .error .misuse
    | .plain word =>
      match Verb.ofName? word with
      | some v => readVerb given v ws
      | none => .error (if word = "help" then readTopic ws else .misuse)

/-- The invocation that the words of a command line ask for. -/
def parse (words : List String) : Except Stop Invocation := parseFrom [] words

end HeapStore.Shell
