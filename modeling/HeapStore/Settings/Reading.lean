import HeapStore.Disk.Basic
import HeapStore.Settings.Basic

/-!
# Files of settings

Settings are stored as a JSON object with one member for each setting. When it is read, members with
other keys are skipped, a key may not come twice, and a setting that is missing keeps its standard value.
A list of the values, in the order of the settings and possibly shorter, stands for the object.

* `Settings.parse`: the settings that a text stands for, or what is wrong with it first.
* `Settings.render`: the text of settings.
* `Settings.load`: the settings in a file, if an engine can work with them.
-/

namespace HeapStore.Settings

open Json

/-- The settings by their keys. -/
inductive Key where
  | pageSize
  | bufferPages
  | lockTimeoutMs
deriving DecidableEq, Repr

namespace Key

def name : Key → String
  | .pageSize => "page_size"
  | .bufferPages => "buffer_pages"
  | .lockTimeoutMs => "lock_timeout_ms"

/-- The keys in their order. -/
def all : List Key := [.pageSize, .bufferPages, .lockTimeoutMs]

/-- The key with a name. -/
def ofName? (name : List Char) : Option Key := all.find? fun key => key.name.toList == name

end Key

/-- The value of a setting. -/
def get (s : Settings) : Key → Nat
  | .pageSize => s.pageSize
  | .bufferPages => s.bufferPages
  | .lockTimeoutMs => s.lockTimeoutMs

/-- The settings with another value of one of them. -/
def set (s : Settings) (key : Key) (n : Nat) : Settings :=
  match key with
  | .pageSize => { s with pageSize := n }
  | .bufferPages => { s with bufferPages := n }
  | .lockTimeoutMs => { s with lockTimeoutMs := n }

/-! ## Reading -/

/-- What stands next in a list or an object: a value or member, or its end. -/
inductive Next where
  | item (text : List Char)
  | closed (behind : List Char)

/-- What stands next. There is a comma before each item but the first. -/
def next (close : Char) (first : Bool) (cs : List Char) : Except Fault Next :=
  match skipSpace cs with
  | [] => .error .earlyEnd
  | c :: cs =>
    if c = close then .ok (.closed cs)
    else if first then .ok (.item (c :: cs))
    else if c ≠ ',' then .error .wrongCharacter
    else match skipSpace cs with
      | [] => .error .earlyEnd
      | c :: cs => if c = close then .error .wrongCharacter else .ok (.item (c :: cs))

/-- The values of a list, one for each key as far as they go, and the text behind the list. -/
def readList (first : Bool) (s : Settings) : List Key → List Char → Except Fault (Settings × List Char)
  | [], cs =>
    match skipSpace cs with
    | ']' :: cs => .ok (s, cs)
    | [] => .error .earlyEnd
    | _ => .error .wrongCharacter
  | key :: keys, cs => do
    match ← next ']' first cs with
    | .closed cs => .ok (s, cs)
    | .item cs =>
      let (n, cs) ← readWord cs
      readList false (s.set key n) keys cs

/-- The text behind the colon before a value. -/
def skipColon (cs : List Char) : Except Fault (List Char) :=
  match skipSpace cs with
  | ':' :: cs => .ok cs
  | [] => .error .earlyEnd
  | _ => .error .wrongCharacter

/-- One member of an object: the settings with it, the keys that may still come, and the text behind
it. -/
def readMember (s : Settings) (left : List Key) (cs : List Char) :
    Except Fault (Settings × List Key × List Char) := do
  let '"' :: cs := cs | throw .wrongCharacter
  let (name, cs) ← readString none cs
  match Key.ofName? name with
  | none => .ok (s, left, ← skipValue (← skipColon cs))
  | some key =>
    if key ∉ left then throw .wrongValue
    let (n, cs) ← readWord (← skipColon cs)
    .ok (s.set key n, left.erase key, cs)

/-- The members of an object, and the text behind it. A member is not empty, so the length of the text
is enough steps. -/
def readObject : (steps : Nat) → (first : Bool) → Settings → (left : List Key) → List Char →
    Except Fault (Settings × List Char)
  | 0, _, _, _, _ => .error .earlyEnd
  | n + 1, first, s, left, cs => do
    match ← next '\x7d' first cs with
    | .closed cs => .ok (s, cs)
    | .item cs =>
      let (s, left, cs) ← readMember s left cs
      readObject n false s left cs

/-- The settings that a text stands for. -/
def parse (cs : List Char) : Except Fault Settings := do
  let (s, rest) ← match skipSpace cs with
    | [] => .error .earlyEnd
    | '[' :: cs => readList true {} Key.all cs
    | '\x7b' :: cs => readObject (cs.length + 1) true {} Key.all cs
    | cs => .error (mistyped cs)
  if skipSpace rest = [] then .ok s else .error .wrongCharacter

/-! ## Writing -/

/-- The line of a setting. -/
def renderMember (s : Settings) (key : Key) : String :=
  "  " ++ Text.quote key.name ++ ": " ++ toString (s.get key)

/-- The text of settings. -/
def render (s : Settings) : String :=
  "\x7b\n" ++ ",\n".intercalate (Key.all.map s.renderMember) ++ "\n\x7d"

/-! ## Files -/

/-- The settings in a file, if an engine can work with them. -/
def load (disk : Disk) (path : Path) : Except SettingsFault Settings :=
  match disk.text path with
  | .error cause => .error (.io cause)
  | .ok text =>
    match parse text.toList with
    | .error cause => .error (.json cause)
    | .ok s => s.validate

/-- The disk with the settings in a file. -/
def save (s : Settings) (disk : Disk) (path : Path) : Except SettingsFault Disk :=
  match disk.target path with
  | .error cause => .error (.io cause)
  | .ok location => .ok (disk.set location (Bytes.ofText s.render))

end HeapStore.Settings
