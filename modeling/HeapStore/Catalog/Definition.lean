import HeapStore.Catalog.Fault
import HeapStore.Row.Reading

/-!
# Table definitions

A table is defined on one line, as in `people (id int pk, name string)`: its name, and in parentheses
its columns, each with a name, a type, and perhaps the mark of the primary key.

* `cutFirst`, `cutLast`: the text before and behind the first, or the last, of some character.
* `Definition.parse`: the definition that a line stands for, or what is wrong with it first.
-/

namespace HeapStore

open Text (split trim words)

/-- The definition of a table. -/
structure Definition where
  name : String
  schema : Schema
  key : Option String

/-- The text before and behind the first occurrence of a character. -/
def cutFirst (mark : Char) : List Char → Option (List Char × List Char)
  | [] => none
  | c :: cs =>
    if c = mark then some ([], cs)
    else (cutFirst mark cs).map fun (before, behind) => (c :: before, behind)

/-- The text before and behind the last occurrence of a character. -/
def cutLast (mark : Char) (cs : List Char) : Option (List Char × List Char) :=
  (cutFirst mark cs.reverse).map fun (behind, before) => (before.reverse, behind.reverse)

namespace Definition

/-- The mark of the primary key. -/
def keyMark : List Char := ['p', 'k']

/-- The type that a word names. -/
def readType (line : Nat) (word : List Char) : Except CatalogFault FieldType :=
  (FieldType.ofName? word).mapError fun _ => .unknownType line (String.ofList word)

/-- The column that a text defines, and whether it is the primary key. -/
def readColumn (line : Nat) (text : List Char) : Except CatalogFault (Column × Bool) :=
  match words text with
  | [name, type] => do .ok (⟨← readType line type, some (String.ofList name)⟩, false)
  | [name, type, mark] => do
    let type ← readType line type
    if mark = keyMark then .ok (⟨type, some (String.ofList name)⟩, true)
    else .error (.unknownMark line (String.ofList mark))
  | _ => .error (.malformed line (.column (String.ofList (trim text))))

/-- The columns that texts define, and the name of the last one marked as the primary key. -/
def readColumns (line : Nat) : (texts : List (List Char)) →
    Except CatalogFault ({ columns : List Column // columns.length = texts.length } × Option String)
  | [] => .ok (⟨[], rfl⟩, none)
  | text :: texts => do
    let (column, isKey) ← readColumn line text
    let (⟨columns, h⟩, key) ← readColumns line texts
    .ok (⟨column :: columns, congrArg Nat.succ h⟩,
      key <|> if isKey then column.name else none)

/-- The definition with the given name, and with the columns between the parentheses. -/
def ofParts (line : Nat) (name columns : List Char) : Except CatalogFault Definition := do
  if name = [] then throw (.malformed line .noName)
  let (⟨columns, h⟩, key) ← readColumns line (split (· == ',') columns)
  .ok
    { name := String.ofList name
      schema := ⟨columns, by
        rw [← List.length_pos_iff, h, List.length_pos_iff]
        exact Text.split_ne_nil _⟩
      key }

/-- The definition on a line, whose number is told if something is wrong with it. -/
def parse (line : Nat) (text : List Char) : Except CatalogFault Definition :=
  match cutFirst '(' text with
  | none => .error (.malformed line .noOpening)
  | some (name, rest) =>
    match cutLast ')' rest with
    | some (columns, _) => ofParts line (trim name) columns
    | none => .error (.malformed line (if ')' ∈ name then .misordered else .noClosing))

/-- The same name, types and primary key; names of columns play no part. -/
def Same (a b : Definition) : Prop :=
  a.name = b.name ∧ a.schema.types = b.schema.types ∧ a.key = b.key

instance (a b : Definition) : Decidable (a.Same b) :=
  inferInstanceAs (Decidable (_ ∧ _ ∧ _))

/-- The definitions on the lines of a text. Blank lines define nothing. -/
def parseAll (text : List Char) : Except CatalogFault (List Definition) :=
  ((Text.lines text).zipIdx.filter fun (line, _) => !(trim line).isEmpty).mapM
    fun (line, index) => parse (index + 1) line

end Definition

end HeapStore
