import HeapStore.Text.Quoted

/-!
# Structured forms

Faults and cursors are reported in full as nested forms: a name with its parts in order, as in
`Page(1, 2)`, or a name with named parts, as in `Page { table: 1 }`.

* `tuple`, `fields`: the two forms.
* `optional`: a part that may be missing.
-/

namespace HeapStore.Text.Form

/-- A name with its parts in order. -/
def tuple (name : String) (parts : List String) : String :=
  name ++ "(" ++ ", ".intercalate parts ++ ")"

/-- A name with named parts. -/
def fields (name : String) (parts : List (String × String)) : String :=
  name ++ " \x7b " ++ ", ".intercalate (parts.map fun (key, part) => key ++ ": " ++ part) ++ " \x7d"

/-- A part that may be missing. -/
def optional : Option String → String
  | some part => tuple "Some" [part]
  | none => "None"

end HeapStore.Text.Form
