import HeapStore.Text.Hidden

/-!
# Quoted texts

How messages show a text whose exact characters matter: between quotation marks, with a backslash
before quotation marks and backslashes, short names for the usual control characters, and a number in
braces for every other character that would not be seen.

* `quote`: the quoted form.
-/

namespace HeapStore.Text

/-- The digits of a number in base sixteen. -/
def hexDigits (n : Nat) : List Char := Nat.toDigits 16 n

/-- A character by its number. -/
def numbered (c : Char) : List Char := ['\\', 'u', '\x7b'] ++ hexDigits c.toNat ++ ['\x7d']

/-- A character inside quotation marks. -/
def quotedChar (c : Char) : List Char :=
  if c = '\x00' then ['\\', '0']
  else if c = '\t' then ['\\', 't']
  else if c = '\r' then ['\\', 'r']
  else if c = '\n' then ['\\', 'n']
  else if c = '\\' ∨ c = '"' then ['\\', c]
  else if isHidden c then numbered c
  else [c]

/-- A text in quotation marks. -/
def quoteChars (cs : List Char) : List Char := '"' :: (cs.flatMap quotedChar ++ ['"'])

/-- A text in quotation marks. -/
def quote (s : String) : String := String.ofList (quoteChars s.toList)

example : quote "a\"b\\\n\x00é\u0301" = "\"a\\\"b\\\\\\n\\0é\\u\x7b301\x7d\"" := by decide +kernel

end HeapStore.Text
