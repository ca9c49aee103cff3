/-!
# Pieces of JSON

Strings, numbers and whole values at the front of a text, each read or skipped up to its end. What is
wrong first is told by its kind: a character that cannot stand where it does, a value that does not
suit, or the end of the text inside a value.

* `readString`: the content of a string, and `skipString` where only its end is wanted. Halves of a pair of
  escapes are wrong in a string that is read, and not looked at in one that is skipped.
* `readNumber`: the parts of a number; `Number.tooLarge` holds for those that are read as infinity where
  numbers have 64 bits and a floating point.
* `skipValue`: any value.
* `mistyped`: what is wrong with a value where a whole number is asked for.
-/

namespace HeapStore.Json

/-- What is wrong with a text. -/
inductive Fault where
  | wrongCharacter
  | wrongValue
  | earlyEnd
deriving DecidableEq, Repr

def isSpace (c : Char) : Bool := c == ' ' || c == '\n' || c == '\t' || c == '\r'

def skipSpace (cs : List Char) : List Char := cs.dropWhile isSpace

/-! ## Strings -/

def hexValue? (c : Char) : Option Nat :=
  if c.isDigit then some (c.toNat - '0'.toNat)
  else if 'a' ≤ c ∧ c ≤ 'f' then some (c.toNat - 'a'.toNat + 10)
  else if 'A' ≤ c ∧ c ≤ 'F' then some (c.toNat - 'A'.toNat + 10)
  else none

/-- The number that hexadecimal digits spell. -/
def hexNumber? (digits : List Char) : Option Nat :=
  digits.foldlM (fun n c => (hexValue? c).map (16 * n + ·)) 0

/-- The character that a letter behind a backslash stands for. -/
def escaped? : Char → Option Char
  | '"' => some '"'
  | '\\' => some '\\'
  | '/' => some '/'
  | 'b' => some '\x08'
  | 'f' => some '\x0C'
  | 'n' => some '\n'
  | 'r' => some '\r'
  | 't' => some '\t'
  | _ => none

/-- A text ends inside an escape of four digits, or one of its characters is no digit. -/
def shortEscape (cs : List Char) : Fault :=
  if (cs.map Char.utf8Size).foldl (· + ·) 0 < 4 then .earlyEnd else .wrongCharacter

/-- The first half of a pair of escapes. -/
def isLead (n : Nat) : Bool := 0xD800 ≤ n && n < 0xDC00

/-- The second half of a pair of escapes. -/
def isTrail (n : Nat) : Bool := 0xDC00 ≤ n && n < 0xE000

/-- The character of a pair of escapes. -/
def paired (lead trail : Nat) : Char :=
  Char.ofNat ((lead - 0xD800) * 0x400 + (trail - 0xDC00) + 0x10000)

/-- The content of a string whose opening mark is read, and the text behind it. After the first half of
a pair of escapes, which is `lead`, only the second half may follow. -/
def readString (lead : Option Nat) : List Char → Except Fault (List Char × List Char)
  | [] => .error .earlyEnd
  | ['\\'] => .error .earlyEnd
  | '\\' :: 'u' :: a :: b :: c :: d :: cs =>
    match hexNumber? [a, b, c, d], lead with
    | none, _ => .error .wrongCharacter
    | some n, none =>
      if isTrail n then .error .wrongCharacter
      else if isLead n then readString (some n) cs
      else (readString none cs).map fun (s, rest) => (Char.ofNat n :: s, rest)
    | some n, some m =>
      if isTrail n then (readString none cs).map fun (s, rest) => (paired m n :: s, rest)
      else .error .wrongCharacter
  | '\\' :: 'u' :: cs => .error (shortEscape cs)
  | c :: cs =>
    if lead.isSome then .error .wrongCharacter
    else if c = '"' then .ok ([], cs)
    else if c = '\\' then
      match cs with
      | [] => .error .earlyEnd
      | e :: cs =>
        match escaped? e with
        | none => .error .wrongCharacter
        | some x => (readString none cs).map fun (s, rest) => (x :: s, rest)
    else if c < ' ' then .error .wrongCharacter
    else (readString none cs).map fun (s, rest) => (c :: s, rest)

/-- The text behind a string whose opening mark is read. -/
def skipString : List Char → Except Fault (List Char)
  | [] => .error .earlyEnd
  | ['\\'] => .error .earlyEnd
  | '\\' :: 'u' :: a :: b :: c :: d :: cs =>
    if (hexNumber? [a, b, c, d]).isSome then skipString cs else .error .wrongCharacter
  | '\\' :: 'u' :: cs => .error (shortEscape cs)
  | '\\' :: e :: cs => if (escaped? e).isSome then skipString cs else .error .wrongCharacter
  | c :: cs =>
    if c = '"' then .ok cs
    else if c < ' ' then .error .wrongCharacter
    else skipString cs

/-! ## Numbers -/

/-- A number as it is written. -/
structure Number where
  negative : Bool
  digits : List Char
  fraction : List Char
  /-- The digits behind the mark of the exponent, and whether they stand behind a minus sign. -/
  exponent : Option (Bool × List Char)

/-- Words are below this bound. -/
def wordBound : Nat := 0x10000000000000000

/-- The value of a digit. -/
def digitValue (c : Char) : Nat := c.toNat - '0'.toNat

/-- The value of digits. -/
def natOf (digits : List Char) : Nat := digits.foldl (fun n c => 10 * n + digitValue c) 0

/-- The word `n` with digits behind its own, as far as it stays a word, and the digits from the first on
that has no room. -/
def fillWord (n : Nat) : List Char → Nat × List Char
  | [] => (n, [])
  | c :: cs =>
    let filled := 10 * n + digitValue c
    if filled < wordBound then fillWord filled cs else (n, c :: cs)

/-- The closest number of 53 binary digits, with zeros behind them. Of two that are equally close it is the
one with an even last digit. -/
def round53 (n : Nat) : Nat :=
  let unit := Nat.pow 2 (Nat.log2 n + 1 - 53)
  let below := n / unit
  let excess := 2 * (n % unit)
  let digits := if unit < excess ∨ (unit = excess ∧ below % 2 = 1) then below + 1 else below
  digits * unit

/-- Digits at the front of a text, of which there must be one. `early` is the fault of a text that ends
before them. -/
def readDigits (early : Fault) (cs : List Char) : Except Fault (List Char × List Char) :=
  match cs.takeWhile Char.isDigit, cs.dropWhile Char.isDigit with
  | [], [] => .error early
  | [], _ => .error .wrongCharacter
  | digits, rest => .ok (digits, rest)

/-- The number at the front of a text, and the text behind it. -/
def readNumber (early : Fault) (cs : List Char) : Except Fault (Number × List Char) := do
  let (negative, cs) := match cs with
    | '-' :: cs => (true, cs)
    | cs => (false, cs)
  let (digits, cs) ← readDigits early cs
  if digits.head? = some '0' ∧ digits.length ≠ 1 then throw .wrongCharacter
  let (fraction, cs) ← match cs with
    | '.' :: cs => readDigits early cs
    | cs => .ok ([], cs)
  match cs with
  | c :: cs =>
    if c = 'e' ∨ c = 'E' then
      let (minus, cs) := match cs with
        | '-' :: cs => (true, cs)
        | '+' :: cs => (false, cs)
        | cs => (false, cs)
      let (exponent, cs) ← readDigits early cs
      .ok (⟨negative, digits, fraction, some (minus, exponent)⟩, cs)
    else .ok (⟨negative, digits, fraction, none⟩, c :: cs)
  | [] => .ok (⟨negative, digits, fraction, none⟩, [])

namespace Number

variable (x : Number)

/-- The power of ten that stands behind the mark of the exponent. -/
def shift : Int :=
  match x.exponent with
  | none => 0
  | some (minus, digits) => if minus then -(natOf digits : Int) else natOf digits

/-- The digits in front as a word, and the power of ten that the word counts. Digits before the point that
have no room in the word raise the power; digits behind it that have no room are dropped. -/
def floating : Nat × Int :=
  let (n, more) := fillWord 0 x.digits
  let (n, dropped) := fillWord n x.fraction
  (n, x.shift + more.length + dropped.length - x.fraction.length)

/-- Products that are rounded to infinity start here. -/
def limit : Nat := Nat.pow 2 1024 - Nat.pow 2 970

/-- The number is read as infinity. The word and the power of ten are rounded before they are multiplied, so
this holds for some numbers slightly below the greatest finite one too. -/
def tooLarge : Bool :=
  match x.floating with
  | (_, .negSucc _) => false
  | (n, .ofNat power) =>
    n != 0 && (309 ≤ power || limit ≤ round53 n * round53 (Nat.pow 10 power))

/-- The number, if it is whole and written without sign, point and exponent. -/
def whole? : Option Nat :=
  if x.negative ∨ x.fraction ≠ [] ∨ x.exponent.isSome then none else some (natOf x.digits)

end Number

/-! ## Any value -/

/-- The text behind a word. -/
def skipWord : (word : List Char) → List Char → Except Fault (List Char)
  | [], cs => .ok cs
  | _ :: _, [] => .error .earlyEnd
  | w :: word, c :: cs => if c = w then skipWord word cs else .error .wrongCharacter

/-- The text behind a value that is neither a list nor an object. -/
def skipPlain : List Char → Except Fault (List Char)
  | [] => .error .earlyEnd
  | 'n' :: cs => skipWord ['u', 'l', 'l'] cs
  | 't' :: cs => skipWord ['r', 'u', 'e'] cs
  | 'f' :: cs => skipWord ['a', 'l', 's', 'e'] cs
  | '"' :: cs => skipString cs
  | c :: cs =>
    if c = '-' ∨ c.isDigit then (readNumber .wrongCharacter (c :: cs)).map Prod.snd
    else .error .wrongCharacter

/-- A bracket that is open. -/
inductive Bracket where
  | list
  | object

/-- What comes next while a value is skipped. -/
inductive Awaits where
  | value
  /-- The end of the innermost bracket, or its first value. -/
  | first
  /-- The end of the innermost bracket, or a comma. -/
  | more

/-- The text behind the key and the colon before a value of an object. -/
def skipKey (cs : List Char) : Except Fault (List Char) := do
  match skipSpace cs with
  | '"' :: cs =>
    match skipSpace (← skipString cs) with
    | ':' :: cs => .ok cs
    | [] => .error .earlyEnd
    | _ => .error .wrongCharacter
  | [] => .error .earlyEnd
  | _ => .error .wrongCharacter

/-- The text before the next value of a bracket. -/
def enter : Bracket → List Char → Except Fault (List Char)
  | .list, cs => .ok cs
  | .object, cs => skipKey cs

/-- The text behind a value inside open brackets, the innermost first. Every two steps pass at least
one character, so twice the length of the text is enough steps. -/
def skipFrom : (steps : Nat) → Awaits → List Bracket → List Char → Except Fault (List Char)
  | 0, _, _, _ => .error .earlyEnd
  | _ + 1, .first, [], cs | _ + 1, .more, [], cs => .ok cs
  | n + 1, .value, opened, cs => do
    match skipSpace cs with
    | '[' :: cs => skipFrom n .first (.list :: opened) cs
    | '{' :: cs => skipFrom n .first (.object :: opened) cs
    | cs => skipFrom n .more opened (← skipPlain cs)
  | n + 1, state, b :: opened, cs => do
    match state, b, skipSpace cs with
    | _, .list, ']' :: cs => skipFrom n .more opened cs
    | _, .object, '}' :: cs => skipFrom n .more opened cs
    | .more, b, ',' :: cs => skipFrom n .value (b :: opened) (← enter b cs)
    | _, _, [] => .error .earlyEnd
    | .more, _, _ => .error .wrongCharacter
    | _, b, cs => skipFrom n .value (b :: opened) (← enter b cs)

/-- The text behind any value. -/
def skipValue (cs : List Char) : Except Fault (List Char) :=
  skipFrom (2 * cs.length + 2) .value [] cs

/-- What is wrong with the value at the front of a text where another kind of value is asked for. A value
that has a fault of its own is not compared with what is asked for. -/
def mistyped : List Char → Fault
  | [] => .wrongCharacter
  | '[' :: _ | '{' :: _ => .wrongValue
  | '"' :: cs => match readString none cs with
    | .ok _ => .wrongValue
    | .error fault => fault
  | c :: cs =>
    if c = '-' ∨ c.isDigit then
      match readNumber .earlyEnd (c :: cs) with
      | .ok (x, _) => if x.tooLarge then .wrongCharacter else .wrongValue
      | .error fault => fault
    else match skipPlain (c :: cs) with
      | .ok _ => .wrongValue
      | .error fault => fault

/-- The word at the front of a text, and the text behind it. -/
def readWord (cs : List Char) : Except Fault (Nat × List Char) :=
  match skipSpace cs with
  | [] => .error .earlyEnd
  | cs =>
    match readNumber .earlyEnd cs with
    | .ok (x, rest) =>
      match x.whole? with
      | some n => if n < wordBound then .ok (n, rest) else .error (mistyped cs)
      | none => .error (mistyped cs)
    | .error _ => .error (mistyped cs)

end HeapStore.Json
