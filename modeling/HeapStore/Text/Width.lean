import HeapStore.Text.WidthTables

/-!
# Width of texts

How many columns of a terminal a text takes. Most characters take one, those of East Asian scripts and most
pictures two, and marks on other characters none. But characters melt: a picture with its modifiers, pictures
that are joined to one, and the letters of a flag take the columns of one picture, and in some scripts two
letters take the place of one. Whether a character melts with the ones behind it is known from these, so a
text is measured from its end on.

* `charWidth`: the columns of a character alone.
* `columns`: the columns that a character adds to the text behind it.
* `width`: the columns of a text.
* `shownWidth`: the columns of a text without the escape sequences in it that set colours; `isUnmeasured`
  holds for the few texts for which they cannot be told.
-/

namespace HeapStore.Text

/-! ## Characters -/

/-- One of the letters that flags are made of. -/
def isIndicator (c : Char) : Bool := 0x1F1E6 ≤ c.toNat && c.toNat ≤ 0x1F1FF

/-- A modifier of the picture before it. -/
def isModifier (c : Char) : Bool := 0x1F3FB ≤ c.toNat && c.toNat ≤ 0x1F3FF

/-- A letter as a tag. -/
def isTagLetter (c : Char) : Bool := 0xE0061 ≤ c.toNat && c.toNat ≤ 0xE007A

/-- A digit as a tag. -/
def isTagDigit (c : Char) : Bool := 0xE0030 ≤ c.toNat && c.toNat ≤ 0xE0039

/-- The columns of a character that stands alone. Control characters have none. -/
def charWidth (c : Char) : Nat :=
  if c.toNat < 0x20 ∨ (0x7F ≤ c.toNat ∧ c.toNat < 0xA0) then 0
  else if inRanges zeroRanges c then 0
  else if c.toNat = 0x17D8 then 3
  else if inRanges wideRanges c then 2
  else 1

/-! ## What follows a character -/

/-- The letters that melt with letters before them. -/
inductive Letter where
  /-- An Arabic alef, before which a lam takes no column. -/
  | alef
  /-- A Hebrew lamed, which an alef can be joined to. -/
  | lamed
  /-- A Khmer letter that can be written below the one before it. -/
  | subscript
  /-- A Buginese ya, and one with the vowel before it that is joined to it. -/
  | ya
  | vowelYa
  /-- A Tifinagh consonant, and one with the sign before it that binds two consonants. -/
  | consonant
  | boundConsonant
  /-- A Lisu tone letter that can be the second of two. -/
  | tone
  /-- An Old Turkic letter that another one can be joined to. -/
  | orkhon
deriving DecidableEq, Repr

/-- Characters that letters melt across may stand before the letter. -/
def Letter.reachesOver : Letter → Bool
  | .alef => false
  | _ => true

/-- What a text begins with. -/
inductive Front where
  | plain
  | lineFeed
  /-- A letter, and whether there is a joiner before it. -/
  | letter (which : Letter) (joined : Bool)
  /-- Kirat Rai vowels that melt with others before them. -/
  | vowelE
  | vowelAi
  | picture
  | modifier
  /-- One letter of a flag, and two or more of them. -/
  | indicator
  | indicators
  /-- A joiner before a picture, and one with a frame for keys before it. -/
  | joiner
  | framedJoiner
  /-- Letters of flags before a joiner: one, an even number, an odd number from three on. -/
  | joinedIndicator
  | joinedPairs
  | joinedOdd
  /-- The last tag before a joiner, with a number of letters before it, or of digits before these. -/
  | tagLetters (count : Nat)
  | tagDigits (count : Nat)
deriving DecidableEq, Repr

/-- What a text begins with, and which signs that choose the form of a character stand before it. -/
structure Ahead where
  front : Front := .plain
  asPicture : Bool := false
  asText : Bool := false
deriving DecidableEq, Repr

/-- Asks for the character before it as a picture. -/
def pictureSign : Char := '\uFE0F'

/-- Asks for the character before it as text. -/
def textSign : Char := '\uFE0E'

/-- Joins the characters around it. -/
def joinSign : Char := '\u200D'

/-- What a text begins with if its first character melts with nothing. -/
def frontOf (c : Char) : Front :=
  if isIndicator c then .indicator
  else if isModifier c then .modifier
  else if inRanges pictureRanges c then .picture
  else if inRanges alefRanges c then .letter .alef false
  else if inRanges subscriptRanges c then .letter .subscript false
  else if inRanges consonantRanges c then .letter .consonant false
  else match c.toNat with
    | 0x05DC => .letter .lamed false
    | 0x1A10 => .letter .ya false
    | 0xA4FC | 0xA4FD => .letter .tone false
    | 0x10C03 => .letter .orkhon false
    | 0x16D67 => .vowelE
    | 0x16D68 => .vowelAi
    | _ => .plain

/-- A character alone: its columns, and what it is the front of. -/
def alone (c : Char) : Int × Ahead :=
  (charWidth c, ⟨frontOf c, c = pictureSign, c = textSign⟩)

/-! ## Characters that melt -/

/-- A character that melts with a letter behind it, or lies on it: the columns that it adds, and the front
of the text with it. -/
def beforeLetter? (which : Letter) (joined : Bool) (c : Char) : Option (Int × Front) :=
  match which with
  | .alef =>
    if inRanges lamRanges c then some (0, .plain)
    else if charWidth c = 0 ∧ !inRanges opaqueRanges c then some (0, .letter which joined)
    else none
  | .lamed => if joined ∧ c.toNat = 0x05D0 then some (0, .plain) else none
  | .subscript => if c.toNat = 0x17D2 then some (-1, .plain) else none
  | .ya => if joined ∧ c.toNat = 0x1A17 then some (0, .letter .vowelYa false) else none
  | .vowelYa => if c.toNat = 0x1A15 then some (0, .plain) else none
  | .consonant =>
    if c.toNat = 0x2D7F then some (1, .letter .boundConsonant false)
    else if joined ∧ inRanges consonantRanges c then some (0, .plain)
    else none
  | .boundConsonant => if inRanges consonantRanges c then some (-1, .plain) else none
  | .tone => if 0xA4F8 ≤ c.toNat ∧ c.toNat ≤ 0xA4FB then some (0, .plain) else none
  | .orkhon => if joined ∧ c.toNat = 0x10C32 then some (0, .plain) else none

/-- A character before a joiner that goes on the picture behind it: its columns, and the front of the text
with it. -/
def beforeJoiner? (c : Char) : Option (Int × Front) :=
  if c.toNat = 0x20E3 then some (0, .framedJoiner)
  else if isIndicator c then some (1, .joinedIndicator)
  else if isModifier c then some (0, .modifier)
  else if c.toNat = 0xE007F then some (0, .tagLetters 0)
  else if inRanges pictureRanges c then some (0, .picture)
  else none

/-- The black flag, which tags behind it turn into the flag of a region. -/
def isTaggedFlag (c : Char) : Bool := c.toNat == 0x1F3F4

/-- A character that melts with what the text behind it begins with: the columns that it adds, and the
front of the text with it. -/
def melted? (front : Front) (c : Char) : Option (Int × Front) :=
  match front with
  | .plain | .lineFeed | .framedJoiner => none
  | .letter which joined => beforeLetter? which joined c
  | .vowelE =>
    match c.toNat with
    | 0x16D63 | 0x16D69 => some (0, .plain)
    | 0x16D67 => some (0, .vowelAi)
    | 0x16D68 => some (1, .vowelE)
    | _ => none
  | .vowelAi => if c.toNat = 0x16D63 then some (0, .plain) else none
  | .picture => if c = joinSign then some (0, .joiner) else none
  | .modifier =>
    if c = joinSign then some (0, .joiner)
    else if inRanges modifiedRanges c then some (0, .picture)
    else none
  | .indicator => if isIndicator c then some (1, .indicators) else none
  | .indicators =>
    if c = joinSign then some (0, .joiner)
    else if isIndicator c then some (1, .indicators)
    else none
  | .joiner => beforeJoiner? c
  | .joinedIndicator => if isIndicator c then some (-1, .joinedPairs) else none
  | .joinedPairs =>
    if c = joinSign then some (0, .joiner)
    else if isIndicator c then some (3, .joinedOdd)
    else none
  | .joinedOdd =>
    if c = joinSign then some (0, .joiner)
    else if isIndicator c then some (-1, .joinedPairs)
    else none
  | .tagLetters n =>
    if isTagLetter c ∧ n < 6 then some (0, .tagLetters (n + 1))
    else if isTagDigit c ∧ n < 5 then some (0, .tagDigits 1)
    else if isTaggedFlag c ∧ 3 ≤ n then some (0, .picture)
    else none
  | .tagDigits n =>
    if isTagDigit c ∧ n < 3 then some (0, .tagDigits (n + 1))
    else if isTaggedFlag c ∧ n = 3 then some (0, .picture)
    else none

/-! ## Signs that choose a form -/

namespace Ahead

variable (a : Ahead)

/-- A letter melts across the signs before it. -/
def isLetter : Bool :=
  match a.front with
  | .letter _ _ => true
  | _ => false

/-- The picture that the sign asks for is joined to the one behind it. -/
def isJoined : Bool := a.front == .joiner || a.front == .framedJoiner

/-- The text with a sign before it that asks for a picture. -/
def addPictureSign : Ahead :=
  if a.isLetter ∨ a.isJoined then { a with asPicture := true } else { asPicture := true }

/-- The text with a sign before it that asks for text. -/
def addTextSign : Ahead := if a.isLetter then { a with asText := true } else { asText := true }

/-- The text if the character before it has no picture that could be asked for. -/
def dropPictureSign : Ahead :=
  if !a.asPicture then a else if a.isLetter then { a with asPicture := false } else {}

/-- A character that melting goes across: the text with it. -/
def across? (c : Char) : Option Ahead :=
  match a.front with
  | .letter which joined =>
    if !which.reachesOver then none
    else if c = joinSign then some { a with front := .letter which true }
    else if inRanges transparentRanges c then some { a with front := .letter which joined }
    else none
  | _ => none

end Ahead

/-- The text form of the character is one column narrower than its picture. -/
def isNarrowAsText (c : Char) : Bool :=
  inRanges variantRanges c && inRanges pictureRanges c && !(0x1F200 ≤ c.toNat && c.toNat < 0x1F300)

/-- The columns that a character of ASCII or a control character adds to the text behind it. A carriage
return before a line feed adds none. -/
def plainColumns (a : Ahead) (c : Char) : Int × Ahead :=
  if c = '\n' then (1, { front := .lineFeed })
  else if c = '\r' ∧ a.front = .lineFeed then (0, {})
  else (1, {})

/-- The columns that another character adds to the text behind it. -/
def otherColumns (a : Ahead) (c : Char) : Int × Ahead :=
  if a = {} then alone c
  else if c = pictureSign then (0, a.addPictureSign)
  else if c = textSign then (0, a.addTextSign)
  else if a.asText ∧ isNarrowAsText c then (1, {})
  else
    let a := { a with asText := false }
    match a.across? c with
    | some a => (0, a)
    | none =>
      match melted? a.front c with
      | some (n, front) => (n, { front })
      | none => alone c

/-- The columns that a character adds to the text behind it, and what the text with it begins with. -/
def columns (a : Ahead) (c : Char) : Int × Ahead :=
  if a.asPicture ∧ inRanges variantRanges c then
    (if a.isJoined then 0 else 2, { front := .picture })
  else
    let a := a.dropPictureSign
    if c.toNat ≤ 0xA0 then plainColumns a c else otherColumns a c

/-- The columns of a text, and what it begins with. -/
def measure : List Char → Int × Ahead
  | [] => (0, {})
  | c :: cs =>
    let (behind, a) := measure cs
    let (own, a) := columns a c
    (own + behind, a)

/-- The columns of a text. -/
def width (cs : List Char) : Nat := (measure cs).1.toNat

/-! ## Escape sequences -/

/-- Where in an escape sequence a text is. -/
inductive Escape where
  | outside
  | started
  | inside

/-- The columns that are counted for escape sequences though they are not shown: a column for each character
from the bracket on that has one when it stands alone. The character that starts a sequence keeps its
column. -/
def escapedWidth : Escape → List Char → Nat
  | _, [] => 0
  | .outside, c :: cs => escapedWidth (if c = '\x1B' then .started else .outside) cs
  | .started, c :: cs =>
    if c = '[' then 1 + escapedWidth .inside cs else escapedWidth .outside cs
  | .inside, c :: cs =>
    min 1 (charWidth c) + escapedWidth (if c = 'm' then .outside else .inside) cs

/-- The columns of a text without its escape sequences. -/
def shownWidth (cs : List Char) : Nat := width cs - escapedWidth .outside cs

/-- A text that cannot be measured: its escape sequences are counted for more columns than it has. That
takes characters that melt inside a sequence without an end. -/
def isUnmeasured (cs : List Char) : Bool := width cs < escapedWidth .outside cs

example : width "é漢字".toList = 5 := by decide +kernel

example : width ['\u0644', '\u0627'] = 1 := by decide +kernel

/-- Two pictures that are joined. -/
example : width ([0x1F469, 0x200D, 0x1F467].map Char.ofNat) = 2 := by decide +kernel

/-- A sign that has a form as picture, with and without the sign that asks for it. -/
example : width ['\u2764', pictureSign] = 2 ∧ width ['\u2764'] = 1 := by decide +kernel

example : shownWidth "\x1B[31mred\x1B[0m".toList = 5 := by decide +kernel

end HeapStore.Text
