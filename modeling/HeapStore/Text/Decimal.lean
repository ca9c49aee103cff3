/-!
# Decimal numbers

Reading whole numbers written with the ASCII digits.

* `readNat`: one digit or more, and nothing else.
* `readInt`: the same after at most one sign.
-/

namespace HeapStore.Text

/-- The value of a digit, the leftmost characters read so far being worth `value`. -/
def digitStep (value : Nat) (c : Char) : Nat := 10 * value + (c.toNat - '0'.toNat)

/-- A number written with digits only. -/
def readNat (cs : List Char) : Option Nat :=
  if cs ≠ [] ∧ cs.all Char.isDigit then some (cs.foldl digitStep 0) else none

/-- A number written with digits after an optional plus sign. -/
def readCount : List Char → Option Nat
  | '+' :: cs => readNat cs
  | cs => readNat cs

/-- A number written with digits after an optional sign. -/
def readInt : List Char → Option Int
  | '-' :: cs => (readNat cs).map fun n => -(n : Int)
  | cs => (readCount cs).map fun n => (n : Int)

/-- A number of 32 bits with a sign, in decimal. -/
def readInt32 (cs : List Char) : Option Int32 :=
  (readInt cs).bind fun n =>
    if -0x80000000 ≤ n ∧ n < 0x80000000 then some (Int32.ofInt n) else none

end HeapStore.Text
