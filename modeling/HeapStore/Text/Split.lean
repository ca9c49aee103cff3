import HeapStore.Text.Blank

/-!
# Splitting a text

* `split`: the pieces between separators; `n` separators give `n + 1` pieces.
* `words`: the pieces between blanks, without the empty ones.
* `lines`: the lines of a text. A line ends at a line feed, which may follow a carriage return; the
  last line needs no ending.
-/

namespace HeapStore.Text

/-- The pieces of a text between the characters that `stop` names. -/
def split (stop : Char → Bool) : List Char → List (List Char)
  | [] => [[]]
  | c :: cs =>
    if stop c then [] :: split stop cs
    else match split stop cs with
      | [] => [[c]]
      | piece :: pieces => (c :: piece) :: pieces

/-- The words of a text: what stands between blanks. -/
def words (cs : List Char) : List (List Char) :=
  (split isBlank cs).filter fun piece => !piece.isEmpty

/-- A line whose line feed is gone loses the carriage return before it. -/
def dropReturn (line : List Char) : List Char :=
  if line.getLast? = some '\r' then line.dropLast else line

/-- The lines, given the pieces of the text between line feeds. -/
def endLines : List (List Char) → List (List Char)
  | [] => []
  | [last] => if last.isEmpty then [] else [last]
  | piece :: pieces => dropReturn piece :: endLines pieces

/-- The lines of a text, without their endings. -/
def lines (cs : List Char) : List (List Char) := endLines (split (· == '\n') cs)

variable {stop : Char → Bool}

theorem split_ne_nil (cs : List Char) : split stop cs ≠ [] := by
  cases cs with
  | nil => simp [split]
  | cons c cs =>
    by_cases h : stop c
    · simp [split, h]
    · simp only [split, h, Bool.false_eq_true, if_false]
      cases split stop cs <;> simp

/-- A text without separators is one piece. -/
theorem split_eq_singleton {cs : List Char} (h : ∀ c ∈ cs, stop c = false) :
    split stop cs = [cs] := by
  induction cs with
  | nil => rfl
  | cons c cs ih =>
    have hc : stop c = false := h c (by simp)
    have hcs : split stop cs = [cs] := ih fun d hd => h d (by simp [hd])
    simp [split, hc, hcs]

end HeapStore.Text
