import HeapStore.Text.Split
import Mathlib.Data.List.TakeWhile

/-!
# What texts are divided into

Trimming and splitting, told without the way they are done: by what the text is put together from.

* `Trimmed`, `Trims`: a text without blanks at its ends, and what is left of a text without them. `trim_eq_iff`: **that is
  what trimming gives.**
* `Divides`: pieces that give a text when separators are put between them. `split_eq_iff`: **splitting finds them.**
* `Spaced`: words with blanks around them. `Spaced.words_eq`, `exists_spaced`: **every text consists of its words.**
-/

namespace HeapStore.Text

variable {cs : List Char} {c : Char}

/-! ## Blanks at the ends -/

/-- All characters are blank. -/
def Blanks (cs : List Char) : Prop := ∀ c ∈ cs, isBlank c = true

/-- No character is blank. -/
def Solid (cs : List Char) : Prop := ∀ c ∈ cs, isBlank c = false

instance (cs : List Char) : Decidable (Solid cs) :=
  decidable_of_iff (cs.all (!isBlank ·)) (by simp [Solid])

/-- The text neither begins nor ends with a blank. -/
structure Trimmed (cs : List Char) : Prop where
  head : ∀ c, cs.head? = some c → isBlank c = false
  last : ∀ c, cs.getLast? = some c → isBlank c = false

/-- The inner text is left of the outer one without the blanks at its ends. -/
def Trims (outer inner : List Char) : Prop :=
  ∃ front behind, outer = front ++ inner ++ behind ∧ Blanks front ∧ Blanks behind ∧ Trimmed inner

theorem Solid.trimmed (h : Solid cs) : Trimmed cs :=
  ⟨fun _ hc => h _ (List.mem_of_head? hc), fun _ hc => h _ (List.mem_of_getLast? hc)⟩

theorem trimLeft_append {front : List Char} (h : Blanks front) (cs : List Char) :
    trimLeft (front ++ cs) = trimLeft cs := by
  induction front with
  | nil => rfl
  | cons c front ih =>
    have hc : isBlank c = true := h c List.mem_cons_self
    rw [List.cons_append, trimLeft, List.dropWhile_cons_of_pos hc]
    exact ih fun d hd => h d (List.mem_cons_of_mem c hd)

theorem trimLeft_of_head (h : ∀ c, cs.head? = some c → isBlank c = false) : trimLeft cs = cs := by
  cases cs with
  | nil => rfl
  | cons c cs => exact trimLeft_eq_self (h c rfl)

/-- A text is blanks in front of what is left without them. -/
theorem exists_trimLeft (cs : List Char) : ∃ front, cs = front ++ trimLeft cs ∧ Blanks front :=
  ⟨cs.takeWhile isBlank, List.takeWhile_append_dropWhile.symm, fun _ hc => List.mem_takeWhile_imp hc⟩

theorem head_trimLeft (cs : List Char) (c : Char) (h : (trimLeft cs).head? = some c) : isBlank c = false := by
  have hhead := List.head?_dropWhile_not isBlank cs
  rw [show List.dropWhile isBlank cs = trimLeft cs from rfl, h] at hhead
  exact hhead

theorem Blanks.reverse (h : Blanks cs) : Blanks cs.reverse := fun c hc => h c (List.mem_reverse.1 hc)

/-- **Trimming takes away all blanks at the ends, and nothing else.** -/
theorem trims_trim (cs : List Char) : Trims cs (trim cs) := by
  obtain ⟨front, hfront, hblank⟩ := exists_trimLeft cs
  obtain ⟨tail, htail, hblank'⟩ := exists_trimLeft (trimLeft cs).reverse
  have hinner : trimLeft cs = trim cs ++ tail.reverse := by
    rw [← List.reverse_reverse (trimLeft cs), htail, List.reverse_append]
    rfl
  refine ⟨front, tail.reverse, ?_, hblank, hblank'.reverse, ?_, ?_⟩
  · rw [List.append_assoc, ← hinner]
    exact hfront
  · -- what is in front of the last blanks begins like the text in which they were
    intro c hc
    refine head_trimLeft cs c ?_
    rw [hinner, List.head?_append, hc]
    rfl
  · intro c hc
    refine head_trimLeft (trimLeft cs).reverse c ?_
    rw [← List.getLast?_reverse]
    exact hc

/-- **Trimming is the only way to be without blanks at the ends.** -/
theorem trim_eq_iff {inner : List Char} : trim cs = inner ↔ Trims cs inner := by
  constructor
  · rintro rfl
    exact trims_trim cs
  · rintro ⟨front, behind, rfl, hfront, hbehind, h⟩
    unfold trim trimRight
    rw [List.append_assoc, trimLeft_append hfront]
    by_cases hinner : inner = []
    · -- nothing but blanks
      subst hinner
      have hnone : trimLeft behind = [] := by
        have hall := trimLeft_append hbehind []
        rw [List.append_nil] at hall
        exact hall
      rw [List.nil_append, hnone]
      rfl
    · have hleft : trimLeft (inner ++ behind) = inner ++ behind := by
        refine trimLeft_of_head fun c hc => h.head c ?_
        obtain ⟨d, rest, rfl⟩ := List.exists_cons_of_ne_nil hinner
        exact hc
      have hright : trimLeft inner.reverse = inner.reverse :=
        trimLeft_of_head fun c hc => h.last c (by rw [← List.head?_reverse]; exact hc)
      rw [hleft, List.reverse_append, trimLeft_append hbehind.reverse, hright, List.reverse_reverse]

theorem Trimmed.trim_eq (h : Trimmed cs) : trim cs = cs :=
  trim_eq_iff.2 ⟨[], [], (List.append_nil cs).symm, nofun, nofun, h⟩

theorem trimmed_trim (cs : List Char) : Trimmed (trim cs) := by
  obtain ⟨-, -, -, -, -, h⟩ := trims_trim cs
  exact h

/-- Nothing is left of blanks, and of nothing else. -/
theorem trim_eq_nil_iff : trim cs = [] ↔ Blanks cs := by
  rw [trim_eq_iff]
  constructor
  · rintro ⟨front, behind, rfl, hfront, hbehind, -⟩ c hc
    rw [List.append_nil] at hc
    exact (List.mem_append.1 hc).elim (hfront c) (hbehind c)
  · exact fun h => ⟨cs, [], by simp, h, nofun, nofun, nofun⟩

/-- Trimming twice is trimming once. -/
theorem trim_trim (cs : List Char) : trim (trim cs) = trim cs := (trimmed_trim cs).trim_eq

/-! ## Pieces -/

section Pieces

variable {stop : Char → Bool}

theorem split_cons_of_stop (h : stop c = true) (cs : List Char) : split stop (c :: cs) = [] :: split stop cs :=
  if_pos h

/-- A character that is no separator belongs to the first piece. -/
theorem split_cons_of_piece {piece : List Char} {pieces : List (List Char)} (h : stop c = false)
    (hcs : split stop cs = piece :: pieces) : split stop (c :: cs) = (c :: piece) :: pieces := by
  have hn : ¬ stop c = true := by rw [h]; exact Bool.false_ne_true
  rw [split, if_neg hn, hcs]

/-- The first piece ends where the first separator stands. -/
theorem split_append {piece rest : List Char} (h : ∀ c ∈ piece, stop c = false) (hc : stop c = true) :
    split stop (piece ++ c :: rest) = piece :: split stop rest := by
  induction piece with
  | nil => exact split_cons_of_stop hc rest
  | cons d piece ih =>
    exact split_cons_of_piece (h d List.mem_cons_self) (ih fun e he => h e (List.mem_cons_of_mem d he))

/-- The pieces, of which there is at least one, have no separators in them, and give the text with one between each two. -/
structure Divides (mark : Char) (cs : List Char) (pieces : List (List Char)) : Prop where
  ne_nil : pieces ≠ []
  clean : ∀ piece ∈ pieces, mark ∉ piece
  text_eq : cs = [mark].intercalate pieces

variable {mark : Char} {pieces : List (List Char)}

/-- What the first piece begins with the text begins with. -/
theorem intercalate_cons_head (sep : List Char) (c : Char) (piece : List Char) (pieces : List (List Char)) :
    sep.intercalate ((c :: piece) :: pieces) = c :: sep.intercalate (piece :: pieces) := by
  cases pieces with
  | nil => rw [List.intercalate_singleton, List.intercalate_singleton]
  | cons next pieces =>
    rw [List.intercalate_cons_cons, List.intercalate_cons_cons]
    rfl

/-- Separators that are put between pieces without one divide them again. -/
theorem split_intercalate (hne : pieces ≠ []) (h : ∀ piece ∈ pieces, mark ∉ piece) :
    split (· == mark) ([mark].intercalate pieces) = pieces := by
  have hclean : ∀ piece ∈ pieces, ∀ c ∈ piece, (c == mark) = false := fun piece hp c hc =>
    beq_false_of_ne fun he => h piece hp (he ▸ hc)
  induction pieces with
  | nil => exact absurd rfl hne
  | cons piece pieces ih =>
    cases pieces with
    | nil =>
      rw [List.intercalate_singleton]
      exact split_eq_singleton (hclean piece List.mem_cons_self)
    | cons next pieces =>
      have hrest := ih (List.cons_ne_nil _ _) (fun q hq => h q (List.mem_cons_of_mem _ hq))
        fun q hq => hclean q (List.mem_cons_of_mem _ hq)
      rw [List.intercalate_cons_cons, List.append_assoc, List.singleton_append,
        split_append (hclean piece List.mem_cons_self) (beq_self_eq_true mark), hrest]

/-- A text is what its pieces give with the separators between them. -/
theorem intercalate_split (mark : Char) (cs : List Char) :
    [mark].intercalate (split (· == mark) cs) = cs ∧ ∀ piece ∈ split (· == mark) cs, mark ∉ piece := by
  induction cs with
  | nil => exact ⟨rfl, fun piece hp => by rw [List.mem_singleton.1 hp]; exact List.not_mem_nil⟩
  | cons c cs ih =>
    obtain ⟨htext, hclean⟩ := ih
    have hne : split (· == mark) cs ≠ [] := split_ne_nil cs
    obtain ⟨piece, pieces, hsplit⟩ := List.exists_cons_of_ne_nil hne
    rw [hsplit] at htext hclean
    by_cases hc : c = mark
    · subst hc
      have hstop : split (· == c) (c :: cs) = [] :: split (· == c) cs := if_pos (beq_self_eq_true c)
      rw [hstop, hsplit, List.intercalate_cons_cons, htext]
      refine ⟨rfl, fun q hq => ?_⟩
      rcases List.mem_cons.1 hq with rfl | hq
      · exact List.not_mem_nil
      · exact hclean q hq
    · have hpiece : split (· == mark) (c :: cs) = (c :: piece) :: pieces :=
        split_cons_of_piece (beq_false_of_ne hc) hsplit
      rw [hpiece]
      refine ⟨?_, fun q hq => ?_⟩
      · rw [intercalate_cons_head, htext]
      · rcases List.mem_cons.1 hq with rfl | hq
        · exact fun hm => (List.mem_cons.1 hm).elim (fun he => hc he.symm) (hclean piece List.mem_cons_self)
        · exact hclean q (List.mem_cons_of_mem _ hq)

/-- **The pieces of a text are the only ones into which separators divide it.** -/
theorem split_eq_iff : split (· == mark) cs = pieces ↔ Divides mark cs pieces := by
  constructor
  · rintro rfl
    obtain ⟨htext, hclean⟩ := intercalate_split mark cs
    exact ⟨split_ne_nil cs, hclean, htext.symm⟩
  · rintro ⟨hne, hclean, rfl⟩
    exact split_intercalate hne hclean

end Pieces

/-! ## Words -/

/-- The text consists of the words, which have no blanks in them, and of blanks between and around them. -/
inductive Spaced : List (List Char) → List Char → Prop
  | blanks {gap : List Char} : Blanks gap → Spaced [] gap
  | word {gap word rest : List Char} {words : List (List Char)} : Blanks gap → word ≠ [] → Solid word →
      (∀ c, rest.head? = some c → isBlank c = true) → Spaced words rest → Spaced (word :: words) (gap ++ word ++ rest)

theorem words_cons_blank (h : isBlank c = true) (cs : List Char) : words (c :: cs) = words cs := by
  unfold words
  rw [split_cons_of_stop h]
  rfl

theorem words_append_blanks {gap : List Char} (h : Blanks gap) (cs : List Char) : words (gap ++ cs) = words cs := by
  induction gap with
  | nil => rfl
  | cons c gap ih =>
    rw [List.cons_append, words_cons_blank (h c List.mem_cons_self)]
    exact ih fun d hd => h d (List.mem_cons_of_mem c hd)

/-- A word goes on to the next blank, or to the end. -/
theorem words_append {word rest : List Char} (hne : word ≠ []) (hs : Solid word)
    (hrest : ∀ c, rest.head? = some c → isBlank c = true) : words (word ++ rest) = word :: words rest := by
  have hkeep : ∀ pieces : List (List Char), (word :: pieces).filter (fun piece => !piece.isEmpty) =
      word :: pieces.filter fun piece => !piece.isEmpty := fun _ =>
    List.filter_cons_of_pos (by rw [List.isEmpty_eq_false_iff.2 hne]; rfl)
  cases rest with
  | nil =>
    unfold words
    rw [List.append_nil, split_eq_singleton hs]
    exact hkeep []
  | cons c rest =>
    have hc : isBlank c = true := hrest c rfl
    rw [words_cons_blank hc]
    unfold words
    rw [split_append hs hc]
    exact hkeep _

variable {ws : List (List Char)}

/-- **The words of a text are those of which it consists.** -/
theorem Spaced.words_eq (h : Spaced ws cs) : words cs = ws := by
  induction h with
  | blanks hgap =>
    have hall := words_append_blanks hgap []
    rw [List.append_nil] at hall
    exact hall
  | word hgap hne hs hrest _ ih => rw [List.append_assoc, words_append_blanks hgap, words_append hne hs hrest, ih]

/-- Every text consists of words. -/
theorem exists_spaced (cs : List Char) : ∃ ws, Spaced ws cs := by
  induction cs with
  | nil => exact ⟨[], .blanks nofun⟩
  | cons c cs ih =>
    obtain ⟨ws, h⟩ := ih
    by_cases hc : isBlank c = true
    · -- one blank more in the first gap
      have hmore : ∀ {gap : List Char}, Blanks gap → Blanks (c :: gap) := fun hgap d hd =>
        (List.mem_cons.1 hd).elim (fun he => he ▸ hc) (hgap d)
      cases h with
      | blanks hgap => exact ⟨[], .blanks (hmore hgap)⟩
      | word hgap hne hs hrest hr => exact ⟨_, .word (hmore hgap) hne hs hrest hr⟩
    · rw [Bool.not_eq_true] at hc
      have hone : Solid [c] := fun d hd => by rw [List.mem_singleton.1 hd]; exact hc
      by_cases hhead : ∀ d, cs.head? = some d → isBlank d = true
      · -- a word of its own
        have hnew : Spaced ([c] :: ws) ([] ++ [c] ++ cs) := .word nofun (List.cons_ne_nil _ _) hone hhead h
        exact ⟨_, hnew⟩
      · -- one character more in the first word, which no blank precedes
        cases h with
        | blanks hgap => exact absurd (fun d hd => hgap d (List.mem_of_head? hd)) hhead
        | @word gap word rest ws hgap hne hs hrest hr =>
          cases gap with
          | nil =>
            have hlonger : Solid (c :: word) := fun d hd => (List.mem_cons.1 hd).elim (fun he => he ▸ hc) (hs d)
            have hnew : Spaced ((c :: word) :: ws) ([] ++ c :: word ++ rest) :=
              .word nofun (List.cons_ne_nil _ _) hlonger hrest hr
            exact ⟨_, hnew⟩
          | cons d gap =>
            refine absurd (fun e he => ?_) hhead
            cases he
            exact hgap d List.mem_cons_self

/-- Words are never empty, and no blank is in them. -/
theorem Spaced.solid (h : Spaced ws cs) : ∀ word ∈ ws, word ≠ [] ∧ Solid word := by
  induction h with
  | blanks _ => exact fun _ hw => absurd hw List.not_mem_nil
  | word _ hne hs _ _ ih =>
    intro word hw
    rcases List.mem_cons.1 hw with rfl | hw
    · exact ⟨hne, hs⟩
    · exact ih word hw

end HeapStore.Text
