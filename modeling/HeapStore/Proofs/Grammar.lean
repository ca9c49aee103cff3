import HeapStore.Catalog.Definition
import HeapStore.Proofs.Pieces
import Mathlib.Data.List.Forall2

/-!
# The grammar of definitions

Which lines define a table and which table, and what is wrong with each of the others, told by what a line is put together
from and without the order in which it is read.

* `cutFirst_append`, `cutLast_append`: a text is cut where the character stands for the first or the last time.
* `Definition.Spells`, `Definition.Misspells`: a piece that defines a column, and one with a fault.
* `Definition.Reads`, `Definition.Faulty`: a line that defines a table, and one with a fault. `reads_or_faulty`: each line
  is one of the two.
* `Definition.print`: the line for a definition. `Definition.Printable.reads`: it defines that.
* `Definition.parse_exact`: **a line is accepted if and only if it is one of the grammar, the fault of any other is the
  first one on it, and printed definitions are read back.**
-/

namespace HeapStore

open Text (Blanks Solid Trimmed Trims Divides Spaced)

/-! ## Cutting -/

section Cuts

variable {mark : Char} {before behind : List Char}

theorem cutFirst_eq_none {cs : List Char} (h : mark ∉ cs) : cutFirst mark cs = none := by
  induction cs with
  | nil => rfl
  | cons c cs ih =>
    obtain ⟨hc, hcs⟩ := not_or.1 (mt List.mem_cons.2 h)
    rw [cutFirst, if_neg (fun he => hc he.symm), ih hcs]
    rfl

/-- **A text is cut where the character stands for the first time.** -/
theorem cutFirst_append (h : mark ∉ before) (behind : List Char) :
    cutFirst mark (before ++ mark :: behind) = some (before, behind) := by
  induction before with
  | nil => exact if_pos rfl
  | cons c before ih =>
    obtain ⟨hc, hbefore⟩ := not_or.1 (mt List.mem_cons.2 h)
    rw [List.cons_append, cutFirst, if_neg (fun he => hc he.symm), ih hbefore]
    rfl

theorem cutLast_eq_none {cs : List Char} (h : mark ∉ cs) : cutLast mark cs = none := by
  rw [cutLast, cutFirst_eq_none (fun hm => h (List.mem_reverse.1 hm))]
  rfl

/-- **Or for the last time.** -/
theorem cutLast_append (before : List Char) (h : mark ∉ behind) :
    cutLast mark (before ++ mark :: behind) = some (before, behind) := by
  have hreverse : (before ++ mark :: behind).reverse = behind.reverse ++ mark :: before.reverse := by
    rw [List.reverse_append, List.reverse_cons, List.append_assoc, List.singleton_append]
  rw [cutLast, hreverse, cutFirst_append (fun hm => h (List.mem_reverse.1 hm)), Option.map_some]
  simp only [List.reverse_reverse]

/-- Where a character stands in a text it stands for the last time somewhere. -/
theorem exists_last_of_mem {cs : List Char} (h : mark ∈ cs) : ∃ before behind, cs = before ++ mark :: behind ∧ mark ∉ behind := by
  obtain ⟨behind, before, hreverse, hbehind⟩ := List.eq_append_cons_of_mem (List.mem_reverse.2 h)
  refine ⟨before.reverse, behind.reverse, ?_, fun hm => hbehind (List.mem_reverse.1 hm)⟩
  rw [← List.reverse_reverse cs, hreverse, List.reverse_append, List.reverse_cons, List.append_assoc,
    List.singleton_append]

end Cuts

/-! ## Types -/

namespace FieldType

/-- The name of a type. -/
def word : FieldType → List Char
  | .int => "int".toList
  | .text => "string".toList

/-- The word is the name of the type, in any mixture of ASCII cases. -/
def Named (t : FieldType) (word : List Char) : Prop := word.map Char.toLower = t.word

theorem named_word (t : FieldType) : t.Named t.word := by
  cases t <;> rfl

theorem solid_word (t : FieldType) : Solid t.word := by
  cases t <;> decide

end FieldType

namespace Definition

variable {line : Nat}

theorem readType_of_named {t : FieldType} {word : List Char} (hs : Solid word) (h : t.Named word) :
    readType line word = .ok t := by
  unfold readType FieldType.ofName?
  unfold FieldType.Named at h
  rw [hs.trimmed.trim_eq, h]
  cases t <;> rfl

theorem readType_of_not_named {word : List Char} (hs : Solid word) (h : ∀ t : FieldType, ¬ t.Named word) :
    readType line word = .error (.unknownType line (String.ofList word)) := by
  have hint : ¬ word.map Char.toLower = "int".toList := h .int
  have htext : ¬ word.map Char.toLower = "string".toList := h .text
  unfold readType FieldType.ofName?
  rw [hs.trimmed.trim_eq]
  simp only [if_neg hint, if_neg htext]
  rfl

/-! ## Columns -/

/-- What a piece says of a column. -/
structure Entry where
  name : List Char
  type : FieldType
  marked : Bool

namespace Entry

def column (e : Entry) : Column := ⟨e.type, some (String.ofList e.name)⟩

/-- The name of the last column that is marked. -/
def key (entries : List Entry) : Option String :=
  (entries.filter marked).getLast?.map fun e => String.ofList e.name

/-- The piece for a column. -/
def print (e : Entry) : List Char := e.name ++ ' ' :: (e.type.word ++ if e.marked then ' ' :: keyMark else [])

theorem key_cons (e : Entry) (entries : List Entry) :
    key (e :: entries) = (key entries <|> if e.marked then some (String.ofList e.name) else none) := by
  unfold key
  cases hm : e.marked with
  | false =>
    rw [List.filter_cons_of_neg (by rw [hm]; exact Bool.false_ne_true)]
    cases (entries.filter marked).getLast? <;> rfl
  | true =>
    rw [List.filter_cons_of_pos hm, List.getLast?_cons]
    cases (entries.filter marked).getLast? <;> rfl

end Entry

/-- The piece is a name and a type, and perhaps the mark of the key. -/
inductive Spells : List Char → Entry → Prop
  | plain {text name word : List Char} {t : FieldType} : Spaced [name, word] text → t.Named word → Spells text ⟨name, t, false⟩
  | marked {text name word : List Char} {t : FieldType} : Spaced [name, word, keyMark] text → t.Named word →
      Spells text ⟨name, t, true⟩

/-- The piece does not have two or three words, or its second word is no type, or its third is not the mark of the key:
the first of these is its fault. -/
inductive Misspells (line : Nat) : List Char → CatalogFault → Prop
  | shape {text inner : List Char} {words : List (List Char)} : Spaced words text → words.length ≠ 2 → words.length ≠ 3 →
      Trims text inner → Misspells line text (.malformed line (.column (String.ofList inner)))
  | type {text name word : List Char} {marks : List (List Char)} : Spaced (name :: word :: marks) text → marks.length ≤ 1 →
      (∀ t : FieldType, ¬ t.Named word) → Misspells line text (.unknownType line (String.ofList word))
  | mark {text name word mark : List Char} {t : FieldType} : Spaced [name, word, mark] text → t.Named word →
      mark ≠ keyMark → Misspells line text (.unknownMark line (String.ofList mark))

section Columns

variable {text : List Char} {e : Entry} {fault : CatalogFault}

theorem Spells.read_eq (h : Spells text e) (line : Nat) : readColumn line text = .ok (e.column, e.marked) := by
  cases h with
  | @plain name word t hwords ht =>
    have htype : readType line word = .ok t := readType_of_named (hwords.solid word (by simp)).2 ht
    unfold readColumn
    simp only [hwords.words_eq, htype]
    rfl
  | @marked name word t hwords ht =>
    have htype : readType line word = .ok t := readType_of_named (hwords.solid word (by simp)).2 ht
    unfold readColumn
    simp only [hwords.words_eq, htype]
    rfl

theorem Misspells.read_eq (h : Misspells line text fault) : readColumn line text = .error fault := by
  cases h with
  | @shape inner words hwords htwo hthree htrim =>
    unfold readColumn
    rw [hwords.words_eq, Text.trim_eq_iff.2 htrim]
    match words with
    | [] | [_] | _ :: _ :: _ :: _ :: _ => rfl
    | [_, _] => exact absurd rfl htwo
    | [_, _, _] => exact absurd rfl hthree
  | @type name word marks hwords hmarks hnone =>
    have htype : readType line word = .error (.unknownType line (String.ofList word)) :=
      readType_of_not_named (hwords.solid word (by simp)).2 hnone
    unfold readColumn
    match marks with
    | [] | [_] =>
      simp only [hwords.words_eq, htype]
      rfl
    | _ :: _ :: _ => exact absurd hmarks (by simp)
  | @mark name word mark t hwords ht hmark =>
    have htype : readType line word = .ok t := readType_of_named (hwords.solid word (by simp)).2 ht
    unfold readColumn
    simp only [hwords.words_eq, htype]
    exact if_neg hmark

/-- Each piece defines a column or has a fault. -/
theorem spells_or_misspells (line : Nat) (text : List Char) :
    (∃ e, Spells text e) ∨ ∃ fault, Misspells line text fault := by
  obtain ⟨words, hwords⟩ := Text.exists_spaced text
  have hshape : words.length ≠ 2 → words.length ≠ 3 → ∃ fault, Misspells line text fault := fun htwo hthree =>
    ⟨_, .shape hwords htwo hthree (Text.trims_trim text)⟩
  match words with
  | [] | [_] | _ :: _ :: _ :: _ :: _ => exact .inr (hshape (by simp) (by simp))
  | [name, word] =>
    by_cases ht : ∃ t : FieldType, t.Named word
    · obtain ⟨t, ht⟩ := ht
      exact .inl ⟨_, .plain hwords ht⟩
    · exact .inr ⟨_, .type hwords (by simp) (not_exists.1 ht)⟩
  | [name, word, mark] =>
    by_cases ht : ∃ t : FieldType, t.Named word
    · obtain ⟨t, ht⟩ := ht
      by_cases hmark : mark = keyMark
      · subst hmark
        exact .inl ⟨_, .marked hwords ht⟩
      · exact .inr ⟨_, .mark hwords ht hmark⟩
    · exact .inr ⟨_, .type hwords (by simp) (not_exists.1 ht)⟩

end Columns

/-- Pieces that define columns are read one after another. -/
theorem readColumns_of_spells {texts : List (List Char)} {entries : List Entry} (h : List.Forall₂ Spells texts entries)
    (line : Nat) : ∃ hl, readColumns line texts = .ok (⟨entries.map Entry.column, hl⟩, Entry.key entries) := by
  induction h with
  | nil => exact ⟨rfl, rfl⟩
  | cons he _ ih =>
    obtain ⟨hl, hrest⟩ := ih
    refine ⟨congrArg Nat.succ hl, ?_⟩
    unfold readColumns
    rw [he.read_eq line, hrest, Entry.key_cons]
    rfl

/-- The first piece with a fault is the last that is read. -/
theorem readColumns_of_misspells {front behind : List (List Char)} {bad : List Char} {entries : List Entry}
    {fault : CatalogFault} (h : List.Forall₂ Spells front entries) (hbad : Misspells line bad fault) :
    readColumns line (front ++ bad :: behind) = .error fault := by
  induction h with
  | nil =>
    rw [List.nil_append]
    unfold readColumns
    rw [hbad.read_eq]
    rfl
  | cons he _ ih =>
    rw [List.cons_append]
    unfold readColumns
    rw [he.read_eq line, ih]
    rfl

/-- All pieces define columns, or one of them is the first with a fault. -/
theorem all_spell_or_one_misspells (line : Nat) (pieces : List (List Char)) :
    (∃ entries, List.Forall₂ Spells pieces entries) ∨ ∃ front bad behind entries fault,
      pieces = front ++ bad :: behind ∧ List.Forall₂ Spells front entries ∧ Misspells line bad fault := by
  induction pieces with
  | nil => exact .inl ⟨[], .nil⟩
  | cons piece pieces ih =>
    rcases spells_or_misspells line piece with ⟨e, he⟩ | ⟨fault, hfault⟩
    · rcases ih with ⟨entries, hall⟩ | ⟨front, bad, behind, entries, fault, rfl, hfront, hbad⟩
      · exact .inl ⟨e :: entries, .cons he hall⟩
      · exact .inr ⟨piece :: front, bad, behind, e :: entries, fault, rfl, .cons he hfront, hbad⟩
    · exact .inr ⟨[], piece, pieces, [], fault, rfl, .nil, hfault⟩

/-! ## Lines -/

/-- The text is put together from what stands in front of its first opening parenthesis, between it and the last closing
one, and behind that. -/
structure Frame (text front inner behind : List Char) : Prop where
  text_eq : text = front ++ '(' :: (inner ++ ')' :: behind)
  first : '(' ∉ front
  last : ')' ∉ behind

/-- The line is a name and, in parentheses, pieces for the columns. -/
def Reads (text : List Char) (d : Definition) : Prop :=
  ∃ front inner behind name pieces entries, Frame text front inner behind ∧ Trims front name ∧ name ≠ [] ∧
    Divides ',' inner pieces ∧ List.Forall₂ Spells pieces entries ∧ d.name = String.ofList name ∧
    d.schema.columns = entries.map Entry.column ∧ d.key = Entry.key entries

/-- Something is wrong with a line: a parenthesis is missing, or they stand the wrong way round, or there is no name, or a
piece has a fault and all in front of it have none. -/
inductive Faulty (line : Nat) (text : List Char) : CatalogFault → Prop
  | noOpening : '(' ∉ text → Faulty line text (.malformed line .noOpening)
  | noClosing : '(' ∈ text → ')' ∉ text → Faulty line text (.malformed line .noClosing)
  | misordered {front behind : List Char} : text = front ++ '(' :: behind → '(' ∉ front → ')' ∈ front → ')' ∉ behind →
      Faulty line text (.malformed line .misordered)
  | noName {front inner behind : List Char} : Frame text front inner behind → Blanks front →
      Faulty line text (.malformed line .noName)
  | piece {front inner behind bad : List Char} {read rest : List (List Char)} {entries : List Entry} {fault : CatalogFault} :
      Frame text front inner behind → ¬ Blanks front → Divides ',' inner (read ++ bad :: rest) →
      List.Forall₂ Spells read entries → Misspells line bad fault → Faulty line text fault

section Lines

variable {text front inner behind : List Char} {d : Definition} {fault : CatalogFault}

/-- The columns are what stands between the parentheses. -/
theorem Frame.parse_eq (h : Frame text front inner behind) (line : Nat) :
    parse line text = ofParts line (Text.trim front) inner := by
  unfold parse
  rw [h.text_eq, cutFirst_append h.first]
  simp only [cutLast_append inner h.last]

theorem Reads.parse_eq (h : Reads text d) (line : Nat) : parse line text = .ok d := by
  obtain ⟨front, inner, behind, name, pieces, entries, hframe, hname, hne, hpieces, hentries, hdname, hcolumns, hkey⟩ := h
  obtain ⟨dname, ⟨columns, hsome⟩, dkey⟩ := d
  simp only at hdname hcolumns hkey
  subst hdname hcolumns hkey
  obtain rfl := Text.split_eq_iff.2 hpieces
  obtain ⟨hl, hread⟩ := readColumns_of_spells hentries line
  rw [hframe.parse_eq, Text.trim_eq_iff.2 hname]
  unfold ofParts
  rw [if_neg hne, hread]
  rfl

theorem Faulty.parse_eq (h : Faulty line text fault) : parse line text = .error fault := by
  cases h with
  | noOpening hnone =>
    unfold parse
    rw [cutFirst_eq_none hnone]
  | noClosing hsome hnone =>
    obtain ⟨front, rest, rfl, hfirst⟩ := List.eq_append_cons_of_mem hsome
    obtain ⟨hfront, hrest⟩ := not_or.1 (mt List.mem_append.2 hnone)
    unfold parse
    rw [cutFirst_append hfirst]
    simp only [cutLast_eq_none (fun hm => hrest (List.mem_cons_of_mem _ hm)), if_neg hfront]
  | misordered htext hfirst hfront hbehind =>
    unfold parse
    rw [htext, cutFirst_append hfirst]
    simp only [cutLast_eq_none hbehind, if_pos hfront]
  | noName hframe hfront =>
    rw [hframe.parse_eq, Text.trim_eq_nil_iff.2 hfront]
    rfl
  | @piece front inner behind bad read rest entries fault hframe hfront hpieces hread hbad =>
    have hne : ¬ Text.trim front = [] := mt Text.trim_eq_nil_iff.1 hfront
    have hcolumns : readColumns line (Text.split (· == ',') inner) = .error fault := by
      rw [Text.split_eq_iff.2 hpieces]
      exact readColumns_of_misspells hread hbad
    rw [hframe.parse_eq]
    unfold ofParts
    rw [if_neg hne, hcolumns]
    rfl

/-- **Each line defines a table or has a fault.** -/
theorem reads_or_faulty (line : Nat) (text : List Char) : (∃ d, Reads text d) ∨ ∃ fault, Faulty line text fault := by
  by_cases hopening : '(' ∈ text
  · obtain ⟨front, rest, rfl, hfirst⟩ := List.eq_append_cons_of_mem hopening
    by_cases hclosing : ')' ∈ rest
    · obtain ⟨inner, behind, rfl, hlast⟩ := exists_last_of_mem hclosing
      have hframe : Frame (front ++ '(' :: (inner ++ ')' :: behind)) front inner behind := ⟨rfl, hfirst, hlast⟩
      by_cases hfront : Blanks front
      · exact .inr ⟨_, .noName hframe hfront⟩
      · have hpieces : Divides ',' inner (Text.split (· == ',') inner) := Text.split_eq_iff.1 rfl
        rcases all_spell_or_one_misspells line (Text.split (· == ',') inner) with
          ⟨entries, hall⟩ | ⟨read, bad, rest, entries, fault, hsplit, hread, hbad⟩
        · have hsome : entries.map Entry.column ≠ [] := by
            rw [ne_eq, List.map_eq_nil_iff, ← List.length_eq_zero_iff, ← hall.length_eq, List.length_eq_zero_iff]
            exact hpieces.ne_nil
          exact .inl ⟨⟨String.ofList (Text.trim front), ⟨entries.map Entry.column, hsome⟩, Entry.key entries⟩, front, inner,
            behind, Text.trim front, _, entries, hframe, Text.trims_trim front, mt Text.trim_eq_nil_iff.1 hfront, hpieces,
            hall, rfl, rfl, rfl⟩
        · rw [hsplit] at hpieces
          exact .inr ⟨fault, .piece hframe hfront hpieces hread hbad⟩
    · by_cases hfront : ')' ∈ front
      · exact .inr ⟨_, .misordered rfl hfirst hfront hclosing⟩
      · refine .inr ⟨_, .noClosing hopening fun hm => ?_⟩
        rcases List.mem_append.1 hm with hm | hm
        · exact hfront hm
        · exact hclosing ((List.mem_cons.1 hm).resolve_left (by decide))
  · exact .inr ⟨_, .noOpening hopening⟩

theorem parse_eq_ok_iff : parse line text = .ok d ↔ Reads text d := by
  refine ⟨fun h => ?_, fun h => h.parse_eq line⟩
  rcases reads_or_faulty line text with ⟨d', hd⟩ | ⟨fault, hfault⟩
  · rw [hd.parse_eq line] at h
    cases h
    exact hd
  · rw [hfault.parse_eq] at h
    cases h

theorem parse_eq_error_iff : parse line text = .error fault ↔ Faulty line text fault := by
  refine ⟨fun h => ?_, Faulty.parse_eq⟩
  rcases reads_or_faulty line text with ⟨d, hd⟩ | ⟨fault', hfault⟩
  · rw [hd.parse_eq line] at h
    cases h
  · rw [hfault.parse_eq] at h
    cases h
    exact hfault

end Lines

/-! ## Printed definitions -/

/-- What the line for a definition says of its columns: all that have the name of the key are marked. -/
def entries (d : Definition) : List Entry :=
  d.schema.columns.map fun c => ⟨(c.name.getD "").toList, c.type, c.name = d.key⟩

/-- The line for a definition. -/
def print (d : Definition) : List Char :=
  d.name.toList ++ ' ' :: '(' :: ([',', ' '].intercalate (d.entries.map Entry.print) ++ [')'])

/-- The names in a definition are such that they can stand on a line, and the key is the name of a column. -/
structure Printable (d : Definition) : Prop where
  name_ne : d.name.toList ≠ []
  trimmed : Trimmed d.name.toList
  closed : '(' ∉ d.name.toList
  named : ∀ c ∈ d.schema.columns, ∃ name, c.name = some name ∧ name.toList ≠ [] ∧ Solid name.toList ∧ ',' ∉ name.toList
  key : ∀ name, d.key = some name → ∃ c ∈ d.schema.columns, c.name = some name

section Print

variable {d : Definition} {e : Entry}

/-- A printed entry is a piece for it, with any blanks in front. -/
theorem Entry.spells_print (hne : e.name ≠ []) (hs : Solid e.name) {gap : List Char} (hgap : Blanks gap) :
    Spells (gap ++ e.print) e := by
  obtain ⟨name, type, marked⟩ := e
  have hblank : Blanks [' '] := fun c hc => by rw [List.mem_singleton.1 hc]; decide
  have hword : type.word ≠ [] := by cases type <;> decide
  have hhead : ∀ (word : List Char) (c : Char), (' ' :: word).head? = some c → Text.isBlank c = true := by
    rintro word c hc
    cases hc
    decide
  cases marked with
  | false =>
    have hlast : Spaced [type.word] ([' '] ++ type.word ++ []) := .word hblank hword type.solid_word nofun (.blanks nofun)
    have htext : gap ++ Entry.print ⟨name, type, false⟩ = gap ++ name ++ ([' '] ++ type.word ++ []) := by
      simp [Entry.print]
    rw [htext]
    exact .plain (.word hgap hne hs (hhead _) hlast) type.named_word
  | true =>
    have hmark : Solid keyMark := by decide
    have hlast : Spaced [keyMark] ([' '] ++ keyMark ++ []) := .word hblank (by decide) hmark nofun (.blanks nofun)
    have hrest : Spaced [type.word, keyMark] ([' '] ++ type.word ++ ([' '] ++ keyMark ++ [])) :=
      .word hblank hword type.solid_word (hhead _) hlast
    have htext : gap ++ Entry.print ⟨name, type, true⟩ =
        gap ++ name ++ ([' '] ++ type.word ++ ([' '] ++ keyMark ++ [])) := by
      simp [Entry.print]
    rw [htext]
    exact .marked (.word hgap hne hs (hhead _) hrest) type.named_word

/-- No comma is in an entry but those in its name. -/
theorem Entry.comma_not_mem_print (h : ',' ∉ e.name) : ',' ∉ e.print := by
  obtain ⟨name, type, marked⟩ := e
  have hrest : ',' ∉ ' ' :: (type.word ++ if marked then ' ' :: keyMark else []) := by
    cases type <;> cases marked <;> decide
  exact fun hm => (List.mem_append.1 hm).elim h hrest

/-- Blanks behind separators belong to the pieces. -/
theorem intercalate_blank (piece : List Char) (pieces : List (List Char)) :
    [',', ' '].intercalate (piece :: pieces) = [','].intercalate (piece :: pieces.map (List.cons ' ')) := by
  induction pieces generalizing piece with
  | nil => rfl
  | cons next pieces ih =>
    rw [List.map_cons, List.intercalate_cons_cons, List.intercalate_cons_cons, Text.intercalate_cons_head, ih next]
    simp

namespace Printable

theorem columns_eq (h : d.Printable) : d.schema.columns = d.entries.map Entry.column := by
  unfold entries
  rw [List.map_map]
  refine ((List.map_congr_left fun c hc => ?_).trans (List.map_id _)).symm
  obtain ⟨name, hname, -⟩ := h.named c hc
  obtain ⟨type, cname⟩ := c
  subst hname
  show (⟨type, some (String.ofList name.toList)⟩ : Column) = _
  rw [String.ofList_toList]
  rfl

theorem of_mem_entries (h : d.Printable) (he : e ∈ d.entries) : e.name ≠ [] ∧ Solid e.name ∧ ',' ∉ e.name ∧
    (e.marked = true → d.key = some (String.ofList e.name)) := by
  obtain ⟨c, hc, rfl⟩ := List.mem_map.1 he
  obtain ⟨name, hname, hne, hs, hcomma⟩ := h.named c hc
  simp only [hname, Option.getD_some, String.ofList_toList, decide_eq_true_eq]
  exact ⟨hne, hs, hcomma, Eq.symm⟩

/-- The last column that is marked has the name of the key, like all that are. -/
theorem key_eq (h : d.Printable) : d.key = Entry.key d.entries := by
  unfold Entry.key
  cases hlast : (d.entries.filter Entry.marked).getLast? with
  | none =>
    cases hkey : d.key with
    | none => rfl
    | some name =>
      obtain ⟨c, hc, hname⟩ := h.key name hkey
      have hmem : (⟨(c.name.getD "").toList, c.type, c.name = d.key⟩ : Entry) ∈ d.entries.filter Entry.marked :=
        List.mem_filter.2 ⟨List.mem_map_of_mem hc, by rw [decide_eq_true_eq, hname, hkey]⟩
      rw [List.getLast?_eq_none_iff.1 hlast] at hmem
      exact absurd hmem List.not_mem_nil
  | some e =>
    obtain ⟨he, hmarked⟩ := List.mem_filter.1 (List.mem_of_getLast? hlast)
    exact (h.of_mem_entries he).2.2.2 hmarked

/-- **The line for a definition defines it.** -/
theorem reads (h : d.Printable) : Reads d.print d := by
  have hsome : d.entries ≠ [] := fun he => d.schema.columns_ne_nil (List.map_eq_nil_iff.1 he)
  obtain ⟨e, es, hentries⟩ := List.exists_cons_of_ne_nil hsome
  have hsound : ∀ x ∈ e :: es, x.name ≠ [] ∧ Solid x.name ∧ ',' ∉ x.name := fun x hx => by
    obtain ⟨hne, hs, hcomma, -⟩ := h.of_mem_entries (hentries ▸ hx)
    exact ⟨hne, hs, hcomma⟩
  have hblank : Blanks [' '] := fun c hc => by rw [List.mem_singleton.1 hc]; decide
  refine ⟨d.name.toList ++ [' '], [',', ' '].intercalate (d.entries.map Entry.print), [], d.name.toList,
    e.print :: (es.map Entry.print).map (List.cons ' '), d.entries, ⟨?_, ?_, List.not_mem_nil⟩,
    ⟨[], [' '], rfl, nofun, hblank, h.trimmed⟩, h.name_ne, ⟨List.cons_ne_nil _ _, ?_, ?_⟩, ?_,
    String.ofList_toList.symm, h.columns_eq, h.key_eq⟩
  · unfold print
    simp
  · intro hm
    rcases List.mem_append.1 hm with hm | hm
    · exact h.closed hm
    · exact absurd (List.mem_singleton.1 hm) (by decide)
  · -- no piece has a comma in it
    intro piece hp
    rcases List.mem_cons.1 hp with rfl | hp
    · exact Entry.comma_not_mem_print (hsound e List.mem_cons_self).2.2
    · obtain ⟨printed, hprinted, rfl⟩ := List.mem_map.1 hp
      obtain ⟨x, hx, rfl⟩ := List.mem_map.1 hprinted
      have hcomma := Entry.comma_not_mem_print (hsound x (List.mem_cons_of_mem e hx)).2.2
      exact fun hm => (List.mem_cons.1 hm).elim (by decide) hcomma
  · rw [hentries, List.map_cons, intercalate_blank]
  · rw [hentries]
    have hfirst := hsound e List.mem_cons_self
    have hnone : Text.Blanks [] := nofun
    refine .cons (Entry.spells_print hfirst.1 hfirst.2.1 hnone) ?_
    rw [List.map_map, List.forall₂_map_left_iff]
    refine List.forall₂_same.2 fun x hx => ?_
    have hx := hsound x (List.mem_cons_of_mem e hx)
    exact Entry.spells_print hx.1 hx.2.1 hblank

end Printable

end Print

/-- **The grammar of definitions.** A line is accepted if and only if it is a name and a list of columns in parentheses,
and gives these; otherwise the fault is the first one on it. The line that is printed for a definition gives it back. -/
theorem parse_exact (line : Nat) : (∀ text d, parse line text = .ok d ↔ Reads text d) ∧
    (∀ text fault, parse line text = .error fault ↔ Faulty line text fault) ∧
    ∀ d : Definition, d.Printable → parse line d.print = .ok d :=
  ⟨fun _ _ => parse_eq_ok_iff, fun _ _ => parse_eq_error_iff, fun _ h => h.reads.parse_eq line⟩

/-- The piece with the wrong type stands in front of the one without a type. -/
example : parse 3 "t (a int, b float, c)".toList = .error (.unknownType 3 "float") := rfl

end Definition

namespace Sample

/-- A table with a key. -/
def people : Definition := ⟨"people", ⟨[⟨.int, some "id"⟩, ⟨.text, some "name"⟩], by decide⟩, some "id"⟩

theorem people_printable : people.Printable where
  name_ne := by decide
  trimmed := ⟨by rintro c ⟨⟩; decide, by rintro c ⟨⟩; decide⟩
  closed := by decide
  named c hc := by
    simp only [people, List.mem_cons, List.not_mem_nil, or_false] at hc
    rcases hc with rfl | rfl
    · exact ⟨"id", rfl, by decide, by decide, by decide⟩
    · exact ⟨"name", rfl, by decide, by decide, by decide⟩
  key name h := ⟨⟨.int, some "id"⟩, List.mem_cons_self, h⟩

theorem parse_exact_people : people.print = "people (id int pk, name string)".toList ∧
    Definition.parse 1 people.print = .ok people :=
  ⟨rfl, (Definition.parse_exact 1).2.2 people people_printable⟩

end Sample

end HeapStore
