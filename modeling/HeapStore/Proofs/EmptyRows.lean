import HeapStore.Proofs.DensePages
import HeapStore.Proofs.Pieces

/-!
# Rows that are left out

An import leaves out a row of one empty field, for it takes it for a line with nothing on it. In a table of one column of
texts such a row is the row of the empty text, and is lost.

* `Delivery.Reads`: a row whose fields stand for values, be it left out or not. `Delivery.Reads.blank_or_gives`: **one that
  is left out is the row of one empty text**.
* `delivers_of_reads`: what is imported of rows whose fields stand for values.
* `Disk.Opens.imports_filled`: **an import has a record for each row but the empty ones of a table of one text**, and counts those
  that it has.
-/

namespace HeapStore

/-- The row of one empty text. -/
def emptyRow : List Field := [.text ""]

namespace Delimited.Row

/-- The texts of fields have no blanks around them. -/
theorem trim_of_mem_textsFrom (start : Position) (fields : List Bytes) : ∀ {first : Nat} {texts : List (List Char)},
    textsFrom start first fields = .ok texts → ∀ text ∈ texts, Text.trim text = text := by
  induction fields with
  | nil =>
    rintro first texts h text hm
    cases h
    exact absurd hm List.not_mem_nil
  | cons bytes rest ih =>
    intro first texts h text hm
    unfold textsFrom at h
    split at h
    · cases h
    · obtain ⟨behind, hbehind, h⟩ := bind_eq_ok_iff.1 h
      cases h
      rcases List.mem_cons.1 hm with rfl | hm
      · exact Text.trim_trim _
      · exact ih hbehind text hm

end Delimited.Row

namespace Delivery

variable {types : List FieldType} {d : Delivery} {values : List Field}

/-- A row with a field for each type, whose fields stand for the values. -/
def Reads (types : List FieldType) (d : Delivery) (values : List Field) : Prop :=
  ∃ row texts, d = .ok row ∧ row.texts = .ok texts ∧ ReadAs types texts values

/-- A text field has the text without the blanks around it. -/
theorem val_of_read?_text {text : List Char} {value : FieldType.text.Value}
    (h : FieldType.text.read? text = .ok value) : value.val = .text (String.ofList (Text.trim text)) := by
  have hread : FieldType.text? (String.ofList (Text.trim text)) = .ok value := h
  unfold FieldType.text? at hread
  split at hread
  · cases hread
    rfl
  · cases hread

/-- An empty field stands for the empty text and for nothing else. -/
theorem readAs_empty (h : ReadAs types [[]] values) : types = [.text] ∧ values = emptyRow := by
  cases h with
  | @cons t ts _ _ value _ hvalue hrest =>
    cases hrest
    cases t with
    | int => cases hvalue
    | text => exact ⟨rfl, congrArg (fun f => [f]) (val_of_read?_text hvalue)⟩

/-- The row of the empty text is one empty field. -/
theorem eq_empty_of_readAs {texts : List (List Char)} (h : ReadAs types texts emptyRow)
    (htrim : ∀ text ∈ texts, Text.trim text = text) : texts = [[]] := by
  generalize hvalues : emptyRow = values at h
  cases h with
  | nil => cases hvalues
  | @cons t ts text texts value values hvalue hrest =>
    obtain ⟨hval, hnil⟩ := List.cons.inj hvalues
    subst hnil
    cases hrest
    cases t with
    | int =>
      have haccepts := value.property
      rw [← hval] at haccepts
      exact haccepts.elim
    | text =>
      rw [val_of_read?_text hvalue, htrim text List.mem_cons_self] at hval
      rw [← String.ofList_injective (Field.text.inj hval)]

/-- **A row that is left out is the row of one empty text**, and no other row is that. -/
theorem Reads.blank_or_gives (h : d.Reads types values) :
    d.Blank ∧ types = [.text] ∧ values = emptyRow ∨ d.Gives types values ∧ values ≠ emptyRow := by
  obtain ⟨row, texts, rfl, htexts, hread⟩ := h
  by_cases hempty : texts = [[]]
  · subst hempty
    exact .inl ⟨⟨row, rfl, htexts⟩, readAs_empty hread⟩
  · refine .inr ⟨⟨row, texts, rfl, htexts, hempty, hread⟩, ?_⟩
    rintro rfl
    exact hempty (eq_empty_of_readAs hread (Delimited.Row.trim_of_mem_textsFrom _ _ htexts))

end Delivery

/-- **Of rows whose fields stand for values all but the empty ones are imported.** -/
theorem delivers_of_reads {types : List FieldType} {ds : List Delivery} {rows : List (List Field)}
    (h : List.Forall₂ (Delivery.Reads types) ds rows) :
    Delivers types ds (rows.filter (· ≠ emptyRow)) ∧ (types ≠ [.text] → rows.filter (· ≠ emptyRow) = rows) := by
  induction h with
  | nil => exact ⟨.nil, fun _ => rfl⟩
  | cons hd _ ih =>
    obtain ⟨hdelivers, hall⟩ := ih
    rcases hd.blank_or_gives with ⟨hblank, htypes, rfl⟩ | ⟨hgives, hne⟩
    · rw [List.filter_cons_of_neg (by simp)]
      exact ⟨.blank hblank hdelivers, fun hother => absurd htypes hother⟩
    · rw [List.filter_cons_of_pos (by simpa using hne)]
      exact ⟨.row hgives hdelivers, fun hother => congrArg (List.cons _) (hall hother)⟩

namespace Disk

variable {disk : Disk} {reader : Option Bytes → List Delivery} {input output : String} {types : List FieldType}
  {schema : Schema} {size : Nat} {source : Option Bytes} {here : Location} {rows : List (List Field)}

/-- **An import has a record for each row but the empty ones of a table of one text**, in their order and with no gap, and
answers with the number of those that it has. In every other table no row is lost. -/
theorem Opens.imports_filled (h : disk.Opens input output source here) (hschema : Schema.ofTypes types = .ok schema)
    (hs : schema.slotCount size ≠ 0) (hrows : List.Forall₂ (Delivery.Reads types) (reader source) rows)
    (hroom : schema.pagesFor size rows.length < Paged.numberBound) :
    ∃ after kept, disk.importWith reader input output size types = (.ok kept.length, after) ∧
      Dense ⟨⟨0⟩, schema, here, size⟩ after (schema.pagesFor size kept.length) kept ∧
      kept = rows.filter (· ≠ emptyRow) ∧ kept.length + rows.count emptyRow = rows.length ∧
      (types ≠ [.text] → kept = rows) := by
  obtain ⟨hdelivers, hall⟩ := delivers_of_reads hrows
  have hfew : (rows.filter (· ≠ emptyRow)).length ≤ rows.length := List.length_filter_le _ _
  obtain ⟨after, himport, hdense⟩ := h.dense hschema hs hdelivers
    (lt_of_le_of_lt (schema.pagesFor_mono size hfew) hroom)
  refine ⟨after, _, himport, hdense, rfl, ?_, hall⟩
  -- each row is kept, or is one of the empty ones
  have hcount : rows.count emptyRow = rows.countP fun row => decide ¬decide (row ≠ emptyRow) = true :=
    List.countP_congr fun row _ => by simp
  rw [hcount, ← List.countP_eq_length_filter]
  exact (List.length_eq_countP_add_countP _).symm

end Disk

namespace Sample

/-- The schema of a column of texts without a name. -/
def worded : Schema := ⟨[⟨.text, none⟩], by decide⟩

/-- Three rows of one text, the second of which is empty. -/
def letters : Bytes := Bytes.ofText "a\n\"\"\nb\n"

def lettered : Disk := ({} : Disk).set ["rows"] letters

theorem lettered_opens : lettered.Opens "rows" "pages" (some letters) ["pages"] := by
  refine ⟨rfl, ?_, .inl rfl⟩
  have hmade : (lettered.create (Path.ofText "pages")).1.toOption = some ["pages"] := by decide +kernel
  cases hc : lettered.create (Path.ofText "pages") with
  | mk o made =>
    rw [hc] at hmade
    cases o with
    | ok here =>
      cases hmade
      exact ⟨made, rfl⟩
    | error fault => cases hmade

/-- Each of the rows has a field for the one type, and the fields are texts. -/
theorem reads_letters : List.Forall₂ (Delivery.Reads [.text]) (deliveries 0x2C (some letters))
    [[.text "a"], emptyRow, [.text "b"]] := by
  have hreads : ∀ (row : Delimited.Row) (text : List Char), row.texts = .ok [text] →
      (h : (Bytes.ofText (String.ofList (Text.trim text))).length ≤ maxTextBytes) →
      Delivery.Reads [.text] (.ok row) [.text (String.ofList (Text.trim text))] := by
    intro row text htexts h
    have hread : FieldType.text.read? text = .ok ⟨.text (String.ofList (Text.trim text)), h⟩ := dif_pos h
    exact ⟨row, [text], rfl, htexts, .cons hread .nil⟩
  exact .cons (hreads ⟨_, _⟩ ['a'] rfl (by decide)) (.cons (hreads ⟨_, _⟩ [] rfl (by decide))
    (.cons (hreads ⟨_, _⟩ ['b'] rfl (by decide)) .nil))

/-- Two of the three rows are imported. -/
theorem imports_filled_two : ∃ after, lettered.importText "rows" "pages" 265 [.text] 0x2C = (.ok 2, after) ∧
    Dense ⟨⟨0⟩, worded, ["pages"], 265⟩ after 1 [[.text "a"], [.text "b"]] := by
  have hschema : Schema.ofTypes [.text] = .ok worded := rfl
  obtain ⟨after, kept, himport, hdense, hkept, -, -⟩ := lettered_opens.imports_filled hschema
    (show worded.slotCount 265 ≠ 0 by decide) reads_letters (by decide)
  obtain rfl : kept = [[.text "a"], [.text "b"]] := hkept
  exact ⟨after, himport, hdense⟩

/-- Each of three rows has one field for the one type and stands for a record, but an import answers with two. -/
theorem imports_two_of_three : worded.slotCount 265 ≠ 0 ∧ lettered.Opens "rows" "pages" (some letters) ["pages"] ∧
    ∃ rows, List.Forall₂ (Delivery.Reads [.text]) (deliveries 0x2C (some letters)) rows ∧ rows.length = 3 ∧
      ∃ after, lettered.importText "rows" "pages" 265 [.text] 0x2C = (.ok 2, after) := by
  refine ⟨by decide, lettered_opens, _, reads_letters, rfl, ?_⟩
  have hschema : Schema.ofTypes [.text] = .ok worded := rfl
  obtain ⟨after, himport, -⟩ := lettered_opens.dense hschema (show worded.slotCount 265 ≠ 0 by decide)
    (delivers_of_reads reads_letters).1 (by decide)
  exact ⟨after, himport⟩

end Sample

end HeapStore
