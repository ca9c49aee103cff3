import HeapStore.Import.Basic
import HeapStore.Proofs.RowBytes

/-!
# Delivered rows

Rows come to an import from a reader, of which nothing is known. Whatever it delivers at some place can be left out, has
values, or has a fault.

* `Delivery.Blank`, `Delivery.Gives`, `Delivery.Fails`: what is left out, what has a value for each type, and what has a
  fault, each said of the texts of the fields. `Delivery.cases`: everything that is delivered is one of these.
* `Delivers`: the values of deliveries without a fault. `delivers_or_fails`: all deliveries have values, or there is a
  first one with a fault.
-/

namespace HeapStore

/-! ## The values of texts -/

/-- The texts stand for the values, one for each type. -/
inductive ReadAs : List FieldType → List (List Char) → List Field → Prop
  | nil : ReadAs [] [] []
  | cons {t : FieldType} {ts : List FieldType} {text : List Char} {texts : List (List Char)} {value : t.Value}
    {values : List Field} : t.read? text = .ok value → ReadAs ts texts values →
      ReadAs (t :: ts) (text :: texts) (value.val :: values)

/-- There is a text for each type, and the first one that stands for no value has the fault. -/
inductive Misread : List FieldType → List (List Char) → RecordFault → Prop
  | here {t : FieldType} {ts : List FieldType} {text : List Char} {texts : List (List Char)} {fault : RecordFault} :
      t.read? text = .error fault → texts.length = ts.length → Misread (t :: ts) (text :: texts) fault
  | behind {t : FieldType} {ts : List FieldType} {text : List Char} {texts : List (List Char)} {value : t.Value}
    {fault : RecordFault} : t.read? text = .ok value → Misread ts texts fault → Misread (t :: ts) (text :: texts) fault

section Texts

variable {types : List FieldType} {texts : List (List Char)} {values : List Field} {fault : RecordFault}

theorem ReadAs.length_eq (h : ReadAs types texts values) : texts.length = types.length := by
  induction h with
  | nil => rfl
  | cons _ _ ih => exact congrArg Nat.succ ih

theorem ReadAs.readAll_eq (h : ReadAs types texts values) :
    ∃ fits, readAll types texts = .ok ⟨values, fits⟩ := by
  induction h with
  | nil => exact ⟨trivial, rfl⟩
  | cons hvalue _ ih =>
    obtain ⟨fits, hrest⟩ := ih
    exact ⟨_, bind_eq_ok_iff.2 ⟨_, hvalue, bind_eq_ok_iff.2 ⟨_, hrest, rfl⟩⟩⟩

theorem Misread.length_eq (h : Misread types texts fault) : texts.length = types.length := by
  induction h with
  | here _ hl => exact congrArg Nat.succ hl
  | behind _ _ ih => exact congrArg Nat.succ ih

theorem Misread.readAll_eq (h : Misread types texts fault) : readAll types texts = .error fault := by
  induction h with
  | here hfault _ =>
    unfold readAll
    rw [hfault]
    rfl
  | behind hvalue _ ih =>
    unfold readAll
    rw [hvalue, ih]
    rfl

/-- Texts, one for each type, have values, or one of them is the first that has none. -/
theorem readAs_or_misread (types : List FieldType) : ∀ {texts : List (List Char)}, texts.length = types.length →
    (∃ values, ReadAs types texts values) ∨ ∃ fault, Misread types texts fault := by
  induction types with
  | nil =>
    intro texts h
    obtain rfl := List.eq_nil_of_length_eq_zero h
    exact .inl ⟨_, .nil⟩
  | cons t ts ih =>
    intro texts h
    obtain ⟨text, texts, rfl⟩ := List.exists_cons_of_length_eq_add_one h
    have hl : texts.length = ts.length := Nat.succ.inj h
    cases hread : t.read? text with
    | error fault => exact .inr ⟨fault, .here hread hl⟩
    | ok value =>
      rcases ih hl with ⟨values, hvalues⟩ | ⟨fault, hfault⟩
      · exact .inl ⟨_, .cons hread hvalues⟩
      · exact .inr ⟨fault, .behind hread hfault⟩

end Texts

/-! ## One delivery -/

namespace Delivery

variable {types : List FieldType} {d : Delivery} {values : List Field} {fault : ImportFault} {schema : Schema}

/-- A row of one empty field. -/
def Blank (d : Delivery) : Prop := ∃ row, d = .ok row ∧ row.texts = .ok [[]]

/-- Any other row, whose fields stand for the values. -/
def Gives (types : List FieldType) (d : Delivery) (values : List Field) : Prop :=
  ∃ row texts, d = .ok row ∧ row.texts = .ok texts ∧ texts ≠ [[]] ∧ ReadAs types texts values

/-- What has a fault: no row could be read, a field is no text, there are too few fields or too many, or a field stands
for no value of its type. -/
inductive Fails (types : List FieldType) : Delivery → ImportFault → Prop
  | unreadable (cause : IoFault) : Fails types (.error cause) (.unreadable cause)
  | noText {row : Delimited.Row} {fault : ImportFault} : row.texts = .error fault → Fails types (.ok row) fault
  | count {row : Delimited.Row} {texts : List (List Char)} : row.texts = .ok texts → texts ≠ [[]] →
      texts.length ≠ types.length → Fails types (.ok row) (.fieldCount row.start.line types.length texts.length)
  | field {row : Delimited.Row} {texts : List (List Char)} {cause : RecordFault} : row.texts = .ok texts →
      texts ≠ [[]] → Misread types texts cause → Fails types (.ok row) (.field row.start.line cause)

/-- What is delivered is left out, has values, or has a fault. -/
theorem cases (types : List FieldType) (d : Delivery) :
    d.Blank ∨ (∃ values, d.Gives types values) ∨ ∃ fault, d.Fails types fault := by
  cases d with
  | error cause => exact .inr (.inr ⟨_, .unreadable cause⟩)
  | ok row =>
    cases htexts : row.texts with
    | error fault => exact .inr (.inr ⟨fault, .noText htexts⟩)
    | ok texts =>
      by_cases hblank : texts = [[]]
      · exact .inl ⟨row, rfl, by rw [htexts, hblank]⟩
      · by_cases hl : texts.length = types.length
        · rcases readAs_or_misread types hl with ⟨values, hvalues⟩ | ⟨cause, hcause⟩
          · exact .inr (.inl ⟨values, row, texts, rfl, htexts, hblank, hvalues⟩)
          · exact .inr (.inr ⟨_, .field htexts hblank hcause⟩)
        · exact .inr (.inr ⟨_, .count htexts hblank hl⟩)

/-- The record of a row whose fields are texts. -/
theorem importRow_eq {row : Delimited.Row} {texts : List (List Char)} (h : row.texts = .ok texts) :
    importRow schema row = if texts = [[]] then .ok none
      else if texts.length ≠ schema.types.length then
        .error (.fieldCount row.start.line schema.types.length texts.length)
      else match readAll schema.types texts with
        | .error cause => .error (.field row.start.line cause)
        | .ok fields => .ok (some ⟨schema, fields, none⟩) := by
  unfold importRow
  rw [h]
  rfl

theorem Blank.import_eq (h : d.Blank) (schema : Schema) : importDelivery schema d = .ok none := by
  obtain ⟨row, rfl, htexts⟩ := h
  exact (importRow_eq htexts).trans (if_pos rfl)

theorem Gives.import_eq (h : d.Gives schema.types values) :
    ∃ r, importDelivery schema d = .ok (some r) ∧ r.schema = schema ∧ r.fields = values := by
  obtain ⟨row, texts, rfl, htexts, hblank, hread⟩ := h
  obtain ⟨fits, hvalues⟩ := hread.readAll_eq
  refine ⟨⟨schema, ⟨values, fits⟩, none⟩, (importRow_eq htexts).trans ?_, rfl, rfl⟩
  rw [if_neg hblank, if_neg (not_not.2 hread.length_eq), hvalues]

theorem Fails.import_eq (h : d.Fails schema.types fault) : importDelivery schema d = .error fault := by
  cases h with
  | unreadable cause => rfl
  | noText htexts =>
    show importRow schema _ = _
    unfold importRow
    rw [htexts]
    rfl
  | count htexts hblank hl =>
    refine (importRow_eq htexts).trans ?_
    rw [if_neg hblank, if_pos hl]
  | field htexts hblank hcause =>
    refine (importRow_eq htexts).trans ?_
    rw [if_neg hblank, if_neg (not_not.2 hcause.length_eq), hcause.readAll_eq]

end Delivery

namespace Delimited.Row

/-- A row whose fields are no texts says where, and nothing of files or records. -/
theorem of_textsFrom_error (start : Position) (fields : List Bytes) : ∀ {first : Nat} {fault : ImportFault},
    textsFrom start first fields = .error fault → ∃ index validUpTo, fault = .notUtf8 start index validUpTo := by
  induction fields with
  | nil => exact fun h => nomatch h
  | cons bytes rest ih =>
    intro first fault h
    unfold textsFrom at h
    split at h
    · cases h
      exact ⟨_, _, rfl⟩
    · cases hrest : textsFrom start (first + 1) rest with
      | ok texts =>
        rw [hrest] at h
        cases h
      | error other =>
        rw [hrest] at h
        cases h
        exact ih hrest

end Delimited.Row

/-- The fault of what is delivered is none of a file or of a page. -/
theorem Delivery.Fails.ne {types : List FieldType} {d : Delivery} {fault : ImportFault} (h : d.Fails types fault) :
    (∀ cause, fault ≠ .file cause) ∧ ∀ cause, fault ≠ .record cause := by
  cases h with
  | unreadable _ => exact ⟨fun _ => nofun, fun _ => nofun⟩
  | noText htexts =>
    obtain ⟨_, _, rfl⟩ := Delimited.Row.of_textsFrom_error _ _ htexts
    exact ⟨fun _ => nofun, fun _ => nofun⟩
  | count _ _ _ => exact ⟨fun _ => nofun, fun _ => nofun⟩
  | field _ _ _ => exact ⟨fun _ => nofun, fun _ => nofun⟩

/-! ## All deliveries -/

/-- Nothing that is delivered has a fault, and these are the values of the rows that are not left out. -/
inductive Delivers (types : List FieldType) : List Delivery → List (List Field) → Prop
  | nil : Delivers types [] []
  | blank {d : Delivery} {ds : List Delivery} {rows : List (List Field)} : d.Blank → Delivers types ds rows →
      Delivers types (d :: ds) rows
  | row {d : Delivery} {ds : List Delivery} {values : List Field} {rows : List (List Field)} : d.Gives types values →
      Delivers types ds rows → Delivers types (d :: ds) (values :: rows)

/-- **Either nothing has a fault, or something is the first that has one.** -/
theorem delivers_or_fails (types : List FieldType) (ds : List Delivery) : (∃ rows, Delivers types ds rows) ∨
    ∃ front d behind rows fault, ds = front ++ d :: behind ∧ Delivers types front rows ∧ d.Fails types fault := by
  induction ds with
  | nil => exact .inl ⟨_, .nil⟩
  | cons d ds ih =>
    rcases d.cases types with hblank | ⟨values, hgives⟩ | ⟨fault, hfails⟩
    · rcases ih with ⟨rows, hrows⟩ | ⟨front, bad, behind, rows, fault, rfl, hrows, hfails⟩
      · exact .inl ⟨rows, .blank hblank hrows⟩
      · exact .inr ⟨d :: front, bad, behind, rows, fault, rfl, .blank hblank hrows, hfails⟩
    · rcases ih with ⟨rows, hrows⟩ | ⟨front, bad, behind, rows, fault, rfl, hrows, hfails⟩
      · exact .inl ⟨_, .row hgives hrows⟩
      · exact .inr ⟨d :: front, bad, behind, _, fault, rfl, .row hgives hrows, hfails⟩
    · exact .inr ⟨[], d, ds, [], fault, rfl, .nil, hfails⟩

end HeapStore
