import HeapStore.Proofs.RowBytes
import HeapStore.Row.Record

/-!
# Records as bytes

What can be stored, what is read back, and which bytes are read at all.

* `Bytes.Stores`: a field lies in bytes from an offset on, all of it.
* `Record.ofFields_eq_ok_iff`: a record is made from exactly the fields that fit.
* `FieldType.decode_eq_ok_iff`, `decodeAll_eq_ok_iff`: **what is read is what lies there**, field by field.
* `Schema.codec_exact`: **records and their bytes determine each other.** No text of a record is too long to be stored
  whole, so a record is read back, and two records with the same bytes are equal. Other bytes that are read differ from
  those of the record behind texts only.
-/

namespace HeapStore

open Bytes (Clears TextAt ofText ofWord slice textLength toWord)

variable {t : FieldType} {ts : List FieldType} {f : Field} {fs : List Field} {bytes : Bytes} {s : Schema} {start : Nat}

/-! ## Making records -/

theorem FieldType.val_of_accept {v : t.Value} (h : t.accept f = .ok v) : v.val = f := by
  cases t <;> cases f
  case int.int n =>
    simp only [FieldType.accept, Except.ok.injEq] at h
    rw [← h]
  case text.text s =>
    simp only [FieldType.accept, FieldType.text?] at h
    split at h
    · simp only [Except.ok.injEq] at h
      rw [← h]
    · simp at h
  all_goals simp [FieldType.accept] at h

/-- Fields are taken as they are. -/
theorem val_of_acceptAll : ∀ {ts : List FieldType} {fs : List Field} {row : { fs // Fits ts fs }},
    acceptAll ts fs = .ok row → row.val = fs := by
  intro ts
  induction ts with
  | nil =>
    intro fs row h
    cases fs with
    | nil =>
      simp only [acceptAll, Except.ok.injEq] at h
      rw [← h]
    | cons f fs => simp [acceptAll] at h
  | cons t ts ih =>
    intro fs row h
    cases fs with
    | nil => simp [acceptAll] at h
    | cons f fs =>
      simp only [acceptAll, bind_eq_ok_iff] at h
      obtain ⟨v, hv, rest, hrest, h⟩ := h
      simp only [Except.ok.injEq] at h
      rw [← h]
      show v.val :: rest.val = f :: fs
      rw [FieldType.val_of_accept hv, ih hrest]

namespace Record

/-- Exactly the fields that fit a schema become a record of it, which lies nowhere yet. -/
theorem ofFields_eq_ok_iff {r : Record} :
    ofFields s fs = .ok r ↔ ∃ h : Fits s.types fs, r = ⟨s, ⟨fs, h⟩, none⟩ := by
  constructor
  · intro h
    unfold ofFields Schema.accept at h
    split at h
    · cases hrow : acceptAll s.types fs with
      | error fault => simp [hrow, Except.map] at h
      | ok row =>
        have hval := val_of_acceptAll hrow
        simp only [hrow, Except.map, Except.ok.injEq] at h
        subst hval
        exact ⟨row.property, h.symm⟩
    · simp [Except.map] at h
  · rintro ⟨hfit, rfl⟩
    unfold ofFields
    rw [Schema.accept_of_fits hfit]
    rfl

end Record

/-! ## Fields in bytes -/

/-- All of a field lies in the bytes from an offset on: a number as its word, and a text behind its length. -/
def Bytes.Stores (bytes : Bytes) (start : Nat) : Field → Prop
  | .int n => bytes.slice start 4 = ofWord n.toUInt32
  | .text s => bytes.textLength start = (ofText s).length ∧ bytes.slice (start + 4) (ofText s).length = ofText s

namespace Bytes

theorem stores_drop (w : Nat) : Stores (bytes.drop w) start f ↔ Stores bytes (w + start) f := by
  cases f with
  | int n =>
    unfold Stores
    simp only [slice_drop]
  | text s =>
    unfold Stores
    simp only [slice_drop, textLength_drop, Nat.add_assoc]

/-- What stands behind a field does not matter. -/
theorem stores_take {w : Nat} (hf : t.Accepts f) (hw : t.width ≤ w) : Stores (bytes.take w) 0 f ↔ Stores bytes 0 f := by
  have hfour := t.four_le_width
  cases f with
  | int n =>
    unfold Stores
    simp only [slice_take (show 0 + 4 ≤ w by omega)]
  | text s =>
    have ht : t = .text := hf.type_eq.symm
    subst ht
    have hs : (ofText s).length ≤ maxTextBytes := hf
    have hwidth : 4 + maxTextBytes ≤ w := hw
    unfold Stores
    simp only [textLength_take (show 4 ≤ w by omega), slice_take (show 0 + 4 + (ofText s).length ≤ w by omega)]

end Bytes

/-- **The field that is read is the one that lies there.** -/
theorem FieldType.decode_eq_ok_iff (hl : bytes.length = t.width) {v : t.Value} :
    t.decode bytes = .ok v ↔ bytes.Stores 0 v.val := by
  obtain ⟨f, hf⟩ := v
  unfold FieldType.decode
  rw [if_pos hl]
  cases t <;> cases f
  case int.int n =>
    have hl : bytes.length = 4 := hl
    have hslice : bytes.slice 0 4 = bytes := by
      unfold Bytes.slice
      rw [List.drop_zero, List.take_of_length_le (by omega)]
    have hstores : bytes.Stores 0 (.int n) ↔ bytes = ofWord n.toUInt32 := by
      unfold Bytes.Stores
      rw [hslice]
    rw [hstores]
    constructor
    · intro h
      have hword : (toWord bytes).toInt32 = n := Field.int.inj (congrArg Subtype.val (Except.ok.inj h))
      rw [← hword]
      exact (Bytes.ofWord_toWord hl).symm
    · intro h
      have hword : toWord bytes = n.toUInt32 := by rw [h, Bytes.toWord_ofWord]
      exact congrArg Except.ok (Subtype.ext (congrArg Field.int (congrArg UInt32.toInt32 hword)))
  case text.text s =>
    have hl : bytes.length = 4 + maxTextBytes := hl
    have hs : (ofText s).length ≤ maxTextBytes := hf
    show decodeText (textLength bytes 0) (bytes.drop 4) = _ ↔ _
    rw [decodeText_eq_ok_iff]
    constructor
    · rintro ⟨hn, s', he, htake⟩
      rw [← Field.text.inj he] at htake
      -- the text is not cut short by the end of the field
      have hlen : textLength bytes 0 = (ofText s).length := by
        rw [← htake, List.length_take, List.length_drop]
        omega
      refine ⟨hlen, ?_⟩
      rw [← hlen]
      exact htake
    · rintro ⟨hlen, hslice⟩
      rw [hlen]
      exact ⟨hs, s, rfl, hslice⟩
  all_goals exact hf.elim

/-! ## Rows in bytes -/

/-- All fields of a row lie in the bytes, each at its place. -/
def StoresAll (ts : List FieldType) (bytes : Bytes) (fs : List Field) : Prop :=
  ∀ k f, fs[k]? = some f → bytes.Stores (fieldStart ts k) f

theorem storesAll_cons (hf : t.Accepts f) : StoresAll (t :: ts) bytes (f :: fs) ↔
    Bytes.Stores (bytes.take t.width) 0 f ∧ StoresAll ts (bytes.drop t.width) fs := by
  rw [Bytes.stores_take hf (Nat.le_refl _)]
  constructor
  · intro h
    refine ⟨h 0 f rfl, fun k g hg => ?_⟩
    rw [Bytes.stores_drop]
    exact h (k + 1) g hg
  · rintro ⟨hfirst, hrest⟩ k g hg
    cases k with
    | zero =>
      have hfg : f = g := Option.some.inj hg
      rw [← hfg]
      exact hfirst
    | succ k =>
      rw [fieldStart_succ, ← Bytes.stores_drop]
      exact hrest k g hg

/-- **The row that is read is the one that lies there.** -/
theorem decodeAll_eq_ok_iff (ts : List FieldType) : ∀ {bytes : Bytes} {row : { fs // Fits ts fs }},
    totalWidth ts ≤ bytes.length → (decodeAll ts bytes = .ok row ↔ StoresAll ts bytes row.val) := by
  induction ts with
  | nil =>
    rintro bytes ⟨fs, hfit⟩ -
    have hfs : fs = [] := List.length_eq_zero_iff.1 (fits_length hfit)
    subst hfs
    exact ⟨fun _ k f hk => by simp at hk, fun _ => rfl⟩
  | cons t ts ih =>
    rintro bytes ⟨fs, hfit⟩ hl
    -- the first field is cut off, and the others lie in what is left, as far from its start as before
    have htake := length_take_width hl
    have hdrop := totalWidth_le_drop hl
    cases fs with
    | nil => exact hfit.elim
    | cons f fs =>
      rw [decodeAll_cons_eq_ok, storesAll_cons hfit.1]
      constructor
      · rintro ⟨v, rest, hv, hrest, he⟩
        obtain ⟨hfv, hfr⟩ := List.cons.inj he
        rw [hfv, hfr]
        exact ⟨(FieldType.decode_eq_ok_iff htake).1 hv, (ih hdrop).1 hrest⟩
      · rintro ⟨hfirst, hrest⟩
        exact ⟨⟨f, hfit.1⟩, ⟨fs, hfit.2⟩, (FieldType.decode_eq_ok_iff htake).2 hfirst, (ih hdrop).2 hrest, rfl⟩

/-! ## Records in bytes -/

namespace Record

variable {r a b : Record}

/-- A record that is read has the schema, the fields that are read, and no place. -/
theorem decode_eq_ok : decode s bytes = .ok r ↔
    bytes.length = s.width ∧ ∃ row, decodeAll s.types bytes = .ok row ∧ r = ⟨s, row, none⟩ := by
  unfold decode Schema.decode
  by_cases hl : bytes.length = s.width
  · rw [if_pos hl]
    cases hd : decodeAll s.types bytes with
    | error fault => simp [Except.map]
    | ok row => simp [Except.map, hl, eq_comm]
  · simp [Except.map, hl]

/-- **Records are read from the bytes of a row whose texts are texts**, and from no others. -/
theorem decode_isOk_iff : (∃ r, decode s bytes = .ok r) ↔
    bytes.length = s.width ∧ ∀ k, s.types[k]? = some .text → TextAt bytes (fieldStart s.types k) := by
  constructor
  · rintro ⟨r, h⟩
    obtain ⟨hl, row, hrow, -⟩ := decode_eq_ok.1 h
    exact ⟨hl, (decodeAll_isOk_iff s.types (Nat.le_of_eq hl.symm)).1 ⟨row, hrow⟩⟩
  · rintro ⟨hl, htexts⟩
    obtain ⟨row, hrow⟩ := (decodeAll_isOk_iff s.types (Nat.le_of_eq hl.symm)).2 htexts
    exact ⟨_, decode_eq_ok.2 ⟨hl, row, hrow, rfl⟩⟩

/-- **The record that is read is the one that lies there.** -/
theorem decode_eq_ok_iff : decode s bytes = .ok r ↔
    bytes.length = s.width ∧ ofFields s r.fields = .ok r ∧ StoresAll s.types bytes r.fields := by
  constructor
  · intro h
    obtain ⟨hl, row, hrow, rfl⟩ := decode_eq_ok.1 h
    exact ⟨hl, ofFields_eq_ok_iff.2 ⟨row.property, rfl⟩, (decodeAll_eq_ok_iff s.types (Nat.le_of_eq hl.symm)).1 hrow⟩
  · rintro ⟨hl, hmade, hstores⟩
    obtain ⟨hfit, hr⟩ := ofFields_eq_ok_iff.1 hmade
    have hrow : decodeAll s.types bytes = .ok ⟨r.fields, hfit⟩ :=
      (decodeAll_eq_ok_iff s.types (Nat.le_of_eq hl.symm)).2 hstores
    exact decode_eq_ok.2 ⟨hl, _, hrow, hr⟩

/-- A record is read back from its bytes, apart from its place. -/
theorem decode_encode (r : Record) : decode r.schema r.encode = .ok { r with place := none } := by
  unfold decode encode
  rw [Schema.decode_encode]
  rfl

/-- Two records of the same types have the same bytes if and only if they are equal. -/
theorem encode_eq_iff (ht : a.schema.types = b.schema.types) : a.encode = b.encode ↔ a.Same b := by
  constructor
  · intro h
    have hfields : encodeAll a.fields = encodeAll b.fields := h
    have hfit : Fits a.schema.types b.fields := by
      rw [ht]
      exact b.row.property
    -- both are read back from the same bytes
    have ha : decodeAll a.schema.types (encodeAll a.fields) = .ok ⟨a.fields, a.row.property⟩ :=
      decodeAll_encodeAll a.row.property
    rw [hfields, decodeAll_encodeAll hfit] at ha
    exact ⟨ht, congrArg Subtype.val (Except.ok.inj ha.symm)⟩
  · intro h
    show encodeAll a.fields = encodeAll b.fields
    rw [h.2]

end Record

/-- How the records of a schema are stored as bytes, and which bytes are records. -/
structure Codec (s : Schema) : Prop where
  /-- A record is made from exactly the fields that fit. -/
  made : ∀ fields, (∃ r, Record.ofFields s fields = .ok r) ↔ Fits s.types fields
  /-- It takes the bytes of a row, and is read back from them. -/
  restored : ∀ fields r, Record.ofFields s fields = .ok r → r.encode.length = s.width ∧ Record.decode s r.encode = .ok r
  /-- Its fields lie there one after another, and texts up to their last byte. -/
  whole : ∀ fields r, Record.ofFields s fields = .ok r →
    ∀ k f, fields[k]? = some f → r.encode.Stores (fieldStart s.types k) f
  /-- Every record of the schema is stored like one that is made from its fields, wherever it came from. -/
  anywhere : ∀ r : Record, r.schema = s → ∃ r', Record.ofFields s r.fields = .ok r' ∧ r'.Same r ∧ r'.encode = r.encode
  /-- Two records have the same bytes if and only if they are equal. -/
  alike : ∀ a b : Record, a.schema.types = s.types → b.schema.types = s.types → (a.encode = b.encode ↔ a.Same b)
  /-- Bytes are read if they are as many as a row takes, with a text wherever one belongs. -/
  accepted : ∀ bytes, (∃ r, Record.decode s bytes = .ok r) ↔
    bytes.length = s.width ∧ ∀ k, s.types[k]? = some .text → TextAt bytes (fieldStart s.types k)
  /-- The record that is read can be made from its fields, which are those that lie there. -/
  read : ∀ bytes r, Record.decode s bytes = .ok r ↔ bytes.length = s.width ∧ Record.ofFields s r.fields = .ok r ∧
    ∀ k f, r.fields[k]? = some f → bytes.Stores (fieldStart s.types k) f
  /-- Stored again it has zeros behind its texts, and otherwise the bytes that were read. -/
  cleared : ∀ bytes r, Record.decode s bytes = .ok r → Clears (LooseAll s.types bytes) bytes r.encode

namespace Schema

/-- **Records and their bytes.** For every schema, a record that is made from fields takes the bytes of a row, nothing of
it is cut off, and it is read back; so records with the same bytes are equal. Exactly the byte strings of that length are
read that have a text of at most `maxTextBytes` bytes, in UTF-8 and behind its length, wherever the schema has a text.
What is read from them can be made from its fields, and stored again it differs from them in zeros behind its texts
only. -/
theorem codec_exact (s : Schema) : Codec s where
  made fields := by
    constructor
    · rintro ⟨r, h⟩
      obtain ⟨hfit, -⟩ := Record.ofFields_eq_ok_iff.1 h
      exact hfit
    · intro hfit
      exact ⟨_, Record.ofFields_eq_ok_iff.2 ⟨hfit, rfl⟩⟩
  restored fields r h := by
    obtain ⟨hfit, rfl⟩ := Record.ofFields_eq_ok_iff.1 h
    exact ⟨s.length_encode _, Record.decode_encode ⟨s, ⟨fields, hfit⟩, none⟩⟩
  whole fields r h := by
    obtain ⟨hfit, rfl⟩ := Record.ofFields_eq_ok_iff.1 h
    -- what is read back lies in the bytes
    have hread := Record.decode_encode ⟨s, ⟨fields, hfit⟩, none⟩
    exact (Record.decode_eq_ok_iff.1 hread).2.2
  anywhere := by
    rintro r rfl
    exact ⟨_, Record.ofFields_eq_ok_iff.2 ⟨r.row.property, rfl⟩, ⟨rfl, rfl⟩, rfl⟩
  alike a b ha hb := Record.encode_eq_iff (ha.trans hb.symm)
  accepted bytes := Record.decode_isOk_iff
  read bytes r := Record.decode_eq_ok_iff
  cleared bytes r h := by
    obtain ⟨hl, row, hrow, rfl⟩ := Record.decode_eq_ok.1 h
    exact clears_of_decodeAll s.types hl hrow

/-- Numbers are stored in two's complement with the highest byte first, and texts behind the number of their bytes. -/
example : (encodeAll [.int (-2), .text "é"]).take 10 = [0xFF, 0xFF, 0xFF, 0xFE, 0, 0, 0, 2, 0xC3, 0xA9] := by decide

end Schema

end HeapStore
