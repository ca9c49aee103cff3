import HeapStore.Proofs.FilePages
import HeapStore.Proofs.PageCodec

/-!
# Rows byte by byte

Which bytes are a row, and what is left of them when the row is stored again: all but the bytes behind texts, which
become zeros.

* `Bytes.Clears`: some bytes have become zeros, and the others are the same. It goes through appending
  (`Clears.append`).
* `Bytes.TextAt`: a text with its length is stored at an offset.
* `FieldType.decode_isOk_iff`, `decodeAll_isOk_iff`: **exactly the bytes whose texts are texts are fields and rows.**
* `FieldType.clears_of_decode`, `clears_of_decodeAll`: what is stored again.
* `FieldType.decode_congr`, `decodeAll_congr`: bytes behind texts are not looked at.
-/

namespace HeapStore

open Bytes (ofText ofWord toWord zeros slice)

namespace Bytes

variable {a a' b b' bytes out : Bytes} {cleared cleared' : Nat → Prop} {start n i : Nat}

/-! ## Parts of byte strings -/

theorem slice_drop (bytes : Bytes) (w start n : Nat) : slice (bytes.drop w) start n = slice bytes (w + start) n := by
  unfold slice
  rw [List.drop_drop]

theorem slice_take {w : Nat} (h : start + n ≤ w) : slice (bytes.take w) start n = slice bytes start n := by
  unfold slice
  rw [List.drop_take, List.take_take, Nat.min_eq_left (by omega)]

theorem getElem?_zeros (h : i < n) : (zeros n)[i]? = some 0 := by
  unfold zeros
  rw [List.getElem?_replicate, if_pos h]

/-- Four bytes are the bytes of the word that they spell. -/
theorem ofWord_toWord (h : bytes.length = 4) : ofWord (toWord bytes) = bytes := by
  match bytes, h with
  | [x, y, z, w], _ =>
    have hx := x.toNat_lt
    have hy := y.toNat_lt
    have hz := z.toNat_lt
    have hw := w.toNat_lt
    have hword : (toWord [x, y, z, w]).toNat =
        0x100 * (0x100 * (0x100 * x.toNat + y.toNat) + z.toNat) + w.toNat := by
      simp only [toWord, List.foldl_cons, List.foldl_nil, UInt32.toNat_ofNat']
      omega
    unfold ofWord
    rw [hword]
    simp only [List.cons.injEq, ← UInt8.toNat_inj, UInt8.toNat_ofNat', and_true]
    omega

/-! ## Bytes that become zeros -/

/-- Some bytes have become zeros, and the others are the same. -/
structure Clears (cleared : Nat → Prop) (bytes out : Bytes) : Prop where
  length : out.length = bytes.length
  zero : ∀ i < bytes.length, cleared i → out[i]? = some 0
  same : ∀ i, ¬ cleared i → out[i]? = bytes[i]?

theorem clears_none (bytes : Bytes) (h : ∀ i < bytes.length, ¬ cleared i) : Clears cleared bytes bytes :=
  ⟨rfl, fun i hi hc => absurd hc (h i hi), fun _ _ => rfl⟩

theorem clears_zeros (bytes : Bytes) (h : ∀ i < bytes.length, cleared i) :
    Clears cleared bytes (zeros bytes.length) := by
  refine ⟨length_zeros _, fun i hi _ => getElem?_zeros hi, fun i hn => ?_⟩
  have hi : bytes.length ≤ i := by
    by_contra hlt
    exact hn (h i (by omega))
  rw [List.getElem?_eq_none hi, List.getElem?_eq_none (by rw [length_zeros]; exact hi)]

/-- Two parts are cleared one behind the other. -/
theorem Clears.append (ha : Clears cleared a a') (hb : Clears cleared' b b') {both : Nat → Prop}
    (hl : ∀ i < a.length, both i ↔ cleared i) (hr : ∀ i, both (a.length + i) ↔ cleared' i) :
    Clears both (a ++ b) (a' ++ b') := by
  -- both strings go from the first part to the second one at the same place
  have hleft : ∀ i < a.length, (a' ++ b')[i]? = a'[i]? ∧ (a ++ b)[i]? = a[i]? := by
    intro i hi
    exact ⟨List.getElem?_append_left (by rw [ha.length]; exact hi), List.getElem?_append_left hi⟩
  have hright : ∀ i, (a' ++ b')[a.length + i]? = b'[i]? ∧ (a ++ b)[a.length + i]? = b[i]? := by
    intro i
    rw [List.getElem?_append_right (by rw [ha.length]; omega), List.getElem?_append_right (by omega), ha.length,
      Nat.add_sub_cancel_left]
    exact ⟨rfl, rfl⟩
  refine ⟨by rw [List.length_append, List.length_append, ha.length, hb.length], fun i hi hc => ?_, fun i hn => ?_⟩
  · rcases Nat.lt_or_ge i a.length with hlt | hge
    · rw [(hleft i hlt).1]
      exact ha.zero i hlt ((hl i hlt).1 hc)
    · obtain ⟨j, rfl⟩ := Nat.exists_eq_add_of_le hge
      rw [List.length_append] at hi
      rw [(hright j).1]
      exact hb.zero j (by omega) ((hr j).1 hc)
  · rcases Nat.lt_or_ge i a.length with hlt | hge
    · rw [(hleft i hlt).1, (hleft i hlt).2]
      exact ha.same i fun hc => hn ((hl i hlt).2 hc)
    · obtain ⟨j, rfl⟩ := Nat.exists_eq_add_of_le hge
      rw [(hright j).1, (hright j).2]
      exact hb.same j fun hc => hn ((hr j).2 hc)

/-- What lies behind some place has become zeros. -/
theorem clears_behind (h : n ≤ bytes.length) (hc : ∀ i, cleared i ↔ n ≤ i) :
    Clears cleared bytes (bytes.take n ++ zeros (bytes.length - n)) := by
  have hkept : (bytes.take n).length = n := by
    rw [List.length_take]
    omega
  have hfront : Clears (fun _ => False) (bytes.take n) (bytes.take n) := clears_none _ fun _ _ => id
  have hback : Clears (fun _ => True) (bytes.drop n) (zeros (bytes.drop n).length) := clears_zeros _ fun _ _ => trivial
  have hclear : Clears cleared _ _ := hfront.append hback
    (fun i hi => ⟨fun h => absurd ((hc i).1 h) (by omega), False.elim⟩)
    (fun i => ⟨fun _ => trivial, fun _ => (hc _).2 (by omega)⟩)
  rw [List.take_append_drop, List.length_drop] at hclear
  exact hclear

/-! ## Texts -/

/-- The length of the text that is stored at an offset. -/
def textLength (bytes : Bytes) (start : Nat) : Nat := (toWord (bytes.slice start 4)).toNat

/-- A text with its length is stored at an offset. -/
def TextAt (bytes : Bytes) (start : Nat) : Prop :=
  bytes.textLength start ≤ maxTextBytes ∧ ∃ s, bytes.slice (start + 4) (bytes.textLength start) = ofText s

theorem textLength_drop (bytes : Bytes) (w start : Nat) :
    textLength (bytes.drop w) start = textLength bytes (w + start) := by
  unfold textLength
  rw [slice_drop]

theorem textAt_drop (bytes : Bytes) (w start : Nat) : TextAt (bytes.drop w) start ↔ TextAt bytes (w + start) := by
  unfold TextAt
  rw [textLength_drop, slice_drop, Nat.add_assoc]

theorem textLength_take {w : Nat} (h : 4 ≤ w) : textLength (bytes.take w) 0 = textLength bytes 0 := by
  unfold textLength
  rw [slice_take (by omega)]

theorem textAt_take {w : Nat} (h : 4 + maxTextBytes ≤ w) : TextAt (bytes.take w) 0 ↔ TextAt bytes 0 := by
  unfold TextAt
  rw [textLength_take (by omega)]
  constructor
  · rintro ⟨hn, s, hs⟩
    rw [slice_take (by omega)] at hs
    exact ⟨hn, s, hs⟩
  · rintro ⟨hn, s, hs⟩
    rw [← slice_take (w := w) (by omega)] at hs
    exact ⟨hn, s, hs⟩

end Bytes

open Bytes (Clears TextAt textLength)

/-! ## Fields -/

variable {t : FieldType} {ts : List FieldType} {bytes bytes' : Bytes} {i : Nat}

/-- The bytes of a field of some type are not looked at behind a text. -/
def FieldType.Loose (t : FieldType) (bytes : Bytes) (i : Nat) : Prop := t = .text ∧ 4 + textLength bytes 0 ≤ i

/-- The text that is read is the one that the bytes spell. -/
theorem decodeText_eq_ok_iff {n : Nat} {f : FieldType.text.Value} :
    decodeText n bytes = .ok f ↔ n ≤ maxTextBytes ∧ ∃ s, f.val = .text s ∧ bytes.take n = ofText s := by
  unfold decodeText
  by_cases hn : n ≤ maxTextBytes
  · rw [dif_pos hn]
    split
    · next s hs =>
      have htake : bytes.take n = ofText s := Text.Utf8.decode_eq_ok_iff.1 hs
      constructor
      · intro h
        cases h
        exact ⟨hn, s, rfl, htake⟩
      · rintro ⟨-, s', hf, hs'⟩
        rw [Text.Utf8.decode_eq_ok_iff.2 hs'] at hs
        exact congrArg Except.ok (Subtype.ext (by rw [hf, Except.ok.inj hs]))
    · next fault hs =>
      simp only [reduceCtorEq, false_iff, not_and, not_exists]
      intro _ s _ hs'
      rw [Text.Utf8.decode_eq_ok_iff.2 hs'] at hs
      cases hs
  · simp [hn]

theorem decodeText_isOk_iff (n : Nat) (bytes : Bytes) :
    (∃ f, decodeText n bytes = .ok f) ↔ n ≤ maxTextBytes ∧ ∃ s, bytes.take n = ofText s := by
  simp only [decodeText_eq_ok_iff]
  constructor
  · rintro ⟨f, hn, s, -, hs⟩
    exact ⟨hn, s, hs⟩
  · rintro ⟨hn, s, hs⟩
    have hlen : (ofText s).length ≤ maxTextBytes := by
      rw [← hs, List.length_take]
      omega
    exact ⟨⟨.text s, hlen⟩, hn, s, rfl, hs⟩

/-- Exactly the bytes that begin with a text are a text field, and all are a number. -/
theorem FieldType.decode_isOk_iff (hl : bytes.length = t.width) :
    (∃ f, t.decode bytes = .ok f) ↔ (t = .text → TextAt bytes 0) := by
  unfold FieldType.decode
  rw [if_pos hl]
  cases t with
  | int => exact ⟨fun _ => nofun, fun _ => ⟨_, rfl⟩⟩
  | text =>
    have hd := decodeText_isOk_iff (toWord (bytes.take 4)).toNat (bytes.drop 4)
    exact hd.trans ⟨fun h _ => h, fun h => h rfl⟩

/-- **A field that is stored again** is as it was, but for zeros behind a text. -/
theorem FieldType.clears_of_decode {f : t.Value} (h : t.decode bytes = .ok f) :
    Clears (t.Loose bytes) bytes f.val.encode := by
  unfold FieldType.decode at h
  split at h
  · next hl =>
    cases t with
    | int =>
      cases h
      have hn : ofWord (toWord bytes).toInt32.toUInt32 = bytes := by
        rw [show (toWord bytes).toInt32.toUInt32 = toWord bytes from rfl]
        exact Bytes.ofWord_toWord hl
      show Clears _ bytes (ofWord (toWord bytes).toInt32.toUInt32)
      rw [hn]
      exact Bytes.clears_none bytes fun i _ hc => absurd hc.1 (by decide)
    | text =>
      have hl : bytes.length = 4 + maxTextBytes := hl
      obtain ⟨hn, s, hs, htake⟩ := decodeText_eq_ok_iff.1 h
      have hn : textLength bytes 0 ≤ maxTextBytes := hn
      have hword : ofWord (toWord (bytes.take 4)) = bytes.take 4 := by
        apply Bytes.ofWord_toWord
        rw [List.length_take]
        omega
      -- the text is as long as its length says, so the length that is stored again is the one that was read
      have hencode : f.val.encode = bytes.take (4 + textLength bytes 0) ++
          zeros (bytes.length - (4 + textLength bytes 0)) := by
        have hlen : (ofText s).length = textLength bytes 0 := by
          rw [← htake, List.length_take, List.length_drop]
          exact Nat.min_eq_left (by omega)
        have hprefix : UInt32.ofNat (textLength bytes 0) = toWord (bytes.take 4) := UInt32.ofNat_toNat
        have htake : (bytes.drop 4).take (textLength bytes 0) = ofText s := htake
        rw [hs]
        simp only [Field.encode]
        rw [List.take_of_length_le (by omega), hlen, hprefix, hword, ← htake, ← List.take_add, hl,
          Nat.add_sub_add_left]
      rw [hencode]
      exact Bytes.clears_behind (by omega) fun i => ⟨fun hc => hc.2, fun hi => ⟨rfl, hi⟩⟩
  · cases h

theorem decodeText_congr {n : Nat} (h : bytes.take n = bytes'.take n) : decodeText n bytes = decodeText n bytes' := by
  unfold decodeText
  by_cases hn : n ≤ maxTextBytes
  · rw [dif_pos hn, dif_pos hn]
    split
    · next s hs =>
      rw [h] at hs
      split
      · next s' hs' =>
        rw [hs] at hs'
        cases hs'
        rfl
      · next hs' =>
        rw [hs] at hs'
        cases hs'
    · next fault hs =>
      rw [h] at hs
      split
      · next hs' =>
        rw [hs] at hs'
        cases hs'
      · next hs' =>
        rw [hs] at hs'
        cases hs'
        rfl
  · rw [dif_neg hn, dif_neg hn]

/-- The bytes behind a text are not looked at. -/
theorem FieldType.decode_congr (hl : bytes'.length = bytes.length)
    (h : ∀ i, ¬ t.Loose bytes i → bytes[i]? = bytes'[i]?) : t.decode bytes = t.decode bytes' := by
  unfold FieldType.decode
  rw [hl]
  split
  · cases t with
    | int =>
      have he : bytes = bytes' := List.ext_getElem? fun i => h i fun hc => absurd hc.1 (by decide)
      rw [he]
    | text =>
      -- the length is read alike on both sides, and with it as much of what follows
      have hfront : ∀ n ≤ 4 + textLength bytes 0, bytes.take n = bytes'.take n := by
        intro n hn
        apply List.ext_getElem?
        intro i
        rw [List.getElem?_take, List.getElem?_take]
        split
        · exact h i fun hc => by have := hc.2; omega
        · rfl
      have hprefix : bytes.take 4 = bytes'.take 4 := hfront 4 (by omega)
      have hpayload := congrArg (List.drop 4) (hfront (4 + textLength bytes 0) (Nat.le_refl _))
      rw [List.drop_take, List.drop_take, Nat.add_sub_cancel_left] at hpayload
      show decodeText (toWord (bytes.take 4)).toNat (bytes.drop 4) =
        decodeText (toWord (bytes'.take 4)).toNat (bytes'.drop 4)
      rw [← hprefix]
      exact decodeText_congr hpayload
  · rfl

/-! ## Rows -/

/-- Where a field begins in the bytes of a row. -/
def fieldStart (ts : List FieldType) (k : Nat) : Nat := totalWidth (ts.take k)

/-- The bytes of a row that are not looked at: those behind its texts. -/
def LooseAll (ts : List FieldType) (bytes : Bytes) (i : Nat) : Prop :=
  ∃ k, ts[k]? = some .text ∧ fieldStart ts k + 4 + textLength bytes (fieldStart ts k) ≤ i ∧
    i < fieldStart ts k + FieldType.text.width

theorem fieldStart_succ (t : FieldType) (ts : List FieldType) (k : Nat) :
    fieldStart (t :: ts) (k + 1) = t.width + fieldStart ts k := rfl

theorem FieldType.four_le_width (t : FieldType) : 4 ≤ t.width := by
  cases t <;> decide

/-- A field lies in its row. -/
theorem fieldStart_add_width_le {ts : List FieldType} {t : FieldType} : ∀ {k : Nat}, ts[k]? = some t →
    fieldStart ts k + t.width ≤ totalWidth ts := by
  induction ts with
  | nil => exact fun h => by cases h
  | cons t' ts ih =>
    intro k h
    have hw : totalWidth (t' :: ts) = t'.width + totalWidth ts := rfl
    cases k with
    | zero =>
      have ht : t' = t := Option.some.inj h
      have hstart : fieldStart (t' :: ts) 0 = 0 := rfl
      rw [hw, hstart, ht]
      omega
    | succ k =>
      have hk := ih h
      rw [hw, fieldStart_succ]
      omega

/-- What of a row is looked at does not depend on what stands behind it. -/
theorem looseAll_take {ts : List FieldType} {bytes : Bytes} {w i : Nat} (hw : totalWidth ts ≤ w) :
    LooseAll ts (bytes.take w) i ↔ LooseAll ts bytes i := by
  have hlength : ∀ k, ts[k]? = some .text →
      textLength (bytes.take w) (fieldStart ts k) = textLength bytes (fieldStart ts k) := by
    intro k hk
    have hfit := fieldStart_add_width_le hk
    have hfour := FieldType.four_le_width .text
    unfold textLength
    rw [Bytes.slice_take (by omega)]
  constructor
  · rintro ⟨k, hk, hle, hlt⟩
    rw [hlength k hk] at hle
    exact ⟨k, hk, hle, hlt⟩
  · rintro ⟨k, hk, hle, hlt⟩
    rw [← hlength k hk] at hle
    exact ⟨k, hk, hle, hlt⟩

/-- The texts of a row do not depend on what stands behind it. -/
theorem textAt_take_row {ts : List FieldType} {bytes : Bytes} {w k : Nat} (hw : totalWidth ts ≤ w)
    (hk : ts[k]? = some .text) : TextAt (bytes.take w) (fieldStart ts k) ↔ TextAt bytes (fieldStart ts k) := by
  have hfit : fieldStart ts k + (4 + maxTextBytes) ≤ totalWidth ts := fieldStart_add_width_le hk
  have hdrop : (bytes.take w).drop (fieldStart ts k) = (bytes.drop (fieldStart ts k)).take (w - fieldStart ts k) :=
    List.drop_take
  rw [← Nat.add_zero (fieldStart ts k), ← Bytes.textAt_drop, hdrop, Bytes.textAt_take (by omega), Bytes.textAt_drop]

theorem looseAll_first (hi : i < t.width) : LooseAll (t :: ts) bytes i ↔ t.Loose (bytes.take t.width) i := by
  unfold FieldType.Loose
  rw [Bytes.textLength_take t.four_le_width]
  constructor
  · rintro ⟨k, hk, hle, hlt⟩
    cases k with
    | zero =>
      have hstart : fieldStart (t :: ts) 0 = 0 := rfl
      rw [hstart] at hle
      exact ⟨Option.some.inj hk, by omega⟩
    | succ k =>
      -- a later field begins behind the first one
      rw [fieldStart_succ] at hle
      omega
  · rintro ⟨rfl, hle⟩
    have hstart : fieldStart (FieldType.text :: ts) 0 = 0 := rfl
    exact ⟨0, rfl, by rw [hstart]; omega, by rw [hstart]; omega⟩

theorem looseAll_rest : LooseAll (t :: ts) bytes (t.width + i) ↔ LooseAll ts (bytes.drop t.width) i := by
  constructor
  · rintro ⟨k, hk, hle, hlt⟩
    cases k with
    | zero =>
      have hstart : fieldStart (t :: ts) 0 = 0 := rfl
      have ht : t = .text := Option.some.inj hk
      rw [hstart, ht] at hlt
      omega
    | succ k =>
      rw [fieldStart_succ] at hle hlt
      exact ⟨k, hk, by rw [Bytes.textLength_drop]; omega, by omega⟩
  · rintro ⟨k, hk, hle, hlt⟩
    rw [Bytes.textLength_drop] at hle
    exact ⟨k + 1, hk, by rw [fieldStart_succ]; omega, by rw [fieldStart_succ]; omega⟩

theorem bind_eq_ok_iff {ε α β : Type} {x : Except ε α} {f : α → Except ε β} {b : β} :
    (x >>= f) = .ok b ↔ ∃ a, x = .ok a ∧ f a = .ok b := by
  cases x with
  | error fault => simp [bind, Except.bind]
  | ok a => simp [bind, Except.bind]

/-- The first field of a row and the others are read one after the other. -/
theorem decodeAll_cons_eq_ok {fs : { fs // Fits (t :: ts) fs }} : decodeAll (t :: ts) bytes = .ok fs ↔
    ∃ f rest, t.decode (bytes.take t.width) = .ok f ∧ decodeAll ts (bytes.drop t.width) = .ok rest ∧
      fs.val = f.val :: rest.val := by
  have hstep : decodeAll (t :: ts) bytes = (do
      let f ← t.decode (bytes.take t.width)
      let rest ← decodeAll ts (bytes.drop t.width)
      .ok ⟨f.val :: rest.val, .cons f.property rest.property⟩) := rfl
  rw [hstep]
  simp only [bind_eq_ok_iff]
  constructor
  · rintro ⟨f, hf, rest, hr, he⟩
    cases he
    exact ⟨f, rest, hf, hr, rfl⟩
  · rintro ⟨f, rest, hf, hr, hfs⟩
    exact ⟨f, hf, rest, hr, congrArg Except.ok (Subtype.ext hfs.symm)⟩

/-- The bytes of a row are enough for its first field. -/
theorem length_take_width (hl : totalWidth (t :: ts) ≤ bytes.length) : (bytes.take t.width).length = t.width := by
  have hl : t.width + totalWidth ts ≤ bytes.length := hl
  rw [List.length_take]
  omega

/-- The others have what is left. -/
theorem totalWidth_le_drop (hl : totalWidth (t :: ts) ≤ bytes.length) :
    totalWidth ts ≤ (bytes.drop t.width).length := by
  have hl : t.width + totalWidth ts ≤ bytes.length := hl
  rw [List.length_drop]
  omega

/-- **Exactly the bytes whose texts are texts are a row.** -/
theorem decodeAll_isOk_iff (ts : List FieldType) : ∀ {bytes : Bytes}, totalWidth ts ≤ bytes.length →
    ((∃ fs, decodeAll ts bytes = .ok fs) ↔ ∀ k, ts[k]? = some .text → TextAt bytes (fieldStart ts k)) := by
  induction ts with
  | nil =>
    intro bytes _
    constructor
    · intro _ k hk
      cases hk
    · exact fun _ => ⟨⟨[], trivial⟩, rfl⟩
  | cons t ts ih =>
    intro bytes hl
    have hfirst := FieldType.decode_isOk_iff (length_take_width hl)
    have hrest := ih (totalWidth_le_drop hl)
    have htext : t = .text → (TextAt (bytes.take t.width) 0 ↔ TextAt bytes 0) := by
      rintro rfl
      exact Bytes.textAt_take (Nat.le_refl _)
    constructor
    · rintro ⟨fs, hfs⟩ k hk
      obtain ⟨f, rest, hf, hr, -⟩ := decodeAll_cons_eq_ok.1 hfs
      cases k with
      | zero =>
        have ht : t = .text := Option.some.inj hk
        exact (htext ht).1 (hfirst.1 ⟨f, hf⟩ ht)
      | succ k =>
        rw [fieldStart_succ, ← Bytes.textAt_drop]
        exact hrest.1 ⟨rest, hr⟩ k hk
    · intro h
      obtain ⟨f, hf⟩ := hfirst.2 fun ht => (htext ht).2 (h 0 (congrArg some ht))
      obtain ⟨rest, hr⟩ := hrest.2 fun k hk => by
        rw [Bytes.textAt_drop, ← fieldStart_succ]
        exact h (k + 1) hk
      exact ⟨⟨f.val :: rest.val, .cons f.property rest.property⟩, decodeAll_cons_eq_ok.2 ⟨f, rest, hf, hr, rfl⟩⟩

/-- **A row that is stored again** is as it was, but for zeros behind its texts. -/
theorem clears_of_decodeAll (ts : List FieldType) : ∀ {bytes : Bytes} {fs : { fs // Fits ts fs }},
    bytes.length = totalWidth ts → decodeAll ts bytes = .ok fs → Clears (LooseAll ts bytes) bytes (encodeAll fs.val) := by
  induction ts with
  | nil =>
    intro bytes fs hl h
    cases h
    rw [List.length_eq_zero_iff.1 hl]
    exact Bytes.clears_none [] fun i hi => absurd hi (Nat.not_lt_zero i)
  | cons t ts ih =>
    intro bytes fs hl h
    obtain ⟨f, rest, hf, hr, hfs⟩ := decodeAll_cons_eq_ok.1 h
    have htake : (bytes.take t.width).length = t.width := length_take_width (Nat.le_of_eq hl.symm)
    have hl : bytes.length = t.width + totalWidth ts := hl
    have hfirst : Clears _ (bytes.take t.width) f.val.encode := FieldType.clears_of_decode hf
    have hrest := ih (by rw [List.length_drop]; omega) hr
    have hclear : Clears (LooseAll (t :: ts) bytes) _ _ := hfirst.append hrest
      (fun i hi => looseAll_first (by omega)) (fun i => by rw [htake]; exact looseAll_rest)
    rw [List.take_append_drop] at hclear
    rw [hfs]
    exact hclear

/-- The bytes behind the texts of a row are not looked at. -/
theorem decodeAll_congr (ts : List FieldType) : ∀ {bytes bytes' : Bytes}, bytes.length = totalWidth ts →
    bytes'.length = totalWidth ts → (∀ i, ¬ LooseAll ts bytes i → bytes[i]? = bytes'[i]?) →
      decodeAll ts bytes = decodeAll ts bytes' := by
  induction ts with
  | nil => exact fun _ _ _ => rfl
  | cons t ts ih =>
    intro bytes bytes' hl hl' h
    have hl : bytes.length = t.width + totalWidth ts := hl
    have hl' : bytes'.length = t.width + totalWidth ts := hl'
    have hfirst : t.decode (bytes.take t.width) = t.decode (bytes'.take t.width) := by
      apply FieldType.decode_congr
      · rw [List.length_take, List.length_take, hl, hl']
      · intro i hn
        rw [List.getElem?_take, List.getElem?_take]
        split
        · next hi => exact h i fun hc => hn ((looseAll_first hi).1 hc)
        · rfl
    have hrest : decodeAll ts (bytes.drop t.width) = decodeAll ts (bytes'.drop t.width) := by
      apply ih
      · rw [List.length_drop]
        omega
      · rw [List.length_drop]
        omega
      · intro i hn
        rw [List.getElem?_drop, List.getElem?_drop]
        exact h _ fun hc => hn (looseAll_rest.1 hc)
    unfold decodeAll
    rw [hfirst, hrest]

end HeapStore
