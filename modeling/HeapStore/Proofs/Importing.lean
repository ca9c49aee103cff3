import HeapStore.Proofs.Deliveries
import HeapStore.Proofs.NewFiles
import HeapStore.Proofs.Packing

/-!
# Importing packs pages

The records of imported rows fill the page in hand from its first slot on. The pages behind it in the file are full.

* `Filling.Fills`: a page that is being filled, behind the full pages of a file.
* `Filling.Fills.add`: **one more record is packed behind the others**, on a new page if the one in hand is full.
* `importAll_delivers`: **whatever has no fault is packed behind the rows that were there**. `Filling.Fills.finish` says
  that the last page is written at the end.
* `Disk.importWith_packed`: **an import without a fault packs its rows**, whatever their number.
-/

namespace HeapStore

open Bytes (overwrite)

/-! ## Writing behind the last page -/

namespace Paged

variable {size n : Nat} {file data : Bytes}

/-- A page that is written behind the last one is appended. -/
theorem write_behind (hs : 0 < size) (hlen : file.length = n * size) (hn : n < numberBound)
    (hd : data.length = size) : write size file n data = .ok (file ++ data) := by
  have hcount : ¬ count size file < n := by
    unfold count countOf
    rw [hlen, Nat.mul_div_cancel _ hs, Nat.mod_eq_of_lt hn]
    exact Nat.lt_irrefl n
  unfold write
  rw [if_neg (not_not.2 hd), if_neg hcount, ← hlen]
  unfold overwrite
  rw [List.take_length, Nat.sub_self, List.drop_of_length_le (by omega)]
  simp [Bytes.zeros]

end Paged

/-! ## The records of rows -/

theorem Schema.types_ofTypes {s : Schema} {types : List FieldType} (h : ofTypes types = .ok s) : s.types = types := by
  unfold ofTypes ofColumns at h
  split at h
  · cases h
    show (types.map fun t => Column.mk t none).map Column.type = types
    rw [List.map_map]
    exact List.map_id types
  · cases h

namespace Filling

variable {t : TableFile} {f : Filling} {disk : Disk} {before last : List (List Field)} {r : Record}

/-- The page in hand is packed with the last rows, and the file with the rows before them. Those fill their pages, and a
new page is in hand only for a row. -/
structure Fills (t : TableFile) (f : Filling) (disk : Disk) (before last : List (List Field)) : Prop where
  schema : f.page.schema = t.schema
  size : f.page.size = t.pageSize
  packs : f.page.Packs last
  full : before.length = f.page.id.number * t.schema.slotCount t.pageSize
  written : f.written = before.length + last.length
  first : last = [] → before = []
  stored : ∃ file, disk.held t.location = .ok file ∧ Packed t.schema t.pageSize before file

namespace Fills

/-- The page in hand is written behind the others. -/
theorem store (h : Fills t f disk before last) (hs : t.schema.slotCount t.pageSize ≠ 0) (hlast : last ≠ [])
    (hroom : t.schema.pagesFor t.pageSize (before ++ last).length ≤ Paged.numberBound) :
    ∃ disk', t.store disk f.page = .ok disk' ∧
      ∃ file, disk'.held t.location = .ok file ∧ Packed t.schema t.pageSize (before ++ last) file := by
  obtain ⟨file, hheld, hpacked⟩ := h.stored
  have hle : last.length ≤ t.schema.slotCount t.pageSize := by
    have hle := h.packs.length_le
    rw [h.schema, h.size] at hle
    exact hle
  have hlen : f.page.encode.length = t.pageSize := by rw [f.page.length_encode, h.size]
  have hnumber : f.page.id.number < Paged.numberBound := by
    rw [List.length_append, h.full, pagesFor_add (by rwa [ne_eq, List.length_eq_zero_iff]) hle] at hroom
    omega
  have hfile : file.length = f.page.id.number * t.pageSize := by rw [hpacked.length, h.full, pagesFor_full hs]
  refine ⟨disk.set t.location (file ++ f.page.encode), ?_, _,
    Disk.held_set_self (Disk.not_isAbove_of_held hheld), ?_⟩
  · unfold TableFile.store
    rw [TableFile.bytes_eq_ok.2 hheld]
    exact bind_eq_ok_iff.2 ⟨_, rfl, bind_eq_ok_iff.2 ⟨_, Paged.write_behind (Schema.size_pos hs) hfile hnumber hlen, rfl⟩⟩
  · exact hpacked.append hs h.full h.packs (congrArg Schema.types h.schema) h.size hlast

/-- **One more record is packed behind the others.** -/
theorem add (h : Fills t f disk before last) (hs : t.schema.slotCount t.pageSize ≠ 0)
    (hr : r.schema.types = t.schema.types)
    (hroom : t.schema.pagesFor t.pageSize (before ++ last).length ≤ Paged.numberBound) :
    ∃ f' disk' before' last', f.add t disk r = .ok (f', disk') ∧ Fills t f' disk' before' last' ∧
      before' ++ last' = before ++ last ++ [r.fields] := by
  have hle := h.packs.length_le
  have hfree := h.packs.freeSlots
  rw [h.schema, h.size] at hle hfree
  by_cases hfull : last.length = t.schema.slotCount t.pageSize
  · -- the page in hand is full, and the record goes to a new one
    have hlast : last ≠ [] := fun he => hs (by rw [← hfull, he]; rfl)
    obtain ⟨disk', hstore, hstored⟩ := h.store hs hlast hroom
    obtain ⟨page, hblank, -⟩ : ∃ p, Page.blank (t.pageId (f.page.id.number + 1)) t.schema t.pageSize = .ok p ∧
      ∀ slot, p.row? slot = none := Page.decode_zeros hs
    obtain ⟨hid, hschema, hsize, -⟩ := Page.fields_of_decode hblank
    obtain ⟨hpacks, -⟩ := Page.packs_of_blank hblank
    obtain ⟨q, hq, hqp, hqid, hqs, hqz⟩ := hpacks.insert (r := r) (by rw [hr, hschema])
      (by rw [hschema, hsize, List.length_nil]; exact Nat.pos_of_ne_zero hs)
    refine ⟨⟨q, f.written + 1⟩, disk', before ++ last, [r.fields], ?_,
      ⟨hqs.trans hschema, hqz.trans hsize, hqp, ?_, ?_, fun he => absurd he (List.cons_ne_nil _ _), hstored⟩, rfl⟩
    · unfold Filling.add TableFile.blank
      rw [if_pos (by rw [hfree, hfull, Nat.sub_self]), hstore]
      refine bind_eq_ok_iff.2 ⟨disk', rfl, bind_eq_ok_iff.2 ⟨page, by rw [hblank]; rfl, ?_⟩⟩
      exact bind_eq_ok_iff.2 ⟨(page, disk'), rfl, bind_eq_ok_iff.2 ⟨(_, q), by rw [hq]; rfl, rfl⟩⟩
    · show _ = q.id.number * _
      rw [hqid, hid, List.length_append, hfull, h.full]
      show _ = (f.page.id.number + 1) * _
      rw [Nat.add_mul, Nat.one_mul]
    · show f.written + 1 = _
      rw [h.written, List.length_append, List.length_singleton]
  · -- the page in hand has a slot for it
    have hlt : last.length < f.page.schema.slotCount f.page.size := by
      rw [h.schema, h.size]
      omega
    obtain ⟨q, hq, hqp, hqid, hqs, hqz⟩ := h.packs.insert (r := r) (by rw [hr, h.schema]) hlt
    refine ⟨⟨q, f.written + 1⟩, disk, before, last ++ [r.fields], ?_,
      ⟨hqs.trans h.schema, hqz.trans h.size, hqp, ?_, ?_, fun he => ?_, h.stored⟩, (List.append_assoc _ _ _).symm⟩
    · unfold Filling.add
      rw [if_neg (by rw [hfree]; omega)]
      exact bind_eq_ok_iff.2 ⟨(f.page, disk), rfl, bind_eq_ok_iff.2 ⟨(_, q), by rw [hq]; rfl, rfl⟩⟩
    · show _ = q.id.number * _
      rw [hqid]
      exact h.full
    · show f.written + 1 = _
      rw [h.written, List.length_append, List.length_singleton]
      omega
    · exact absurd he (List.append_ne_nil_of_right_ne_nil _ (List.cons_ne_nil _ _))

/-- **At the end the page in hand is written**, if a row has come. -/
theorem finish (h : Fills t f disk before last) (hs : t.schema.slotCount t.pageSize ≠ 0)
    (hroom : t.schema.pagesFor t.pageSize (before ++ last).length ≤ Paged.numberBound) :
    ∃ disk' file, importAll t [] f disk = (.ok (before ++ last).length, disk') ∧ disk'.held t.location = .ok file ∧
      Packed t.schema t.pageSize (before ++ last) file := by
  have hwritten : f.written = (before ++ last).length := by rw [h.written, List.length_append]
  unfold importAll
  by_cases hlast : last = []
  · -- no row has come
    obtain rfl := h.first hlast
    subst hlast
    obtain ⟨file, hheld, hpacked⟩ := h.stored
    exact ⟨disk, file, if_pos hwritten, hheld, hpacked⟩
  · obtain ⟨disk', hstore, file, hheld, hpacked⟩ := h.store hs hlast hroom
    have hsome : f.written ≠ 0 := by
      rw [hwritten, ne_eq, List.length_eq_zero_iff]
      exact List.append_ne_nil_of_right_ne_nil _ hlast
    rw [if_neg hsome, hstore, hwritten]
    exact ⟨disk', file, rfl, hheld, hpacked⟩

end Fills

end Filling

/-! ## All rows -/

variable {t : TableFile} {disk : Disk}

/-- **Whatever has no fault is packed behind the rows that were there**, and the import goes on with what comes
behind. -/
theorem importAll_delivers (hs : t.schema.slotCount t.pageSize ≠ 0) {front : List Delivery} {rows : List (List Field)}
    (hd : Delivers t.schema.types front rows) :
    ∀ {f : Filling} {disk : Disk} {before last : List (List Field)}, f.Fills t disk before last →
      t.schema.pagesFor t.pageSize (before ++ last ++ rows).length ≤ Paged.numberBound →
      ∃ f' disk' before' last', (∀ behind, importAll t (front ++ behind) f disk = importAll t behind f' disk') ∧
        f'.Fills t disk' before' last' ∧ before' ++ last' = before ++ last ++ rows := by
  induction hd with
  | nil =>
    intro f disk before last h _
    exact ⟨f, disk, before, last, fun _ => rfl, h, (List.append_nil _).symm⟩
  | blank hblank _ ih =>
    intro f disk before last h hroom
    obtain ⟨f', disk', before', last', hrun, h', happend⟩ := ih h hroom
    refine ⟨f', disk', before', last', fun behind => ?_, h', happend⟩
    rw [← hrun, List.cons_append, importAll, hblank.import_eq]
  | @row d ds values rows hgives _ ih =>
    intro f disk before last h hroom
    obtain ⟨r, hr, hschema, rfl⟩ := hgives.import_eq
    have hmono : t.schema.pagesFor t.pageSize (before ++ last).length ≤
        t.schema.pagesFor t.pageSize (before ++ last ++ r.fields :: rows).length :=
      t.schema.pagesFor_mono t.pageSize (List.sublist_append_left _ _).length_le
    obtain ⟨f₁, disk₁, before₁, last₁, hadd, h₁, happend₁⟩ := h.add hs (congrArg Schema.types hschema)
      (le_trans hmono hroom)
    -- the row is packed, and the others are packed behind it
    have hall : before₁ ++ last₁ ++ rows = before ++ last ++ r.fields :: rows := by
      rw [happend₁, List.append_assoc _ [_]]
      rfl
    obtain ⟨f', disk', before', last', hrun, h', happend⟩ := ih h₁ (by rw [hall]; exact hroom)
    refine ⟨f', disk', before', last', fun behind => ?_, h', happend.trans hall⟩
    rw [← hrun, List.cons_append, importAll, hr]
    simp only [hadd]

namespace Disk

variable {input output : String} {size : Nat} {types : List FieldType} {schema : Schema} {here : Location}
  {made : Disk}

/-- An import begins with a blank page and an empty file. -/
theorem importWith_begin (hschema : Schema.ofTypes types = .ok schema) (hs : schema.slotCount size ≠ 0)
    {source : Option Bytes} (hsource : disk.source (Path.ofText input) = .ok source)
    (hmade : disk.create (Path.ofText output) = (.ok here, made)) (hvacant : disk.Vacant here) :
    ∃ f : Filling, f.Fills ⟨⟨0⟩, schema, here, size⟩ made [] [] ∧ ∀ reader,
      disk.importWith reader input output size types =
        importAll ⟨⟨0⟩, schema, here, size⟩ (reader source) f made := by
  obtain ⟨page, hblank, -⟩ : ∃ p, Page.blank ⟨⟨0⟩, 0⟩ schema size = .ok p ∧ ∀ slot, p.row? slot = none :=
    Page.decode_zeros hs
  obtain ⟨hid, hps, hpz, -⟩ := Page.fields_of_decode hblank
  refine ⟨⟨page, 0⟩, ?_, fun reader => ?_⟩
  · exact
      { schema := hps
        size := hpz
        packs := (Page.packs_of_blank hblank).1
        full := by
          show 0 = page.id.number * _
          rw [hid, Nat.zero_mul]
        written := rfl
        first := fun _ => rfl
        stored := ⟨[], held_of_vacant hmade hvacant, .nil hs⟩ }
  · unfold importWith
    simp only [hschema, hblank, not_occupied hmade hvacant, hsource, hmade]
    rfl

/-- **What a reader delivers is packed, if it has no fault.** -/
theorem importWith_packed (hschema : Schema.ofTypes types = .ok schema) (hs : schema.slotCount size ≠ 0)
    {source : Option Bytes} (hsource : disk.source (Path.ofText input) = .ok source)
    (hmade : disk.create (Path.ofText output) = (.ok here, made)) (hvacant : disk.Vacant here)
    {reader : Option Bytes → List Delivery} {rows : List (List Field)} (hrows : Delivers types (reader source) rows)
    (hroom : schema.pagesFor size rows.length ≤ Paged.numberBound) :
    ∃ disk' file, disk.importWith reader input output size types = (.ok rows.length, disk') ∧
      disk'.held here = .ok file ∧ Packed schema size rows file := by
  obtain ⟨f, hfills, hbegin⟩ := importWith_begin hschema hs hsource hmade hvacant
  rw [← Schema.types_ofTypes hschema] at hrows
  obtain ⟨f', disk', before, last, hrun, h', happend⟩ := importAll_delivers hs hrows hfills hroom
  rw [List.nil_append, List.nil_append] at happend
  subst happend
  obtain ⟨disk₂, file, hfinish, hheld, hpacked⟩ := h'.finish hs hroom
  refine ⟨disk₂, file, ?_, hheld, hpacked⟩
  rw [hbegin, ← hfinish, ← hrun [], List.append_nil]

end Disk

end HeapStore
