import HeapStore.Proofs.Opening

/-!
# Pages that are changed

A page is read, or made without records, and then it is changed again and again. Whatever was done to it, its stored
bytes are as many as its size and give it back, and its image gives the page that it was when the image was taken.

* `Page.Edit`, `Page.editAll`: a change of a page, and one change after another.
* `Page.Matches`: two pages with the same header and the same records in the same slots.
* `Page.edited_readable`: **a page is read back from its stored bytes after any changes**, and so is the page of its
  image, which is the page at its last settling or as it was read.
-/

namespace HeapStore

namespace Page

variable {id : PageId} {s : Schema} {size : Nat} {bytes : Bytes} {p q : Page} {slot : Nat}

/-- What is done to a page. -/
inductive Edit where
  | insert (r : Record)
  | delete (r : Record)
  | mark (owner : Option TxId)
  | settle

variable {edits : List Edit}

/-- One change. One that cannot be made leaves the page as it is. -/
def edit (p : Page) : Edit → Page
  | .insert r =>
    match p.insert r with
    | .ok (_, q) => q
    | .error _ => p
  | .delete r =>
    match p.delete r with
    | .ok q => q
    | .error _ => p
  | .mark owner => p.mark owner
  | .settle => p.settle

/-- One change after another. -/
def editAll (p : Page) : List Edit → Page
  | [] => p
  | c :: edits => (p.edit c).editAll edits

/-- The pages have the same header and the same records, each in its slot of the page. They may differ in who has
changed them and in their images. -/
structure Matches (p q : Page) : Prop where
  id : q.id = p.id
  header : q.header = p.header
  used : ∀ slot, (q.row? slot).isSome = (p.row? slot).isSome
  records : ∀ slot, q.record? slot = p.record? slot

theorem Matches.refl (p : Page) : p.Matches p := ⟨rfl, rfl, fun _ => rfl, fun _ => rfl⟩

/-- Marks and images do not matter. -/
theorem matches_settle (p : Page) (owner : Option TxId) : p.Matches (p.mark owner).settle :=
  ⟨rfl, rfl, fun _ => rfl, fun _ => rfl⟩

/-- A record lies in the slot of its page. -/
theorem place_of_record? {r : Record} (h : p.record? slot = some r) : r.place = some ⟨p.id, slot⟩ := by
  unfold record? at h
  obtain ⟨row, -, rfl⟩ := Option.map_eq_some_iff.1 h
  rfl

/-! ## What changes keep -/

/-- A change leaves the page what it is, and only settling it takes a new image. -/
theorem edit_keeps (p : Page) (c : Edit) : (p.edit c).id = p.id ∧ (p.edit c).schema = p.schema ∧
    (p.edit c).size = p.size ∧ (c ≠ .settle → (p.edit c).image = p.image) := by
  cases c with
  | insert r =>
    unfold edit
    simp only
    split
    · next hi =>
      obtain ⟨-, -, -, hc⟩ := insert_ok hi
      exact ⟨hc.id, hc.schema, hc.size, fun _ => hc.image⟩
    · exact ⟨rfl, rfl, rfl, fun _ => rfl⟩
  | delete r =>
    unfold edit
    simp only
    split
    · next hd =>
      obtain ⟨slot, -, -, hc⟩ := delete_ok hd
      exact ⟨hc.id, hc.schema, hc.size, fun _ => hc.image⟩
    · exact ⟨rfl, rfl, rfl, fun _ => rfl⟩
  | mark owner => exact ⟨rfl, rfl, rfl, fun _ => rfl⟩
  | settle => exact ⟨rfl, rfl, rfl, fun h => absurd rfl h⟩

theorem editAll_keeps (edits : List Edit) : ∀ p : Page, (p.editAll edits).id = p.id ∧
    (p.editAll edits).schema = p.schema ∧ (p.editAll edits).size = p.size ∧
      (Edit.settle ∉ edits → (p.editAll edits).image = p.image) := by
  induction edits with
  | nil => exact fun p => ⟨rfl, rfl, rfl, fun _ => rfl⟩
  | cons c edits ih =>
    intro p
    obtain ⟨hid, hschema, hsize, himage⟩ := edit_keeps p c
    obtain ⟨hid', hschema', hsize', himage'⟩ := ih (p.edit c)
    refine ⟨hid'.trans hid, hschema'.trans hschema, hsize'.trans hsize, fun hn => ?_⟩
    rw [List.mem_cons, not_or] at hn
    exact (himage' hn.2).trans (himage (Ne.symm hn.1))

theorem editAll_append (edits edits' : List Edit) :
    ∀ p : Page, p.editAll (edits ++ edits') = (p.editAll edits).editAll edits' := by
  induction edits with
  | nil => exact fun _ => rfl
  | cons c edits ih => exact fun p => ih (p.edit c)

/-! ## Reading back -/

/-- A page of some size is read back from its stored bytes. -/
theorem decode_encode_matches (hid : q.id = id) (hschema : q.schema = s) (hsize : q.size = size)
    (hs : s.slotCount size ≠ 0) : ∃ q', decode id s size q.encode = .ok q' ∧ q.Matches q' := by
  subst hid hschema hsize
  exact ⟨_, q.decode_encode hs, q.matches_settle none⟩

/-- The image of a page that was not settled since it was read gives the page that was read. -/
theorem ofImage_of_unsettled (h : decode id s size bytes = .ok p) (hn : Edit.settle ∉ edits) :
    (p.editAll edits).ofImage = .ok p := by
  obtain ⟨hid, hschema, hsize, -, himage, -⟩ := fields_of_decode h
  obtain ⟨hid', hschema', hsize', himage'⟩ := editAll_keeps edits p
  unfold ofImage
  rw [hid', hschema', hsize', himage' hn, hid, hschema, hsize, himage]
  exact h

/-- The image of a page that was settled gives the page that was settled. -/
theorem ofImage_of_settled (p : Page) (hs : p.schema.slotCount p.size ≠ 0) (hn : Edit.settle ∉ edits) :
    (p.settle.editAll edits).ofImage = .ok (p.mark none).settle := by
  obtain ⟨hid, hschema, hsize, himage⟩ := editAll_keeps edits p.settle
  unfold ofImage
  rw [hid, hschema, hsize, himage hn]
  exact p.decode_encode hs

/-- A page was settled last at some point, or it was not settled. -/
theorem settled_or_not (edits : List Edit) : Edit.settle ∉ edits ∨
    ∃ before after, edits = before ++ .settle :: after ∧ Edit.settle ∉ after := by
  induction edits with
  | nil => exact .inl List.not_mem_nil
  | cons c edits ih =>
    rcases ih with hn | ⟨before, after, rfl, hn⟩
    · by_cases hc : c = .settle
      · exact .inr ⟨[], edits, by rw [hc]; rfl, hn⟩
      · refine .inl fun hm => ?_
        rcases List.mem_cons.1 hm with hm | hm
        · exact hc hm.symm
        · exact hn hm
    · exact .inr ⟨c :: before, after, rfl, hn⟩

/-- What a page can be read from: its stored bytes and its image. -/
structure Readable (id : PageId) (s : Schema) (size : Nat) (p : Page) : Prop where
  length : p.encode.length = size
  stored : ∃ q, decode id s size p.encode = .ok q ∧ p.Matches q
  placed : ∀ slot r, p.record? slot = some r → r.place = some ⟨id, slot⟩
  image : ∃ q, p.ofImage = .ok q

/-- **Whatever is done to a page, it is read back from its stored bytes.** A page has at least one slot, and was read
from any bytes that store one; the bytes of a page without records do. After any changes its stored bytes are as many as
its size and give the same header and the same records in the same slots. Its image can always be read, and gives the
slots that the page had when it was settled last, or when it was read if it was not settled since. -/
theorem edited_readable (id : PageId) (hs : s.slotCount size ≠ 0) : (∃ p, blank id s size = .ok p) ∧
    ∀ bytes p, decode id s size bytes = .ok p →
      (∀ edits, Readable id s size (p.editAll edits)) ∧
      (∀ edits, Edit.settle ∉ edits → ∃ q, (p.editAll edits).ofImage = .ok q ∧ p.Matches q) ∧
      ∀ before after, Edit.settle ∉ after →
        ∃ q, (p.editAll (before ++ .settle :: after)).ofImage = .ok q ∧ (p.editAll before).Matches q := by
  have hblank : ∃ p, blank id s size = .ok p := by
    obtain ⟨p, hp, -⟩ : ∃ p, blank id s size = .ok p ∧ ∀ slot, p.row? slot = none := decode_zeros hs
    exact ⟨p, hp⟩
  refine ⟨hblank, fun bytes p h => ?_⟩
  obtain ⟨hid, hschema, hsize, -⟩ := fields_of_decode h
  have hunsettled : ∀ edits, Edit.settle ∉ edits → ∃ q, (p.editAll edits).ofImage = .ok q ∧ p.Matches q :=
    fun edits hn => ⟨p, ofImage_of_unsettled h hn, .refl p⟩
  have hsettled : ∀ before after, Edit.settle ∉ after →
      ∃ q, (p.editAll (before ++ .settle :: after)).ofImage = .ok q ∧ (p.editAll before).Matches q := by
    intro before after hn
    obtain ⟨-, hschema', hsize', -⟩ := editAll_keeps before p
    have hs' : (p.editAll before).schema.slotCount (p.editAll before).size ≠ 0 := by
      rw [hschema', hsize', hschema, hsize]
      exact hs
    rw [editAll_append]
    exact ⟨_, ofImage_of_settled (p.editAll before) hs' hn, matches_settle _ none⟩
  refine ⟨fun edits => ?_, hunsettled, hsettled⟩
  obtain ⟨hid', hschema', hsize', -⟩ := editAll_keeps edits p
  constructor
  · rw [length_encode, hsize', hsize]
  · exact decode_encode_matches (hid'.trans hid) (hschema'.trans hschema) (hsize'.trans hsize) hs
  · intro slot r hr
    rw [place_of_record? hr, hid', hid]
  · rcases settled_or_not edits with hn | ⟨before, after, rfl, hn⟩
    · obtain ⟨q, hq, -⟩ := hunsettled edits hn
      exact ⟨q, hq⟩
    · obtain ⟨q, hq, -⟩ := hsettled before after hn
      exact ⟨q, hq⟩

end Page

/-- What a result gives is the result of something. -/
theorem exists_of_map_toOption {ε α β : Type} {x : Except ε α} {f : α → β} {b : β}
    (h : (x.map f).toOption = some b) : ∃ a, x = .ok a ∧ f a = b := by
  cases x with
  | error fault => cases h
  | ok a => exact ⟨a, rfl, Option.some.inj h⟩

namespace Sample

open Page (Edit)

/-- A page with a row in its first slot, something in its second slot, which is free, and all other bits of its header
set. -/
def untidy : Bytes := [0xFD, 0, 0, 0, 5, 7, 7, 7, 7]

/-- A slot is taken before the page is settled, and another record is put there afterwards. -/
theorem edited_readable_untidy : schema.slotCount 9 ≠ 0 ∧ ∃ p, Page.decode ⟨table, 0⟩ schema 9 untidy = .ok p ∧
    (p.editAll [.insert (record 6)]).records.length = 2 ∧
    (let before : List Edit := [.insert (record 6)]
    let after : List Edit := [.delete { record 6 with place := some ⟨⟨table, 0⟩, 1⟩ }, .insert (record 8)]
    Page.Readable ⟨table, 0⟩ schema 9 (p.editAll (before ++ .settle :: after)) ∧
      (∃ q, (p.editAll before).ofImage = .ok q ∧ p.Matches q) ∧
      ∃ q, (p.editAll (before ++ .settle :: after)).ofImage = .ok q ∧ (p.editAll before).Matches q) := by
  have hs : schema.slotCount 9 ≠ 0 := by decide
  obtain ⟨-, hread⟩ := Page.edited_readable ⟨table, 0⟩ hs
  refine ⟨hs, ?_⟩
  have htwo : ((Page.decode ⟨table, 0⟩ schema 9 untidy).map fun p =>
      (p.editAll [.insert (record 6)]).records.length).toOption = some 2 := by decide +kernel
  obtain ⟨p, hp, hrecords⟩ := exists_of_map_toOption htwo
  obtain ⟨hall, hunsettled, hsettled⟩ := hread _ p hp
  exact ⟨p, hp, hrecords, hall _, hunsettled _ (by simp), hsettled _ _ (by simp)⟩

end Sample

end HeapStore
