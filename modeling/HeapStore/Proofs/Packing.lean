import HeapStore.Proofs.FilePages
import HeapStore.Proofs.PageBytes

/-!
# Packed pages

Rows that are packed lie one behind the other: a page gets its first row in its first slot, and no page is begun before
the one in front of it is full.

* `Page.Packs`: the first slots of a page hold some rows, and the others are free. `Page.Packs.insert` says that **the
  next row goes behind them**.
* `Page.Packs.encode_eq`: what a page stores depends on the rows alone.
* `Packed`: a file of pages that are packed with some rows. `Packed.append` puts one page more behind the others.
* `Packed.unique`: **there is one such file**.
-/

namespace HeapStore

open Bytes (zeros)

/-! ## One page -/

namespace Page

variable {id : PageId} {s : Schema} {size : Nat} {p q : Page} {r : Record} {rows : List (List Field)}

/-- The fields in the slots, one after another. -/
def cells (p : Page) : List (Option (List Field)) := p.slots.map (Option.map Subtype.val)

theorem length_cells (p : Page) : p.cells.length = p.schema.slotCount p.size := by
  unfold cells
  rw [List.length_map, p.length_slots]

theorem freeSlots_eq (p : Page) : p.freeSlots = p.cells.countP Option.isNone := by
  unfold freeSlots cells
  rw [List.countP_map]
  congr 1
  funext slot
  cases slot <;> rfl

/-- The stored bytes of the fields in a slot. -/
def encodeCell (width : Nat) : Option (List Field) → Bytes
  | some fields => encodeAll fields
  | none => zeros width

theorem encode_eq_cells (p : Page) : p.encode =
    Bytes.resize (Bits.pack (p.schema.headerSize p.size) (p.cells.map Option.isSome ++ p.spare) ++
      p.cells.flatMap (encodeCell p.schema.width)) p.size := by
  have hused : p.cells.map Option.isSome = p.slots.map Option.isSome := by
    unfold cells
    rw [List.map_map]
    congr 1
    funext slot
    cases slot <;> rfl
  have hbytes : p.cells.flatMap (encodeCell p.schema.width) = p.slots.flatMap p.schema.encodeSlot := by
    unfold cells
    rw [List.flatMap_map]
    congr 1
    funext slot
    cases slot <;> rfl
  rw [hused, hbytes]
  rfl

/-- The first slots of the page hold the rows, and the others are free, as are the bits that belong to no slot. -/
structure Packs (p : Page) (rows : List (List Field)) : Prop where
  cells : p.cells = rows.map some ++ List.replicate (p.schema.slotCount p.size - rows.length) none
  spare : p.spare = List.replicate p.spare.length false

namespace Packs

theorem length_le (h : p.Packs rows) : rows.length ≤ p.schema.slotCount p.size := by
  have hl := congrArg List.length h.cells
  rw [length_cells, List.length_append, List.length_map, List.length_replicate] at hl
  omega

theorem freeSlots (h : p.Packs rows) : p.freeSlots = p.schema.slotCount p.size - rows.length := by
  have hrows : (rows.map some).countP Option.isNone = 0 := by
    rw [List.countP_eq_zero]
    intro cell hm
    obtain ⟨fields, -, rfl⟩ := List.mem_map.1 hm
    exact Bool.false_ne_true
  rw [freeSlots_eq, h.cells, List.countP_append, hrows, List.countP_replicate, Option.isNone_none, if_pos rfl,
    Nat.zero_add]

/-- **The next row goes behind the others.** -/
theorem insert (h : p.Packs rows) (ht : r.schema.types = p.schema.types)
    (hlt : rows.length < p.schema.slotCount p.size) :
    ∃ q, p.insert r = .ok (⟨p.id, rows.length⟩, q) ∧ q.Packs (rows ++ [r.fields]) ∧ q.id = p.id ∧
      q.schema = p.schema ∧ q.size = p.size := by
  obtain ⟨free, hfree⟩ : ∃ free, p.schema.slotCount p.size - rows.length = free + 1 :=
    Nat.exists_eq_succ_of_ne_zero (by omega)
  have hcells := h.cells
  rw [hfree, List.replicate_succ] at hcells
  -- the first slot without a row is the one behind them
  have hfind : p.slots.findIdx? Option.isNone = some rows.length := by
    have hmap : p.slots.findIdx? Option.isNone = p.cells.findIdx? Option.isNone := by
      unfold Page.cells
      rw [List.findIdx?_map]
      congr 1
      funext slot
      cases slot <;> rfl
    have hnone : (rows.map some).findIdx? (Option.isNone (α := List Field)) = none := by
      rw [List.findIdx?_eq_none_iff]
      intro cell hm
      obtain ⟨fields, -, rfl⟩ := List.mem_map.1 hm
      rfl
    rw [hmap, hcells, List.findIdx?_append, hnone, List.findIdx?_cons]
    simp
  let row : p.schema.Row := ⟨r.fields, ht ▸ r.row.property⟩
  refine ⟨p.setSlot rows.length (some row), ?_, ⟨?_, h.spare⟩, rfl, rfl, rfl⟩
  · unfold Page.insert
    rw [dif_pos ht, hfind]
  · show (p.slots.set rows.length (some row)).map (Option.map Subtype.val) =
      _ ++ List.replicate (p.schema.slotCount p.size - _) none
    have hset : (p.slots.set rows.length (some row)).map (Option.map Subtype.val) =
        p.cells.set rows.length (some r.fields) := List.map_set
    rw [hset, hcells, List.set_append_right _ _ (by rw [List.length_map]), List.length_map, Nat.sub_self,
      List.set_cons_zero, List.length_append, List.length_singleton, Nat.sub_add_eq, hfree, Nat.add_sub_cancel,
      List.map_append, List.append_assoc]
    rfl

/-- What is stored depends on the rows alone. -/
theorem encode_eq (h : p.Packs rows) (h' : q.Packs rows) (ht : p.schema.types = q.schema.types)
    (hz : p.size = q.size) : p.encode = q.encode := by
  have hw : p.schema.width = q.schema.width := congrArg totalWidth ht
  have hcount : p.schema.slotCount p.size = q.schema.slotCount q.size := by
    unfold Schema.slotCount
    rw [hw, hz]
  have hheader : p.schema.headerSize p.size = q.schema.headerSize q.size := by
    unfold Schema.headerSize
    rw [hcount]
  have hcells : p.cells = q.cells := by rw [h.cells, h'.cells, hcount]
  have hspare : p.spare = q.spare := by
    have hl := p.length_spare
    have hl' := q.length_spare
    rw [p.length_slots, hcount, hheader] at hl
    rw [q.length_slots] at hl'
    rw [h.spare, h'.spare, show p.spare.length = q.spare.length by omega]
  rw [encode_eq_cells, encode_eq_cells, hcells, hspare, hheader, hw, hz]

/-- The image, the mark and the number of a page play no part. -/
theorem settle (h : p.Packs rows) (owner : Option TxId) : (p.mark owner).settle.Packs rows := ⟨h.cells, h.spare⟩

theorem mark (h : p.Packs rows) (owner : Option TxId) : (p.mark owner).Packs rows := ⟨h.cells, h.spare⟩

end Packs

/-- The bits of the header behind those of the slots are kept when a page is read. -/
theorem spare_of_decode {bytes : Bytes} (h : decode id s size bytes = .ok p) :
    p.spare = (Bits.unpack (bytes.take (s.headerSize size))).drop (s.slotCount size) := by
  unfold decode at h
  split at h
  · split at h
    · cases h
    · simp only [Except.map] at h
      split at h
      · cases h
      · cases h
        rfl
  · cases h

/-- **A blank page is packed with no rows**, and stores zeros. -/
theorem packs_of_blank (h : blank id s size = .ok p) : p.Packs [] ∧ p.encode = zeros size := by
  have hclears := clears_of_decode h
  obtain ⟨-, -, -, -, -, hslots⟩ := fields_of_decode h
  refine ⟨⟨?_, ?_⟩, ?_⟩
  · -- no slot holds a row
    obtain ⟨p', hp', hrow⟩ : ∃ p', decode id s size (zeros size) = .ok p' ∧ ∀ slot, p'.row? slot = none :=
      decode_zeros hslots
    have hsame : p' = p := Except.ok.inj (hp'.symm.trans h)
    subst hsame
    rw [List.map_nil, List.nil_append, List.length_nil, Nat.sub_zero, ← length_cells, List.eq_replicate_iff]
    refine ⟨rfl, fun cell hm => ?_⟩
    obtain ⟨used, hused, rfl⟩ := List.mem_map.1 hm
    obtain ⟨slot, hlt, rfl⟩ := List.getElem_of_mem hused
    have hnone := hrow slot
    unfold row? at hnone
    rw [List.getElem?_eq_getElem hlt] at hnone
    rw [show p'.slots[slot] = none from hnone]
    rfl
  · have hspare := spare_of_decode h
    unfold zeros at hspare
    rw [List.take_replicate, Nat.min_eq_left (s.headerSize_le size)] at hspare
    rw [List.eq_replicate_iff]
    refine ⟨rfl, fun bit hm => ?_⟩
    have hbits : Bits.unpack (List.replicate (s.headerSize size) 0) = List.replicate (8 * s.headerSize size) false :=
      Bits.unpack_zeros _
    rw [hspare, hbits, List.drop_replicate] at hm
    exact List.eq_of_mem_replicate hm
  · apply List.ext_getElem?
    intro i
    by_cases hi : i < size
    · rw [Bytes.getElem?_zeros hi]
      by_cases hc : Loose s size (zeros size) i
      · exact hclears.zero i (by rw [Bytes.length_zeros]; exact hi) hc
      · rw [hclears.same i hc, Bytes.getElem?_zeros hi]
    · rw [List.getElem?_eq_none (by rw [hclears.length, Bytes.length_zeros]; omega),
        List.getElem?_eq_none (by rw [Bytes.length_zeros]; omega)]

end Page

/-! ## Files of packed pages -/

/-- A page with room for a row has bytes. -/
theorem Schema.size_pos {s : Schema} {size : Nat} (hs : s.slotCount size ≠ 0) : 0 < size := by
  rcases Nat.eq_zero_or_pos size with rfl | hsize
  · exact absurd (by simp [slotCount]) hs
  · exact hsize

/-- How many pages `n` rows need. -/
def Schema.pagesFor (s : Schema) (size n : Nat) : Nat := (n + s.slotCount size - 1) / s.slotCount size

/-- More rows do not need fewer pages. -/
theorem Schema.pagesFor_mono (s : Schema) (size : Nat) {m n : Nat} (h : m ≤ n) :
    s.pagesFor size m ≤ s.pagesFor size n := Nat.div_le_div_right (by omega)

/-- The rows that lie on a page. -/
def Schema.rowsOn (s : Schema) (size : Nat) (rows : List (List Field)) (k : Nat) : List (List Field) :=
  (rows.drop (k * s.slotCount size)).take (s.slotCount size)

/-- A file of pages that are packed with the rows. -/
structure Packed (s : Schema) (size : Nat) (rows : List (List Field)) (file : Bytes) : Prop where
  length : file.length = s.pagesFor size rows.length * size
  page : ∀ k < s.pagesFor size rows.length, ∃ p : Page, p.schema.types = s.types ∧ p.size = size ∧
    p.Packs (s.rowsOn size rows k) ∧ file.slice (k * size) size = p.encode

section Rows

variable {s : Schema} {size m k : Nat} {rows rows' : List (List Field)}

/-- Full pages need no page more. -/
theorem pagesFor_full (hs : s.slotCount size ≠ 0) (m : Nat) : s.pagesFor size (m * s.slotCount size) = m := by
  unfold Schema.pagesFor
  refine Nat.div_eq_of_lt_le (by omega) ?_
  rw [Nat.add_mul, Nat.one_mul]
  omega

/-- The rows behind full pages need one page more. -/
theorem pagesFor_add {l : Nat} (hl : l ≠ 0) (hle : l ≤ s.slotCount size) (m : Nat) :
    s.pagesFor size (m * s.slotCount size + l) = m + 1 := by
  unfold Schema.pagesFor
  refine Nat.div_eq_of_lt_le ?_ ?_
  · rw [Nat.add_mul, Nat.one_mul]
    omega
  · rw [Nat.add_mul, Nat.add_mul, Nat.one_mul]
    omega

/-- The pages in front have the rows that they had. -/
theorem rowsOn_append_left (h : (k + 1) * s.slotCount size ≤ rows.length) :
    s.rowsOn size (rows ++ rows') k = s.rowsOn size rows k := by
  rw [Nat.add_mul, Nat.one_mul] at h
  unfold Schema.rowsOn
  rw [List.drop_append_of_le_length (by omega), List.take_append_of_le_length (by rw [List.length_drop]; omega)]

/-- The rows behind full pages lie on the next one. -/
theorem rowsOn_append_right (h : rows.length = m * s.slotCount size) (hle : rows'.length ≤ s.slotCount size) :
    s.rowsOn size (rows ++ rows') m = rows' := by
  unfold Schema.rowsOn
  rw [← h, List.drop_left, List.take_of_length_le hle]

theorem length_rowsOn (s : Schema) (size : Nat) (rows : List (List Field)) (k : Nat) :
    (s.rowsOn size rows k).length = min (s.slotCount size) (rows.length - k * s.slotCount size) := by
  unfold Schema.rowsOn
  rw [List.length_take, List.length_drop]

/-- One more row lies on the page behind the full ones. -/
theorem rowsOn_snoc (hs : s.slotCount size ≠ 0) (rows : List (List Field)) (fields : List Field) (k : Nat) :
    s.rowsOn size (rows ++ [fields]) k = if k = rows.length / s.slotCount size then s.rowsOn size rows k ++ [fields]
      else s.rowsOn size rows k := by
  have hpos : 0 < s.slotCount size := Nat.pos_of_ne_zero hs
  have hdiv := Nat.div_add_mod' rows.length (s.slotCount size)
  have hmod := Nat.mod_lt rows.length hpos
  rcases Nat.lt_trichotomy k (rows.length / s.slotCount size) with hk | hk | hk
  · rw [if_neg (by omega)]
    refine rowsOn_append_left (le_trans (Nat.mul_le_mul_right _ hk) (Nat.div_mul_le_self _ _))
  · subst hk
    rw [if_pos rfl]
    unfold Schema.rowsOn
    rw [List.drop_append_of_le_length (Nat.div_mul_le_self _ _), List.take_of_length_le, List.take_of_length_le]
    · rw [List.length_drop]
      omega
    · rw [List.length_append, List.length_drop, List.length_singleton]
      omega
  · -- behind that page there are no rows
    have hle : (rows.length / s.slotCount size + 1) * s.slotCount size ≤ k * s.slotCount size :=
      Nat.mul_le_mul_right _ hk
    rw [Nat.add_mul, Nat.one_mul] at hle
    rw [if_neg (by omega)]
    unfold Schema.rowsOn
    rw [List.drop_of_length_le (by rw [List.length_append, List.length_singleton]; omega),
      List.drop_of_length_le (by omega)]

/-- The pages of rows, the last of which may have room for more. -/
theorem pagesFor_eq (hs : s.slotCount size ≠ 0) (n : Nat) : s.pagesFor size n =
    if n % s.slotCount size = 0 then n / s.slotCount size else n / s.slotCount size + 1 := by
  have hdiv := Nat.div_add_mod' n (s.slotCount size)
  split
  · next h0 =>
    rw [h0, Nat.add_zero] at hdiv
    have hfull := pagesFor_full hs (n / s.slotCount size)
    rw [hdiv] at hfull
    exact hfull
  · next h0 =>
    have hadd := pagesFor_add h0 (Nat.mod_lt n (Nat.pos_of_ne_zero hs)).le (n / s.slotCount size)
    rw [hdiv] at hadd
    exact hadd

/-- With one more row the page behind the full ones is needed. -/
theorem pagesFor_succ (hs : s.slotCount size ≠ 0) (n : Nat) :
    s.pagesFor size (n + 1) = n / s.slotCount size + 1 := by
  have hdiv := Nat.div_add_mod' n (s.slotCount size)
  have hadd := pagesFor_add (Nat.succ_ne_zero _) (Nat.mod_lt n (Nat.pos_of_ne_zero hs)) (n / s.slotCount size)
  rw [Nat.succ_eq_add_one, ← Nat.add_assoc, hdiv] at hadd
  exact hadd

end Rows

namespace Packed

variable {s s' : Schema} {size m : Nat} {rows last : List (List Field)} {file file' : Bytes} {p : Page}

/-- Without rows there is no page. -/
theorem nil (hs : s.slotCount size ≠ 0) : Packed s size [] [] := by
  have hnone : s.pagesFor size ([] : List (List Field)).length = 0 := by
    have hfull := pagesFor_full hs 0
    rw [Nat.zero_mul] at hfull
    exact hfull
  refine ⟨?_, fun k hk => ?_⟩
  · rw [hnone, Nat.zero_mul]
    rfl
  · rw [hnone] at hk
    exact absurd hk (Nat.not_lt_zero k)

/-- **One page more goes behind full ones.** -/
theorem append (h : Packed s size rows file) (hs : s.slotCount size ≠ 0) (hfull : rows.length = m * s.slotCount size)
    (hp : p.Packs last) (ht : p.schema.types = s.types) (hz : p.size = size) (hlast : last ≠ []) :
    Packed s size (rows ++ last) (file ++ p.encode) := by
  have hle : last.length ≤ s.slotCount size := by
    have hle := hp.length_le
    unfold Schema.slotCount Schema.width at hle ⊢
    rw [ht, hz] at hle
    exact hle
  have hlength : file.length = m * size := by rw [h.length, hfull, pagesFor_full hs]
  have hpages : s.pagesFor size (rows ++ last).length = m + 1 := by
    rw [List.length_append, hfull]
    exact pagesFor_add (by rwa [ne_eq, List.length_eq_zero_iff]) hle m
  refine ⟨?_, fun k hk => ?_⟩
  · rw [hpages, List.length_append, hlength, p.length_encode, hz, Nat.add_mul, Nat.one_mul]
  · rw [hpages] at hk
    rcases Nat.lt_or_eq_of_le (Nat.le_of_lt_succ hk) with hk | rfl
    · -- the pages in front are those that were there
      obtain ⟨q, hqt, hqz, hq, hslice⟩ := h.page k (by rw [hfull, pagesFor_full hs]; exact hk)
      have hrows : (k + 1) * s.slotCount size ≤ m * s.slotCount size := Nat.mul_le_mul_right _ hk
      have hbytes : (k + 1) * size ≤ m * size := Nat.mul_le_mul_right _ hk
      rw [Nat.add_mul, Nat.one_mul] at hbytes
      refine ⟨q, hqt, hqz, ?_, ?_⟩
      · rw [rowsOn_append_left (by rw [hfull]; exact hrows)]
        exact hq
      · rw [← hslice]
        unfold Bytes.slice
        rw [List.drop_append_of_le_length (by omega), List.take_append_of_le_length (by rw [List.length_drop]; omega)]
    · refine ⟨p, ht, hz, ?_, ?_⟩
      · rw [rowsOn_append_right hfull hle]
        exact hp
      · unfold Bytes.slice
        rw [← hlength, List.drop_left, List.take_of_length_le (by rw [p.length_encode, hz])]

/-- **There is one file of pages that are packed with some rows.** -/
theorem unique (h : Packed s size rows file) (h' : Packed s' size rows file') (ht : s.types = s'.types) :
    file = file' := by
  have hcount : s.slotCount size = s'.slotCount size := by
    unfold Schema.slotCount Schema.width
    rw [ht]
  have hpages : s.pagesFor size rows.length = s'.pagesFor size rows.length := by
    unfold Schema.pagesFor
    rw [hcount]
  have hlength : file.length = file'.length := by rw [h.length, h'.length, hpages]
  apply List.ext_getElem?
  intro i
  rcases Nat.lt_or_ge i file.length with hi | hi
  · have hsize : 0 < size := by
      rw [h.length] at hi
      exact Nat.pos_of_lt_mul_left hi
    -- a byte lies on a page, and the pages are the same
    have hk : i / size < s.pagesFor size rows.length := by
      rw [h.length] at hi
      exact (Nat.div_lt_iff_lt_mul hsize).2 hi
    obtain ⟨p, hpt, hpz, hp, hslice⟩ := h.page _ hk
    obtain ⟨q, hqt, hqz, hq, hslice'⟩ := h'.page _ (by rw [← hpages]; exact hk)
    have hq : q.Packs (s.rowsOn size rows (i / size)) := by
      unfold Schema.rowsOn at hq ⊢
      rw [hcount]
      exact hq
    have hsame : file.slice (i / size * size) size = file'.slice (i / size * size) size := by
      rw [hslice, hslice', hp.encode_eq hq (by rw [hpt, hqt, ht]) (by rw [hpz, hqz])]
    have hbyte := congrArg (fun bytes : Bytes => bytes[i % size]?) hsame
    simp only [Bytes.getElem?_slice, if_pos (Nat.mod_lt i hsize), Nat.div_add_mod' i size] at hbyte
    exact hbyte
  · rw [List.getElem?_eq_none hi, List.getElem?_eq_none (by omega)]

end Packed

end HeapStore
