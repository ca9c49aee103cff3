import HeapStore.Proofs.Conversion

/-!
# Imports pack densely

An import writes full pages while rows come, and the last page at the end. So an import without a fault leaves every row
at its place, and one with a fault leaves full pages only, whatever the reader delivers and wherever the fault is.

* `Page.recast`: a page of packed rows as a page of another schema of the same types. `Packed.read` reads one back.
* `Dense`: the file of a table holds rows with no gap. `Packed.dense`: packed pages do.
* `Filling.Fills.number_eq`: how many pages are behind the one in hand, whenever a fault comes.
* `Disk.Opens.dense`, `Disk.Opens.stops`: an import without a fault, and one with a fault.
* `Disk.imports_densely`: **an import packs its rows densely, and stops cleanly at the first fault.**
-/

namespace HeapStore

/-! ## Reading packed pages -/

/-- The slots of a page depend on the types alone. -/
theorem Schema.slotCount_congr {s s' : Schema} (h : s.types = s'.types) (size : Nat) :
    s.slotCount size = s'.slotCount size := by
  unfold slotCount width
  rw [h]

theorem Schema.headerSize_congr {s s' : Schema} (h : s.types = s'.types) (size : Nat) :
    s.headerSize size = s'.headerSize size := by
  unfold headerSize
  rw [slotCount_congr h]

namespace Page

/-- The page under another number and another schema of the same types. -/
def recast (p : Page) (id : PageId) (s : Schema) (h : p.schema.types = s.types) : Page where
  id := id
  schema := s
  size := p.size
  slots := p.slots.map (Option.map fun row => ⟨row.val, h ▸ row.property⟩)
  spare := p.spare
  dirty := p.dirty
  image := p.image
  length_slots := by rw [List.length_map, p.length_slots, Schema.slotCount_congr h]
  length_spare := by rw [List.length_map, p.length_spare, Schema.headerSize_congr h]

variable {p : Page} {rows : List (List Field)}

theorem Packs.recast (hp : p.Packs rows) (id : PageId) {s : Schema} (h : p.schema.types = s.types) :
    (p.recast id s h).Packs rows := by
  refine ⟨?_, hp.spare⟩
  have hcells : (p.recast id s h).cells = p.cells := by
    unfold Page.cells Page.recast
    rw [List.map_map]
    congr 1
    funext slot
    cases slot <;> rfl
  show (p.recast id s h).cells = rows.map some ++ List.replicate (s.slotCount p.size - rows.length) none
  rw [hcells, hp.cells, Schema.slotCount_congr h]

/-- The rows lie in the first slots, in their order. -/
theorem Packs.contents_eq (hp : p.Packs rows) (slot : Nat) : p.contents slot = rows[slot]? := by
  have hcell : p.contents slot = p.cells[slot]?.join := by
    unfold contents row? Page.cells
    rw [List.getElem?_map]
    cases p.slots[slot]? <;> rfl
  rw [hcell, hp.cells]
  rcases Nat.lt_or_ge slot rows.length with hlt | hge
  · rw [List.getElem?_append_left (by rw [List.length_map]; exact hlt), List.getElem?_map,
      List.getElem?_eq_getElem hlt]
    rfl
  · rw [List.getElem?_append_right (by rw [List.length_map]; exact hge), List.getElem?_eq_none hge,
      List.getElem?_replicate]
    split <;> rfl

end Page

/-- The rows on a page are those that lie behind the rows of the pages in front. -/
theorem Schema.getElem?_rowsOn (s : Schema) (size : Nat) (rows : List (List Field)) (n slot : Nat) :
    (s.rowsOn size rows n)[slot]? = if slot < s.slotCount size then rows[n * s.slotCount size + slot]? else none := by
  unfold rowsOn
  rw [List.getElem?_take, List.getElem?_drop]

/-- **A page of packed rows is read back.** -/
theorem Packed.read {t : TableFile} {disk : Disk} {rows : List (List Field)} {file : Bytes} {n : Nat}
    (h : Packed t.schema t.pageSize rows file) (hheld : disk.held t.location = .ok file)
    (hs : t.schema.slotCount t.pageSize ≠ 0)
    (hcount : Paged.count t.pageSize file = t.schema.pagesFor t.pageSize rows.length)
    (hn : n < t.schema.pagesFor t.pageSize rows.length) :
    ∃ p, t.read disk (t.pageId n) = .ok p ∧ p.Packs (t.schema.rowsOn t.pageSize rows n) := by
  obtain ⟨p, ht, hz, hp, hslice⟩ := h.page n hn
  -- the page that was packed need not have the number and the schema under which it is read, only the types
  let q := p.recast (t.pageId n) t.schema ht
  have hq : q.Packs (t.schema.rowsOn t.pageSize rows n) := hp.recast _ ht
  have hstored : Paged.read t.pageSize file n t.pageSize = .ok q.encode := by
    rw [Paged.read_of_lt (by rw [hcount]; exact hn), Paged.page_of_lt (by rw [hcount]; exact hn), hslice,
      hp.encode_eq hq ht rfl]
  have hdecode : Page.decode (t.pageId n) t.schema p.size q.encode = .ok (q.mark none).settle :=
    q.decode_encode (by show t.schema.slotCount p.size ≠ 0; rw [hz]; exact hs)
  rw [hz] at hdecode
  refine ⟨(q.mark none).settle, ?_, hq.settle none⟩
  unfold TableFile.read
  rw [TableFile.bytes_eq_ok.2 hheld]
  exact bind_eq_ok_iff.2 ⟨q.encode, congrArg (Except.mapError AccessFault.file) hstored, by rw [hdecode]; rfl⟩

/-! ## Dense files -/

/-- The file of a table holds so many pages, and on them the rows with no gap: each has the slot that its number gives
it, and no other slot is used. -/
structure Dense (t : TableFile) (disk : Disk) (pages : Nat) (rows : List (List Field)) : Prop where
  whole : ∃ file, disk.held t.location = .ok file ∧ file.length = pages * t.pageSize
  count : t.count disk = .ok pages
  placed : ∀ k < rows.length, k / t.schema.slotCount t.pageSize < pages
  page : ∀ n < pages, ∃ p, t.read disk (t.pageId n) = .ok p ∧ ∀ slot fields, p.contents slot = some fields ↔
    ∃ k, rows[k]? = some fields ∧ k / t.schema.slotCount t.pageSize = n ∧ k % t.schema.slotCount t.pageSize = slot

/-- **Packed pages are dense.** -/
theorem Packed.dense {t : TableFile} {disk : Disk} {rows : List (List Field)} {file : Bytes}
    (h : Packed t.schema t.pageSize rows file) (hheld : disk.held t.location = .ok file)
    (hs : t.schema.slotCount t.pageSize ≠ 0)
    (hroom : t.schema.pagesFor t.pageSize rows.length < Paged.numberBound) :
    Dense t disk (t.schema.pagesFor t.pageSize rows.length) rows := by
  have hpos : 0 < t.schema.slotCount t.pageSize := Nat.pos_of_ne_zero hs
  have hcount : Paged.count t.pageSize file = t.schema.pagesFor t.pageSize rows.length := by
    unfold Paged.count Paged.countOf
    rw [h.length, Nat.mul_div_cancel _ (Schema.size_pos hs), Nat.mod_eq_of_lt hroom]
  refine ⟨⟨file, hheld, h.length⟩, ?_, fun k hk => ?_, fun n hn => ?_⟩
  · rw [TableFile.count_eq, TableFile.bytes_eq_ok.2 hheld, ← hcount]
    rfl
  · -- a row behind others needs the page that is next when theirs are full
    have hle := t.schema.pagesFor_mono t.pageSize (Nat.succ_le_of_lt hk)
    rw [Nat.succ_eq_add_one, pagesFor_succ hs] at hle
    exact hle
  · obtain ⟨p, hread, hp⟩ := h.read hheld hs hcount hn
    refine ⟨p, hread, fun slot fields => ?_⟩
    rw [hp.contents_eq, Schema.getElem?_rowsOn]
    constructor
    · intro hrow
      split at hrow
      · next hslot =>
        refine ⟨_, hrow, ?_, ?_⟩
        · rw [Nat.add_comm, Nat.add_mul_div_right _ _ hpos, Nat.div_eq_of_lt hslot, Nat.zero_add]
        · rw [Nat.add_comm, Nat.add_mul_mod_self_right, Nat.mod_eq_of_lt hslot]
      · cases hrow
    · rintro ⟨k, hrow, rfl, rfl⟩
      rw [if_pos (Nat.mod_lt k hpos), Nat.div_add_mod']
      exact hrow

/-! ## The first fault -/

/-- Rows need one page more than are full before the last of them comes. -/
theorem pagesFor_le_of_pred {s : Schema} {size n bound : Nat} (hs : s.slotCount size ≠ 0)
    (h : (n - 1) / s.slotCount size < bound) : s.pagesFor size n ≤ bound := by
  cases n with
  | zero =>
    rw [pagesFor_eq hs, Nat.zero_mod, if_pos rfl, Nat.zero_div]
    exact Nat.zero_le _
  | succ n =>
    rw [pagesFor_succ hs]
    exact h

namespace Filling.Fills

variable {t : TableFile} {f : Filling} {disk : Disk} {before last : List (List Field)}

/-- **The page in hand has the number of pages that were full before the last row came.** -/
theorem number_eq (h : Fills t f disk before last) (hs : t.schema.slotCount t.pageSize ≠ 0) :
    f.page.id.number = ((before ++ last).length - 1) / t.schema.slotCount t.pageSize := by
  have hfull := h.full
  have hle := h.packs.length_le
  rw [h.schema, h.size] at hle
  rw [List.length_append]
  by_cases hlast : last = []
  · -- no row has come
    obtain rfl := h.first hlast
    subst hlast
    rw [(Nat.mul_eq_zero.1 hfull.symm).resolve_right hs]
    exact (Nat.zero_div _).symm
  · have hsome := List.length_pos_iff.2 hlast
    rw [hfull]
    refine (Nat.div_eq_of_lt_le ?_ ?_).symm
    · omega
    · rw [Nat.add_mul, Nat.one_mul]
      omega

end Filling.Fills

/-! ## Whole imports -/

/-- The input can be read, and at the place of the output lies nothing or an empty file. -/
structure Disk.Opens (disk : Disk) (input output : String) (source : Option Bytes) (here : Location) : Prop where
  source_eq : disk.source (Path.ofText input) = .ok source
  made : ∃ made, disk.create (Path.ofText output) = (.ok here, made)
  vacant : disk.Vacant here

/-- What an import makes of whatever a reader delivers, with pages of the given size and rows of the given types. -/
structure ImportsDensely (reader : Option Bytes → List Delivery) (disk : Disk) (input output : String) (size : Nat)
    (types : List FieldType) (schema : Schema) : Prop where
  /-- Either nothing has a fault, or something is the first that has one. -/
  either : ∀ source, (∃ rows, Delivers types (reader source) rows) ∨ ∃ front d behind rows fault,
    reader source = front ++ d :: behind ∧ Delivers types front rows ∧ d.Fails types fault
  /-- Without a fault all rows are there, on no more pages than they need. -/
  complete : ∀ {source : Option Bytes} {here : Location} {rows : List (List Field)},
    disk.Opens input output source here → Delivers types (reader source) rows → schema.pagesFor size rows.length < Paged.numberBound →
    ∃ after, disk.importWith reader input output size types = (.ok rows.length, after) ∧
      Dense ⟨⟨0⟩, schema, here, size⟩ after (schema.pagesFor size rows.length) rows
  /-- The first fault is the answer, and is none of a page or its file. The pages that were full before the last row in
  front of it came are there, and nothing else. -/
  stopped : ∀ {source : Option Bytes} {here : Location} {front behind : List Delivery} {d : Delivery}
    {rows : List (List Field)} {fault : ImportFault}, disk.Opens input output source here →
    reader source = front ++ d :: behind → Delivers types front rows → d.Fails types fault →
    (rows.length - 1) / schema.slotCount size < Paged.numberBound →
    (∀ cause, fault ≠ .file cause) ∧ (∀ cause, fault ≠ .record cause) ∧
      ∃ after pages full, disk.importWith reader input output size types = (.error fault, after) ∧
        pages = (rows.length - 1) / schema.slotCount size ∧ full = rows.take (pages * schema.slotCount size) ∧
        full.length = pages * schema.slotCount size ∧ Dense ⟨⟨0⟩, schema, here, size⟩ after pages full
  /-- An output with bytes in it is refused and left as it is. -/
  refused : ∀ {content : Bytes}, disk.bytes (Path.ofText output) = .ok content → content ≠ [] →
    disk.importWith reader input output size types = (.error (.outputExists output), disk)
  /-- Without an input no output is made. -/
  missing : ∀ {cause : IoFault}, disk.source (Path.ofText input) = .error cause →
    disk.importWith reader input output size types =
      (.error (if disk.occupied (Path.ofText output) then .outputExists output else .unreadable cause), disk)

namespace Disk

variable {disk : Disk} {path : Path} {content : Bytes}

/-- A file with bytes in it is in the way. -/
theorem occupied_of_bytes (h : disk.bytes path = .ok content) (hc : content ≠ []) : disk.occupied path = true := by
  obtain ⟨here, hlocate, hheld⟩ := bind_eq_ok_iff.1 h
  have hfile : ∃ file : Content, disk.node? here = some (.file file) ∧ file.bytes = content := by
    unfold held at hheld
    split at hheld
    · next file hnode => exact ⟨file, hnode, Except.ok.inj hheld⟩
    · cases hheld
    · cases hheld
  obtain ⟨file, hnode, rfl⟩ := hfile
  have hlength : file.length ≠ 0 := by
    rw [← Content.length_bytes, ne_eq, List.length_eq_zero_iff]
    exact hc
  unfold occupied
  simp only [hlocate, Except.toOption, Option.bind_some, hnode]
  exact bne_iff_ne.2 hlength

variable {reader : Option Bytes → List Delivery} {input output : String} {types : List FieldType} {schema : Schema}
  {size : Nat} {source : Option Bytes} {here : Location} {rows : List (List Field)}

/-- Without a fault the rows are dense. -/
theorem Opens.dense (h : disk.Opens input output source here) (hschema : Schema.ofTypes types = .ok schema)
    (hs : schema.slotCount size ≠ 0) (hrows : Delivers types (reader source) rows)
    (hroom : schema.pagesFor size rows.length < Paged.numberBound) :
    ∃ after, disk.importWith reader input output size types = (.ok rows.length, after) ∧
      Dense ⟨⟨0⟩, schema, here, size⟩ after (schema.pagesFor size rows.length) rows := by
  obtain ⟨made, hmade⟩ := h.made
  obtain ⟨after, file, hrun, hheld, hpacked⟩ := importWith_packed hschema hs h.source_eq hmade h.vacant hrows hroom.le
  let t : TableFile := ⟨⟨0⟩, schema, here, size⟩
  have hdense : Dense t after (schema.pagesFor size rows.length) rows := Packed.dense hpacked hheld hs hroom
  exact ⟨after, hrun, hdense⟩

/-- **With a fault only full pages are left**, and on them the rows that came first. -/
theorem Opens.stops (h : disk.Opens input output source here) (hschema : Schema.ofTypes types = .ok schema)
    (hs : schema.slotCount size ≠ 0) {front behind : List Delivery} {d : Delivery} {fault : ImportFault}
    (hreader : reader source = front ++ d :: behind) (hrows : Delivers types front rows) (hfails : d.Fails types fault)
    (hroom : (rows.length - 1) / schema.slotCount size < Paged.numberBound) :
    ∃ after pages full, disk.importWith reader input output size types = (.error fault, after) ∧
      pages = (rows.length - 1) / schema.slotCount size ∧ full = rows.take (pages * schema.slotCount size) ∧
      full.length = pages * schema.slotCount size ∧ Dense ⟨⟨0⟩, schema, here, size⟩ after pages full := by
  let t : TableFile := ⟨⟨0⟩, schema, here, size⟩
  obtain ⟨made, hmade⟩ := h.made
  obtain ⟨f, hfills, hbegin⟩ := importWith_begin hschema hs h.source_eq hmade h.vacant
  rw [← Schema.types_ofTypes hschema] at hrows hfails
  obtain ⟨f', after, before, last, hrun, h', happend⟩ := importAll_delivers hs hrows hfills
    (pagesFor_le_of_pred hs hroom)
  rw [List.nil_append, List.nil_append] at happend
  subst happend
  have hstop : disk.importWith reader input output size types = (.error fault, after) := by
    rw [hbegin, hreader, hrun, importAll, hfails.import_eq]
  -- the rows on the page in hand are lost with it, and those in front of them fill the pages of the file
  obtain ⟨file, hheld, hpacked⟩ := h'.stored
  have hnumber : f'.page.id.number = ((before ++ last).length - 1) / schema.slotCount size := h'.number_eq hs
  have hpages : schema.pagesFor size before.length = f'.page.id.number := by
    rw [h'.full]
    exact pagesFor_full hs _
  have hdense : Dense t after (schema.pagesFor size before.length) before :=
    hpacked.dense hheld hs (by rw [hpages, hnumber]; exact hroom)
  rw [hpages] at hdense
  exact ⟨after, _, before, hstop, hnumber, (List.take_left' h'.full).symm, h'.full, hdense⟩

/-- **An import packs its rows densely, and stops cleanly at the first fault**: whatever a reader delivers, and so for
delimited text. Without a fault each row has the slot of its number, on as many pages as the rows need. With one the
fault is the answer, and the file has the pages that were full when the last row in front of it came. A file with bytes
in it is not written, and none is made without an input. -/
theorem imports_densely (hschema : Schema.ofTypes types = .ok schema) (hs : schema.slotCount size ≠ 0) (disk : Disk)
    (input output : String) :
    (∀ delimiter, disk.importText input output size types delimiter =
      disk.importWith (deliveries delimiter) input output size types) ∧
    ∀ reader, ImportsDensely reader disk input output size types schema := by
  obtain ⟨page, hblank, -⟩ : ∃ p, Page.blank ⟨⟨0⟩, 0⟩ schema size = .ok p ∧ ∀ slot, p.row? slot = none :=
    Page.decode_zeros hs
  refine ⟨fun delimiter => rfl, fun reader => ⟨?_, ?_, ?_, ?_, ?_⟩⟩
  · intro source
    exact delivers_or_fails types (reader source)
  · intro source here rows hopens hrows hroom
    exact hopens.dense hschema hs hrows hroom
  · intro source here front behind d rows fault hopens hreader hrows hfails hroom
    obtain ⟨hfile, hrecord⟩ := hfails.ne
    exact ⟨hfile, hrecord, hopens.stops hschema hs hreader hrows hfails hroom⟩
  · intro content hbytes hc
    have hoccupied := occupied_of_bytes hbytes hc
    unfold importWith
    simp only [hschema, hblank, hoccupied, if_true]
  · intro cause hsource
    unfold importWith
    simp only [hschema, hblank, hsource]
    split <;> rfl

end Disk

namespace Sample

/-- A reader of delimited text that fails where the text ends. -/
def cutOff (source : Option Bytes) : List Delivery := deliveries 0x2C source ++ [.error .isDirectory]

/-- Two of the numbers fill a page, and the third lies on another, which is not written if something behind it fails. -/
theorem imports_densely_three :
    (∃ after, texts.importText "rows" "pages" 9 [.int] 0x2C = (.ok 3, after) ∧
      Dense ⟨⟨0⟩, plain, ["pages"], 9⟩ after 2 [[.int 5], [.int 6], [.int 7]]) ∧
    (∃ after, texts.importWith cutOff "rows" "pages" 9 [.int] = (.error (.unreadable .isDirectory), after) ∧
      Dense ⟨⟨0⟩, plain, ["pages"], 9⟩ after 1 [[.int 5], [.int 6]]) ∧
    texts.importText "rows" "rows" 9 [.int] 0x2C = (.error (.outputExists "rows"), texts) ∧
    texts.importText "none" "pages" 9 [.int] 0x2C = (.error (.unreadable .notFound), texts) := by
  have hschema : Schema.ofTypes [.int] = .ok plain := rfl
  have himports := Disk.imports_densely hschema (show plain.slotCount 9 ≠ 0 by decide) texts
  have hopens : texts.Opens "rows" "pages" (some numbers) ["pages"] := ⟨rfl, create_pages, .inl rfl⟩
  refine ⟨?_, ?_, ?_, ?_⟩
  · rw [(himports "rows" "pages").1]
    exact ((himports "rows" "pages").2 _).complete hopens delivers_numbers (by decide)
  · have hstops := ((himports "rows" "pages").2 cutOff).stopped hopens rfl delivers_numbers (.unreadable .isDirectory) (by decide)
    obtain ⟨-, -, after, pages, full, hrun, rfl, rfl, -, hdense⟩ := hstops
    exact ⟨after, hrun, hdense⟩
  · rw [(himports "rows" "rows").1]
    have hbytes : texts.bytes (Path.ofText "rows") = .ok numbers := rfl
    exact ((himports "rows" "rows").2 _).refused hbytes (by decide)
  · rw [(himports "none" "pages").1]
    have hsource : texts.source (Path.ofText "none") = .error .notFound := rfl
    exact ((himports "none" "pages").2 _).missing hsource

end Sample

end HeapStore
