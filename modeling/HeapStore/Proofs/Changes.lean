import HeapStore.Proofs.Fetching
import HeapStore.Proofs.PageRows

/-!
# Inserting and deleting

A record goes to the first page of its table that has a free slot, as the transaction sees the table. Pages
behind the end of a file are blank, so there always is one if the others can be read.

* `View.Inserts`, `View.Deletes`: the two changes of a table as a transaction sees it.
* `Engine.Inserted`, `Engine.Deleted`: **a change that is answered has happened to the page that the transaction
  sees**, and to nothing else. The page is held exclusively, and for a new record all pages before it too.
* `Engine.insert_inserting`, `Engine.delete_deleting`: a change is answered, or it has ended the transaction, or
  nothing has happened.
-/

namespace HeapStore

namespace View

/-- The page is there and has no free slot. -/
def Full (v : View) (id : PageId) : Prop := ∃ p, v.page id = .ok p ∧ p.freeSlots = 0

/-- The first page of a table with a free slot, and the page with a record in it. -/
structure Inserts (v : View) (table : TableId) (r : Record) (place : RecordId) (q : Page) : Prop where
  inTable : place.page.table = table
  before : ∀ k < place.page.number, v.Full ⟨table, k⟩
  page : ∃ p, v.page place.page = .ok p ∧ p.insert r = .ok (place, q)

/-- The page of a record, and the page without it. -/
structure Deletes (v : View) (r : Record) (place : RecordId) (q : Page) : Prop where
  placed : r.place = some place
  page : ∃ p, v.page place.page = .ok p ∧ p.delete r = .ok q

/-- A table takes no record if its first page that is not full does not take it. -/
theorem not_inserts {v : View} {table : TableId} {r : Record} {k : Nat} (hfull : ∀ j < k, v.Full ⟨table, j⟩)
    (hk : ¬ v.Full ⟨table, k⟩) (hi : ∀ p place q, v.page ⟨table, k⟩ = .ok p → p.insert r ≠ .ok (place, q))
    (place : RecordId) (q : Page) : ¬ v.Inserts table r place q := by
  rintro ⟨ht, hb, p, hp, hq⟩
  have hid : place.page = ⟨table, place.page.number⟩ := by rw [← ht]
  rcases Nat.lt_trichotomy place.page.number k with hlt | heq | hgt
  · obtain ⟨p', hp', hfree⟩ := hfull _ hlt
    rw [hid, hp'] at hp
    cases hp
    exact Page.freeSlots_of_insert hq hfree
  · rw [hid, heq] at hp
    exact hi p place q hp hq
  · exact hk (hb k hgt)

/-- There is one first page with a free slot. -/
theorem Inserts.unique {v : View} {table : TableId} {r : Record} {place place' : RecordId} {q q' : Page}
    (h : v.Inserts table r place q) (h' : v.Inserts table r place' q') : place = place' ∧ q = q' := by
  obtain ⟨ht, hb, p, hp, hq⟩ := h
  obtain ⟨ht', hb', p', hp', hq'⟩ := h'
  have hid : place.page = ⟨table, place.page.number⟩ := by rw [← ht]
  have hid' : place'.page = ⟨table, place'.page.number⟩ := by rw [← ht']
  have hnum : place.page.number = place'.page.number := by
    rcases Nat.lt_trichotomy place.page.number place'.page.number with hlt | heq | hgt
    · obtain ⟨p1, hp1, hfree⟩ := hb' _ hlt
      rw [← hid, hp] at hp1
      cases hp1
      exact absurd hfree (Page.freeSlots_of_insert hq)
    · exact heq
    · obtain ⟨p1, hp1, hfree⟩ := hb _ hgt
      rw [← hid', hp'] at hp1
      cases hp1
      exact absurd hfree (Page.freeSlots_of_insert hq')
  rw [hid, hnum, ← hid', hp'] at hp
  cases hp
  rw [hq] at hq'
  cases hq'
  exact ⟨rfl, rfl⟩

end View

namespace Engine

variable {e e' : Engine} {tx : TxId} {id : PageId} {f : Frame} {fault : AccessFault} {p q : Page}
  {table : TableId} {file : TableFile} {r : Record} {place : RecordId}

/-- What a transaction sees of a table are pages of that table. -/
theorem Coherent.of_view_page (h : e.Coherent) (hp : (e.view tx).page id = .ok p) :
    p.id = id ∧ ∃ file, e.file id.table = .ok file ∧ p.schema = file.schema ∧ p.size = file.pageSize := by
  cases hd : e.cache.draft tx id with
  | some p' =>
    rw [View.page_of_draft hd] at hp
    cases hp
    obtain ⟨hid, -, file, hf, hs, hz, -⟩ := h.of_draft hd
    exact ⟨hid, file, hf, hs, hz⟩
  | none =>
    rw [View.page_of_none hd] at hp
    cases hf : e.file id.table with
    | error fault =>
      unfold View.stored view at hp
      rw [← file_eq, hf] at hp
      cases hp
    | ok file =>
      rw [view_stored_eq hf] at hp
      unfold Except.mapError at hp
      split at hp
      · cases hp
      · next hdec =>
        cases hp
        obtain ⟨hid, hs, hz, -⟩ := Page.fields_of_decode hdec
        exact ⟨hid, file, rfl, hs, hz⟩

/-- A page behind the end of its file is blank. -/
theorem Coherent.view_page_behind (h : e.Coherent) (hf : e.file id.table = .ok file)
    (hn : e.pages id.table ≤ id.number) (tx : TxId) :
    ∃ p, (e.view tx).page id = .ok p ∧ ∀ slot, p.row? slot = none := by
  obtain ⟨p, hp, hrow⟩ : ∃ p, Page.decode id file.schema file.pageSize (Bytes.zeros file.pageSize) = .ok p ∧
    ∀ slot, p.row? slot = none := Page.decode_zeros (h.catalog.slots hf)
  refine ⟨p, ?_, hrow⟩
  rw [View.page_of_none (h.draft_of_pages_le hn), view_stored_eq hf, pageBytes_of_pages_le hf hn, hp]
  rfl

/-- A copy that its holder changes becomes a change of its own. -/
theorem puts_update (h : e.Sound) (hf : e.cache.find? id = some f) (hx : e.locks.mode? tx id = some .exclusive)
    (hr : p.Revises f.page) (hd : p.dirty = some tx) : Puts tx p e { e with cache := e.cache.update p.id p } := by
  obtain ⟨-, rfl⟩ := Cache.mem_of_find? hf
  rw [← hr.id] at hf hx
  have hdraft : ∀ tx' id', (e.cache.update p.id p).draft tx' id' =
      if id' = p.id then (if p.dirty = some tx' then some p else none) else e.cache.draft tx' id' :=
    fun tx' id' => Cache.draft_update rfl hf
  have hothers : ∀ tx' ≠ tx, e.cache.draft tx' p.id = none :=
    fun tx' ht => h.draft_of_held (by rw [hx]; rfl) ht
  refine ⟨⟨⟨⟨⟨h.toCoherent.revise hf hr, h.locks, ?_⟩, rfl, ?_, fun _ _ _ => rfl, rfl, rfl⟩, rfl,
    fun _ => Paged.Grown.refl _ _⟩, fun _ hm => hm, fun _ hm => hm⟩, ?_, Cache.changed_update h.nodup⟩
  · intro tx' id' hsome
    -- the page is held by the one who changes it, and the other pages are as before
    rw [hdraft] at hsome
    split at hsome
    · next hi' =>
      split at hsome
      · next ho =>
        rw [hd] at ho
        cases ho
        rw [hi']
        exact hx
      · cases hsome
    · exact h.locked hsome
  · intro tx' ht
    funext id'
    rw [hdraft]
    split
    · next hi' =>
      rw [hi', hothers tx' ht, if_neg]
      rw [hd]
      exact fun ho => ht (Option.some.inj ho).symm
    · rfl
  · intro id'
    rw [hdraft, if_pos hd]

/-! ## Inserting -/

/-- A record that was put into a table. -/
structure Inserted (tx : TxId) (table : TableId) (r : Record) (place : RecordId) (q : Page) (e e' : Engine) : Prop
    extends Puts tx (q.mark (some tx)) e e' where
  inserts : (e.view tx).Inserts table r place q
  locked : ∀ k ≤ place.page.number, e'.locks.mode? tx ⟨table, k⟩ = some .exclusive
  inFile : place.page.number < e'.pages table

/-- The first pages of a table are full, and held exclusively. -/
def Passed (e : Engine) (tx : TxId) (table : TableId) (n : Nat) : Prop :=
  ∀ k < n, (e.view tx).Full ⟨table, k⟩ ∧ e.locks.mode? tx ⟨table, k⟩ = some .exclusive

/-- What comes of looking for a free slot on the first `n` pages of a table. -/
inductive Placing (tx : TxId) (table : TableId) (r : Record) (n : Nat) (e : Engine) :
    Outcome AccessFault (Option RecordId) → Prop where
  | placed {place : RecordId} {q : Page} {e' : Engine} (h : Inserted tx table r place q e e') :
    Placing tx table r n e (.ok (some place), e')
  | passed {e' : Engine} (hq : Quiet tx e e') (hp : e'.Passed tx table n) (hd : e'.disk = e.disk) :
    Placing tx table r n e (.ok none, e')
  | failed {fault : AccessFault} {e' : Engine}
    (h : Fails tx fault (∀ place q, ¬ (e.view tx).Inserts table r place q) e e') :
    Placing tx table r n e (.error fault, e')

/-- What comes of putting a record into a table. -/
inductive Inserting (tx : TxId) (table : TableId) (r : Record) (e : Engine) :
    Outcome AccessFault RecordId → Prop where
  | inserted {place : RecordId} {q : Page} {e' : Engine} (h : Inserted tx table r place q e e') :
    Inserting tx table r e (.ok place, e')
  | failed {fault : AccessFault} {e' : Engine}
    (h : Fails tx fault (∀ place q, ¬ (e.view tx).Inserts table r place q) e e') :
    Inserting tx table r e (.error fault, e')

theorem Quiet.inserted {e'' : Engine} (h : Quiet tx e e') (hi : Inserted tx table r place q e' e'') :
    Inserted tx table r place q e e'' :=
  ⟨h.puts hi.toPuts, by rw [← h.view_eq tx]; exact hi.inserts, hi.locked, hi.inFile⟩

theorem Quiet.placing {n : Nat} {o : Outcome AccessFault (Option RecordId)} (h : Quiet tx e e')
    (hd : e'.disk = e.disk) (hp : Placing tx table r n e' o) : Placing tx table r n e o := by
  have hv := h.view_eq tx
  cases hp with
  | placed hi => exact .placed (h.inserted hi)
  | passed hq hp hd' => exact .passed (h.trans hq) hp (hd'.trans hd)
  | failed hf => exact .failed (h.fails hf fun hr => by rw [← hv]; exact hr)

theorem Quiet.passed {n : Nat} (h : Quiet tx e e') (hp : e.Passed tx table n) : e'.Passed tx table n := by
  intro k hk
  obtain ⟨hfull, hx⟩ := hp k hk
  rw [h.view_eq tx]
  exact ⟨hfull, h.exclusive _ hx⟩

/-- A record goes into a free slot of a page that was fetched. -/
theorem putInto_placing {n : Nat} {e1 : Engine} (hf : Fetched tx ⟨table, n⟩ .exclusive f e e1)
    (hp : e.Passed tx table n) (hfree : f.page.freeSlots ≠ 0) (m : Nat) :
    Placing tx table r m e ((e1.putInto f tx r).1.map some, (e1.putInto f tx r).2) := by
  have hid : f.page.id = ⟨table, n⟩ := (Cache.mem_of_find? hf.found).2
  unfold putInto
  cases hi : f.page.insert r with
  | error cause =>
    -- a record that a free slot does not take fits no slot of the table
    refine .failed (.quiet rfl hf.toQuiet fun _ => View.not_inserts (fun j hj => (hp j hj).1) ?_ ?_)
    · rintro ⟨p, hp, h0⟩
      rw [hf.page] at hp
      cases hp
      exact hfree h0
    · intro p place q hp' hq
      rw [hf.page] at hp'
      cases hp'
      rw [hi] at hq
      cases hq
  | ok stored =>
    obtain ⟨place, q⟩ := stored
    obtain ⟨hplace, -, -, hch⟩ := Page.insert_ok hi
    have hpl : place.page = ⟨table, n⟩ := hplace.trans hid
    have hputs : Puts tx (q.mark (some tx)) e1 { e1 with cache := e1.cache.update q.id (q.mark (some tx)) } :=
      puts_update hf.sound hf.found (hf.alone rfl) (hch.revises tx) rfl
    refine .placed ⟨hf.toQuiet.puts hputs, ⟨by rw [hpl], ?_, f.page, by rw [hpl]; exact hf.page, hi⟩, ?_, ?_⟩
    · rw [hpl]
      exact fun k hk => (hp k hk).1
    · rw [hpl]
      intro k hk
      -- the pages before it were passed with exclusive locks, and this one was fetched with one
      rcases Nat.lt_or_eq_of_le hk with hk | rfl
      · exact (hf.toQuiet.passed hp k hk).2
      · exact hf.alone rfl
    · have hpages := pages_of_disk (e := e) hf.catalog hf.disk table
      rw [hpl]
      exact lt_of_lt_of_eq hf.inFile hpages.symm

/-- Pages are passed as long as they are full. -/
theorem putOnFirst_placing (ht : file.table = table) (len : Nat) : ∀ (s : Nat) {e : Engine}, e.Sound →
    e.Passed tx table s → s + len ≤ e.pages table →
    Placing tx table r (s + len) e (putOnFirst file tx r (List.range' s len) e) := by
  induction len with
  | zero =>
    intro s e h hp _
    exact .passed (Quiet.refl h tx) hp rfl
  | succ len ih =>
    intro s e h hp hlen
    have hpid : file.pageId s = ⟨table, s⟩ := by rw [← ht]; rfl
    rw [List.range'_succ]
    unfold putOnFirst
    rw [hpid]
    split
    · next fault e1 hf =>
      -- the page lies in the file, so it lacks only if it cannot be read
      have hno : e.Lacks tx ⟨table, s⟩ → ∀ place q, ¬ (e.view tx).Inserts table r place q := by
        rintro (hl | ⟨fault', hl⟩)
        · have hl : e.pages table ≤ s := hl
          omega
        · refine View.not_inserts (fun j hj => (hp j hj).1) ?_ ?_
          · rintro ⟨p, hp, -⟩
            rw [hl] at hp
            cases hp
          · intro p place q hp'
            rw [hl] at hp'
            cases hp'
      exact .failed ((Quiet.refl h tx).fails (fetch_error h hf) hno)
    · next f e1 hf =>
      have hfetch := fetch_ok h hf
      have hpages := pages_of_disk (e := e) hfetch.catalog hfetch.disk table
      split
      · next hfull =>
        have hp1 : e1.Passed tx table (s + 1) := by
          intro k hk
          rcases Nat.lt_or_eq_of_le (Nat.le_of_lt_succ hk) with hk | rfl
          · exact hfetch.toQuiet.passed hp k hk
          · rw [hfetch.toQuiet.view_eq tx]
            exact ⟨⟨f.page, hfetch.page, hfull⟩, hfetch.alone rfl⟩
        have := ih (s + 1) hfetch.sound hp1 (by omega)
        rw [show s + 1 + len = s + (len + 1) by omega] at this
        exact hfetch.toQuiet.placing hfetch.disk this
      · next hfree => exact putInto_placing hfetch hp hfree _

/-- The pages of the table are tried in their order. -/
theorem putOnFirst_range (h : e.Sound) (hf : e.file table = .ok file) (tx : TxId) (r : Record) :
    Placing tx table r (e.pages table) e (putOnFirst file tx r (List.range (e.pages table)) e) := by
  have hnone : e.Passed tx table 0 := fun k hk => absurd hk (Nat.not_lt_zero k)
  have hplace := putOnFirst_placing (r := r) (h.catalog.own hf) (e.pages table) 0 h hnone (le_of_eq (Nat.zero_add _))
  rw [Nat.zero_add, ← List.range_eq_range'] at hplace
  exact hplace

/-- A record does not go to a page that is full. -/
theorem Passed.le_of_inserts {n : Nat} (hp : e.Passed tx table n) (hi : (e.view tx).Inserts table r place q) :
    n ≤ place.page.number := by
  by_contra hlt
  obtain ⟨⟨p, hview, hfull⟩, -⟩ := hp place.page.number (by omega)
  obtain ⟨p', hview', hins⟩ := hi.page
  have hid : place.page = ⟨table, place.page.number⟩ := by rw [← hi.inTable]
  rw [hid, hview] at hview'
  cases hview'
  exact Page.freeSlots_of_insert hins hfull

/-! ## Growing -/

/-- Page numbers that have room in a file that has grown had room in it before. -/
theorem Outgrows.small (ho : e.Outgrows e') (h : e.Present) (hs : e'.Small) : e.Small := by
  intro table file hf
  have hf' : e'.file table = .ok file := (file_congr ho.1 table).trans hf
  obtain ⟨bytes, hb, hle⟩ := ho.2 _ _ (h.held hf)
  have := hs table file hf'
  rw [fileBytes_eq hf' hb] at this
  exact lt_of_le_of_lt (Nat.div_le_div_right hle) this

/-- The engine with a blank page more in the file of a table. -/
structure Appended (tx : TxId) (table : TableId) (e e' : Engine) : Prop extends Quiet tx e e' where
  pages : ∀ table', e'.pages table' = if table' = table then e.pages table + 1 else e.pages table'

/-- Copies and files agree where files grow by blank pages: what a copy was read from is still read. -/
theorem coherent_of_grown {disk : Disk} (h : e.Coherent) (hp : { e with disk }.Present) (hs : e.Small)
    (hs' : { e with disk }.Small) (hgrown : ∀ {table : TableId} {file : TableFile}, e.file table = .ok file →
      Paged.Grown file.pageSize (e.fileBytes table) ({ e with disk }.fileBytes table)) :
    { e with disk }.Coherent where
  catalog := h.catalog
  present := hp
  nodup := h.nodup
  copies f hm := by
    have hbytes : { e with disk }.pageBytes = e.pageBytes := pageBytes_of_grown rfl h.catalog hs hs' hgrown
    have hle : ∀ table, e.pages table ≤ { e with disk }.pages table := pages_le_of_grown rfl h.catalog hs' hgrown
    obtain ⟨q, hq, hr⟩ := h.copies f hm
    exact ⟨q, h.present.stored_of_bytes hp rfl (hle _) (congrFun hbytes _) hq, hr⟩

/-- Files that grow by blank pages are not seen. -/
theorem quiet_of_grown {disk : Disk} (h : e.Sound) (tx : TxId) (hp : { e with disk }.Present) (hs : e.Small)
    (hs' : { e with disk }.Small) (hgrown : ∀ {table : TableId} {file : TableFile}, e.file table = .ok file →
      Paged.Grown file.pageSize (e.fileBytes table) ({ e with disk }.fileBytes table)) :
    Quiet tx e { e with disk } := by
  have hsound : { e with disk }.Sound :=
    { toCoherent := coherent_of_grown h.toCoherent hp hs hs' hgrown
      locks := h.locks
      locked := h.locked }
  exact ⟨⟨⟨⟨hsound, rfl, fun _ _ => rfl, fun _ _ _ => rfl, rfl, rfl⟩, pageBytes_of_grown rfl h.catalog hs hs' hgrown,
    hgrown⟩, fun _ hm => hm, fun _ hm => hm⟩, rfl, rfl⟩

/-- What the files hold once that of a table has got a blank page. -/
structure Lengthened (table : TableId) (file : TableFile) (e e' : Engine) : Prop where
  present : e'.Present
  bytes : ∀ table', e'.fileBytes table' =
    if table' = table then Paged.lengthened file.pageSize (e.fileBytes table) else e.fileBytes table'

/-- **A blank page can be appended.** -/
theorem append_bytes (h : e.Coherent) (hf : e.file table = .ok file) (hs : e.Small) :
    ∃ disk, file.append e.disk = .ok (e.pages table, disk) ∧ Lengthened table file e { e with disk } := by
  have hcount : (e.fileBytes table).length / file.pageSize = e.pages table := by
    rw [pages_eq hf, Paged.count_eq (hs table file hf)]
  refine ⟨e.disk.set file.location (Paged.lengthened file.pageSize (e.fileBytes table)), ?_, h.present.set h.catalog hf _,
    h.present.fileBytes_set h.catalog hf _⟩
  unfold TableFile.append
  rw [TableFile.bytes_eq_ok.2 (h.present.held hf), ← hcount]
  simp only [bind, Except.bind, Paged.append_zeros (h.catalog.size_pos hf) (hs table file hf)]
  rfl

namespace Lengthened

variable {disk : Disk} (h : Lengthened table file e { e with disk }) (hf : e.file table = .ok file)

include h hf

theorem grown {table' : TableId} {file' : TableFile} (hf' : e.file table' = .ok file') :
    Paged.Grown file'.pageSize (e.fileBytes table') ({ e with disk }.fileBytes table') := by
  rw [h.bytes]
  by_cases ht : table' = table
  · subst ht
    rw [hf] at hf'
    cases hf'
    rw [if_pos rfl]
    exact Paged.grown_lengthened _ _
  · rw [if_neg ht]
    exact Paged.Grown.refl _ _

/-- Page numbers have room if the new one has. -/
theorem small (hc : e.Coherent) (hs : e.Small) (hroom : e.pages table + 1 < Paged.numberBound) :
    { e with disk }.Small := by
  intro table' file' (hf' : e.file table' = .ok file')
  rw [h.bytes]
  by_cases ht : table' = table
  · subst ht
    rw [hf] at hf'
    cases hf'
    rw [if_pos rfl, Paged.length_lengthened (hc.catalog.size_pos hf), ← Paged.count_eq (hs _ _ hf), ← pages_eq hf]
    exact hroom
  · rw [if_neg ht]
    exact hs table' file' hf'

theorem pages (hc : e.Coherent) (hs : e.Small) (hs' : { e with disk }.Small) (table' : TableId) :
    { e with disk }.pages table' = if table' = table then e.pages table + 1 else e.pages table' := by
  by_cases ht : table' = table
  · rw [if_pos ht, ht, pages_eq (e := { e with disk }) hf, Paged.count_eq (hs' _ _ hf), h.bytes, if_pos rfl,
      Paged.length_lengthened (hc.catalog.size_pos hf), pages_eq hf, Paged.count_eq (hs _ _ hf)]
  · rw [if_neg ht]
    cases hf' : e.file table' with
    | error fault => rw [pages_of_error hf', pages_of_error (e := { e with disk }) hf']
    | ok file' => rw [pages_eq hf', pages_eq (e := { e with disk }) hf', h.bytes, if_neg ht]

theorem coherent (hc : e.Coherent) (hs : e.Small) (hs' : { e with disk }.Small) : { e with disk }.Coherent :=
  coherent_of_grown hc h.present hs hs' (h.grown hf)

/-- Nobody sees the new page. -/
theorem appended (hc : e.Sound) (hs : e.Small) (hs' : { e with disk }.Small) (tx : TxId) :
    Appended tx table e { e with disk } :=
  ⟨quiet_of_grown hc tx h.present hs hs' (h.grown hf), h.pages hf hc.toCoherent hs hs'⟩

end Lengthened

/-- A blank page can be appended, and nobody sees it as long as its number has room. -/
theorem append_ok (h : e.Sound) (hf : e.file table = .ok file) (tx : TxId) (hs : e.Small) :
    ∃ disk, file.append e.disk = .ok (e.pages table, disk) ∧ { e with disk }.Present ∧
      (e.pages table + 1 < Paged.numberBound → { e with disk }.Small) ∧
      ({ e with disk }.Small → Appended tx table e { e with disk }) := by
  obtain ⟨disk, ha, hl⟩ := append_bytes h.toCoherent hf hs
  exact ⟨disk, ha, hl.present, hl.small hf h.toCoherent hs, fun hs' => hl.appended hf h hs hs' tx⟩

/-- A page more is enough: it is blank, and so it takes the record. -/
theorem putOnNew_inserting (hf : e.file table = .ok file) (h : e.Sound) (hp : e.Passed tx table (e.pages table))
    {disk : Disk} (ha : file.append e.disk = .ok (e.pages table, disk)) (hnew : Appended tx table e { e with disk })
    (tries : Nat) : Inserting tx table r e (putOnNew file tx r (tries + 1) e) ∧
      (putOnNew file tx r (tries + 1) e).2.disk = disk := by
  have ht : file.table = table := h.catalog.own hf
  let e1 : Engine := { e with disk }
  have hq : Quiet tx e e1 := hnew.toQuiet
  have hpages : e1.pages table = e.pages table + 1 := by rw [hnew.pages, if_pos rfl]
  have hdisk := (steady_disk disk).putOnFirst file tx r [e.pages table] (e := e1) rfl
  have hplace : Placing tx table r (e.pages table + 1) e1 (putOnFirst file tx r [e.pages table] e1) :=
    putOnFirst_placing ht 1 _ hq.sound (hq.passed hp) (le_of_eq hpages.symm)
  unfold putOnNew
  simp only [ha]
  cases hf1 : putOnFirst file tx r [e.pages table] e1 with
  | mk o e2 =>
    rw [hf1] at hplace hdisk
    cases hplace with
    | failed hfail => exact ⟨.failed (hq.fails hfail fun hr => by rw [← hq.view_eq tx]; exact hr), hdisk⟩
    | placed hi => exact ⟨.inserted (hq.inserted hi), hdisk⟩
    | passed hq' hp' _ =>
      -- the new page cannot have been passed, since it is blank
      have hfile : e.file (PageId.mk table (e.pages table)).table = .ok file := hf
      obtain ⟨p, hview, hrow⟩ := h.view_page_behind hfile le_rfl tx
      obtain ⟨-, file', hf', hs', hz'⟩ := h.of_view_page hview
      obtain ⟨⟨p', hview', hfull⟩, -⟩ := hp' (e.pages table) (Nat.lt_succ_self _)
      rw [hq'.view_eq tx, hq.view_eq tx, hview] at hview'
      cases hview'
      refine absurd hfull (Page.freeSlots_of_empty hrow ?_)
      rw [hs', hz']
      exact h.catalog.slots hf'

/-- An engine that grows by pages has grown by the first of them. -/
theorem outgrows_putOnNew {disk : Disk} {n : Nat} (hfile : e.file table = .ok file)
    (ha : file.append e.disk = .ok (n, disk)) (tries : Nat) :
    Outgrows { e with disk } (putOnNew file tx r (tries + 1) e).2 := by
  have hgrow := (stable_grows { e with disk }).putOnFirst file tx r [n] (Outgrows.refl { e with disk })
  unfold putOnNew
  simp only [ha]
  split
  · next hf =>
    rw [hf] at hgrow
    exact hgrow
  · next hf =>
    rw [hf] at hgrow
    exact hgrow
  · next hf =>
    rw [hf] at hgrow
    exact (stable_grows _).putOnNew tx r tries hgrow ((file_congr hgrow.1 table).trans hfile)

/-- **A record is put on the first page that has a free slot**, or nothing is put anywhere. -/
theorem insert_inserting (h : e.Sound) (hs : (e.insert tx table r).2.Small) :
    Inserting tx table r e (e.insert tx table r) := by
  unfold insert at hs ⊢
  cases hf : e.file table with
  | error fault =>
    -- no page of a table that is not there is seen
    refine .failed (.quiet ?_ (Quiet.refl h tx) fun _ place q hi => ?_)
    · unfold file Catalog.tableFile Except.mapError at hf
      split at hf
      · cases hf
        rfl
      · cases hf
    · obtain ⟨p, hp, -⟩ := hi.page
      obtain ⟨-, file, hf', -⟩ := h.of_view_page hp
      rw [hi.inTable, hf] at hf'
      cases hf'
  | ok file =>
    rw [hf] at hs
    simp only at hs ⊢
    unfold insertInto at hs ⊢
    by_cases htypes : r.schema.types = file.schema.types
    · rw [if_neg (not_not.2 htypes), h.present.count hf] at hs ⊢
      simp only at hs ⊢
      have hplace := putOnFirst_range h hf tx r
      cases hrun : putOnFirst file tx r (List.range (e.pages table)) e with
      | mk o e1 =>
        rw [hrun] at hplace
        rw [hrun] at hs
        cases hplace with
        | placed hi => exact .inserted hi
        | failed hfail => exact .failed hfail
        | passed hq hp hd =>
          simp only at hs ⊢
          have hf1 : e1.file table = .ok file := (hq.file_eq table).trans hf
          have hpages := pages_of_disk (e := e) hq.catalog hd table
          -- page numbers that have room at the end had room before each page that was appended
          have hs1 : e1.Small := ((stable_grows e1).putOnNew tx r _ (Outgrows.refl e1) hf1).small hq.sound.present hs
          obtain ⟨disk, ha, hpresent, -, hnew⟩ := append_ok hq.sound hf1 tx hs1
          have hsmall := (outgrows_putOnNew (r := r) hf1 ha e1.cache.frames.length).small hpresent hs
          rw [← hpages] at hp
          cases hrun' : putOnNew file tx r (e1.cache.frames.length + 1) e1 with
          | mk o e2 =>
            have hin := (putOnNew_inserting (r := r) hf1 hq.sound hp ha (hnew hsmall) e1.cache.frames.length).1
            rw [hrun'] at hin
            cases hin with
            | inserted hi => exact .inserted (hq.inserted hi)
            | failed hfail => exact .failed (hq.fails hfail fun hr => by rw [← hq.view_eq tx]; exact hr)
    · rw [if_pos htypes]
      refine .failed (.quiet rfl (Quiet.refl h tx) fun _ place q hi => ?_)
      obtain ⟨p, hp, hq⟩ := hi.page
      obtain ⟨-, file', hf', hs', -⟩ := h.of_view_page hp
      rw [hi.inTable, hf] at hf'
      cases hf'
      obtain ⟨-, -, ht, -⟩ := Page.insert_ok hq
      exact htypes (by rw [ht, hs'])

/-- A table that takes a record on a page grows up to this page at most. -/
theorem insert_grows (h : e.Sound) (hs : e.Small) (hi : (e.view tx).Inserts table r place q)
    (hroom : place.page.number + 1 < Paged.numberBound) : (e.insert tx table r).2.Small ∧
      ∀ t, (e.insert tx table r).2.pages t ≤ e.pages t ∨
        t = table ∧ (e.insert tx table r).2.pages t ≤ place.page.number + 1 := by
  have hcatalog := ((stable_grows e).insert (Outgrows.refl e) tx table r).1
  have hsame : (e.insert tx table r).2.disk = e.disk → (e.insert tx table r).2.Small ∧
      ∀ t, (e.insert tx table r).2.pages t ≤ e.pages t ∨
        t = table ∧ (e.insert tx table r).2.pages t ≤ place.page.number + 1 :=
    fun hd => ⟨small_of_disk hcatalog hd hs, fun t => .inl (le_of_eq (pages_of_disk hcatalog hd t))⟩
  unfold insert insertInto at hcatalog hsame ⊢
  cases hf : e.file table with
  | error fault =>
    rw [hf] at hsame
    exact hsame rfl
  | ok file =>
    rw [hf] at hcatalog hsame
    simp only at hcatalog hsame ⊢
    split at hsame
    · next htypes =>
      rw [if_pos htypes]
      exact hsame rfl
    next htypes =>
    rw [if_neg htypes] at hcatalog ⊢
    rw [h.present.count hf] at hcatalog hsame ⊢
    simp only at hcatalog hsame ⊢
    have hplace := putOnFirst_range h hf tx r
    have hdisk := (steady_disk e.disk).putOnFirst file tx r (List.range (e.pages table)) (e := e) rfl
    cases hrun : putOnFirst file tx r (List.range (e.pages table)) e with
    | mk o e1 =>
      rw [hrun] at hplace hdisk hcatalog hsame
      cases hplace with
      | placed _ => exact hsame hdisk
      | failed _ => exact hsame hdisk
      | passed hq hp hd =>
        simp only at hcatalog ⊢
        have hf1 : e1.file table = .ok file := (hq.file_eq table).trans hf
        have hpages := fun t => pages_of_disk (e := e) hq.catalog hd t
        have hle : e.pages table ≤ place.page.number := by
          rw [← hq.view_eq tx] at hi
          exact hp.le_of_inserts hi
        obtain ⟨disk, ha, -, hsmall, hnew⟩ := append_ok hq.sound hf1 tx (small_of_disk hq.catalog hd hs)
        have hsmall := hsmall (by rw [hpages]; omega)
        -- one page more is enough, so the file grows by one page
        rw [← hpages table] at hp
        have hdisk' := (putOnNew_inserting (r := r) hf1 hq.sound hp ha (hnew hsmall) e1.cache.frames.length).2
        have hcatalog' := hcatalog.trans hq.catalog.symm
        refine ⟨small_of_disk (e := { e1 with disk }) hcatalog' hdisk' hsmall, fun t => ?_⟩
        rw [pages_of_disk (e := { e1 with disk }) hcatalog' hdisk', (hnew hsmall).pages, hpages, hpages]
        by_cases ht : t = table
        · rw [if_pos ht]
          exact .inr ⟨ht, by omega⟩
        · rw [if_neg ht]
          exact .inl le_rfl

/-! ## Deleting -/

/-- A record that was deleted. -/
structure Deleted (tx : TxId) (r : Record) (place : RecordId) (q : Page) (e e' : Engine) : Prop
    extends Puts tx (q.mark (some tx)) e e' where
  deletes : (e.view tx).Deletes r place q
  locked : e'.locks.mode? tx place.page = some .exclusive
  inFile : place.page.number < e.pages place.page.table

/-- What comes of deleting a record. -/
inductive Deleting (tx : TxId) (r : Record) (e : Engine) : Outcome AccessFault Unit → Prop where
  | deleted {place : RecordId} {q : Page} {e' : Engine} (h : Deleted tx r place q e e') :
    Deleting tx r e (.ok (), e')
  | failed {fault : AccessFault} {e' : Engine} (h : Fails tx fault (∀ place q, ¬ (e.view tx).Deletes r place q) e e') :
    Deleting tx r e (.error fault, e')

/-- From a page that lacks nothing is deleted. -/
theorem Sound.not_deletes_of_lacks (h : e.Sound) (hr : r.place = some place) (hl : e.Lacks tx place.page)
    (place' : RecordId) (q : Page) : ¬ (e.view tx).Deletes r place' q := by
  rintro ⟨hr', p, hp, hq⟩
  rw [hr] at hr'
  cases hr'
  rcases hl with hl | ⟨fault, hl⟩
  · obtain ⟨-, file, hf, -⟩ := h.of_view_page hp
    obtain ⟨p', hp', hrow⟩ := h.view_page_behind hf hl tx
    rw [hp] at hp'
    cases hp'
    exact Page.delete_of_empty hrow hq
  · rw [hl] at hp
    cases hp

/-- **A record is deleted from the page where it lies**, or nothing is deleted. -/
theorem delete_deleting (h : e.Sound) : Deleting tx r e (e.delete tx r) := by
  unfold delete Record.location
  cases hr : r.place with
  | none =>
    refine .failed (.quiet rfl (Quiet.refl h tx) fun _ place q hd => ?_)
    rw [hd.placed] at hr
    cases hr
  | some place =>
    have hquiet : ∀ {fault : AccessFault}, fault.aborts = false → e.Lacks tx place.page →
        Deleting tx r e (.error fault, e) := fun ha hl =>
      .failed (.quiet ha (Quiet.refl h tx) fun _ => h.not_deletes_of_lacks hr hl)
    simp only
    cases hf : e.file place.page.table with
    | error fault =>
      refine hquiet rfl (.inl ?_)
      unfold pages
      rw [hf]
      exact Nat.zero_le _
    | ok file =>
      have ht : place.page.table = file.table := (h.catalog.own hf).symm
      unfold deleteFrom Record.location
      simp only [hr]
      rw [if_neg (not_not.2 ht), h.present.count hf]
      simp only
      split
      · next hn => exact hquiet rfl (.inl hn)
      · next hn =>
        -- the page lies in the file, and is fetched
        split
        · next fault e1 hfetch =>
          exact .failed ((Quiet.refl h tx).fails (fetch_error h hfetch) fun hl => h.not_deletes_of_lacks hr hl)
        · next f e1 hfetch =>
          have hf1 := fetch_ok h hfetch
          have hid : f.page.id = place.page := (Cache.mem_of_find? hf1.found).2
          unfold takeFrom
          cases hd : f.page.delete r with
          | error cause =>
            refine .failed (.quiet rfl hf1.toQuiet fun _ place' q hdel => ?_)
            obtain ⟨hr', p, hp, hq⟩ := hdel
            rw [hr] at hr'
            cases hr'
            rw [hf1.page] at hp
            cases hp
            rw [hd] at hq
            cases hq
          | ok q =>
            obtain ⟨slot, hslot, -, hch⟩ := Page.delete_ok hd
            have hputs : Puts tx (q.mark (some tx)) e1 { e1 with cache := e1.cache.update q.id (q.mark (some tx)) } :=
              puts_update hf1.sound hf1.found (hf1.alone rfl) (hch.revises tx) rfl
            exact .deleted ⟨hf1.toQuiet.puts hputs, ⟨hr, f.page, hf1.page, hd⟩, hf1.alone rfl, by omega⟩

end Engine

end HeapStore
