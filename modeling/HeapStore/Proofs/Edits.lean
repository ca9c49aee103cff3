import HeapStore.Proofs.Conversion
import HeapStore.Proofs.PageEdits

/-!
# One change in a transaction of its own

A transaction that inserts or deletes one record and ends changes one slot of one page in the file of its table. Only a
record for which no page has a free slot makes the file longer, and a record that is refused changes no file.

* `TableFile.Edits`: one slot of a page has got other fields, and **no other page has another byte.**
* `TableFile.Gains`: a slot that was free has got a record. The file is one page longer if all its pages were full, and
  as long as it was if not.
* `Engine.Idle.insert_error`: **a record that is refused changes no file.** No page is appended for it.
* `Engine.Idle.insert_gains`, `Engine.Idle.delete_edits`: what the file of the table holds after the commit.
-/

namespace HeapStore

/-! ## Files that differ in one slot -/

namespace Paged

variable {size : Nat} {file file' : Bytes}

/-- A file that has grown by no page is as it was. -/
theorem Grown.eq_of_le (hs : 0 < size) (h : Grown size file file') (hle : file'.length / size ≤ file.length / size) :
    file' = file := by
  rcases h with rfl | ⟨k, hk, rfl⟩
  · rfl
  · rw [length_blanks, Nat.mul_div_cancel _ hs] at hle
    omega

/-- A file that has grown by one page. -/
theorem Grown.eq_lengthened (hs : 0 < size) (h : Grown size file file')
    (hlength : file'.length / size = file.length / size + 1) : file' = lengthened size file := by
  rcases h with rfl | ⟨k, hk, rfl⟩
  · omega
  · rw [length_blanks, Nat.mul_div_cancel _ hs] at hlength
    have hone : k = 1 := by omega
    rw [hone]
    rfl

/-- A blank page more has its bytes on the new page only. -/
theorem getElem?_lengthened (hs : 0 < size) (file : Bytes) {i : Nat} (hi : i / size ≠ file.length / size) :
    (lengthened size file)[i]? = file[i]? := by
  have hle := Nat.div_mul_le_self file.length size
  have hlt : file.length < file.length / size * size + size := Nat.lt_div_mul_add hs
  have hlength : (lengthened size file).length = (file.length / size + 1) * size := length_blanks size 1 file
  rw [Nat.add_mul, Nat.one_mul] at hlength
  rcases Nat.lt_or_ge (i / size) (file.length / size) with hlow | hhigh
  · have hbound : i < file.length / size * size := (Nat.div_lt_iff_lt_mul hs).1 hlow
    unfold lengthened
    rw [List.getElem?_append_left (by rw [List.length_take]; omega), List.getElem?_take, if_pos hbound]
  · -- behind the new page there is nothing in either file
    have hbound : (file.length / size + 1) * size ≤ i := (Nat.le_div_iff_mul_le hs).1 (by omega)
    rw [Nat.add_mul, Nat.one_mul] at hbound
    rw [List.getElem?_eq_none (by omega), List.getElem?_eq_none (by omega)]

end Paged

namespace TableFile

variable (t : TableFile)

/-- A page of the table with what its file holds. Behind the last page it has no records. -/
def pageIn (file : Bytes) (n : Nat) : Except RecordFault Page :=
  Page.decode (t.pageId n) t.schema t.pageSize (Paged.page t.pageSize file n)

/-- No page of the file has a free slot. -/
def AllFull (file : Bytes) : Prop :=
  ∀ k < file.length / t.pageSize, ∃ p, t.pageIn file k = .ok p ∧ p.freeSlots = 0

/-- One slot of a page has got other fields, and no other page has another byte. -/
structure Edits (n slot : Nat) (old new : Option (List Field)) (before after : Bytes) : Prop where
  others : ∀ i, i / t.pageSize ≠ n → after[i]? = before[i]?
  page : ∃ p q, t.pageIn before n = .ok p ∧ t.pageIn after n = .ok q ∧ p.contents slot = old ∧
    ∀ j, q.contents j = if j = slot then new else p.contents j

/-- A free slot has got a record, on a new page if all pages were full. -/
structure Gains (n slot : Nat) (fields : List Field) (before after : Bytes) : Prop
    extends Edits t n slot none (some fields) before after where
  fits : ¬ t.AllFull before → n < before.length / t.pageSize ∧ after.length = before.length
  grows : t.AllFull before → n = before.length / t.pageSize ∧ after.length = (before.length / t.pageSize + 1) * t.pageSize

end TableFile

namespace Engine

variable {e e' : Engine} {tx : TxId} {table : TableId} {file : TableFile} {r : Record} {place : RecordId} {p q : Page}
  {n slot : Nat} {new : Option (List Field)}

/-! ## The commit -/

/-- Between transactions everybody sees the pages of the file. -/
theorem Idle.page_eq (h : e.Idle) (hf : e.file table = .ok file) (tx : TxId) (n : Nat) :
    (e.view tx).page ⟨table, n⟩ = (file.pageIn (e.fileBytes table) n).mapError .record := by
  have hid : file.pageId n = ⟨table, n⟩ := by rw [← (h tx).sound.catalog.own hf]; rfl
  rw [View.page_of_none (h.draft tx _), view_stored_nth hf, pageBytes_nth hf]
  unfold TableFile.pageIn
  rw [hid]

theorem Idle.page_eq_ok (h : e.Idle) (hf : e.file table = .ok file) :
    (e.view tx).page ⟨table, n⟩ = .ok p ↔ file.pageIn (e.fileBytes table) n = .ok p := by
  rw [h.page_eq hf]
  cases file.pageIn (e.fileBytes table) n with
  | error fault => exact ⟨nofun, nofun⟩
  | ok p' => exact ⟨fun he => by cases he; rfl, fun he => by cases he; rfl⟩

/-- **The commit of one changed page writes this page** and no byte of another one. -/
theorem Idle.commit_puts (h : e.Idle) (hf : e.file table = .ok file) (hp : (e.view tx).page ⟨table, n⟩ = .ok p)
    (hc : p.Changes q slot new) (hputs : Puts tx (q.mark (some tx)) e e') :
    ∃ e'', e'.complete tx true = (.ok (), e'') ∧ e''.file table = .ok file ∧ e''.Present ∧
      (e''.fileBytes table).length = (e'.fileBytes table).length ∧
      (∀ i, i / file.pageSize ≠ n → (e''.fileBytes table)[i]? = (e'.fileBytes table)[i]?) ∧
      ∃ q', file.pageIn (e''.fileBytes table) n = .ok q' ∧
        ∀ j, q'.contents j = if j = slot then new else p.contents j := by
  have hf' : e'.file table = .ok file := (hputs.file_eq table).trans hf
  obtain ⟨hid, file', hfile, hschema, hsize⟩ := (h tx).sound.of_view_page hp
  obtain rfl : file' = file := Except.ok.inj (hfile.symm.trans hf)
  have hqid : q.id = ⟨table, n⟩ := hc.id.trans hid
  have ht : file'.pageId n = q.id := by
    rw [hqid, ← (h tx).sound.catalog.own hf]
    rfl
  -- no other page was changed by the transaction
  have hdraft : ∀ m, (e'.cache.draft tx ⟨table, m⟩).isSome → m = n := by
    intro m hm
    have hd := hputs.draft ⟨table, m⟩
    by_cases hi : (⟨table, m⟩ : PageId) = (q.mark (some tx)).id
    · have hnumber : (⟨table, m⟩ : PageId) = ⟨table, n⟩ := hi.trans hqid
      exact congrArg PageId.number hnumber
    · rw [if_neg hi, h.draft] at hd
      rw [hd] at hm
      cases hm
  obtain ⟨e'', hrun, hk⟩ := complete_keep hputs.sound tx
  have hf'' : e''.file table = .ok file' := (hk.file_eq table).trans hf'
  obtain ⟨hlength, hbytes⟩ := hk.rewritten hf'
  refine ⟨e'', hrun, hf'', hk.sound.present, hlength, fun i hi => ?_, ?_⟩
  · by_contra hne
    exact hi (hdraft _ (hbytes i hne))
  · -- the page is read back from the bytes that were stored of it
    have hown : e'.cache.draft tx ⟨table, n⟩ = some (q.mark (some tx)) := by
      rw [hputs.draft]
      exact if_pos hqid.symm
    have hstored : Paged.page file'.pageSize (e''.fileBytes table) n = (q.mark (some tx)).encode := by
      have hpage : e''.pageBytes ⟨table, n⟩ = (e'.view tx).keep.bytes ⟨table, n⟩ := congrFun hk.bytes _
      rw [pageBytes_nth hf''] at hpage
      rw [hpage]
      unfold View.keep view
      simp only [hown]
    have hdecode := (q.mark (some tx)).decode_encode (by
      show q.schema.slotCount q.size ≠ 0
      rw [hc.schema, hc.size, hschema, hsize]
      exact (h tx).sound.catalog.slots hf)
    refine ⟨((q.mark (some tx)).mark none).settle, ?_, hc.contents⟩
    unfold TableFile.pageIn
    rw [ht, hstored, ← hschema, ← hsize, ← hc.schema, ← hc.size]
    exact hdecode

/-! ## Deleting -/

/-- **A record that is deleted leaves its slot free**, and the file of its table is as long as it was. -/
theorem Idle.delete_edits {f : Frame} {e₁ e₂ : Engine} (h : e.Idle) (hf : e.file table = .ok file)
    (hfetch : e.fetch tx ⟨table, n⟩ .exclusive = (.ok f, e₁)) (hr : f.page.record? slot = some r)
    (hrun : e₁.delete tx r = (.ok (), e₂)) :
    ∃ e', e₂.complete tx true = (.ok (), e') ∧ e'.file table = .ok file ∧ e'.Present ∧
      n < (e.fileBytes table).length / file.pageSize ∧ (e'.fileBytes table).length = (e.fileBytes table).length ∧
      file.Edits n slot (some r.fields) none (e.fileBytes table) (e'.fileBytes table) := by
  have hfetched := fetch_ok (h tx).sound hfetch
  have hdel : Deleting tx r e₁ (e₁.delete tx r) := delete_deleting hfetched.sound
  have hdisk : e₂.disk = e.disk := by
    have hsame := (steady_disk e.disk).delete hfetched.disk tx r
    rw [hrun] at hsame
    exact hsame
  rw [hrun] at hdel
  cases hdel with
  | @deleted place q _ hd =>
    have hputs : Puts tx (q.mark (some tx)) e e₂ := hfetched.toQuiet.puts hd.toPuts
    obtain ⟨hplaced, p, hp, hq⟩ := hd.deletes
    have hslot : r.place = some ⟨f.page.id, slot⟩ := Page.place_of_record? hr
    have hid : f.page.id = ⟨table, n⟩ := (Cache.mem_of_find? hfetched.found).2
    rw [hplaced] at hslot
    cases hslot
    -- the page that was fetched is the one from which the record is taken
    obtain rfl : p = f.page := by
      rw [hfetched.toQuiet.view_eq tx, hid, hfetched.page] at hp
      exact (Except.ok.inj hp).symm
    obtain ⟨slot', hslot', hheld, hchange⟩ := Page.delete_ok hq
    rw [hplaced] at hslot'
    cases hslot'
    obtain ⟨e', hcommit, hf', hpresent, hlength, hothers, q', hq', hcontents⟩ :=
      h.commit_puts hf hfetched.page hchange hputs
    have hbytes : e₂.fileBytes table = e.fileBytes table := fileBytes_of_disk hputs.catalog hdisk table
    rw [hbytes] at hlength hothers
    have hin : n < (e.fileBytes table).length / file.pageSize := by
      have hlt : n < e.pages table := hfetched.inFile
      rw [pages_eq hf, Paged.count_eq ((h tx).small table file hf)] at hlt
      exact hlt
    exact ⟨e', hcommit, hf', hpresent, hin, hlength, hothers, f.page, q', (h.page_eq_ok hf).1 hfetched.page, hq', hheld,
      hcontents⟩

/-! ## Inserting -/

/-- Behind full pages there is room on a new one. -/
theorem Passed.inserts (hp : e.Passed tx table (e.pages table)) (h : e.Sound) (hf : e.file table = .ok file)
    (hr : r.schema.types = file.schema.types) : ∃ place q, (e.view tx).Inserts table r place q := by
  have hfile : e.file (PageId.mk table (e.pages table)).table = .ok file := hf
  obtain ⟨p, hview, hrow⟩ := h.view_page_behind hfile le_rfl tx
  obtain ⟨hid, file', hf', hs, hz⟩ := h.of_view_page hview
  obtain rfl : file' = file := Except.ok.inj (hf'.symm.trans hfile)
  have hfree : p.freeSlots ≠ 0 := Page.freeSlots_of_empty hrow (by rw [hs, hz]; exact h.catalog.slots hf)
  obtain ⟨place, q, hq⟩ := Page.insert_total (hr.trans (congrArg Schema.types hs).symm) hfree
  have hplace : place.page = ⟨table, e.pages table⟩ := (Page.insert_ok hq).1.trans hid
  refine ⟨place, q, by rw [hplace], fun k hk => ?_, p, by rw [hplace]; exact hview, hq⟩
  rw [hplace] at hk
  exact (hp k hk).1

/-- **A record that is refused changes no file.** A page is appended only if all pages could be read and are full, and
then there is room for the record. -/
theorem Idle.insert_error {fault : AccessFault} (h : e.Idle) (hf : e.file table = .ok file)
    (hroom : 0 < e.cache.capacity) (hrun : e.insert tx table r = (.error fault, e')) (hs : e'.Small) :
    e'.disk = e.disk := by
  have halone : e.Alone tx := h tx
  have hnone : ∀ place q, ¬ (e.view tx).Inserts table r place q := by
    have hins : Inserting tx table r e (e.insert tx table r) :=
      insert_inserting halone.sound (by rw [hrun]; exact hs)
    rw [hrun] at hins
    cases hins with
    | failed hfail => exact (halone.of_fails (by rw [h.changed]; exact hroom) hfail).2
  unfold insert insertInto at hrun
  rw [hf] at hrun
  simp only at hrun
  split at hrun
  · cases hrun
    rfl
  next htypes =>
  rw [not_not] at htypes
  rw [halone.sound.present.count hf] at hrun
  simp only at hrun
  have hplace := putOnFirst_range halone.sound hf tx r
  have hdisk := (steady_disk e.disk).putOnFirst file tx r (List.range (e.pages table)) (e := e) rfl
  cases hfirst : putOnFirst file tx r (List.range (e.pages table)) e with
  | mk o e₁ =>
    rw [hfirst] at hplace hdisk hrun
    cases hplace with
    | placed _ => cases hrun
    | failed _ =>
      cases hrun
      exact hdisk
    | passed hq hp _ =>
      -- then all pages are full, and the record could have been put behind them
      have hpages : e₁.pages table = e.pages table := pages_of_disk hq.catalog hdisk table
      rw [← hpages] at hp
      obtain ⟨place, q, hi⟩ := hp.inserts hq.sound ((hq.file_eq table).trans hf) htypes
      rw [hq.view_eq tx] at hi
      exact absurd hi (hnone place q)

/-- A page that takes a record has a free slot, so not all pages are full if it is one of them. -/
theorem Idle.not_allFull (h : e.Idle) (hf : e.file table = .ok file) (hi : (e.view tx).Inserts table r place q)
    (hlt : place.page.number < (e.fileBytes table).length / file.pageSize) : ¬ file.AllFull (e.fileBytes table) := by
  intro hfull
  obtain ⟨p, hp, hfree⟩ := hfull _ hlt
  obtain ⟨p', hp', hq⟩ := hi.page
  have hid : place.page = ⟨table, place.page.number⟩ := by rw [← hi.inTable]
  rw [hid, (h.page_eq_ok hf).2 hp] at hp'
  cases hp'
  exact Page.freeSlots_of_insert hq hfree

/-- All pages are full if the record goes behind them, and it goes right behind them. -/
theorem Idle.allFull (h : e.Idle) (hf : e.file table = .ok file) (hi : (e.view tx).Inserts table r place q)
    (hge : (e.fileBytes table).length / file.pageSize ≤ place.page.number) :
    file.AllFull (e.fileBytes table) ∧ place.page.number = (e.fileBytes table).length / file.pageSize := by
  have hpages : e.pages table = (e.fileBytes table).length / file.pageSize := by
    rw [pages_eq hf, Paged.count_eq ((h tx).small table file hf)]
  refine ⟨fun k hk => ?_, ?_⟩
  · obtain ⟨p, hp, hfree⟩ := hi.before k (by omega)
    exact ⟨p, (h.page_eq_ok hf).1 hp, hfree⟩
  · by_contra hne
    -- the page behind the last one is blank, so it is not full
    have hfile : e.file (PageId.mk table (e.pages table)).table = .ok file := hf
    obtain ⟨p, hview, hrow⟩ := (h tx).sound.view_page_behind hfile le_rfl tx
    obtain ⟨-, file', hf', hs, hz⟩ := (h tx).sound.of_view_page hview
    obtain rfl : file' = file := Except.ok.inj (hf'.symm.trans hfile)
    obtain ⟨p', hview', hfree⟩ := hi.before (e.pages table) (by omega)
    rw [hview] at hview'
    cases hview'
    exact Page.freeSlots_of_empty hrow (by rw [hs, hz]; exact (h tx).sound.catalog.slots hf) hfree

/-- **A record that is inserted has its slot in the file after the commit.** -/
theorem Idle.insert_gains (h : e.Idle) (hf : e.file table = .ok file) (hrun : e.insert tx table r = (.ok place, e'))
    (hs : e'.Small) : ∃ e'', e'.complete tx true = (.ok (), e'') ∧ e''.file table = .ok file ∧ e''.Present ∧
      file.Gains place.page.number place.slot r.fields (e.fileBytes table) (e''.fileBytes table) := by
  have halone : e.Alone tx := h tx
  have hins : Inserting tx table r e (e.insert tx table r) := insert_inserting halone.sound (by rw [hrun]; exact hs)
  rw [hrun] at hins
  cases hins with
  | @inserted _ q _ hi =>
  have hsize : 0 < file.pageSize := halone.sound.catalog.size_pos hf
  have hf' : e'.file table = .ok file := (hi.file_eq table).trans hf
  obtain ⟨p, hp, hq⟩ := hi.inserts.page
  have hid : place.page = ⟨table, place.page.number⟩ := by rw [← hi.inserts.inTable]
  rw [hid] at hp
  obtain ⟨-, hheld, -, hchange⟩ := Page.insert_ok hq
  obtain ⟨e'', hcommit, hf'', hpresent, hlength, hothers, q', hq', hcontents⟩ := h.commit_puts hf hp hchange hi.toPuts
  -- the file has grown up to the page of the record, if at all
  have hcount : e.pages table = (e.fileBytes table).length / file.pageSize := by
    rw [pages_eq hf, Paged.count_eq (halone.small table file hf)]
  have hcount' : e'.pages table = (e'.fileBytes table).length / file.pageSize := by
    rw [pages_eq hf', Paged.count_eq (hs table file hf')]
  have hin : place.page.number < e'.pages table := hi.inFile
  have hbound : e'.pages table ≤ e.pages table ∨ e'.pages table ≤ place.page.number + 1 := by
    have hlt : e'.pages table < Paged.numberBound := pages_lt e' table
    have hgrows := (insert_grows halone.sound halone.small hi.inserts (by omega)).2 table
    rw [hrun] at hgrows
    exact hgrows.imp_right And.right
  have hgrown : Paged.Grown file.pageSize (e.fileBytes table) (e'.fileBytes table) := hi.grown hf
  refine ⟨e'', hcommit, hf'', hpresent, ⟨fun i hne => ?_, p, q', (h.page_eq_ok hf).1 hp, hq', hheld, hcontents⟩,
    fun hnot => ?_, fun hfull => ?_⟩
  all_goals rcases Nat.lt_or_ge place.page.number ((e.fileBytes table).length / file.pageSize) with hlt | hge
  · have hsame : e'.fileBytes table = e.fileBytes table := hgrown.eq_of_le hsize (by omega)
    rw [hothers i hne, hsame]
  · obtain ⟨-, hnumber⟩ := h.allFull hf hi.inserts hge
    have hlonger : e'.fileBytes table = Paged.lengthened file.pageSize (e.fileBytes table) :=
      hgrown.eq_lengthened hsize (by omega)
    rw [hothers i hne, hlonger, Paged.getElem?_lengthened hsize _ (by omega)]
  · have hsame : e'.fileBytes table = e.fileBytes table := hgrown.eq_of_le hsize (by omega)
    exact ⟨hlt, by rw [hlength, hsame]⟩
  · exact absurd (h.allFull hf hi.inserts hge).1 hnot
  · exact absurd hfull (h.not_allFull hf hi.inserts hlt)
  · obtain ⟨-, hnumber⟩ := h.allFull hf hi.inserts hge
    have hlonger : e'.fileBytes table = Paged.lengthened file.pageSize (e.fileBytes table) :=
      hgrown.eq_lengthened hsize (by omega)
    refine ⟨hnumber, ?_⟩
    rw [hlength, hlonger]
    exact Paged.length_blanks _ 1 _

end Engine

end HeapStore
