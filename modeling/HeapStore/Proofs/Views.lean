import HeapStore.Engine.Basic
import HeapStore.Proofs.CachePages
import HeapStore.Proofs.FilePages
import HeapStore.Proofs.Locks
import HeapStore.Proofs.PageCodec

/-!
# What transactions see

An engine from the side of a transaction: the stored bytes of every page, with zeros behind the end of each
file, and the pages that the transaction has changed and not ended yet (`View`). Copies of unchanged pages,
blank pages at the ends of files and the locks of others are no part of it.

* `Engine.view`: what a transaction sees. `Engine.pageBytes` are the stored bytes.
* `Engine.Coherent`: **copies and files agree.** Each copy is of a page that its file has, and a clean copy is
  the stored page.
* `Engine.Sound`: also, **who has changed a page holds it exclusively.**
* `Engine.Small`: page numbers have room in 32 bits.
-/

namespace HeapStore

open Std

/-! ## Views -/

/-- What a transaction sees: the stored bytes of each page, and the pages that it has changed. -/
structure View where
  catalog : Catalog
  bytes : PageId → Bytes
  draft : PageId → Option Page

namespace View

variable (v : View)

/-- The page as it is stored. -/
def stored (id : PageId) : Except AccessFault Page := do
  let file ← v.catalog.tableFile id.table
  (Page.decode id file.schema file.pageSize (v.bytes id)).mapError .record

/-- The page as the transaction sees it. -/
def page (id : PageId) : Except AccessFault Page :=
  match v.draft id with
  | some page => .ok page
  | none => v.stored id

/-- The view after a page was changed. -/
def put (page : Page) : View := { v with draft := fun id => if id = page.id then some page else v.draft id }

/-- The view after all changes were dropped. -/
def drop : View := { v with draft := fun _ => none }

/-- The view after all changes were stored. -/
def keep : View :=
  { v with
    bytes := fun id => match v.draft id with
      | some page => page.encode
      | none => v.bytes id
    draft := fun _ => none }

variable {v}

theorem page_of_draft {id : PageId} {p : Page} (h : v.draft id = some p) : v.page id = .ok p := by
  unfold page
  rw [h]

theorem page_of_none {id : PageId} (h : v.draft id = none) : v.page id = v.stored id := by
  unfold page
  rw [h]

theorem stored_eq {id : PageId} {file : TableFile} (h : v.catalog.tableFile id.table = .ok file) :
    v.stored id = (Page.decode id file.schema file.pageSize (v.bytes id)).mapError .record := by
  unfold stored
  rw [h]
  rfl

end View

namespace Engine

variable (e : Engine)

/-- What the file of a table holds, nothing if there is no such file. -/
def fileBytes (table : TableId) : Bytes :=
  match e.file table with
  | .ok file => (e.disk.held file.location).toOption.getD []
  | .error _ => []

/-- The number of pages of a table. -/
def pages (table : TableId) : Nat :=
  match e.file table with
  | .ok file => Paged.count file.pageSize (e.fileBytes table)
  | .error _ => 0

/-- The stored bytes of a page, zeros behind the end of the file. -/
def pageBytes (id : PageId) : Bytes :=
  match e.file id.table with
  | .ok file => Paged.page file.pageSize (e.fileBytes id.table) id.number
  | .error _ => []

/-- What a transaction sees. -/
def view (tx : TxId) : View := ⟨e.catalog, e.pageBytes, e.cache.draft tx⟩

/-- Page numbers have room in 32 bits. -/
def Small : Prop := ∀ table file, e.file table = .ok file →
  (e.fileBytes table).length / file.pageSize < Paged.numberBound

end Engine

/-- Each table has a file of its own, whose pages have room for rows and carry the number of the table. -/
structure Catalog.Sound (c : Catalog) : Prop where
  own : ∀ {table : TableId} {file : TableFile}, c.tableFile table = .ok file → file.table = table
  slots : ∀ {table : TableId} {file : TableFile}, c.tableFile table = .ok file →
    file.schema.slotCount file.pageSize ≠ 0
  apart : ∀ {a b : TableId} {f g : TableFile}, c.tableFile a = .ok f → c.tableFile b = .ok g →
    f.location = g.location → a = b

theorem Catalog.Sound.size_pos {c : Catalog} (h : c.Sound) {table : TableId} {file : TableFile}
    (hf : c.tableFile table = .ok file) : 0 < file.pageSize := by
  rcases Nat.eq_zero_or_pos file.pageSize with h0 | h0
  · have := h.slots hf
    rw [h0] at this
    simp [Schema.slotCount] at this
  · exact h0

/-- A page that was changed since it was read, or not at all. -/
structure Page.Revises (p q : Page) : Prop where
  id : p.id = q.id
  schema : p.schema = q.schema
  size : p.size = q.size
  image : p.image = q.image
  clean : p.dirty = none → p = q

namespace Page.Revises

variable {p q r : Page}

theorem refl (p : Page) : p.Revises p := ⟨rfl, rfl, rfl, rfl, fun _ => rfl⟩

theorem trans (h : p.Revises q) (h' : q.Revises r) : p.Revises r where
  id := h.id.trans h'.id
  schema := h.schema.trans h'.schema
  size := h.size.trans h'.size
  image := h.image.trans h'.image
  clean hc := by
    have hp := h.clean hc
    rw [hp] at hc ⊢
    exact h'.clean hc

end Page.Revises

namespace Engine

/-- The files of the tables are there. -/
structure Present (e : Engine) : Prop where
  held : ∀ {table : TableId} {file : TableFile}, e.file table = .ok file →
    e.disk.held file.location = .ok (e.fileBytes table)

/-- Copies and files agree. -/
structure Coherent (e : Engine) : Prop where
  catalog : e.catalog.Sound
  present : e.Present
  nodup : e.cache.pages.Nodup
  copies : ∀ f ∈ e.cache.frames, ∃ q, e.stored f.page.id = .ok q ∧ f.page.Revises q

/-- Copies and files agree, and a page that is changed is held exclusively by who changed it. -/
structure Sound (e : Engine) : Prop extends Coherent e where
  locks : e.locks.Sound
  locked : ∀ {tx : TxId} {id : PageId}, (e.cache.draft tx id).isSome → e.locks.mode? tx id = some .exclusive

variable {e e' : Engine} {tx tx' : TxId} {id : PageId} {table : TableId} {file : TableFile} {bytes : Bytes}

theorem file_eq (e : Engine) (table : TableId) : e.file table = e.catalog.tableFile table := rfl

theorem file_of_catalog (h : e.catalog.file table = .ok file) : e.file table = .ok file := by
  unfold Engine.file Catalog.tableFile
  rw [h]
  rfl

/-- The catalog alone says which file a table has. -/
theorem file_congr (h : e'.catalog = e.catalog) (table : TableId) : e'.file table = e.file table := by
  rw [file_eq, file_eq, h]

theorem fileBytes_eq (hf : e.file table = .ok file) (hb : e.disk.held file.location = .ok bytes) :
    e.fileBytes table = bytes := by
  unfold fileBytes
  rw [hf]
  simp only [hb]
  rfl

theorem pages_eq (hf : e.file table = .ok file) :
    e.pages table = Paged.count file.pageSize (e.fileBytes table) := by
  unfold pages
  rw [hf]

theorem pages_of_error {fault : AccessFault} (hf : e.file table = .error fault) : e.pages table = 0 := by
  unfold pages
  rw [hf]

/-- Pages are counted in 32 bits. -/
theorem pages_lt (e : Engine) (table : TableId) : e.pages table < Paged.numberBound := by
  unfold pages
  split
  · exact Nat.mod_lt _ (by decide)
  · decide

theorem fileBytes_of_disk (hc : e'.catalog = e.catalog) (hd : e'.disk = e.disk) (table : TableId) :
    e'.fileBytes table = e.fileBytes table := by
  unfold fileBytes file
  rw [hc, hd]

theorem pages_of_disk (hc : e'.catalog = e.catalog) (hd : e'.disk = e.disk) (table : TableId) :
    e'.pages table = e.pages table := by
  unfold pages fileBytes file
  rw [hc, hd]

theorem small_of_disk (hc : e'.catalog = e.catalog) (hd : e'.disk = e.disk) (hs : e.Small) : e'.Small := by
  unfold Small fileBytes file at hs ⊢
  rw [hc, hd]
  exact hs

theorem pageBytes_eq (hf : e.file id.table = .ok file) :
    e.pageBytes id = Paged.page file.pageSize (e.fileBytes id.table) id.number := by
  unfold pageBytes
  rw [hf]

theorem pageBytes_of_error {fault : AccessFault} (hf : e.file id.table = .error fault) : e.pageBytes id = [] := by
  unfold pageBytes
  rw [hf]

theorem pageBytes_of_pages_le (hf : e.file id.table = .ok file) (h : e.pages id.table ≤ id.number) :
    e.pageBytes id = Bytes.zeros file.pageSize := by
  rw [pageBytes_eq hf, Paged.page_of_le (by rw [← pages_eq hf]; exact h)]

/-- Where files have grown by blank pages all pages are as before, as long as their numbers have room. -/
theorem pageBytes_of_grown (hc : e'.catalog = e.catalog) (h : e.catalog.Sound) (hs : e.Small) (hs' : e'.Small)
    (hgrown : ∀ {table : TableId} {file : TableFile}, e.file table = .ok file →
      Paged.Grown file.pageSize (e.fileBytes table) (e'.fileBytes table)) : e'.pageBytes = e.pageBytes := by
  funext id
  have hfile := file_congr hc id.table
  cases hf : e.file id.table with
  | error fault =>
    rw [hf] at hfile
    rw [pageBytes_of_error hf, pageBytes_of_error hfile]
  | ok file =>
    rw [hf] at hfile
    rw [pageBytes_eq hf, pageBytes_eq hfile]
    exact Paged.page_of_grown (h.size_pos hf) (hgrown hf) (hs _ _ hf) (hs' _ _ hfile) _

/-- Such a file has lost no page. -/
theorem pages_le_of_grown (hc : e'.catalog = e.catalog) (h : e.catalog.Sound) (hs' : e'.Small)
    (hgrown : ∀ {table : TableId} {file : TableFile}, e.file table = .ok file →
      Paged.Grown file.pageSize (e.fileBytes table) (e'.fileBytes table)) (table : TableId) :
    e.pages table ≤ e'.pages table := by
  have hfile := file_congr hc table
  cases hf : e.file table with
  | error fault =>
    rw [pages_of_error hf]
    exact Nat.zero_le _
  | ok file =>
    rw [hf] at hfile
    rw [pages_eq hf, pages_eq hfile]
    exact (hgrown hf).count_le (h.size_pos hf) (hs' _ _ hfile)

theorem view_stored_eq (hf : e.file id.table = .ok file) : (e.view tx).stored id =
    (Page.decode id file.schema file.pageSize (e.pageBytes id)).mapError .record := View.stored_eq hf

namespace Present

theorem count (h : e.Present) (hf : e.file table = .ok file) : file.count e.disk = .ok (e.pages table) := by
  rw [pages_eq hf, TableFile.count_eq]
  unfold TableFile.bytes
  rw [h.held hf]
  rfl

/-- A page that the file has is read from its stored bytes. -/
theorem stored_of_lt (h : e.Present) (hf : e.file id.table = .ok file)
    (hn : id.number < e.pages id.table) (tx : TxId) : e.stored id = (e.view tx).stored id := by
  rw [pages_eq hf] at hn
  rw [view_stored_eq hf, pageBytes_eq hf]
  unfold stored TableFile.read TableFile.bytes
  rw [hf]
  simp only [bind, Except.bind, h.held hf, Except.mapError, Paged.read_of_lt hn]

theorem stored_of_le (h : e.Present) (hf : e.file id.table = .ok file)
    (hn : e.pages id.table ≤ id.number) :
    e.stored id = .error (.file (.pageNotFound id.number (e.pages id.table))) := by
  rw [pages_eq hf] at hn ⊢
  unfold stored TableFile.read TableFile.bytes
  rw [hf]
  simp only [bind, Except.bind, h.held hf, Except.mapError, Paged.read_of_le hn]

/-- A page that was read belongs to a table, lies in its file, and is what its stored bytes are. -/
theorem of_stored (h : e.Present) {q : Page} (hq : e.stored id = .ok q) :
    ∃ file, e.file id.table = .ok file ∧ id.number < e.pages id.table ∧
      Page.decode id file.schema file.pageSize (e.pageBytes id) = .ok q := by
  cases hf : e.file id.table with
  | error fault =>
    unfold stored at hq
    rw [hf] at hq
    cases hq
  | ok file =>
    rcases Nat.lt_or_ge id.number (e.pages id.table) with hn | hn
    · rw [h.stored_of_lt hf hn ⟨0⟩, view_stored_eq hf] at hq
      cases hd : Page.decode id file.schema file.pageSize (e.pageBytes id) with
      | error fault =>
        rw [hd] at hq
        cases hq
      | ok q' =>
        rw [hd] at hq
        cases hq
        exact ⟨file, rfl, hn, hd⟩
    · rw [h.stored_of_le hf hn] at hq
      cases hq

theorem view_stored_of_stored (h : e.Present) {q : Page} (hq : e.stored id = .ok q) :
    (e.view tx).stored id = .ok q := by
  obtain ⟨file, hf, hn, -⟩ := h.of_stored hq
  rw [← h.stored_of_lt hf hn tx]
  exact hq

/-- A page that the file has is read if its stored bytes can be. -/
theorem stored_of_decode (h : e.Present) (hf : e.file id.table = .ok file) (hn : id.number < e.pages id.table)
    {q : Page} (hd : Page.decode id file.schema file.pageSize (e.pageBytes id) = .ok q) : e.stored id = .ok q := by
  rw [h.stored_of_lt hf hn ⟨0⟩, view_stored_eq hf, hd]
  rfl

/-- A page is read as before as long as its bytes stay. -/
theorem stored_of_bytes (h : e.Present) (h' : e'.Present) (hc : e'.catalog = e.catalog)
    (hp : e.pages id.table ≤ e'.pages id.table) (hb : e'.pageBytes id = e.pageBytes id) {q : Page}
    (hq : e.stored id = .ok q) : e'.stored id = .ok q := by
  obtain ⟨file, hf, hn, hd⟩ := h.of_stored hq
  have hf' : e'.file id.table = .ok file := (file_congr hc _).trans hf
  exact h'.stored_of_decode hf' (by omega) (by rw [hb]; exact hd)

/-- One file has other bytes, and the others have the same. -/
theorem fileBytes_set (h : e.Present) (hc : e.catalog.Sound) (hf : e.file table = .ok file) (bytes : Bytes)
    (table' : TableId) : fileBytes { e with disk := e.disk.set file.location bytes } table' =
      if table' = table then bytes else e.fileBytes table' := by
  by_cases ht : table' = table
  · subst ht
    rw [if_pos rfl]
    exact fileBytes_eq hf (Disk.held_set_self (Disk.not_isAbove_of_held (h.held hf)))
  · rw [if_neg ht]
    cases hf' : e.file table' with
    | error fault =>
      have h1 : Engine.file { e with disk := e.disk.set file.location bytes } table' = .error fault := hf'
      unfold fileBytes
      rw [h1, hf']
    | ok file' =>
      have hl : file.location ≠ file'.location := fun hl => ht (hc.apart hf' hf hl.symm)
      refine fileBytes_eq hf' ?_
      rw [Disk.held_set_ne hl]
      exact h.held hf'

theorem set (h : e.Present) (hc : e.catalog.Sound) (hf : e.file table = .ok file) (bytes : Bytes) :
    Present { e with disk := e.disk.set file.location bytes } := by
  refine ⟨fun {table' file'} hf' => ?_⟩
  rw [h.fileBytes_set hc hf]
  by_cases ht : table' = table
  · subst ht
    have hff : file' = file := Except.ok.inj (hf'.symm.trans hf)
    rw [if_pos rfl, hff]
    exact Disk.held_set_self (Disk.not_isAbove_of_held (h.held hf))
  · rw [if_neg ht, Disk.held_set_ne (fun hl => ht (hc.apart hf' hf hl.symm))]
    exact h.held hf'

end Present

namespace Coherent

/-- A page with a copy lies in the file of its table. -/
theorem of_mem (h : e.Coherent) {f : Frame} (hm : f ∈ e.cache.frames) :
    ∃ file q, e.file f.page.id.table = .ok file ∧
      f.page.id.number < e.pages f.page.id.table ∧
      Page.decode f.page.id file.schema file.pageSize (e.pageBytes f.page.id) = .ok q ∧ f.page.Revises q := by
  obtain ⟨q, hq, hr⟩ := h.copies f hm
  obtain ⟨file, hf, hn, hd⟩ := h.present.of_stored hq
  exact ⟨file, q, hf, hn, hd, hr⟩

/-- A changed page lies in the file of its table, and is a page of that table. -/
theorem of_draft (h : e.Coherent) {p : Page} (hd : e.cache.draft tx id = some p) :
    p.id = id ∧ p.dirty = some tx ∧ ∃ file, e.file id.table = .ok file ∧ p.schema = file.schema ∧
      p.size = file.pageSize ∧ id.number < e.pages id.table := by
  obtain ⟨f, hm, rfl, rfl, ho⟩ := (Cache.draft_eq_some_iff h.nodup).1 hd
  obtain ⟨file, q, hf, hn, hdec, hr⟩ := h.of_mem hm
  obtain ⟨-, hs, hz, -⟩ := Page.fields_of_decode hdec
  exact ⟨rfl, ho, file, hf, hr.schema.trans hs, hr.size.trans hz, hn⟩

/-- Copies may come that are like the disk, and others may go. -/
theorem cache (h : e.Coherent) {c : Cache} (hn : c.pages.Nodup)
    (hf : ∀ f ∈ c.frames, f ∈ e.cache.frames ∨ e.stored f.page.id = .ok f.page) :
    Coherent { e with cache := c } where
  catalog := h.catalog
  present := ⟨h.present.held⟩
  nodup := hn
  copies f hm := (hf f hm).elim (h.copies f) fun hs => ⟨f.page, hs, .refl _⟩

/-- A copy may become any revision of the stored page. -/
theorem update (h : e.Coherent) {p q : Page} (hq : e.stored p.id = .ok q) (hr : p.Revises q) :
    Coherent { e with cache := e.cache.update p.id p } where
  catalog := h.catalog
  present := ⟨h.present.held⟩
  nodup := Cache.nodup_update rfl h.nodup
  copies g hg := by
    rcases Cache.mem_update.1 hg with ⟨hg, -⟩ | ⟨g', -, -, rfl⟩
    · exact h.copies g hg
    · exact ⟨q, hq, hr⟩

/-- A copy may become any revision of itself. -/
theorem revise (h : e.Coherent) {f : Frame} {p : Page} (hf : e.cache.find? p.id = some f) (hr : p.Revises f.page) :
    Coherent { e with cache := e.cache.update p.id p } := by
  obtain ⟨hm, hid⟩ := Cache.mem_of_find? hf
  obtain ⟨q, hq, hr'⟩ := h.copies f hm
  rw [hid] at hq
  exact h.update hq (hr.trans hr')

end Coherent

/-- What is changed by nobody else, the transaction sees as the copy is. -/
theorem Coherent.view_page_of_mem (h : e.Coherent) {f : Frame} (hf : e.cache.find? id = some f)
    (hd : f.page.dirty = none ∨ f.page.dirty = some tx) : (e.view tx).page id = .ok f.page := by
  obtain ⟨hm, rfl⟩ := Cache.mem_of_find? hf
  have hdr : e.cache.draft tx f.page.id = _ := Cache.draft_of_find? hf
  rcases hd with hd | hd
  · obtain ⟨q, hq, hr⟩ := h.copies f hm
    rw [hr.clean hd] at hq ⊢
    rw [View.page_of_none (by rw [← hr.clean hd]; exact hdr.trans (if_neg (by rw [hd]; simp)))]
    exact h.present.view_stored_of_stored hq
  · exact View.page_of_draft (hdr.trans (if_pos hd))

/-- Who holds a page keeps the others from changing it. -/
theorem Sound.draft_of_held (h : e.Sound) (hm : (e.locks.mode? tx id).isSome) (ht : tx' ≠ tx) :
    e.cache.draft tx' id = none := by
  cases hd : e.cache.draft tx' id with
  | none => rfl
  | some p =>
    have hx : e.locks.mode? tx' id = some .exclusive := h.locked (by rw [hd]; rfl)
    rw [LockTable.exclusive_alone hx (Ne.symm ht)] at hm
    cases hm

/-- A page that a transaction holds is changed by nobody else. -/
theorem Sound.dirty_cases (h : e.Sound) {f : Frame} (hf : e.cache.find? id = some f)
    (hm : (e.locks.mode? tx id).isSome) : f.page.dirty = none ∨ f.page.dirty = some tx := by
  cases hd : f.page.dirty with
  | none => exact .inl rfl
  | some owner =>
    refine .inr ?_
    by_contra hne
    have ht : owner ≠ tx := fun ht => hne (by rw [ht])
    have hnone := h.draft_of_held hm ht
    rw [Cache.draft_of_find? hf, if_pos hd] at hnone
    cases hnone

/-- No page has a draft behind the end of its file. -/
theorem Coherent.draft_of_pages_le (h : e.Coherent) (hn : e.pages id.table ≤ id.number) :
    e.cache.draft tx id = none := by
  cases hd : e.cache.draft tx id with
  | none => rfl
  | some p =>
    obtain ⟨-, -, file, hf, -, -, hlt⟩ := h.of_draft hd
    omega

end Engine

end HeapStore
