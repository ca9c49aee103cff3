import HeapStore.Proofs.Lasting
import HeapStore.Proofs.Registry

/-!
# Engines whose tables come and go

Tables can go while copies of their pages are in the cache. Such a copy agrees with no file any more, and it never will:
no table gets a number twice. The copies that belong to tables are as they would be without it.

* `Engine.Kempt`: **copies and files agree for each table that is there.** `Engine.kept` is the engine with no other
  copies, and `Kempt.kept` says that it is coherent.
* `steady_kempt`, `firm_kempt`: no call and no request changes this. `Kempt.retable`: **tables can come and go.**
* `Engine.Live`: what an engine can become in this way, `Live.kempt`.
-/

namespace HeapStore

open Std

variable {disk disk' : Disk} {file : TableFile} {table : TableId} {c c' c'' : Catalog}

/-! ## Numbers of tables -/

/-- A table that is there later is an old one, or it has a new number. -/
structure Catalog.Follows (c c' : Catalog) : Prop where
  last : c.lastId ≤ c'.lastId
  tables : ∀ {table : TableId} {file : TableFile}, c'.tableFile table = .ok file →
    c.tableFile table = .ok file ∨ c.lastId < table.number ∧ table.number ≤ c'.lastId

namespace Catalog

theorem Follows.refl (c : Catalog) : c.Follows c := ⟨le_rfl, fun hf => .inl hf⟩

theorem Follows.trans (h : c.Follows c') (h' : c'.Follows c'') : c.Follows c'' where
  last := h.last.trans h'.last
  tables hf := by
    have hl := h.last
    have hl' := h'.last
    rcases h'.tables hf with hf | hn
    · rcases h.tables hf with hf | hn
      · exact .inl hf
      · exact .inr (by omega)
    · exact .inr (by omega)

theorem follows_change (c : Catalog) (x : Change) : c.Follows (c.change x) := by
  cases x with
  | clear => exact ⟨le_rfl, fun {table file} hf => absurd hf (tableFile_empty table file)⟩
  | add file name key =>
    refine ⟨Nat.le_succ _, fun {table f} hf => ?_⟩
    obtain ⟨t, ht, rfl⟩ := tableFile_eq_ok_iff.1 hf
    unfold change at ht
    rw [tables_add] at ht
    by_cases hid : table = ⟨c.lastId + 1⟩
    · exact .inr (by rw [hid]; exact ⟨Nat.lt_succ_self _, le_rfl⟩)
    · rw [if_neg hid] at ht
      split at ht
      · cases ht
      · exact .inl (tableFile_eq_ok_iff.2 ⟨t, ht, rfl⟩)

theorem follows_changeAll (xs : List Change) : ∀ c : Catalog, c.Follows (c.changeAll xs) := by
  induction xs with
  | nil => exact Follows.refl
  | cons x xs ih => exact fun c => (c.follows_change x).trans (ih (c.change x))

theorem follows_load (c : Catalog) (disk : Disk) (path : Path) (size : Nat) :
    c.Follows (c.load disk path size).2.1 := by
  unfold load
  split
  · exact Follows.refl c
  · next ds _ =>
    rw [addAll_catalog ds c disk]
    exact follows_changeAll _ c

/-- No two tables share a file. -/
def Apart (c : Catalog) : Prop := ∀ {a b : TableId} {f g : TableFile}, c.tableFile a = .ok f → c.tableFile b = .ok g →
  f.location = g.location → a = b

end Catalog

namespace Engine

variable {e e' : Engine} {id : PageId} {f : Frame}

/-! ## Copies of tables that are there -/

/-- Copies and files agree for each table that is there, and no copy is of a table that is to come. -/
structure Kempt (e : Engine) : Prop where
  catalog : e.catalog.Sound
  present : e.Present
  nodup : e.cache.pages.Nodup
  copies : ∀ f ∈ e.cache.frames, ∀ {file : TableFile}, e.file f.page.id.table = .ok file →
    ∃ q, e.stored f.page.id = .ok q ∧ f.page.Revises q
  known : ∀ f ∈ e.cache.frames, f.page.id.table.number ≤ e.catalog.lastId
  given : ∀ {table : TableId} {file : TableFile}, e.file table = .ok file → table.number ≤ e.catalog.lastId

/-- The engine with the copies of tables that are there, and no others. -/
def kept (e : Engine) : Engine :=
  { e with cache := { e.cache with frames := e.cache.frames.filter fun f => (e.file f.page.id.table).isOk } }

theorem mem_kept (hf : e.file f.page.id.table = .ok file) : f ∈ e.kept.cache.frames ↔ f ∈ e.cache.frames := by
  unfold kept
  rw [List.mem_filter, hf]
  exact and_iff_left rfl

/-- **Copies of tables that are there agree with the files.** -/
theorem Kempt.kept (h : e.Kempt) : e.kept.Coherent where
  catalog := h.catalog
  present := ⟨h.present.held⟩
  nodup := h.nodup.sublist (List.filter_sublist.map _)
  copies f hm := by
    obtain ⟨hm, hf⟩ := List.mem_filter.1 hm
    cases hfile : e.file f.page.id.table with
    | error fault =>
      rw [hfile] at hf
      cases hf
    | ok file => exact h.copies f hm hfile

theorem Kempt.find?_kept (h : e.Kempt) (hf : e.file id.table = .ok file) :
    e.kept.cache.find? id = e.cache.find? id := by
  apply Option.ext
  intro f
  rw [Cache.find?_eq_some_iff h.kept.nodup, Cache.find?_eq_some_iff h.nodup]
  constructor
  · rintro ⟨hm, rfl⟩
    exact ⟨(mem_kept hf).1 hm, rfl⟩
  · rintro ⟨hm, rfl⟩
    exact ⟨(mem_kept hf).2 hm, rfl⟩

/-- A copy of a table that is there is of a page in its file. -/
theorem Kempt.inFile (h : e.Kempt) (hf : e.file id.table = .ok file) (hm : e.cache.find? id = some f) :
    id.number < e.pages id.table := by
  obtain ⟨hmem, rfl⟩ := Cache.mem_of_find? hm
  obtain ⟨-, -, -, hn, -⟩ := h.kept.of_mem ((mem_kept hf).2 hmem)
  exact hn

/-- Copies of tables that are gone do not matter. -/
theorem Kempt.of_coherent {d : Disk} {cache kept : Cache} (h : e.Kempt)
    (hk : Coherent { e with disk := d, cache := kept }) (hp : cache.pages = e.cache.pages)
    (hm : ∀ f ∈ cache.frames, ∀ {file : TableFile}, e.file f.page.id.table = .ok file → f ∈ kept.frames) :
    Kempt { e with disk := d, cache } where
  catalog := h.catalog
  present := ⟨hk.present.held⟩
  nodup := by
    show cache.pages.Nodup
    rw [hp]
    exact h.nodup
  copies f hf _ hfile := hk.copies f (hm f hf hfile)
  known f hf := by
    have hpage : f.page.id ∈ e.cache.pages := hp ▸ Cache.mem_pages_of_mem hf
    obtain ⟨g, hg, he⟩ := List.mem_map.1 hpage
    rw [← he]
    exact h.known g hg
  given := h.given

/-! ## Calls and requests -/

theorem Kempt.cache (h : e.Kempt) {cache : Cache} (hn : cache.pages.Nodup)
    (hf : ∀ f ∈ cache.frames, f ∈ e.cache.frames ∨ e.stored f.page.id = .ok f.page) : Kempt { e with cache } where
  catalog := h.catalog
  present := ⟨h.present.held⟩
  nodup := hn
  copies f hm _ hfile := (hf f hm).elim (fun hm => h.copies f hm hfile) fun hs => ⟨f.page, hs, .refl _⟩
  known f hm := by
    rcases hf f hm with hm | hs
    · exact h.known f hm
    · obtain ⟨file, hfile, -⟩ := h.present.of_stored hs
      exact h.given hfile
  given := h.given

theorem Kempt.locks (h : e.Kempt) (locks : LockTable) (n : Nat) : Kempt { e with locks, lastTx := n } :=
  ⟨h.catalog, ⟨h.present.held⟩, h.nodup, h.copies, h.known, h.given⟩

theorem Kempt.remove (h : e.Kempt) (id : PageId) : Kempt { e with cache := e.cache.remove id } :=
  h.cache (Cache.nodup_remove h.nodup) fun _ hf => .inl (Cache.mem_remove.1 hf).1

/-- A copy may become any revision of itself. -/
theorem Kempt.revise (h : e.Kempt) {p : Page} (hf : e.cache.find? p.id = some f) (hr : p.Revises f.page) :
    Kempt { e with cache := e.cache.update p.id p } where
  catalog := h.catalog
  present := ⟨h.present.held⟩
  nodup := Cache.nodup_update rfl h.nodup
  copies g hg _ hfile := by
    obtain ⟨hm, hid⟩ := Cache.mem_of_find? hf
    rcases Cache.mem_update.1 hg with ⟨hg, -⟩ | ⟨g', -, -, rfl⟩
    · exact h.copies g hg hfile
    · obtain ⟨q, hq, hr'⟩ := h.copies f hm (hid.symm ▸ hfile)
      rw [hid] at hq
      exact ⟨q, hq, hr.trans hr'⟩
  known g hg := by
    obtain ⟨hm, hid⟩ := Cache.mem_of_find? hf
    rcases Cache.mem_update.1 hg with ⟨hg, -⟩ | ⟨g', -, -, rfl⟩
    · exact h.known g hg
    · rw [← hid]
      exact h.known f hm
  given := h.given

theorem steady_kempt : Steady Kempt :=
  .of_copies Kempt.locks Kempt.nodup Kempt.cache fun h hf hr => h.revise hf hr

theorem Kempt.append {number : Nat} (h : e.Kempt) (hf : e.file table = .ok file)
    (ha : file.append e.disk = .ok (number, disk)) (hs : e.Small) (hs' : { e with disk }.Small) :
    Kempt { e with disk } :=
  h.of_coherent (h.kept.append hf ha hs hs') rfl fun _ hm _ hfile => (mem_kept hfile).2 hm

/-- A changed copy is written. The copies of tables that are gone cannot be, and stay as they are. -/
theorem Kempt.flush (h : e.Kempt) (hf : e.cache.find? f.page.id = some f) (hc : f.isClean = false)
    (hfile : e.file f.page.id.table = .ok file) (hw : file.write e.disk f.page = .ok disk) :
    Kempt { e with disk, cache := e.cache.update f.page.id (f.page.mark none).settle } := by
  refine h.of_coherent (h.kept.flush ((h.find?_kept hfile).trans hf) hc hfile hw) (Cache.pages_update rfl) ?_
  intro g hg _ hgfile
  rcases Cache.mem_update.1 hg with ⟨hg, hne⟩ | ⟨g', hg', hid, rfl⟩
  · exact Cache.mem_update.2 (.inl ⟨(mem_kept hgfile).2 hg, hne⟩)
  · exact Cache.mem_update.2 (.inr ⟨g', (mem_kept (hid ▸ hfile)).2 hg', hid, rfl⟩)

/-- **Copies of tables that are there agree with the files whatever is asked**, as long as page numbers have room. -/
theorem firm_kempt (h : e.Present) : Firm fun e' => e.Outgrows e' ∧ (e'.Small → e'.Kempt) :=
  firm_small h steady_kempt Kempt.append Kempt.flush (fun locks n h => h.locks locks n) fun id h => h.remove id

theorem Kempt.serve (h : e.Kempt) (r : Request) (hs : (e.serve r).2.Small) : (e.serve r).2.Kempt :=
  ((firm_kempt h.present).serve ⟨Outgrows.refl e, fun _ => h⟩ r).2 hs

/-! ## Tables -/

/-- Tables have come or gone. Their files are there, no file has other bytes, and no two tables share one. -/
structure Retabled (e : Engine) (c : Catalog) (disk' : Disk) : Prop where
  backed : c.Backed disk'
  bytes : e.disk.Extends disk'
  follows : e.catalog.Follows c
  apart : c.Apart

/-- **Tables may come and go.** What is there later agrees with its file as long as no two tables share one. -/
theorem Kempt.retable (h : e.Kempt) (hr : e.Retabled c disk') : Kempt { e with catalog := c, disk := disk' } where
  catalog := ⟨hr.backed.own, hr.backed.slots, hr.apart⟩
  present := present_of_backed hr.backed
  nodup := h.nodup
  copies f hm file hf := by
    -- a copy of a page has a table that was there before, since new ones have new numbers
    have hold : e.file f.page.id.table = .ok file := by
      rcases hr.follows.tables hf with hold | ⟨hnew, -⟩
      · exact hold
      · exact absurd (h.known f hm) (by omega)
    rw [h.present.stored_of_extends hold hf hr.bytes]
    exact h.copies f hm hold
  known f hm := (h.known f hm).trans hr.follows.last
  given hf := by
    have hlast := hr.follows.last
    rcases hr.follows.tables hf with hold | ⟨-, hle⟩
    · exact (h.given hold).trans hlast
    · exact hle

theorem Kempt.backed (h : e.Kempt) : e.catalog.Backed e.disk := h.present.backed h.catalog

theorem Kempt.retabled_attach (h : e.Kempt) (path : Path) (schema : Schema) (size : Nat) :
    e.Retabled e.catalog (TableFile.attach e.disk path schema size).2 := by
  have hext := TableFile.extends_attach e.disk path schema size
  exact ⟨h.backed.extends hext, hext, Catalog.Follows.refl _, h.catalog.apart⟩

theorem Kempt.retabled_add (h : e.Kempt) (hslots : file.schema.slotCount file.pageSize ≠ 0)
    (hheld : ∃ bytes, e.disk.held file.location = .ok bytes) (name : String) (key : Option String)
    (hapart : (e.catalog.add file name key).2.Apart) : e.Retabled (e.catalog.add file name key).2 e.disk :=
  ⟨h.backed.add_held hslots hheld name key, fun _ _ hb => hb, e.catalog.follows_change (.add file name key), hapart⟩

theorem Kempt.retabled_load (h : e.Kempt) (path : Path) (size : Nat)
    (hapart : (e.catalog.load e.disk path size).2.1.Apart) :
    e.Retabled (e.catalog.load e.disk path size).2.1 (e.catalog.load e.disk path size).2.2 := by
  obtain ⟨hb, hext⟩ := h.backed.load path size
  exact ⟨hb, hext, e.catalog.follows_load e.disk path size, hapart⟩

theorem retabled_clear (e : Engine) : e.Retabled e.catalog.clear e.disk := by
  have hnone : ∀ {table : TableId} {file : TableFile}, e.catalog.clear.tableFile table ≠ .ok file :=
    fun {table file} => Catalog.tableFile_empty table file
  exact ⟨⟨fun hf => absurd hf hnone, fun hf => absurd hf hnone, fun hf => absurd hf hnone⟩, fun _ _ hb => hb,
    e.catalog.follows_change .clear, fun hf _ => absurd hf hnone⟩

/-- What an engine can become. Anything is asked of it, as long as page numbers have room. Copies are read, and changed
in any way that is marked on them; whatever has left the cache is out of its reach. Files are opened, get pages, and
become tables, and tables are loaded, replaced and cleared, as long as no two of them share a file. -/
inductive Live : Engine → Prop where
  | start {settings : Settings} {disk : Disk} {e : Engine} (h : start settings disk = .ok e) : Live e
  | serve {e : Engine} (h : Live e) (r : Request) (hs : (e.serve r).2.Small) : Live (e.serve r).2
  | revise {e : Engine} {f : Frame} {p : Page} {tx : TxId} (h : Live e) (hf : e.cache.find? p.id = some f)
    (hr : p.Revises f.page) (hd : p.dirty = some tx) : Live { e with cache := e.cache.update p.id p }
  | hold {e : Engine} (h : Live e) (gone : List Frame) (guarded : List Nat) :
    Live { e with cache := { e.cache with gone, guarded } }
  | attach {e : Engine} (h : Live e) (path : Path) (schema : Schema) (size : Nat) :
    Live { e with disk := (TableFile.attach e.disk path schema size).2 }
  | append {e : Engine} {table : TableId} {file : TableFile} {number : Nat} {disk : Disk} (h : Live e)
    (hf : e.file table = .ok file) (ha : file.append e.disk = .ok (number, disk)) (hs : { e with disk }.Small) :
    Live { e with disk }
  | add {e : Engine} {file : TableFile} (h : Live e) (hslots : file.schema.slotCount file.pageSize ≠ 0)
    (hheld : ∃ bytes, e.disk.held file.location = .ok bytes) (name : String) (key : Option String)
    (hapart : (e.catalog.add file name key).2.Apart) : Live { e with catalog := (e.catalog.add file name key).2 }
  | load {e : Engine} (h : Live e) (path : Path) (size : Nat) (hapart : (e.catalog.load e.disk path size).2.1.Apart) :
    Live { e with
      catalog := (e.catalog.load e.disk path size).2.1
      disk := (e.catalog.load e.disk path size).2.2 }
  | clear {e : Engine} (h : Live e) : Live { e with catalog := e.catalog.clear }

/-- **Copies of tables that are there agree with the files, whatever tables come and go.** -/
theorem Live.kempt (h : e.Live) : e.Kempt := by
  induction h with
  | start h =>
    have hready := ready_start h
    have he := start_eq h
    subst he
    exact ⟨hready.sound.catalog, hready.sound.present, hready.sound.nodup, nofun, nofun,
      fun {table file} hf => absurd hf (Catalog.tableFile_empty table file)⟩
  | serve _ r hs ih => exact ih.serve r hs
  | revise _ hf hr _ ih => exact ih.revise hf hr
  | hold _ gone guarded ih => exact ih.cache ih.nodup fun _ hf => .inl hf
  | attach _ path schema size ih => exact ih.retable (ih.retabled_attach path schema size)
  | @append e _ _ _ disk _ hf ha hs ih =>
    have ho : e.Outgrows { e with disk } := (stable_grows e).append (Outgrows.refl e) hf ha
    exact ih.append hf ha (ho.small ih.present hs) hs
  | add _ hslots hheld name key hapart ih => exact ih.retable (ih.retabled_add hslots hheld name key hapart)
  | load _ path size hapart ih => exact ih.retable (ih.retabled_load path size hapart)
  | @clear e _ ih => exact ih.retable (retabled_clear e)

/-- A table is made with its file, or its file is not to be had. -/
theorem Live.create (h : e.Live) (path : Path) (name : String) (schema : Schema) (key : Option String)
    (hapart : (e.createTable path name schema key).2.catalog.Apart) : (e.createTable path name schema key).2.Live := by
  have hattach := h.attach path schema e.settings.pageSize
  unfold createTable at hapart ⊢
  cases ha : TableFile.attach e.disk path schema e.settings.pageSize with
  | mk result disk =>
    rw [ha] at hattach hapart
    cases result with
    | error cause => exact hattach
    | ok file =>
      obtain ⟨hslots, hheld⟩ := TableFile.attach_spec ha
      exact hattach.add hslots hheld name key hapart

theorem Live.serveAll (requests : List Request) : ∀ {e : Engine}, e.Live → (e.serveAll requests).Small →
    (e.serveAll requests).Live := by
  induction requests with
  | nil => exact fun h _ => h
  | cons r requests ih =>
    intro e h hs
    have hsmall : (e.serve r).2.Small := small_of_served h.kempt.present [r] requests hs
    exact ih (h.serve r hsmall) hs

end Engine

namespace Sample

theorem live : engine.Live :=
  (Engine.Live.start (start_empty {})).create path "numbers" schema none ready.catalog.apart

end Sample

end HeapStore
