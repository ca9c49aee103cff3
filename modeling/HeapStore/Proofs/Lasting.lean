import HeapStore.Proofs.Completion
import HeapStore.Proofs.LockCalls
import HeapStore.Proofs.Requests

/-!
# Engines whose tables stay

An engine is started, anything is asked of it, and tables are added while it runs. As long as no table loses its file
and no two tables share one, copies and files agree at every point.

* `Catalog.Backed`: each table has a number of its own, room for rows, and a file that is there. Adding tables keeps it
  (`Backed.addAll`), and files that were there stay as they are.
* `Engine.Coherent.stay`: tables that keep their files keep their copies. `Coherent.enlarge`: so **new tables do not touch
  the copies of old ones.**
* `Engine.Lasting`: what an engine can become. `Lasting.coherent` and `Lasting.tidy` say what holds of all of it.
-/

namespace HeapStore

open Std

variable {disk disk' : Disk} {path folder : Path} {name : String} {schema : Schema} {key : Option String}
  {size : Nat} {file f : TableFile} {table : TableId} {c : Catalog}

/-! ## Making files -/

/-- Making a file leaves the others as they are, whether it is made or not. -/
theorem Disk.extends_create (disk : Disk) (path : Path) : disk.Extends (disk.create path).2 := by
  have hfolders := extends_makeFolders disk path.folder
  unfold create
  split
  · next hm =>
    rw [hm] at hfolders
    exact hfolders
  · next hm =>
    rw [hm] at hfolders
    split
    · exact hfolders
    · next here ht =>
      split
      · next hn => exact hfolders.trans (extends_insert (Option.isNone_iff_eq_none.1 hn) _)
      · exact hfolders

theorem TableFile.extends_attach (disk : Disk) (path : Path) (schema : Schema) (size : Nat) :
    disk.Extends (attach disk path schema size).2 := by
  have hcreate := Disk.extends_create disk path
  unfold attach
  split
  · exact fun _ _ hb => hb
  · split
    · next hc =>
      rw [hc] at hcreate
      exact hcreate
    · next hc =>
      rw [hc] at hcreate
      exact hcreate

/-- A file that is attached is there, and its pages have room for rows. -/
theorem TableFile.attach_spec (h : attach disk path schema size = (.ok file, disk')) :
    file.schema.slotCount file.pageSize ≠ 0 ∧ ∃ bytes, disk'.held file.location = .ok bytes := by
  unfold attach at h
  split at h
  · cases h
  · next hs =>
    split at h
    · cases h
    · next hc =>
      cases h
      exact ⟨hs, (Disk.create_spec hc).2⟩

/-! ## Adding tables -/

/-- Each table has its number and room for rows, and its file is there. -/
structure Catalog.Backed (c : Catalog) (disk : Disk) : Prop where
  own : ∀ {table : TableId} {file : TableFile}, c.tableFile table = .ok file → file.table = table
  slots : ∀ {table : TableId} {file : TableFile}, c.tableFile table = .ok file →
    file.schema.slotCount file.pageSize ≠ 0
  held : ∀ {table : TableId} {file : TableFile}, c.tableFile table = .ok file →
    ∃ bytes, disk.held file.location = .ok bytes

namespace Catalog

theorem tableFile_eq_ok_iff : c.tableFile table = .ok f ↔ ∃ t, c.tables[table]? = some t ∧ t.file = f := by
  unfold tableFile Catalog.file Catalog.table
  cases ht : c.tables[table]? with
  | none => simp [Except.map, Except.mapError]
  | some t => simp [Except.map, Except.mapError]

/-- A table of a catalog is the one that was added last, or was there before. -/
theorem tableFile_of_add (h : (c.add file name key).2.tableFile table = .ok f) :
    f = { file with table } ∨ c.tableFile table = .ok f := by
  obtain ⟨t, ht, rfl⟩ := tableFile_eq_ok_iff.1 h
  unfold add at ht
  simp only [ExtTreeMap.getElem?_insert] at ht
  split at ht
  · next hid =>
    have hid : (⟨c.lastId + 1⟩ : TableId) = table := LawfulEqCmp.eq_of_compare hid
    cases ht
    rw [hid]
    exact .inl rfl
  · refine .inr (tableFile_eq_ok_iff.2 ⟨t, ?_, rfl⟩)
    -- a table that gave up its name is gone, and the others are as before
    split at ht
    · rw [ExtTreeMap.getElem?_erase] at ht
      split at ht
      · cases ht
      · exact ht
    · exact ht

theorem Backed.extends (h : c.Backed disk) (hext : disk.Extends disk') : c.Backed disk' := by
  refine ⟨h.own, h.slots, fun {table file} hf => ?_⟩
  obtain ⟨bytes, hb⟩ := h.held hf
  exact ⟨bytes, hext _ _ hb⟩

/-- A table is added on a file that is there. -/
theorem Backed.add_held (h : c.Backed disk) (hslots : file.schema.slotCount file.pageSize ≠ 0)
    (hheld : ∃ bytes, disk.held file.location = .ok bytes) (name : String) (key : Option String) :
    (c.add file name key).2.Backed disk := by
  constructor
  · intro table f hf
    rcases tableFile_of_add hf with rfl | hf
    · rfl
    · exact h.own hf
  · intro table f hf
    rcases tableFile_of_add hf with rfl | hf
    · exact hslots
    · exact h.slots hf
  · intro table f hf
    rcases tableFile_of_add hf with rfl | hf
    · exact hheld
    · exact h.held hf

theorem Backed.add (h : c.Backed disk) (ha : TableFile.attach disk path schema size = (.ok file, disk'))
    (name : String) (key : Option String) : (c.add file name key).2.Backed disk' := by
  have hext : disk.Extends disk' := by
    have he := TableFile.extends_attach disk path schema size
    rw [ha] at he
    exact he
  obtain ⟨hslots, hheld⟩ := TableFile.attach_spec ha
  exact (h.extends hext).add_held hslots hheld name key

theorem Backed.addAll (ds : List Definition) : ∀ {c : Catalog} {disk : Disk}, c.Backed disk →
    (Catalog.addAll folder size ds c disk).2.1.Backed (Catalog.addAll folder size ds c disk).2.2 ∧
      disk.Extends (Catalog.addAll folder size ds c disk).2.2 := by
  induction ds with
  | nil => exact fun h => ⟨h, fun _ _ hb => hb⟩
  | cons d ds ih =>
    intro c disk h
    have hext := TableFile.extends_attach disk (folder.within (fileName d.name)) d.schema size
    unfold Catalog.addAll
    split
    · next ha =>
      rw [ha] at hext
      exact ⟨h.extends hext, hext⟩
    · next file disk1 ha =>
      rw [ha] at hext
      obtain ⟨hbacked, hrest⟩ := ih (h.add ha d.name d.key)
      exact ⟨hbacked, hext.trans hrest⟩

theorem Backed.load (h : c.Backed disk) (path : Path) (size : Nat) :
    (c.load disk path size).2.1.Backed (c.load disk path size).2.2 ∧ disk.Extends (c.load disk path size).2.2 := by
  unfold Catalog.load
  split
  · exact ⟨h, fun _ _ hb => hb⟩
  · next ds _ => exact h.addAll ds

end Catalog

namespace Engine

variable {e e' : Engine}

/-! ## Tables that stay -/

/-- Tables were added to an engine: those from before have their files still, no two tables share a file, and page
numbers have room. -/
structure Enlarges (e e' : Engine) : Prop where
  stay : ∀ {table : TableId} {file : TableFile}, e.file table = .ok file → e'.file table = .ok file
  apart : ∀ {a b : TableId} {f g : TableFile}, e'.file a = .ok f → e'.file b = .ok g → f.location = g.location → a = b
  small : e'.Small

theorem Present.backed (h : e.Present) (hc : e.catalog.Sound) : e.catalog.Backed e.disk where
  own := hc.own
  slots := hc.slots
  held hf := ⟨_, h.held hf⟩

theorem Coherent.backed (h : e.Coherent) : e.catalog.Backed e.disk := h.present.backed h.catalog

theorem present_of_backed (h : e.catalog.Backed e.disk) : e.Present := by
  refine ⟨fun {table file} hf => ?_⟩
  obtain ⟨bytes, hheld⟩ := h.held hf
  rw [fileBytes_eq hf hheld]
  exact hheld

/-- A page of a table that has its file still is read as before. -/
theorem Present.stored_of_extends {id : PageId} (h : e.Present) (hf : e.file id.table = .ok file)
    (hc : c.tableFile id.table = .ok file) (hext : e.disk.Extends disk') :
    stored { e with catalog := c, disk := disk' } id = e.stored id := by
  have hheld := h.held hf
  -- the file has the bytes that it had
  have hbytes : file.bytes disk' = file.bytes e.disk := by
    rw [TableFile.bytes_eq_ok.2 hheld, TableFile.bytes_eq_ok.2 (hext _ _ hheld)]
  have hread : file.read disk' id = file.read e.disk id := by
    unfold TableFile.read
    rw [hbytes]
  have hnew : Engine.file { e with catalog := c, disk := disk' } id.table = .ok file := hc
  unfold stored
  rw [hf, hnew]
  exact hread

/-- Tables that keep their files keep their copies, if these files stay as they are. -/
theorem Coherent.stay (h : e.Coherent) (hb : c.Backed disk') (hext : e.disk.Extends disk')
    (hstay : ∀ {table : TableId} {file : TableFile}, e.file table = .ok file → c.tableFile table = .ok file)
    (hapart : ∀ {a b : TableId} {f g : TableFile}, c.tableFile a = .ok f → c.tableFile b = .ok g →
      f.location = g.location → a = b) :
    Coherent { e with catalog := c, disk := disk' } where
  catalog := ⟨hb.own, hb.slots, hapart⟩
  present := present_of_backed hb
  nodup := h.nodup
  copies f hm := by
    obtain ⟨q, hq, hr⟩ := h.copies f hm
    obtain ⟨file, hf, -, -⟩ := h.present.of_stored hq
    refine ⟨q, ?_, hr⟩
    rw [h.present.stored_of_extends hf (hstay hf) hext]
    exact hq

/-- **New tables do not touch the copies of old ones.** -/
theorem Coherent.enlarge (h : e.Coherent) (hb : c.Backed disk') (hext : e.disk.Extends disk')
    (hs : e.Enlarges { e with catalog := c, disk := disk' }) : Coherent { e with catalog := c, disk := disk' } :=
  h.stay hb hext hs.stay hs.apart

/-- What an engine can become as long as its tables stay. -/
inductive Lasting : Engine → Prop where
  | start {settings : Settings} {disk : Disk} {e : Engine} (h : start settings disk = .ok e) : Lasting e
  | serve {e : Engine} (h : Lasting e) (r : Request) (hs : (e.serve r).2.Small) : Lasting (e.serve r).2
  | table {e : Engine} (h : Lasting e) (path : Path) (name : String) (schema : Schema) (key : Option String)
    (hs : e.Enlarges (e.createTable path name schema key).2) : Lasting (e.createTable path name schema key).2
  | load {e : Engine} (h : Lasting e) (path : Path) (hs : e.Enlarges (e.loadTables path).2) :
    Lasting (e.loadTables path).2

/-- **Copies and files agree whatever is asked, and whatever tables are added.** -/
theorem Lasting.coherent (h : e.Lasting) : e.Coherent := by
  induction h with
  | start h => exact (ready_start h).sound.toCoherent
  | @serve e _ r hs ih => exact ih.serveAll [r] hs
  | @table e _ path name schema key hs ih =>
    have hext := TableFile.extends_attach e.disk path schema e.settings.pageSize
    unfold createTable at hs ⊢
    split
    · next ha =>
      rw [ha] at hs hext
      exact ih.enlarge (ih.backed.extends hext) hext hs
    · next ha =>
      rw [ha] at hs hext
      exact ih.enlarge (ih.backed.add ha name key) hext hs
  | @load e _ path hs ih =>
    obtain ⟨hb, hext⟩ := ih.backed.load path e.settings.pageSize
    exact ih.enlarge hb hext hs

theorem firm_tidy : Firm Tidy where
  toStable := stable_tidy
  remove _ h := ⟨h.locks, Cache.nodup_remove h.nodup⟩
  unlock tx id h := ⟨h.locks.release tx id, h.nodup⟩

theorem Lasting.tidy (h : e.Lasting) : e.Tidy := by
  induction h with
  | start h =>
    have hr := (ready_start h).sound
    exact ⟨hr.locks, hr.nodup⟩
  | serve _ r _ ih => exact firm_tidy.serve ih r
  | table _ path name schema key _ ih =>
    unfold createTable
    split <;> exact ⟨ih.locks, ih.nodup⟩
  | load _ path _ ih => exact ⟨ih.locks, ih.nodup⟩

theorem Lasting.serveAll (requests : List Request) : ∀ {e : Engine}, e.Lasting → (e.serveAll requests).Small →
    (e.serveAll requests).Lasting := by
  induction requests with
  | nil => exact fun h _ => h
  | cons r requests ih =>
    intro e h hs
    have hsmall : (e.serve r).2.Small := small_of_served h.coherent.present [r] requests hs
    exact ih (h.serve r hsmall) hs

end Engine

namespace Sample

theorem lasting : engine.Lasting := by
  refine .table (.start (start_empty {})) path "numbers" schema none ⟨?_, ready.catalog.apart, ?_⟩
  · intro table file hf
    exact absurd hf (Catalog.tableFile_empty table file)
  · exact small_of_outgrows (Engine.Outgrows.refl engine) (by decide +kernel)

end Sample

end HeapStore
