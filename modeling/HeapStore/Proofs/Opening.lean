import HeapStore.Proofs.Calls

/-!
# Opening an engine

An engine that was opened is ready: it has no copies and no locks, and each table has a file of its own.

* `Disk.create_spec`: making a file leaves the other files as they are.
* `Engine.ready_start`, `Engine.Ready.createTable`: **an engine is ready as long as its tables are made with new names
  on files of their own.**
-/

namespace HeapStore

open Std

/-! ## Making files -/

namespace Disk

variable {d d' : Disk} {here : Location} {p : Path}

/-- All files are still there as they were. -/
def Extends (d d' : Disk) : Prop := ∀ here bytes, d.held here = .ok bytes → d'.held here = .ok bytes

theorem Extends.trans {d'' : Disk} (h : d.Extends d') (h' : d'.Extends d'') : d.Extends d'' :=
  fun here bytes hb => h' here bytes (h here bytes hb)

/-- A node where there was none changes no file. -/
theorem extends_insert (hn : d.node? here = none) (node : Node) : d.Extends ⟨d.nodes.insert here node⟩ := by
  intro there bytes hb
  have hne : here ≠ there := by
    rintro rfl
    unfold held at hb
    rw [hn] at hb
    cases hb
  have hc : ¬ compare here there = .eq := fun hc => hne (LawfulEqCmp.eq_of_compare hc)
  unfold held node? at hb ⊢
  simp only [ExtTreeMap.getElem?_insert, if_neg hc]
  exact hb

theorem extends_haveFolder (d : Disk) (here : Location) : d.Extends (d.haveFolder here).2 := by
  unfold haveFolder
  split
  · exact fun _ _ hb => hb
  · exact fun _ _ hb => hb
  · next hn => exact extends_insert hn .folder

theorem extends_makeFolders (d : Disk) (p : Path) : d.Extends (d.makeFolders p).2 := by
  fun_induction makeFolders d p with
  | case1 => exact fun _ _ hb => hb
  | case2 => exact extends_haveFolder _ _
  | case3 p name hn hl fault d1 hrec ih =>
    rw [hrec] at ih
    exact ih
  | case4 p name hn hl above d1 hrec fault hs ih =>
    rw [hrec] at ih
    exact ih
  | case5 p name hn hl above d1 hrec here hs ih =>
    rw [hrec] at ih
    exact ih.trans (extends_haveFolder d1 here)
  | case6 => exact fun _ _ hb => hb

/-- A file is not made where a folder is. -/
theorem node?_of_target (h : d.target p = .ok here) : d.node? here ≠ some .folder := by
  unfold target at h
  simp only [bind, Except.bind, throw, throwThe, MonadExceptOf.throw] at h
  split at h
  · cases h
  split at h
  · cases h
  split at h
  · cases h
  split at h
  · cases h
  · next hf =>
    cases h
    exact hf

/-- **Making a file leaves the others as they are**, and the file is there then. -/
theorem create_spec (h : d.create p = (.ok here, d')) : d.Extends d' ∧ ∃ bytes, d'.held here = .ok bytes := by
  have hf := extends_makeFolders d p.folder
  unfold create at h
  split at h
  · cases h
  next above d1 hm =>
  rw [hm] at hf
  split at h
  · cases h
  next there ht =>
  have hfolder := node?_of_target ht
  cases h
  cases hn : d1.node? here with
  | none =>
    have habove : here.isAbove = false := by
      by_contra ha
      rw [Bool.not_eq_false] at ha
      unfold node? at hn
      rw [if_pos ha] at hn
      cases hn
    rw [Option.isNone_none, if_pos rfl]
    exact ⟨hf.trans (extends_insert hn _), [], held_set_self habove⟩
  | some node =>
    cases node with
    | folder => exact absurd hn hfolder
    | file content =>
      refine ⟨hf, content.bytes, ?_⟩
      show d1.held here = .ok content.bytes
      unfold held
      rw [hn]

end Disk

/-! ## Making tables -/

theorem Catalog.tableFile_empty (table : TableId) (file : TableFile) : ({} : Catalog).tableFile table ≠ .ok file := by
  intro hf
  unfold Catalog.tableFile Catalog.file Catalog.table at hf
  simp only [ExtTreeMap.getElem?_empty] at hf
  cases hf

/-- What a new name adds to a catalog. -/
theorem Catalog.tableFile_add {c : Catalog} {file : TableFile} {name : String} {key : Option String}
    (hname : c.names[name]? = none) (table : TableId) : (c.add file name key).2.tableFile table =
      if table = (c.add file name key).1 then .ok { file with table } else c.tableFile table := by
  have hc : ∀ a b : TableId, compare a b = .eq ↔ a = b :=
    fun a b => ⟨LawfulEqCmp.eq_of_compare, fun h => h ▸ ReflCmp.compare_self⟩
  unfold tableFile Catalog.file Catalog.table add
  simp only [hname, ExtTreeMap.getElem?_insert, hc]
  by_cases ht : table = ⟨c.lastId + 1⟩
  · rw [if_pos ht.symm, if_pos ht, ht]
    rfl
  · rw [if_neg (Ne.symm ht), if_neg ht]

namespace Engine

variable {e e' : Engine} {settings : Settings} {disk : Disk} {path : Path} {name : String} {schema : Schema}
  {key : Option String} {id : TableId}

/-- What an engine starts with. -/
theorem start_eq (h : start settings disk = .ok e) : e = { settings, disk, cache := { capacity := settings.bufferPages } } := by
  unfold start Settings.validate at h
  split at h
  · cases h
  · next valid hvalid =>
    cases h
    split at hvalid
    · cases hvalid
    · split at hvalid
      · cases hvalid
      · cases hvalid
        rfl

/-- An engine without tables is ready. -/
theorem ready_start (h : start settings disk = .ok e) : e.Ready := by
  unfold start Settings.validate at h
  split at h
  · cases h
  · next s hs =>
    cases h
    have hno := Catalog.tableFile_empty
    refine ⟨⟨fun hf => absurd hf (hno _ _), fun hf => absurd hf (hno _ _), fun hf => absurd hf (hno _ _)⟩,
      ⟨fun hf => absurd hf (hno _ _)⟩, rfl, rfl, rfl, ?_⟩
    -- settings with a cache for no page were refused
    split at hs
    · cases hs
    · next hb =>
      split at hs
      · cases hs
      · cases hs
        exact Nat.pos_of_ne_zero hb

/-- What making a table has done. -/
theorem createTable_spec (h : e.createTable path name schema key = (.ok id, e')) :
    ∃ file disk, schema.slotCount e.settings.pageSize ≠ 0 ∧ file.schema = schema ∧
      file.pageSize = e.settings.pageSize ∧ e.disk.create path = (.ok file.location, disk) ∧
      (e.catalog.add file name key).1 = id ∧
      e' = { e with disk, catalog := (e.catalog.add file name key).2 } := by
  unfold createTable at h
  split at h
  · cases h
  · next file disk ha =>
    unfold TableFile.attach at ha
    split at ha
    · cases ha
    · next hs =>
      split at ha
      · cases ha
      · next location disk' hc =>
        cases ha
        cases h
        exact ⟨_, _, hs, rfl, rfl, hc, rfl, rfl⟩

/-- **An engine is ready as long as its tables are made with new names on files of their own.** -/
theorem Ready.createTable (h : e.Ready) (hrun : e.createTable path name schema key = (.ok id, e'))
    (hname : e.catalog.names[name]? = none)
    (hown : ∀ table file file', e.file table = .ok file → e'.file id = .ok file' → file.location ≠ file'.location) :
    e'.Ready := by
  obtain ⟨file, disk, hslots, hschema, hsize, hcreate, hid, rfl⟩ := createTable_spec hrun
  obtain ⟨hext, bytes, hheld⟩ := Disk.create_spec hcreate
  have hfile : ∀ table, (e.catalog.add file name key).2.tableFile table =
      if table = id then .ok { file with table } else e.catalog.tableFile table := by
    intro table
    rw [Catalog.tableFile_add hname, hid]
  -- a table is the new one, or it was there before and lies in another file
  have hcases : ∀ {table : TableId} {f : TableFile}, (e.catalog.add file name key).2.tableFile table = .ok f →
      table = id ∧ f = { file with table } ∨
        table ≠ id ∧ e.catalog.tableFile table = .ok f ∧ f.location ≠ file.location := by
    intro table f hf
    rw [hfile] at hf
    split at hf
    · next ht =>
      cases hf
      exact .inl ⟨ht, rfl⟩
    · next ht =>
      refine .inr ⟨ht, hf, hown table f { file with table := id } hf ?_⟩
      show (e.catalog.add file name key).2.tableFile id = _
      rw [hfile, if_pos rfl]
  refine ⟨⟨fun {table f} hf => ?_, fun {table f} hf => ?_, fun {a b f g} hf hg hl => ?_⟩, ⟨fun {table f} hf => ?_⟩,
    h.frames, h.guarded, h.locks, h.room⟩
  · rcases hcases hf with ⟨-, rfl⟩ | ⟨-, hf, -⟩
    · rfl
    · exact h.catalog.own hf
  · rcases hcases hf with ⟨-, rfl⟩ | ⟨-, hf, -⟩
    · show file.schema.slotCount file.pageSize ≠ 0
      rw [hschema, hsize]
      exact hslots
    · exact h.catalog.slots hf
  · rcases hcases hf with ⟨ha, rfl⟩ | ⟨-, hf, hfl⟩ <;> rcases hcases hg with ⟨hb, rfl⟩ | ⟨-, hg, hgl⟩
    · exact ha.trans hb.symm
    · exact absurd hl.symm hgl
    · exact absurd hl hfl
    · exact h.catalog.apart hf hg hl
  · have hheld' : ∃ bytes, disk.held f.location = .ok bytes := by
      rcases hcases hf with ⟨-, rfl⟩ | ⟨-, hf, -⟩
      · exact ⟨bytes, hheld⟩
      · exact ⟨_, hext _ _ (h.present.held hf)⟩
    obtain ⟨bytes', hb⟩ := hheld'
    rw [fileBytes_eq hf hb]
    exact hb

end Engine

/-! ## A small engine

It has one table of numbers, whose pages have room for two records each. -/

namespace Sample

def schema : Schema := ⟨[⟨.int, some "n"⟩], by decide⟩

def settings : Settings := { pageSize := 9, bufferPages := 2, lockTimeoutMs := 0 }

def path : Path := ⟨false, ["numbers"], .nothing⟩

def table : TableId := ⟨1⟩

/-- The engine before it has its table. -/
def empty (disk : Disk) : Engine := { settings, disk, cache := { capacity := 2 } }

def opened (disk : Disk) : Engine := ((empty disk).createTable path "numbers" schema none).2

def engine : Engine := opened {}

def record (n : Int32) : Record := ⟨schema, ⟨[.int n], trivial, trivial⟩, none⟩

variable {disk : Disk}

theorem createTable_opened (h : ((empty disk).createTable path "numbers" schema none).1.toOption = some table) :
    (empty disk).createTable path "numbers" schema none = (.ok table, opened disk) := by
  unfold opened
  cases hr : (empty disk).createTable path "numbers" schema none with
  | mk o e =>
    rw [hr] at h
    cases o with
    | ok id =>
      cases h
      rfl
    | error fault => cases h

theorem start_empty (disk : Disk) : Engine.start settings disk = .ok (empty disk) := rfl

theorem ready_opened (h : ((empty disk).createTable path "numbers" schema none).1.toOption = some table) :
    (opened disk).Ready :=
  (Engine.ready_start (start_empty disk)).createTable (createTable_opened h) rfl
    fun table file _ hf => absurd hf (Catalog.tableFile_empty table file)

/-- There is one table. -/
theorem file_opened (h : ((empty disk).createTable path "numbers" schema none).1.toOption = some table) :
    ∃ file, (opened disk).file table = .ok file ∧ file.schema = schema ∧ file.pageSize = settings.pageSize ∧
      ∀ t f, (opened disk).file t = .ok f → t = table := by
  obtain ⟨f, disk', -, hs, hz, -, hid, he⟩ := Engine.createTable_spec (createTable_opened h)
  have hfile : ∀ t, (opened disk).file t = if t = table then .ok { f with table := t } else
      ({} : Catalog).tableFile t := by
    intro t
    rw [he]
    show ((empty disk).catalog.add f "numbers" none).2.tableFile t = _
    rw [Catalog.tableFile_add rfl, hid]
    rfl
  refine ⟨{ f with table }, by rw [hfile, if_pos rfl], hs, hz, fun t g hg => ?_⟩
  rw [hfile] at hg
  split at hg
  · next ht => exact ht
  · exact absurd hg (Catalog.tableFile_empty t g)

theorem createTable_engine : ((empty {}).createTable path "numbers" schema none).1.toOption = some table := by
  decide +kernel

theorem ready : engine.Ready := ready_opened createTable_engine

/-- Page numbers have room where the file is short. -/
theorem small_of_outgrows {e : Engine} (ho : engine.Outgrows e) (h : (e.fileBytes table).length < Paged.numberBound) :
    e.Small := by
  obtain ⟨-, -, -, -, hone⟩ := file_opened createTable_engine
  intro t file hf
  rw [hone t file ((Engine.file_congr ho.1 t).symm.trans hf)]
  exact Nat.lt_of_le_of_lt (Nat.div_le_self _ _) h

theorem small {calls : List Call} (h : ((engine.run calls).fileBytes table).length < Paged.numberBound) :
    (engine.run calls).Small :=
  small_of_outgrows ((Engine.stable_grows engine).run calls (Engine.Outgrows.refl engine)) h

end Sample

end HeapStore
