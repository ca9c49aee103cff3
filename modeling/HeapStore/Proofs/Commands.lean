import HeapStore.Proofs.Edits
import HeapStore.Proofs.OneTable
import HeapStore.Shell.Files

/-!
# What commands do to files

A command that uses a table opens an engine on its catalog, and runs one transaction on the table. Files that are missing
are made on the way, empty. Nothing else happens to any file, unless the transaction inserts or deletes a record and is
committed: then one slot in the file of the table has changed.

* `Shell.Opened`: an engine right after it was opened. `Opened.idle` says that it can be taken for one with a single
  table, so it does not matter whether other tables share its file.
* `Shell.scan_finish`, `Shell.insert_finish`, `Shell.delete_finish`: **what comes of the transaction** of each command.
* `Shell.Contained`: a command that fails changes no file, and one that inserts or deletes a record changes the slot that
  it names, and nothing else. `Command.attempt_contained`: **every command is contained**, whatever settings there are.
* `Shell.run_contained`: so is every command that is read from words.
-/

namespace HeapStore

open Std

/-- A catalog with one table. -/
def Catalog.only (t : Table) : Catalog := { tables := ({} : ExtTreeMap TableId Table).insert t.file.table t }

theorem Catalog.tableFile_only (t : Table) (id : TableId) :
    (only t).tableFile id = if id = t.file.table then .ok t.file else .error (.noTable id) := by
  unfold tableFile Catalog.file Catalog.table only
  simp only [ExtTreeMap.getElem?_insert, Std.compare_eq_iff_eq]
  by_cases ht : id = t.file.table
  · rw [if_pos ht.symm, if_pos ht]
    rfl
  · rw [if_neg (Ne.symm ht), if_neg ht]
    rfl

/-- The file at one location has other bytes, and nothing else has changed. -/
structure Disk.Alters (d d' : Disk) (here : Location) (before after : Bytes) : Prop where
  elsewhere : ∀ there ≠ here, d'.node? there = d.node? there
  before : d.held here = .ok before
  after : d'.held here = .ok after

namespace Shell

open Engine

variable {disk : Disk} {settings : Settings} {catalog name : String} {e : Engine} {t : Table} {tx : TxId} {α : Type}

/-! ## Opening -/

/-- The engine was opened on a catalog, in which the table has a name. -/
structure Opened (settings : Settings) (disk : Disk) (catalog name : String) (e : Engine) (t : Table) : Prop where
  opened : openCatalog settings disk (Path.ofText catalog) = .ok e
  named : (e.catalog.named name >>= e.catalog.table) = .ok t

/-- An engine is opened once its tables are loaded. -/
theorem openCatalog_eq {path : Path} {e₀ : Engine} {ids : Except CatalogFault (List TableId)} {c : Catalog} {disk' : Disk}
    (h : start settings disk = .ok e₀) (hload : e₀.catalog.load disk path settings.pageSize = (ids, c, disk')) :
    openCatalog settings disk path =
      (ids.map fun _ => { e₀ with catalog := c, disk := disk' }).mapError fun cause => (.catalog cause, disk') := by
  have hstarted := start_eq h
  unfold openCatalog
  rw [h]
  subst hstarted
  unfold loadTables
  simp only [hload]
  cases ids <;> rfl

/-- An engine that is opened has its tables, and no copies and no locks. Files that were missing are there, empty. -/
theorem openCatalog_ok {path : Path} (h : openCatalog settings disk path = .ok e) : disk.Adds e.disk ∧
    e.catalog.Backed e.disk ∧ e.cache.frames = [] ∧ e.cache.guarded = [] ∧ e.locks = {} ∧ 0 < e.cache.capacity := by
  cases hstart : start settings disk with
  | error fault =>
    unfold openCatalog at h
    rw [hstart] at h
    cases h
  | ok e₀ =>
    have hready := ready_start hstart
    have hadds := Catalog.adds_load e₀.catalog disk path settings.pageSize
    have hbacked : e₀.catalog.Backed disk := by
      rw [start_eq hstart] at hready ⊢
      exact hready.sound.backed
    have hloaded := (hbacked.load path settings.pageSize).1
    rcases hload : e₀.catalog.load disk path settings.pageSize with ⟨ids, c, disk'⟩
    rw [openCatalog_eq hstart hload] at h
    rw [hload] at hadds hloaded
    cases ids with
    | error cause => cases h
    | ok ids =>
      cases h
      exact ⟨hadds, hloaded, hready.frames, hready.guarded, hready.locks, hready.room⟩

/-- An engine that cannot be opened has made empty files at most. -/
theorem openCatalog_error {path : Path} {fault : EngineFault} {disk' : Disk}
    (h : openCatalog settings disk path = .error (fault, disk')) : disk.Adds disk' := by
  cases hstart : start settings disk with
  | error fault =>
    unfold openCatalog at h
    rw [hstart] at h
    cases h
    exact .refl disk
  | ok e₀ =>
    have hadds := Catalog.adds_load e₀.catalog disk path settings.pageSize
    rcases hload : e₀.catalog.load disk path settings.pageSize with ⟨ids, c, disk''⟩
    rw [openCatalog_eq hstart hload] at h
    rw [hload] at hadds
    cases ids with
    | error cause =>
      cases h
      exact hadds
    | ok ids => cases h

namespace Opened

variable (h : Opened settings disk catalog name e t)

include h

/-- The table is one of the catalog. -/
theorem tableFile : e.catalog.tableFile t.file.table = .ok t.file := by
  obtain ⟨-, hbacked, -⟩ := openCatalog_ok h.opened
  obtain ⟨id, -, hid⟩ := bind_eq_ok_iff.1 h.named
  have hf : e.catalog.tableFile id = .ok t.file := by
    unfold Catalog.tableFile Catalog.file
    rw [hid]
    rfl
  rw [hbacked.own hf]
  exact hf

/-- The engine with this table only, at the beginning of a transaction. -/
theorem solo : Solo t.file.table t.file (e.use (.only t)).begin.2 := by
  obtain ⟨-, -, hframes, -⟩ := openCatalog_ok h.opened
  refine ⟨Catalog.tableFile_only t, fun f hf => ?_⟩
  have hnone : f ∈ e.cache.frames := hf
  rw [hframes] at hnone
  exact absurd hnone List.not_mem_nil

theorem ready : (e.use (.only t)).begin.2.Ready := by
  obtain ⟨-, hbacked, hframes, hguarded, hlocks, hroom⟩ := openCatalog_ok h.opened
  have hone := h.solo
  have hf := h.tableFile
  refine ⟨⟨fun hf' => ?_, fun hf' => ?_, fun hf' hg' _ => ?_⟩, ⟨fun hf' => ?_⟩, hframes, hguarded, hlocks, hroom⟩
  · obtain ⟨rfl, rfl⟩ := hone.table_of_file hf'
    rfl
  · obtain ⟨rfl, rfl⟩ := hone.table_of_file hf'
    exact hbacked.slots hf
  · exact (hone.table_of_file hf').1.trans (hone.table_of_file hg').1.symm
  · obtain ⟨bytes, hheld⟩ := hbacked.held hf
    obtain ⟨rfl, rfl⟩ := hone.table_of_file hf'
    have hheld' : (e.use (.only t)).begin.2.disk.held t.file.location = .ok bytes := hheld
    rw [fileBytes_eq hf' hheld']
    exact hheld'

end Opened

/-- Page numbers have room if they have it in the file of the one table. -/
theorem small_of_solo {table : TableId} {file : TableFile} (h : Solo table file e)
    (hb : ∀ bytes, e.disk.held file.location = .ok bytes → bytes.length / file.pageSize < Paged.numberBound) :
    e.Small := by
  intro t f hf
  obtain ⟨rfl, rfl⟩ := h.table_of_file hf
  cases hheld : e.disk.held f.location with
  | ok bytes =>
    rw [fileBytes_eq hf hheld]
    exact hb bytes hheld
  | error fault =>
    have hnone : e.fileBytes t = [] := by
      unfold fileBytes
      rw [hf]
      simp only [hheld]
      rfl
    rw [hnone, List.length_nil, Nat.zero_div]
    exact Nat.two_pow_pos 32

/-! ## The end of a command -/

/-- A transaction that went wrong leaves the files as they were then. -/
theorem finish_error (tx : TxId) (fault : EngineFault) (e : Engine) :
    ∃ fault' e', finish tx ((.error fault, e) : Outcome EngineFault α) = (.error fault', e') ∧ e'.disk = e.disk := by
  have hdisk := (steady_disk e.disk).drop (e := e) rfl tx
  unfold finish
  simp only
  unfold abort raised
  rcases hrun : e.complete tx false with ⟨o, e'⟩
  rw [hrun] at hdisk
  cases o with
  | error cause => exact ⟨_, e', rfl, hdisk⟩
  | ok _ => exact ⟨_, e', rfl, hdisk⟩

/-- One that went well is committed. -/
theorem finish_ok {e' : Engine} (a : α) (h : e.complete tx true = (.ok (), e')) :
    finish tx ((.ok a, e) : Outcome EngineFault α) = (.ok a, e') := by
  unfold finish
  simp only
  unfold commit raised
  rw [h]
  rfl

theorem finish_stable {P : Engine → Prop} (hP : Stable P) {o : Outcome EngineFault α} (h : P o.2) (tx : TxId) :
    P (finish tx o).2 := by
  rcases o with ⟨r, e⟩
  cases r with
  | ok a => exact hP.complete h tx true
  | error fault => exact hP.complete h tx false

/-- It ends in the same way with other tables. -/
theorem finish_use {table : TableId} {file : TableFile} {c : Catalog} {o : Outcome EngineFault α}
    (h : Solo table file o.2) (hc : c.tableFile table = .ok file) (tx : TxId) :
    finish tx (o.use c) = (finish tx o).use c := by
  rcases o with ⟨r, e⟩
  cases r with
  | ok a =>
    have hend : (e.use c).complete tx true = (e.complete tx true).use c := h.complete_use hc tx true
    show finish tx (.ok a, e.use c) = _
    unfold finish
    simp only
    unfold commit raised
    rw [hend]
    rfl
  | error fault =>
    have hend : (e.use c).complete tx false = (e.complete tx false).use c := h.complete_use hc tx false
    show finish tx (.error fault, e.use c) = _
    unfold finish
    simp only
    unfold abort raised
    rw [hend]
    rfl

/-! ## Scanning -/

/-- **A scan changes no file**, whatever comes of it. -/
theorem scan_finish (h : Opened settings disk catalog name e t) (tx : TxId) :
    (finish tx (showTable e.begin.2 tx t)).2.disk = e.disk := by
  obtain ⟨-, -, hframes, -⟩ := openCatalog_ok h.opened
  have hclean : ∀ f ∈ e.begin.2.cache.frames, f.page.dirty = none := by
    intro f hf
    have hnone : f ∈ e.cache.frames := hf
    rw [hframes] at hnone
    exact absurd hnone List.not_mem_nil
  -- no page has changed, so there is nothing to write
  have hend : ∀ {e' : Engine} (o : Except EngineFault Reply), e'.disk = e.disk →
      (∀ f ∈ e'.cache.frames, f.page.dirty = none) → (finish tx (o, e')).2.disk = e.disk := by
    intro e' o hdisk hclean'
    cases o with
    | error fault =>
      obtain ⟨fault', e'', hrun, hdisk'⟩ := finish_error (α := Reply) tx fault e'
      rw [hrun]
      exact hdisk'.trans hdisk
    | ok reply =>
      have hnone : e'.cache.owned tx = [] := by
        rw [List.eq_nil_iff_forall_not_mem]
        intro id hm
        obtain ⟨f, hf, -⟩ := List.mem_map.1 hm
        obtain ⟨hf, howned⟩ := List.mem_filter.1 hf
        have hdirty := Frame.ownedBy_iff.1 howned
        rw [hclean' f hf] at hdirty
        cases hdirty
      show (e'.complete tx true).2.disk = e.disk
      unfold complete flushPages
      rw [if_pos rfl, hnone]
      exact hdisk
  unfold showTable
  simp only
  split
  · exact hend _ rfl hclean
  · have hdisk := (steady_disk e.disk).scan (e := e.begin.2) rfl tx t.file.table
    have hclean' := calm_clean.scan hclean tx t.file.table
    exact hend _ hdisk hclean'

/-! ## Inserting -/

section Inserting

variable {f : Engine} (values : List String) (tx) (t)

theorem insertTexts_stable {P : Engine → Prop} (hP : Stable P) (h : P f) : P (insertTexts values f tx t).2 := by
  unfold insertTexts
  simp only
  split
  · exact h
  · exact hP.insert h tx t.file.table _

variable {t}

theorem insertTexts_use {c : Catalog} (h : Solo t.file.table t.file f) (hc : c.tableFile t.file.table = .ok t.file) :
    insertTexts values (f.use c) tx t = (insertTexts values f tx t).use c := by
  unfold insertTexts
  simp only
  split
  · rfl
  · rw [h.insert_use hc rfl]
    rfl

/-- **What comes of a transaction that inserts a record**: it fails and no file has changed, or the record is stored. -/
theorem insert_finish (h : Solo t.file.table t.file f) (hr : f.Ready)
    (hs : (finish tx (insertTexts values f tx t)).2.Small) :
    (∃ fault f', finish tx (insertTexts values f tx t) = (.error fault, f') ∧ f'.disk = f.disk) ∨
      ∃ row place f' before after, t.file.schema.read (values.map String.toList) = .ok row ∧
        finish tx (insertTexts values f tx t) = (.ok place, f') ∧
        f.disk.Alters f'.disk t.file.location before after ∧
        t.file.Gains place.page.number place.slot row.val before after := by
  have helse := finish_stable (stable_elsewhere f.disk t.file.table t.file)
    (insertTexts_stable t tx values (stable_elsewhere f.disk t.file.table t.file) ⟨h, fun _ _ => rfl⟩) tx
  have hgrows := insertTexts_stable t tx values (stable_grows f) (Outgrows.refl f)
  -- page numbers have room in the end, so they have it all the time
  have hs₁ : (insertTexts values f tx t).2.Small :=
    (finish_stable (stable_grows _) (Outgrows.refl _) tx).small (hgrows.present hr.sound.present) hs
  have hidle : f.Idle := .of_ready hr (hgrows.small hr.sound.present hs₁)
  unfold insertTexts at helse hs₁ ⊢
  simp only at helse hs₁ ⊢
  cases hrow : t.file.schema.read (values.map String.toList) with
  | error cause => exact .inl (finish_error tx _ f)
  | ok row =>
    simp only [hrow] at helse hs₁ ⊢
    rcases hrun : f.insert tx t.file.table ⟨t.file.schema, row, none⟩ with ⟨o, f₁⟩
    rw [hrun] at helse hs₁
    cases o with
    | error fault =>
      obtain ⟨fault', f', hfinish, hdisk⟩ := finish_error (α := RecordId) tx (.access fault) f₁
      exact .inl ⟨fault', f', hfinish, hdisk.trans (hidle.insert_error h.ofTable hr.room hrun hs₁)⟩
    | ok place =>
      obtain ⟨f₂, hcommit, hf₂, hpresent, hgains⟩ := hidle.insert_gains h.ofTable hrun hs₁
      have hfinish : finish tx ((.ok place, f₁) : Outcome EngineFault RecordId) = (.ok place, f₂) := finish_ok place hcommit
      have hothers : ∀ there ≠ t.file.location, f₂.disk.node? there = f.disk.node? there := by
        have hothers := helse.2
        have hsame : (finish tx (raised (.ok place, f₁))).2 = f₂ := congrArg Prod.snd hfinish
        rw [hsame] at hothers
        exact hothers
      exact .inr ⟨row, place, f₂, _, _, rfl, hfinish, ⟨hothers, hr.sound.present.held h.ofTable, hpresent.held hf₂⟩, hgains⟩

/-- The same in the engine that was opened, whose other tables may share the file. -/
theorem Opened.insert_finish (h : Opened settings disk catalog name e t)
    (hroom : ∀ bytes, (finish tx (insertTexts values e.begin.2 tx t)).2.disk.held t.file.location = .ok bytes →
      bytes.length / t.file.pageSize < Paged.numberBound) :
    (∃ fault e', finish tx (insertTexts values e.begin.2 tx t) = (.error fault, e') ∧ e'.disk = e.disk) ∨
      ∃ row place e' before after, t.file.schema.read (values.map String.toList) = .ok row ∧
        finish tx (insertTexts values e.begin.2 tx t) = (.ok place, e') ∧
        e.disk.Alters e'.disk t.file.location before after ∧
        t.file.Gains place.page.number place.slot row.val before after := by
  have hone := insertTexts_stable t tx values (stable_solo t.file.table t.file) h.solo
  have huse : finish tx (insertTexts values e.begin.2 tx t) =
      (finish tx (insertTexts values (e.use (.only t)).begin.2 tx t)).use e.catalog := by
    rw [← finish_use hone h.tableFile, ← insertTexts_use tx values h.solo h.tableFile]
    rfl
  rw [huse] at hroom ⊢
  have hsmall := small_of_solo (finish_stable (stable_solo t.file.table t.file) hone tx) hroom
  rcases Shell.insert_finish tx values h.solo h.ready hsmall with ⟨fault, f', hrun, hdisk⟩ |
      ⟨row, place, f', before, after, hrow, hrun, halters, hgains⟩
  · rw [hrun]
    exact .inl ⟨fault, f'.use e.catalog, rfl, hdisk⟩
  · rw [hrun]
    exact .inr ⟨row, place, f'.use e.catalog, before, after, hrow, rfl, halters, hgains⟩

end Inserting

/-! ## Deleting -/

section Deleting

variable {f : Engine} (page slot : Nat) (tx) (t)

theorem deleteAt_steady {P : Engine → Prop} (hP : Steady P) (h : P f) : P (deleteAt page slot f tx t).2 := by
  have hfetch := hP.fetch h tx ⟨t.file.table, page⟩ .exclusive
  unfold deleteAt
  simp only
  split
  · next he =>
    rw [he] at hfetch
    exact hfetch
  · next he =>
    rw [he] at hfetch
    split
    · exact hfetch
    · exact hP.delete hfetch tx _

variable {t}

theorem deleteAt_use {c : Catalog} (h : Solo t.file.table t.file f) (hc : c.tableFile t.file.table = .ok t.file) :
    deleteAt page slot (f.use c) tx t = (deleteAt page slot f tx t).use c := by
  have hone := (stable_solo t.file.table t.file).fetch h tx ⟨t.file.table, page⟩ .exclusive
  unfold deleteAt
  simp only
  rw [h.fetch_use hc rfl]
  rcases hfetch : f.fetch tx ⟨t.file.table, page⟩ .exclusive with ⟨o, f₁⟩
  rw [hfetch] at hone
  cases o with
  | error fault => rfl
  | ok copy =>
    have hid : copy.page.id = ⟨t.file.table, page⟩ := (Cache.mem_of_find? (find?_of_fetch hfetch)).2
    simp only [Outcome.use]
    cases hr : copy.page.record? slot with
    | none => rfl
    | some r =>
      simp only
      rw [hone.delete_use hc (Page.place_of_record? hr) (by rw [hid])]
      rfl

/-- **What comes of a transaction that deletes a record**: it fails and no file has changed, or the slot of the record is
free. -/
theorem delete_finish (h : Solo t.file.table t.file f) (hr : f.Ready)
    (hs : (finish tx (deleteAt page slot f tx t)).2.Small) :
    (∃ fault f', finish tx (deleteAt page slot f tx t) = (.error fault, f') ∧ f'.disk = f.disk) ∨
      ∃ fields f' before after, finish tx (deleteAt page slot f tx t) = (.ok (), f') ∧
        f.disk.Alters f'.disk t.file.location before after ∧ t.file.Edits page slot (some fields) none before after ∧
        page < before.length / t.file.pageSize ∧ after.length = before.length := by
  have hdisk := deleteAt_steady t tx page slot (steady_disk f.disk) (f := f) rfl
  have helse := finish_stable (stable_elsewhere f.disk t.file.table t.file)
    (deleteAt_steady t tx page slot (stable_elsewhere f.disk t.file.table t.file).toSteady ⟨h, fun _ _ => rfl⟩) tx
  have hgrows := finish_stable (stable_grows f)
    (deleteAt_steady t tx page slot (stable_grows f).toSteady (Outgrows.refl f)) tx
  have hidle : f.Idle := .of_ready hr (hgrows.small hr.sound.present hs)
  rcases hact : deleteAt page slot f tx t with ⟨o, f₂⟩
  rw [hact] at hdisk helse
  cases o with
  | error fault =>
    obtain ⟨fault', f', hfinish, hsame⟩ := finish_error (α := Unit) tx fault f₂
    exact .inl ⟨fault', f', hfinish, hsame.trans hdisk⟩
  | ok _ =>
    unfold deleteAt at hact
    simp only at hact
    rcases hfetch : f.fetch tx ⟨t.file.table, page⟩ .exclusive with ⟨o, f₁⟩
    rw [hfetch] at hact
    cases o with
    | error fault => cases hact
    | ok copy =>
      simp only at hact
      cases hrow : copy.page.record? slot with
      | none =>
        rw [hrow] at hact
        cases hact
      | some r =>
        simp only [hrow] at hact
        rcases hrun : f₁.delete tx r with ⟨o, f₃⟩
        rw [hrun] at hact
        cases o with
        | error fault => cases hact
        | ok _ =>
          cases hact
          obtain ⟨f', hcommit, hf', hpresent, hin, hlength, hedits⟩ := hidle.delete_edits h.ofTable hfetch hrow hrun
          have hfinish : finish tx ((.ok (), f₃) : Outcome EngineFault Unit) = (.ok (), f') := finish_ok () hcommit
          rw [hfinish] at helse
          exact .inr ⟨r.fields, f', _, _, hfinish, ⟨helse.2, hr.sound.present.held h.ofTable, hpresent.held hf'⟩, hedits,
            hin, hlength⟩

/-- The same in the engine that was opened, whose other tables may share the file. -/
theorem Opened.delete_finish (h : Opened settings disk catalog name e t)
    (hroom : ∀ bytes, (finish tx (deleteAt page slot e.begin.2 tx t)).2.disk.held t.file.location = .ok bytes →
      bytes.length / t.file.pageSize < Paged.numberBound) :
    (∃ fault e', finish tx (deleteAt page slot e.begin.2 tx t) = (.error fault, e') ∧ e'.disk = e.disk) ∨
      ∃ fields e' before after, finish tx (deleteAt page slot e.begin.2 tx t) = (.ok (), e') ∧
        e.disk.Alters e'.disk t.file.location before after ∧ t.file.Edits page slot (some fields) none before after ∧
        page < before.length / t.file.pageSize ∧ after.length = before.length := by
  have hone := deleteAt_steady t tx page slot (stable_solo t.file.table t.file).toSteady h.solo
  have huse : finish tx (deleteAt page slot e.begin.2 tx t) =
      (finish tx (deleteAt page slot (e.use (.only t)).begin.2 tx t)).use e.catalog := by
    rw [← finish_use hone h.tableFile, ← deleteAt_use tx page slot h.solo h.tableFile]
    rfl
  rw [huse] at hroom ⊢
  have hsmall := small_of_solo (finish_stable (stable_solo t.file.table t.file) hone tx) hroom
  rcases Shell.delete_finish tx page slot h.solo h.ready hsmall with ⟨fault, f', hrun, hdisk⟩ |
      ⟨fields, f', before, after, hrun, halters, hedits⟩
  · rw [hrun]
    exact .inl ⟨fault, f'.use e.catalog, rfl, hdisk⟩
  · rw [hrun]
    exact .inr ⟨fields, f'.use e.catalog, before, after, rfl, halters, hedits⟩

end Deleting

/-! ## Commands -/

/-- What comes of a command that uses a table: the table is not to be had, and files that were missing may be there,
empty, or the transaction has ended. -/
inductive Ran (settings : Settings) (disk : Disk) (catalog name : String)
    (act : Engine → TxId → Table → Outcome EngineFault α) (reply : α → Reply) : Reply × Disk → Prop where
  | unopened {form : String} {disk' : Disk} (h : disk.Adds disk') :
    Ran settings disk catalog name act reply (failure form, disk')
  | failed {e e' : Engine} {t : Table} {fault : EngineFault} (h : Opened settings disk catalog name e t)
    (hrun : finish e.begin.1 (act e.begin.2 e.begin.1 t) = (.error fault, e')) :
    Ran settings disk catalog name act reply (failure fault.form, e'.disk)
  | done {e e' : Engine} {t : Table} {a : α} (h : Opened settings disk catalog name e t)
    (hrun : finish e.begin.1 (act e.begin.2 e.begin.1 t) = (.ok a, e')) :
    Ran settings disk catalog name act reply (reply a, e'.disk)

theorem withTable_ran (settings : Settings) (disk : Disk) (catalog name : String)
    (act : Engine → TxId → Table → Outcome EngineFault α) (reply : α → Reply) :
    Ran settings disk catalog name act reply (withTable settings disk catalog name act reply) := by
  unfold withTable
  cases hopen : openCatalog settings disk (Path.ofText catalog) with
  | error failed => exact .unopened (openCatalog_error hopen)
  | ok e =>
    simp only
    cases hnamed : e.catalog.named name >>= e.catalog.table with
    | error fault => exact .unopened (openCatalog_ok hopen).1
    | ok t =>
      simp only
      rcases hrun : finish e.begin.1 (act e.begin.2 e.begin.1 t) with ⟨o, e'⟩
      cases o with
      | error fault => exact .failed ⟨hopen, hnamed⟩ hrun
      | ok a => exact .done ⟨hopen, hnamed⟩ hrun

/-- A row was put into a slot of the table with the name, and the reply names the slot. -/
def Inserts (settings : Settings) (disk : Disk) (catalog name : String) (values : List String) (x : Reply × Disk) : Prop :=
  ∃ e t row page slot before after, Opened settings disk catalog name e t ∧ disk.Adds e.disk ∧
    t.file.schema.read (values.map String.toList) = .ok row ∧
    x.1 = success s!"Inserted at page {page} slot {slot}\n" ∧ e.disk.Alters x.2 t.file.location before after ∧
    t.file.Gains page slot row.val before after

/-- The record in the slot was taken out of the table with the name, and the reply names the slot. -/
def Deletes (settings : Settings) (disk : Disk) (catalog name : String) (page slot : Nat) (x : Reply × Disk) : Prop :=
  ∃ e t fields before after, Opened settings disk catalog name e t ∧ disk.Adds e.disk ∧
    x.1 = success s!"Deleted page {page} slot {slot}\n" ∧ e.disk.Alters x.2 t.file.location before after ∧
    t.file.Edits page slot (some fields) none before after ∧ page < before.length / t.file.pageSize ∧
    after.length = before.length

/-- Page numbers have room in the file of each table that the catalog names. -/
def Numbered (settings : Settings) (disk : Disk) (catalog : String) (after : Disk) : Prop :=
  ∀ name e t, Opened settings disk catalog name e t → ∀ bytes, after.held t.file.location = .ok bytes →
    bytes.length / t.file.pageSize < Paged.numberBound

/-- A scan changes no file. -/
theorem scan_contained (settings : Settings) (disk : Disk) (catalog name : String) :
    disk.Adds (Command.run settings disk (.scan catalog name)).2 := by
  have hran : Ran settings disk catalog name showTable id (Command.run settings disk (.scan catalog name)) :=
    withTable_ran settings disk catalog name showTable id
  generalize Command.run settings disk (.scan catalog name) = x at hran
  have hadds : ∀ {e : Engine} {t : Table} {r : Except EngineFault Reply} {e' : Engine},
      Opened settings disk catalog name e t → finish e.begin.1 (showTable e.begin.2 e.begin.1 t) = (r, e') →
      disk.Adds e'.disk := by
    intro e t r e' h hrun
    have hdisk := scan_finish h e.begin.1
    rw [hrun] at hdisk
    have hdisk : e'.disk = e.disk := hdisk
    rw [hdisk]
    exact (openCatalog_ok h.opened).1
  cases hran with
  | unopened hmade => exact hmade
  | failed h hrun => exact hadds h hrun
  | done h hrun => exact hadds h hrun

/-- A record is inserted, or no file has changed. -/
theorem insert_contained (values : List String)
    (hroom : Numbered settings disk catalog (Command.run settings disk (.insert catalog name values)).2) :
    (Command.run settings disk (.insert catalog name values)).1.exit = 1 ∧
      disk.Adds (Command.run settings disk (.insert catalog name values)).2 ∨
    Inserts settings disk catalog name values (Command.run settings disk (.insert catalog name values)) := by
  have hran : Ran settings disk catalog name (insertTexts values)
      (fun place => success s!"Inserted at page {place.page.number} slot {place.slot}\n")
      (Command.run settings disk (.insert catalog name values)) := withTable_ran ..
  generalize Command.run settings disk (.insert catalog name values) = x at hran hroom ⊢
  cases hran with
  | unopened hmade => exact .inl ⟨rfl, hmade⟩
  | @failed e e' t fault h hrun =>
    rcases h.insert_finish e.begin.1 values (by rw [hrun]; exact hroom name e t h) with ⟨_, e₁, hrun', hdisk⟩ |
        ⟨_, _, _, _, _, -, hrun', -⟩
    · rw [hrun] at hrun'
      cases hrun'
      rw [hdisk]
      exact .inl ⟨rfl, (openCatalog_ok h.opened).1⟩
    · rw [hrun] at hrun'
      cases hrun'
  | @done e e' t place h hrun =>
    rcases h.insert_finish e.begin.1 values (by rw [hrun]; exact hroom name e t h) with ⟨_, _, hrun', -⟩ |
        ⟨row, place', e₁, before, after, hrow, hrun', halters, hgains⟩
    · rw [hrun] at hrun'
      cases hrun'
    · rw [hrun] at hrun'
      cases hrun'
      exact .inr ⟨e, t, row, place.page.number, place.slot, before, after, h, (openCatalog_ok h.opened).1, hrow, rfl,
        halters, hgains⟩

/-- A record is deleted, or no file has changed. -/
theorem delete_contained (page slot : Nat)
    (hroom : Numbered settings disk catalog (Command.run settings disk (.delete catalog name page slot)).2) :
    (Command.run settings disk (.delete catalog name page slot)).1.exit = 1 ∧
      disk.Adds (Command.run settings disk (.delete catalog name page slot)).2 ∨
    Deletes settings disk catalog name page slot (Command.run settings disk (.delete catalog name page slot)) := by
  have hran : Ran settings disk catalog name (deleteAt page slot)
      (fun _ => success s!"Deleted page {page} slot {slot}\n")
      (Command.run settings disk (.delete catalog name page slot)) := withTable_ran ..
  generalize Command.run settings disk (.delete catalog name page slot) = x at hran hroom ⊢
  cases hran with
  | unopened hmade => exact .inl ⟨rfl, hmade⟩
  | @failed e e' t fault h hrun =>
    rcases h.delete_finish e.begin.1 page slot (by rw [hrun]; exact hroom name e t h) with ⟨_, e₁, hrun', hdisk⟩ |
        ⟨_, _, _, _, hrun', -⟩
    · rw [hrun] at hrun'
      cases hrun'
      rw [hdisk]
      exact .inl ⟨rfl, (openCatalog_ok h.opened).1⟩
    · rw [hrun] at hrun'
      cases hrun'
  | @done e e' t _ h hrun =>
    rcases h.delete_finish e.begin.1 page slot (by rw [hrun]; exact hroom name e t h) with ⟨_, _, hrun', -⟩ |
        ⟨fields, e₁, before, after, hrun', halters, hedits, hin, hlength⟩
    · rw [hrun] at hrun'
      cases hrun'
    · rw [hrun] at hrun'
      cases hrun'
      exact .inr ⟨e, t, fields, before, after, h, (openCatalog_ok h.opened).1, rfl, halters, hedits, hin, hlength⟩

/-- What comes of a command that uses the tables of a catalog. If it fails, files that were missing may be there, empty,
and all others are as they were. -/
structure Contained (disk : Disk) (catalog : String) (settings : Except SettingsFault Settings) (c : Command)
    (x : Reply × Disk) : Prop where
  failed : x.1.exit = 1 → disk.Adds x.2
  inserted : ∀ name values, c = .insert catalog name values → x.1.exit ≠ 1 →
    ∃ s, settings = .ok s ∧ Inserts s disk catalog name values x
  deleted : ∀ name page slot, c = .delete catalog name page slot → x.1.exit ≠ 1 →
    ∃ s, settings = .ok s ∧ Deletes s disk catalog name page slot x

/-- **Every command is contained**, whatever it is given and whatever became of the settings. -/
theorem Command.attempt_contained (disk : Disk) (settings : Except SettingsFault Settings) {c : Command}
    (hcatalog : c.catalog? = some catalog)
    (hroom : ∀ s, settings = .ok s → Numbered s disk catalog (c.attempt settings disk).2) :
    Contained disk catalog settings c (c.attempt settings disk) := by
  cases settings with
  | error fault =>
    -- without settings nothing is opened
    exact ⟨fun _ => .refl disk, fun _ _ _ hne => absurd rfl hne, fun _ _ _ _ hne => absurd rfl hne⟩
  | ok settings =>
    have hnumbered : Numbered settings disk catalog (c.run settings disk).2 := hroom settings rfl
    show Contained disk catalog (.ok settings) c (c.run settings disk)
    cases c with
    | convert input output types => cases hcatalog
    | scan catalog' name =>
      cases hcatalog
      exact ⟨fun _ => scan_contained settings disk catalog name, nofun, nofun⟩
    | insert catalog' name values =>
      cases hcatalog
      rcases insert_contained values hnumbered with ⟨hexit, hadds⟩ | hdone
      · exact ⟨fun _ => hadds, fun _ _ _ hne => absurd hexit hne, nofun⟩
      · refine ⟨fun hexit => ?_, fun name' values' he _ => ?_, nofun⟩
        · obtain ⟨_, _, _, _, _, _, _, -, -, -, hreply, -⟩ := hdone
          rw [hreply] at hexit
          cases hexit
        · cases he
          exact ⟨settings, rfl, hdone⟩
    | delete catalog' name page slot =>
      cases hcatalog
      rcases delete_contained page slot hnumbered with ⟨hexit, hadds⟩ | hdone
      · exact ⟨fun _ => hadds, nofun, fun _ _ _ _ hne => absurd hexit hne⟩
      · refine ⟨fun hexit => ?_, nofun, fun name' page' slot' he _ => ?_⟩
        · obtain ⟨_, _, _, _, _, -, -, hreply, -⟩ := hdone
          rw [hreply] at hexit
          cases hexit
        · cases he
          exact ⟨settings, rfl, hdone⟩

/-- **A command that fails changes no file.** Files that were missing may be there, empty. One that has inserted or
deleted a record has changed the slot that it names in the file of the table, and nothing else. This is so for every
command and whatever came of reading the settings, and so for the words of every command line. -/
theorem run_contained (disk : Disk) (catalog : String) :
    (∀ (settings : Except SettingsFault Settings) (c : Command), c.catalog? = some catalog →
      (∀ s, settings = .ok s → Numbered s disk catalog (c.attempt settings disk).2) →
        Contained disk catalog settings c (c.attempt settings disk)) ∧
    ∀ (words : List String) (i : Invocation), parse words = .ok i → i.command.catalog? = some catalog →
      (∀ s, i.settings disk = .ok s → Numbered s disk catalog (run disk words).2) →
        Contained disk catalog (i.settings disk) i.command (run disk words) := by
  refine ⟨fun settings c hcatalog hroom => c.attempt_contained disk settings hcatalog hroom,
    fun words i hparse hcatalog hroom => ?_⟩
  have hrun : run disk words = i.command.attempt (i.settings disk) disk := by
    unfold run
    rw [hparse]
  rw [hrun] at hroom ⊢
  exact i.command.attempt_contained disk (i.settings disk) hcatalog hroom

end Shell

namespace Sample

open Shell

/-- A catalog with a table of numbers whose file is missing, and settings with pages for two of them. -/
def shelf : Disk :=
  (Disk.set {} ["tables.txt"] (Bytes.ofText "numbers (n int)\n")).set ["small.json"]
    (Bytes.ofText "\x7b\"page_size\": 9\x7d")

def insertFive : List String :=
  ["--config", "small.json", "insert", "--catalog", "tables.txt", "--table", "numbers", "--values", "5"]

/-- What a node holds. -/
def nodeLength : Node → Nat
  | .folder => 0
  | .file content => content.length

/-- A bound for all nodes is one for all files. -/
theorem length_le_of_held {d : Disk} {n : Nat} (h : ∀ x ∈ d.nodes.toList, nodeLength x.2 ≤ n) {here : Location}
    {bytes : Bytes} (hb : d.held here = .ok bytes) : bytes.length ≤ n := by
  have habove := Disk.not_isAbove_of_held hb
  unfold Disk.held Disk.node? at hb
  rw [habove] at hb
  simp only [Bool.false_eq_true, if_false] at hb
  split at hb
  · next content hfile =>
    cases hb
    rw [Content.length_bytes]
    exact h (here, .file content) (ExtTreeMap.mem_toList_iff_getElem?_eq_some.2 hfile)
  · cases hb
  · cases hb

/-- The first record of a table goes to a page of its own. -/
theorem run_contained_five : (run shelf insertFive).1.output = "Inserted at page 0 slot 0\n" ∧
    ∃ settings, Inserts settings shelf "tables.txt" "numbers" ["5"] (run shelf insertFive) := by
  refine ⟨by decide +kernel, ?_⟩
  have hparse : parse insertFive = .ok ⟨some "small.json", .insert "tables.txt" "numbers" ["5"]⟩ := rfl
  have hexit : (run shelf insertFive).1.exit ≠ 1 := by decide +kernel
  have hshort : ∀ x ∈ (run shelf insertFive).2.nodes.toList, nodeLength x.2 ≤ 16 := by decide +kernel
  have hcontained := (run_contained shelf "tables.txt").2 insertFive _ hparse rfl fun settings _ name e t _ bytes hb => by
    have hle : bytes.length / t.file.pageSize ≤ 16 := (Nat.div_le_self _ _).trans (length_le_of_held hshort hb)
    exact Nat.lt_of_le_of_lt hle (by decide)
  obtain ⟨settings, -, hdone⟩ := hcontained.inserted "numbers" ["5"] rfl hexit
  exact ⟨settings, hdone⟩

end Sample

end HeapStore
