import HeapStore.Proofs.Lasting

/-!
# Loading tables

All definitions of a file are read before the first table is added. Then the tables are added one after another, each
as soon as its file is there, and the first one whose file is not to be had ends the load.

* `Catalog.addAll_stops`: the tables before that one are added, and none behind it.
* `Catalog.load_stops`: **a load that fails has added the tables before its fault.** It leaves the catalog as it was if
  the definitions could not be read, or if the first of them is at fault.
* `Sample.load_half`: so a load can fail and have taken the name of a table away from it.
-/

namespace HeapStore

namespace Catalog

variable {c c' : Catalog} {disk disk' : Disk} {folder path : Path} {size : Nat} {fault : CatalogFault}
  {ids : List TableId}

/-- Adding a table uses up one number. -/
theorem lastId_add (c : Catalog) (file : TableFile) (name : String) (key : Option String) :
    (c.add file name key).2.lastId = c.lastId + 1 := rfl

/-- If no definition fails, the first one has its file, and the others are added behind its table. -/
theorem addAll_cons_ok {d : Definition} {ds : List Definition}
    (h : addAll folder size (d :: ds) c disk = (.ok ids, c', disk')) : ∃ file disk1 ids',
      TableFile.attach disk (folder.within (fileName d.name)) d.schema size = (.ok file, disk1) ∧
      addAll folder size ds (c.add file d.name d.key).2 disk1 = (.ok ids', c', disk') ∧
      ids = (c.add file d.name d.key).1 :: ids' := by
  unfold addAll at h
  split at h
  · cases h
  · next file disk1 ha =>
    rcases hrest : addAll folder size ds (c.add file d.name d.key).2 disk1 with ⟨fault | ids', c2, disk2⟩ <;>
      simp only [hrest] at h
    · cases h
    · cases h
      exact ⟨file, disk1, ids', ha, hrest, rfl⟩

/-- If a definition fails, it is the first one, whose file is not to be had, or one of the others. -/
theorem addAll_cons_error {d : Definition} {ds : List Definition}
    (h : addAll folder size (d :: ds) c disk = (.error fault, c', disk')) :
    (∃ cause, TableFile.attach disk (folder.within (fileName d.name)) d.schema size = (.error cause, disk') ∧
      fault = .file cause ∧ c' = c) ∨
    ∃ file disk1, TableFile.attach disk (folder.within (fileName d.name)) d.schema size = (.ok file, disk1) ∧
      addAll folder size ds (c.add file d.name d.key).2 disk1 = (.error fault, c', disk') := by
  unfold addAll at h
  split at h
  · next cause disk1 ha =>
    cases h
    exact .inl ⟨cause, ha, rfl, rfl⟩
  · next file disk1 ha =>
    rcases hrest : addAll folder size ds (c.add file d.name d.key).2 disk1 with ⟨fault' | ids', c2, disk2⟩ <;>
      simp only [hrest] at h
    · cases h
      exact .inr ⟨file, disk1, ha, hrest⟩
    · cases h

/-- Each table that is added uses up one number. -/
theorem lastId_addAll {ds : List Definition} (h : addAll folder size ds c disk = (.ok ids, c', disk')) :
    c'.lastId = c.lastId + ds.length := by
  induction ds generalizing c disk ids with
  | nil =>
    cases h
    rfl
  | cons d ds ih =>
    obtain ⟨file, disk1, ids', -, hrest, -⟩ := addAll_cons_ok h
    rw [ih hrest, lastId_add, List.length_cons]
    omega

/-- **Tables are added up to the first one whose file is not to be had.** -/
theorem addAll_stops {ds : List Definition} (h : addAll folder size ds c disk = (.error fault, c', disk')) :
    ∃ before d behind ids disk1 cause, ds = before ++ d :: behind ∧
      addAll folder size before c disk = (.ok ids, c', disk1) ∧
      TableFile.attach disk1 (folder.within (fileName d.name)) d.schema size = (.error cause, disk') ∧
      fault = .file cause := by
  induction ds generalizing c disk with
  | nil => cases h
  | cons d ds ih =>
    rcases addAll_cons_error h with ⟨cause, ha, rfl, rfl⟩ | ⟨file, disk1, ha, hrest⟩
    · exact ⟨[], d, ds, [], disk, cause, rfl, rfl, ha, rfl⟩
    · obtain ⟨before, d', behind, ids, disk3, cause, rfl, hadd, hd, rfl⟩ := ih hrest
      refine ⟨d :: before, d', behind, (c.add file d.name d.key).1 :: ids, disk3, cause, rfl, ?_, hd, rfl⟩
      unfold addAll
      simp only [ha, hadd]
      rfl

/-- What a load that fails can come to. -/
inductive LoadStops (c : Catalog) (disk : Disk) (path : Path) (size : Nat) : CatalogFault → Catalog → Disk → Prop where
  /-- The definitions could not be read, and nothing has happened. -/
  | unread {fault : CatalogFault} (hd : definitions disk path = .error fault) : LoadStops c disk path size fault c disk
  /-- They were read, but the file of one of them is not to be had. Exactly the tables before it were added. -/
  | unattached {before behind : List Definition} {d : Definition} {ids : List TableId} {cause : AccessFault}
    {c' : Catalog} {disk1 disk' : Disk} (hd : definitions disk path = .ok (before ++ d :: behind))
    (hadd : addAll path.folder size before c disk = (.ok ids, c', disk1))
    (ha : TableFile.attach disk1 (path.folder.within (fileName d.name)) d.schema size = (.error cause, disk'))
    (hkept : c' = c ↔ before = []) : LoadStops c disk path size (.file cause) c' disk'

/-- **A load that fails has added the tables before its fault.** So the catalog is as it was if the definitions could
not be read or the first of them is at fault, and only then. -/
theorem load_stops (h : c.load disk path size = (.error fault, c', disk')) :
    LoadStops c disk path size fault c' disk' := by
  unfold load at h
  split at h
  · next hd =>
    cases h
    exact .unread hd
  · next ds hd =>
    obtain ⟨before, d, behind, ids, disk1, cause, rfl, hadd, ha, rfl⟩ := addAll_stops h
    refine .unattached hd hadd ha ⟨fun hc => ?_, ?_⟩
    · -- a table that was added has used up a number
      have hlast := lastId_addAll hadd
      rw [hc] at hlast
      exact List.length_eq_zero_iff.1 (by omega)
    · rintro rfl
      cases hadd
      rfl

end Catalog

namespace Sample

/-- A file of definitions: the first table is one of numbers, and the rows of the second one are wider than a page. -/
def half : Disk := Disk.set {} ["tables.txt"] (Bytes.ofText "numbers (n int)\nnames (s string)\n")

/-- The catalog has a table with the name of the first one. -/
def named : Catalog := (({} : Catalog).add ⟨⟨0⟩, schema, ["old.dat"], 9⟩ "numbers" none).2

def loaded : Except CatalogFault (List TableId) × Catalog × Disk := named.load half ⟨false, ["tables.txt"], .nothing⟩ 9

/-- **A load can fail and leave a table behind**, which has taken the place of another one. -/
theorem load_half : loaded.1.isOk = false ∧ named.ids = [⟨1⟩] ∧ loaded.2.1.ids = [⟨2⟩] ∧
    named.names["numbers"]? = some ⟨1⟩ ∧ loaded.2.1.names["numbers"]? = some ⟨2⟩ := by
  refine ⟨?_, ?_, ?_, ?_, ?_⟩ <;> decide +kernel

/-- The table before the fault was added, and its file is there. -/
theorem load_stops_half : ∃ fault, loaded = (.error fault, loaded.2) ∧
    Catalog.LoadStops named half ⟨false, ["tables.txt"], .nothing⟩ 9 fault loaded.2.1 loaded.2.2 ∧
    loaded.2.2.held ["numbers.dat"] = .ok [] := by
  have hfails : loaded.1.isOk = false := by decide +kernel
  cases hl : loaded with
  | mk result rest =>
    obtain ⟨c', disk'⟩ := rest
    cases result with
    | ok ids =>
      rw [hl] at hfails
      cases hfails
    | error fault =>
      refine ⟨fault, rfl, Catalog.load_stops hl, ?_⟩
      have hheld : loaded.2.2.held ["numbers.dat"] = .ok [] := by decide +kernel
      rw [hl] at hheld
      exact hheld

end Sample

end HeapStore
