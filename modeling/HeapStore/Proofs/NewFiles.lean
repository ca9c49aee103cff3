import HeapStore.Import.Basic
import HeapStore.Proofs.Lasting
import HeapStore.Proofs.RowBytes

/-!
# New files

Folders and files are made where there was nothing, and files that are made are empty.

* `Disk.Adds`: a disk with new folders and empty files, and all else as it was. `Disk.adds_create` and
  `Catalog.adds_load` say that **files and tables that are added do nothing else**.
* `Disk.Vacant`: nothing lies at a location, or an empty file. `Disk.held_of_vacant`: what is made there is an empty
  file.
-/

namespace HeapStore

open Std

namespace Disk

variable {d d' d'' : Disk} {here : Location} {p : Path}

/-- New folders and empty files lie where there was nothing, and all else is as it was. -/
def Adds (d d' : Disk) : Prop := ∀ here, d'.node? here = d.node? here ∨
  d.node? here = none ∧ (d'.node? here = some .folder ∨ d'.node? here = some (.file ⟨[], 0⟩))

theorem Adds.refl (d : Disk) : d.Adds d := fun _ => .inl rfl

theorem Adds.trans (h : d.Adds d') (h' : d'.Adds d'') : d.Adds d'' := by
  intro here
  rcases h here with he | ⟨hn, hnew⟩
  · rw [← he]
    exact h' here
  · rcases h' here with he' | ⟨hn', -⟩
    · rw [he']
      exact .inr ⟨hn, hnew⟩
    · -- what was made does not go away again
      rw [hn'] at hnew
      rcases hnew with hnew | hnew <;> cases hnew

theorem adds_insert {node : Node} (hn : d.node? here = none) (hnode : node = .folder ∨ node = .file ⟨[], 0⟩) :
    d.Adds ⟨d.nodes.insert here node⟩ := by
  intro there
  by_cases hc : compare here there = .eq
  · have he : here = there := LawfulEqCmp.eq_of_compare hc
    subst he
    refine .inr ⟨hn, ?_⟩
    unfold node? at hn ⊢
    split at hn
    · cases hn
    · next habove =>
      simp only [if_neg habove, ExtTreeMap.getElem?_insert_self]
      rcases hnode with rfl | rfl
      · exact .inl rfl
      · exact .inr rfl
  · refine .inl ?_
    unfold node?
    simp only [ExtTreeMap.getElem?_insert, if_neg hc]

theorem adds_haveFolder (d : Disk) (here : Location) : d.Adds (d.haveFolder here).2 := by
  unfold haveFolder
  split
  · exact .refl d
  · exact .refl d
  · next hn => exact adds_insert hn (.inl rfl)

theorem adds_makeFolders (d : Disk) (p : Path) : d.Adds (d.makeFolders p).2 := by
  fun_induction makeFolders d p with
  | case1 => exact .refl _
  | case2 => exact adds_haveFolder _ _
  | case3 p name hn hl fault d1 hrec ih =>
    rw [hrec] at ih
    exact ih
  | case4 p name hn hl above d1 hrec fault hs ih =>
    rw [hrec] at ih
    exact ih
  | case5 p name hn hl above d1 hrec here hs ih =>
    rw [hrec] at ih
    exact ih.trans (adds_haveFolder d1 here)
  | case6 => exact .refl _

/-- **Making a file does nothing else**, whether it is made or not. -/
theorem adds_create (d : Disk) (p : Path) : d.Adds (d.create p).2 := by
  have hfolders := adds_makeFolders d p.folder
  unfold create
  split
  · next hm =>
    rw [hm] at hfolders
    exact hfolders
  · next hm =>
    rw [hm] at hfolders
    split
    · exact hfolders
    · next here ht =>
      split
      · next hn => exact hfolders.trans (adds_insert (Option.isNone_iff_eq_none.1 hn) (.inr rfl))
      · exact hfolders

/-! ## Where a file is made -/

/-- Nothing lies at the location, or an empty file. -/
def Vacant (d : Disk) (here : Location) : Prop := d.node? here = none ∨ d.node? here = some (.file ⟨[], 0⟩)

/-- The file that is made there is empty. -/
theorem held_of_vacant (hc : d.create p = (.ok here, d')) (h : d.Vacant here) : d'.held here = .ok [] := by
  obtain ⟨-, bytes, hheld⟩ := create_spec hc
  have hadds := adds_create d p here
  rw [hc] at hadds
  unfold held at hheld ⊢
  rcases hadds with he | ⟨-, hnew | hnew⟩
  · rw [he] at hheld ⊢
    rcases h with h | h
    · rw [h] at hheld
      cases hheld
    · rw [h]
      rfl
  · rw [hnew] at hheld
    cases hheld
  · rw [hnew]
    rfl

/-- A folder is still there. -/
theorem Adds.needFolder (h : d.Adds d') (hf : d.needFolder here = .ok ()) : d'.needFolder here = .ok () := by
  unfold Disk.needFolder at hf ⊢
  rcases h here with he | ⟨hn, -⟩
  · rw [he]
    exact hf
  · rw [hn] at hf
    cases hf

/-- Names lead where they have led. -/
theorem Adds.follow (h : d.Adds d') (names : List String) : ∀ {start here : Location},
    d.follow start names = .ok here → d'.follow start names = .ok here := by
  induction names with
  | nil => exact fun hf => hf
  | cons name names ih =>
    intro start here hf
    unfold Disk.follow at hf ⊢
    obtain ⟨_, hfolder, hf⟩ := bind_eq_ok_iff.1 hf
    obtain ⟨next, hstep, hf⟩ := bind_eq_ok_iff.1 hf
    rw [h.needFolder hfolder]
    exact bind_eq_ok_iff.2 ⟨(), rfl, bind_eq_ok_iff.2 ⟨next, hstep, ih hf⟩⟩

theorem Adds.locate (h : d.Adds d') (hl : d.locate p = .ok here) : d'.locate p = .ok here := by
  unfold Disk.locate at hl ⊢
  obtain ⟨_, hcheck, hl⟩ := bind_eq_ok_iff.1 hl
  obtain ⟨there, hfollow, hl⟩ := bind_eq_ok_iff.1 hl
  refine bind_eq_ok_iff.2 ⟨(), hcheck, bind_eq_ok_iff.2 ⟨there, h.follow _ hfollow, ?_⟩⟩
  split at hl
  · next hend =>
    obtain ⟨_, hfolder, hl⟩ := bind_eq_ok_iff.1 hl
    rw [if_pos hend, h.needFolder hfolder]
    exact hl
  · next hend =>
    rw [if_neg hend]
    exact hl

/-- A path that led somewhere before leads to the file that is made. -/
theorem locate_of_create (hc : d.create p = (.ok here, d')) {there : Location} (hl : d.locate p = .ok there) :
    there = here := by
  have hadds := adds_makeFolders d p.folder
  unfold create at hc
  split at hc
  · cases hc
  · next above d1 hm =>
    rw [hm] at hadds
    split at hc
    · cases hc
    · next found ht =>
      cases hc
      unfold target at ht
      rw [hadds.locate hl] at ht
      obtain ⟨_, -, ht⟩ := bind_eq_ok_iff.1 ht
      split at ht
      · cases ht
      · obtain ⟨found, he, ht⟩ := bind_eq_ok_iff.1 ht
        cases he
        split at ht
        · cases ht
        · cases ht
          rfl

/-- Where nothing or an empty file lies, there is nothing in the way. -/
theorem not_occupied (hc : d.create p = (.ok here, d')) (h : d.Vacant here) : d.occupied p = false := by
  unfold occupied
  cases hl : d.locate p with
  | error fault => rfl
  | ok there =>
    have hthere := locate_of_create hc hl
    subst hthere
    have hnode : (Except.ok (ε := IoFault) there).toOption.bind d.node? = d.node? there := rfl
    rw [hnode]
    rcases h with h | h
    · rw [h]
    · rw [h]
      rfl

end Disk

/-! ## Adding tables -/

theorem TableFile.adds_attach (disk : Disk) (path : Path) (schema : Schema) (size : Nat) :
    disk.Adds (attach disk path schema size).2 := by
  have hcreate := Disk.adds_create disk path
  unfold attach
  split
  · exact .refl disk
  · split
    · next hc =>
      rw [hc] at hcreate
      exact hcreate
    · next hc =>
      rw [hc] at hcreate
      exact hcreate

namespace Catalog

variable {folder path : Path} {size : Nat}

theorem adds_addAll (ds : List Definition) : ∀ (c : Catalog) (disk : Disk),
    disk.Adds (addAll folder size ds c disk).2.2 := by
  induction ds with
  | nil => exact fun _ disk => .refl disk
  | cons d ds ih =>
    intro c disk
    have hattach := TableFile.adds_attach disk (folder.within (fileName d.name)) d.schema size
    unfold addAll
    split
    · next ha =>
      rw [ha] at hattach
      exact hattach
    · next file disk1 ha =>
      rw [ha] at hattach
      exact hattach.trans (ih (c.add file d.name d.key).2 disk1)

/-- **Loading tables does nothing else**, whether all of them are there then or not. -/
theorem adds_load (c : Catalog) (disk : Disk) (path : Path) (size : Nat) : disk.Adds (c.load disk path size).2.2 := by
  unfold load
  split
  · exact .refl disk
  · next ds _ => exact adds_addAll ds c disk

end Catalog

end HeapStore
