import HeapStore.Proofs.Histories

/-!
# The registry of tables

Tables are added to an engine one by one or by loads, and all of them can be cleared. Whatever is done, the catalog is
what the history of its changes tells.

* `Catalog.opened`: the changes that a load makes, also if it fails. `Catalog.Loads`: what a load that succeeds does, and
  `Records.last_defined`: **the last definition of a name has it.**
* `TableCall`, `Engine.register`: what is done to the tables, with anything else in between. `register_catalog`: a call
  makes the changes that `Engine.made` names, and no others.
* `Engine.registry`: **a number whose table is gone finds no table any more**, and the pages of two tables are never
  called by one name.
-/

namespace HeapStore

open Std

namespace Catalog

variable {c c' : Catalog} {history xs : List Change} {name : String} {disk disk' : Disk} {folder path : Path}
  {size : Nat} {ids : List TableId}

/-! ## Loads -/

/-- The changes that the definitions of a load make, up to the first one whose file is not to be had. -/
def opened (folder : Path) (size : Nat) : List Definition → Disk → List Change
  | [], _ => []
  | d :: ds, disk =>
    match TableFile.attach disk (folder.within (fileName d.name)) d.schema size with
    | (.error _, _) => []
    | (.ok file, disk) => .add file d.name d.key :: opened folder size ds disk

/-- Each definition adds a table, with the file beside the file of definitions that is made if it was missing. -/
inductive Opens (folder : Path) (size : Nat) : List Definition → Disk → List Change → Disk → Prop where
  | nil {disk : Disk} : Opens folder size [] disk [] disk
  | cons {d : Definition} {ds : List Definition} {disk disk1 disk2 : Disk} {file : TableFile} {xs : List Change}
    (ha : TableFile.attach disk (folder.within (fileName d.name)) d.schema size = (.ok file, disk1))
    (h : Opens folder size ds disk1 xs disk2) : Opens folder size (d :: ds) disk (.add file d.name d.key :: xs) disk2

/-- A load adds tables one after another, and does nothing else to the catalog. -/
theorem addAll_catalog (ds : List Definition) : ∀ (c : Catalog) (disk : Disk),
    (addAll folder size ds c disk).2.1 = c.changeAll (opened folder size ds disk) := by
  induction ds with
  | nil => exact fun _ _ => rfl
  | cons d ds ih =>
    intro c disk
    cases ha : TableFile.attach disk (folder.within (fileName d.name)) d.schema size with
    | mk result disk1 =>
      unfold addAll opened
      rw [ha]
      cases result with
      | error cause => rfl
      | ok file => exact ih (c.add file d.name d.key).2 disk1

/-- All definitions add their tables if none fails. -/
theorem addAll_opens {ds : List Definition} : ∀ {c c' : Catalog} {disk disk' : Disk} {ids : List TableId},
    addAll folder size ds c disk = (.ok ids, c', disk') →
      ∃ xs, Opens folder size ds disk xs disk' ∧ c' = c.changeAll xs ∧ ids = c.given xs := by
  induction ds with
  | nil =>
    rintro c c' disk disk' ids ⟨⟩
    exact ⟨[], .nil, rfl, rfl⟩
  | cons d ds ih =>
    intro c c' disk disk' ids h
    obtain ⟨file, disk1, ids', ha, hrest, rfl⟩ := addAll_cons_ok h
    obtain ⟨xs, hopens, rfl, rfl⟩ := ih hrest
    exact ⟨.add file d.name d.key :: xs, .cons ha hopens, rfl, rfl⟩

theorem schema_of_attach {schema : Schema} {file : TableFile}
    (h : TableFile.attach disk path schema size = (.ok file, disk')) : file.schema = schema := by
  unfold TableFile.attach at h
  split at h
  · cases h
  · split at h
    · cases h
    · cases h
      rfl

theorem Opens.adds_eq {ds : List Definition} (h : Opens folder size ds disk xs disk') : adds xs = ds.length := by
  induction h with
  | nil => rfl
  | cons _ _ ih => exact (List.countP_cons_of_pos rfl).trans (congrArg (· + 1) ih)

/-- A name is not taken by definitions of other names. -/
theorem Opens.takes {ds : List Definition} (h : Opens folder size ds disk xs disk') (hd : ∀ d ∈ ds, d.name ≠ name) :
    ∀ x ∈ xs, x.takes name = false := by
  induction h with
  | nil => nofun
  | @cons d ds _ _ _ file xs _ _ ih =>
    intro x hx
    rcases List.mem_cons.1 hx with rfl | hx
    · exact beq_eq_false_iff_ne.2 (hd d List.mem_cons_self)
    · exact ih (fun d' hd' => hd d' (List.mem_cons_of_mem _ hd')) x hx

/-- Where one of the definitions is among the changes. -/
theorem Opens.split {before behind : List Definition} {d : Definition} : ∀ {disk : Disk} {xs : List Change},
    Opens folder size (before ++ d :: behind) disk xs disk' → ∃ ys file zs disk1 disk2,
      xs = ys ++ .add file d.name d.key :: zs ∧ Opens folder size before disk ys disk1 ∧
        TableFile.attach disk1 (folder.within (fileName d.name)) d.schema size = (.ok file, disk2) ∧
        Opens folder size behind disk2 zs disk' := by
  induction before with
  | nil =>
    rintro disk xs (_ | ⟨ha, h⟩)
    exact ⟨[], _, _, _, _, rfl, .nil, ha, h⟩
  | cons d' before ih =>
    rintro disk xs (_ | ⟨ha, h⟩)
    obtain ⟨ys, file, zs, disk1, disk2, rfl, hbefore, hd, hbehind⟩ := ih h
    exact ⟨_ :: ys, file, zs, disk1, disk2, rfl, .cons ha hbefore, hd, hbehind⟩

/-- **The last definition of a name has it** after a load. -/
theorem Records.last_defined (h : c.Records history) {before behind : List Definition} {d : Definition}
    (hopens : Opens folder size (before ++ d :: behind) disk xs disk') (hd : ∀ d' ∈ behind, d'.name ≠ d.name) :
    ∃ t, (c.changeAll xs).names[d.name]? = some ⟨c.lastId + before.length + 1⟩ ∧
      (c.changeAll xs).tables[(⟨c.lastId + before.length + 1⟩ : TableId)]? = some t ∧ t.name = d.name ∧
        t.key = d.key ∧ t.file.schema = d.schema := by
  obtain ⟨ys, file, zs, disk1, disk2, rfl, hbefore, ha, hbehind⟩ := hopens.split
  have hrecords := h.changeAll (ys ++ .add file d.name d.key :: zs)
  have hnumber : adds (history ++ ys) = c.lastId + before.length := by
    rw [adds_append, h.last, hbefore.adds_eq]
  have hstands : Stands (history ++ (ys ++ .add file d.name d.key :: zs)) ⟨c.lastId + before.length + 1⟩
      ⟨d.name, { file with table := ⟨c.lastId + before.length + 1⟩ }, d.key⟩ :=
    .intro (List.append_assoc _ _ _).symm (by rw [hnumber]) (hbehind.takes hd)
  have ht := (hrecords.stands _ _).2 hstands
  have hschema : file.schema = d.schema := schema_of_attach ha
  exact ⟨_, (hrecords.names _ _).2 ⟨_, ht, rfl⟩, ht, rfl, rfl, hschema⟩

/-- The lines of a text that are not blank, with their numbers. -/
def definingLines (text : String) : List (List Char × Nat) :=
  (Text.lines text.toList).zipIdx.filter fun (line, _) => !(Text.trim line).isEmpty

/-- What a load that succeeds does. Each line that is not blank stands for a definition, and their tables are added in
the order of the lines. The last one of a name has it then. -/
inductive Loads (c : Catalog) (disk : Disk) (path : Path) (size : Nat) : List TableId → Catalog → Disk → Prop where
  | intro {text : String} {ds : List Definition} {xs : List Change} {disk' : Disk} (ht : disk.text path = .ok text)
    (hlines : List.Forall₂ (fun line d => Definition.parse (line.2 + 1) line.1 = .ok d) (definingLines text) ds)
    (hopens : Opens path.folder size ds disk xs disk')
    (hlast : ∀ before d behind, ds = before ++ d :: behind → (∀ d' ∈ behind, d'.name ≠ d.name) →
      ∃ t, (c.changeAll xs).names[d.name]? = some ⟨c.lastId + before.length + 1⟩ ∧
        (c.changeAll xs).tables[(⟨c.lastId + before.length + 1⟩ : TableId)]? = some t ∧ t.name = d.name ∧
          t.key = d.key ∧ t.file.schema = d.schema) :
    Loads c disk path size (c.given xs) (c.changeAll xs) disk'

/-- What is made of the elements of a list, if none is at fault. -/
theorem forall₂_of_mapM {α β ε : Type} {f : α → Except ε β} : ∀ {as : List α} {bs : List β}, as.mapM f = .ok bs →
    List.Forall₂ (fun a b => f a = .ok b) as bs := by
  intro as
  induction as with
  | nil =>
    intro bs h
    rw [List.mapM_nil] at h
    cases h
    exact .nil
  | cons a as ih =>
    intro bs h
    rw [List.mapM_cons] at h
    cases hf : f a with
    | error fault =>
      rw [hf] at h
      cases h
    | ok b =>
      rw [hf] at h
      cases hrest : as.mapM f with
      | error fault =>
        simp only [bind, Except.bind, hrest] at h
        cases h
      | ok bs' =>
        simp only [bind, Except.bind, hrest] at h
        cases h
        exact .cons hf (ih hrest)

/-- **A load that succeeds adds the tables of all lines that are not blank.** -/
theorem Records.loads (h : c.Records history) (hl : c.load disk path size = (.ok ids, c', disk')) :
    c.Loads disk path size ids c' disk' := by
  unfold load at hl
  split at hl
  · cases hl
  next ds hd =>
  obtain ⟨xs, hopens, rfl, rfl⟩ := addAll_opens hl
  unfold definitions at hd
  cases ht : disk.text path with
  | error fault =>
    rw [ht] at hd
    cases hd
  | ok text =>
    rw [ht] at hd
    refine .intro ht (forall₂_of_mapM hd) hopens ?_
    rintro before d behind rfl hlast
    exact h.last_defined hopens hlast

end Catalog

/-! ## Calls that change the tables -/

/-- What is done to the tables of an engine. Whatever happens in between leaves the catalog alone. -/
inductive TableCall where
  | add (file : TableFile) (name : String) (key : Option String)
  | create (path : Path) (name : String) (schema : Schema) (key : Option String)
  | load (path : Path) (size : Nat)
  | clear
  | meanwhile (e : Engine)

namespace Engine

open Catalog

variable {e : Engine}

/-- The engine after a call. -/
def register (e : Engine) : TableCall → Engine
  | .add file name key => { e with catalog := (e.catalog.add file name key).2 }
  | .create path name schema key => (e.createTable path name schema key).2
  | .load path size => { e with
      catalog := (e.catalog.load e.disk path size).2.1
      disk := (e.catalog.load e.disk path size).2.2 }
  | .clear => { e with catalog := e.catalog.clear }
  | .meanwhile e' => { e' with catalog := e.catalog }

/-- The engine after some calls. -/
def registerAll (e : Engine) : List TableCall → Engine
  | [] => e
  | x :: calls => (e.register x).registerAll calls

/-- The changes that a call makes. A table whose file is not to be had is not added, and ends a load. -/
def made (e : Engine) : TableCall → List Change
  | .add file name key => [.add file name key]
  | .create path name schema key =>
    match TableFile.attach e.disk path schema e.settings.pageSize with
    | (.error _, _) => []
    | (.ok file, _) => [.add file name key]
  | .load path size =>
    match definitions e.disk path with
    | .error _ => []
    | .ok ds => opened path.folder size ds e.disk
  | .clear => [.clear]
  | .meanwhile _ => []

/-- The changes that some calls make. -/
def history (e : Engine) : List TableCall → List Change
  | [] => []
  | x :: calls => e.made x ++ (e.register x).history calls

/-- **A call makes its changes, and no others.** -/
theorem register_catalog (e : Engine) (x : TableCall) : (e.register x).catalog = e.catalog.changeAll (e.made x) := by
  cases x with
  | add file name key => rfl
  | create path name schema key =>
    cases ha : TableFile.attach e.disk path schema e.settings.pageSize with
    | mk result disk1 =>
      simp only [register, made, createTable, ha]
      cases result with
      | error cause => rfl
      | ok file => rfl
  | load path size =>
    simp only [register, made, Catalog.load]
    cases hd : definitions e.disk path with
    | error fault => rfl
    | ok ds => exact addAll_catalog ds e.catalog e.disk
  | clear => rfl
  | meanwhile e' => rfl

theorem changeAll_append (c : Catalog) (xs ys : List Change) :
    c.changeAll (xs ++ ys) = (c.changeAll xs).changeAll ys := by
  induction xs generalizing c with
  | nil => rfl
  | cons x xs ih => exact ih (c.change x)

theorem registerAll_catalog (calls : List TableCall) : ∀ e : Engine,
    (e.registerAll calls).catalog = e.catalog.changeAll (e.history calls) := by
  induction calls with
  | nil => exact fun _ => rfl
  | cons x calls ih =>
    intro e
    have hrest := ih (e.register x)
    rw [register_catalog, ← changeAll_append] at hrest
    exact hrest

theorem history_append (calls calls' : List TableCall) : ∀ e : Engine,
    e.history (calls ++ calls') = e.history calls ++ (e.registerAll calls).history calls' := by
  induction calls with
  | nil => exact fun _ => rfl
  | cons x calls ih =>
    intro e
    have hrest := ih (e.register x)
    exact (congrArg (e.made x ++ ·) hrest).trans (List.append_assoc _ _ _).symm

/-- **The registry of tables.** From an engine that has had no tables on, after any calls, the tables are those that stand
by the history of the changes, each found by its name and with its own number in its file, and their numbers ascend in
the order in which they were added. Numbers are given one after another, so none is given twice; whatever
follows, a number whose table is gone finds none any more, and a page of a table that is there has the name of a page of
a later one only if both tables are one. A load that succeeds adds the tables of its lines in their order. -/
theorem registry (h : e.catalog = {}) (before after : List TableCall) :
    (e.registerAll before).catalog.Records (e.history before) ∧
      (∀ (id : TableId) (t : Table), (e.registerAll before).catalog.tables[id]? = some t → t.file.table = id) ∧
      (e.registerAll before).catalog.ids.Pairwise (fun a b => a.number < b.number) ∧
      (e.registerAll before).catalog.ids.Sublist (({} : Catalog).given (e.history before)) ∧
      ({} : Catalog).given (e.history before) = (List.range' 1 (adds (e.history before))).map TableId.mk ∧
      (∀ id ∈ ({} : Catalog).given (e.history before), (e.registerAll before).catalog.tables[id]? = none →
        (e.registerAll (before ++ after)).catalog.table id = .error (.noTable id.label) ∧
          (e.registerAll (before ++ after)).catalog.file id = .error (.noTable id.label)) ∧
      (∀ (id id' : TableId) (t t' : Table) m n, (e.registerAll before).catalog.tables[id]? = some t →
        (e.registerAll (before ++ after)).catalog.tables[id']? = some t' → t.file.pageId m = t'.file.pageId n →
          t' = t) ∧
      ∀ disk path size ids c' disk', (e.registerAll before).catalog.load disk path size = (.ok ids, c', disk') →
        (e.registerAll before).catalog.Loads disk path size ids c' disk' := by
  have hrun : ∀ calls, (e.registerAll calls).catalog.Records (e.history calls) := by
    intro calls
    have hall := records_empty.changeAll (e.history calls)
    rw [registerAll_catalog, h]
    exact hall
  have hbefore := hrun before
  have hlater := hrun (before ++ after)
  rw [history_append] at hlater
  obtain ⟨hascend, -, hsub⟩ := hbefore.order
  refine ⟨hbefore, fun id t ht => ((hbefore.stands id t).1 ht).own, hascend, hsub, given_eq _ _, ?_, ?_, ?_⟩
  · intro id hgiven hgone
    have hold : id.number ≤ adds (e.history before) := by
      rw [given_eq] at hgiven
      obtain ⟨n, hn, rfl⟩ := List.mem_map.1 hgiven
      have hlt := (List.mem_range'_1.1 hn).2
      have hlast : ({} : Catalog).lastId = 0 := rfl
      simp only
      omega
    have hnone : (e.registerAll (before ++ after)).catalog.tables[id]? = none := by
      rw [Option.eq_none_iff_forall_ne_some]
      intro t ht
      have hstands := ((hlater.stands id t).1 ht).earlier _ hold
      rw [(hbefore.stands id t).2 hstands] at hgone
      cases hgone
    have htable : (e.registerAll (before ++ after)).catalog.table id = .error (.noTable id.label) := by
      unfold Catalog.table
      rw [hnone]
    refine ⟨htable, ?_⟩
    unfold Catalog.file
    rw [htable]
    rfl
  · intro id id' t t' m n ht ht' hpage
    have hstands := (hbefore.stands id t).1 ht
    have hstands' := (hlater.stands id' t').1 ht'
    have hid : id' = id := by
      rw [← hstands.own, ← hstands'.own]
      exact (congrArg PageId.table hpage).symm
    have hearlier := hstands'.earlier _ (hid ▸ hstands.number.2)
    have htable := (hbefore.stands id' t').2 hearlier
    rw [hid, ht] at htable
    exact (Option.some.inj htable).symm
  · intro disk path size ids c' disk' hl
    exact hbefore.loads hl

end Engine

namespace Sample

/-- A table is made, and a load that fails takes its name away. -/
def replaced : List TableCall :=
  [.create path "numbers" schema none, .load ⟨false, ["tables.txt"], .nothing⟩ 9]

/-- All tables are cleared, and one is made anew. -/
def refilled : List TableCall := [.clear, .create path "numbers" schema none]

/-- A file with a blank line that defines a table twice. -/
def twice : Disk := Disk.set {} ["tables.txt"] (Bytes.ofText "numbers (n int)\n\nnumbers (m int)\n")

/-- **The number of a table that was replaced finds none**, not even after a table is made anew. -/
theorem registry_refilled : (empty half).catalog = {} ∧
    ((empty half).registerAll (replaced ++ refilled)).catalog.table ⟨1⟩ = .error (.noTable "table#1") ∧
    ((empty half).registerAll (replaced ++ refilled)).catalog.ids = [⟨3⟩] ∧
    ∃ c' disk', ((empty half).registerAll replaced).catalog.Loads twice ⟨false, ["tables.txt"], .nothing⟩ 9
      [⟨3⟩, ⟨4⟩] c' disk' := by
  have hempty : (empty half).catalog = {} := rfl
  obtain ⟨-, -, -, -, -, hgone, -, hloads⟩ := Engine.registry hempty replaced refilled
  have hgiven : ⟨1⟩ ∈ ({} : Catalog).given ((empty half).history replaced) := by decide +kernel
  have hnone : ((empty half).registerAll replaced).catalog.tables[(⟨1⟩ : TableId)]?.isNone = true := by decide +kernel
  refine ⟨hempty, (hgone ⟨1⟩ hgiven (Option.isNone_iff_eq_none.1 hnone)).1, by decide +kernel, ?_⟩
  have hids : (((empty half).registerAll replaced).catalog.load twice ⟨false, ["tables.txt"], .nothing⟩ 9).1.toOption =
      some [⟨3⟩, ⟨4⟩] := by decide +kernel
  cases hl : ((empty half).registerAll replaced).catalog.load twice ⟨false, ["tables.txt"], .nothing⟩ 9 with
  | mk result rest =>
    obtain ⟨c', disk'⟩ := rest
    rw [hl] at hids
    cases result with
    | error fault => cases hids
    | ok ids =>
      cases hids
      exact ⟨c', disk', hloads _ _ _ _ _ _ hl⟩

end Sample

end HeapStore
