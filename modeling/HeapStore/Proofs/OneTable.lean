import HeapStore.Proofs.Stable

/-!
# Engines with one table

An engine that works on one table does the same whatever other tables there are. So what holds of engines with one
table holds of all engines as long as they work on one of theirs, also if another table lies in the same file.

* `Engine.Solo`: the engine has one table only, and all copies are of its pages. `stable_solo`: it stays so, and
  `stable_elsewhere`: **no other file changes.**
* `Engine.use`: the engine with other tables.
* `Engine.Solo.fetch_use`, `Engine.Solo.insert_use`, `Engine.Solo.delete_use`, `Engine.Solo.complete_use`: **each function
  does the same with other tables** as long as one of them is the one it works on.
-/

namespace HeapStore

/-! ## Files that are written -/

/-- A file that is written is the only one that changes. -/
theorem Disk.node?_set_ne {d : Disk} {here there : Location} {bytes : Bytes} (h : there ≠ here) :
    (d.set here bytes).node? there = d.node? there := by
  have hc : ¬ compare here there = .eq := fun hc => h (Std.LawfulEqCmp.eq_of_compare hc).symm
  unfold node? set
  simp only [Std.ExtTreeMap.getElem?_insert, if_neg hc]

/-- What a page that is appended does to the files. -/
theorem TableFile.of_append {t : TableFile} {d d' : Disk} {n : Nat} (h : t.append d = .ok (n, d')) :
    ∃ bytes, d' = d.set t.location bytes := by
  unfold append at h
  cases hb : t.bytes d with
  | error fault =>
    rw [hb] at h
    cases h
  | ok bytes =>
    rw [hb] at h
    cases ha : Paged.append t.pageSize bytes (Bytes.zeros t.pageSize) with
    | error fault =>
      simp only [bind, Except.bind, ha] at h
      cases h
    | ok appended =>
      simp only [bind, Except.bind, ha] at h
      cases h
      exact ⟨appended.2, rfl⟩

namespace Engine

variable {e : Engine} {c : Catalog} {tx : TxId} {id : PageId} {mode : LockMode} {table : TableId} {file : TableFile}
  {r : Record} {page : Page}

/-! ## One table -/

/-- The engine with other tables. -/
def use (e : Engine) (c : Catalog) : Engine := { e with catalog := c }

@[simp] theorem use_cache (e : Engine) (c : Catalog) : (e.use c).cache = e.cache := rfl

@[simp] theorem use_locks (e : Engine) (c : Catalog) : (e.use c).locks = e.locks := rfl

@[simp] theorem use_disk (e : Engine) (c : Catalog) : (e.use c).disk = e.disk := rfl

/-- The outcome with other tables. -/
def Outcome.use {ε α : Type} (o : Outcome ε α) (c : Catalog) : Outcome ε α := (o.1, o.2.use c)

/-- The engine has one table, and all copies are of its pages. -/
structure Solo (table : TableId) (file : TableFile) (e : Engine) : Prop where
  one : ∀ t, e.file t = if t = table then .ok file else .error (.noTable t)
  copies : ∀ f ∈ e.cache.frames, f.page.id.table = table

namespace Solo

theorem ofTable (h : Solo table file e) : e.file table = .ok file := by rw [h.one, if_pos rfl]

theorem table_of_file {t : TableId} {f : TableFile} (h : Solo table file e) (hf : e.file t = .ok f) :
    t = table ∧ f = file := by
  rw [h.one] at hf
  split at hf
  · next ht =>
    cases hf
    exact ⟨ht, rfl⟩
  · cases hf

theorem table_of_stored (h : Solo table file e) (hs : e.stored id = .ok page) : id.table = table := by
  unfold stored at hs
  cases hf : e.file id.table with
  | error fault =>
    rw [hf] at hs
    cases hs
  | ok f => exact (h.table_of_file hf).1

end Solo

/-- **No copy of another table comes.** -/
theorem stable_solo (table : TableId) (file : TableFile) : Stable (Solo table file) where
  grant h _ := ⟨h.one, h.copies⟩
  unlockAll _ h := ⟨h.one, h.copies⟩
  touch _ h := ⟨h.one, fun f hf => h.copies f (Cache.mem_touch.1 hf)⟩
  evict h hc := by
    obtain ⟨f, -, -, rfl⟩ := Cache.evict?_cases hc
    exact ⟨h.one, fun g hg => h.copies g (Cache.mem_remove.1 hg).1⟩
  add h _ hs := by
    refine ⟨h.one, fun f hf => ?_⟩
    rcases Cache.mem_add.1 hf with rfl | hf
    · exact h.table_of_stored hs
    · exact h.copies f hf
  reread h hs := by
    refine ⟨h.one, fun f hf => ?_⟩
    rcases Cache.mem_update.1 hf with ⟨hf, -⟩ | ⟨-, -, -, rfl⟩
    · exact h.copies f hf
    · exact h.table_of_stored hs
  revise h hfind hr _ := by
    obtain ⟨hmem, hid⟩ := Cache.mem_of_find? hfind
    refine ⟨h.one, fun f hf => ?_⟩
    rcases Cache.mem_update.1 hf with ⟨hf, -⟩ | ⟨-, -, -, rfl⟩
    · exact h.copies f hf
    · have ht := h.copies _ hmem
      rw [hid] at ht
      exact ht
  append h _ _ := ⟨h.one, h.copies⟩
  flush h hfind _ _ _ := by
    obtain ⟨hmem, -⟩ := Cache.mem_of_find? hfind
    have ht := h.copies _ hmem
    refine ⟨h.one, fun f hf => ?_⟩
    rcases Cache.mem_update.1 hf with ⟨hf, -⟩ | ⟨-, -, -, rfl⟩
    · exact h.copies f hf
    · exact ht
  next _ h := ⟨h.one, h.copies⟩

/-- **No other file changes.** -/
theorem stable_elsewhere (d : Disk) (table : TableId) (file : TableFile) :
    Stable fun e => Solo table file e ∧ ∀ there ≠ file.location, e.disk.node? there = d.node? there where
  grant h hg := ⟨(stable_solo table file).grant h.1 hg, h.2⟩
  unlockAll tx h := ⟨(stable_solo table file).unlockAll tx h.1, h.2⟩
  touch id h := ⟨(stable_solo table file).touch id h.1, h.2⟩
  evict h hc := ⟨(stable_solo table file).evict h.1 hc, h.2⟩
  add h hn hs := ⟨(stable_solo table file).add h.1 hn hs, h.2⟩
  reread h hs := ⟨(stable_solo table file).reread h.1 hs, h.2⟩
  revise h hf hr hd := ⟨(stable_solo table file).revise h.1 hf hr hd, h.2⟩
  append h hf ha := by
    obtain ⟨-, rfl⟩ := h.1.table_of_file hf
    obtain ⟨bytes, rfl⟩ := TableFile.of_append ha
    exact ⟨(stable_solo table _).append h.1 hf ha, fun there hne => (Disk.node?_set_ne hne).trans (h.2 there hne)⟩
  flush h hfind hd hf hw := by
    have hone := (stable_solo table file).flush h.1 hfind hd hf hw
    obtain ⟨-, rfl⟩ := h.1.table_of_file hf
    obtain ⟨-, bytes, -, -, rfl⟩ := TableFile.of_write hw
    exact ⟨hone, fun there hne => (Disk.node?_set_ne hne).trans (h.2 there hne)⟩
  next n h := ⟨(stable_solo table file).next n h.1, h.2⟩

namespace Solo

theorem file_use (h : Solo table file e) (hc : c.tableFile table = .ok file) (ht : id.table = table) :
    (e.use c).file id.table = e.file id.table := by
  rw [ht, h.ofTable]
  exact hc

theorem stored_use (h : Solo table file e) (hc : c.tableFile table = .ok file) (ht : id.table = table) :
    (e.use c).stored id = e.stored id := by
  unfold stored
  rw [h.file_use hc ht]
  rfl

/-! ## The end of a transaction -/

theorem flushPage_use (h : Solo table file e) (hc : c.tableFile table = .ok file) (ht : id.table = table) :
    (e.use c).flushPage id = (e.flushPage id).use c := by
  unfold flushPage
  rw [h.file_use hc ht, ht, h.ofTable]
  simp only [use_cache, use_disk]
  cases e.cache.find? id with
  | none => rfl
  | some f =>
    simp only
    split
    · rfl
    · cases file.write e.disk f.page <;> rfl

theorem flushEach_use (hc : c.tableFile table = .ok file) (ids : List PageId) : ∀ {e : Engine}, Solo table file e →
    (∀ id ∈ ids, id.table = table) → flushEach ids (e.use c) = (flushEach ids e).use c := by
  induction ids with
  | nil => exact fun _ _ => rfl
  | cons id ids ih =>
    intro e h ht
    have hone := (stable_solo table file).flushPage h id
    unfold flushEach
    rw [h.flushPage_use hc (ht id List.mem_cons_self)]
    cases hrun : e.flushPage id with
    | mk o e1 =>
      rw [hrun] at hone
      cases o with
      | error fault => rfl
      | ok _ => exact ih hone fun id' hm => ht id' (List.mem_cons_of_mem _ hm)

theorem discardEach_use (hc : c.tableFile table = .ok file) (ids : List PageId) : ∀ {e : Engine}, Solo table file e →
    (∀ id ∈ ids, id.table = table) → discardEach ids (e.use c) = (discardEach ids e).use c := by
  induction ids with
  | nil => exact fun _ _ => rfl
  | cons id ids ih =>
    intro e h ht
    unfold discardEach
    rw [h.stored_use hc (ht id List.mem_cons_self)]
    cases hs : e.stored id with
    | error fault => rfl
    | ok page =>
      have hid := id_of_stored hs
      subst hid
      exact ih ((stable_solo table file).reread h hs) fun id' hm => ht id' (List.mem_cons_of_mem _ hm)

/-- **A transaction ends in the same way.** -/
theorem complete_use (h : Solo table file e) (hc : c.tableFile table = .ok file) (tx : TxId) (keep : Bool) :
    (e.use c).complete tx keep = (e.complete tx keep).use c := by
  have ht : ∀ id ∈ e.cache.owned tx, id.table = table := by
    intro id hm
    obtain ⟨f, hf, rfl⟩ := List.mem_map.1 (Cache.mem_pages_of_owned hm)
    exact h.copies f hf
  cases keep with
  | true =>
    have hrun : (e.use c).flushPages tx = (e.flushPages tx).use c := flushEach_use hc _ h ht
    unfold complete
    rw [if_pos rfl, if_pos rfl, hrun]
    rfl
  | false =>
    have hrun : (e.use c).discardPages tx = (e.discardPages tx).use c := discardEach_use hc _ h ht
    unfold complete
    rw [if_neg Bool.false_ne_true, if_neg Bool.false_ne_true, hrun]
    rfl

/-! ## Pages -/

theorem load_use (h : Solo table file e) (hc : c.tableFile table = .ok file) (ht : id.table = table) :
    (e.use c).load id = (e.load id).use c := by
  unfold load
  rw [h.stored_use hc ht]
  simp only [use_cache]
  cases e.cache.find? id with
  | some f => rfl
  | none =>
    cases e.stored id with
    | error fault => rfl
    | ok page => cases e.cache.makeRoom? <;> rfl

/-- **A page of the table is fetched in the same way.** -/
theorem fetch_use (h : Solo table file e) (hc : c.tableFile table = .ok file) (ht : id.table = table) (tx : TxId)
    (mode : LockMode) : (e.use c).fetch tx id mode = (e.fetch tx id mode).use c := by
  unfold fetch
  simp only [use_locks]
  cases e.locks.acquire tx id mode with
  | ok locks =>
    have hlocked : Solo table file { e with locks } := ⟨h.one, h.copies⟩
    exact hlocked.load_use hc ht
  | error cause =>
    simp only
    rw [h.complete_use hc]
    rfl

/-! ## Inserting -/

theorem putInto_use (e : Engine) (c : Catalog) (f : Frame) (tx : TxId) (r : Record) :
    (e.use c).putInto f tx r = (e.putInto f tx r).use c := by
  unfold putInto
  cases f.page.insert r <;> rfl

theorem putOnFirst_use (hc : c.tableFile table = .ok file) (ht : file.table = table) (tx : TxId) (r : Record)
    (numbers : List Nat) : ∀ {e : Engine}, Solo table file e →
    putOnFirst file tx r numbers (e.use c) = (putOnFirst file tx r numbers e).use c := by
  induction numbers with
  | nil => exact fun _ => rfl
  | cons number numbers ih =>
    intro e h
    have hone := (stable_solo table file).fetch h tx (file.pageId number) .exclusive
    unfold putOnFirst
    rw [h.fetch_use hc (show (file.pageId number).table = table from ht)]
    cases hrun : e.fetch tx (file.pageId number) .exclusive with
    | mk o e1 =>
      rw [hrun] at hone
      cases o with
      | error fault => rfl
      | ok f =>
        show (if f.page.freeSlots = 0 then _ else _) = _
        simp only
        split
        · exact ih hone
        · rw [putInto_use]
          rfl

theorem putOnNew_use (hc : c.tableFile table = .ok file) (ht : file.table = table) (tx : TxId) (r : Record)
    (tries : Nat) : ∀ {e : Engine}, Solo table file e →
    putOnNew file tx r tries (e.use c) = (putOnNew file tx r tries e).use c := by
  induction tries with
  | zero => exact fun _ => rfl
  | succ tries ih =>
    intro e h
    unfold putOnNew
    simp only [use_disk]
    cases file.append e.disk with
    | error fault => rfl
    | ok appended =>
      obtain ⟨number, disk⟩ := appended
      have hgrown : Solo table file { e with disk } := ⟨h.one, h.copies⟩
      have hone := (stable_solo table file).putOnFirst file tx r [number] hgrown
      have hfirst : putOnFirst file tx r [number] { e.use c with disk } =
        (putOnFirst file tx r [number] { e with disk }).use c := putOnFirst_use hc ht tx r [number] hgrown
      simp only
      rw [hfirst]
      cases hrun : putOnFirst file tx r [number] { e with disk } with
      | mk o e1 =>
        rw [hrun] at hone
        cases o with
        | error fault => rfl
        | ok place =>
          cases place with
          | some place => rfl
          | none => exact ih hone

/-- **A record is put into the table in the same way.** -/
theorem insert_use (h : Solo table file e) (hc : c.tableFile table = .ok file) (ht : file.table = table) (tx : TxId)
    (r : Record) : (e.use c).insert tx table r = (e.insert tx table r).use c := by
  have hfile : (e.use c).file table = .ok file := hc
  unfold insert
  rw [hfile, h.ofTable]
  show insertInto _ file tx r = (insertInto e file tx r).use c
  unfold insertInto
  split
  · rfl
  · rw [use_disk]
    cases file.count e.disk with
    | error fault => rfl
    | ok count =>
      have hone := (stable_solo table file).putOnFirst file tx r (List.range count) h
      simp only
      rw [putOnFirst_use hc ht tx r _ h]
      cases hrun : putOnFirst file tx r (List.range count) e with
      | mk o e1 =>
        rw [hrun] at hone
        cases o with
        | error fault => rfl
        | ok place =>
          cases place with
          | some place => rfl
          | none => exact putOnNew_use hc ht tx r _ hone

/-! ## Deleting -/

theorem takeFrom_use (e : Engine) (c : Catalog) (f : Frame) (tx : TxId) (r : Record) :
    (e.use c).takeFrom f tx r = (e.takeFrom f tx r).use c := by
  unfold takeFrom
  cases f.page.delete r <;> rfl

/-- **A record of the table is deleted in the same way.** -/
theorem delete_use {place : RecordId} (h : Solo table file e) (hc : c.tableFile table = .ok file)
    (hr : r.place = some place) (ht : place.page.table = table) (tx : TxId) :
    (e.use c).delete tx r = (e.delete tx r).use c := by
  have hfile : (e.use c).file place.page.table = e.file place.page.table := h.file_use hc ht
  unfold delete Record.location
  simp only [hr]
  rw [hfile, ht, h.ofTable]
  show deleteFrom _ file tx r = (deleteFrom e file tx r).use c
  unfold deleteFrom Record.location
  simp only [hr]
  split
  · rfl
  · rw [use_disk]
    cases file.count e.disk with
    | error fault => rfl
    | ok count =>
      simp only
      split
      · rfl
      · rw [h.fetch_use hc ht]
        cases e.fetch tx place.page .exclusive with
        | mk o e1 =>
          cases o with
          | error fault => rfl
          | ok f => exact takeFrom_use e1 c f tx r

end Solo

end Engine

end HeapStore
