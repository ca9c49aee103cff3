import HeapStore.Proofs.Views

/-!
# Moves of one transaction

What a call can do to an engine, as all transactions see it. One of four things comes of a call: nothing that
anybody sees, one more changed page, the end of the transaction without its changes, or its end with them.

* `Engine.Spares`: the other transactions are left alone, and `Engine.Leaves`: the stored bytes are too. Files
  may get blank pages.
* `Engine.Quiet`: a move that no transaction sees. It may lock pages and change which unchanged pages have
  copies.
* `Engine.Puts`: one page has changed.
* `Engine.Drops`: the transaction has ended and **its changes are gone**, with all its locks.
* `Engine.Keeps`: the transaction has ended and **exactly its changes are stored**. A byte of a file is another
  one only on a page that the transaction had changed.
-/

namespace HeapStore.Engine

variable {e e' e'' : Engine} {tx tx' : TxId} {id : PageId} {page : Page} {table : TableId} {file : TableFile}

/-- The move of a transaction leaves the others alone. -/
structure Spares (tx : TxId) (e e' : Engine) : Prop where
  sound : e'.Sound
  catalog : e'.catalog = e.catalog
  drafts : ∀ tx' ≠ tx, e'.cache.draft tx' = e.cache.draft tx'
  others : ∀ tx' ≠ tx, ∀ id, e'.locks.mode? tx' id = e.locks.mode? tx' id
  capacity : e'.cache.capacity = e.cache.capacity
  guarded : e'.cache.guarded = e.cache.guarded

/-- It leaves the stored bytes alone too. -/
structure Leaves (tx : TxId) (e e' : Engine) : Prop extends Spares tx e e' where
  bytes : e'.pageBytes = e.pageBytes
  grown : ∀ {table : TableId} {file : TableFile}, e.file table = .ok file →
    Paged.Grown file.pageSize (e.fileBytes table) (e'.fileBytes table)

/-- A move before the end of the transaction, which keeps its locks. -/
structure Holds (tx : TxId) (e e' : Engine) : Prop extends Leaves tx e e' where
  own : ∀ id, (e.locks.mode? tx id).isSome → (e'.locks.mode? tx id).isSome
  exclusive : ∀ id, e.locks.mode? tx id = some .exclusive → e'.locks.mode? tx id = some .exclusive

/-- A move that no transaction sees. -/
structure Quiet (tx : TxId) (e e' : Engine) : Prop extends Holds tx e e' where
  draft : e'.cache.draft tx = e.cache.draft tx
  changed : e'.cache.changed = e.cache.changed

/-- A move by which one page has changed. -/
structure Puts (tx : TxId) (page : Page) (e e' : Engine) : Prop extends Holds tx e e' where
  draft : ∀ id, e'.cache.draft tx id = if id = page.id then some page else e.cache.draft tx id
  changed : e'.cache.changed ≤ e.cache.changed + 1

/-- The transaction has ended. -/
structure Ended (tx : TxId) (e' : Engine) : Prop where
  draft : ∀ id, e'.cache.draft tx id = none
  unlocked : ∀ id, e'.locks.mode? tx id = none

/-- The transaction has ended without its changes. -/
structure Drops (tx : TxId) (e e' : Engine) : Prop extends Leaves tx e e', Ended tx e'

/-- The transaction has ended with its changes. -/
structure Keeps (tx : TxId) (e e' : Engine) : Prop extends Spares tx e e', Ended tx e' where
  bytes : e'.pageBytes = (e.view tx).keep.bytes
  rewritten : ∀ {table : TableId} {file : TableFile}, e.file table = .ok file →
    Paged.Rewritten file.pageSize (fun n => (e.cache.draft tx ⟨table, n⟩).isSome) (e.fileBytes table)
      (e'.fileBytes table)

theorem Spares.refl (h : e.Sound) (tx : TxId) : Spares tx e e := ⟨h, rfl, fun _ _ => rfl, fun _ _ _ => rfl, rfl, rfl⟩

theorem Spares.trans (h : Spares tx e e') (h' : Spares tx e' e'') : Spares tx e e'' where
  sound := h'.sound
  catalog := h'.catalog.trans h.catalog
  drafts tx' ht := (h'.drafts tx' ht).trans (h.drafts tx' ht)
  others tx' ht id := (h'.others tx' ht id).trans (h.others tx' ht id)
  capacity := h'.capacity.trans h.capacity
  guarded := h'.guarded.trans h.guarded

theorem Spares.file_eq (h : Spares tx e e') (table : TableId) : e'.file table = e.file table :=
  file_congr h.catalog table

theorem Leaves.refl (h : e.Sound) (tx : TxId) : Leaves tx e e :=
  ⟨Spares.refl h tx, rfl, fun _ => Paged.Grown.refl _ _⟩

theorem Leaves.trans (h : Leaves tx e e') (h' : Leaves tx e' e'') : Leaves tx e e'' where
  toSpares := h.toSpares.trans h'.toSpares
  bytes := h'.bytes.trans h.bytes
  grown {table file} hf := by
    have hf' : e'.file table = .ok file := by rw [h.file_eq]; exact hf
    exact (h.grown hf).trans (h.sound.catalog.size_pos hf') (h'.grown hf')

/-- No table loses pages. -/
theorem Leaves.pages_le (h : Leaves tx e e') (hs : e'.Small) (table : TableId) : e.pages table ≤ e'.pages table := by
  have hcat : e.catalog.Sound := by
    rw [← h.catalog]
    exact h.sound.catalog
  exact pages_le_of_grown h.catalog hcat hs h.grown table

/-- The end of a transaction makes no file longer. -/
theorem Keeps.pages_eq (h : Keeps tx e e') (table : TableId) : e'.pages table = e.pages table := by
  cases hf : e.file table with
  | error fault =>
    have hf' : e'.file table = .error fault := by rw [h.file_eq]; exact hf
    rw [pages_of_error hf, pages_of_error hf']
  | ok file =>
    have hf' : e'.file table = .ok file := by rw [h.file_eq]; exact hf
    rw [Engine.pages_eq hf, Engine.pages_eq hf', (h.rewritten hf).count_eq]

theorem Keeps.small (h : Keeps tx e e') (hs : e.Small) : e'.Small := by
  intro table file hf'
  have hf : e.file table = .ok file := by rw [← h.file_eq]; exact hf'
  rw [(h.rewritten hf).1]
  exact hs table file hf

/-- What the others see stays as it is. -/
theorem Leaves.view_eq (h : Leaves tx e e') (ht : tx' ≠ tx) : e'.view tx' = e.view tx' := by
  unfold view
  rw [h.catalog, h.bytes, h.drafts tx' ht]

theorem Holds.refl (h : e.Sound) (tx : TxId) : Holds tx e e := ⟨Leaves.refl h tx, fun _ h => h, fun _ h => h⟩

theorem Holds.trans (h : Holds tx e e') (h' : Holds tx e' e'') : Holds tx e e'' where
  toLeaves := h.toLeaves.trans h'.toLeaves
  own id hm := h'.own id (h.own id hm)
  exclusive id hm := h'.exclusive id (h.exclusive id hm)

namespace Quiet

theorem view_eq (h : Quiet tx e e') (tx' : TxId) : e'.view tx' = e.view tx' := by
  by_cases ht : tx' = tx
  · unfold view
    rw [h.catalog, h.bytes, ht, h.draft]
  · exact h.toLeaves.view_eq ht

theorem refl (h : e.Sound) (tx : TxId) : Quiet tx e e := ⟨Holds.refl h tx, rfl, rfl⟩

theorem trans (h : Quiet tx e e') (h' : Quiet tx e' e'') : Quiet tx e e'' :=
  ⟨h.toHolds.trans h'.toHolds, h'.draft.trans h.draft, h'.changed.trans h.changed⟩

theorem puts (h : Quiet tx e e') (h' : Puts tx page e' e'') : Puts tx page e e'' :=
  ⟨h.toHolds.trans h'.toHolds, fun id => by rw [h'.draft, h.draft], by rw [← h.changed]; exact h'.changed⟩

theorem drops (h : Quiet tx e e') (h' : Drops tx e' e'') : Drops tx e e'' :=
  ⟨h.toLeaves.trans h'.toLeaves, h'.toEnded⟩

/-- A grant is seen by nobody. -/
theorem grant (h : e.Sound) {mode : LockMode} {locks : LockTable} (hg : e.locks.grant? tx id mode = some locks) :
    Quiet tx e { e with locks } where
  sound :=
    { toCoherent := ⟨h.catalog, ⟨h.present.held⟩, h.nodup, h.copies⟩
      locks := h.locks.grant? hg
      locked := fun hd => LockTable.exclusive_of_grant? hg (h.locked hd) }
  catalog := rfl
  bytes := rfl
  draft := rfl
  grown _ := Paged.Grown.refl _ _
  drafts _ _ := rfl
  others tx' ht id' := by
    rw [LockTable.mode?_of_grant? hg, if_neg (fun he => ht he.1)]
  own id' hm := by
    rw [LockTable.mode?_of_grant? hg]
    split
    · rfl
    · exact hm
  exclusive _ hm := LockTable.exclusive_of_grant? hg hm
  capacity := rfl
  guarded := rfl
  changed := rfl

/-- Copies that come and go are seen by nobody, as long as they are like the disk. -/
theorem cache (h : e.Sound) {c : Cache} (tx : TxId) (hn : c.pages.Nodup)
    (hf : ∀ f ∈ c.frames, f ∈ e.cache.frames ∨ e.stored f.page.id = .ok f.page)
    (hd : c.draft = e.cache.draft) (hcap : c.capacity = e.cache.capacity) (hg : c.guarded = e.cache.guarded)
    (hc : c.changed = e.cache.changed) : Quiet tx e { e with cache := c } where
  sound :=
    { toCoherent := h.toCoherent.cache hn hf
      locks := h.locks
      locked := fun hs => h.locked (hd ▸ hs) }
  catalog := rfl
  bytes := rfl
  draft := congrFun hd tx
  grown _ := Paged.Grown.refl _ _
  drafts tx' _ := congrFun hd tx'
  others _ _ _ := rfl
  own _ hm := hm
  exclusive _ hm := hm
  capacity := hcap
  guarded := hg
  changed := hc

end Quiet

end HeapStore.Engine
