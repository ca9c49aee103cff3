import HeapStore.Engine.Change
import HeapStore.Engine.Scan
import HeapStore.Proofs.PageRows
import HeapStore.Proofs.Views

/-!
# What every call keeps

The functions of an engine are made of few single changes: a lock is granted, all locks of a transaction go, a
copy comes, goes, is used, is read again or is revised, a page is appended to its file, a changed copy is written.
A property that each of these changes keeps is kept by every function, whatever its outcome (`Stable`). Most
functions do without the last two (`Steady`), and those that only read do without the last three (`Calm`).

* `Engine.find?_of_fetch`: a page that was fetched has this copy.
* `Calm.fetch`, `Calm.scan`, `Steady.delete`, `Stable.complete`, `Stable.insert`: the functions.
* `calm_forall`, `Steady.of_copies`: properties of single copies, and of copies beside their files.
* `steady_disk`: fetching, deleting and scanning leave the files as they are. `calm_clean`: fetching and scanning
  change no copy.
* `stable_grows`: **no file becomes shorter**, and the catalog stays.
-/

namespace HeapStore

/-- A page with one slot changed is a revision. -/
theorem Page.Changes.revises {p q : Page} {slot : Nat} {fields : Option (List Field)} (h : p.Changes q slot fields)
    (tx : TxId) : (q.mark (some tx)).Revises p :=
  ⟨h.id, h.schema, h.size, h.image, nofun⟩

namespace Engine

/-- Each single change to the locks of an engine keeps the property, and each copy that comes, goes or is read again. -/
structure Calm (P : Engine → Prop) : Prop where
  grant : ∀ {e : Engine} {tx : TxId} {id : PageId} {mode : LockMode} {locks : LockTable}, P e →
    e.locks.grant? tx id mode = some locks → P { e with locks }
  unlockAll : ∀ {e : Engine} (tx : TxId), P e → P (e.unlockAll tx)
  touch : ∀ {e : Engine} (id : PageId), P e → P { e with cache := e.cache.touch id }
  evict : ∀ {e : Engine} {cache : Cache}, P e → e.cache.evict? = some cache → P { e with cache }
  /-- A page without a copy is read. -/
  add : ∀ {e : Engine} {page : Page}, P e → e.cache.find? page.id = none → e.stored page.id = .ok page →
    P { e with cache := (e.cache.add page).2 }
  /-- A page is read again. -/
  reread : ∀ {e : Engine} {page : Page}, P e → e.stored page.id = .ok page →
    P { e with cache := e.cache.update page.id page }

/-- Each single change to the locks and copies of an engine keeps the property. -/
structure Steady (P : Engine → Prop) : Prop extends Calm P where
  /-- A copy is changed, or marked as changed. -/
  revise : ∀ {e : Engine} {f : Frame} {page : Page} {tx : TxId}, P e → e.cache.find? page.id = some f →
    page.Revises f.page → page.dirty = some tx → P { e with cache := e.cache.update page.id page }

/-- Each single change to an engine keeps the property. -/
structure Stable (P : Engine → Prop) : Prop extends Steady P where
  append : ∀ {e : Engine} {table : TableId} {file : TableFile} {number : Nat} {disk : Disk}, P e →
    e.file table = .ok file → file.append e.disk = .ok (number, disk) → P { e with disk }
  /-- A changed copy is written. -/
  flush : ∀ {e : Engine} {f : Frame} {file : TableFile} {disk : Disk}, P e → e.cache.find? f.page.id = some f →
    f.isClean = false → e.file f.page.id.table = .ok file → file.write e.disk f.page = .ok disk →
    P { e with disk, cache := e.cache.update f.page.id (f.page.mark none).settle }
  next : ∀ {e : Engine} (n : Nat), P e → P { e with lastTx := n }


variable {e : Engine} {id : PageId}

/-- The page that is read is the one that was asked for, and it is clean. -/
theorem of_stored_eq {page : Page} (h : e.stored id = .ok page) : page.id = id ∧ page.dirty = none := by
  unfold stored TableFile.read at h
  cases hf : e.file id.table with
  | error fault =>
    rw [hf] at h
    cases h
  | ok file =>
    rw [hf] at h
    simp only [bind, Except.bind] at h
    split at h
    · cases h
    · unfold Except.mapError at h
      split at h
      · cases h
      · next hd =>
        cases h
        obtain ⟨hid, -, -, hclean, -⟩ := Page.fields_of_decode hd
        exact ⟨hid, hclean⟩

theorem id_of_stored {page : Page} (h : e.stored id = .ok page) : page.id = id := (of_stored_eq h).1

theorem clean_of_stored {page : Page} (h : e.stored id = .ok page) : page.dirty = none := (of_stored_eq h).2

/-- A page that was loaded has this copy. -/
theorem find?_of_load {f : Frame} {e' : Engine} (h : e.load id = (.ok f, e')) : e'.cache.find? id = some f := by
  unfold load at h
  split at h
  · next g hg =>
    cases h
    exact (Cache.find?_touch_self _ _).trans hg
  · split at h
    · cases h
    · next page hs =>
      split at h
      · cases h
      · next cache _ =>
        cases h
        exact Cache.find?_add.trans (if_pos (id_of_stored hs))

theorem find?_of_fetch {tx : TxId} {mode : LockMode} {f : Frame} {e' : Engine}
    (h : e.fetch tx id mode = (.ok f, e')) : e'.cache.find? id = some f := by
  unfold fetch at h
  split at h
  · exact find?_of_load h
  · cases h

/-- The copy that is fetched is in the cache. -/
theorem find?_fetched {tx : TxId} {mode : LockMode} {f : Frame} {e' : Engine} (h : e.fetch tx id mode = (.ok f, e')) :
    e'.cache.find? f.page.id = some f :=
  Cache.find?_id (find?_of_fetch h)

namespace Calm

variable {P : Engine → Prop} (hP : Calm P)

include hP

theorem discardEach (ids : List PageId) : ∀ {e : Engine}, P e → P (Engine.discardEach ids e).2 := by
  induction ids with
  | nil =>
    intro e h
    exact h
  | cons id ids ih =>
    intro e h
    unfold Engine.discardEach
    split
    · exact h
    · next page hs =>
      have hid := id_of_stored hs
      subst hid
      exact ih (hP.reread h hs)

theorem drop (h : P e) (tx : TxId) : P (e.complete tx false).2 := by
  unfold Engine.complete
  exact hP.unlockAll tx (hP.discardEach _ h)

theorem load (h : P e) (id : PageId) : P (e.load id).2 := by
  unfold Engine.load
  split
  · exact hP.touch id h
  · next hn =>
    split
    · exact h
    · next page hs =>
      have hid := id_of_stored hs
      subst hid
      split
      · exact h
      · next cache hr =>
        unfold Cache.makeRoom? at hr
        split at hr
        · obtain ⟨f, -, -, hc⟩ := Cache.evict?_cases hr
          refine hP.add (hP.evict h hr) ?_ hs
          show cache.find? page.id = none
          rw [Cache.find?_eq_none_iff] at hn ⊢
          rw [hc]
          intro hm
          obtain ⟨g, hg, he⟩ := List.mem_map.1 hm
          exact hn (he ▸ Cache.mem_pages_of_mem (Cache.mem_remove.1 hg).1)
        · cases hr
          exact hP.add h hn hs

theorem fetch (h : P e) (tx : TxId) (id : PageId) (mode : LockMode) : P (e.fetch tx id mode).2 := by
  unfold Engine.fetch LockTable.acquire
  split
  · next hl =>
    split at hl
    · next hg =>
      cases hl
      exact hP.load (hP.grant h hg) id
    · cases hl
  · exact hP.drop h tx

theorem evictOne (h : P e) : P e.evict.2 := by
  unfold Engine.evict
  split
  · exact h
  · next hc => exact hP.evict h hc

theorem scanNext (s : Scan) (e : Engine) (h : P e) : P (s.next e).2.2 := by
  induction s, e using Scan.next.induct with
  | case1 s e hd =>
    unfold Scan.next
    rw [if_pos hd]
    exact h
  | case2 s e hd hn =>
    unfold Scan.next
    rw [if_neg hd, if_pos hn]
    exact h
  | case3 s e hd hn fault e' hf =>
    have hk := hP.fetch h s.tx (s.file.pageId s.number) .shared
    rw [hf] at hk
    unfold Scan.next
    rw [if_neg hd, if_neg hn, hf]
    exact hk
  | case4 s e hd hn f e' hf slot r hr =>
    have hk := hP.fetch h s.tx (s.file.pageId s.number) .shared
    rw [hf] at hk
    unfold Scan.next
    rw [if_neg hd, if_neg hn, hf]
    simp only [hr]
    exact hk
  | case5 s e hd hn f e' hf hr ih =>
    have hk := hP.fetch h s.tx (s.file.pageId s.number) .shared
    rw [hf] at hk
    unfold Scan.next
    rw [if_neg hd, if_neg hn, hf]
    simp only [hr]
    exact ih hk

theorem scanItems (n : Nat) : ∀ (s : Scan) (e : Engine), P e → P (Scan.items n s e).2.2 := by
  induction n with
  | zero =>
    intro s e h
    exact h
  | succ n ih =>
    intro s e h
    have hk := hP.scanNext s e h
    unfold Scan.items
    split
    · next he =>
      rw [he] at hk
      exact hk
    · next he =>
      rw [he] at hk
      exact ih _ _ hk

theorem scan (h : P e) (tx : TxId) (table : TableId) : P (e.scan tx table).2 := by
  unfold Engine.scan
  split
  · exact h
  · exact hP.scanItems _ _ e h

end Calm

namespace Steady

variable {P : Engine → Prop} (hP : Steady P)

include hP

/-- A copy that is changed in one slot is revised. -/
theorem change {f : Frame} {q : Page} {slot : Nat} {fields : Option (List Field)} (h : P e)
    (hf : e.cache.find? f.page.id = some f) (hq : f.page.Changes q slot fields) (tx : TxId) :
    P { e with cache := e.cache.update q.id (q.mark (some tx)) } := by
  have hr : (q.mark (some tx)).Revises f.page := hq.revises tx
  exact hP.revise h (hq.id ▸ hf) hr rfl

theorem putInto {f : Frame} (h : P e) (hf : e.cache.find? f.page.id = some f) (tx : TxId) (r : Record) :
    P (e.putInto f tx r).2 := by
  unfold Engine.putInto
  split
  · exact h
  · next hi =>
    obtain ⟨-, -, -, hq⟩ := Page.insert_ok hi
    exact hP.change h hf hq tx

theorem putOnFirst (file : TableFile) (tx : TxId) (r : Record) (numbers : List Nat) :
    ∀ {e : Engine}, P e → P (Engine.putOnFirst file tx r numbers e).2 := by
  induction numbers with
  | nil =>
    intro e h
    exact h
  | cons number numbers ih =>
    intro e h
    have hf := hP.fetch h tx (file.pageId number) .exclusive
    unfold Engine.putOnFirst
    split
    · next he =>
      rw [he] at hf
      exact hf
    · next he =>
      have hfind := find?_fetched he
      rw [he] at hf
      split
      · exact ih hf
      · exact hP.putInto hf hfind tx r

theorem takeFrom {f : Frame} (h : P e) (hf : e.cache.find? f.page.id = some f) (tx : TxId) (r : Record) :
    P (e.takeFrom f tx r).2 := by
  unfold Engine.takeFrom
  split
  · exact h
  · next hd =>
    obtain ⟨slot, -, -, hq⟩ := Page.delete_ok hd
    exact hP.change h hf hq tx

theorem delete (h : P e) (tx : TxId) (r : Record) : P (e.delete tx r).2 := by
  unfold Engine.delete
  split
  · exact h
  split
  · exact h
  unfold Engine.deleteFrom
  split
  · exact h
  · next place _ =>
    simp only
    split
    · exact h
    split
    · exact h
    split
    · exact h
    have hf := hP.fetch h tx place.page .exclusive
    split
    · next he =>
      rw [he] at hf
      exact hf
    · next he =>
      have hfind := find?_fetched he
      rw [he] at hf
      exact hP.takeFrom hf hfind tx r

end Steady

/-- Whatever changes locks and copies only leaves the files as they are. -/
theorem steady_disk (disk : Disk) : Steady fun e => e.disk = disk where
  grant h _ := h
  unlockAll _ h := h
  touch _ h := h
  evict h _ := h
  add h _ _ := h
  reread h _ := h
  revise h _ _ _ := h

/-- Whatever only reads brings no copies but clean ones. -/
theorem calm_forall {P : Page → Prop} (hP : ∀ p, p.dirty = none → P p) : Calm fun e => ∀ f ∈ e.cache.frames, P f.page where
  grant h _ := h
  unlockAll _ h := h
  touch _ h f hf := h f (Cache.mem_touch.1 hf)
  evict h hc f hf := by
    obtain ⟨g, -, -, rfl⟩ := Cache.evict?_cases hc
    exact h f (Cache.mem_remove.1 hf).1
  add h _ hs f hf := by
    rcases Cache.mem_add.1 hf with rfl | hf
    · exact hP _ (clean_of_stored hs)
    · exact h f hf
  reread h hs f hf := by
    rcases Cache.mem_update.1 hf with ⟨hf, -⟩ | ⟨-, -, -, rfl⟩
    · exact h f hf
    · exact hP _ (clean_of_stored hs)

/-- It changes no copy. -/
theorem calm_clean : Calm fun e => ∀ f ∈ e.cache.frames, f.page.dirty = none := calm_forall fun _ hd => hd

/-- Whatever changes locks and copies keeps a property to which locks do not matter, nor copies that are as their files. -/
theorem Steady.of_copies {P : Engine → Prop} (hlocks : ∀ {e : Engine}, P e → ∀ locks n, P { e with locks, lastTx := n })
    (hnodup : ∀ {e : Engine}, P e → e.cache.pages.Nodup)
    (hcache : ∀ {e : Engine}, P e → ∀ {c : Cache}, c.pages.Nodup →
      (∀ f ∈ c.frames, f ∈ e.cache.frames ∨ e.stored f.page.id = .ok f.page) → P { e with cache := c })
    (hrevise : ∀ {e : Engine} {f : Frame} {page : Page}, P e → e.cache.find? page.id = some f →
      page.Revises f.page → P { e with cache := e.cache.update page.id page }) : Steady P where
  grant h _ := hlocks h _ _
  unlockAll _ h := hlocks h _ _
  touch _ h := hcache h (Cache.nodup_touch (hnodup h)) fun _ hf => .inl (Cache.mem_touch.1 hf)
  evict h hc := by
    obtain ⟨f, -, -, rfl⟩ := Cache.evict?_cases hc
    exact hcache h (Cache.nodup_remove (hnodup h)) fun _ hg => .inl (Cache.mem_remove.1 hg).1
  add h hn hs := by
    refine hcache h (Cache.nodup_add (hnodup h) (Cache.find?_eq_none_iff.1 hn)) fun g hg => ?_
    rcases Cache.mem_add.1 hg with rfl | hg
    · exact .inr hs
    · exact .inl hg
  reread h hs := by
    refine hcache h (Cache.nodup_update rfl (hnodup h)) fun g hg => ?_
    rcases Cache.mem_update.1 hg with ⟨hg, -⟩ | ⟨-, -, -, rfl⟩
    · exact .inl hg
    · exact .inr hs
  revise h hf hr _ := hrevise h hf hr

/-- It leaves the tables as they are, too. -/
theorem steady_catalog (catalog : Catalog) : Steady fun e => e.catalog = catalog where
  grant h _ := h
  unlockAll _ h := h
  touch _ h := h
  evict h _ := h
  add h _ _ := h
  reread h _ := h
  revise h _ _ _ := h

namespace Stable

variable {P : Engine → Prop} (hP : Stable P)

include hP

theorem flushPage (h : P e) (id : PageId) : P (e.flushPage id).2 := by
  unfold Engine.flushPage
  split
  · exact h
  · next f hf =>
    obtain ⟨-, rfl⟩ := Cache.mem_of_find? hf
    split
    · exact h
    · next hc =>
      split
      · exact h
      · next hfile =>
        split
        · exact h
        · next hw => exact hP.flush h hf (Bool.eq_false_iff.2 hc) hfile hw

theorem flushEach (ids : List PageId) : ∀ {e : Engine}, P e → P (Engine.flushEach ids e).2 := by
  induction ids with
  | nil =>
    intro e h
    exact h
  | cons id ids ih =>
    intro e h
    have hp := hP.flushPage h id
    unfold Engine.flushEach
    split
    · next hf =>
      rw [hf] at hp
      exact hp
    · next hf =>
      rw [hf] at hp
      exact ih hp

theorem complete (h : P e) (tx : TxId) (keep : Bool) : P (e.complete tx keep).2 := by
  cases keep with
  | true =>
    unfold Engine.complete
    exact hP.unlockAll tx (hP.flushEach _ h)
  | false => exact hP.drop h tx

theorem putOnNew {table : TableId} {file : TableFile} (tx : TxId) (r : Record) (tries : Nat) :
    ∀ {e : Engine}, P e → e.file table = .ok file → P (Engine.putOnNew file tx r tries e).2 := by
  induction tries with
  | zero =>
    intro e h _
    exact h
  | succ tries ih =>
    intro e h hfile
    unfold Engine.putOnNew
    split
    · exact h
    · next number disk ha =>
      have hf := hP.putOnFirst file tx r [number] (hP.append h hfile ha)
      have hc := (steady_catalog e.catalog).putOnFirst file tx r [number] (e := { e with disk }) rfl
      split
      · next he =>
        rw [he] at hf
        exact hf
      · next he =>
        rw [he] at hf
        exact hf
      · next he =>
        rw [he] at hf hc
        exact ih hf ((file_congr hc table).trans hfile)

theorem insert (h : P e) (tx : TxId) (table : TableId) (r : Record) : P (e.insert tx table r).2 := by
  unfold Engine.insert
  split
  · exact h
  · next file hfile =>
    unfold Engine.insertInto
    split
    · exact h
    · split
      · exact h
      · next count _ =>
        have hf := hP.putOnFirst file tx r (List.range count) h
        have hc := (steady_catalog e.catalog).putOnFirst file tx r (List.range count) (e := e) rfl
        split
        · next he =>
          rw [he] at hf
          exact hf
        · next he =>
          rw [he] at hf
          exact hf
        · next he =>
          rw [he] at hf hc
          exact hP.putOnNew tx r _ hf ((file_congr hc table).trans hfile)

end Stable

/-- The files of an engine have only grown since it was as it was, and its catalog is the same. -/
def Outgrows (e e' : Engine) : Prop := e'.catalog = e.catalog ∧ e.disk.Grows e'.disk

/-- **No file becomes shorter.** -/
theorem stable_grows (e : Engine) : Stable (Outgrows e) where
  grant h _ := h
  unlockAll _ h := h
  touch _ h := h
  evict h _ := h
  add h _ _ := h
  reread h _ := h
  revise h _ _ _ := h
  append h _ ha := ⟨h.1, h.2.trans (TableFile.grows_of_append ha)⟩
  flush h _ _ _ hw := ⟨h.1, h.2.trans (TableFile.grows_of_write hw)⟩
  next _ h := h

theorem Outgrows.refl (e : Engine) : e.Outgrows e := ⟨rfl, Disk.Grows.refl _⟩

end Engine

end HeapStore
