import HeapStore.Proofs.Acting
import HeapStore.Proofs.Lasting

/-!
# Transactions that change nothing

An engine goes on as long as its tables stay. Of its transactions some change pages, and the others read, commit, abort,
write what there is to be written and let go of pages. Copies and files agree all the time, and no copy gets changes of
the others.

* `Calm.insert_failed`, `Calm.delete_failed`: **an insertion or a deletion that fails has only read.**
* `Request.writer?`: the transaction that has changed a page by a request, going by the reply.
* `Engine.Spotless`: no copy holds changes of a transaction.
* `Engine.Becomes`: what an engine can become while only some transactions change pages. `Becomes.coherent` and
  `Becomes.tidy` say what holds of all of it. `Becomes.spotless`: **a transaction that changes nothing has no changes.**
* `Engine.Standing`: what an engine can become from its start on.
-/

namespace HeapStore

/-- The transaction that has changed a page by a request, or marked one as changed, going by the reply. -/
def Request.writer? : Request → Reply → Option TxId
  | .call (.insert tx _ _), .answer (.inserted (.ok _)) => some tx
  | .call (.delete tx _), .answer (.deleted (.ok _)) => some tx
  | .mark _ tx, .done (.ok _) => some tx
  | _, _ => none

namespace Engine

variable {e e' : Engine} {tx tx' : TxId} {f : Frame} {p : Page} {r : Record} {fault : AccessFault} {disk : Disk}
  {free : TxId → Prop}

/-! ## Changes that fail -/

/-- The property holds after a function if it has failed. -/
def IfFailed {α : Type} (P : Engine → Prop) : Outcome AccessFault α → Prop
  | (.ok _, _) => True
  | (.error _, e) => P e

/-- The property holds after a search for a free slot if it has found none. -/
def IfMissed (P : Engine → Prop) : Outcome AccessFault (Option RecordId) → Prop
  | (.ok (some _), _) => True
  | (_, e) => P e

namespace Calm

variable {P : Engine → Prop} (hP : Calm P)

theorem putInto_failed (h : P e) (f : Frame) (tx : TxId) (r : Record) : IfFailed P (e.putInto f tx r) := by
  unfold putInto
  split
  · exact h
  · trivial

theorem takeFrom_failed (h : P e) (f : Frame) (tx : TxId) (r : Record) : IfFailed P (e.takeFrom f tx r) := by
  unfold takeFrom
  split
  · exact h
  · trivial

include hP

/-- A search that finds no free slot has only fetched pages. -/
theorem putOnFirst_missed (file : TableFile) (tx : TxId) (r : Record) (numbers : List Nat) : ∀ {e : Engine}, P e →
    IfMissed P (putOnFirst file tx r numbers e) := by
  induction numbers with
  | nil => exact fun h => h
  | cons number numbers ih =>
    intro e h
    have hf := hP.fetch h tx (file.pageId number) .exclusive
    unfold putOnFirst
    split
    · next he =>
      rw [he] at hf
      exact hf
    · next f e1 he =>
      rw [he] at hf
      split
      · exact ih hf
      · have hput := putInto_failed hf f tx r
        cases hi : e1.putInto f tx r with
        | mk result e2 =>
          rw [hi] at hput
          cases result with
          | ok place => trivial
          | error fault => exact hput

section Insert

variable (happend : ∀ {e : Engine} {table : TableId} {file : TableFile} {number : Nat} {disk : Disk}, P e →
  e.file table = .ok file → file.append e.disk = .ok (number, disk) → P { e with disk })

include happend

theorem putOnNew_failed {table : TableId} {file : TableFile} (tx : TxId) (r : Record) (tries : Nat) :
    ∀ {e : Engine}, P e → e.file table = .ok file → IfFailed P (putOnNew file tx r tries e) := by
  induction tries with
  | zero => exact fun h _ => h
  | succ tries ih =>
    intro e h hfile
    unfold putOnNew
    split
    · exact h
    · next number disk ha =>
      have hf := hP.putOnFirst_missed file tx r [number] (happend h hfile ha)
      have hc := (steady_catalog e.catalog).putOnFirst file tx r [number] (e := { e with disk }) rfl
      split
      · next he =>
        rw [he] at hf
        exact hf
      · trivial
      · next he =>
        rw [he] at hf hc
        exact ih hf ((file_congr hc table).trans hfile)

/-- **An insertion that fails has only read**, and it may have appended pages. -/
theorem insert_failed (h : P e) (tx : TxId) (table : TableId) (r : Record) : IfFailed P (e.insert tx table r) := by
  unfold Engine.insert
  split
  · exact h
  · next file hfile =>
    unfold insertInto
    split
    · exact h
    split
    · exact h
    · next count _ =>
      have hf := hP.putOnFirst_missed file tx r (List.range count) h
      have hc := (steady_catalog e.catalog).putOnFirst file tx r (List.range count) (e := e) rfl
      split
      · next he =>
        rw [he] at hf
        exact hf
      · trivial
      · next he =>
        rw [he] at hf hc
        exact hP.putOnNew_failed happend tx r _ hf ((file_congr hc table).trans hfile)

end Insert

/-- **A deletion that fails has only read.** -/
theorem delete_failed (h : P e) (tx : TxId) (r : Record) : IfFailed P (e.delete tx r) := by
  unfold Engine.delete
  split
  · exact h
  split
  · exact h
  unfold deleteFrom
  split
  · exact h
  · next place _ =>
    simp only
    split
    · exact h
    split
    · exact h
    split
    · exact h
    have hf := hP.fetch h tx place.page .exclusive
    split
    · next he =>
      rw [he] at hf
      exact hf
    · next he =>
      rw [he] at hf
      exact takeFrom_failed hf _ tx r

end Calm

/-! ## Copies without changes of a transaction -/

/-- No copy holds changes of the transaction. -/
def Spotless (tx : TxId) (e : Engine) : Prop := ∀ f ∈ e.cache.frames, f.page.dirty ≠ some tx

/-- A copy gets a content without changes of the transaction. -/
theorem Spotless.update {id : PageId} (h : Spotless tx e) (hd : p.dirty ≠ some tx) :
    Spotless tx { e with cache := e.cache.update id p } := by
  intro f hf
  rcases Cache.mem_update.1 hf with ⟨hf, -⟩ | ⟨-, -, -, rfl⟩
  · exact h f hf
  · exact hd

theorem ne_of_clean (hd : p.dirty = none) (tx : TxId) : p.dirty ≠ some tx := by
  rw [hd]
  nofun

/-- Whatever only reads makes no changes. -/
theorem calm_spotless (tx : TxId) : Calm (Spotless tx) := calm_forall fun _ hd => ne_of_clean hd tx

/-- Changes that another transaction makes are its own. -/
theorem acting_spotless (ht : tx' ≠ tx) : Acting tx' (Spotless tx) (Spotless tx) where
  grant h _ := h
  load id h := (calm_spotless tx).load h id
  abort h := (calm_spotless tx).drop h tx'
  take h _ _ _ := h.update fun hd => ht (Option.some.inj hd)
  put h _ _ _ := h.update fun hd => ht (Option.some.inj hd)
  append h _ _ := h

/-- What is written has no changes any more. -/
theorem Spotless.flushPage (h : Spotless tx e) (id : PageId) : Spotless tx (e.flushPage id).2 := by
  unfold Engine.flushPage
  split
  · exact h
  split
  · exact h
  split
  · exact h
  split
  · exact h
  · exact h.update (ne_of_clean rfl tx)

theorem Spotless.flushEach (ids : List PageId) : ∀ {e : Engine}, Spotless tx e →
    Spotless tx (Engine.flushEach ids e).2 := by
  induction ids with
  | nil => exact fun h => h
  | cons id ids ih =>
    intro e h
    have hp := h.flushPage id
    unfold Engine.flushEach
    split
    · next hf =>
      rw [hf] at hp
      exact hp
    · next hf =>
      rw [hf] at hp
      exact ih hp

theorem Comes.same {α : Type} {P : Engine → Prop} {o : Outcome AccessFault α} (h : Comes P P o) : P o.2 := by
  obtain ⟨result, e⟩ := o
  cases result with
  | ok a => exact h
  | error fault =>
    have h : if fault.aborts then P e else P e := h
    rw [ite_self] at h
    exact h

/-- **No copy gets changes of a transaction but by its own requests**, and not by those that fail. -/
theorem Spotless.serve (h : Spotless tx e) (r : Request) (hr : r.writer? (e.serve r).1 ≠ some tx) :
    Spotless tx (e.serve r).2 := by
  have hcalm := calm_spotless tx
  cases r with
  | call c =>
    cases c with
    | begin => exact h
    | fetch tx' id mode => exact hcalm.fetch h tx' id mode
    | insert tx' table r =>
      have hfailed := hcalm.insert_failed (fun h _ _ => h) h tx' table r
      have hacts : tx' ≠ tx → Spotless tx (e.insert tx' table r).2 :=
        fun ht => ((acting_spotless ht).insert h table r).same
      show Spotless tx (e.insert tx' table r).2
      have hr : Request.writer? (.call (.insert tx' table r)) (.answer (.inserted (e.insert tx' table r).1)) ≠ some tx := hr
      cases hi : e.insert tx' table r with
      | mk result e' =>
        rw [hi] at hfailed hacts hr
        cases result with
        | error fault => exact hfailed
        | ok place => exact hacts fun ht => hr (congrArg some ht)
    | delete tx' r =>
      have hfailed := hcalm.delete_failed h tx' r
      have hacts : tx' ≠ tx → Spotless tx (e.delete tx' r).2 :=
        fun ht => ((acting_spotless ht).delete h r).same
      show Spotless tx (e.delete tx' r).2
      have hr : Request.writer? (.call (.delete tx' r)) (.answer (.deleted (e.delete tx' r).1)) ≠ some tx := hr
      cases hd : e.delete tx' r with
      | mk result e' =>
        rw [hd] at hfailed hacts hr
        cases result with
        | error fault => exact hfailed
        | ok _ => exact hacts fun ht => hr (congrArg some ht)
    | scan tx' table => exact hcalm.scan h tx' table
    | step s => exact hcalm.scanNext s e h
    | commit tx' => exact hcalm.unlockAll tx' (h.flushEach (e.cache.owned tx'))
    | abort tx' => exact hcalm.drop h tx'
    | evict => exact hcalm.evictOne h
  | checkpoint => exact h.flushEach e.cache.pages
  | flushPage id => exact h.flushPage id
  | flushPages tx' => exact h.flushEach (e.cache.owned tx')
  | flushAll => exact h.flushEach e.cache.pages
  | discardPages tx' => exact hcalm.discardEach (e.cache.owned tx') h
  | remove id => exact fun f hf => h f (Cache.mem_remove.1 hf).1
  | unlock tx' id => exact h
  | mark id tx' =>
    show Spotless tx (e.mark id (some tx')).2
    have hr : Request.writer? (.mark id tx') (.done (e.mark id (some tx')).1) ≠ some tx := hr
    unfold Engine.mark at hr ⊢
    split
    · exact h
    · next f hfind =>
      rw [hfind] at hr
      have ht : tx' ≠ tx := fun ht => hr (congrArg some ht)
      exact h.update fun hd => ht (Option.some.inj hd)

/-! ## Engines that go on -/

/-- What an engine can become while its tables stay and only some transactions change pages. Anything else is asked of
it, as long as page numbers have room. Copies are read, and changed in any way that is marked on them; whatever has left
the cache is out of its reach. Files are opened, get pages, and become tables, and tables are loaded. -/
inductive Becomes (free : TxId → Prop) (e : Engine) : Engine → Prop where
  | refl : Becomes free e e
  | serve {e' : Engine} (h : Becomes free e e') (r : Request)
    (hr : ∀ tx, r.writer? (e'.serve r).1 = some tx → free tx) (hs : (e'.serve r).2.Small) :
    Becomes free e (e'.serve r).2
  | revise {e' : Engine} {f : Frame} {p : Page} {tx : TxId} (h : Becomes free e e') (ht : free tx)
    (hf : e'.cache.find? p.id = some f) (hr : p.Revises f.page) (hd : p.dirty = some tx) :
    Becomes free e { e' with cache := e'.cache.update p.id p }
  | hold {e' : Engine} (h : Becomes free e e') (gone : List Frame) (guarded : List Nat) :
    Becomes free e { e' with cache := { e'.cache with gone, guarded } }
  | attach {e' : Engine} (h : Becomes free e e') (path : Path) (schema : Schema) (size : Nat) :
    Becomes free e { e' with disk := (TableFile.attach e'.disk path schema size).2 }
  | append {e' : Engine} {table : TableId} {file : TableFile} {number : Nat} {disk : Disk} (h : Becomes free e e')
    (hf : e'.file table = .ok file) (ha : file.append e'.disk = .ok (number, disk)) (hs : { e' with disk }.Small) :
    Becomes free e { e' with disk }
  | add {e' : Engine} {file : TableFile} (h : Becomes free e e')
    (hslots : file.schema.slotCount file.pageSize ≠ 0) (hheld : ∃ bytes, e'.disk.held file.location = .ok bytes)
    (name : String) (key : Option String)
    (hs : e'.Enlarges { e' with catalog := (e'.catalog.add file name key).2 }) :
    Becomes free e { e' with catalog := (e'.catalog.add file name key).2 }
  | load {e' : Engine} (h : Becomes free e e') (path : Path) (hs : e'.Enlarges (e'.loadTables path).2) :
    Becomes free e (e'.loadTables path).2

/-- Files that were there stay as they are, and so nothing becomes of the copies. -/
theorem Coherent.extend (h : e.Coherent) (hext : e.disk.Extends disk) : Coherent { e with disk } :=
  h.stay (h.backed.extends hext) hext id h.catalog.apart

/-- **Copies and files agree as long as tables stay.** -/
theorem Becomes.coherent (h : Becomes free e e') (h0 : e.Coherent) : e'.Coherent := by
  induction h with
  | refl => exact h0
  | serve _ r _ hs ih => exact ih.serveAll [r] hs
  | revise _ _ hf hr _ ih => exact ih.revise hf hr
  | hold _ gone guarded ih => exact ih.cache ih.nodup fun _ hf => .inl hf
  | @attach e' _ path schema size ih => exact ih.extend (TableFile.extends_attach e'.disk path schema size)
  | @append e' _ _ _ disk _ hf ha hs ih =>
    have ho : e'.Outgrows { e' with disk } := (stable_grows e').append (Outgrows.refl e') hf ha
    exact ih.append hf ha (ho.small ih.present hs) hs
  | add _ hslots hheld name key hs ih =>
    exact ih.enlarge (ih.backed.add_held hslots hheld name key) (fun _ _ hb => hb) hs
  | @load e' _ path hs ih =>
    obtain ⟨hb, hext⟩ := ih.backed.load path e'.settings.pageSize
    exact ih.enlarge hb hext hs

theorem Becomes.tidy (h : Becomes free e e') (h0 : e.Tidy) : e'.Tidy := by
  induction h with
  | refl => exact h0
  | serve _ r _ _ ih => exact firm_tidy.serve ih r
  | revise _ _ _ _ _ ih => exact ⟨ih.locks, Cache.nodup_update rfl ih.nodup⟩
  | hold _ _ _ ih => exact ⟨ih.locks, ih.nodup⟩
  | attach _ _ _ _ ih => exact ⟨ih.locks, ih.nodup⟩
  | append _ _ _ _ ih => exact ⟨ih.locks, ih.nodup⟩
  | add _ _ _ _ _ _ ih => exact ⟨ih.locks, ih.nodup⟩
  | load _ _ _ ih => exact ⟨ih.locks, ih.nodup⟩

/-- **A transaction that changes nothing has no changes** if it had none before. -/
theorem Becomes.spotless (h : Becomes free e e') (h0 : Spotless tx e) (ht : ¬ free tx) : Spotless tx e' := by
  induction h with
  | refl => exact h0
  | serve _ r hr _ ih => exact ih.serve r fun hc => ht (hr tx hc)
  | @revise _ _ _ tx' _ hfree _ _ hd ih =>
    refine ih.update fun hx => ht ?_
    rw [← Option.some.inj (hd.symm.trans hx)]
    exact hfree
  | hold _ _ _ ih => exact ih
  | attach _ _ _ _ ih => exact ih
  | append _ _ _ _ ih => exact ih
  | add _ _ _ _ _ _ ih => exact ih
  | load _ _ _ ih => exact ih

/-- What an engine can become from its start on, as long as its tables stay. -/
def Standing (e : Engine) : Prop :=
  ∃ settings disk e0, start settings disk = .ok e0 ∧ Becomes (fun _ => True) e0 e

theorem Standing.coherent (h : e.Standing) : e.Coherent := by
  obtain ⟨_, _, _, hstart, hb⟩ := h
  exact hb.coherent (ready_start hstart).sound.toCoherent

theorem Standing.tidy (h : e.Standing) : e.Tidy := by
  obtain ⟨_, _, _, hstart, hb⟩ := h
  have hready := (ready_start hstart).sound
  exact hb.tidy ⟨hready.locks, hready.nodup⟩

/-- Requests and new tables are a part of what can happen. -/
theorem Lasting.standing (h : e.Lasting) : e.Standing := by
  induction h with
  | start h => exact ⟨_, _, _, h, .refl⟩
  | serve _ r hs ih =>
    obtain ⟨_, _, _, hstart, hb⟩ := ih
    exact ⟨_, _, _, hstart, hb.serve r (fun _ _ => trivial) hs⟩
  | @table e _ path name schema key hs ih =>
    obtain ⟨_, _, _, hstart, hb⟩ := ih
    refine ⟨_, _, _, hstart, ?_⟩
    have hattach := hb.attach path schema e.settings.pageSize
    unfold createTable at hs ⊢
    cases ha : TableFile.attach e.disk path schema e.settings.pageSize with
    | mk result disk =>
      rw [ha] at hattach hs
      cases result with
      | error cause => exact hattach
      | ok file =>
        obtain ⟨hslots, hheld⟩ := TableFile.attach_spec ha
        exact hattach.add hslots hheld name key ⟨hs.stay, hs.apart, hs.small⟩
  | load _ path hs ih =>
    obtain ⟨_, _, _, hstart, hb⟩ := ih
    exact ⟨_, _, _, hstart, hb.load path hs⟩

end Engine

end HeapStore
