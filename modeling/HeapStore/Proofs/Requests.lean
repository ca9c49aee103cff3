import HeapStore.Proofs.Opening

/-!
# Runs of requests

Calls belong to transactions, which lock what they use. Besides these an engine is asked for finer things: to write
or to drop changes before a transaction has ended, to let go of one page early, to forget a copy, to mark a page as
changed.

* `Engine.serve`, `Engine.serveAll`, `Engine.replies`: the engine after requests, and what it has replied.
* `Firm`: a property that every single change keeps, also those that only requests make.
* `Engine.steady_coherent`, `Engine.firm_coherent`: **copies and files agree whatever is asked**, as long as page
  numbers have room. No lock is needed for it.
-/

namespace HeapStore

/-- What an engine is asked for. -/
inductive Request where
  | call (c : Call)
  | checkpoint
  | flushPage (id : PageId)
  | flushPages (tx : TxId)
  | flushAll
  | discardPages (tx : TxId)
  | remove (id : PageId)
  | unlock (tx : TxId) (id : PageId)
  | mark (id : PageId) (tx : TxId)

/-- What it replies. -/
inductive Reply where
  | answer (a : Answer)
  | done (result : Except AccessFault Unit)
  | checked (result : Except EngineFault Unit)

namespace Engine

variable {e e' : Engine} {id : PageId}

/-- One request. -/
def serve (e : Engine) : Request → Reply × Engine
  | .call c => (.answer (e.call c).1, (e.call c).2)
  | .checkpoint => (.checked e.checkpoint.1, e.checkpoint.2)
  | .flushPage id => (.done (e.flushPage id).1, (e.flushPage id).2)
  | .flushPages tx => (.done (e.flushPages tx).1, (e.flushPages tx).2)
  | .flushAll => (.done e.flushAll.1, e.flushAll.2)
  | .discardPages tx => (.done (e.discardPages tx).1, (e.discardPages tx).2)
  | .remove id => (.done (.ok ()), { e with cache := e.cache.remove id })
  | .unlock tx id => (.done (.ok ()), e.unlock tx id)
  | .mark id tx => (.done (e.mark id (some tx)).1, (e.mark id (some tx)).2)

/-- The engine after some requests. -/
def serveAll (e : Engine) : List Request → Engine
  | [] => e
  | r :: requests => (e.serve r).2.serveAll requests

/-- The replies to some requests. -/
def replies (e : Engine) : List Request → List Reply
  | [] => []
  | r :: requests => (e.serve r).1 :: (e.serve r).2.replies requests

theorem serveAll_append (requests requests' : List Request) :
    ∀ e : Engine, e.serveAll (requests ++ requests') = (e.serveAll requests).serveAll requests' := by
  induction requests with
  | nil => exact fun _ => rfl
  | cons r requests ih => exact fun e => ih (e.serve r).2

/-! ## What every request keeps -/

/-- Each single change to an engine keeps the property, also where copies and locks go before their time. -/
structure Firm (P : Engine → Prop) : Prop extends Stable P where
  remove : ∀ {e : Engine} (id : PageId), P e → P { e with cache := e.cache.remove id }
  unlock : ∀ {e : Engine} (tx : TxId) (id : PageId), P e → P (e.unlock tx id)

namespace Firm

variable {P : Engine → Prop} (hP : Firm P)

include hP

theorem mark (h : P e) (id : PageId) (tx : TxId) : P (e.mark id (some tx)).2 := by
  unfold Engine.mark
  split
  · exact h
  · next f hf =>
    obtain ⟨-, rfl⟩ := Cache.mem_of_find? hf
    have hm : e.cache.find? (f.page.mark (some tx)).id = some f := hf
    exact hP.revise h hm ⟨rfl, rfl, rfl, rfl, nofun⟩ rfl

theorem serve (h : P e) (r : Request) : P (e.serve r).2 := by
  cases r with
  | call c => exact hP.call h c
  | checkpoint => exact hP.flushEach e.cache.pages h
  | flushPage id => exact hP.flushPage h id
  | flushPages tx => exact hP.flushEach (e.cache.owned tx) h
  | flushAll => exact hP.flushEach e.cache.pages h
  | discardPages tx => exact hP.discardEach (e.cache.owned tx) h
  | remove id => exact hP.remove id h
  | unlock tx id => exact hP.unlock tx id h
  | mark id tx => exact hP.mark h id tx

theorem serveAll (requests : List Request) : ∀ {e : Engine}, P e → P (e.serveAll requests) := by
  induction requests with
  | nil => exact fun h => h
  | cons r requests ih => exact fun h => ih (hP.serve h r)

end Firm

theorem firm_grows (e : Engine) : Firm (Outgrows e) where
  toStable := stable_grows e
  remove _ h := h
  unlock _ _ h := h

/-- If page numbers have room after all requests, they have it after some of them. -/
theorem small_of_served (h : e.Present) (requests requests' : List Request)
    (hs : (e.serveAll (requests ++ requests')).Small) : (e.serveAll requests).Small := by
  have hp : (e.serveAll requests).Present := ((firm_grows e).serveAll requests (Outgrows.refl e)).present h
  rw [serveAll_append] at hs
  exact ((firm_grows (e.serveAll requests)).serveAll requests' (Outgrows.refl _)).small hp hs

/-! ## Copies and files -/

/-- Locks and the numbers of transactions do not matter. -/
theorem Coherent.locks (h : e.Coherent) (locks : LockTable) (n : Nat) : Coherent { e with locks, lastTx := n } :=
  ⟨h.catalog, ⟨h.present.held⟩, h.nodup, h.copies⟩

theorem Coherent.remove (h : e.Coherent) (id : PageId) : Coherent { e with cache := e.cache.remove id } :=
  h.cache (Cache.nodup_remove h.nodup) fun _ hf => .inl (Cache.mem_remove.1 hf).1

/-- **Copies and files agree whatever is done to locks and copies.** -/
theorem steady_coherent : Steady Coherent :=
  .of_copies Coherent.locks Coherent.nodup Coherent.cache fun h hf hr => h.revise hf hr

/-- A changed copy and its file agree once it is written. -/
theorem Coherent.flush {f : Frame} {file : TableFile} {disk : Disk} (h : e.Coherent)
    (hf : e.cache.find? f.page.id = some f) (hc : f.isClean = false) (hfile : e.file f.page.id.table = .ok file)
    (hw : file.write e.disk f.page = .ok disk) :
    Coherent { e with disk, cache := e.cache.update f.page.id (f.page.mark none).settle } := by
  obtain ⟨e', hrun, hs⟩ := flushPage_total h f.page.id
  have he : e.flushPage f.page.id =
      (.ok (), { e with disk, cache := e.cache.update f.page.id (f.page.mark none).settle }) := by
    unfold flushPage
    simp only [hf, hc, hfile, hw]
    rfl
  rw [he] at hrun
  cases hrun
  exact hs.coherent

theorem Coherent.append {table : TableId} {file : TableFile} {number : Nat} {disk : Disk} (h : e.Coherent)
    (hf : e.file table = .ok file) (ha : file.append e.disk = .ok (number, disk)) (hs : e.Small)
    (hs' : { e with disk }.Small) : Coherent { e with disk } := by
  obtain ⟨disk', ha', hl⟩ := append_bytes h hf hs
  rw [ha] at ha'
  cases ha'
  exact hl.coherent hf h hs hs'

/-- What holds of an engine as long as page numbers have room, if each single change keeps it where they have. -/
theorem firm_small {P : Engine → Prop} (h : e.Present) (hP : Steady P)
    (happend : ∀ {e : Engine} {table : TableId} {file : TableFile} {number : Nat} {disk : Disk}, P e →
      e.file table = .ok file → file.append e.disk = .ok (number, disk) → e.Small → { e with disk }.Small →
      P { e with disk })
    (hflush : ∀ {e : Engine} {f : Frame} {file : TableFile} {disk : Disk}, P e →
      e.cache.find? f.page.id = some f → f.isClean = false → e.file f.page.id.table = .ok file →
      file.write e.disk f.page = .ok disk →
      P { e with disk, cache := e.cache.update f.page.id (f.page.mark none).settle })
    (hlocks : ∀ {e : Engine} (locks : LockTable) (n : Nat), P e → P { e with locks, lastTx := n })
    (hremove : ∀ {e : Engine} (id : PageId), P e → P { e with cache := e.cache.remove id }) :
    Firm fun e' => e.Outgrows e' ∧ (e'.Small → P e') where
  grant hp hg := ⟨hp.1, fun hs => hP.grant (hp.2 (small_of_disk rfl rfl hs)) hg⟩
  unlockAll tx hp := ⟨hp.1, fun hs => hP.unlockAll tx (hp.2 (small_of_disk rfl rfl hs))⟩
  touch id hp := ⟨hp.1, fun hs => hP.touch id (hp.2 (small_of_disk rfl rfl hs))⟩
  evict hp hc := ⟨hp.1, fun hs => hP.evict (hp.2 (small_of_disk rfl rfl hs)) hc⟩
  add hp hn hst := ⟨hp.1, fun hs => hP.add (hp.2 (small_of_disk rfl rfl hs)) hn hst⟩
  reread hp hst := ⟨hp.1, fun hs => hP.reread (hp.2 (small_of_disk rfl rfl hs)) hst⟩
  revise hp hf hr hd := ⟨hp.1, fun hs => hP.revise (hp.2 (small_of_disk rfl rfl hs)) hf hr hd⟩
  append {e'} _ _ _ disk hp hf ha := by
    refine ⟨(stable_grows e).append hp.1 hf ha, fun hs => ?_⟩
    have ho : e'.Outgrows { e' with disk } := (stable_grows e').append (Outgrows.refl e') hf ha
    have hs' : e'.Small := ho.small (hp.1.present h) hs
    exact happend (hp.2 hs') hf ha hs' hs
  flush {e'} _ _ disk hp hf hc hfile hw := by
    refine ⟨(stable_grows e).flush hp.1 hf hc hfile hw, fun hs => ?_⟩
    have ho : e'.Outgrows { e' with disk } := ⟨rfl, TableFile.grows_of_write hw⟩
    have hs' : e'.Small := ho.small (hp.1.present h) (small_of_disk rfl rfl hs)
    exact hflush (hp.2 hs') hf hc hfile hw
  next _ hp := ⟨hp.1, fun hs => hlocks _ _ (hp.2 (small_of_disk rfl rfl hs))⟩
  remove id hp := ⟨hp.1, fun hs => hremove id (hp.2 (small_of_disk rfl rfl hs))⟩
  unlock _ _ hp := ⟨hp.1, fun hs => hlocks _ _ (hp.2 (small_of_disk rfl rfl hs))⟩

/-- **Copies and files agree whatever is asked**, as long as page numbers have room. -/
theorem firm_coherent (h : e.Present) : Firm fun e' => e.Outgrows e' ∧ (e'.Small → e'.Coherent) :=
  firm_small h steady_coherent Coherent.append Coherent.flush (fun locks n h => h.locks locks n) fun id h => h.remove id

theorem Coherent.serveAll (h : e.Coherent) (requests : List Request) (hs : (e.serveAll requests).Small) :
    (e.serveAll requests).Coherent :=
  ((firm_coherent h.present).serveAll requests ⟨Outgrows.refl e, fun _ => h⟩).2 hs

end Engine

namespace Sample

/-- Page numbers have room after requests that leave a short file. -/
theorem small_served {requests : List Request}
    (h : ((engine.serveAll requests).fileBytes table).length < Paged.numberBound) :
    (engine.serveAll requests).Small :=
  small_of_outgrows ((Engine.firm_grows engine).serveAll requests (Engine.Outgrows.refl engine)) h

end Sample

end HeapStore
