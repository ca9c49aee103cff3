import HeapStore.Proofs.Lasting

/-!
# Going back

What the end of a transaction without its changes does to the engine, copy by copy: exactly its own changed copies are
read again, each in its place, and exactly its own locks go.

* `Engine.discardEach_eq`: dropping the changes of some pages in closed form.
* `Engine.RollsBack`: the engine before and after. `Engine.complete_rollsBack` says that **an end without changes is
  this and nothing else.**
* `Engine.complete_again`: **a transaction that has ended can end again, and nothing happens.**
-/

namespace HeapStore.Engine

variable {e e' : Engine} {tx tx' : TxId} {id : PageId} {keep : Bool} {ids : List PageId}

/-- A copy with its page read again, if it can be. -/
def reread (e : Engine) (f : Frame) : Frame :=
  match e.stored f.page.id with
  | .ok page => { f with page }
  | .error _ => f

/-- The engine with other copies in the cache. -/
def withFrames (e : Engine) (frames : List Frame) : Engine := { e with cache := { e.cache with frames } }

theorem reread_of_stored {f : Frame} {page : Page} (h : e.stored f.page.id = .ok page) :
    e.reread f = { f with page } := by
  unfold reread
  rw [h]

/-- **Dropping the changes of pages reads each of their copies again in its place.** -/
theorem discardEach_eq (ids : List PageId) : ∀ {e : Engine}, (∀ id ∈ ids, ∃ page, e.stored id = .ok page) →
    discardEach ids e =
      (.ok (), e.withFrames (e.cache.frames.map fun f => if f.page.id ∈ ids then e.reread f else f)) := by
  induction ids with
  | nil =>
    intro e _
    have hsame : (e.cache.frames.map fun f => if f.page.id ∈ [] then e.reread f else f) = e.cache.frames := by
      simp
    rw [hsame]
    rfl
  | cons id ids ih =>
    intro e h
    obtain ⟨page, hpage⟩ := h id List.mem_cons_self
    have hid := id_of_stored hpage
    let e1 : Engine := { e with cache := e.cache.update id page }
    -- what is stored does not depend on the copies, so the rest is read as it would have been before
    have hrest := ih (e := e1) fun id' hm => h id' (List.mem_cons_of_mem _ hm)
    have hframes : (e1.cache.frames.map fun f => if f.page.id ∈ ids then e1.reread f else f) =
        e.cache.frames.map fun f => if f.page.id ∈ id :: ids then e.reread f else f := by
      have hread : e1.reread = e.reread := rfl
      have hupdate : e1.cache.frames = e.cache.frames.map fun f => if f.isOf id then { f with page } else f := rfl
      rw [hupdate, hread, List.map_map]
      apply List.map_congr_left
      intro f _
      simp only [Function.comp]
      by_cases hf : f.page.id = id
      · have hstored : e.stored f.page.id = .ok page := by
          rw [hf]
          exact hpage
        have hagain : e.reread { f with page } = { f with page } :=
          reread_of_stored (f := { f with page }) (by rw [hid]; exact hpage)
        rw [if_pos (Frame.isOf_iff.2 hf), reread_of_stored hstored, hagain]
        simp [hf]
      · have hof : ¬ f.isOf id = true := fun ho => hf (Frame.isOf_iff.1 ho)
        rw [if_neg hof]
        simp [hf]
    unfold discardEach
    rw [hpage]
    rw [hframes] at hrest
    exact hrest

/-- The changes of a transaction are gone, and so are its locks. All else is as it was. -/
structure RollsBack (tx : TxId) (e e' : Engine) : Prop where
  /-- Copy by copy: what the transaction had changed is as the disk has it and clean, and the others are the same. -/
  copies : List.Forall₂ (fun f g => if f.page.dirty = some tx then
      g.copy = f.copy ∧ e.stored f.page.id = .ok g.page ∧ g.page.dirty = none
    else g = f) e.cache.frames e'.cache.frames
  order : e'.cache.pages = e.cache.pages
  /-- Besides these copies only locks are others. -/
  rest : e' = { e.withFrames e'.cache.frames with locks := e'.locks }
  unlocked : ∀ id, e'.locks.mode? tx id = none
  unlisted : e'.locks.lockedPages tx = []
  others : ∀ tx' ≠ tx, (∀ id, e'.locks.mode? tx' id = e.locks.mode? tx' id) ∧
    e'.locks.lockedPages tx' = e.locks.lockedPages tx'

theorem mem_owned_of_mem (hn : e.cache.pages.Nodup) {f : Frame} (hm : f ∈ e.cache.frames) :
    f.page.id ∈ e.cache.owned tx ↔ f.page.dirty = some tx := by
  have hdraft : e.cache.draft tx f.page.id = _ := Cache.draft_of_find? (Cache.find?_of_mem hn hm)
  rw [Cache.mem_owned hn, hdraft]
  split <;> simp [*]

/-- **An end without changes drops exactly the changes and the locks of the transaction.** -/
theorem complete_rollsBack (h : e.Coherent) (hl : e.locks.Sound) (tx : TxId) :
    ∃ e', e.complete tx false = (.ok (), e') ∧ RollsBack tx e e' := by
  have hstored : ∀ f ∈ e.cache.frames, ∃ page, e.stored f.page.id = .ok page := by
    intro f hm
    obtain ⟨page, hpage, -⟩ := h.copies f hm
    exact ⟨page, hpage⟩
  have hrun := discardEach_eq (e.cache.owned tx) (e := e) fun id hm => by
    obtain ⟨f, hf, rfl⟩ := List.mem_map.1 (Cache.mem_pages_of_owned hm)
    exact hstored f hf
  refine ⟨_, by unfold complete discardPages; rw [if_neg Bool.false_ne_true, hrun], ?_, ?_, rfl, ?_, ?_, ?_⟩
  · -- a copy is one of the pages that are read again if and only if its changes are those of the transaction
    apply List.forall₂_map_right_iff.2
    apply List.forall₂_same.2
    intro f hm
    obtain ⟨page, hpage⟩ := hstored f hm
    simp only [mem_owned_of_mem h.nodup hm]
    split
    · rw [reread_of_stored hpage]
      exact ⟨rfl, hpage, clean_of_stored hpage⟩
    · rfl
  · have hid : ∀ f ∈ e.cache.frames, (if f.page.id ∈ e.cache.owned tx then e.reread f else f).page.id = f.page.id := by
      intro f hm
      obtain ⟨page, hpage⟩ := hstored f hm
      split
      · rw [reread_of_stored hpage]
        exact id_of_stored hpage
      · rfl
    have hframes : List.map (fun f : Frame => f.page.id)
        (e.cache.frames.map fun f => if f.page.id ∈ e.cache.owned tx then e.reread f else f) =
          e.cache.frames.map fun f => f.page.id := by
      rw [List.map_map]
      exact List.map_congr_left hid
    exact hframes
  · intro id
    have hm := LockTable.mode?_releaseAll hl tx tx id
    rw [if_pos rfl] at hm
    exact hm
  · exact LockTable.lockedPages_releaseAll hl
  · intro tx' ht
    exact ⟨fun id => LockTable.mode?_releaseAll_of_ne ht, LockTable.lockedPages_releaseAll_of_ne ht⟩

/-! ## Ending again -/

/-- A transaction that has changed no page and holds none ends without a trace. -/
theorem complete_of_nothing (hc : e.cache.owned tx = []) (hl : e.locks.lockedPages tx = []) (keep : Bool) :
    e.complete tx keep = (.ok (), e) := by
  have hunlock : e.unlockAll tx = e := by
    unfold unlockAll
    rw [LockTable.releaseAll_table, if_pos hl]
  unfold complete flushPages discardPages
  rw [hc]
  cases keep with
  | true =>
    simp only [if_true, flushEach]
    rw [hunlock]
  | false =>
    simp only [Bool.false_eq_true, if_false, discardEach]
    rw [hunlock]

/-- The pages of a transaction are clean once they are settled. -/
theorem Settles.owned_eq_nil {b : PageId → Bytes} (hs : Settles (e.cache.owned tx) b e e') (hn : e.cache.pages.Nodup) :
    e'.cache.owned tx = [] := by
  rw [List.eq_nil_iff_forall_not_mem]
  intro id hm
  have hdraft := hs.draft tx id
  rw [Cache.mem_owned hs.coherent.nodup] at hm
  split at hdraft
  · rw [hdraft] at hm
    cases hm
  · next ho =>
    rw [hdraft] at hm
    exact ho ((Cache.mem_owned hn).2 hm)

/-- **A transaction that has ended can end again, in either way, and nothing happens.** -/
theorem complete_again (h : e.Coherent) (hl : e.locks.Sound) (tx : TxId) (keep keep' : Bool) :
    (e.complete tx keep).1 = .ok () ∧
      (e.complete tx keep).2.complete tx keep' = (.ok (), (e.complete tx keep).2) := by
  have hend : ∃ e1 b, e.complete tx keep = (.ok (), e1.unlockAll tx) ∧ Settles (e.cache.owned tx) b e e1 := by
    cases keep with
    | true =>
      obtain ⟨e1, hrun, hs⟩ := flushEach_ok (e.cache.owned tx) h
      refine ⟨e1, _, ?_, hs⟩
      unfold complete flushPages
      rw [if_pos rfl, hrun]
    | false =>
      obtain ⟨e1, hrun, hs, -, -⟩ := discardEach_ok (e.cache.owned tx) h fun _ => Cache.mem_pages_of_owned
      refine ⟨e1, _, ?_, hs⟩
      unfold complete discardPages
      rw [if_neg Bool.false_ne_true, hrun]
  obtain ⟨e1, b, hrun, hs⟩ := hend
  have hsound : e1.locks.Sound := by
    rw [hs.locks]
    exact hl
  have hlocks : (e1.unlockAll tx).locks.lockedPages tx = [] := LockTable.lockedPages_releaseAll hsound
  have howned : (e1.unlockAll tx).cache.owned tx = [] := hs.owned_eq_nil h.nodup
  rw [hrun]
  exact ⟨rfl, complete_of_nothing howned hlocks keep'⟩

end HeapStore.Engine
