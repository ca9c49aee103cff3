import HeapStore.Proofs.Durability
import HeapStore.Proofs.FirstFree
import HeapStore.Proofs.PageEdits
import HeapStore.Proofs.Rollback
import HeapStore.Proofs.Standing

/-!
# Checkpoints

A checkpoint writes the changes of all transactions, whether they have ended or not. From then on the disk has every page
as it was seen just before, and what has been written so cannot be rolled back any more.

* `Page.flushed`: a page once its changes are written. `Engine.flushEach_eq`: **writing pages in closed form**, copy by
  copy.
* `Engine.Persists`: the engine before and after a checkpoint, what whoever opens its files then finds, and what later
  checkpoints and ends of transactions do.
* `Engine.checkpoint_persists`: **a checkpoint always comes to this**, as long as tables stay.
-/

namespace HeapStore

/-! ## Pages that are written -/

/-- The page once its changes are written: it has none any more, and its image is what was written. -/
def Page.flushed (p : Page) : Page := if p.dirty = none then p else (p.mark none).settle


namespace Page

variable {p : Page}

theorem flushed_of_clean (h : p.dirty = none) : p.flushed = p := if_pos h

theorem flushed_of_dirty (h : p.dirty ≠ none) : p.flushed = (p.mark none).settle := if_neg h

theorem dirty_flushed (p : Page) : p.flushed.dirty = none := by
  by_cases h : p.dirty = none
  · rw [flushed_of_clean h]
    exact h
  · rw [flushed_of_dirty h]
    rfl

/-- Header and records stay as they are. -/
theorem matches_flushed (p : Page) : p.Matches p.flushed := by
  unfold flushed
  split
  · exact .refl p
  · exact p.matches_settle none

theorem contents_flushed (p : Page) : p.flushed.contents = p.contents := by
  unfold flushed
  split <;> rfl

end Page

namespace Frame

variable {f : Frame} {ids : List PageId}

/-- The copy once the changes on some pages are written. -/
def flushed (f : Frame) (ids : List PageId) : Frame :=
  if f.page.id ∈ ids then { f with page := f.page.flushed } else f

theorem flushed_of_mem (h : f.page.id ∈ ids) : f.flushed ids = { f with page := f.page.flushed } := if_pos h

theorem flushed_of_not_mem (h : f.page.id ∉ ids) : f.flushed ids = f := if_neg h

theorem flushed_of_clean (h : f.page.dirty = none) (ids : List PageId) : f.flushed ids = f := by
  unfold flushed
  rw [Page.flushed_of_clean h]
  exact ite_self f

theorem matches_flushed (f : Frame) (ids : List PageId) : f.page.Matches (f.flushed ids).page := by
  unfold flushed
  split
  · exact f.page.matches_flushed
  · exact .refl f.page

/-- One page after others. -/
theorem flushed_cons (f : Frame) (id : PageId) (ids : List PageId) :
    (f.flushed [id]).flushed ids = f.flushed (id :: ids) := by
  by_cases h : f.page.id = id
  · have hclean : (f.flushed [id]).page.dirty = none := by
      rw [flushed_of_mem (List.mem_singleton.2 h)]
      exact f.page.dirty_flushed
    rw [flushed_of_clean hclean, flushed_of_mem (List.mem_singleton.2 h),
      flushed_of_mem (List.mem_cons.2 (.inl h))]
  · rw [flushed_of_not_mem fun hm => h (List.mem_singleton.1 hm)]
    unfold flushed
    simp only [List.mem_cons, h, false_or]

end Frame

/-! ## Files of the same length -/

namespace Disk

variable {d d' d'' : Disk} {here : Location} {bytes bytes' : Bytes}

/-- The same places have files, each as long as it was. -/
def SameLengths (d d' : Disk) : Prop := ∀ here, (d'.held here).map List.length = (d.held here).map List.length

theorem SameLengths.refl (d : Disk) : d.SameLengths d := fun _ => rfl

theorem SameLengths.trans (h : d.SameLengths d') (h' : d'.SameLengths d'') : d.SameLengths d'' :=
  fun here => (h' here).trans (h here)

theorem sameLengths_set (hb : d.held here = .ok bytes) (hl : bytes'.length = bytes.length) :
    d.SameLengths (d.set here bytes') := by
  intro there
  by_cases he : here = there
  · subst he
    rw [held_set_self (not_isAbove_of_held hb), hb]
    exact congrArg Except.ok hl
  · rw [held_set_ne he]

end Disk

namespace Engine

variable {e e' e'' g : Engine} {tx : TxId} {id : PageId} {f : Frame} {p : Page} {table table' : TableId}
  {ids : List PageId}

/-! ## Writing in closed form -/

/-- The engine with the changes on some pages written: their copies are flushed, and the disk is another one. -/
def withFlushed (e : Engine) (ids : List PageId) (disk : Disk) : Engine :=
  { e.withFrames (e.cache.frames.map (Frame.flushed · ids)) with disk }

/-- Nothing has changed on these pages. -/
theorem withFlushed_of_clean (h : ∀ f ∈ e.cache.frames, f.flushed ids = f) : e.withFlushed ids e.disk = e := by
  have hframes : e.cache.frames.map (Frame.flushed · ids) = e.cache.frames :=
    (List.map_congr_left h).trans (List.map_id' _)
  unfold withFlushed
  rw [hframes]
  rfl

/-- One page after others. -/
theorem withFlushed_cons {disk disk' : Disk} (id : PageId) (ids : List PageId) :
    (e.withFlushed [id] disk).withFlushed ids disk' = e.withFlushed (id :: ids) disk' := by
  have hframes : (e.cache.frames.map (Frame.flushed · [id])).map (Frame.flushed · ids) =
      e.cache.frames.map (Frame.flushed · (id :: ids)) := by
    rw [List.map_map]
    exact List.map_congr_left fun f _ => f.flushed_cons id ids
  unfold withFlushed
  rw [← hframes]
  rfl

/-- **Writing a page flushes its copy**, and no file gets another length. -/
theorem flushPage_eq (h : e.Coherent) (id : PageId) :
    ∃ disk, e.flushPage id = (.ok (), e.withFlushed [id] disk) ∧ e.disk.SameLengths disk := by
  -- a page that has no changes is left alone, and so are the copies
  have hnothing : (∀ f ∈ e.cache.frames, f.page.id = id → f.page.dirty = none) → e.withFlushed [id] e.disk = e := by
    refine fun hclean => withFlushed_of_clean fun f hm => ?_
    by_cases hid : f.page.id = id
    · exact Frame.flushed_of_clean (hclean f hm hid) [id]
    · exact Frame.flushed_of_not_mem fun hin => hid (List.mem_singleton.1 hin)
  cases hfind : e.cache.find? id with
  | none =>
    refine ⟨e.disk, ?_, .refl _⟩
    rw [hnothing fun f hm hid => absurd (hid ▸ Cache.mem_pages_of_mem hm) (Cache.find?_eq_none_iff.1 hfind)]
    unfold flushPage
    rw [hfind]
  | some f =>
    obtain ⟨hm, rfl⟩ := Cache.mem_of_find? hfind
    -- the page has no other copy
    have hone : ∀ g ∈ e.cache.frames, g.page.id = f.page.id → g = f := by
      intro g hg hid
      have hg := Cache.find?_of_mem h.nodup hg
      rw [hid, hfind] at hg
      exact (Option.some.inj hg).symm
    cases hc : f.isClean with
    | true =>
      refine ⟨e.disk, ?_, .refl _⟩
      rw [hnothing fun g hg hid => by rw [hone g hg hid]; exact Frame.isClean_iff.1 hc]
      unfold flushPage
      rw [hfind]
      simp only [hc, if_true]
    | false =>
      obtain ⟨file, q, hf, hn, hdec, hr⟩ := h.of_mem hm
      obtain ⟨-, -, hsize, -⟩ := Page.fields_of_decode hdec
      have hlen : f.page.encode.length = file.pageSize := f.page.length_encode.trans (hr.size.trans hsize)
      have hlt : f.page.id.number < Paged.count file.pageSize (e.fileBytes f.page.id.table) := by
        rw [← pages_eq hf]
        exact hn
      have hw := write_eq_overwrite h hf hn hlen rfl rfl
      have hframes : (e.cache.update f.page.id (f.page.mark none).settle).frames =
          e.cache.frames.map (Frame.flushed · [f.page.id]) := by
        refine List.map_congr_left fun g hg => ?_
        by_cases hid : g.page.id = f.page.id
        · have hdirty : f.page.dirty ≠ none := fun hd => by
            rw [Frame.isClean_iff.2 hd] at hc
            cases hc
          rw [if_pos (Frame.isOf_iff.2 hid), Frame.flushed_of_mem (List.mem_singleton.2 hid), hone g hg hid,
            Page.flushed_of_dirty hdirty]
        · rw [if_neg fun ho => hid (Frame.isOf_iff.1 ho),
            Frame.flushed_of_not_mem fun hin => hid (List.mem_singleton.1 hin)]
      refine ⟨(e.overwrite file f.page.id f.page.encode).disk, ?_,
        Disk.sameLengths_set (h.present.held hf) (Paged.length_overwrite_page hlt hlen)⟩
      unfold flushPage
      rw [hfind]
      simp only [hc, Bool.false_eq_true, if_false, hf, hw]
      unfold withFlushed
      rw [← hframes]
      rfl

/-- **Writing pages flushes their copies**, and no file gets another length. -/
theorem flushEach_eq (ids : List PageId) : ∀ {e : Engine}, e.Coherent →
    ∃ disk, flushEach ids e = (.ok (), e.withFlushed ids disk) ∧ e.disk.SameLengths disk := by
  induction ids with
  | nil =>
    intro e _
    have hnone : e.withFlushed [] e.disk = e := withFlushed_of_clean fun _ _ => Frame.flushed_of_not_mem List.not_mem_nil
    refine ⟨e.disk, ?_, .refl _⟩
    rw [hnone]
    rfl
  | cons id ids ih =>
    intro e h
    obtain ⟨disk, hrun, hlen⟩ := flushPage_eq h id
    obtain ⟨e1, hrun', hs⟩ := flushPage_total h id
    rw [hrun] at hrun'
    cases hrun'
    obtain ⟨disk', hrest, hlen'⟩ := ih hs.coherent
    rw [withFlushed_cons] at hrest
    refine ⟨disk', ?_, hlen.trans hlen'⟩
    unfold flushEach
    rw [hrun]
    exact hrest

/-- Where no copy holds changes nothing is written. -/
theorem flushEach_of_clean (h : ∀ f ∈ e.cache.frames, f.page.dirty = none) (ids : List PageId) :
    flushEach ids e = (.ok (), e) := by
  induction ids with
  | nil => rfl
  | cons id ids ih =>
    have hpage : e.flushPage id = (.ok (), e) := by
      unfold flushPage
      cases hf : e.cache.find? id with
      | none => rfl
      | some f =>
        have hc := Frame.isClean_iff.2 (h f (Cache.mem_of_find? hf).1)
        simp only [hc, if_true]
    unfold flushEach
    rw [hpage]
    exact ih

theorem checkpoint_of_clean (h : ∀ f ∈ e.cache.frames, f.page.dirty = none) : e.checkpoint = (.ok (), e) := by
  unfold checkpoint flushAll
  rw [flushEach_of_clean h]
  rfl

/-- Once all pages are written each copy is flushed. -/
theorem flushed_of_mem (hm : f ∈ e.cache.frames) : f.flushed e.cache.pages = { f with page := f.page.flushed } :=
  Frame.flushed_of_mem (Cache.mem_pages_of_mem hm)

theorem clean_withFlushed (disk : Disk) : ∀ f ∈ (e.withFlushed e.cache.pages disk).cache.frames, f.page.dirty = none := by
  intro g hg
  obtain ⟨f, hm, rfl⟩ := List.mem_map.1 hg
  rw [flushed_of_mem hm]
  exact f.page.dirty_flushed

/-! ## What is stored then -/

theorem Settles.pages_eq {b : PageId → Bytes} (hs : Settles ids b e e') (table : TableId) :
    e'.pages table = e.pages table := by
  have hfile := file_congr hs.catalog table
  cases hf : e.file table with
  | error fault =>
    rw [hf] at hfile
    rw [pages_of_error hf, pages_of_error hfile]
  | ok file =>
    rw [hf] at hfile
    rw [Engine.pages_eq hf, Engine.pages_eq hfile, (hs.rewritten hf).count_eq]

/-- A page is read as before where its bytes are the same and its file has as many pages. -/
theorem Present.stored_congr (h : e.Present) (h' : e'.Present) (hc : e'.catalog = e.catalog)
    (hp : e'.pages id.table = e.pages id.table) (hb : e'.pageBytes id = e.pageBytes id) : e'.stored id = e.stored id := by
  have hfile := file_congr hc id.table
  cases hf : e.file id.table with
  | error fault =>
    rw [hf] at hfile
    unfold stored
    rw [hf, hfile]
    rfl
  | ok file =>
    rw [hf] at hfile
    rcases Nat.lt_or_ge id.number (e.pages id.table) with hn | hn
    · rw [h.stored_of_lt hf hn ⟨0⟩, h'.stored_of_lt hfile (by rw [hp]; exact hn) ⟨0⟩, view_stored_eq hf,
        view_stored_eq hfile, hb]
    · rw [h.stored_of_le hf hn, h'.stored_of_le hfile (by rw [hp]; exact hn), hp]

/-- **Each page is stored as it was seen**, once the changes on all copies are written. -/
theorem Settles.stored_eq_seen (h : e.Coherent) (hs : Settles e.cache.pages (e.written e.cache.pages) e e')
    (hframes : e'.cache.frames = e.cache.frames.map (Frame.flushed · e.cache.pages)) (id : PageId) :
    e'.stored id = (e.seen id).map Page.flushed := by
  cases hfind : e.cache.find? id with
  | some f =>
    obtain ⟨hm, rfl⟩ := Cache.mem_of_find? hfind
    have hflushed : (⟨f.copy, f.page.flushed⟩ : Frame) ∈ e'.cache.frames := by
      rw [hframes]
      exact List.mem_map.2 ⟨f, hm, flushed_of_mem hm⟩
    -- a copy without changes is the stored page
    obtain ⟨q, hq, hr⟩ := hs.coherent.copies _ hflushed
    have hpage : f.page.flushed = q := hr.clean f.page.dirty_flushed
    have hid : f.page.flushed.id = f.page.id := f.page.matches_flushed.id
    rw [← hpage] at hq
    rw [hid] at hq
    rw [hq, seen_of_find? hfind]
    rfl
  | none =>
    have hsame : e'.stored id = e.stored id := by
      refine h.present.stored_congr hs.coherent.present hs.catalog (hs.pages_eq _) ?_
      rw [hs.bytes]
      exact if_neg (Cache.find?_eq_none_iff.1 hfind)
    rw [hsame, seen_of_none hfind]
    cases hq : e.stored id with
    | error fault => rfl
    | ok q => exact congrArg Except.ok (Page.flushed_of_clean (clean_of_stored hq)).symm

theorem Present.base_page (h : e.Present) (hn : id.number < e.pages id.table) : e.base.page id = e.stored id := by
  obtain ⟨file, hf⟩ := exists_file hn
  exact (View.page_of_none rfl).trans (h.stored_of_lt hf hn ⟨0⟩).symm

/-- A page that is stored as it was seen has the contents that were seen. -/
theorem fieldsAt_of_stored (hp : e'.Present) (hs : e'.stored id = (e.seen id).map Page.flushed)
    (hn : id.number < e'.pages id.table) (slot : Nat) :
    (e'.Readable id ↔ ∃ p, e.seen id = .ok p) ∧ e'.committed id slot = e.fieldsAt ⟨id, slot⟩ := by
  have hpage : e'.base.page id = (e.seen id).map Page.flushed := (hp.base_page hn).trans hs
  unfold Readable committed fieldsAt
  cases hseen : e.seen id with
  | ok p =>
    rw [hseen] at hpage
    exact ⟨iff_of_true ⟨_, hpage⟩ ⟨p, rfl⟩, by rw [View.contents_of_ok hpage, p.contents_flushed]⟩
  | error fault =>
    rw [hseen] at hpage
    exact ⟨iff_of_false (fun ⟨_, hq⟩ => by rw [hpage] at hq; cases hq) nofun, by rw [View.contents_of_error hpage]⟩

/-- **Whoever opens the files finds what was seen**, if each page is stored as it was seen. -/
theorem Reopens.finds (hg : e'.Reopens g table table') (hp : e'.Present)
    (hs : ∀ id, e'.stored id = (e.seen id).map Page.flushed) (tx : TxId) :
    ∃ (rs : List Record) (fault? : Option AccessFault),
      (g.scan tx table').1 = .ok (rs.map .ok ++ (fault?.map .error).toList) ∧
      (fault? = none ↔ ∀ k < e'.pages table, ∃ p, e.seen ⟨table, k⟩ = .ok p) ∧
      Lists (fun place fields => place.page.table = table' ∧
        (∀ k ≤ place.page.number, ∃ p, e.seen ⟨table, k⟩ = .ok p) ∧
        e.fieldsAt ⟨⟨table, place.page.number⟩, place.slot⟩ = some fields) rs := by
  obtain ⟨rs, fault?, hscan, hfault, hlist⟩ := hg.scan tx
  obtain ⟨file, file', hf, hf', -, hz, hbytes⟩ := hg.same
  have hpages : g.pages table' = e'.pages table := by
    rw [pages_eq hf, pages_eq hf', hz, hbytes]
  have hin : ∀ {k : Nat}, k < e'.pages table → ∀ slot, (e'.Readable ⟨table, k⟩ ↔ ∃ p, e.seen ⟨table, k⟩ = .ok p) ∧
      e'.committed ⟨table, k⟩ slot = e.fieldsAt ⟨⟨table, k⟩, slot⟩ :=
    fun {k} hk slot => fieldsAt_of_stored hp (hs ⟨table, k⟩) hk slot
  have hbehind : ∀ {k : Nat}, e'.pages table ≤ k → e'.Readable ⟨table, k⟩ ∧ ∀ slot, e'.committed ⟨table, k⟩ slot = none :=
    fun {k} hk => hg.readable_behind (by rw [hpages]; exact hk)
  have hunseen : ∀ {k : Nat}, e'.pages table ≤ k → ¬ ∃ p, e.seen ⟨table, k⟩ = .ok p := by
    rintro k hk ⟨p, hseen⟩
    have hnone : e'.stored ⟨table, k⟩ = _ := hp.stored_of_le hf hk
    rw [hs, hseen] at hnone
    cases hnone
  refine ⟨rs, fault?, hscan, hfault.trans ⟨fun hall k hk => (hin hk 0).1.1 (hall k), fun hall k => ?_⟩,
    hlist.congr fun place fields => and_congr_right fun _ => ?_⟩
  · rcases Nat.lt_or_ge k (e'.pages table) with hk | hk
    · exact (hin hk 0).1.2 (hall k hk)
    · exact (hbehind hk).1
  · rcases Nat.lt_or_ge place.page.number (e'.pages table) with hn | hn
    · rw [(hin hn place.slot).2]
      exact and_congr_left fun _ => forall₂_congr fun k hk => (hin (hk.trans_lt hn) 0).1
    · -- behind the end there is nothing to be read, and nothing was seen
      refine iff_of_false (fun h => ?_) fun h => hunseen hn (h.1 _ le_rfl)
      rw [(hbehind hn).2] at h
      cases h.2

/-! ## Checkpoints -/

/-- A checkpoint was made. The disk has each page as it was seen before, and besides that only marks and images are
others. -/
structure Persists (e e' : Engine) : Prop where
  /-- No copy holds changes any more. -/
  clean : e'.cache.dirtyPages = []
  /-- Copy by copy, in their order: pages keep their header and records. -/
  copies : List.Forall₂ (fun f g => g = { f with page := f.page.flushed } ∧ f.page.Matches g.page)
    e.cache.frames e'.cache.frames
  /-- Besides these copies only the disk is another one, so all locks are held still. -/
  rest : e' = { e.withFrames e'.cache.frames with disk := e'.disk }
  /-- No file has become longer or shorter, and pages without changes were not written over. -/
  lengths : e.disk.SameLengths e'.disk
  rewritten : ∀ {table : TableId} {file : TableFile}, e.file table = .ok file →
    Paged.Rewritten file.pageSize (fun n => (e.cache.unsaved ⟨table, n⟩).isSome) (e.fileBytes table) (e'.fileBytes table)
  /-- The disk has each page as it was seen, with the changes of whoever has made them. -/
  stored : ∀ id, e'.stored id = (e.seen id).map Page.flushed
  /-- Whoever opens the files anew finds by a scan exactly the records that were seen, in their slots, up to a page that
  could not be seen. -/
  reopened : ∀ {g : Engine} {table table' : TableId} (tx : TxId), e'.Reopens g table table' →
    ∃ (rs : List Record) (fault? : Option AccessFault),
      (g.scan tx table').1 = .ok (rs.map .ok ++ (fault?.map .error).toList) ∧
      (fault? = none ↔ ∀ k < e.pages table, ∃ p, e.seen ⟨table, k⟩ = .ok p) ∧
      Lists (fun place fields => place.page.table = table' ∧
        (∀ k ≤ place.page.number, ∃ p, e.seen ⟨table, k⟩ = .ok p) ∧
        e.fieldsAt ⟨⟨table, place.page.number⟩, place.slot⟩ = some fields) rs
  /-- A transaction that changes no page from now on only lets go of its locks when it is aborted. -/
  aborted : ∀ {tx : TxId} {e'' : Engine}, e'.Becomes (· ≠ tx) e'' →
    ∃ locks, e''.abort tx = (.ok (), { e'' with locks }) ∧ (∀ id, locks.mode? tx id = none) ∧
      ∀ tx' ≠ tx, ∀ id, locks.mode? tx' id = e''.locks.mode? tx' id
  /-- Until a transaction changes a page, another checkpoint changes nothing. -/
  again : ∀ {e'' : Engine}, e'.Becomes (fun _ => False) e'' → e''.checkpoint = (.ok (), e'')

/-- A transaction without changes lets go of its locks when it is aborted. -/
theorem Spotless.abort (h : Spotless tx e) (hl : e.locks.Sound) :
    ∃ locks, e.abort tx = (.ok (), { e with locks }) ∧ (∀ id, locks.mode? tx id = none) ∧
      ∀ tx' ≠ tx, ∀ id, locks.mode? tx' id = e.locks.mode? tx' id := by
  have howned : e.cache.owned tx = [] := by
    unfold Cache.owned
    rw [List.map_eq_nil_iff, List.filter_eq_nil_iff]
    exact fun f hm ho => h f hm (Frame.ownedBy_iff.1 ho)
  refine ⟨(e.locks.releaseAll tx).table, ?_, fun id => ?_, fun tx' ht id => LockTable.mode?_releaseAll_of_ne ht⟩
  · unfold Engine.abort complete discardPages
    rw [howned]
    rfl
  · have hm := LockTable.mode?_releaseAll hl tx tx id
    rw [if_pos rfl] at hm
    exact hm

/-- **A checkpoint makes exactly what is seen durable.** An engine was started, and anything has happened to it as long
as its tables stayed and page numbers have room. Then a checkpoint succeeds and writes the changes of all transactions
in place. Whoever opens the files then finds what was seen in the engine just before. Aborting a transaction takes
nothing of it back, unless the transaction has made further changes, and another checkpoint changes nothing. -/
theorem checkpoint_persists (h : e.Standing) : ∃ e', e.checkpoint = (.ok (), e') ∧ Persists e e' := by
  have hcoherent := h.coherent
  obtain ⟨disk, hrun, hlengths⟩ := flushEach_eq e.cache.pages hcoherent
  obtain ⟨e', hrun', hs⟩ := flushEach_ok e.cache.pages hcoherent
  rw [hrun] at hrun'
  cases hrun'
  let e' := e.withFlushed e.cache.pages disk
  have htidy : e'.Tidy := ⟨h.tidy.locks, hs.coherent.nodup⟩
  have hclean : ∀ f ∈ e'.cache.frames, f.page.dirty = none := clean_withFlushed disk
  have hspotless : ∀ tx, Spotless tx e' := fun tx f hm => ne_of_clean (hclean f hm) tx
  have hstored := hs.stored_eq_seen hcoherent rfl
  refine ⟨e', ?_, ?_⟩
  · unfold checkpoint flushAll
    rw [hrun]
    rfl
  constructor
  · refine List.filterMap_eq_nil_iff.2 fun f hm => ?_
    rw [hclean f hm]
    rfl
  · apply List.forall₂_map_right_iff.2
    apply List.forall₂_same.2
    exact fun f hm => ⟨flushed_of_mem hm, f.matches_flushed e.cache.pages⟩
  · rfl
  · exact hlengths
  · exact fun hf => (hs.rewritten hf).imp fun n hn => hn.2
  · exact hstored
  · intro g table table' tx hg
    have hfinds := hg.finds hs.coherent.present hstored tx
    rw [hs.pages_eq] at hfinds
    exact hfinds
  · intro tx e'' hb
    exact (hb.spotless (hspotless tx) fun hne => hne rfl).abort (hb.tidy htidy).locks
  · intro e'' hb
    refine checkpoint_of_clean fun f hm => Option.eq_none_iff_forall_ne_some.2 fun tx => ?_
    exact hb.spotless (hspotless tx) not_false f hm

end Engine

namespace Sample

/-- Requests after which two transactions have changes on two pages, and neither has ended. -/
def unended : List Request :=
  [.call .begin, .call (.insert ⟨1⟩ table (record 5)), .call (.insert ⟨1⟩ table (record 6)), .unlock ⟨1⟩ ⟨table, 0⟩,
    .call .begin, .call (.insert ⟨2⟩ table (record 7))]

/-- The engine after a checkpoint then. -/
def saved : Engine := engine.serveAll (unended ++ [.checkpoint])

theorem createTable_saved : ((empty saved.disk).createTable path "numbers" schema none).1.toOption = some table := by
  decide +kernel

theorem reopens_saved : saved.Reopens (opened saved.disk) table table := by
  obtain ⟨file, hf, hs, hz, -⟩ := file_opened createTable_engine
  obtain ⟨file', hf', hs', hz', -⟩ := file_opened createTable_saved
  have hgrows : engine.Outgrows saved :=
    (Engine.firm_grows engine).serveAll _ (Engine.Outgrows.refl engine)
  have hf1 : saved.file table = .ok file := (Engine.file_congr hgrows.1 table).trans hf
  exact ⟨ready_opened createTable_saved, file, file', hf1, hf', hs'.trans hs.symm, hz'.trans hz.symm, by decide +kernel⟩

theorem standing_unended : (engine.serveAll unended).Standing :=
  (lasting.serveAll unended (small_served (by decide +kernel))).standing

theorem checkpoint_persists_unended : (engine.serveAll unended).Standing ∧
    (engine.serveAll unended).cache.dirtyPages = [(⟨table, 1⟩, ⟨2⟩), (⟨table, 0⟩, ⟨1⟩)] ∧
    saved.Reopens (opened saved.disk) table table ∧
    ∃ e', (engine.serveAll unended).checkpoint = (.ok (), e') ∧ (engine.serveAll unended).Persists e' :=
  ⟨standing_unended, by decide +kernel, reopens_saved, Engine.checkpoint_persists standing_unended⟩

end Sample

end HeapStore
