import HeapStore.Proofs.Requests

/-!
# Copies and files

There are two ways to drop the changes of a page: it can be read again from its file, and its copy knows the bytes
that it was read from. Both give the same page, whatever has been asked of the engine, since a copy and its file go
apart only in the rows that were changed.

* `Agrees`: a copy agrees with the file of its table.
* `Request.flushes`, `Overwrites`: the requests that write, and **writing in place**.
* `Request.discards`, `Rereads`: the requests that drop changes, and reading again.
* `Engine.served_agrees`: **all copies agree with their files**, so writing never fails and makes no file longer, and
  a page whose changes are dropped is what its copy knew it had been.
-/

namespace HeapStore

/-- A copy agrees with the file of its table: the file has the page, holds the bytes that the copy was read from, and
gives the page that these bytes are. That is the copy itself if it has no changes. -/
structure Agrees (file : TableFile) (disk : Disk) (p : Page) : Prop where
  inFile : ∃ n, file.count disk = .ok n ∧ p.id.number < n
  image : ∃ bytes, file.bytes disk = .ok bytes ∧
    Paged.read file.pageSize bytes p.id.number file.pageSize = .ok p.image
  reload : ∃ q, file.read disk p.id = .ok q ∧ p.ofImage = .ok q
  clean : p.dirty = none → file.read disk p.id = .ok p

/-- The request has failed. -/
def Reply.fails : Reply → Bool
  | answer a => a.fails
  | done result => !result.isOk
  | checked result => !result.isOk

/-- The pages that are written if they have changes. -/
def Request.flushes (e : Engine) : Request → Option (List PageId)
  | call (.commit tx) => some (e.cache.owned tx)
  | checkpoint => some e.cache.pages
  | flushPage id => some [id]
  | flushPages tx => some (e.cache.owned tx)
  | flushAll => some e.cache.pages
  | _ => none

/-- The transaction whose changes are dropped. -/
def Request.discards : Request → Option TxId
  | call (.abort tx) => some tx
  | discardPages tx => some tx
  | _ => none

namespace Engine

variable {e e' : Engine} {tx : TxId} {id : PageId} {table : TableId} {file : TableFile} {r : Request}
  {ids : List PageId}

/-- Pages were written in place: each one has the bytes of its copy if it had changes. Nothing else of a file is another
byte, and no file is longer or shorter. -/
structure Overwrites (ids : List PageId) (e e' : Engine) : Prop where
  pages : ∀ id, e'.pageBytes id = e.written ids id
  rewritten : ∀ {table : TableId} {file : TableFile}, e.file table = .ok file →
    Paged.Rewritten file.pageSize (fun n => ⟨table, n⟩ ∈ ids ∧ (e.cache.unsaved ⟨table, n⟩).isSome)
      (e.fileBytes table) (e'.fileBytes table)

/-- The changes of a transaction were dropped: no file is another one, and each page has a copy which is what its
image was. -/
structure Rereads (tx : TxId) (e e' : Engine) : Prop where
  disk : e'.disk = e.disk
  copies : ∀ f ∈ e.cache.frames, f.page.dirty = some tx →
    ∃ g, e'.cache.find? f.page.id = some g ∧ f.page.ofImage = .ok g.page

namespace Coherent

/-- A copy is a revision of the page that its image is. -/
theorem ofImage_eq {p q : Page} (hq : e.stored id = .ok q) (hr : p.Revises q) : p.ofImage = .ok q := by
  obtain ⟨hid, -⟩ := of_stored_eq hq
  unfold stored TableFile.read at hq
  cases hf : e.file id.table with
  | error fault =>
    rw [hf] at hq
    cases hq
  | ok file =>
    rw [hf] at hq
    simp only [bind, Except.bind] at hq
    split at hq
    · cases hq
    · next bytes _ =>
      cases hd : Page.decode id file.schema file.pageSize bytes with
      | error fault =>
        rw [hd] at hq
        cases hq
      | ok p' =>
        rw [hd] at hq
        cases hq
        obtain ⟨-, hs, hz, -, hi, -⟩ := Page.fields_of_decode hd
        unfold Page.ofImage
        rw [hr.id, hr.schema, hr.size, hr.image, hid, hs, hz, hi]
        exact hd

/-- **A copy agrees with its file.** -/
theorem agrees (h : e.Coherent) {f : Frame} (hm : f ∈ e.cache.frames) :
    ∃ file, e.file f.page.id.table = .ok file ∧ Agrees file e.disk f.page := by
  obtain ⟨q, hq, hr⟩ := h.copies f hm
  obtain ⟨file, hf, hn, hd⟩ := h.present.of_stored hq
  have hread : file.read e.disk f.page.id = .ok q := by
    unfold stored at hq
    rw [hf] at hq
    exact hq
  obtain ⟨-, -, -, -, hi, -⟩ := Page.fields_of_decode hd
  refine ⟨file, hf, ⟨_, h.present.count hf, hn⟩, ⟨_, TableFile.bytes_eq_ok.2 (h.present.held hf), ?_⟩,
    ⟨q, hread, ofImage_eq hq hr⟩, fun hc => ?_⟩
  · rw [pages_eq hf] at hn
    rw [Paged.read_of_lt hn, hr.image, hi, pageBytes_eq hf]
  · have hp := hr.clean hc
    rw [← hp] at hread
    exact hread

/-- **Writing never fails**, and writes in place. -/
theorem serve_flushes (h : e.Coherent) (hr : r.flushes e = some ids) :
    (e.serve r).1.fails = false ∧ Overwrites ids e (e.serve r).2 := by
  have heach : ∀ ids, ∃ e', flushEach ids e = (.ok (), e') ∧ Overwrites ids e e' := by
    intro ids
    obtain ⟨e', hrun, hs⟩ := flushEach_ok ids h
    exact ⟨e', hrun, congrFun hs.bytes, hs.rewritten⟩
  cases r with
  | call c =>
    cases c with
    | commit tx =>
      cases hr
      obtain ⟨e', hrun, ho⟩ := heach (e.cache.owned tx)
      show Answer.fails (.ended (((flushEach (e.cache.owned tx) e).1).mapError .access)) = false ∧
        Overwrites (e.cache.owned tx) e ((flushEach (e.cache.owned tx) e).2.unlockAll tx)
      rw [hrun]
      exact ⟨rfl, ho.pages, ho.rewritten⟩
    | _ => cases hr
  | checkpoint =>
    cases hr
    obtain ⟨e', hrun, ho⟩ := heach e.cache.pages
    show Reply.fails (.checked ((flushEach e.cache.pages e).1.mapError .access)) = false ∧
      Overwrites e.cache.pages e (flushEach e.cache.pages e).2
    rw [hrun]
    exact ⟨rfl, ho⟩
  | flushPage id =>
    cases hr
    obtain ⟨e', hrun, hs⟩ := flushPage_total h id
    show Reply.fails (.done (e.flushPage id).1) = false ∧ Overwrites [id] e (e.flushPage id).2
    rw [hrun]
    exact ⟨rfl, congrFun hs.bytes, hs.rewritten⟩
  | flushPages tx =>
    cases hr
    obtain ⟨e', hrun, ho⟩ := heach (e.cache.owned tx)
    show Reply.fails (.done (flushEach (e.cache.owned tx) e).1) = false ∧
      Overwrites (e.cache.owned tx) e (flushEach (e.cache.owned tx) e).2
    rw [hrun]
    exact ⟨rfl, ho⟩
  | flushAll =>
    cases hr
    obtain ⟨e', hrun, ho⟩ := heach e.cache.pages
    show Reply.fails (.done (flushEach e.cache.pages e).1) = false ∧
      Overwrites e.cache.pages e (flushEach e.cache.pages e).2
    rw [hrun]
    exact ⟨rfl, ho⟩
  | _ => cases hr

/-- A page that is dropped is read again, and is what its copy knew it had been. -/
theorem rereads (h : e.Coherent) (tx : TxId) :
    ∃ e', e.discardPages tx = (.ok (), e') ∧ Rereads tx e e' := by
  obtain ⟨e', hrun, hs, hdisk, hpages⟩ := discardEach_ok (e.cache.owned tx) h fun _ => Cache.mem_pages_of_owned
  refine ⟨e', hrun, hdisk, fun f hm hd => ?_⟩
  obtain ⟨q, hq, hr⟩ := h.copies f hm
  have hin : f.page.id ∈ e'.cache.pages := by
    rw [hpages]
    exact Cache.mem_pages_of_mem hm
  cases hg : e'.cache.find? f.page.id with
  | none => exact absurd hin (Cache.find?_eq_none_iff.1 hg)
  | some g =>
    obtain ⟨hgm, hgid⟩ := Cache.mem_of_find? hg
    -- the page is changed by nobody any more, so its copy is the stored page
    have howned : f.page.id ∈ e.cache.owned tx :=
      List.mem_map.2 ⟨f, List.mem_filter.2 ⟨hm, Frame.ownedBy_iff.2 hd⟩, rfl⟩
    have hu : e'.cache.unsaved f.page.id = none :=
      Cache.unsaved_eq_none_iff.2 fun tx' => (hs.draft tx' _).trans (if_pos howned)
    obtain ⟨q', hq', hr'⟩ := hs.coherent.copies g hgm
    have hstored : e'.stored f.page.id = e.stored f.page.id := by
      unfold stored
      rw [file_congr hs.catalog, hdisk]
    rw [hgid, hstored, hq] at hq'
    cases hq'
    rw [Cache.unsaved_of_find? hg] at hu
    split at hu
    · next hc =>
      have hgq : g.page = q := hr'.clean (Frame.isClean_iff.1 hc)
      exact ⟨g, rfl, by rw [hgq]; exact ofImage_eq hq hr⟩
    · cases hu

theorem serve_discards (h : e.Coherent) (hr : r.discards = some tx) :
    (e.serve r).1.fails = false ∧ Rereads tx e (e.serve r).2 := by
  obtain ⟨e', hrun, ho⟩ := h.rereads tx
  cases r with
  | call c =>
    cases c with
    | abort tx =>
      cases hr
      show Answer.fails (.ended ((e.discardPages tx).1.mapError .access)) = false ∧
        Rereads tx e ((e.discardPages tx).2.unlockAll tx)
      rw [hrun]
      exact ⟨rfl, ho.disk, ho.copies⟩
    | _ => cases hr
  | discardPages tx =>
    cases hr
    show Reply.fails (.done (e.discardPages tx).1) = false ∧ Rereads tx e (e.discardPages tx).2
    rw [hrun]
    exact ⟨rfl, ho⟩
  | _ => cases hr

end Coherent

/-- **Copies and files agree.** An engine was opened over its files and anything was asked of it by anybody, as long
as page numbers have room. Then each copy agrees with the file of its table. Whatever writes pages now does not fail
and writes them in place, and whatever drops the changes of a transaction leaves for each page the one that its copy
knew it had been. -/
theorem served_agrees (h : e.Ready) (requests : List Request) (hs : (e.serveAll requests).Small) :
    let e' := e.serveAll requests
    (∀ f ∈ e'.cache.frames, ∃ file, e'.file f.page.id.table = .ok file ∧ Agrees file e'.disk f.page) ∧
      (∀ r ids, r.flushes e' = some ids → (e'.serve r).1.fails = false ∧ Overwrites ids e' (e'.serve r).2) ∧
      ∀ r tx, r.discards = some tx → (e'.serve r).1.fails = false ∧ Rereads tx e' (e'.serve r).2 := by
  intro e'
  have hc : e'.Coherent := h.sound.toCoherent.serveAll requests hs
  exact ⟨fun f hm => hc.agrees hm, fun r ids hr => hc.serve_flushes hr, fun r tx hr => hc.serve_discards hr⟩

end Engine

namespace Sample

/-- A page is changed by one transaction, let go of, marked and changed by another one, written, and forgotten. -/
def meddling : List Request :=
  [.call (.insert ⟨1⟩ table (record 5)), .unlock ⟨1⟩ ⟨table, 0⟩, .call (.insert ⟨2⟩ table (record 6)),
    .flushPage ⟨table, 0⟩, .mark ⟨table, 0⟩ ⟨3⟩, .call (.insert ⟨2⟩ table (record 7)), .remove ⟨table, 0⟩,
    .call (.scan ⟨2⟩ table), .mark ⟨table, 1⟩ ⟨2⟩, .discardPages ⟨3⟩]

theorem served_agrees_meddling : engine.Ready ∧ (engine.serveAll meddling).Small ∧
    (engine.serveAll meddling).cache.dirtyPages = [(⟨table, 1⟩, ⟨2⟩)] ∧
    let e' := engine.serveAll meddling
    (∀ f ∈ e'.cache.frames, ∃ file, e'.file f.page.id.table = .ok file ∧ Agrees file e'.disk f.page) ∧
      (∀ r ids, r.flushes e' = some ids → (e'.serve r).1.fails = false ∧
        Engine.Overwrites ids e' (e'.serve r).2) ∧
      ∀ r tx, r.discards = some tx → (e'.serve r).1.fails = false ∧ Engine.Rereads tx e' (e'.serve r).2 :=
  have hs : (engine.serveAll meddling).Small := small_served (by decide +kernel)
  ⟨ready, hs, by decide +kernel, Engine.served_agrees ready meddling hs⟩

end Sample

end HeapStore
