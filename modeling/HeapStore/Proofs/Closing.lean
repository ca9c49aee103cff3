import HeapStore.Proofs.Moves
import HeapStore.Proofs.Stable

/-!
# The end of a transaction

Writing the changed pages of a transaction, and dropping them. As long as copies and files agree, neither can
fail.

* `Engine.Settles`: some pages are as they are stored again, and the stored bytes have become the given ones.
* `Engine.flushEach_ok`, `Engine.discardEach_ok`: pages one after another, whoever has changed them.
* `Engine.complete_keep`: **a transaction that ends with its changes stores exactly these.**
* `Engine.complete_drop`: **a transaction that ends without them leaves every file as it is.**
-/

namespace HeapStore.Engine

variable {e e' e'' : Engine} {tx : TxId} {id : PageId} {p : Page}

/-- Some pages are as they are stored again, and the stored bytes have become the given ones. Files have changed on those
of the pages only that had changes. -/
structure Settles (ids : List PageId) (bytes : PageId → Bytes) (e e' : Engine) : Prop where
  coherent : e'.Coherent
  catalog : e'.catalog = e.catalog
  locks : e'.locks = e.locks
  lastTx : e'.lastTx = e.lastTx
  capacity : e'.cache.capacity = e.cache.capacity
  guarded : e'.cache.guarded = e.cache.guarded
  draft : ∀ tx id, e'.cache.draft tx id = if id ∈ ids then none else e.cache.draft tx id
  bytes : e'.pageBytes = bytes
  rewritten : ∀ {table : TableId} {file : TableFile}, e.file table = .ok file →
    Paged.Rewritten file.pageSize (fun n => ⟨table, n⟩ ∈ ids ∧ (e.cache.unsaved ⟨table, n⟩).isSome)
      (e.fileBytes table) (e'.fileBytes table)

theorem Settles.nil (h : e.Coherent) : Settles [] e.pageBytes e e :=
  ⟨h, rfl, rfl, rfl, rfl, rfl, fun _ _ => (if_neg List.not_mem_nil).symm, rfl, fun _ => Paged.Rewritten.refl _ _ _⟩

/-- No page has got changes. -/
theorem Settles.unsaved {ids : List PageId} {b : PageId → Bytes} (h : Settles ids b e e') (id : PageId) :
    e'.cache.unsaved id = if id ∈ ids then none else e.cache.unsaved id := by
  split
  · next hm => exact Cache.unsaved_eq_none_iff.2 fun tx => (h.draft tx id).trans (if_pos hm)
  · next hm =>
    have hd : ∀ tx, e'.cache.draft tx id = e.cache.draft tx id := fun tx => (h.draft tx id).trans (if_neg hm)
    exact Cache.unsaved_congr hd

theorem Settles.cons {ids : List PageId} {b b' : PageId → Bytes} (h : Settles [id] b e e')
    (h' : Settles ids b' e' e'') : Settles (id :: ids) b' e e'' where
  coherent := h'.coherent
  catalog := h'.catalog.trans h.catalog
  locks := h'.locks.trans h.locks
  lastTx := h'.lastTx.trans h.lastTx
  capacity := h'.capacity.trans h.capacity
  guarded := h'.guarded.trans h.guarded
  draft tx id' := by
    rw [h'.draft, h.draft]
    by_cases h1 : id' = id <;> by_cases h2 : id' ∈ ids <;> simp [h1, h2]
  bytes := h'.bytes
  rewritten {table file} hf := by
    have hf' : e'.file table = .ok file := (file_congr h.catalog table).trans hf
    refine ((h.rewritten hf).imp fun n hn => ?_).trans ((h'.rewritten hf').imp fun n hn => ?_)
    · exact ⟨List.mem_cons.2 (.inl (List.mem_singleton.1 hn.1)), hn.2⟩
    · obtain ⟨hm, hu⟩ := hn
      rw [h.unsaved] at hu
      split at hu
      · cases hu
      · exact ⟨List.mem_cons_of_mem _ hm, hu⟩

/-! ## Writing -/

/-- The engine with the bytes of one page written over in their file. -/
def overwrite (e : Engine) (file : TableFile) (id : PageId) (data : Bytes) : Engine :=
  let bytes := Bytes.overwrite (e.fileBytes id.table) (id.number * file.pageSize) data
  { e with disk := e.disk.set file.location bytes }

theorem present_overwrite {file : TableFile} (h : e.Coherent) (hf : e.file id.table = .ok file) (data : Bytes) :
    (e.overwrite file id data).Present := h.present.set h.catalog hf _

section Overwrite

variable {file : TableFile} {data : Bytes} (h : e.Coherent) (hf : e.file id.table = .ok file)
  (hn : id.number < e.pages id.table) (hd : data.length = file.pageSize)

include h hf hn hd

theorem rewritten_overwrite {table : TableId} {file' : TableFile} (hf' : e.file table = .ok file') :
    Paged.Rewritten file'.pageSize (fun n => ⟨table, n⟩ = id) (e.fileBytes table)
      ((e.overwrite file id data).fileBytes table) := by
  have hb := h.present.fileBytes_set h.catalog hf
    (Bytes.overwrite (e.fileBytes id.table) (id.number * file.pageSize) data) table
  unfold overwrite
  rw [hb]
  by_cases ht : table = id.table
  · subst ht
    rw [hf] at hf'
    cases hf'
    rw [if_pos rfl]
    exact Paged.rewritten_overwrite (by rw [← pages_eq hf]; exact hn) hd rfl
  · rw [if_neg ht]
    exact Paged.Rewritten.refl _ _ _

theorem pages_overwrite (table : TableId) : (e.overwrite file id data).pages table = e.pages table := by
  cases hf' : e.file table with
  | error fault =>
    have : (e.overwrite file id data).file table = .error fault := hf'
    unfold pages
    rw [hf', this]
  | ok file' =>
    have hf'' : (e.overwrite file id data).file table = .ok file' := hf'
    rw [pages_eq hf', pages_eq hf'', (rewritten_overwrite h hf hn hd hf').count_eq]

/-- One page has the new bytes, and the others have the same. -/
theorem pageBytes_overwrite (id' : PageId) :
    (e.overwrite file id data).pageBytes id' = if id' = id then data else e.pageBytes id' := by
  have hb := h.present.fileBytes_set h.catalog hf
    (Bytes.overwrite (e.fileBytes id.table) (id.number * file.pageSize) data) id'.table
  cases hf' : e.file id'.table with
  | error fault =>
    have hf'' : (e.overwrite file id data).file id'.table = .error fault := hf'
    have hne : id' ≠ id := by
      rintro rfl
      rw [hf] at hf'
      cases hf'
    rw [if_neg hne, pageBytes_of_error hf', pageBytes_of_error hf'']
  | ok file' =>
    have hf'' : (e.overwrite file id data).file id'.table = .ok file' := hf'
    rw [pageBytes_eq hf', pageBytes_eq hf'']
    unfold overwrite
    rw [hb]
    by_cases ht : id'.table = id.table
    · rw [ht, hf] at hf'
      cases hf'
      rw [if_pos ht, Paged.page_overwrite (by rw [← pages_eq hf]; exact hn) hd, ht]
      by_cases hi : id' = id
      · rw [if_pos hi, if_pos (by rw [hi])]
      · -- two pages of one table have two numbers
        rw [if_neg hi, if_neg]
        intro hnum
        apply hi
        obtain ⟨table, number⟩ := id
        obtain ⟨table', number'⟩ := id'
        exact congr (congrArg PageId.mk ht) hnum
    · rw [if_neg ht, if_neg (by rintro rfl; exact ht rfl)]

theorem write_eq_overwrite {p : Page} (hp : p.id = id) (he : p.encode = data) :
    file.write e.disk p = .ok (e.overwrite file id data).disk := by
  have hw := Paged.write_of_lt (by rw [← pages_eq hf]; exact hn) hd
  unfold TableFile.write TableFile.store overwrite
  rw [TableFile.bytes_eq_ok.2 (h.present.held hf), hp, he]
  simp only [bind, Except.bind, hw]
  rfl

end Overwrite

/-- A changed page is written where its file has it. -/
theorem flushPage_ok (h : e.Coherent) (hd : e.cache.draft tx id = some p) :
    ∃ e', e.flushPage id = (.ok (), e') ∧
      Settles [id] (fun id' => if id' = id then p.encode else e.pageBytes id') e e' := by
  obtain ⟨hid, hdirty, file, hf, hs, hz, hn⟩ := h.of_draft hd
  obtain ⟨f, hm, rfl, -, -⟩ := (Cache.draft_eq_some_iff h.nodup).1 hd
  subst hid
  have hfind := Cache.find?_of_mem h.nodup hm
  have hclean : f.isClean = false := by
    rw [Bool.eq_false_iff, ne_eq, Frame.isClean_iff, hdirty]
    simp
  have hlen : f.page.encode.length = file.pageSize := f.page.length_encode.trans hz
  have hbytes := pageBytes_overwrite h hf hn hlen
  have hpages := pages_overwrite h hf hn hlen
  let q := (f.page.mark none).settle
  let e' : Engine := { e.overwrite file f.page.id f.page.encode with cache := e.cache.update f.page.id q }
  have hrun : e.flushPage f.page.id = (.ok (), e') := by
    unfold flushPage
    rw [hfind]
    simp only [hclean, hf, write_eq_overwrite h hf hn hlen rfl rfl]
    rfl
  have hp : e'.Present := ⟨(present_overwrite h hf f.page.encode).held⟩
  -- the page that was written is read back as its copy now is
  have hq : e'.stored f.page.id = .ok q := by
    have hpb : e'.pageBytes f.page.id = f.page.encode := (hbytes _).trans (if_pos rfl)
    refine hp.stored_of_decode hf (lt_of_lt_of_eq hn (hpages _).symm) ?_
    rw [hpb, ← hs, ← hz]
    exact f.page.decode_encode (by rw [hs, hz]; exact h.catalog.slots hf)
  refine ⟨e', hrun, ⟨h.catalog, hp, ?_, ?_⟩, rfl, rfl, rfl, rfl, rfl, ?_, funext hbytes, fun hf' => ?_⟩
  · have hu : e'.cache.pages = e.cache.pages := Cache.pages_update rfl
    rw [hu]
    exact h.nodup
  · intro g hg
    rcases Cache.mem_update.1 hg with ⟨hg, hne⟩ | ⟨g', -, -, rfl⟩
    · obtain ⟨r, hr, hrev⟩ := h.copies g hg
      have hpb : e'.pageBytes g.page.id = e.pageBytes g.page.id := (hbytes _).trans (if_neg hne)
      exact ⟨r, h.present.stored_of_bytes hp rfl (le_of_eq (hpages _).symm) hpb hr, hrev⟩
    · exact ⟨q, hq, rfl, rfl, rfl, rfl, fun _ => rfl⟩
  · intro tx' id'
    have hdr : e'.cache.draft tx' id' = if id' = f.page.id then (if q.dirty = some tx' then some q else none)
        else e.cache.draft tx' id' := Cache.draft_update rfl hfind
    rw [hdr]
    simp only [List.mem_singleton]
    split
    · exact if_neg (by simp [q, Page.settle, Page.mark])
    · rfl
  · refine (rewritten_overwrite h hf hn hlen hf').imp fun n hi => ?_
    rw [hi, Cache.unsaved_of_draft hd]
    exact ⟨List.mem_singleton.2 rfl, rfl⟩

/-- The stored bytes once the changes on some pages are written. -/
def written (e : Engine) (ids : List PageId) (id : PageId) : Bytes :=
  if id ∈ ids then
    match e.cache.unsaved id with
    | some page => page.encode
    | none => e.pageBytes id
  else e.pageBytes id

/-- **Writing a page never fails**, and a page without changes is left as it is. -/
theorem flushPage_total (h : e.Coherent) (id : PageId) :
    ∃ e', e.flushPage id = (.ok (), e') ∧ Settles [id] (e.written [id]) e e' := by
  cases hu : e.cache.unsaved id with
  | some p =>
    obtain ⟨tx, hd⟩ := Cache.exists_draft_of_unsaved hu
    obtain ⟨e', hrun, hs⟩ := flushPage_ok h hd
    refine ⟨e', hrun, ?_⟩
    have hw : e.written [id] = fun id' => if id' = id then p.encode else e.pageBytes id' := by
      funext id'
      unfold written
      simp only [List.mem_singleton]
      by_cases hi : id' = id
      · rw [if_pos hi, if_pos hi, hi, hu]
      · rw [if_neg hi, if_neg hi]
    rw [hw]
    exact hs
  | none =>
    have hnone : ∀ tx, e.cache.draft tx id = none := Cache.unsaved_eq_none_iff.1 hu
    have hw : e.written [id] = e.pageBytes := by
      funext id'
      unfold written
      simp only [List.mem_singleton]
      split
      · next hi => rw [hi, hu]
      · rfl
    refine ⟨e, ?_, h, rfl, rfl, rfl, rfl, rfl, fun tx id' => ?_, hw.symm, fun _ => Paged.Rewritten.refl _ _ _⟩
    · unfold flushPage
      cases hf : e.cache.find? id with
      | none => rfl
      | some f =>
        rw [Cache.unsaved_of_find? hf] at hu
        split at hu
        · next hc => simp only [hc, if_true]
        · cases hu
    · split
      · next hm => rw [List.mem_singleton.1 hm, hnone]
      · rfl

/-- What is written before the rest is written with it. -/
theorem Settles.written {e1 : Engine} (h : Settles [id] (e.written [id]) e e1) (ids : List PageId) :
    e1.written ids = e.written (id :: ids) := by
  funext id'
  have hb : e1.pageBytes id' = e.written [id] id' := congrFun h.bytes id'
  have hu := h.unsaved id'
  unfold Engine.written at hb ⊢
  simp only [List.mem_singleton] at hu hb
  by_cases hi : id' = id
  · -- the page has no changes any more, so its bytes stay
    rw [if_pos hi] at hu hb
    rw [if_pos (List.mem_cons.2 (.inl hi)), hu, hb]
    split <;> rfl
  · rw [if_neg hi] at hu hb
    rw [hu, hb]
    simp only [List.mem_cons, hi, false_or]

/-- **Writing pages never fails.** -/
theorem flushEach_ok (ids : List PageId) : ∀ {e : Engine}, e.Coherent →
    ∃ e', flushEach ids e = (.ok (), e') ∧ Settles ids (e.written ids) e e' := by
  induction ids with
  | nil =>
    intro e h
    refine ⟨e, rfl, ?_⟩
    have hw : e.written [] = e.pageBytes := funext fun id => if_neg List.not_mem_nil
    rw [hw]
    exact Settles.nil h
  | cons id ids ih =>
    intro e h
    obtain ⟨e1, hrun, h1⟩ := flushPage_total h id
    obtain ⟨e2, hrun', h2⟩ := ih h1.coherent
    refine ⟨e2, ?_, ?_⟩
    · unfold flushEach
      rw [hrun]
      exact hrun'
    · rw [h1.written ids] at h2
      exact h1.cons h2

/-! ## Dropping -/

/-- Changed pages are read again one after another. -/
theorem discardEach_ok (ids : List PageId) : ∀ {e : Engine}, e.Coherent →
    (∀ id ∈ ids, id ∈ e.cache.pages) →
    ∃ e', discardEach ids e = (.ok (), e') ∧ Settles ids e.pageBytes e e' ∧ e'.disk = e.disk ∧
      e'.cache.pages = e.cache.pages := by
  induction ids with
  | nil => exact fun {e} h _ => ⟨e, rfl, Settles.nil h, rfl, rfl⟩
  | cons id ids ih =>
    intro e h hc
    obtain ⟨f, hf, rfl⟩ := List.mem_map.1 (hc id List.mem_cons_self)
    obtain ⟨q, hq, -⟩ := h.copies f hf
    have hid := id_of_stored hq
    let e1 : Engine := { e with cache := e.cache.update f.page.id q }
    have hpages : e1.cache.pages = e.cache.pages := Cache.pages_update hid
    -- the page that was read is clean, and it is the stored one
    have h1 : Settles [f.page.id] e.pageBytes e e1 := by
      have hcoherent : e1.Coherent := by
        have hu := h.update (p := q) (hid ▸ hq) (.refl q)
        rw [hid] at hu
        exact hu
      refine ⟨hcoherent, rfl, rfl, rfl, rfl, rfl, fun tx' id' => ?_, rfl, fun _ => Paged.Rewritten.refl _ _ _⟩
      have hdr : e1.cache.draft tx' id' = if id' = f.page.id then (if q.dirty = some tx' then some q else none)
          else e.cache.draft tx' id' := Cache.draft_update hid (Cache.find?_of_mem h.nodup hf)
      rw [hdr]
      simp only [List.mem_singleton]
      split
      · exact if_neg (by rw [clean_of_stored hq]; simp)
      · rfl
    obtain ⟨e2, hrun, h2, hdisk, hsame⟩ := ih h1.coherent fun id' hm => by
      rw [hpages]
      exact hc id' (List.mem_cons_of_mem _ hm)
    refine ⟨e2, ?_, ?_, hdisk, hsame.trans hpages⟩
    · unfold discardEach
      rw [hq]
      exact hrun
    rw [h1.bytes] at h2
    exact h1.cons h2

/-! ## Ending -/

/-- Once its pages are settled and its locks are gone, a transaction has ended and the others are spared. -/
theorem Settles.unlockAll {b : PageId → Bytes} (h : e.Sound) (hs : Settles (e.cache.owned tx) b e e') :
    Spares tx e (e'.unlockAll tx) ∧ Ended tx (e'.unlockAll tx) := by
  have hm := LockTable.mode?_releaseAll h.locks tx
  have hl : (e'.unlockAll tx).locks = (e.locks.releaseAll tx).table := by
    unfold Engine.unlockAll
    rw [hs.locks]
  have hown : ∀ id, e'.cache.draft tx id = none := by
    intro id
    rw [hs.draft]
    split
    · rfl
    · next hn =>
      rw [Cache.mem_owned h.nodup] at hn
      exact Option.not_isSome_iff_eq_none.1 hn
  have hother : ∀ tx' ≠ tx, e'.cache.draft tx' = e.cache.draft tx' := by
    intro tx' ht
    funext id
    rw [hs.draft]
    split
    · next hi =>
      -- a page that the transaction has changed is changed by nobody else
      obtain ⟨p, hp⟩ := Option.isSome_iff_exists.1 ((Cache.mem_owned h.nodup).1 hi)
      cases hd : e.cache.draft tx' id with
      | none => rfl
      | some p' => exact absurd (Cache.draft_unique hd hp) ht
    · rfl
  refine ⟨⟨⟨⟨hs.coherent.catalog, ⟨hs.coherent.present.held⟩, hs.coherent.nodup, hs.coherent.copies⟩, ?_, ?_⟩,
    hs.catalog, hother, ?_, hs.capacity, hs.guarded⟩, hown, ?_⟩
  · rw [hl]
    exact h.locks.releaseAll
  · intro tx' id hd
    have hd' : (e'.cache.draft tx' id).isSome := hd
    rw [hl, hm]
    by_cases ht : tx' = tx
    · rw [ht, hown] at hd'
      cases hd'
    · rw [if_neg ht]
      rw [hother tx' ht] at hd'
      exact h.locked hd'
  · intro tx' ht id
    rw [hl, hm, if_neg ht]
  · intro id
    rw [hl, hm, if_pos rfl]

/-- **A transaction that ends with its changes stores exactly these.** -/
theorem complete_keep (h : e.Sound) (tx : TxId) : ∃ e', e.complete tx true = (.ok (), e') ∧ Keeps tx e e' := by
  obtain ⟨e1, hrun, hs⟩ := flushEach_ok (e.cache.owned tx) h.toCoherent
  obtain ⟨h1, h2⟩ := hs.unlockAll h
  refine ⟨e1.unlockAll tx, ?_, h1, h2, ?_, ?_⟩
  · unfold complete flushPages
    rw [if_pos rfl, hrun]
  · have hb : (e1.unlockAll tx).pageBytes = e1.pageBytes := rfl
    rw [hb, hs.bytes]
    funext id
    unfold written View.keep view
    simp only [Cache.mem_owned h.nodup]
    cases hd : e.cache.draft tx id with
    | none => simp
    | some p => simp [Cache.unsaved_of_draft hd]
  · intro table file hf
    exact (hs.rewritten hf).imp fun n hn => (Cache.mem_owned h.nodup).1 hn.1

/-- **A transaction that ends without its changes leaves every file as it is.** -/
theorem complete_drop (h : e.Sound) (tx : TxId) :
    ∃ e', e.complete tx false = (.ok (), e') ∧ Drops tx e e' ∧ e'.disk = e.disk := by
  obtain ⟨e1, hrun, hs, hdisk, -⟩ := discardEach_ok (e.cache.owned tx) h.toCoherent fun _ => Cache.mem_pages_of_owned
  obtain ⟨h1, h2⟩ := hs.unlockAll h
  refine ⟨e1.unlockAll tx, ?_, ⟨⟨h1, hs.bytes, ?_⟩, h2⟩, hdisk⟩
  · unfold complete discardPages
    rw [if_neg Bool.false_ne_true, hrun]
  · intro table file hf
    have hb : (e1.unlockAll tx).fileBytes table = e.fileBytes table := by
      have hf1 : e1.file table = e.file table := file_congr hs.catalog table
      have he : (e1.unlockAll tx).fileBytes table = e1.fileBytes table := rfl
      rw [he]
      unfold fileBytes
      rw [hf1, hdisk]
    rw [hb]
    exact Paged.Grown.refl _ _

end HeapStore.Engine
