import HeapStore.Proofs.Opening

/-!
# The end of a transaction

Tables can go while transactions are running, and then the pages of a transaction can be neither written nor read
again. Its end deals with one page after another and stops at the first one of these.

* `Engine.Reached`: what an engine can become, with tables that come and go. `Engine.Tidy` holds of all of it.
* `Engine.Stores`: pages are written one after another. `Stores.bytes`: **no other page of a file changes.**
* `Engine.Closes`: pages are dealt with in their order up to the first one that cannot be.
* `Engine.complete_in_order`: **all locks go in any case, and the pages before the first fault are dealt with.**
* `Sample.torn_commit`: a transaction can end with one page written, and one that it could not write.
-/

namespace HeapStore

namespace Engine

variable {e e' : Engine} {tx : TxId} {id : PageId} {keep : Bool} {ids done rest : List PageId} {d d' : Disk}

/-! ## Reached engines -/

/-- What an engine can become: it is started, calls are made, tables are made under any names and from files of
definitions, and all tables are forgotten. -/
inductive Reached : Engine → Prop where
  | start {settings : Settings} {disk : Disk} {e : Engine} (h : start settings disk = .ok e) : Reached e
  | call {e : Engine} (h : Reached e) (c : Call) : Reached (e.call c).2
  | table {e : Engine} (h : Reached e) (path : Path) (name : String) (schema : Schema) (key : Option String) :
    Reached (e.createTable path name schema key).2
  | load {e : Engine} (h : Reached e) (path : Path) : Reached (e.loadTables path).2
  | clear {e : Engine} (h : Reached e) : Reached { e with catalog := e.catalog.clear }

/-- The lock table is sound and no page has two copies. -/
structure Tidy (e : Engine) : Prop where
  locks : e.locks.Sound
  nodup : e.cache.pages.Nodup

theorem stable_tidy : Stable Tidy where
  grant h hg := ⟨h.locks.grant? hg, h.nodup⟩
  unlockAll _ h := ⟨h.locks.releaseAll, h.nodup⟩
  touch _ h := ⟨h.locks, Cache.nodup_touch h.nodup⟩
  evict h hc := by
    obtain ⟨f, -, -, rfl⟩ := Cache.evict?_cases hc
    exact ⟨h.locks, Cache.nodup_remove h.nodup⟩
  add h hn _ := ⟨h.locks, Cache.nodup_add h.nodup (Cache.find?_eq_none_iff.1 hn)⟩
  reread h _ := ⟨h.locks, Cache.nodup_update rfl h.nodup⟩
  revise h _ _ _ := ⟨h.locks, Cache.nodup_update rfl h.nodup⟩
  append h _ _ := ⟨h.locks, h.nodup⟩
  flush h _ _ _ _ := ⟨h.locks, Cache.nodup_update rfl h.nodup⟩
  next _ h := ⟨h.locks, h.nodup⟩

theorem Reached.tidy (h : Reached e) : e.Tidy := by
  induction h with
  | start h =>
    have hr := ready_start h
    exact ⟨hr.sound.locks, hr.sound.nodup⟩
  | call _ c ih => exact stable_tidy.call ih c
  | @table e _ path name schema key ih =>
    -- a table that is made leaves locks and copies as they are
    unfold createTable
    split <;> exact ⟨ih.locks, ih.nodup⟩
  | load _ path ih => exact ⟨ih.locks, ih.nodup⟩
  | clear _ ih => exact ⟨ih.locks, ih.nodup⟩

theorem Reached.run (h : Reached e) (calls : List Call) : Reached (e.run calls) := by
  induction calls generalizing e with
  | nil => exact h
  | cons c calls ih => exact ih (h.call c)

/-! ## Writing -/

/-- Copies of pages are written to the disk one after another, each in full. -/
def Stores (e : Engine) : List PageId → Disk → Disk → Prop
  | [], d, d' => d' = d
  | id :: ids, d, d' => ∃ f file d1, e.cache.find? id = some f ∧ e.file id.table = .ok file ∧
      file.write d f.page = .ok d1 ∧ e.Stores ids d1 d'

/-- It depends on the copies of these pages only. -/
theorem Stores.congr (hc : e'.catalog = e.catalog) (hf : ∀ id ∈ ids, e'.cache.find? id = e.cache.find? id)
    (h : e'.Stores ids d d') : e.Stores ids d d' := by
  induction ids generalizing d with
  | nil => exact h
  | cons id ids ih =>
    obtain ⟨f, file, d1, hfind, hfile, hw, hrest⟩ := h
    have hfile' : e.file id.table = .ok file := (file_congr hc _).symm.trans hfile
    refine ⟨f, file, d1, ?_, hfile', hw, ih (fun id' hid => hf id' (List.mem_cons_of_mem _ hid)) hrest⟩
    rw [← hf id List.mem_cons_self]
    exact hfind

/-- **A byte that is another one afterwards lies on one of these pages.** -/
theorem Stores.bytes (h : e.Stores ids d d') {here : Location} {bytes : Bytes} (hb : d.held here = .ok bytes) :
    ∃ bytes', d'.held here = .ok bytes' ∧ ∀ i, bytes'[i]? ≠ bytes[i]? →
      ∃ id ∈ ids, ∃ file, e.file id.table = .ok file ∧ file.location = here ∧ i / file.pageSize = id.number := by
  induction ids generalizing d bytes with
  | nil =>
    have h : d' = d := h
    rw [h]
    exact ⟨bytes, hb, fun i hi => absurd rfl hi⟩
  | cons id ids ih =>
    obtain ⟨f, file, d1, hfind, hfile, hw, hrest⟩ := h
    obtain ⟨-, hid⟩ := Cache.mem_of_find? hfind
    obtain ⟨old, new, hold, hwrite, rfl⟩ := TableFile.of_write hw
    rw [hid] at hwrite
    by_cases hl : file.location = here
    · rw [hl, hb] at hold
      cases hold
      -- a byte that differs from before is another one since this page was written, or since a later one was
      obtain ⟨bytes', hb', hrest'⟩ := ih hrest (by rw [hl]; exact Disk.held_set_self (Disk.not_isAbove_of_held hb))
      refine ⟨bytes', hb', fun i hi => ?_⟩
      by_cases hi' : bytes'[i]? = new[i]?
      · rw [hi'] at hi
        exact ⟨id, List.mem_cons_self, file, hfile, hl, Paged.div_eq_of_write hwrite hi⟩
      · obtain ⟨id', hm, hrest'⟩ := hrest' i hi'
        exact ⟨id', List.mem_cons_of_mem _ hm, hrest'⟩
    · obtain ⟨bytes', hb', hrest'⟩ := ih hrest (by rw [Disk.held_set_ne hl]; exact hb)
      refine ⟨bytes', hb', fun i hi => ?_⟩
      obtain ⟨id', hm, hrest'⟩ := hrest' i hi
      exact ⟨id', List.mem_cons_of_mem _ hm, hrest'⟩

/-! ## One page after another -/

/-- A page cannot be written, or not be read again: its table is gone, or its file does not do it. -/
def Blocks (e : Engine) (keep : Bool) (id : PageId) (fault : AccessFault) : Prop :=
  e.file id.table = .error fault ∨ ∃ file, e.file id.table = .ok file ∧
    match keep with
    | true => ∃ f, e.cache.find? id = some f ∧ file.write e.disk f.page = .error fault
    | false => file.read e.disk id = .error fault

/-- What the copy of a page becomes at the end: itself, settled, if its changes are kept, and if they are not the page
that its file gives. -/
def Gives (e : Engine) (keep : Bool) (id : PageId) (page : Page) : Prop :=
  match keep with
  | true => ∃ f, e.cache.find? id = some f ∧ page = (f.page.mark none).settle
  | false => e.stored id = .ok page

/-- One page was dealt with: it was written if its changes are kept, and its copy is clean. -/
structure Cleans (keep : Bool) (id : PageId) (e e' : Engine) : Prop where
  clean : ∃ f, e'.cache.find? id = some f ∧ f.isClean = true ∧ e.Gives keep id f.page
  others : ∀ id' ≠ id, e'.cache.find? id' = e.cache.find? id'
  written : keep = true → e.Stores [id] e.disk e'.disk
  unwritten : keep = false → e'.disk = e.disk
  catalog : e'.catalog = e.catalog
  locks : e'.locks = e.locks

/-- What comes of one page. -/
inductive Cleaning (keep : Bool) (id : PageId) (e : Engine) : Outcome AccessFault Unit → Prop where
  | cleaned {e' : Engine} (h : Cleans keep id e e') : Cleaning keep id e (.ok (), e')
  | blocked {fault : AccessFault} (h : e.Blocks keep id fault) : Cleaning keep id e (.error fault, e)

/-- Some pages were dealt with, and of the rest the first one could not be. The copies of all other pages are as they
were, those of the rest among them. -/
structure Closes (keep : Bool) (e : Engine) (done rest : List PageId) (o : Outcome AccessFault Unit) : Prop where
  clean : ∀ id ∈ done, ∃ f, o.2.cache.find? id = some f ∧ f.isClean = true ∧ e.Gives keep id f.page
  others : ∀ id, id ∉ done → o.2.cache.find? id = e.cache.find? id
  ended : rest = [] → o.1 = .ok ()
  stopped : ∀ id ids, rest = id :: ids → ∃ fault, o.1 = .error fault ∧ o.2.Blocks keep id fault
  written : keep = true → e.Stores done e.disk o.2.disk
  unwritten : keep = false → o.2.disk = e.disk
  catalog : o.2.catalog = e.catalog

/-- The copy of a page gets another content, which is clean. -/
theorem clean_update {f : Frame} {page : Page} (hf : e.cache.find? id = some f) (hid : page.id = id)
    (hd : page.dirty = none) (hg : e.Gives keep id page) :
    (∃ g, (e.cache.update id page).find? id = some g ∧ g.isClean = true ∧ e.Gives keep id g.page) ∧
      ∀ id' ≠ id, (e.cache.update id page).find? id' = e.cache.find? id' := by
  constructor
  · refine ⟨{ f with page }, ?_, Frame.isClean_iff.2 hd, hg⟩
    rw [Cache.find?_update hid, if_pos rfl, hf]
    rfl
  · intro id' hne
    rw [Cache.find?_update hid, if_neg hne]

/-- The end of one page does not matter to what becomes of another one. -/
theorem Cleans.gives {e1 : Engine} {id' : PageId} {page : Page} (h : Cleans keep id e e1) (hne : id' ≠ id)
    (hg : e1.Gives keep id' page) : e.Gives keep id' page := by
  cases keep with
  | true =>
    obtain ⟨f, hf, hpage⟩ := hg
    rw [h.others id' hne] at hf
    exact ⟨f, hf, hpage⟩
  | false =>
    -- a file gives what it gave before, as nothing was written
    have hstored : e1.stored id' = .ok page := hg
    unfold stored at hstored
    rw [file_congr h.catalog, h.unwritten rfl] at hstored
    exact hstored

theorem flushPage_cleaning {f : Frame} (hf : e.cache.find? id = some f) (hd : f.isClean = false) :
    Cleaning true id e (e.flushPage id) := by
  obtain ⟨-, hid⟩ := Cache.mem_of_find? hf
  unfold flushPage
  rw [hf]
  simp only [hd, Bool.false_eq_true, if_false]
  cases hfile : e.file id.table with
  | error fault => exact .blocked (.inl hfile)
  | ok file =>
    dsimp only
    cases hw : file.write e.disk f.page with
    | error fault =>
      have hb : e.Blocks true id fault := .inr ⟨file, hfile, f, hf, hw⟩
      exact .blocked hb
    | ok disk =>
      have hg : e.Gives true id (f.page.mark none).settle := ⟨f, hf, rfl⟩
      obtain ⟨hclean, hothers⟩ := clean_update hf (show (f.page.mark none).settle.id = id from hid) rfl hg
      have hc : Cleans true id e { e with disk, cache := e.cache.update id (f.page.mark none).settle } :=
        ⟨hclean, hothers, fun _ => ⟨f, file, disk, hf, hfile, hw, rfl⟩, nofun, rfl, rfl⟩
      exact .cleaned hc

/-- One page is read again. -/
def rereadPage (e : Engine) (id : PageId) : Outcome AccessFault Unit :=
  match e.stored id with
  | .error fault => (.error fault, e)
  | .ok page => (.ok (), { e with cache := e.cache.update id page })

theorem rereadPage_cleaning {f : Frame} (hf : e.cache.find? id = some f) :
    Cleaning false id e (e.rereadPage id) := by
  unfold rereadPage
  cases hs : e.stored id with
  | error fault =>
    refine .blocked ?_
    unfold stored at hs
    cases hfile : e.file id.table with
    | error cause =>
      rw [hfile] at hs
      cases hs
      exact .inl hfile
    | ok file =>
      rw [hfile] at hs
      exact .inr ⟨file, hfile, hs⟩
  | ok page =>
    have hg : e.Gives false id page := hs
    obtain ⟨hclean, hothers⟩ := clean_update hf (id_of_stored hs) (clean_of_stored hs) hg
    exact .cleaned ⟨hclean, hothers, nofun, fun _ => rfl, rfl, rfl⟩

/-- **Pages are dealt with in their order up to the first one that cannot be**, if each one is dealt with or not. -/
theorem each_closes {page : Engine → PageId → Outcome AccessFault Unit}
    {each : List PageId → Engine → Outcome AccessFault Unit} (hnil : ∀ e, each [] e = (.ok (), e))
    (hcons : ∀ id ids e, each (id :: ids) e = match page e id with
      | (.error fault, e) => (.error fault, e)
      | (.ok (), e) => each ids e)
    (hpage : ∀ {e : Engine} {id : PageId} {f : Frame}, e.cache.find? id = some f → f.isClean = false →
      Cleaning keep id e (page e id))
    (ids : List PageId) : ∀ {e : Engine}, ids.Nodup →
    (∀ id ∈ ids, ∃ f, e.cache.find? id = some f ∧ f.isClean = false) →
    (each ids e).2.locks = e.locks ∧ ∃ done rest, ids = done ++ rest ∧ Closes keep e done rest (each ids e) := by
  induction ids with
  | nil =>
    intro e _ _
    rw [hnil]
    exact ⟨rfl, [], [], rfl, fun _ h => absurd h List.not_mem_nil, fun _ _ => rfl, fun _ => rfl, nofun, fun _ => rfl,
      fun _ => rfl, rfl⟩
  | cons id ids ih =>
    intro e hnd hd
    obtain ⟨hni, hnd⟩ := List.nodup_cons.1 hnd
    obtain ⟨f, hf, hdirty⟩ := hd id List.mem_cons_self
    have hone := hpage hf hdirty
    rw [hcons]
    generalize page e id = o at hone
    -- the first page is in the way and nothing behind it is dealt with, or it is clean and the rest goes on from there
    cases hone with
    | @blocked fault hb =>
      refine ⟨rfl, [], id :: ids, rfl, fun _ h => absurd h List.not_mem_nil, fun _ _ => rfl, nofun, ?_, fun _ => rfl,
        fun _ => rfl, rfl⟩
      rintro _ _ ⟨⟩
      exact ⟨fault, rfl, hb⟩
    | @cleaned e1 h1 =>
      have hne : ∀ id' ∈ ids, id' ≠ id := by
        rintro id' hm rfl
        exact hni hm
      have hsame : ∀ id' ∈ ids, e1.cache.find? id' = e.cache.find? id' := fun id' hm => h1.others id' (hne id' hm)
      obtain ⟨hlocks, done, rest, rfl, hc⟩ := ih (e := e1) hnd fun id' hm => by
        rw [hsame id' hm]
        exact hd id' (List.mem_cons_of_mem _ hm)
      refine ⟨hlocks.trans h1.locks, id :: done, rest, rfl, ?_, ?_, hc.ended, ?_, ?_, ?_, hc.catalog.trans h1.catalog⟩
      · intro id' hm
        rcases List.mem_cons.1 hm with rfl | hm
        · -- the pages behind it leave a page clean
          rw [hc.others id' fun hd => hni (List.mem_append_left _ hd)]
          exact h1.clean
        · obtain ⟨g, hg, hclean, hgives⟩ := hc.clean id' hm
          exact ⟨g, hg, hclean, h1.gives (hne id' (List.mem_append_left _ hm)) hgives⟩
      · intro id' hm
        rw [List.mem_cons, not_or] at hm
        rw [hc.others id' hm.2]
        exact h1.others id' hm.1
      · exact hc.stopped
      · intro hk
        obtain ⟨f', file, d1, hf', hfile, hw, hd1⟩ := h1.written hk
        have hd1 : e1.disk = d1 := hd1
        refine ⟨f', file, d1, hf', hfile, hw, ?_⟩
        rw [← hd1]
        exact (hc.written hk).congr h1.catalog fun id' hm => hsame id' (List.mem_append_left _ hm)
      · intro hk
        exact (hc.unwritten hk).trans (h1.unwritten hk)

/-- Writing one page after another. -/
theorem flushEach_closes (hnd : ids.Nodup) (hd : ∀ id ∈ ids, ∃ f, e.cache.find? id = some f ∧ f.isClean = false) :
    (flushEach ids e).2.locks = e.locks ∧
      ∃ done rest, ids = done ++ rest ∧ Closes true e done rest (flushEach ids e) :=
  each_closes (fun _ => rfl) (fun _ _ _ => rfl) flushPage_cleaning ids hnd hd

/-- Dropping one page after another. -/
theorem discardEach_closes (hnd : ids.Nodup) (hd : ∀ id ∈ ids, ∃ f, e.cache.find? id = some f ∧ f.isClean = false) :
    (discardEach ids e).2.locks = e.locks ∧
      ∃ done rest, ids = done ++ rest ∧ Closes false e done rest (discardEach ids e) := by
  have hcons : ∀ id ids (e : Engine), discardEach (id :: ids) e = match rereadPage e id with
      | (.error fault, e) => (.error fault, e)
      | (.ok (), e) => discardEach ids e := by
    intro id ids e
    rw [discardEach]
    unfold rereadPage
    cases e.stored id <;> rfl
  exact each_closes (fun _ => rfl) hcons (fun hf _ => rereadPage_cleaning hf) ids hnd hd

/-- The locks do not matter for it. -/
theorem Closes.unlockAll {o : Outcome AccessFault Unit} (h : Closes keep e done rest o) (tx : TxId) :
    Closes keep e done rest (o.1, o.2.unlockAll tx) :=
  ⟨h.clean, h.others, h.ended, h.stopped, h.written, h.unwritten, h.catalog⟩

/-- Whatever becomes of its pages, they are dealt with first, and then the locks of the transaction go. -/
theorem Tidy.complete (h : e.Tidy) (tx : TxId) (keep : Bool) :
    (e.complete tx keep).2.locks = (e.locks.releaseAll tx).table ∧
      ∃ done rest, e.cache.owned tx = done ++ rest ∧ Closes keep e done rest (e.complete tx keep) := by
  have hnd : (e.cache.owned tx).Nodup := Cache.nodup_owned h.nodup
  have hd : ∀ id ∈ e.cache.owned tx, ∃ f, e.cache.find? id = some f ∧ f.isClean = false := by
    intro id hm
    obtain ⟨p, hp⟩ := Option.isSome_iff_exists.1 ((Cache.mem_owned h.nodup).1 hm)
    obtain ⟨f, hf, rfl, hid, hdirty⟩ := (Cache.draft_eq_some_iff h.nodup).1 hp
    have hc : f.isClean ≠ true := by
      intro hc
      rw [Frame.isClean_iff.1 hc] at hdirty
      cases hdirty
    exact ⟨f, (Cache.find?_eq_some_iff h.nodup).2 ⟨hf, hid⟩, Bool.eq_false_iff.2 hc⟩
  -- dealing with pages changes no lock, so the locks that go are those from before
  cases keep with
  | true =>
    obtain ⟨hl, done, rest, ho, hc⟩ := flushEach_closes hnd hd
    refine ⟨?_, done, rest, ho, hc.unlockAll tx⟩
    show ((flushEach (e.cache.owned tx) e).2.locks.releaseAll tx).table = _
    rw [hl]
  | false =>
    obtain ⟨hl, done, rest, ho, hc⟩ := discardEach_closes hnd hd
    refine ⟨?_, done, rest, ho, hc.unlockAll tx⟩
    show ((discardEach (e.cache.owned tx) e).2.locks.releaseAll tx).table = _
    rw [hl]

/-- If there is no fault the transaction has changed no page any more. -/
theorem Closes.owned_eq_nil {o : Outcome AccessFault Unit} (hc : Closes keep e done rest o) (h : e.Tidy) (h' : o.2.Tidy)
    (ho : e.cache.owned tx = done ++ rest) (hok : o.1 = .ok ()) : o.2.cache.owned tx = [] := by
  have hrest : rest = [] := by
    cases rest with
    | nil => rfl
    | cons id ids =>
      obtain ⟨fault, hf, -⟩ := hc.stopped id ids rfl
      rw [hok] at hf
      cases hf
  rw [List.eq_nil_iff_forall_not_mem]
  intro id hm
  obtain ⟨p, hp⟩ := Option.isSome_iff_exists.1 ((Cache.mem_owned h'.nodup).1 hm)
  by_cases hd : id ∈ done
  · obtain ⟨f, hf, hclean, -⟩ := hc.clean id hd
    rw [Cache.draft_of_find? hf, if_neg (by rw [Frame.isClean_iff.1 hclean]; nofun)] at hp
    cases hp
  · -- a page that it had not changed before is as it was
    have hsame : o.2.cache.draft tx id = e.cache.draft tx id := by
      unfold Cache.draft
      rw [hc.others id hd]
    rw [hsame] at hp
    have hm' : id ∈ e.cache.owned tx := (Cache.mem_owned h.nodup).2 (Option.isSome_iff_exists.2 ⟨p, hp⟩)
    rw [ho, hrest, List.append_nil] at hm'
    exact hd hm'

/-- A byte that is another one afterwards lies on a page that was dealt with, and changes were kept. -/
theorem Closes.bytes {o : Outcome AccessFault Unit} (hc : Closes keep e done rest o) {here : Location} {bytes : Bytes}
    (hb : e.disk.held here = .ok bytes) :
    ∃ bytes', o.2.disk.held here = .ok bytes' ∧ ∀ i, bytes'[i]? ≠ bytes[i]? → keep = true ∧
      ∃ id ∈ done, ∃ file, e.file id.table = .ok file ∧ file.location = here ∧ i / file.pageSize = id.number := by
  cases keep with
  | true =>
    obtain ⟨bytes', hb', hpages⟩ := (hc.written rfl).bytes hb
    exact ⟨bytes', hb', fun i hi => ⟨rfl, hpages i hi⟩⟩
  | false =>
    rw [hc.unwritten rfl]
    exact ⟨bytes, hb, fun i hi => absurd rfl hi⟩

/-- **A transaction that ends holds no lock, and its pages are dealt with in their order up to the first one that cannot
be.** This is so for every reached engine and every transaction. If there is no fault no copy is changed by it any more.
There is a fault if a page of it has lost its table, or the file of the table does not take or give the page. The copies
of the pages before that one are clean: they are what was written if changes are kept, and what the files give if they
are not. All other copies are as they were. In files just the pages before it have changed if changes are kept, and none
if they are not. -/
theorem complete_in_order (h : e.Reached) (tx : TxId) (keep : Bool) :
    (∀ id, (e.complete tx keep).2.locks.holds tx id = false) ∧ (e.complete tx keep).2.locks.lockedPages tx = [] ∧
    ((e.complete tx keep).1 = .ok () → (e.complete tx keep).2.cache.owned tx = []) ∧
    ∃ done rest, e.cache.owned tx = done ++ rest ∧ Closes keep e done rest (e.complete tx keep) ∧
      ∀ here bytes, e.disk.held here = .ok bytes → ∃ bytes', (e.complete tx keep).2.disk.held here = .ok bytes' ∧
        ∀ i, bytes'[i]? ≠ bytes[i]? → keep = true ∧ ∃ id ∈ done, ∃ file, e.file id.table = .ok file ∧
          file.location = here ∧ i / file.pageSize = id.number := by
  have ht := h.tidy
  obtain ⟨hl, done, rest, ho, hc⟩ := ht.complete tx keep
  refine ⟨fun id => ?_, ?_, fun hok => ?_, done, rest, ho, hc, fun here bytes hb => hc.bytes hb⟩
  · unfold LockTable.holds
    rw [hl, LockTable.mode?_releaseAll ht.locks, if_pos rfl]
    rfl
  · rw [hl]
    exact LockTable.lockedPages_releaseAll ht.locks
  · exact hc.owned_eq_nil ht (stable_tidy.complete ht tx keep) ho hok

end Engine

/-! ## A torn end -/

namespace Sample

/-- A transaction has changed a page of each of two tables, and then the table of the older change has lost its name to
a third one. -/
def torn : Engine :=
  let a : Engine := ((empty {}).createTable ⟨false, ["a"], .nothing⟩ "a" schema none).2
  let b : Engine := (a.createTable ⟨false, ["b"], .nothing⟩ "b" schema none).2
  let changed : Engine := b.run [.begin, .insert ⟨1⟩ ⟨2⟩ (record 6), .insert ⟨1⟩ ⟨1⟩ (record 5)]
  (changed.createTable ⟨false, ["c"], .nothing⟩ "b" schema none).2

theorem reached_torn : torn.Reached :=
  have hb := ((Engine.Reached.start (start_empty {})).table _ _ _ _).table _ _ _ _
  (hb.run _).table _ _ _ _

/-- **A transaction can end with one page written and the other one not**: it could not be written, and stays changed by
the transaction. -/
theorem torn_commit : torn.Reached ∧ torn.cache.owned ⟨1⟩ = [⟨⟨1⟩, 0⟩, ⟨⟨2⟩, 0⟩] ∧
    (torn.complete ⟨1⟩ true).1.isOk = false ∧ (torn.complete ⟨1⟩ true).2.cache.owned ⟨1⟩ = [⟨⟨2⟩, 0⟩] ∧
    (torn.complete ⟨1⟩ true).2.pageBytes ⟨⟨1⟩, 0⟩ ≠ torn.pageBytes ⟨⟨1⟩, 0⟩ :=
  ⟨reached_torn, by decide +kernel, by decide +kernel, by decide +kernel, by decide +kernel⟩

/-- Its locks go all the same. -/
theorem complete_in_order_torn : torn.Reached ∧
    (∀ id, (torn.complete ⟨1⟩ true).2.locks.holds ⟨1⟩ id = false) ∧
    (torn.complete ⟨1⟩ true).2.locks.lockedPages ⟨1⟩ = [] ∧
    ((torn.complete ⟨1⟩ true).1 = .ok () → (torn.complete ⟨1⟩ true).2.cache.owned ⟨1⟩ = []) ∧
    ∃ done rest, torn.cache.owned ⟨1⟩ = done ++ rest ∧ Engine.Closes true torn done rest (torn.complete ⟨1⟩ true) ∧
      ∀ here bytes, torn.disk.held here = .ok bytes → ∃ bytes', (torn.complete ⟨1⟩ true).2.disk.held here = .ok bytes' ∧
        ∀ i, bytes'[i]? ≠ bytes[i]? → ∃ id ∈ done, ∃ file, torn.file id.table = .ok file ∧
          file.location = here ∧ i / file.pageSize = id.number := by
  obtain ⟨hholds, hlocked, hok, done, rest, howned, hcloses, hfiles⟩ :=
    Engine.complete_in_order reached_torn ⟨1⟩ true
  refine ⟨reached_torn, hholds, hlocked, hok, done, rest, howned, hcloses, fun here bytes hb => ?_⟩
  obtain ⟨bytes', hb', hpages⟩ := hfiles here bytes hb
  exact ⟨bytes', hb', fun i hi => (hpages i hi).2⟩

end Sample

end HeapStore
