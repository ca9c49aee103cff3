import HeapStore.Proofs.Alike
import HeapStore.Proofs.Completion
import HeapStore.Proofs.Living

/-!
# Pages as they are seen

A page is seen as its copy, or as it is stored if it has none. Copies come and go without any page being seen
otherwise, also where tables have gone and their copies are left.

* `Engine.seen`: a page as it is seen. `Kempt.seen_eq` says that this is its latest state.
* `Engine.Undisturbed`: **pages are seen as before.** `Kempt.fetch_ok` and `Kempt.append_ok` say that fetching a page
  and appending one are of this kind.
* `Engine.Reverts`: what becomes of the pages that are seen when a transaction drops its changes. `Kempt.fetch_error`:
  a page that is not fetched has ended its transaction in this way, or nothing is seen otherwise.
-/

namespace HeapStore.Engine

variable {e e' e'' : Engine} {tx : TxId} {id : PageId} {mode : LockMode} {f : Frame} {fault : AccessFault} {p : Page}
  {table : TableId} {file : TableFile}

/-- A page as it is seen: its copy if it has one, and else the page as it is stored. -/
def seen (e : Engine) (id : PageId) : Except AccessFault Page :=
  match e.cache.find? id with
  | some f => .ok f.page
  | none => e.stored id

theorem seen_of_find? (hf : e.cache.find? id = some f) : e.seen id = .ok f.page := by
  unfold seen
  rw [hf]

theorem seen_of_none (hn : e.cache.find? id = none) : e.seen id = e.stored id := by
  unfold seen
  rw [hn]

theorem seen_congr (hfind : e'.cache.find? id = e.cache.find? id) (hs : e'.stored id = e.stored id) :
    e'.seen id = e.seen id := by
  unfold seen
  rw [hfind, hs]

/-- One copy has another content, and all other pages are seen as before. -/
theorem seen_update (hf : e.cache.find? p.id = some f) (id : PageId) :
    Engine.seen { e with cache := e.cache.update p.id p } id = if id = p.id then .ok p else e.seen id := by
  have hfind : (e.cache.update p.id p).find? id = if id = p.id then _ else e.cache.find? id := Cache.find?_update rfl
  unfold seen
  rw [hfind]
  by_cases hid : id = p.id
  · rw [if_pos hid, if_pos hid, hf]
    rfl
  · rw [if_neg hid, if_neg hid]
    rfl

/-- A table with pages has a file. -/
theorem exists_file (hn : id.number < e.pages id.table) : ∃ file, e.file id.table = .ok file := by
  cases hf : e.file id.table with
  | error fault =>
    rw [pages_of_error hf] at hn
    exact absurd hn (Nat.not_lt_zero _)
  | ok file => exact ⟨file, rfl⟩

/-- **A page is seen in its latest state.** -/
theorem Kempt.seen_eq (h : e.Kempt) (hf : e.file id.table = .ok file) : e.seen id = e.latest id := by
  cases hm : e.cache.find? id with
  | none => rw [seen_of_none hm, latest_of_find?_none hm]
  | some f =>
    have hlatest : e.kept.latest id = .ok f.page := h.kept.latest_of_find? ((h.find?_kept hf).trans hm)
    have hunsaved : e.kept.cache.unsaved id = e.cache.unsaved id := by
      unfold Cache.unsaved
      rw [h.find?_kept hf]
    rw [seen_of_find? hm, ← hlatest]
    unfold latest
    rw [hunsaved]
    rfl

/-- Behind the end of its file there is no page to be seen. -/
theorem Kempt.seen_behind {n : Nat} (h : e.Kempt) (hf : e.file table = .ok file) (hn : e.pages table ≤ n) :
    ∃ fault, e.seen ⟨table, n⟩ = .error fault := by
  let behind : PageId := ⟨table, n⟩
  have hf : e.file behind.table = .ok file := hf
  have hnone : e.cache.find? behind = none := by
    rw [Option.eq_none_iff_forall_ne_some]
    exact fun f hm => absurd (h.inFile hf hm) (Nat.not_lt.2 hn)
  exact ⟨_, (seen_of_none hnone).trans (h.present.stored_of_le hf hn)⟩

/-- A page that is seen is one of its table. -/
theorem Kempt.of_seen (h : e.Kempt) (hp : e.seen id = .ok p) (hf : e.file id.table = .ok file) :
    p.id = id ∧ p.schema = file.schema ∧ p.size = file.pageSize ∧ id.number < e.pages id.table := by
  have hn : id.number < e.pages id.table := by
    by_contra hge
    obtain ⟨fault, hs⟩ := h.seen_behind hf (Nat.not_lt.1 hge)
    have hs : e.seen id = .error fault := hs
    rw [hp] at hs
    cases hs
  cases hm : e.cache.find? id with
  | some f =>
    rw [seen_of_find? hm] at hp
    cases hp
    obtain ⟨hmem, rfl⟩ := Cache.mem_of_find? hm
    obtain ⟨q, hq, hr⟩ := h.copies f hmem hf
    obtain ⟨file', hf', -, hdec⟩ := h.present.of_stored hq
    rw [hf] at hf'
    cases hf'
    obtain ⟨-, hs, hz, -⟩ := Page.fields_of_decode hdec
    exact ⟨rfl, hr.schema.trans hs, hr.size.trans hz, hn⟩
  | none =>
    rw [seen_of_none hm] at hp
    obtain ⟨file', hf', -, hdec⟩ := h.present.of_stored hp
    rw [hf] at hf'
    cases hf'
    obtain ⟨hid, hs, hz, -⟩ := Page.fields_of_decode hdec
    exact ⟨hid, hs, hz, hn⟩

/-- A page that is seen with changes has a copy that holds them. -/
theorem draft_of_seen (hp : e.seen id = .ok p) (hd : p.dirty = some tx) : e.cache.draft tx id = some p := by
  cases hm : e.cache.find? id with
  | some f =>
    rw [seen_of_find? hm] at hp
    cases hp
    rw [Cache.draft_of_find? hm, if_pos hd]
  | none =>
    rw [seen_of_none hm] at hp
    rw [clean_of_stored hp] at hd
    cases hd

/-- A copy that holds changes is what is seen of its page. -/
theorem seen_of_draft (hp : e.cache.draft tx id = some p) : e.seen id = .ok p ∧ p.dirty = some tx := by
  unfold Cache.draft at hp
  cases hm : e.cache.find? id with
  | none =>
    rw [hm] at hp
    cases hp
  | some f =>
    rw [hm, Option.bind_some] at hp
    split at hp
    · next hd =>
      cases hp
      exact ⟨seen_of_find? hm, hd⟩
    · cases hp

/-- **A page is seen as before once another one is written.** -/
theorem Kempt.seen_of_flush {disk : Disk} (h : e.Kempt) (hf : e.cache.find? f.page.id = some f)
    (hc : f.isClean = false) (hfile : e.file f.page.id.table = .ok file) (hw : file.write e.disk f.page = .ok disk)
    (hp : e.seen id = .ok p) (hne : id ≠ f.page.id) :
    Engine.seen { e with disk, cache := e.cache.update f.page.id (f.page.mark none).settle } id = .ok p := by
  have hk := h.flush hf hc hfile hw
  have hfind : (e.cache.update f.page.id (f.page.mark none).settle).find? id = if id = f.page.id then _ else _ :=
    Cache.find?_update rfl
  rw [if_neg hne] at hfind
  cases hm : e.cache.find? id with
  | some g =>
    rw [seen_of_find? hm] at hp
    rw [hm] at hfind
    exact (seen_of_find? hfind).trans hp
  | none =>
    rw [seen_of_none hm] at hp
    rw [hm] at hfind
    refine (seen_of_none hfind).trans ?_
    -- the bytes of one page have changed in its file
    obtain ⟨-, -, hsize, hn⟩ := h.of_seen (seen_of_find? hf) hfile
    have hlen : f.page.encode.length = file.pageSize := f.page.length_encode.trans hsize
    have hdisk := write_eq_overwrite h.kept hfile hn hlen rfl rfl
    rw [show e.kept.disk = e.disk from rfl, hw] at hdisk
    cases hdisk
    exact h.present.stored_of_bytes hk.present rfl (pages_overwrite h.kept hfile hn hlen id.table).ge
      ((pageBytes_overwrite h.kept hfile hn hlen id).trans (if_neg hne)) hp

/-! ## Nothing is seen otherwise -/

/-- Copies have come or gone, pages have been locked and blank pages been appended, and pages are seen as before. -/
structure Undisturbed (tx : TxId) (e e' : Engine) : Prop where
  kempt : e'.Kempt
  catalog : e'.catalog = e.catalog
  draft : e'.cache.draft = e.cache.draft
  pages : ∀ table, e.pages table ≤ e'.pages table
  stored : ∀ {id : PageId}, id.number < e.pages id.table → e'.stored id = e.stored id
  exclusive : ∀ {id : PageId}, e.locks.mode? tx id = some .exclusive → e'.locks.mode? tx id = some .exclusive

namespace Undisturbed

theorem refl (h : e.Kempt) (tx : TxId) : Undisturbed tx e e :=
  ⟨h, rfl, rfl, fun _ => le_rfl, fun _ => rfl, fun hm => hm⟩

theorem trans (h : Undisturbed tx e e') (h' : Undisturbed tx e' e'') : Undisturbed tx e e'' where
  kempt := h'.kempt
  catalog := h'.catalog.trans h.catalog
  draft := h'.draft.trans h.draft
  pages table := (h.pages table).trans (h'.pages table)
  stored hn := (h'.stored (lt_of_lt_of_le hn (h.pages _))).trans (h.stored hn)
  exclusive hm := h'.exclusive (h.exclusive hm)

theorem file_eq (h : Undisturbed tx e e') (table : TableId) : e'.file table = e.file table := file_congr h.catalog table

/-- **Each page is seen as before.** -/
theorem seen (h : Undisturbed tx e e') (hk : e.Kempt) (hn : id.number < e.pages id.table) : e'.seen id = e.seen id := by
  obtain ⟨file, hf⟩ := exists_file hn
  have hunsaved : e'.cache.unsaved id = e.cache.unsaved id := Cache.unsaved_congr fun tx => by rw [h.draft]
  rw [hk.seen_eq hf, h.kempt.seen_eq ((h.file_eq _).trans hf)]
  unfold latest
  rw [hunsaved, h.stored hn]

/-- The files are as they were. -/
theorem of_disk (hk : e'.Kempt) (hc : e'.catalog = e.catalog) (hd : e'.disk = e.disk)
    (hdraft : e'.cache.draft = e.cache.draft)
    (hx : ∀ {id : PageId}, e.locks.mode? tx id = some .exclusive → e'.locks.mode? tx id = some .exclusive) :
    Undisturbed tx e e' where
  kempt := hk
  catalog := hc
  draft := hdraft
  pages table := (pages_of_disk hc hd table).ge
  stored _ := by
    unfold Engine.stored
    rw [file_congr hc, hd]
  exclusive := hx

end Undisturbed

/-- A copy without changes leaves the cache. -/
theorem Kempt.evictOne (h : e.Kempt) (tx : TxId) : Undisturbed tx e e.evict.2 := by
  unfold Engine.evict
  split
  · exact .refl h tx
  · next cache hc =>
    obtain ⟨g, hg, hd, rfl⟩ := Cache.evict?_cases hc
    have hdraft : (e.cache.remove g.page.id).draft = e.cache.draft :=
      funext fun _ => funext fun _ => Cache.draft_remove h.nodup hg hd
    exact .of_disk (h.remove g.page.id) rfl rfl hdraft fun hm => hm

/-! ## Fetching -/

theorem Kempt.load (h : e.Kempt) (tx : TxId) (id : PageId) : Undisturbed tx e (e.load id).2 :=
  .of_disk (steady_kempt.load h id) ((steady_catalog e.catalog).load rfl id) ((steady_disk e.disk).load rfl id)
    (draft_load h.nodup id) fun hm => by
      rw [(locks_load e id).1]
      exact hm

theorem Kempt.grant {locks : LockTable} (h : e.Kempt) (hg : e.locks.grant? tx id mode = some locks) :
    Undisturbed tx e { e with locks } :=
  .of_disk (h.locks locks e.lastTx) rfl rfl rfl fun hm => LockTable.exclusive_of_grant? hg hm

/-- **A page that is fetched is seen**, and nothing else becomes of it. -/
theorem Kempt.fetch_ok (h : e.Kempt) (hf : e.fetch tx id mode = (.ok f, e')) :
    Undisturbed tx e e' ∧ e'.disk = e.disk ∧ e'.cache.find? id = some f ∧
      (mode = .exclusive → e'.locks.mode? tx id = some .exclusive) := by
  have hdisk := (steady_disk e.disk).fetch rfl tx id mode
  have hfind := find?_of_fetch hf
  rw [hf] at hdisk
  cases hg : e.locks.grant? tx id mode with
  | none =>
    rw [fetch_denied hg] at hf
    cases hf
  | some locks =>
    rw [fetch_granted hg] at hf
    have hgrant := h.grant hg
    have hload := hgrant.kempt.load tx id
    have hlocks := (locks_load { e with locks } id).1
    rw [hf] at hload hlocks
    refine ⟨hgrant.trans hload, hdisk, hfind, ?_⟩
    rintro rfl
    rw [hlocks]
    exact LockTable.mode?_granted hg

/-! ## Going back -/

/-- What is seen once a transaction has dropped its changes: pages that hold changes of it as they are stored, up to one
that has lost its table, and the others as before. -/
structure Reverts (tx : TxId) (e e' : Engine) : Prop where
  pages : ∀ {id : PageId}, id.number < e.pages id.table → e'.seen id = e.seen id ∨
    (∃ p, e.seen id = .ok p ∧ p.dirty = some tx) ∧ e'.seen id = e.stored id
  whole : (∀ id p, e.cache.draft tx id = some p → ∃ file, e.file id.table = .ok file) →
    ∀ {id : PageId} {p : Page}, id.number < e.pages id.table → e.seen id = .ok p → p.dirty = some tx →
      e'.seen id = e.stored id

/-- A call has failed. It has dropped the changes of its transaction if the fault says so, and else done nothing. -/
structure Foils (tx : TxId) (fault : AccessFault) (e e' : Engine) : Prop where
  quiet : fault.aborts = false → ∀ {id : PageId}, id.number < e.pages id.table → e'.seen id = e.seen id
  rolled : fault.aborts = true → Reverts tx e e'

/-- Pages are read again in place of their copies, up to one that cannot be read. -/
theorem discardEach_seen (ids : List PageId) : ∀ e : Engine, ∃ done rest, ids = done ++ rest ∧
    (∀ id ∈ rest.head?, ∃ fault, e.stored id = .error fault) ∧
    ∀ id, (discardEach ids e).2.seen id = if id ∈ done then e.stored id else e.seen id := by
  induction ids with
  | nil => exact fun e => ⟨[], [], rfl, nofun, fun _ => rfl⟩
  | cons first ids ih =>
    intro e
    unfold discardEach
    cases hs : e.stored first with
    | error fault =>
      refine ⟨[], first :: ids, rfl, ?_, fun _ => rfl⟩
      rintro _ ⟨⟩
      exact ⟨fault, hs⟩
    | ok page =>
      have hid := id_of_stored hs
      subst hid
      let e1 : Engine := { e with cache := e.cache.update page.id page }
      have hseen : ∀ id, e1.seen id = if id = page.id then e.stored id else e.seen id := by
        intro id
        have hfind : e1.cache.find? id = if id = page.id then _ else _ := Cache.find?_update rfl
        split
        · next hid =>
          subst hid
          rw [if_pos rfl] at hfind
          cases hm : e.cache.find? page.id with
          | none =>
            rw [hm] at hfind
            exact seen_of_none hfind
          | some f =>
            rw [hm] at hfind
            rw [seen_of_find? hfind, hs]
        · next hid =>
          rw [if_neg hid] at hfind
          exact seen_congr hfind rfl
      -- what is stored does not depend on the copies
      obtain ⟨done, rest, rfl, hrest, hall⟩ := ih e1
      refine ⟨page.id :: done, rest, rfl, hrest, fun id => ?_⟩
      have hall := hall id
      rw [hseen] at hall
      refine hall.trans ?_
      by_cases hd : id ∈ done
      · rw [if_pos hd, if_pos (List.mem_cons_of_mem _ hd)]
        rfl
      · rw [if_neg hd]
        simp only [List.mem_cons, hd, or_false]

/-- **A transaction that ends without its changes rolls back.** -/
theorem Kempt.reverts (h : e.Kempt) (tx : TxId) : Reverts tx e (e.complete tx false).2 := by
  obtain ⟨done, rest, ho, hrest, hseen⟩ := discardEach_seen (e.cache.owned tx) e
  have hseen : ∀ id, (e.complete tx false).2.seen id = if id ∈ done then e.stored id else e.seen id := hseen
  have howned : ∀ id, id ∈ done ++ rest ↔ (e.cache.draft tx id).isSome := by
    intro id
    rw [← ho]
    exact Cache.mem_owned h.nodup
  constructor
  · intro id _
    rw [hseen]
    by_cases hd : id ∈ done
    · obtain ⟨p, hp⟩ := Option.isSome_iff_exists.1 ((howned id).1 (List.mem_append_left _ hd))
      rw [if_pos hd]
      exact .inr ⟨⟨p, seen_of_draft hp⟩, rfl⟩
    · exact .inl (if_neg hd)
  · intro htables id p _ hp hdirty
    -- each page of the transaction can be read, so none is left
    have hnil : rest = [] := by
      cases rest with
      | nil => rfl
      | cons first ids =>
        obtain ⟨fault, hfault⟩ := hrest first rfl
        obtain ⟨q, hq⟩ := Option.isSome_iff_exists.1
          ((howned first).1 (List.mem_append_right _ List.mem_cons_self))
        obtain ⟨file, hf⟩ := htables first q hq
        obtain ⟨f, hm, rfl, rfl, -⟩ := (Cache.draft_eq_some_iff h.nodup).1 hq
        obtain ⟨q, hq, -⟩ := h.copies f hm hf
        rw [hq] at hfault
        cases hfault
    have hmem := (howned id).2 (by rw [draft_of_seen hp hdirty]; rfl)
    rw [hnil, List.append_nil] at hmem
    rw [hseen, if_pos hmem]

theorem Undisturbed.reverts (hu : Undisturbed tx e e') (h : e.Kempt) (hr : Reverts tx e' e'') :
    Reverts tx e e'' := by
  have hin : ∀ {id : PageId}, id.number < e.pages id.table → id.number < e'.pages id.table :=
    fun hn => lt_of_lt_of_le hn (hu.pages _)
  constructor
  · intro id hn
    rw [← hu.seen h hn, ← hu.stored hn]
    exact hr.pages (hin hn)
  · intro htables id p hn hp hd
    rw [← hu.stored hn]
    refine hr.whole (fun id q hq => ?_) (hin hn) ((hu.seen h hn).trans hp) hd
    rw [hu.file_eq]
    rw [hu.draft] at hq
    exact htables id q hq

/-- It does not matter what came before if nothing is seen of it. -/
theorem Undisturbed.foils (hu : Undisturbed tx e e') (h : e.Kempt) (hf : Foils tx fault e' e'') :
    Foils tx fault e e'' where
  quiet ha _ hn := (hf.quiet ha (lt_of_lt_of_le hn (hu.pages _))).trans (hu.seen h hn)
  rolled ha := hu.reverts h (hf.rolled ha)

/-- **A page that is not fetched** has ended its transaction, or nothing is seen of the call. -/
theorem Kempt.fetch_error (h : e.Kempt) (hf : e.fetch tx id mode = (.error fault, e')) :
    Foils tx fault e e' ∧ e'.disk = e.disk := by
  have hdisk := (steady_disk e.disk).fetch rfl tx id mode
  rw [hf] at hdisk
  refine ⟨?_, hdisk⟩
  cases hg : e.locks.grant? tx id mode with
  | none =>
    rw [fetch_denied hg] at hf
    cases hf
    exact ⟨nofun, fun _ => h.reverts tx⟩
  | some locks =>
    rw [fetch_granted hg] at hf
    have hu := (h.grant hg).trans ((h.grant hg).kempt.load tx id)
    have ha := aborts_of_load hf
    rw [hf] at hu
    exact ⟨fun _ _ hn => hu.seen h hn, fun ha' => by rw [ha] at ha'; cases ha'⟩

/-! ## Growing -/

/-- **A blank page can be appended.** It is seen so, and the others are seen as before. -/
theorem Kempt.append_ok (h : e.Kempt) (hf : e.file table = .ok file) (hs : e.Small) (tx : TxId) :
    ∃ disk, file.append e.disk = .ok (e.pages table, disk) ∧ Lengthened table file e { e with disk } ∧
      ({ e with disk }.Small → Undisturbed tx e { e with disk } ∧
        { e with disk }.pages table = e.pages table + 1 ∧
        ∃ p, { e with disk }.seen ⟨table, e.pages table⟩ = .ok p ∧ ∀ slot, p.row? slot = none) := by
  obtain ⟨disk, ha, hl⟩ := append_bytes h.kept hf hs
  have hlong : Lengthened table file e { e with disk } := ⟨⟨hl.present.held⟩, hl.bytes⟩
  refine ⟨disk, ha, hlong, fun hs' => ?_⟩
  have hgrown : ∀ {table' : TableId} {file' : TableFile}, e.file table' = .ok file' →
      Paged.Grown file'.pageSize (e.fileBytes table') ({ e with disk }.fileBytes table') :=
    fun hf' => hlong.grown hf hf'
  have hpages : ∀ table, e.pages table ≤ { e with disk }.pages table := pages_le_of_grown rfl h.catalog hs' hgrown
  have hbytes : { e with disk }.pageBytes = e.pageBytes := pageBytes_of_grown rfl h.catalog hs hs' hgrown
  have hcount : { e with disk }.pages table = if table = table then e.pages table + 1 else e.pages table :=
    hl.pages hf h.kept hs hs' table
  rw [if_pos rfl] at hcount
  refine ⟨⟨h.append hf ha hs hs', rfl, rfl, hpages, fun {id} hn => ?_, fun hm => hm⟩, hcount, ?_⟩
  · -- the page has its bytes still
    obtain ⟨file', hf'⟩ := exists_file hn
    have hf1 : { e with disk }.file id.table = .ok file' := hf'
    rw [h.present.stored_of_lt hf' hn tx, hlong.present.stored_of_lt hf1 (lt_of_lt_of_le hn (hpages _)) tx,
      view_stored_eq hf', view_stored_eq hf1, hbytes]
  · -- the new page has no copy, and its bytes are those that were behind the end
    let new : PageId := ⟨table, e.pages table⟩
    have hf0 : e.file new.table = .ok file := hf
    have hf1 : { e with disk }.file new.table = .ok file := hf
    obtain ⟨p, hp, hrow⟩ : ∃ p, Page.decode new file.schema file.pageSize (Bytes.zeros file.pageSize) = .ok p ∧
      ∀ slot, p.row? slot = none := Page.decode_zeros (h.catalog.slots hf)
    have hnone : { e with disk }.cache.find? new = none := by
      rw [Option.eq_none_iff_forall_ne_some]
      exact fun f hm => absurd (h.inFile hf0 hm) (lt_irrefl _)
    have hlt : new.number < { e with disk }.pages new.table := by
      show e.pages table < { e with disk }.pages table
      omega
    refine ⟨p, ?_, hrow⟩
    rw [seen_of_none hnone, hlong.present.stored_of_lt hf1 hlt tx, view_stored_eq hf1, hbytes,
      pageBytes_of_pages_le hf0 le_rfl, hp]
    rfl

end HeapStore.Engine
