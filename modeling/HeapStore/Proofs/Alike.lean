import HeapStore.Proofs.Requests

/-!
# Engines that are alike

Two engines with the same files, locks and changes may have copies of other unchanged pages, and may have to make room
at other times. What is loaded, written and dropped is the same in both, and leaves them so, or one of them has no room.

* `AccessFault.crowds`: there is no room for a copy, which depends on what other copies there are.
* `Engine.latest`: a page with its changes, or as it is stored. `Engine.load_latest` says that **this is what is loaded**,
  whether it has a copy or not.
* `Engine.Alike`: engines with the same files, locks and changes. `Engine.Paired`: what comes of a function on both.
* `Alike.flushEach`, `Alike.discardPages`, `Alike.complete`, `Alike.fetch`: **the functions on pages**.
-/

namespace HeapStore

/-- There is no room for a copy. -/
def AccessFault.crowds : AccessFault → Bool
  | .allPagesDirty _ => true
  | _ => false

/-- There was no room for a copy. -/
def isCrowded {α : Type} : Except AccessFault α → Bool
  | .ok _ => false
  | .error fault => fault.crowds

theorem isCrowded_map {α β : Type} (g : α → β) (r : Except AccessFault α) : isCrowded (r.map g) = isCrowded r := by
  cases r <;> rfl

namespace Engine

variable {e e' f f' : Engine} {tx : TxId} {id : PageId} {mode : LockMode} {table : TableId} {file : TableFile}
  {r : Record} {a b : Frame} {α β : Type}

/-! ## What is loaded -/

/-- The page with its changes, whoever has made them, or as it is stored. -/
def latest (e : Engine) (id : PageId) : Except AccessFault Page :=
  match e.cache.unsaved id with
  | some page => .ok page
  | none => e.stored id

/-- A copy is the latest state of its page. -/
theorem Coherent.latest_of_find? (h : e.Coherent) (ha : e.cache.find? id = some a) : e.latest id = .ok a.page := by
  unfold latest
  rw [Cache.unsaved_of_find? ha]
  cases hc : a.isClean with
  | false => rfl
  | true =>
    obtain ⟨hm, rfl⟩ := Cache.mem_of_find? ha
    obtain ⟨q, hq, hr⟩ := h.copies a hm
    rw [hr.clean (Frame.isClean_iff.1 hc)] at hq ⊢
    exact hq

theorem latest_of_find?_none (hn : e.cache.find? id = none) : e.latest id = e.stored id := by
  unfold latest Cache.unsaved
  rw [hn]
  rfl

/-- A page with changes lies in its file. -/
theorem Coherent.inFile_of_unsaved (h : e.Coherent) (hu : (e.cache.unsaved id).isSome) :
    id.number < e.pages id.table := by
  obtain ⟨page, hp⟩ := Option.isSome_iff_exists.1 hu
  obtain ⟨tx, hd⟩ := Cache.exists_draft_of_unsaved hp
  obtain ⟨-, -, -, -, -, -, hn⟩ := h.of_draft hd
  exact hn

/-- A function has changed copies only, and none with changes. -/
structure Copies (e e' : Engine) : Prop where
  coherent : e'.Coherent
  catalog : e'.catalog = e.catalog
  disk : e'.disk = e.disk
  locks : e'.locks = e.locks
  lastTx : e'.lastTx = e.lastTx
  draft : e'.cache.draft = e.cache.draft

theorem copies_evict {cache : Cache} (h : e.Coherent) (hc : e.cache.evict? = some cache) : Copies e { e with cache } := by
  refine ⟨steady_coherent.evict h hc, rfl, rfl, rfl, rfl, ?_⟩
  obtain ⟨g, hg, hd, rfl⟩ := Cache.evict?_cases hc
  exact funext fun tx => funext fun id => Cache.draft_remove h.nodup hg hd

/-- Loading a page changes no locks and begins no transaction. -/
theorem locks_load (e : Engine) (id : PageId) : (e.load id).2.locks = e.locks ∧ (e.load id).2.lastTx = e.lastTx := by
  unfold load
  split
  · exact ⟨rfl, rfl⟩
  · split
    · exact ⟨rfl, rfl⟩
    · split <;> exact ⟨rfl, rfl⟩

/-- Loading a page leaves all changes as they are. -/
theorem draft_load (hn : e.cache.pages.Nodup) (id : PageId) : (e.load id).2.cache.draft = e.cache.draft := by
  unfold load
  split
  · exact funext fun tx => funext fun id' => Cache.draft_touch hn
  · next hnone =>
    split
    · rfl
    · next page hs =>
      obtain ⟨hid, hclean⟩ := of_stored_eq hs
      subst hid
      split
      · rfl
      · next cache hr =>
        refine funext fun tx => funext fun id' => ?_
        -- room is made by dropping a clean copy, and the new copy is clean
        have hdraft : cache.draft tx id' = e.cache.draft tx id' := by
          rcases Cache.makeRoom?_cases hr with rfl | ⟨g, hg, hd, rfl⟩
          · rfl
          · exact Cache.draft_remove hn hg hd
        have hnew : page.id ∉ cache.pages := by
          intro hm
          obtain ⟨g, hg, he⟩ := List.mem_map.1 hm
          refine Cache.find?_eq_none_iff.1 hnone ?_
          rw [← he]
          rcases Cache.makeRoom?_cases hr with rfl | ⟨g', -, -, rfl⟩
          · exact Cache.mem_pages_of_mem hg
          · exact Cache.mem_pages_of_mem (Cache.mem_remove.1 hg).1
        exact (Cache.draft_add hnew hclean).trans hdraft

/-- **What is loaded is the latest state of the page**, unless there is no room for it. -/
theorem load_latest (h : e.Coherent) (id : PageId) : Copies e (e.load id).2 ∧
    ((e.load id).1.map Frame.page = e.latest id ∨ isCrowded (e.load id).1 = true) := by
  constructor
  · exact ⟨steady_coherent.load h id, (steady_catalog e.catalog).load rfl id, (steady_disk e.disk).load rfl id,
      (e.locks_load id).1, (e.locks_load id).2, draft_load h.nodup id⟩
  · unfold load
    split
    · next a ha => exact .inl (h.latest_of_find? ha).symm
    · next hn =>
      rw [latest_of_find?_none hn]
      cases hs : e.stored id with
      | error fault => exact .inl rfl
      | ok page =>
        cases hr : e.cache.makeRoom? with
        | none => exact .inr rfl
        | some cache => exact .inl rfl

/-- A page that is fetched is the latest state of it. -/
theorem Coherent.latest_of_fetch (h : e.Coherent) (hf : e.fetch tx id mode = (.ok a, e')) :
    e.latest id = .ok a.page := by
  cases hg : e.locks.grant? tx id mode with
  | none =>
    rw [fetch_denied hg] at hf
    cases hf
  | some locks =>
    rw [fetch_granted hg] at hf
    have hload := (load_latest (h.locks locks e.lastTx) id).2
    have hrun : (load { e with locks } id).1 = .ok a := congrArg Prod.fst hf
    rw [hrun] at hload
    rcases hload with hload | hload
    · exact hload.symm
    · cases hload

/-! ## Engines that are alike -/

/-- Engines with the same files, locks and changes. -/
structure Alike (e f : Engine) : Prop where
  left : e.Coherent
  right : f.Coherent
  catalog : f.catalog = e.catalog
  bytes : ∀ table, f.fileBytes table = e.fileBytes table
  locks : f.locks = e.locks
  lastTx : f.lastTx = e.lastTx
  draft : f.cache.draft = e.cache.draft

/-- What comes of a function on both engines: the same, and they are alike again, or there was no room in one of
them. -/
inductive Paired (crowded : α → Bool) : α × Engine → α × Engine → Prop where
  | same {x : α} {e f : Engine} (h : Alike e f) : Paired crowded (x, e) (x, f)
  | left {x : α} {e : Engine} {o : α × Engine} (h : crowded x = true) : Paired crowded (x, e) o
  | right {y : α} {f : Engine} {o : α × Engine} (h : crowded y = true) : Paired crowded o (y, f)

namespace Paired

variable {crowded : α → Bool} {crowded' : β → Bool} {o o' : α × Engine}

/-- The same is made of what both give. -/
theorem map (h : Paired crowded o o') (g : α → β) (hg : ∀ x, crowded x = true → crowded' (g x) = true) :
    Paired crowded' (g o.1, o.2) (g o'.1, o'.2) := by
  cases h with
  | same h => exact .same h
  | left h => exact .left (hg _ h)
  | right h => exact .right (hg _ h)

/-- If there was room in both they have given the same. -/
theorem of_room (h : Paired crowded o o') (ho : crowded o.1 = false) (ho' : crowded o'.1 = false) :
    o'.1 = o.1 ∧ Alike o.2 o'.2 := by
  cases h with
  | same h => exact ⟨rfl, h⟩
  | left h =>
    rw [ho] at h
    cases h
  | right h =>
    rw [ho'] at h
    cases h

/-- One of them has no room, or both give a fault, or both give something that is the same as far as `g` tells. -/
theorem split {γ : Type} {g : α → γ} {o o' : Outcome AccessFault α}
    (h : Paired isCrowded (o.1.map g, o.2) (o'.1.map g, o'.2)) :
    (∃ fault e, o = (.error fault, e) ∧ fault.crowds = true) ∨
      (∃ fault f, o' = (.error fault, f) ∧ fault.crowds = true) ∨
      (∃ fault e f, o = (.error fault, e) ∧ o' = (.error fault, f) ∧ Alike e f) ∨
      ∃ x y e f, o = (.ok x, e) ∧ o' = (.ok y, f) ∧ g y = g x ∧ Alike e f := by
  obtain ⟨x, e⟩ := o
  obtain ⟨y, f⟩ := o'
  cases hx : isCrowded x with
  | true =>
    cases x with
    | ok x => cases hx
    | error fault => exact .inl ⟨fault, e, rfl, hx⟩
  | false =>
    cases hy : isCrowded y with
    | true =>
      cases y with
      | ok y => cases hy
      | error fault => exact .inr (.inl ⟨fault, f, rfl, hy⟩)
    | false =>
      obtain ⟨heq, halike⟩ := h.of_room ((isCrowded_map g x).trans hx) ((isCrowded_map g y).trans hy)
      simp only at heq halike
      cases x with
      | error fault =>
        cases y with
        | error fault' =>
          cases heq
          exact .inr (.inr (.inl ⟨fault, e, f, rfl, rfl, halike⟩))
        | ok y => cases heq
      | ok x =>
        cases y with
        | error fault' => cases heq
        | ok y => exact .inr (.inr (.inr ⟨x, y, e, f, rfl, rfl, Except.ok.inj heq, halike⟩))

end Paired

/-- A function that goes on from another one if that gives no fault. -/
def andThen (o : Outcome AccessFault α) (k : α → Engine → Outcome AccessFault β) : Outcome AccessFault β :=
  match o with
  | (.error fault, e) => (.error fault, e)
  | (.ok x, e) => k x e

/-- Both go on from what both have given. -/
theorem Paired.andThen {γ : Type} {o o' : Outcome AccessFault α} {g : α → γ}
    {k k' : α → Engine → Outcome AccessFault β} (h : Paired isCrowded (o.1.map g, o.2) (o'.1.map g, o'.2))
    (hk : ∀ x y e f, o = (.ok x, e) → o' = (.ok y, f) → g y = g x → Alike e f →
      Paired isCrowded (k x e) (k' y f)) : Paired isCrowded (Engine.andThen o k) (Engine.andThen o' k') := by
  rcases h.split with ⟨fault, e, rfl, hc⟩ | ⟨fault, f, rfl, hc⟩ | ⟨fault, e, f, rfl, rfl, ha⟩ | ⟨x, y, e, f, rfl, rfl, hg, ha⟩
  · exact .left hc
  · exact .right hc
  · exact .same ha
  · exact hk x y e f rfl rfl hg ha

namespace Alike

variable (h : Alike e f)

include h

theorem file_eq (table : TableId) : f.file table = e.file table := file_congr h.catalog table

theorem pages_eq (table : TableId) : f.pages table = e.pages table := by
  unfold pages
  rw [h.file_eq, h.bytes]

theorem pageBytes_eq (id : PageId) : f.pageBytes id = e.pageBytes id := by
  unfold pageBytes
  rw [h.file_eq, h.bytes]

theorem small_iff : f.Small ↔ e.Small := by
  unfold Small
  simp only [h.file_eq, h.bytes]

theorem unsaved_eq (id : PageId) : f.cache.unsaved id = e.cache.unsaved id :=
  Cache.unsaved_congr fun tx => by rw [h.draft]

theorem stored_eq (id : PageId) : f.stored id = e.stored id := by
  cases hf : e.file id.table with
  | error fault =>
    unfold stored
    rw [h.file_eq, hf]
    rfl
  | ok file =>
    have hf' : f.file id.table = .ok file := (h.file_eq _).trans hf
    rcases Nat.lt_or_ge id.number (e.pages id.table) with hn | hn
    · have hn' : id.number < f.pages id.table := (h.pages_eq _).symm ▸ hn
      rw [h.left.present.stored_of_lt hf hn ⟨0⟩, h.right.present.stored_of_lt hf' hn' ⟨0⟩, view_stored_eq hf,
        view_stored_eq hf', h.pageBytes_eq]
    · have hn' : f.pages id.table ≤ id.number := (h.pages_eq _).symm ▸ hn
      rw [h.left.present.stored_of_le hf hn, h.right.present.stored_of_le hf' hn', h.pages_eq]

theorem latest_eq (id : PageId) : f.latest id = e.latest id := by
  unfold latest
  rw [h.unsaved_eq, h.stored_eq]

theorem copies (he : Copies e e') (hf : Copies f f') : Alike e' f' where
  left := he.coherent
  right := hf.coherent
  catalog := hf.catalog.trans (h.catalog.trans he.catalog.symm)
  bytes table := by
    rw [fileBytes_of_disk hf.catalog hf.disk, fileBytes_of_disk he.catalog he.disk, h.bytes]
  locks := hf.locks.trans (h.locks.trans he.locks.symm)
  lastTx := hf.lastTx.trans (h.lastTx.trans he.lastTx.symm)
  draft := hf.draft.trans (h.draft.trans he.draft.symm)

/-- Both have other locks. -/
theorem relock (locks : LockTable) : Alike { e with locks } { f with locks } :=
  ⟨h.left.locks locks e.lastTx, h.right.locks locks f.lastTx, h.catalog, h.bytes, rfl, h.lastTx, h.draft⟩

/-! ## Writing and dropping changes -/

/-- Files in which the same pages got the same bytes hold the same. -/
theorem settles_bytes {ids ids' : List PageId} {bytes bytes' : PageId → Bytes} (he : Settles ids bytes e e')
    (hf : Settles ids' bytes' f f') (hb : ∀ id, bytes' id = bytes id) (table : TableId) :
    f'.fileBytes table = e'.fileBytes table := by
  cases hfile : e.file table with
  | error fault =>
    have he' : e'.file table = .error fault := (file_congr he.catalog _).trans hfile
    have hf' : f'.file table = .error fault := (file_congr hf.catalog _).trans ((h.file_eq _).trans hfile)
    unfold fileBytes
    rw [he', hf']
  | ok file =>
    have hfile' : f.file table = .ok file := (h.file_eq _).trans hfile
    have he' : e'.file table = .ok file := (file_congr he.catalog _).trans hfile
    have hf' : f'.file table = .ok file := (file_congr hf.catalog _).trans hfile'
    have hin : ∀ n, (e.cache.unsaved ⟨table, n⟩).isSome → n < Paged.count file.pageSize (e.fileBytes table) := by
      intro n hu
      rw [← Engine.pages_eq hfile]
      exact h.left.inFile_of_unsaved hu
    have hrf := hf.rewritten hfile'
    rw [h.bytes] at hrf
    refine (he.rewritten hfile).eq hrf (fun n hn => hin n hn.2) (fun n hn => hin n (h.unsaved_eq _ ▸ hn.2)) fun n => ?_
    have hpage : f'.pageBytes ⟨table, n⟩ = e'.pageBytes ⟨table, n⟩ := by
      rw [hf.bytes, he.bytes]
      exact hb _
    have hbytes : ∀ g : Engine, g.file table = .ok file →
        g.pageBytes ⟨table, n⟩ = Paged.page file.pageSize (g.fileBytes table) n := fun _ hg => Engine.pageBytes_eq hg
    rw [hbytes f' hf', hbytes e' he'] at hpage
    exact hpage

/-- The same pages are settled in both, as far as they have changes. -/
theorem settles {ids ids' : List PageId} {bytes bytes' : PageId → Bytes} (he : Settles ids bytes e e')
    (hf : Settles ids' bytes' f f') (hb : ∀ id, bytes' id = bytes id)
    (hids : ∀ id, (e.cache.unsaved id).isSome → (id ∈ ids' ↔ id ∈ ids)) : Alike e' f' where
  left := he.coherent
  right := hf.coherent
  catalog := hf.catalog.trans (h.catalog.trans he.catalog.symm)
  bytes := h.settles_bytes he hf hb
  locks := hf.locks.trans (h.locks.trans he.locks.symm)
  lastTx := hf.lastTx.trans (h.lastTx.trans he.lastTx.symm)
  draft := by
    funext tx id
    rw [hf.draft, he.draft, h.draft]
    cases hd : e.cache.draft tx id with
    | none => simp
    | some page =>
      have hu : (e.cache.unsaved id).isSome := by
        rw [Cache.unsaved_of_draft hd]
        rfl
      simp only [hids id hu]

theorem written_eq {ids ids' : List PageId}
    (hids : ∀ id, (e.cache.unsaved id).isSome → (id ∈ ids' ↔ id ∈ ids)) (id : PageId) :
    f.written ids' id = e.written ids id := by
  unfold written
  rw [h.unsaved_eq, h.pageBytes_eq]
  cases hu : e.cache.unsaved id with
  | none => simp
  | some page => simp only [hids id (by rw [hu]; rfl)]

/-- **Both write the same**, whichever unchanged pages are among those that are written. -/
theorem flushEach {ids ids' : List PageId}
    (hids : ∀ id, (e.cache.unsaved id).isSome → (id ∈ ids' ↔ id ∈ ids)) :
    Paired isCrowded (Engine.flushEach ids e) (Engine.flushEach ids' f) := by
  obtain ⟨e', hrun, he⟩ := flushEach_ok ids h.left
  obtain ⟨f', hrun', hf⟩ := flushEach_ok ids' h.right
  rw [hrun, hrun']
  exact .same (h.settles he hf (h.written_eq hids) hids)

theorem flushPage (id : PageId) : Paired isCrowded (e.flushPage id) (f.flushPage id) := by
  obtain ⟨e', hrun, he⟩ := flushPage_total h.left id
  obtain ⟨f', hrun', hf⟩ := flushPage_total h.right id
  rw [hrun, hrun']
  exact .same (h.settles he hf (h.written_eq fun _ _ => Iff.rfl) fun _ _ => Iff.rfl)

theorem mem_owned_iff (tx : TxId) (id : PageId) : id ∈ f.cache.owned tx ↔ id ∈ e.cache.owned tx := by
  rw [Cache.mem_owned h.left.nodup, Cache.mem_owned h.right.nodup, h.draft]

/-- A page with changes has a copy. -/
theorem mem_pages_iff (hu : (e.cache.unsaved id).isSome) : id ∈ f.cache.pages ↔ id ∈ e.cache.pages := by
  have hmem : ∀ c : Cache, (c.unsaved id).isSome → id ∈ c.pages := by
    intro c hu
    by_contra hn
    unfold Cache.unsaved at hu
    rw [Cache.find?_eq_none_iff.2 hn] at hu
    cases hu
  exact ⟨fun _ => hmem _ hu, fun _ => hmem _ (by rw [h.unsaved_eq]; exact hu)⟩

/-- Both drop the changes of a transaction. -/
theorem discardPages (tx : TxId) : Paired isCrowded (e.discardPages tx) (f.discardPages tx) := by
  obtain ⟨e', hrun, he, -⟩ := discardEach_ok (e.cache.owned tx) h.left fun _ => Cache.mem_pages_of_owned
  obtain ⟨f', hrun', hf, -⟩ := discardEach_ok (f.cache.owned tx) h.right fun _ => Cache.mem_pages_of_owned
  unfold Engine.discardPages
  rw [hrun, hrun']
  exact .same (h.settles he hf h.pageBytes_eq fun id _ => h.mem_owned_iff tx id)

theorem unlockAll (tx : TxId) : Alike (e.unlockAll tx) (f.unlockAll tx) := by
  unfold Engine.unlockAll
  rw [h.locks]
  exact h.relock _

theorem complete (tx : TxId) (keep : Bool) : Paired isCrowded (e.complete tx keep) (f.complete tx keep) := by
  have hends : ∀ {o o' : Outcome AccessFault Unit}, Paired isCrowded o o' →
      Paired isCrowded (o.1, o.2.unlockAll tx) (o'.1, o'.2.unlockAll tx) := by
    intro o o' ho
    cases ho with
    | same h => exact .same (h.unlockAll tx)
    | left h => exact .left h
    | right h => exact .right h
  unfold Engine.complete
  cases keep with
  | true => exact hends (h.flushEach fun id _ => h.mem_owned_iff tx id)
  | false => exact hends (h.discardPages tx)

/-! ## Fetching -/

theorem load (id : PageId) :
    Paired isCrowded ((e.load id).1.map Frame.page, (e.load id).2) ((f.load id).1.map Frame.page, (f.load id).2) := by
  obtain ⟨he, he'⟩ := load_latest h.left id
  obtain ⟨hf, hf'⟩ := load_latest h.right id
  rcases he' with he' | hc
  · rcases hf' with hf' | hc
    · rw [he', hf', h.latest_eq]
      exact .same (h.copies he hf)
    · exact .right ((isCrowded_map _ _).trans hc)
  · exact .left ((isCrowded_map _ _).trans hc)

/-- **Both fetch the same page**, or deny it and end the transaction. -/
theorem fetch (tx : TxId) (id : PageId) (mode : LockMode) :
    Paired isCrowded ((e.fetch tx id mode).1.map Frame.page, (e.fetch tx id mode).2)
      ((f.fetch tx id mode).1.map Frame.page, (f.fetch tx id mode).2) := by
  have hlocks := h.locks
  cases hg : e.locks.grant? tx id mode with
  | none =>
    have hg' : f.locks.grant? tx id mode = none := by rw [hlocks, hg]
    obtain ⟨e', hrun, he, -⟩ := discardEach_ok (e.cache.owned tx) h.left fun _ => Cache.mem_pages_of_owned
    obtain ⟨f', hrun', hf, -⟩ := discardEach_ok (f.cache.owned tx) h.right fun _ => Cache.mem_pages_of_owned
    have halike : Alike (e.complete tx false).2 (f.complete tx false).2 := by
      unfold Engine.complete Engine.discardPages
      simp only [Bool.false_eq_true, if_false, hrun, hrun']
      exact (h.settles he hf h.pageBytes_eq fun id _ => h.mem_owned_iff tx id).unlockAll tx
    rw [fetch_denied hg, fetch_denied hg']
    exact .same halike
  | some locks =>
    have hg' : f.locks.grant? tx id mode = some locks := by rw [hlocks, hg]
    rw [fetch_granted hg, fetch_granted hg']
    exact (h.relock locks).load id

end Alike

end Engine

end HeapStore
