import HeapStore.Proofs.Lockstep

/-!
# The cache cannot be seen

How many copies an engine may have decides which pages are read again, and when. It decides nothing else, as long as
there is room for a copy when one is needed.

* `Reply.crowded`: the reply says that there was no room.
* `Engine.Alike.serve`: **a request gives the same in both engines.** Only to mark a page as changed asks whether there
  is a copy of it.
* `Engine.served_alike`: **two engines over the same files that differ in their room for copies give the same replies**,
  and have the same locks and files after each of them.
-/

namespace HeapStore

def EngineFault.crowds : EngineFault → Bool
  | .access fault => fault.crowds
  | _ => false

def Answer.crowded : Answer → Bool
  | .began _ => false
  | .fetched result => isCrowded result
  | .inserted result => isCrowded result
  | .deleted result => isCrowded result
  | .scanned _ result => Engine.isCrowdedScan result
  | .stepped item => Engine.isCrowdedItem item
  | .evicted result => isCrowded result
  | .ended (.error fault) => fault.crowds
  | .ended (.ok ()) => false

/-- There was no room for a copy. -/
def Reply.crowded : Reply → Bool
  | .answer a => a.crowded
  | .done result => isCrowded result
  | .checked (.error fault) => fault.crowds
  | .checked (.ok ()) => false

namespace Engine

variable {e f : Engine} {c : Call} {r : Request} {requests : List Request}

namespace Alike

variable (h : Alike e f)

include h

/-- Both make room, whichever copy goes, or one of them cannot. -/
theorem evict : Paired isCrowded e.evict f.evict := by
  unfold Engine.evict
  cases he : e.cache.evict? with
  | none => exact .left rfl
  | some cache =>
    cases hf : f.cache.evict? with
    | none => exact .right rfl
    | some cache' => exact .same (h.copies (copies_evict h.left he) (copies_evict h.right hf))

theorem remove (id : PageId) : Alike { e with cache := e.cache.remove id } { f with cache := f.cache.remove id } where
  left := h.left.remove id
  right := h.right.remove id
  catalog := h.catalog
  bytes := h.bytes
  locks := h.locks
  lastTx := h.lastTx
  draft := by
    funext tx id'
    show (f.cache.remove id).draft tx id' = (e.cache.remove id).draft tx id'
    rw [Cache.draft_remove_eq h.left.nodup, Cache.draft_remove_eq h.right.nodup, h.draft]

theorem unlock (tx : TxId) (id : PageId) : Alike (e.unlock tx id) (f.unlock tx id) := by
  unfold Engine.unlock
  rw [h.locks]
  exact h.relock _

theorem begin : e.begin.1 = f.begin.1 ∧ Alike e.begin.2 f.begin.2 := by
  unfold Engine.begin
  rw [h.lastTx]
  exact ⟨rfl, h.left.locks e.locks _, h.right.locks f.locks _, h.catalog, h.bytes, h.locks, rfl, h.draft⟩

theorem flushAll : Paired isCrowded e.flushAll f.flushAll := h.flushEach fun _ hu => h.mem_pages_iff hu

/-- **A call gives the same in both engines**, as long as page numbers have room. -/
theorem call (c : Call) (hs : (e.call c).2.Small) : Paired Answer.crowded (e.call c) (f.call c) := by
  have hends : ∀ x : Except AccessFault Unit, isCrowded x = true →
      (Answer.ended (x.mapError .access)).crowded = true := by
    rintro (fault | _) hx
    · exact hx
    · cases hx
  cases c with
  | begin =>
    obtain ⟨heq, ha⟩ := h.begin
    show Paired Answer.crowded (.began e.begin.1, e.begin.2) (.began f.begin.1, f.begin.2)
    rw [heq]
    exact .same ha
  | fetch tx id mode => exact (h.fetch tx id mode).map Answer.fetched fun _ hx => hx
  | insert tx table r => exact (h.insert tx table r hs).map Answer.inserted fun _ hx => hx
  | delete tx r => exact (h.delete tx r).map Answer.deleted fun _ hx => hx
  | scan tx table =>
    show Paired Answer.crowded (.scanned (e.pages table) (e.scan tx table).1, (e.scan tx table).2)
      (.scanned (f.pages table) (f.scan tx table).1, (f.scan tx table).2)
    rw [h.pages_eq]
    exact (h.scan tx table).map (Answer.scanned (e.pages table)) fun _ hx => hx
  | step s => exact (h.next s).map (fun x => Answer.stepped x.1) fun _ hx => hx
  | evict => exact h.evict.map Answer.evicted fun _ hx => hx
  | commit tx => exact (h.complete tx true).map (fun x => Answer.ended (x.mapError .access)) hends
  | abort tx => exact (h.complete tx false).map (fun x => Answer.ended (x.mapError .access)) hends

/-- **A request gives the same in both engines.** -/
theorem serve (r : Request) (hm : ∀ id tx, r ≠ .mark id tx) (hs : (e.serve r).2.Small) :
    Paired Reply.crowded (e.serve r) (f.serve r) := by
  cases r with
  | call c => exact (h.call c hs).map Reply.answer fun _ hx => hx
  | checkpoint =>
    refine h.flushAll.map (fun x => Reply.checked (x.mapError .access)) ?_
    rintro (fault | _) hx
    · exact hx
    · cases hx
  | flushPage id => exact (h.flushPage id).map Reply.done fun _ hx => hx
  | flushPages tx => exact (h.flushEach fun id _ => h.mem_owned_iff tx id).map Reply.done fun _ hx => hx
  | flushAll => exact h.flushAll.map Reply.done fun _ hx => hx
  | discardPages tx => exact (h.discardPages tx).map Reply.done fun _ hx => hx
  | remove id => exact .same (h.remove id)
  | unlock tx id => exact .same (h.unlock tx id)
  | mark id tx => exact absurd rfl (hm id tx)

end Alike

/-- **Requests give the same in both engines**, which are alike after each of them. -/
theorem Alike.serveAll (requests : List Request) (hm : ∀ id tx, Request.mark id tx ∉ requests) :
    ∀ {e f : Engine}, Alike e f → (e.serveAll requests).Small →
      (∀ reply ∈ e.replies requests, reply.crowded = false) → (∀ reply ∈ f.replies requests, reply.crowded = false) →
      f.replies requests = e.replies requests ∧
        ∀ n, Alike (e.serveAll (requests.take n)) (f.serveAll (requests.take n)) := by
  induction requests with
  | nil =>
    intro e f h _ _ _
    refine ⟨rfl, fun n => ?_⟩
    rw [List.take_nil]
    exact h
  | cons r requests ih =>
    intro e f h hs he hf
    have hpair := h.serve r (fun id tx hr => hm id tx (hr ▸ List.mem_cons_self))
      (small_of_served h.left.present [r] requests hs)
    obtain ⟨hreply, h1⟩ := hpair.of_room (he _ List.mem_cons_self) (hf _ List.mem_cons_self)
    obtain ⟨hreplies, halike⟩ := ih (fun id tx hmem => hm id tx (List.mem_cons_of_mem _ hmem)) h1 hs
      (fun reply hmem => he reply (List.mem_cons_of_mem _ hmem))
      (fun reply hmem => hf reply (List.mem_cons_of_mem _ hmem))
    refine ⟨?_, fun n => ?_⟩
    · show (f.serve r).1 :: (f.serve r).2.replies requests = (e.serve r).1 :: (e.serve r).2.replies requests
      rw [hreply, hreplies]
    · cases n with
      | zero => exact h
      | succ n => exact halike n

/-- Engines that were opened over the same files are alike. -/
theorem Ready.alike (he : e.Ready) (hf : f.Ready) (hcatalog : f.catalog = e.catalog) (hlast : f.lastTx = e.lastTx)
    (hfiles : ∀ {table file}, e.file table = .ok file → f.disk.held file.location = e.disk.held file.location) :
    Alike e f where
  left := he.sound.toCoherent
  right := hf.sound.toCoherent
  catalog := hcatalog
  bytes table := by
    unfold fileBytes
    rw [file_congr hcatalog]
    cases hfile : e.file table with
    | error fault => rfl
    | ok file => simp only [hfiles hfile]
  locks := by rw [he.locks, hf.locks]
  lastTx := hlast
  draft := funext fun tx => funext fun id => by rw [he.draft, hf.draft]

/-- Files of engines that are alike hold the same. -/
theorem Alike.held_eq {table : TableId} {file : TableFile} (h : Alike e f) (hfile : e.file table = .ok file) :
    f.disk.held file.location = e.disk.held file.location := by
  rw [h.left.present.held hfile, h.right.present.held ((h.file_eq table).trans hfile), h.bytes]

/-- **The cache cannot be seen.** Two engines were opened over the same files, with room for different numbers of
copies, and the same is asked of them, but to mark a page as changed. As long as page numbers have room and no reply
of either says that there is no room for a copy, they reply the same, and after each reply they have the same locks
and their tables the same files. -/
theorem served_alike (he : e.Ready) (hf : f.Ready) (hcatalog : f.catalog = e.catalog) (hlast : f.lastTx = e.lastTx)
    (hfiles : ∀ {table file}, e.file table = .ok file → f.disk.held file.location = e.disk.held file.location)
    (requests : List Request) (hm : ∀ id tx, Request.mark id tx ∉ requests) (hs : (e.serveAll requests).Small)
    (hroom : ∀ reply ∈ e.replies requests, reply.crowded = false)
    (hroom' : ∀ reply ∈ f.replies requests, reply.crowded = false) :
    f.replies requests = e.replies requests ∧
      ∀ n, let e' := e.serveAll (requests.take n)
        let f' := f.serveAll (requests.take n)
        f'.locks = e'.locks ∧
          ∀ table file, e'.file table = .ok file → f'.disk.held file.location = e'.disk.held file.location := by
  obtain ⟨hreplies, halike⟩ := (he.alike hf hcatalog hlast hfiles).serveAll requests hm hs hroom hroom'
  exact ⟨hreplies, fun n => ⟨(halike n).locks, fun _ _ hfile => (halike n).held_eq hfile⟩⟩

end Engine

namespace Sample

/-- The same engine with room for one more copy. -/
def wider : Engine := { engine with cache := { capacity := 3 } }

theorem ready_wider : wider.Ready :=
  ⟨ready.catalog, ⟨ready.present.held⟩, rfl, rfl, ready.locks, by decide⟩

/-- Two transactions use three pages. What the second one has changed is written before it is dropped. -/
def crossing : List Request :=
  [.call .begin, .call (.insert ⟨1⟩ table (record 5)), .call (.insert ⟨1⟩ table (record 6)),
    .call (.insert ⟨1⟩ table (record 7)), .call (.commit ⟨1⟩), .call .begin,
    .call (.insert ⟨2⟩ table (record 8)), .call (.insert ⟨2⟩ table (record 9)),
    .call (.fetch ⟨3⟩ ⟨table, 1⟩ .shared), .checkpoint, .call (.abort ⟨2⟩), .call (.scan ⟨3⟩ table)]

/-- The engines keep different copies. -/
theorem served_alike_crossing : engine.Ready ∧ wider.Ready ∧ (engine.serveAll crossing).Small ∧
    (engine.serveAll crossing).cache.pages.length = 2 ∧ (wider.serveAll crossing).cache.pages.length = 3 ∧
    wider.replies crossing = engine.replies crossing ∧
      ∀ n, let e' := engine.serveAll (crossing.take n)
        let f' := wider.serveAll (crossing.take n)
        f'.locks = e'.locks ∧
          ∀ table file, e'.file table = .ok file → f'.disk.held file.location = e'.disk.held file.location :=
  have hs : (engine.serveAll crossing).Small := small_served (by decide +kernel)
  have hm : ∀ id tx, Request.mark id tx ∉ crossing := by
    intro id tx h
    simp [crossing] at h
  ⟨ready, ready_wider, hs, by decide +kernel, by decide +kernel,
    Engine.served_alike ready ready_wider rfl rfl (fun _ => rfl) crossing hm hs (by decide +kernel)
      (by decide +kernel)⟩

end Sample

end HeapStore
