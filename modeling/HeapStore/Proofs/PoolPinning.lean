import HeapStore.Proofs.PoolCalls

/-!
# Changed copies stay in the list

Whatever is demanded of a pool it answers as an engine does. So what was said of the copies of engines holds of the list of
a pool and of the copies that it has by their handles.

* `Pool.meet`, `Pool.meetAll`: a pool after demands.
* `Mirrors.serve`, `Mirrors.meetAll`: each request is answered alike, and both go together after any demands. So **a pool
  answers as an engine does** (`Pool.serve_met`).
* `Pool.Pins`: the list and the copies that it leads to.
* `Pool.met_pinned`: **a copy that is changed is in the list after the next demand too**, under the number of its page, and
  the list has never dropped a copy by itself.
-/

namespace HeapStore.Pool

variable {p : Pool} {e : Engine}

/-- The number of pages of a table. -/
def pages (p : Pool) (table : TableId) : Nat :=
  match p.file table with
  | .ok file => Paged.count file.pageSize ((p.disk.held file.location).toOption.getD [])
  | .error _ => 0

/-- One call. -/
def call (p : Pool) : Call → Answer × Pool
  | .begin => (.began p.begin.1, p.begin.2)
  | .fetch tx id mode =>
    let (h, p) := p.fetch tx id mode
    (.fetched (h.bind (p.content id)), p)
  | .insert tx table r => (.inserted (p.insert tx table r).1, (p.insert tx table r).2)
  | .delete tx r => (.deleted (p.delete tx r).1, (p.delete tx r).2)
  | .scan tx table => (.scanned (p.pages table) (p.scan tx table).1, (p.scan tx table).2)
  | .step s => (.stepped (p.next s).1, (p.next s).2.2)
  | .evict => (.evicted p.evictLast.1, p.evictLast.2)
  | .commit tx => (.ended (raised (p.complete tx true)).1, (p.complete tx true).2)
  | .abort tx => (.ended (raised (p.complete tx false)).1, (p.complete tx false).2)

/-- One request. -/
def serve (p : Pool) : Request → Reply × Pool
  | .call c => (.answer (p.call c).1, (p.call c).2)
  | .checkpoint => (.checked (raised p.flushAll).1, p.flushAll.2)
  | .flushPage id => (.done (p.flushPage id).1, (p.flushPage id).2)
  | .flushPages tx => (.done (p.flushPages tx).1, (p.flushPages tx).2)
  | .flushAll => (.done p.flushAll.1, p.flushAll.2)
  | .discardPages tx => (.done (p.discardPages tx).1, (p.discardPages tx).2)
  | .remove id => (.done (.ok ()), p.remove id)
  | .unlock tx id => (.done (.ok ()), p.unlock tx id)
  | .mark id tx => (.done (p.mark id (some tx)).1, (p.mark id (some tx)).2)

/-- The pool after a demand. -/
def meet (p : Pool) : Demand → Pool
  | .request r => (p.serve r).2
  | .unmark id => (p.mark id none).2
  | .outside disk catalog guarded => { p with disk, catalog, guarded }

/-- The pool after some demands. -/
def meetAll (p : Pool) : List Demand → Pool
  | [] => p
  | d :: demands => (p.meet d).meetAll demands

namespace Mirrors

variable (m : p.Mirrors e)

include m

theorem pages (table : TableId) : p.pages table = e.pages table := by
  unfold Pool.pages Engine.pages Engine.fileBytes
  rw [m.file, m.disk]
  cases e.file table <;> rfl

/-- **Each call is answered alike.** -/
theorem call (c : Call) : (p.call c).1 = (e.call c).1 ∧ (p.call c).2.Mirrors (e.call c).2 := by
  cases c with
  | begin =>
    show Answer.began ⟨p.lastTx + 1⟩ = .began ⟨e.lastTx + 1⟩ ∧
      ({ p with lastTx := p.lastTx + 1 } : Pool).Mirrors { e with lastTx := e.lastTx + 1 }
    rw [m.lastTx]
    exact ⟨rfl, { m with lastTx := rfl }⟩
  | fetch tx id mode =>
    have ha := m.fetch tx id mode
    show Answer.fetched ((p.fetch tx id mode).1.bind ((p.fetch tx id mode).2.content id)) =
      .fetched ((e.fetch tx id mode).1.map Frame.page) ∧ (p.fetch tx id mode).2.Mirrors (e.fetch tx id mode).2
    generalize p.fetch tx id mode = o at ha ⊢
    generalize e.fetch tx id mode = o' at ha ⊢
    cases ha with
    | ok m' hf => exact ⟨congrArg Answer.fetched (m'.content hf), m'⟩
    | error m' => exact ⟨rfl, m'⟩
  | insert tx table r =>
    obtain ⟨ha, m'⟩ := (m.insert tx table r).answer
    exact ⟨congrArg Answer.inserted ha, m'⟩
  | delete tx r =>
    obtain ⟨ha, m'⟩ := (m.delete tx r).answer
    exact ⟨congrArg Answer.deleted ha, m'⟩
  | scan tx table =>
    obtain ⟨ha, m'⟩ := (m.scan tx table).answer
    exact ⟨congrArg₂ Answer.scanned (m.pages table) ha, m'⟩
  | step s =>
    obtain ⟨ha, -, m'⟩ := Mirrors.next s e m
    exact ⟨congrArg Answer.stepped ha, m'⟩
  | evict =>
    obtain ⟨ha, m'⟩ := m.evict.answer
    exact ⟨congrArg Answer.evicted ha, m'⟩
  | commit tx =>
    obtain ⟨ha, m'⟩ := (m.complete tx true).answer
    exact ⟨congrArg (fun r : Except AccessFault Unit => Answer.ended (r.mapError .access)) ha, m'⟩
  | abort tx =>
    obtain ⟨ha, m'⟩ := (m.complete tx false).answer
    exact ⟨congrArg (fun r : Except AccessFault Unit => Answer.ended (r.mapError .access)) ha, m'⟩

/-- **Each request is answered alike.** -/
theorem serve (r : Request) : (p.serve r).1 = (e.serve r).1 ∧ (p.serve r).2.Mirrors (e.serve r).2 := by
  have hdone : ∀ {o : Outcome AccessFault Unit} {o' : Engine.Outcome AccessFault Unit}, Agree Same o o' →
      Reply.done o.1 = .done o'.1 ∧ o.2.Mirrors o'.2 := fun ha => ⟨congrArg Reply.done ha.answer.1, ha.answer.2⟩
  cases r with
  | call c => exact ⟨congrArg Reply.answer (m.call c).1, (m.call c).2⟩
  | checkpoint =>
    obtain ⟨ha, m'⟩ := m.flushAll.answer
    exact ⟨congrArg (fun r : Except AccessFault Unit => Reply.checked (r.mapError .access)) ha, m'⟩
  | flushPage id => exact hdone (m.flushPage id)
  | flushPages tx => exact hdone (m.flushPages tx)
  | flushAll => exact hdone m.flushAll
  | discardPages tx => exact hdone (m.discardPages tx)
  | remove id => exact ⟨rfl, m.pop id⟩
  | unlock tx id =>
    refine ⟨rfl, { m with locks := ?_ }⟩
    show (p.locks.release tx id).table = (e.locks.release tx id).table
    rw [m.locks]
  | mark id tx => exact hdone (m.mark id (some tx))

theorem meet (d : Demand) : (p.meet d).Mirrors (e.meet d) := by
  cases d with
  | request r => exact (m.serve r).2
  | unmark id => exact (m.mark id none).answer.2
  | outside disk catalog guarded =>
    exact { m with
      disk := rfl
      catalog := rfl
      guarded := rfl
      filled := ⟨m.filled.nodup, m.filled.bounded, m.filled.numbers, m.filled.fresh⟩ }

end Mirrors

/-- **After any demands both still go together.** -/
theorem Mirrors.meetAll (demands : List Demand) : ∀ {p : Pool} {e : Engine}, p.Mirrors e →
    (p.meetAll demands).Mirrors (e.meetAll demands) := by
  induction demands with
  | nil => exact fun m => m
  | cons d demands ih => exact fun m => ih (m.meet d)

/-- The pool without its copies, and with room for some number of them. -/
def emptied (p : Pool) (capacity : Nat) : Pool := { p with capacity, cache := { capacity }, copies := [] }

/-- An engine without copies, and with all else of a pool. -/
def engine (p : Pool) (settings : Settings) (capacity : Nat) : Engine :=
  { settings, disk := p.disk, catalog := p.catalog, locks := p.locks, lastTx := p.lastTx
    cache := { capacity, guarded := p.guarded } }

theorem mirrors_emptied (p : Pool) (settings : Settings) (capacity : Nat) :
    (p.emptied capacity).Mirrors (p.engine settings capacity) where
  disk := rfl
  catalog := rfl
  locks := rfl
  lastTx := rfl
  guarded := rfl
  capacity := rfl
  room := rfl
  entries := rfl
  copies := nofun
  count := rfl
  filled := ⟨List.nodup_nil, Nat.zero_le _, List.nodup_nil, nofun⟩
  lost := rfl

/-- **A pool answers as an engine does** after any demands, and has the same disk and copies of the same pages. -/
theorem serve_met (p : Pool) (settings : Settings) (capacity : Nat) (demands : List Demand) (r : Request) :
    let p' := (p.emptied capacity).meetAll demands
    let e' := (p.engine settings capacity).meetAll demands
    (p'.serve r).1 = (e'.serve r).1 ∧ p'.disk = e'.disk ∧ p'.cache.keys = e'.cache.pages := by
  have m := (mirrors_emptied p settings capacity).meetAll demands
  exact ⟨(m.serve r).1, m.disk, m.keys⟩

/-! ## The list and its copies -/

/-- What holds of the list and of the copies of a pool, now and after any demand. -/
structure Pins (capacity : Nat) (p : Pool) : Prop where
  nodup : p.cache.keys.Nodup
  bounded : p.cache.keys.length ≤ capacity
  /-- The key of a copy is the number of its page. -/
  key : ∀ id h, (id, h) ∈ p.cache.entries → ∃ page, p.copies[h]? = some page ∧ page.id = id
  /-- A copy has this key as long as it is in the list. -/
  keeps : ∀ id h, (id, h) ∈ p.cache.entries → ∀ demands id', (id', h) ∈ (p.meetAll demands).cache.entries → id' = id
  /-- A changed copy is in the list after the next demand too, unless this is to remove it. -/
  changed : ∀ d, ∀ x ∈ p.dirtyPages, d ≠ .request (.remove x.1) → x.1 ∈ (p.meet d).cache.keys
  /-- The list has never dropped or replaced a copy when another one came. -/
  lost : p.cache.lost = []
  /-- A copy that was fetched is in the list, and to cache it again is to mark it. -/
  fetched : ∀ tx id mode h q, p.fetch tx id mode = (.ok h, q) → (id, h) ∈ q.cache.entries ∧
    ∀ tx', q.recache tx' h = q.mark id (some tx')
  /-- A copy that was changed has its mark already, so to cache it again is to do nothing. -/
  inserted : ∀ file tx r place h q, p.insertInto file tx r = (.ok (place, h), q) → q.recache tx h = (.ok (), q)
  deleted : ∀ file tx r h q, p.deleteFrom file tx r = (.ok h, q) → q.recache tx h = (.ok (), q)

namespace Mirrors

variable (m : p.Mirrors e)

include m

theorem dirtyPages : p.dirtyPages = e.cache.dirtyPages := by
  unfold Pool.dirtyPages Cache.dirtyPages
  rw [m.entries, List.filterMap_map]
  refine List.filterMap_congr fun f hf => ?_
  show (p.owner? f.copy).map _ = _
  rw [m.owner? hf]
  rfl

theorem fetched {tx : TxId} {id : PageId} {mode : LockMode} {h : Handle} {q : Pool}
    (hf : p.fetch tx id mode = (.ok h, q)) : (id, h) ∈ q.cache.entries ∧ ∀ tx', q.recache tx' h = q.mark id (some tx') := by
  have ha := m.fetch tx id mode
  rw [hf] at ha
  generalize e.fetch tx id mode = o' at ha
  cases ha with
  | @ok _ e' _ f m' hF =>
    refine ⟨List.mem_of_mem_head? hF.first, fun tx' => ?_⟩
    obtain ⟨-, rfl⟩ := Cache.mem_of_find? hF.found
    rw [recache_of_first m'.nodup (m'.copies? hF) hF.first, m'.mark_eq hF.found, hF.copy]

theorem inserted {file : TableFile} {tx : TxId} {r : Record} {place : RecordId} {h : Handle} {q : Pool}
    (hi : p.insertInto file tx r = (.ok (place, h), q)) : q.recache tx h = (.ok (), q) := by
  have ha := m.insertInto file tx r
  rw [hi] at ha
  generalize e.insertInto file tx r = o' at ha
  cases ha with
  | ok m' hr => exact recache_of_changed m'.nodup hr.2

theorem deleted {file : TableFile} {tx : TxId} {r : Record} {h : Handle} {q : Pool}
    (hd : p.deleteFrom file tx r = (.ok h, q)) : q.recache tx h = (.ok (), q) := by
  have ha := m.deleteFrom file tx r
  rw [hd] at ha
  generalize e.deleteFrom file tx r = o' at ha
  cases ha with
  | ok m' hc => exact recache_of_changed m'.nodup hc

/-- A copy has the same key after any demands. -/
theorem keeps {id id' : PageId} {h : Handle} (hx : (id, h) ∈ p.cache.entries) (demands : List Demand)
    (hx' : (id', h) ∈ (p.meetAll demands).cache.entries) : id' = id := by
  obtain ⟨f, hf, hcopy, -, rfl⟩ := m.key hx
  obtain ⟨g, hg, hcopy', -, rfl⟩ := (m.meetAll demands).key hx'
  have hdesc := (Engine.Kept.meetAll demands ⟨m.filled, .refl _⟩).2
  exact hdesc.id_eq m.filled (Cache.mem_of_find? hf).1 (Cache.mem_of_find? hg).1 (hcopy'.trans hcopy.symm)

theorem changed (d : Demand) {x : PageId × TxId} (hx : x ∈ p.dirtyPages) (hd : d ≠ .request (.remove x.1)) :
    x.1 ∈ (p.meet d).cache.keys := by
  rw [m.dirtyPages] at hx
  rw [(m.meet d).keys]
  exact (Engine.meet_stays m.filled d).2 x.1 (Cache.changed_of_mem_dirtyPages m.filled.nodup hx) hd

theorem pins : Pins e.cache.capacity p where
  nodup := m.nodup
  bounded := by
    rw [m.keys]
    exact (List.length_map _).trans_le m.filled.bounded
  key id h hx := by
    obtain ⟨f, -, -, hcopy, hid⟩ := m.key hx
    exact ⟨f.page, hcopy, hid⟩
  keeps _ _ hx demands _ hx' := m.keeps hx demands hx'
  changed d _ hx hd := m.changed d hx hd
  lost := m.lost
  fetched _ _ _ _ _ hf := m.fetched hf
  inserted _ _ _ _ _ _ hi := m.inserted hi
  deleted _ _ _ _ _ hd := m.deleted hd

end Mirrors

/-- **Changed copies stay in the list.** A pool begins without copies. Whatever is demanded of it, and whatever becomes of
its files and tables meanwhile, no page is in the list twice, and there are no more copies in it than there is room for. A
page that is in the list is the page of its copy, and the copy is one of this page as long as it is in the list. A page
that is changed before a demand is in the list after it, unless the demand is to remove it. The list has never dropped or
replaced a copy when another one came. A page that was fetched is in the list, and to cache its copy again is to mark it; so
to cache one again that was just changed is to do nothing. -/
theorem met_pinned (p : Pool) (capacity : Nat) (demands : List Demand) :
    Pins capacity ((p.emptied capacity).meetAll demands) := by
  -- the settings of the engine do not matter to its copies
  have m0 := mirrors_emptied p {} capacity
  have hdesc := (Engine.Kept.meetAll demands ⟨m0.filled, .refl _⟩).2
  have hpins := (m0.meetAll demands).pins
  rw [hdesc.capacity] at hpins
  exact hpins

end HeapStore.Pool
