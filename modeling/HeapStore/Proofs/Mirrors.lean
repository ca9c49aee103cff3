import HeapStore.Pool.Records
import HeapStore.Proofs.Eviction
import Mathlib.Data.List.Find

/-!
# Engines as pools

An engine keeps each copy in its cache, and a pool keeps a list of keys and handles and the copies apart from it. They go
together as long as the list has, for each copy of the engine, the page and the number of this copy, and the content of the
copy is found by its number.

* `Pool.Mirrors`: a pool has the copies of an engine. **So each key is the number of the page in the copy**
  (`Mirrors.key`).
* `Pool.Agree`: both give the same answer or the same fault, and go together afterwards.
* `Mirrors.write`, `Mirrors.pop`, `Mirrors.makeRoom`, `Mirrors.add`, `Mirrors.get`: single changes of the list and of the
  copies. A list that is full is never given another copy, so **nothing is lost**.
-/

namespace HeapStore

/-- The page of a copy and its number. -/
def Frame.entry (f : Frame) : PageId × Handle := (f.page.id, f.copy)

namespace Pool

variable {ε α β : Type} {p : Pool} {e : Engine} {f : Frame} {page : Page} {id : PageId} {h : Handle} {tx : TxId}

/-- The pool has the copies of the engine in the same order, and all else in common with it. -/
structure Mirrors (p : Pool) (e : Engine) : Prop where
  disk : p.disk = e.disk
  catalog : p.catalog = e.catalog
  locks : p.locks = e.locks
  lastTx : p.lastTx = e.lastTx
  guarded : p.guarded = e.cache.guarded
  capacity : p.capacity = e.cache.capacity
  room : p.cache.capacity = e.cache.capacity
  entries : p.cache.entries = e.cache.frames.map Frame.entry
  copies : ∀ f ∈ e.cache.frames, p.copies[f.copy]? = some f.page
  count : p.copies.length = e.cache.copies
  filled : e.cache.Filled
  lost : p.cache.lost = []

/-- Both give an answer, or both give the same fault, and the pool has the copies of the engine afterwards. -/
inductive Agree (R : Pool → Engine → α → β → Prop) : Outcome ε α → Engine.Outcome ε β → Prop
  | ok {p : Pool} {e : Engine} {a : α} {b : β} : p.Mirrors e → R p e a b → Agree R (.ok a, p) (.ok b, e)
  | error {p : Pool} {e : Engine} {fault : ε} : p.Mirrors e → Agree R (.error fault, p) (.error fault, e)

/-- The same answer. -/
def Same (_ : Pool) (_ : Engine) (a b : α) : Prop := a = b

theorem Agree.answer {o : Outcome ε α} {o' : Engine.Outcome ε α} (ha : Agree Same o o') : o.1 = o'.1 ∧ o.2.Mirrors o'.2 := by
  cases ha with
  | ok m hr => exact ⟨congrArg _ hr, m⟩
  | error m => exact ⟨rfl, m⟩

namespace Mirrors

variable (m : p.Mirrors e)

include m

theorem keys : p.cache.keys = e.cache.pages := by
  unfold Lru.keys
  rw [m.entries, List.map_map]
  rfl

theorem nodup : p.cache.keys.Nodup := m.keys ▸ m.filled.nodup

theorem length : p.cache.entries.length = e.cache.frames.length := by
  rw [m.entries, List.length_map]

/-- **The key of a cached copy is the number of its page.** -/
theorem key (hx : (id, h) ∈ p.cache.entries) : ∃ f, e.cache.find? id = some f ∧ f.copy = h ∧
    p.copies[h]? = some f.page ∧ f.page.id = id := by
  rw [m.entries] at hx
  obtain ⟨f, hf, he⟩ := List.mem_map.1 hx
  cases he
  exact ⟨f, Cache.find?_of_mem m.filled.nodup hf, rfl, m.copies f hf, rfl⟩

theorem find?_entries (id : PageId) : p.cache.entries.find? (·.1 == id) = (e.cache.find? id).map Frame.entry := by
  rw [m.entries, List.find?_map]
  rfl

theorem peek? (id : PageId) : p.cache.peek? id = (e.cache.find? id).map Frame.copy := by
  unfold Lru.peek?
  rw [m.find?_entries, Option.map_map]
  rfl

theorem file (table : TableId) : p.file table = e.file table := by
  unfold Pool.file Engine.file
  rw [m.catalog]

theorem stored (id : PageId) : p.stored id = e.stored id := by
  unfold Pool.stored Engine.stored
  rw [m.file, m.disk]

theorem owner? (hf : f ∈ e.cache.frames) : p.owner? f.copy = f.page.dirty := by
  unfold Pool.owner?
  rw [m.copies f hf]
  rfl

/-! ## Single changes -/

/-- The copy of a page is written. -/
theorem write (hf : e.cache.find? id = some f) (page : Page) (hp : page.id = id) :
    (p.write f.copy page).Mirrors { e with cache := e.cache.update id page } where
  disk := m.disk
  catalog := m.catalog
  locks := m.locks
  lastTx := m.lastTx
  guarded := m.guarded
  capacity := m.capacity
  room := m.room
  entries := by
    show p.cache.entries = (e.cache.frames.map _).map Frame.entry
    rw [m.entries, List.map_map]
    refine List.map_congr_left fun g hg => ?_
    show g.entry = Frame.entry (if g.isOf id then { g with page } else g)
    split
    · next ho =>
      unfold Frame.entry
      rw [Frame.isOf_iff.1 ho, hp]
    · rfl
  copies g hg := by
    obtain ⟨hfm, hid⟩ := Cache.mem_of_find? hf
    have hlt : f.copy < p.copies.length := (List.getElem?_eq_some_iff.1 (m.copies f hfm)).1
    show (p.copies.set f.copy page)[g.copy]? = some g.page
    rcases Cache.mem_update.1 hg with ⟨hm, hne⟩ | ⟨g, hm, ho, rfl⟩
    · -- another copy has another number
      have hcopy : f.copy ≠ g.copy := fun he => hne <| by
        rw [← hid, List.inj_on_of_nodup_map m.filled.numbers hfm hm he]
      rw [List.getElem?_set_ne hcopy, m.copies g hm]
    · -- the copy that is written has this number
      have hfg := hf
      rw [← ho, Cache.find?_of_mem m.filled.nodup hm, Option.some_inj] at hfg
      subst hfg
      show (p.copies.set g.copy page)[g.copy]? = some page
      rw [List.getElem?_set_self hlt]
  count := List.length_set.trans m.count
  filled := m.filled.update hp
  lost := m.lost

/-- The copy of a page goes from both. -/
theorem pop (id : PageId) : ({ p with cache := p.cache.pop id } : Pool).Mirrors { e with cache := e.cache.remove id } where
  disk := m.disk
  catalog := m.catalog
  locks := m.locks
  lastTx := m.lastTx
  guarded := m.guarded
  capacity := m.capacity
  room := m.room
  entries := by
    show p.cache.entries.filter _ = (e.cache.frames.filter _).map Frame.entry
    rw [m.entries, List.filter_map]
    rfl
  copies g hg := m.copies g (Cache.mem_remove.1 hg).1
  count := m.count
  filled := m.filled.remove id
  lost := m.lost

theorem evictable (hf : f ∈ e.cache.frames) : p.evictable f.copy = e.cache.evictable f := by
  unfold Pool.evictable Cache.evictable Frame.isClean
  rw [m.owner? hf, m.guarded]

/-- **The same copy goes.** -/
theorem evictLast : (e.cache.evict? = none ∧ p.evictLast = (.error (.allPagesDirty e.cache.capacity), p)) ∨
    ∃ cache p', e.cache.evict? = some cache ∧ p.evictLast = (.ok (), p') ∧ p'.Mirrors { e with cache } := by
  have hfind : p.cache.entries.reverse.find? (fun x => p.evictable x.2) =
      (e.cache.frames.reverse.find? e.cache.evictable).map Frame.entry := by
    rw [m.entries, ← List.map_reverse, List.find?_map]
    refine congrArg _ (List.find?_congr fun f hf => ?_)
    exact m.evictable (List.mem_reverse.1 hf)
  unfold Pool.evictLast Cache.evict?
  rw [hfind]
  cases e.cache.frames.reverse.find? e.cache.evictable with
  | none =>
    refine .inl ⟨rfl, ?_⟩
    rw [m.capacity]
    rfl
  | some f => exact .inr ⟨_, _, rfl, rfl, m.pop f.page.id⟩

theorem makeRoom : (e.cache.makeRoom? = none ∧ p.makeRoom = (.error (.allPagesDirty e.cache.capacity), p)) ∨
    ∃ cache p', e.cache.makeRoom? = some cache ∧ p.makeRoom = (.ok (), p') ∧ p'.Mirrors { e with cache } := by
  unfold Pool.makeRoom Cache.makeRoom?
  rw [m.capacity, m.length]
  split
  · exact m.evictLast
  · exact .inr ⟨_, _, rfl, rfl, m⟩

/-- **A new copy has room**, so the list does not drop one for it. -/
theorem add (hn : e.cache.find? page.id = none) (hlen : e.cache.frames.length < e.cache.capacity) :
    ({ p with copies := p.copies ++ [page], cache := p.cache.put page.id p.copies.length } : Pool).Mirrors
      { e with cache := (e.cache.add page).2 } := by
  have hput : p.cache.put page.id p.copies.length =
      { p.cache with entries := (page.id, p.copies.length) :: p.cache.entries } := by
    -- the page has no entry and the list is not full, so one entry is added and none goes
    have hfind := m.find?_entries page.id
    rw [hn] at hfind
    unfold Lru.put
    simp only [hfind, Option.map_none]
    rw [m.length, m.room, if_pos hlen]
  rw [hput]
  refine { m with room := m.room, entries := ?_, copies := ?_, count := ?_, filled := ?_, lost := m.lost }
  · show (page.id, p.copies.length) :: p.cache.entries = (page.id, e.cache.copies) :: _
    rw [m.count, m.entries]
  · intro g hg
    rcases Cache.mem_add.1 hg with rfl | hg
    · show (p.copies ++ [page])[e.cache.copies]? = some page
      rw [← m.count, List.getElem?_concat_length]
    · show (p.copies ++ [page])[g.copy]? = some g.page
      rw [List.getElem?_append_left (by rw [m.count]; exact m.filled.fresh g hg), m.copies g hg]
  · rw [List.length_append, m.count]
    rfl
  · exact m.filled.add (Cache.find?_eq_none_iff.1 hn) hlen

/-- The copy of a page is used. -/
theorem get (hf : e.cache.find? id = some f) : (p.cache.get? id).1 = some f.copy ∧
    ({ p with cache := (p.cache.get? id).2 } : Pool).Mirrors { e with cache := e.cache.touch id } ∧
      (p.cache.get? id).2.entries.head? = some (id, f.copy) := by
  have hfind := m.find?_entries id
  rw [hf, Option.map_some] at hfind
  obtain ⟨front, back, hsplit, rfl⟩ := Cache.split_of_find? hf
  have hget : p.cache.get? f.page.id =
      (some f.copy, { p.cache with entries := (front ++ back).map Frame.entry |>.cons f.entry }) := by
    -- the entries of all other pages are those before it and those behind it
    have hrest : p.cache.entries.filter (·.1 != f.page.id) = (front ++ back).map Frame.entry := by
      rw [← Cache.filter_not_isOf m.filled.nodup hsplit, m.entries, List.filter_map]
      rfl
    unfold Lru.get?
    simp only [hfind, hrest]
    rfl
  rw [hget]
  refine ⟨rfl, { m with room := m.room, entries := ?_, copies := ?_, count := m.count, filled := ?_, lost := m.lost }, rfl⟩
  · rw [Cache.touch_eq m.filled.nodup hsplit]
    rfl
  · intro g hg
    exact m.copies g (Cache.mem_touch.1 hg)
  · exact m.filled.touch _

theorem get_none (hn : e.cache.find? id = none) : p.cache.get? id = (none, p.cache) := by
  have hfind := m.find?_entries id
  rw [hn] at hfind
  unfold Lru.get?
  simp only [hfind, Option.map_none]

end Mirrors

end Pool

end HeapStore
