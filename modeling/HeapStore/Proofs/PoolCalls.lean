import HeapStore.Proofs.Mirrors

/-!
# What pools answer

A pool and an engine that go together answer each call alike, and go together afterwards. A copy that was fetched is the
first of the list, under the number of its page, and it is there still when it has been changed.

* `Mirrors.fetch`: **a page is fetched alike**, and both give the same copy.
* `recache_of_first`, `recache_of_changed`: to cache a copy again that was just fetched is to mark it, and one that was
  just changed has its mark already. So **to cache a changed copy again changes nothing.**
* `Mirrors.insert`, `Mirrors.delete`, `Mirrors.scan`, `Mirrors.complete`: the calls.
-/

namespace HeapStore.Pool

variable {p : Pool} {e : Engine} {f : Frame} {page : Page} {id : PageId} {h : Handle} {tx : TxId}

/-! ## Writing and dropping changes -/

/-- To write copies changes no list. -/
theorem cache_flush (p : Pool) (h : Handle) : (p.flush h).2.cache = p.cache := by
  unfold flush
  split
  · rfl
  split
  · rfl
  split
  · rfl
  split <;> rfl

namespace Mirrors

variable (m : p.Mirrors e)

include m

theorem flush (hf : e.cache.find? id = some f) : Agree Same (p.flush f.copy) (e.flushPage id) := by
  obtain ⟨hm, rfl⟩ := Cache.mem_of_find? hf
  unfold Pool.flush Engine.flushPage
  simp only [m.copies f hm, hf]
  by_cases hc : f.isClean = true
  · rw [if_pos hc, if_pos (show f.page.dirty.isNone = true from hc)]
    exact .ok m rfl
  · rw [if_neg hc, if_neg (show ¬ f.page.dirty.isNone = true from hc), m.file, m.disk]
    cases e.file f.page.id.table with
    | error fault => exact .error m
    | ok file =>
      simp only
      cases file.write e.disk f.page with
      | error fault => exact .error m
      | ok disk =>
        have hw := m.write hf (f.page.mark none).settle rfl
        exact .ok { hw with disk := rfl } rfl

theorem flushPage (id : PageId) : Agree Same (p.flushPage id) (e.flushPage id) := by
  have hpeek := m.peek? id
  unfold Pool.flushPage
  cases hf : e.cache.find? id with
  | none =>
    rw [hf, Option.map_none] at hpeek
    unfold Engine.flushPage
    simp only [hpeek, hf]
    exact .ok m rfl
  | some f =>
    rw [hf, Option.map_some] at hpeek
    simp only [hpeek]
    exact m.flush hf

end Mirrors

/-- Copies that are in the list are written one after another. -/
theorem Mirrors.flushEach (xs : List (PageId × Handle)) : ∀ {p : Pool} {e : Engine}, p.Mirrors e →
    (∀ x ∈ xs, x ∈ p.cache.entries) →
      Agree Same (Pool.flushEach (xs.map Prod.snd) p) (Engine.flushEach (xs.map Prod.fst) e) := by
  induction xs with
  | nil => exact fun m _ => .ok m rfl
  | cons x xs ih =>
    intro p e m hx
    obtain ⟨f, hf, hcopy, -⟩ := m.key (hx x List.mem_cons_self)
    have ha := m.flush hf
    rw [hcopy] at ha
    have hcache := cache_flush p x.2
    rw [List.map_cons, List.map_cons]
    unfold Pool.flushEach Engine.flushEach
    generalize p.flush x.2 = o at ha hcache ⊢
    generalize e.flushPage x.1 = o' at ha ⊢
    cases ha with
    | ok m' hr =>
      -- a copy that is written leaves the list alone, so the others are in it still
      refine ih m' fun y hy => ?_
      rw [hcache]
      exact hx y (List.mem_cons_of_mem _ hy)
    | error m' => exact .error m'

/-- Copies that hold changes of the transaction are read again one after another. None of them is another one's, so each
holds its changes until it is its turn. -/
theorem Mirrors.discardEach (xs : List (PageId × Handle)) : ∀ {p : Pool} {e : Engine}, p.Mirrors e →
    (∀ x ∈ xs, x ∈ p.cache.entries ∧ p.owner? x.2 = some tx) → (xs.map Prod.snd).Nodup →
      Agree Same (Pool.discardEach tx (xs.map Prod.snd) p) (Engine.discardEach (xs.map Prod.fst) e) := by
  induction xs with
  | nil => exact fun m _ _ => .ok m rfl
  | cons x xs ih =>
    intro p e m hx hn
    obtain ⟨hmem, howner⟩ := hx x List.mem_cons_self
    obtain ⟨f, hf, hcopy, hpage, hid⟩ := m.key hmem
    obtain ⟨hnot, hn⟩ := List.nodup_cons.1 hn
    have hdirty : f.page.dirty = some tx := by
      unfold Pool.owner? at howner
      rwa [hpage] at howner
    rw [List.map_cons, List.map_cons]
    unfold Pool.discardEach Engine.discardEach
    simp only [hpage, ne_eq, hdirty, not_true_eq_false, if_false, m.stored, hid]
    cases hs : e.stored x.1 with
    | error fault => exact .error m
    | ok fresh =>
      have hw := m.write hf fresh (Engine.id_of_stored hs)
      rw [hcopy] at hw
      refine ih hw (fun y hy => ?_) hn
      obtain ⟨hym, hyo⟩ := hx y (List.mem_cons_of_mem _ hy)
      -- the check of the owner passes, as no other copy was written meanwhile
      have hne : x.2 ≠ y.2 := fun he => hnot (he ▸ List.mem_map_of_mem hy)
      refine ⟨hym, ?_⟩
      show (p.copies.set x.2 fresh)[y.2]?.bind Page.dirty = some tx
      rw [List.getElem?_set_ne hne]
      exact hyo

namespace Mirrors

variable (m : p.Mirrors e)

include m

theorem flushAll : Agree Same p.flushAll e.flushAll := by
  unfold Pool.flushAll Engine.flushAll Pool.handles
  rw [← m.keys]
  exact flushEach _ m fun _ hx => hx

/-- The copies that hold changes of a transaction are the same. -/
theorem owned (tx : TxId) : ∃ xs : List (PageId × Handle), p.ownedBy tx = xs.map Prod.snd ∧
    e.cache.owned tx = xs.map Prod.fst ∧ (xs.map Prod.snd).Nodup ∧
      ∀ x ∈ xs, x ∈ p.cache.entries ∧ p.owner? x.2 = some tx := by
  have hhandles : p.handles = e.cache.frames.map Frame.copy := by
    unfold Pool.handles
    rw [m.entries, List.map_map]
    rfl
  refine ⟨(e.cache.frames.filter (·.ownedBy tx)).map Frame.entry, ?_, ?_, ?_, fun x hx => ?_⟩
  · unfold Pool.ownedBy
    rw [hhandles, List.filter_map, List.map_map]
    refine congrArg _ (List.filter_congr fun f hf => ?_)
    show (p.owner? f.copy == some tx) = _
    rw [m.owner? hf]
    rfl
  · unfold Cache.owned
    rw [List.map_map]
    rfl
  · rw [List.map_map]
    exact m.filled.numbers.sublist (List.filter_sublist.map _)
  · obtain ⟨f, hf, rfl⟩ := List.mem_map.1 hx
    obtain ⟨hf, ho⟩ := List.mem_filter.1 hf
    refine ⟨?_, (m.owner? hf).trans (Frame.ownedBy_iff.1 ho)⟩
    rw [m.entries]
    exact List.mem_map_of_mem hf

theorem flushPages (tx : TxId) : Agree Same (p.flushPages tx) (e.flushPages tx) := by
  obtain ⟨xs, hp, he, -, hx⟩ := m.owned tx
  unfold Pool.flushPages Engine.flushPages
  rw [hp, he]
  exact flushEach xs m fun x hm => (hx x hm).1

theorem discardPages (tx : TxId) : Agree Same (p.discardPages tx) (e.discardPages tx) := by
  obtain ⟨xs, hp, he, hn, hx⟩ := m.owned tx
  unfold Pool.discardPages Engine.discardPages
  rw [hp, he]
  exact discardEach xs m hx hn

/-- **A transaction ends alike.** -/
theorem complete (tx : TxId) (keep : Bool) : Agree Same (p.complete tx keep) (e.complete tx keep) := by
  have ha : Agree Same (if keep then p.flushPages tx else p.discardPages tx)
      (if keep then e.flushPages tx else e.discardPages tx) := by
    cases keep with
    | true => exact m.flushPages tx
    | false => exact m.discardPages tx
  unfold Pool.complete Engine.complete
  generalize (if keep then p.flushPages tx else p.discardPages tx) = o at ha ⊢
  generalize (if keep then e.flushPages tx else e.discardPages tx) = o' at ha ⊢
  cases ha with
  | @ok p' e' a b m' hr => exact .ok { m' with locks := by rw [m'.locks]; rfl } hr
  | @error p' e' fault m' => exact .error { m' with locks := by rw [m'.locks]; rfl }

theorem mark_eq (hf : e.cache.find? id = some f) (owner : Option TxId) :
    p.mark id owner = (.ok (), p.write f.copy (f.page.mark owner)) := by
  have hpeek := m.peek? id
  rw [hf, Option.map_some] at hpeek
  have hmodify : p.copies.modify f.copy (·.mark owner) = p.copies.set f.copy (f.page.mark owner) := by
    rw [List.modify_eq_set_getElem?, m.copies f (Cache.mem_of_find? hf).1]
    rfl
  unfold Pool.mark
  simp only [hpeek, hmodify]
  rfl

theorem mark (id : PageId) (owner : Option TxId) : Agree Same (p.mark id owner) (e.mark id owner) := by
  cases hf : e.cache.find? id with
  | none =>
    have hpeek := m.peek? id
    rw [hf, Option.map_none] at hpeek
    unfold Pool.mark Engine.mark
    simp only [hpeek, hf]
    exact .error m
  | some f =>
    rw [m.mark_eq hf]
    unfold Engine.mark
    simp only [hf]
    exact .ok (m.write hf _ (Cache.mem_of_find? hf).2) rfl

theorem evict : Agree Same p.evictLast e.evict := by
  unfold Engine.evict
  rcases m.evictLast with ⟨he, hp⟩ | ⟨cache, p', he, hp, m'⟩
  · rw [he, hp]
    exact .error m
  · rw [he, hp]
    exact .ok m' rfl

end Mirrors

/-! ## Pages -/

/-- The copy that was fetched: it is the first of the list, under the number of its page. -/
structure Fetched (id : PageId) (p : Pool) (e : Engine) (h : Handle) (f : Frame) : Prop where
  copy : f.copy = h
  found : e.cache.find? id = some f
  first : p.cache.entries.head? = some (id, h)

namespace Mirrors

variable (m : p.Mirrors e)

include m

theorem load (id : PageId) : Agree (Fetched id) (p.load id) (e.load id) := by
  unfold Pool.load Engine.load
  cases hf : e.cache.find? id with
  | some f =>
    obtain ⟨hget, m', hfirst⟩ := m.get hf
    generalize p.cache.get? id = x at hget m' hfirst ⊢
    obtain ⟨found, cache⟩ := x
    simp only at hget m' hfirst
    subst hget
    exact .ok m' ⟨rfl, (Cache.find?_touch_self _ _).trans hf, hfirst⟩
  | none =>
    rw [m.get_none hf, m.stored]
    simp only
    cases hs : e.stored id with
    | error fault => exact .error m
    | ok page =>
      have hid := Engine.id_of_stored hs
      rcases m.makeRoom with ⟨he, hp⟩ | ⟨cache, p', he, hp, m'⟩
      · simp only [he, hp]
        exact .error m
      · simp only [he, hp]
        subst hid
        -- the copy that went was one of another page, and it has left room for this one
        have hn := Cache.find?_makeRoom he hf
        have hlen := (m.filled.makeRoom he).2
        have hadd := m'.add hn hlen
        refine .ok hadd ⟨m'.count.symm, Cache.find?_add.trans (if_pos rfl), ?_⟩
        have hentries := hadd.entries
        show (p'.cache.put page.id p'.copies.length).entries.head? = _
        rw [show (p'.cache.put page.id p'.copies.length).entries = _ from hentries, m'.count]
        rfl

/-- **A page is fetched alike**, or the transaction is aborted in both. -/
theorem fetch (tx : TxId) (id : PageId) (mode : LockMode) :
    Agree (Fetched id) (p.fetch tx id mode) (e.fetch tx id mode) := by
  unfold Pool.fetch Engine.fetch
  rw [m.locks]
  cases e.locks.acquire tx id mode with
  | ok locks =>
    have hl : ({ p with locks } : Pool).Mirrors { e with locks } := { m with locks := rfl }
    exact hl.load id
  | error cause => exact .error (m.complete tx false).answer.2

end Mirrors

/-! ## Changes -/

/-- The transaction has changed the copy, and this is still the first of the list, under the number of its page. -/
def Changed (tx : TxId) (p : Pool) (h : Handle) : Prop :=
  ∃ page, p.copies[h]? = some page ∧ page.dirty = some tx ∧ p.cache.entries.head? = some (page.id, h)

/-- **A copy that is the first of the list is only marked**, and stays where it is. -/
theorem recache_of_first (hn : p.cache.keys.Nodup) (hcopy : p.copies[h]? = some page)
    (hfirst : p.cache.entries.head? = some (page.id, h)) :
    p.recache tx h = (.ok (), p.write h (page.mark (some tx))) := by
  obtain ⟨rest, hentries⟩ := List.head?_eq_some_iff.1 hfirst
  have hget : p.cache.get? page.id = (some h, p.cache) := by
    -- no other entry has the number of the first one
    have hrest : rest.filter (·.1 != page.id) = rest := by
      unfold Lru.keys at hn
      rw [hentries] at hn
      refine List.filter_eq_self.2 fun x hx => bne_iff_ne.2 fun he => ?_
      exact (List.nodup_cons.1 hn).1 (List.mem_map.2 ⟨x, hx, he⟩)
    have hfound : ((page.id, h) :: rest).find? (·.1 == page.id) = some (page.id, h) :=
      List.find?_cons_of_pos (beq_self_eq_true page.id)
    unfold Lru.get?
    rw [hentries]
    simp only [hfound]
    rw [List.filter_cons_of_neg (by simp), hrest, ← hentries]
  have hget' : (p.write h (page.mark (some tx))).cache.get? page.id = (some h, p.cache) := hget
  unfold Pool.recache
  simp only [hcopy, hget', if_true]
  rfl

/-- **A copy that was just changed is not even marked**: it has its mark already. -/
theorem recache_of_changed (hn : p.cache.keys.Nodup) (hc : p.Changed tx h) : p.recache tx h = (.ok (), p) := by
  obtain ⟨page, hcopy, hdirty, hfirst⟩ := hc
  have hmark : page.mark (some tx) = page := by
    unfold Page.mark
    rw [← hdirty]
  have hlt : h < p.copies.length := (List.getElem?_eq_some_iff.1 hcopy).1
  have hset : p.copies.set h page = p.copies := by
    rw [← Option.some_inj.1 ((List.getElem?_eq_getElem hlt).symm.trans hcopy), List.set_getElem_self]
  rw [recache_of_first hn hcopy hfirst, hmark]
  unfold Pool.write
  rw [hset]

namespace Mirrors

variable (m : p.Mirrors e)

include m

theorem copies? (hf : Fetched id p e h f) : p.copies[h]? = some f.page := by
  obtain ⟨hm, -⟩ := Cache.mem_of_find? hf.found
  rw [← hf.copy, m.copies f hm]

theorem content (hf : Fetched id p e h f) : p.content id h = .ok f.page := by
  unfold Pool.content
  rw [m.copies? hf]

/-- What is written to the copy that was fetched is marked as changed by the transaction. -/
theorem change {q : Page} (hf : Fetched id p e h f) (hq : q.id = f.page.id) (tx : TxId) :
    (p.write h (q.mark (some tx))).Mirrors { e with cache := e.cache.update q.id (q.mark (some tx)) } ∧
      (p.write h (q.mark (some tx))).Changed tx h := by
  obtain ⟨-, hid⟩ := Cache.mem_of_find? hf.found
  have hlt := (List.getElem?_eq_some_iff.1 (m.copies? hf)).1
  have hw := m.write hf.found (q.mark (some tx)) (hq.trans hid)
  rw [hf.copy, ← hid, ← hq] at hw
  refine ⟨hw, q.mark (some tx), List.getElem?_set_self hlt, rfl, ?_⟩
  show p.cache.entries.head? = some (q.id, h)
  rw [hf.first, hq, hid]

theorem insertAt (hf : Fetched id p e h f) (tx : TxId) (r : Record) :
    Agree (fun p _ a b => a = b ∧ p.Changed tx h) (p.insertAt id h tx r) (e.putInto f tx r) := by
  unfold Pool.insertAt Engine.putInto
  rw [m.content hf]
  simp only
  cases hi : f.page.insert r with
  | error cause => exact .error m
  | ok x =>
    obtain ⟨place, q⟩ := x
    obtain ⟨-, -, -, hq⟩ := Page.insert_ok hi
    obtain ⟨m', hc⟩ := m.change hf hq.id tx
    exact .ok m' ⟨rfl, hc⟩

theorem deleteAt (hf : Fetched id p e h f) (tx : TxId) (r : Record) :
    Agree (fun p _ _ _ => p.Changed tx h) (p.deleteAt id h tx r) (e.takeFrom f tx r) := by
  unfold Pool.deleteAt Engine.takeFrom
  rw [m.content hf]
  simp only
  cases hd : f.page.delete r with
  | error cause => exact .error m
  | ok q =>
    obtain ⟨slot, -, -, hq⟩ := Page.delete_ok hd
    obtain ⟨m', hc⟩ := m.change hf hq.id tx
    exact .ok m' hc

theorem hasFree (hf : Fetched id p e h f) : p.hasFree h = true ↔ ¬ f.page.freeSlots = 0 := by
  unfold Pool.hasFree
  rw [m.copies? hf, Option.any_some, decide_eq_true_eq]

end Mirrors

/-- The same place, and the copy that was changed. -/
def Put (tx : TxId) (p : Pool) (_ : Engine) (a : RecordId × Handle) (b : RecordId) : Prop := a.1 = b ∧ p.Changed tx a.2

/-- The same place and the copy that was changed, or both have found none. -/
def PutFirst (tx : TxId) (p : Pool) (e : Engine) : Option (RecordId × Handle) → Option RecordId → Prop
  | some a, some b => Put tx p e a b
  | none, none => True
  | _, _ => False

theorem Mirrors.insertOnFirst (file : TableFile) (tx : TxId) (r : Record) (numbers : List Nat) :
    ∀ {p : Pool} {e : Engine}, p.Mirrors e →
      Agree (PutFirst tx) (Pool.insertOnFirst file tx r numbers p) (Engine.putOnFirst file tx r numbers e) := by
  induction numbers with
  | nil => exact fun m => .ok m trivial
  | cons number numbers ih =>
    intro p e m
    have ha := m.fetch tx (file.pageId number) .exclusive
    unfold Pool.insertOnFirst Engine.putOnFirst
    generalize p.fetch tx (file.pageId number) .exclusive = o at ha ⊢
    generalize e.fetch tx (file.pageId number) .exclusive = o' at ha ⊢
    cases ha with
    | error m' => exact .error m'
    | @ok p' e' h f m' hf =>
      simp only
      by_cases hfull : f.page.freeSlots = 0
      · rw [if_pos hfull, if_neg fun hc => (m'.hasFree hf).1 hc hfull]
        exact ih m'
      · rw [if_neg hfull, if_pos ((m'.hasFree hf).2 hfull)]
        have hi := m'.insertAt hf tx r
        generalize p'.insertAt (file.pageId number) h tx r = o at hi ⊢
        generalize e'.putInto f tx r = o' at hi ⊢
        cases hi with
        | ok m'' hr => exact .ok m'' hr
        | error m'' => exact .error m''

theorem Mirrors.insertOnNew (file : TableFile) (tx : TxId) (r : Record) (tries : Nat) :
    ∀ {p : Pool} {e : Engine}, p.Mirrors e →
      Agree (Put tx) (Pool.insertOnNew file tx r tries p) (Engine.putOnNew file tx r tries e) := by
  induction tries with
  | zero => exact fun m => .error m
  | succ tries ih =>
    intro p e m
    unfold Pool.insertOnNew Engine.putOnNew
    rw [m.disk]
    cases file.append e.disk with
    | error fault => exact .error m
    | ok x =>
      obtain ⟨number, disk⟩ := x
      have hd : ({ p with disk } : Pool).Mirrors { e with disk } := { m with disk := rfl }
      have ha := hd.insertOnFirst file tx r [number]
      simp only
      generalize Pool.insertOnFirst file tx r [number] { p with disk } = o at ha ⊢
      generalize Engine.putOnFirst file tx r [number] { e with disk } = o' at ha ⊢
      cases ha with
      | error m' => exact .error m'
      | @ok p' e' a b m' hr =>
        cases a with
        | none =>
          cases b with
          | none => exact ih m'
          | some b => cases hr
        | some a =>
          cases b with
          | none => cases hr
          | some b => exact .ok m' hr

namespace Mirrors

variable (m : p.Mirrors e)

include m

theorem insertInto (file : TableFile) (tx : TxId) (r : Record) :
    Agree (Put tx) (p.insertInto file tx r) (e.insertInto file tx r) := by
  unfold Pool.insertInto Engine.insertInto
  split
  · exact .error m
  · rw [m.disk]
    cases file.count e.disk with
    | error fault => exact .error m
    | ok count =>
      have ha := m.insertOnFirst file tx r (List.range count)
      simp only
      generalize Pool.insertOnFirst file tx r (List.range count) p = o at ha ⊢
      generalize Engine.putOnFirst file tx r (List.range count) e = o' at ha ⊢
      cases ha with
      | error m' => exact .error m'
      | @ok p' e' a b m' hr =>
        cases a with
        | none =>
          cases b with
          | none =>
            simp only
            rw [m'.length]
            exact m'.insertOnNew file tx r _
          | some b => cases hr
        | some a =>
          cases b with
          | none => cases hr
          | some b => exact .ok m' hr

/-- **A record is stored alike.** To cache the copy again that was changed adds nothing. -/
theorem insert (tx : TxId) (table : TableId) (r : Record) : Agree Same (p.insert tx table r) (e.insert tx table r) := by
  unfold Pool.insert Engine.insert
  rw [m.file]
  cases e.file table with
  | error fault => exact .error m
  | ok file =>
    have ha := m.insertInto file tx r
    simp only
    generalize p.insertInto file tx r = o at ha ⊢
    generalize e.insertInto file tx r = o' at ha ⊢
    cases ha with
    | error m' => exact .error m'
    | @ok p' e' a b m' hr =>
      obtain ⟨rfl, hc⟩ := hr
      -- the copy is the first of the list, so it is not put there again
      simp only [recache_of_changed m'.nodup hc]
      exact .ok m' rfl

theorem deleteFrom (file : TableFile) (tx : TxId) (r : Record) :
    Agree (fun p _ h _ => p.Changed tx h) (p.deleteFrom file tx r) (e.deleteFrom file tx r) := by
  unfold Pool.deleteFrom Engine.deleteFrom
  cases r.location with
  | error cause => exact .error m
  | ok place =>
    simp only
    split
    · exact .error m
    · rw [m.disk]
      cases file.count e.disk with
      | error fault => exact .error m
      | ok count =>
        simp only
        split
        · exact .error m
        · have ha := m.fetch tx place.page .exclusive
          generalize p.fetch tx place.page .exclusive = o at ha ⊢
          generalize e.fetch tx place.page .exclusive = o' at ha ⊢
          cases ha with
          | error m' => exact .error m'
          | @ok p' e' h f m' hf =>
            have hd := m'.deleteAt hf tx r
            simp only
            generalize p'.deleteAt place.page h tx r = o at hd ⊢
            generalize e'.takeFrom f tx r = o' at hd ⊢
            cases hd with
            | ok m'' hc => exact .ok m'' hc
            | error m'' => exact .error m''

/-- **A record is deleted alike.** -/
theorem delete (tx : TxId) (r : Record) : Agree Same (p.delete tx r) (e.delete tx r) := by
  unfold Pool.delete Engine.delete
  cases r.location with
  | error cause => exact .error m
  | ok place =>
    simp only
    rw [m.file]
    cases e.file place.page.table with
    | error fault => exact .error m
    | ok file =>
      have ha := m.deleteFrom file tx r
      simp only
      generalize p.deleteFrom file tx r = o at ha ⊢
      generalize e.deleteFrom file tx r = o' at ha ⊢
      cases ha with
      | error m' => exact .error m'
      | @ok p' e' h _ m' hc =>
        simp only [recache_of_changed m'.nodup hc]
        exact .ok m' rfl

theorem openScan (tx : TxId) (table : TableId) : p.openScan tx table = Scan.ofTable e tx table := by
  unfold Pool.openScan Scan.ofTable
  cases hf : p.catalog.file table with
  | error cause =>
    rw [m.catalog] at hf
    simp only [hf]
  | ok file =>
    rw [m.catalog] at hf
    simp only [hf]
    cases hc : file.count p.disk with
    | error cause =>
      rw [m.disk] at hc
      simp only [hc]
    | ok count =>
      rw [m.disk] at hc
      simp only [hc]

end Mirrors

/-! ## Scans -/

/-- What a scan finds on a page that was fetched. -/
theorem Mirrors.recordFrom? (m : p.Mirrors e) (hf : Fetched id p e h f) (slot : Nat) :
    p.copies[h]?.bind (Scan.recordFrom? · slot) = Scan.recordFrom? f.page slot := by
  rw [m.copies? hf]
  rfl

/-- The same item, the same scan afterwards, and both go together. -/
structure StepAgree {α : Type} (o : α × Scan × Pool) (o' : α × Scan × Engine) : Prop where
  item : o.1 = o'.1
  scan : o.2.1 = o'.2.1
  mirrors : o.2.2.Mirrors o'.2.2

/-- **A step of a scan gives the same.** -/
theorem Mirrors.next (s : Scan) (e : Engine) : ∀ {p : Pool}, p.Mirrors e → StepAgree (Pool.next s p) (s.next e) := by
  induction s, e using Scan.next.induct with
  | case1 s e hd =>
    intro p m
    unfold Pool.next Scan.next
    rw [if_pos hd, if_pos hd]
    exact ⟨rfl, rfl, m⟩
  | case2 s e hd hn =>
    intro p m
    unfold Pool.next Scan.next
    rw [if_neg hd, if_neg hd, if_pos hn, if_pos hn]
    exact ⟨rfl, rfl, m⟩
  | case3 s e hd hn fault e' hr =>
    intro p m
    have ha := m.fetch s.tx (s.file.pageId s.number) .shared
    rw [hr] at ha
    unfold Pool.next Scan.next
    rw [if_neg hd, if_neg hd, if_neg hn, if_neg hn, hr]
    generalize p.fetch s.tx (s.file.pageId s.number) .shared = o at ha ⊢
    cases ha with
    | error m' => exact ⟨rfl, rfl, m'⟩
  | case4 s e hd hn f e' hr slot r hrec =>
    intro p m
    have ha := m.fetch s.tx (s.file.pageId s.number) .shared
    rw [hr] at ha
    unfold Pool.next Scan.next
    rw [if_neg hd, if_neg hd, if_neg hn, if_neg hn, hr]
    generalize p.fetch s.tx (s.file.pageId s.number) .shared = o at ha ⊢
    cases ha with
    | ok m' hf =>
      simp only [m'.recordFrom? hf, hrec]
      exact ⟨rfl, rfl, m'⟩
  | case5 s e hd hn f e' hr hrec ih =>
    intro p m
    have ha := m.fetch s.tx (s.file.pageId s.number) .shared
    rw [hr] at ha
    unfold Pool.next Scan.next
    rw [if_neg hd, if_neg hd, if_neg hn, if_neg hn, hr]
    generalize p.fetch s.tx (s.file.pageId s.number) .shared = o at ha ⊢
    cases ha with
    | ok m' hf =>
      simp only [m'.recordFrom? hf, hrec]
      exact ih m'

theorem Mirrors.items (n : Nat) : ∀ {s : Scan} {p : Pool} {e : Engine}, p.Mirrors e →
    StepAgree (Pool.items n s p) (Scan.items n s e) := by
  induction n with
  | zero => exact fun m => ⟨rfl, rfl, m⟩
  | succ n ih =>
    intro s p e m
    have hs := Mirrors.next s e m
    unfold Pool.items Scan.items
    generalize Pool.next s p = o at hs ⊢
    generalize s.next e = o' at hs ⊢
    obtain ⟨item, s1, p1⟩ := o
    obtain ⟨item', s1', e1⟩ := o'
    obtain ⟨hitem, hscan, m1⟩ := hs
    simp only at hitem hscan m1
    subst hitem hscan
    cases item with
    | none => exact ⟨rfl, rfl, m1⟩
    | some item =>
      obtain ⟨hrest, hend, m2⟩ := ih (s := s1) m1
      exact ⟨congrArg (item :: ·) hrest, hend, m2⟩

/-- **A scan gives the same.** -/
theorem Mirrors.scan (m : p.Mirrors e) (tx : TxId) (table : TableId) : Agree Same (p.scan tx table) (e.scan tx table) := by
  unfold Pool.scan Engine.scan
  rw [m.openScan]
  cases Scan.ofTable e tx table with
  | error fault => exact .error m
  | ok s =>
    obtain ⟨hitems, -, m'⟩ := Mirrors.items s.bound (s := s) m
    exact .ok m' hitems

end HeapStore.Pool
