import HeapStore.Proofs.Pinning

/-!
# Which copy goes

The list of copies is the product of many uses, readings and removals, and a use in the wrong place would show much later
only, as a page that goes instead of another one.

* `Cache.LastIdle`: the copy nearest the back that is clean and that nobody is reading. `Cache.evict?_eq_some_iff`: **it is
  this one that goes.**
* `Engine.Loading`: what becomes of the list when a page is fetched. `Engine.load_loading`: **one of these cases holds.**
* `Engine.fetch_error_cache`: a fetch that fails changes no copy.
* `Demand.Rests`: demands that leave the list as it is, `Engine.meet_rests`.
* `Engine.Demanded`: an engine that begins without copies, and whatever is demanded of it.
-/

namespace HeapStore

namespace Cache

variable {c c' : Cache} {id : PageId} {f g : Frame} {front back : List Frame}

/-! ## Copies in their order -/

/-- A page with a copy has one copy at one place. -/
theorem split_of_find? (h : c.find? id = some f) : ∃ front back, c.frames = front ++ f :: back ∧ f.page.id = id := by
  obtain ⟨hm, hid⟩ := mem_of_find? h
  obtain ⟨front, back, hf⟩ := List.append_of_mem hm
  exact ⟨front, back, hf, hid⟩

theorem isOf_of_split (h : c.pages.Nodup) (hf : c.frames = front ++ f :: back) :
    (∀ g ∈ front, g.isOf f.page.id = false) ∧ ∀ g ∈ back, g.isOf f.page.id = false := by
  unfold pages at h
  rw [hf, List.map_append, List.map_cons] at h
  obtain ⟨-, htail, hdisjoint⟩ := List.nodup_append.1 h
  constructor
  · intro g hg
    rw [Bool.eq_false_iff, ne_eq, Frame.isOf_iff]
    exact hdisjoint _ (List.mem_map_of_mem hg) _ List.mem_cons_self
  · intro g hg
    rw [Bool.eq_false_iff, ne_eq, Frame.isOf_iff]
    rintro he
    exact (List.nodup_cons.1 htail).1 (he ▸ List.mem_map_of_mem hg)

/-- All copies but that of one page. -/
theorem filter_not_isOf (h : c.pages.Nodup) (hf : c.frames = front ++ f :: back) :
    c.frames.filter (!·.isOf f.page.id) = front ++ back := by
  obtain ⟨hfront, hback⟩ := isOf_of_split h hf
  have hself : f.isOf f.page.id = true := Frame.isOf_iff.2 rfl
  rw [hf, List.filter_append, List.filter_cons_of_neg (by rw [hself]; simp),
    List.filter_eq_self.2 fun g hg => by rw [hfront g hg]; rfl,
    List.filter_eq_self.2 fun g hg => by rw [hback g hg]; rfl]

/-- The copy of one page. -/
theorem filter_isOf (h : c.pages.Nodup) (hf : c.frames = front ++ f :: back) :
    c.frames.filter (·.isOf f.page.id) = [f] := by
  obtain ⟨hfront, hback⟩ := isOf_of_split h hf
  have hself : f.isOf f.page.id = true := Frame.isOf_iff.2 rfl
  rw [hf, List.filter_append, List.filter_cons_of_pos (p := fun g : Frame => g.isOf f.page.id) hself,
    List.filter_eq_nil_iff.2 fun g hg => by rw [hfront g hg]; exact Bool.false_ne_true,
    List.filter_eq_nil_iff.2 fun g hg => by rw [hback g hg]; exact Bool.false_ne_true]
  rfl

/-- **A copy that is used comes to the front**, and the others stay in their order. -/
theorem touch_eq (h : c.pages.Nodup) (hf : c.frames = front ++ f :: back) :
    c.touch f.page.id = { c with frames := f :: (front ++ back) } := by
  unfold touch
  rw [filter_isOf h hf, filter_not_isOf h hf]
  rfl

theorem remove_eq (h : c.pages.Nodup) (hf : c.frames = front ++ f :: back) :
    c.remove f.page.id = { c with frames := front ++ back, gone := f :: c.gone } := by
  unfold remove
  rw [filter_isOf h hf, filter_not_isOf h hf]
  rfl

/-- The copy is clean, and nobody is reading it. -/
def Idle (c : Cache) (f : Frame) : Prop := f.page.dirty = none ∧ f.copy ∉ c.guarded

/-- The copy is idle, and no copy behind it is. -/
structure LastIdle (c : Cache) (front : List Frame) (f : Frame) (back : List Frame) : Prop where
  frames : c.frames = front ++ f :: back
  idle : c.Idle f
  behind : ∀ g ∈ back, ¬c.Idle g

/-- Where nobody is reading the clean copies are idle. -/
theorem idle_iff (hg : c.guarded = []) : c.Idle f ↔ f.page.dirty = none := by
  unfold Idle
  rw [hg]
  exact and_iff_left List.not_mem_nil

theorem evictable_iff : c.evictable f = true ↔ c.Idle f := by
  unfold evictable Idle
  rw [Bool.and_eq_true, Frame.isClean_iff, Bool.not_eq_true', Bool.eq_false_iff, ne_eq, List.contains_iff_mem]

/-- **The idle copy nearest the back goes**, and the others stay in their order. -/
theorem evict?_eq_some_iff (h : c.pages.Nodup) : c.evict? = some c' ↔
    ∃ front f back, c.LastIdle front f back ∧ c' = { c with frames := front ++ back, gone := f :: c.gone } := by
  unfold evict?
  rw [Option.map_eq_some_iff]
  constructor
  · rintro ⟨f, hf, rfl⟩
    obtain ⟨hclean, back, front, hsplit, hback⟩ := List.find?_eq_some_iff_append.1 hf
    have hframes : c.frames = front.reverse ++ f :: back.reverse := by
      rw [← List.reverse_reverse c.frames, hsplit, List.reverse_append, List.reverse_cons, List.append_assoc]
      rfl
    refine ⟨front.reverse, f, back.reverse, ⟨hframes, evictable_iff.1 hclean, fun g hm hd => ?_⟩,
      remove_eq h hframes⟩
    have hno := hback g (List.mem_reverse.1 hm)
    rw [evictable_iff.2 hd] at hno
    cases hno
  · rintro ⟨front, f, back, hl, rfl⟩
    refine ⟨f, List.find?_eq_some_iff_append.2 ⟨evictable_iff.2 hl.idle, back.reverse, front.reverse, ?_, ?_⟩,
      remove_eq h hl.frames⟩
    · rw [hl.frames, List.reverse_append, List.reverse_cons, List.append_assoc]
      rfl
    · intro g hm
      rw [Bool.not_eq_true', Bool.eq_false_iff, ne_eq, evictable_iff]
      exact hl.behind g (List.mem_reverse.1 hm)

theorem evict?_eq_none_iff : c.evict? = none ↔ ∀ f ∈ c.frames, ¬c.Idle f := by
  unfold evict?
  rw [Option.map_eq_none_iff, List.find?_eq_none]
  simp only [List.mem_reverse, evictable_iff]

end Cache

namespace Engine

variable {e e' : Engine} {tx : TxId} {id : PageId} {mode : LockMode} {locks : LockTable} {fault : AccessFault}

/-! ## One fetch -/

/-- What becomes of the copies when a page is looked for. -/
inductive Loading (e : Engine) (id : PageId) : Outcome AccessFault Frame → Prop where
  /-- Its copy comes to the front. -/
  | used {front back : List Frame} {f : Frame} (hf : e.cache.frames = front ++ f :: back) (hid : f.page.id = id) :
    Loading e id (.ok f, { e with cache := { e.cache with frames := f :: (front ++ back) } })
  /-- It is read, and its copy is put in front. -/
  | read {page : Page} (hn : id ∉ e.cache.pages) (hs : e.stored id = .ok page)
    (hroom : e.cache.frames.length < e.cache.capacity) :
    Loading e id (.ok ⟨e.cache.copies, page⟩, { e with cache := { e.cache with
      frames := ⟨e.cache.copies, page⟩ :: e.cache.frames
      copies := e.cache.copies + 1 } })
  /-- It takes the place of the idle copy nearest the back. -/
  | replaced {front back : List Frame} {f : Frame} {page : Page} (hn : id ∉ e.cache.pages) (hs : e.stored id = .ok page)
    (hfull : e.cache.capacity ≤ e.cache.frames.length) (hl : e.cache.LastIdle front f back) :
    Loading e id (.ok ⟨e.cache.copies, page⟩, { e with cache := { e.cache with
      frames := ⟨e.cache.copies, page⟩ :: (front ++ back)
      gone := f :: e.cache.gone
      copies := e.cache.copies + 1 } })
  /-- There is no room, and no copy may go. -/
  | crowded {page : Page} (hn : id ∉ e.cache.pages) (hs : e.stored id = .ok page)
    (hfull : e.cache.capacity ≤ e.cache.frames.length) (hall : ∀ f ∈ e.cache.frames, ¬e.cache.Idle f) :
    Loading e id (.error (.allPagesDirty e.cache.capacity), e)
  /-- It cannot be read. -/
  | unread {fault : AccessFault} (hn : id ∉ e.cache.pages) (hs : e.stored id = .error fault) :
    Loading e id (.error fault, e)

/-- **A page that is looked for is used, or it is read** in the place of the idle copy nearest the back. -/
theorem load_loading (h : e.cache.pages.Nodup) (id : PageId) :
    Loading e id (e.load id) := by
  unfold load
  cases hfind : e.cache.find? id with
  | some f =>
    obtain ⟨front, back, hf, rfl⟩ := Cache.split_of_find? hfind
    simp only
    rw [Cache.touch_eq h hf]
    exact .used hf rfl
  | none =>
    have hn := Cache.find?_eq_none_iff.1 hfind
    cases hs : e.stored id with
    | error fault => exact .unread hn hs
    | ok page =>
      unfold Cache.makeRoom?
      by_cases hfull : e.cache.capacity ≤ e.cache.frames.length
      · rw [if_pos hfull]
        cases hev : e.cache.evict? with
        | none => exact .crowded hn hs hfull (Cache.evict?_eq_none_iff.1 hev)
        | some cache =>
          obtain ⟨front, f, back, hl, rfl⟩ := (Cache.evict?_eq_some_iff h).1 hev
          exact .replaced hn hs hfull hl
      · rw [if_neg hfull]
        exact .read hn hs (Nat.lt_of_not_le hfull)

theorem fetch_loading (h : e.cache.pages.Nodup)
    (hl : e.locks.grant? tx id mode = some locks) : Loading { e with locks } id (e.fetch tx id mode) := by
  rw [fetch_granted hl]
  exact load_loading (e := { e with locks }) h id

/-- A page that is read with room, or in the place of another one, is given. -/
theorem Loading.crowded_iff {o : Outcome AccessFault Frame} {page : Page} (h : Loading e id o) (hn : id ∉ e.cache.pages)
    (hs : e.stored id = .ok page) : o.1 = .error (.allPagesDirty e.cache.capacity) ↔
      e.cache.capacity ≤ e.cache.frames.length ∧ ∀ f ∈ e.cache.frames, ¬e.cache.Idle f := by
  cases h with
  | used hf hid =>
    refine absurd ?_ hn
    rw [← hid]
    exact Cache.mem_pages_of_mem (hf ▸ List.mem_append_right _ List.mem_cons_self)
  | read _ _ hroom => exact ⟨nofun, fun hc => absurd hc.1 (Nat.not_le.2 hroom)⟩
  | replaced _ _ _ hl =>
    refine ⟨nofun, fun hc => absurd hl.idle (hc.2 _ ?_)⟩
    rw [hl.frames]
    exact List.mem_append_right _ List.mem_cons_self
  | crowded _ _ hfull hall => exact ⟨fun _ => ⟨hfull, hall⟩, fun _ => rfl⟩
  | unread _ hs' =>
    rw [hs] at hs'
    cases hs'

theorem fetch_crowded_iff {page : Page} (h : e.cache.pages.Nodup) (hl : e.locks.grant? tx id mode = some locks)
    (hn : id ∉ e.cache.pages) (hs : e.stored id = .ok page) :
    (e.fetch tx id mode).1 = .error (.allPagesDirty e.cache.capacity) ↔
      e.cache.capacity ≤ e.cache.frames.length ∧ ∀ f ∈ e.cache.frames, ¬e.cache.Idle f :=
  Loading.crowded_iff (e := { e with locks }) (fetch_loading h hl) hn hs

theorem Loading.of_error (h : Loading e id (.error fault, e')) : e' = e := by
  cases h <;> rfl

/-- **A fetch that fails changes no copy**, unless it has ended its transaction. -/
theorem fetch_error_cache (hf : e.fetch tx id mode = (.error fault, e')) (ha : fault.aborts = false) :
    e'.cache = e.cache ∧ e'.disk = e.disk := by
  cases hg : e.locks.grant? tx id mode with
  | none =>
    rw [fetch_denied hg] at hf
    cases hf
    cases ha
  | some locks =>
    rw [fetch_granted hg] at hf
    unfold load at hf
    split at hf
    · cases hf
    · split at hf
      · cases hf
        exact ⟨rfl, rfl⟩
      · split at hf
        · cases hf
          exact ⟨rfl, rfl⟩
        · cases hf

/-! ## Room that is made -/

theorem evict_eq_ok_iff (h : e.cache.pages.Nodup) : e.evict = (.ok (), e') ↔
    ∃ front f back, e.cache.LastIdle front f back ∧
      e' = { e with cache := { e.cache with frames := front ++ back, gone := f :: e.cache.gone } } := by
  unfold evict
  cases hev : e.cache.evict? with
  | none =>
    refine ⟨nofun, ?_⟩
    rintro ⟨front, f, back, hl, -⟩
    refine absurd hl.idle (Cache.evict?_eq_none_iff.1 hev f ?_)
    rw [hl.frames]
    exact List.mem_append_right _ List.mem_cons_self
  | some cache =>
    constructor
    · intro he
      obtain ⟨front, f, back, hl, rfl⟩ := (Cache.evict?_eq_some_iff h).1 hev
      cases he
      exact ⟨front, f, back, hl, rfl⟩
    · rintro ⟨front, f, back, hl, rfl⟩
      rw [(Cache.evict?_eq_some_iff h).2 ⟨front, f, back, hl, rfl⟩] at hev
      cases hev
      rfl

theorem evict_eq_error_iff : e.evict = (.error (.allPagesDirty e.cache.capacity), e) ↔
    ∀ f ∈ e.cache.frames, ¬e.cache.Idle f := by
  rw [← Cache.evict?_eq_none_iff]
  unfold evict
  cases e.cache.evict? with
  | none => exact ⟨fun _ => rfl, fun _ => rfl⟩
  | some cache => exact ⟨nofun, nofun⟩

end Engine

/-! ## Demands that leave the list -/

/-- Demands that only give copies other contents, or other marks. -/
def Demand.Rests : Demand → Prop
  | .request (.call (.commit _)) => True
  | .request (.call (.abort _)) => True
  | .request .checkpoint => True
  | .request (.flushPage _) => True
  | .request (.flushPages _) => True
  | .request .flushAll => True
  | .request (.discardPages _) => True
  | .request (.mark _ _) => True
  | .unmark _ => True
  | _ => False

namespace Engine

variable {e : Engine} {d : Demand}

theorem meet_rests (h : e.cache.Filled) (hd : d.Rests) : (e.meet d).cache.pages = e.cache.pages := by
  have hk : Kept e.cache e := ⟨h, .refl _⟩
  cases d with
  | unmark id => exact (hk.mark id none).pages
  | outside => exact hd.elim
  | request r =>
    cases r with
    | call c =>
      cases c with
      | commit tx => exact (hk.complete tx true).pages
      | abort tx => exact (hk.complete tx false).pages
      | _ => exact hd.elim
    | checkpoint => exact (hk.flushEach e.cache.pages).pages
    | flushPage id => exact (hk.flushPage id).pages
    | flushPages tx => exact (hk.flushEach (e.cache.owned tx)).pages
    | flushAll => exact (hk.flushEach e.cache.pages).pages
    | discardPages tx => exact (hk.discardEach (e.cache.owned tx)).pages
    | mark id tx => exact (hk.mark id (some tx)).pages
    | remove id => exact hd.elim
    | unlock tx id => exact hd.elim

/-- What an engine can become that begins without copies. Anything is demanded of it, its locks become others, and whoever
has a copy gives it another content. -/
inductive Demanded : Engine → Prop where
  | start (e : Engine) (capacity : Nat) : Demanded { e with cache := { capacity } }
  | meet {e : Engine} (h : Demanded e) (d : Demand) : Demanded (e.meet d)
  | lock {e : Engine} (h : Demanded e) (locks : LockTable) : Demanded { e with locks }
  | change {e : Engine} {copy : Nat} {page : Page} (h : Demanded e)
    (hid : ∀ f ∈ e.cache.frames, f.copy = copy → page.id = f.page.id) :
    Demanded { e with cache := e.cache.change copy page }

theorem Demanded.filled (h : e.Demanded) : e.cache.Filled := by
  induction h with
  | start e capacity => exact ⟨List.nodup_nil, Nat.zero_le _, List.nodup_nil, nofun⟩
  | meet _ d ih => exact (meet_stays ih d).1.1
  | lock _ _ ih => exact ih
  | @change e copy page _ hid ih =>
    let put (f : Frame) : Frame := if f.copy = copy then { f with page } else f
    have hcopy : ∀ f, (put f).copy = f.copy := by
      intro f
      simp only [put]
      split <;> rfl
    have hpages : (e.cache.frames.map put).map (fun f => f.page.id) = e.cache.frames.map fun f => f.page.id := by
      rw [List.map_map]
      refine List.map_congr_left fun f hf => ?_
      simp only [Function.comp, put]
      split
      · next hc => exact hid f hf hc
      · rfl
    have hcopies : (e.cache.frames.map put).map Frame.copy = e.cache.frames.map Frame.copy := by
      rw [List.map_map]
      exact List.map_congr_left fun f _ => hcopy f
    refine ⟨?_, (List.length_map _).trans_le ih.bounded, ?_, fun g hg => ?_⟩
    · show ((e.cache.frames.map put).map fun f => f.page.id).Nodup
      rw [hpages]
      exact ih.nodup
    · show ((e.cache.frames.map put).map Frame.copy).Nodup
      rw [hcopies]
      exact ih.numbers
    · obtain ⟨f, hf, rfl⟩ := List.mem_map.1 hg
      rw [hcopy]
      exact ih.fresh f hf

theorem Demanded.meetAll (demands : List Demand) : ∀ {e : Engine}, e.Demanded → (e.meetAll demands).Demanded := by
  induction demands with
  | nil => exact fun h => h
  | cons d demands ih => exact fun h => ih (h.meet d)

end Engine

end HeapStore
