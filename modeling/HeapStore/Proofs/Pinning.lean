import HeapStore.Proofs.Ongoing

/-!
# Changed copies stay

A cache has room for some number of copies, and drops one before it takes another one. No copy that is changed goes in
this way, whatever is asked and whatever becomes of the files meanwhile. It only goes if it is removed.

* `Cache.Filled`: a cache within its room, with one copy of a page and one number for each copy.
* `Cache.Descends`: what becomes of a cache. A copy stays a copy of its page.
* `Demand`, `Engine.meet`: requests, marks that are taken off changed pages, and files and tables that become others.
* `Engine.ongoing_pinned`, `Engine.meet_stays`: **a page that is changed has a copy after the next demand too.**
-/

namespace HeapStore

namespace Cache

variable {c c' c'' : Cache} {id : PageId} {f : Frame} {page : Page}

/-- A cache within its room. No page has two copies, and no two copies have one number. -/
structure Filled (c : Cache) : Prop where
  nodup : c.pages.Nodup
  bounded : c.frames.length ≤ c.capacity
  numbers : (c.frames.map Frame.copy).Nodup
  fresh : ∀ f ∈ c.frames, f.copy < c.copies

/-- What becomes of a cache: a copy that was there before is a copy of the same page. -/
structure Descends (c c' : Cache) : Prop where
  capacity : c'.capacity = c.capacity
  copies : c.copies ≤ c'.copies
  old : ∀ g ∈ c'.frames, g.copy < c.copies → ∃ f ∈ c.frames, f.copy = g.copy ∧ f.page.id = g.page.id

namespace Filled

variable (h : c.Filled)

include h

theorem touch (id : PageId) : (c.touch id).Filled where
  nodup := nodup_touch h.nodup
  bounded := touch_perm.length_eq.trans_le h.bounded
  numbers := (touch_perm.map Frame.copy).nodup_iff.2 h.numbers
  fresh f hf := h.fresh f (mem_touch.1 hf)

theorem remove (id : PageId) : (c.remove id).Filled where
  nodup := nodup_remove h.nodup
  bounded := (List.length_filter_le _ _).trans h.bounded
  numbers := h.numbers.sublist (List.filter_sublist.map _)
  fresh f hf := h.fresh f (mem_remove.1 hf).1

theorem update (hp : page.id = id) : (c.update id page).Filled where
  nodup := nodup_update hp h.nodup
  bounded := (List.length_map _).trans_le h.bounded
  numbers := by
    have hcopies : (c.update id page).frames.map Frame.copy = c.frames.map Frame.copy := by
      unfold Cache.update
      rw [List.map_map]
      refine List.map_congr_left fun f _ => ?_
      simp only [Function.comp]
      split <;> rfl
    rw [hcopies]
    exact h.numbers
  fresh g hg := by
    rcases mem_update.1 hg with ⟨hg, -⟩ | ⟨f, hf, -, rfl⟩
    · exact h.fresh g hg
    · exact h.fresh f hf

/-- A copy that is dropped leaves room for another one. -/
theorem length_remove (hf : f ∈ c.frames) : (c.remove f.page.id).frames.length < c.capacity := by
  refine lt_of_lt_of_le ?_ h.bounded
  unfold Cache.remove
  rw [List.length_filter_lt_length_iff_exists]
  exact ⟨f, hf, by simp [Frame.isOf_iff.2]⟩

/-- **Once room was made there is room for one more copy.** -/
theorem makeRoom (hr : c.makeRoom? = some c') : c'.Filled ∧ c'.frames.length < c'.capacity := by
  unfold makeRoom? at hr
  split at hr
  · obtain ⟨f, hf, -, rfl⟩ := evict?_cases hr
    exact ⟨h.remove _, h.length_remove hf⟩
  · next hlen =>
    cases hr
    exact ⟨h, Nat.lt_of_not_le hlen⟩

theorem add (hp : page.id ∉ c.pages) (hlen : c.frames.length < c.capacity) : (c.add page).2.Filled where
  nodup := nodup_add h.nodup hp
  bounded := hlen
  numbers := by
    refine List.nodup_cons.2 ⟨fun hm => ?_, h.numbers⟩
    obtain ⟨f, hf, he⟩ := List.mem_map.1 hm
    exact absurd he (Nat.ne_of_lt (h.fresh f hf))
  fresh f hf := by
    rcases mem_add.1 hf with rfl | hf
    · exact Nat.lt_succ_self _
    · exact Nat.lt_succ_of_lt (h.fresh f hf)

end Filled

/-! ## Copies and their pages -/

theorem Descends.refl (c : Cache) : c.Descends c := ⟨rfl, le_rfl, fun g hg _ => ⟨g, hg, rfl, rfl⟩⟩

theorem Descends.trans (h : c.Descends c') (h' : c'.Descends c'') : c.Descends c'' where
  capacity := h'.capacity.trans h.capacity
  copies := h.copies.trans h'.copies
  old g hg hlt := by
    obtain ⟨f, hf, hcopy, hid⟩ := h'.old g hg (lt_of_lt_of_le hlt h.copies)
    obtain ⟨f', hf', hcopy', hid'⟩ := h.old f hf (by omega)
    exact ⟨f', hf', hcopy'.trans hcopy, hid'.trans hid⟩

/-- **A copy stays a copy of its page.** -/
theorem Descends.id_eq (h : c.Descends c') (hc : c.Filled) {g : Frame} (hf : f ∈ c.frames) (hg : g ∈ c'.frames)
    (he : g.copy = f.copy) : g.page.id = f.page.id := by
  obtain ⟨f', hf', hcopy, hid⟩ := h.old g hg (he ▸ hc.fresh f hf)
  rw [← hid, List.inj_on_of_nodup_map hc.numbers hf' hf (hcopy.trans he)]

theorem descends_touch (c : Cache) (id : PageId) : c.Descends (c.touch id) :=
  ⟨rfl, le_rfl, fun g hg _ => ⟨g, mem_touch.1 hg, rfl, rfl⟩⟩

theorem descends_remove (c : Cache) (id : PageId) : c.Descends (c.remove id) :=
  ⟨rfl, le_rfl, fun g hg _ => ⟨g, (mem_remove.1 hg).1, rfl, rfl⟩⟩

theorem descends_update (c : Cache) (hp : page.id = id) : c.Descends (c.update id page) := by
  refine ⟨rfl, le_rfl, fun g hg _ => ?_⟩
  rcases mem_update.1 hg with ⟨hg, -⟩ | ⟨f, hf, hid, rfl⟩
  · exact ⟨g, hg, rfl, rfl⟩
  · exact ⟨f, hf, rfl, hid.trans hp.symm⟩

theorem descends_makeRoom (h : c.makeRoom? = some c') : c.Descends c' := by
  rcases makeRoom?_cases h with rfl | ⟨f, -, -, rfl⟩
  · exact .refl _
  · exact descends_remove c _

/-- A page without a copy has none when room was made. -/
theorem find?_makeRoom (hr : c.makeRoom? = some c') (hn : c.find? id = none) : c'.find? id = none := by
  rw [find?_eq_none_iff] at hn ⊢
  intro hm
  obtain ⟨g, hg, rfl⟩ := List.mem_map.1 hm
  rcases makeRoom?_cases hr with rfl | ⟨f, -, -, rfl⟩
  · exact hn (mem_pages_of_mem hg)
  · exact hn (mem_pages_of_mem (mem_remove.1 hg).1)

/-- A new copy has a number that no copy has had. -/
theorem descends_add (c : Cache) (page : Page) : c.Descends (c.add page).2 := by
  refine ⟨rfl, Nat.le_succ _, fun g hg hlt => ?_⟩
  rcases mem_add.1 hg with rfl | hg
  · exact absurd hlt (Nat.lt_irrefl _)
  · exact ⟨g, hg, rfl, rfl⟩

/-! ## Changed pages -/

/-- The page has a copy that is changed. -/
def Changed (c : Cache) (id : PageId) : Prop := ∃ f, c.find? id = some f ∧ f.page.dirty ≠ none

theorem Changed.mem (h : c.Changed id) : id ∈ c.pages := by
  obtain ⟨f, hf, -⟩ := h
  obtain ⟨hm, rfl⟩ := mem_of_find? hf
  exact mem_pages_of_mem hm

theorem changed_of_mem_dirtyPages (h : c.pages.Nodup) {tx : TxId} (hm : (id, tx) ∈ c.dirtyPages) : c.Changed id := by
  obtain ⟨page, hd⟩ := Option.isSome_iff_exists.1 ((mem_dirtyPages h).1 hm)
  obtain ⟨f, hf, rfl, rfl, ho⟩ := (draft_eq_some_iff h).1 hd
  exact ⟨f, find?_of_mem h hf, by rw [ho]; simp⟩

namespace Changed

variable (h : c.Changed id)

include h

theorem touch (hn : c.pages.Nodup) (id' : PageId) : (c.touch id').Changed id := by
  obtain ⟨f, hf, hd⟩ := h
  exact ⟨f, (find?_touch hn).trans hf, hd⟩

/-- A copy that goes is that of another page, or it is clean. -/
theorem remove (hn : c.pages.Nodup) (hf : f ∈ c.frames) (hd : f.page.dirty = none) :
    (c.remove f.page.id).Changed id := by
  obtain ⟨g, hg, hgd⟩ := h
  refine ⟨g, ?_, hgd⟩
  rw [find?_remove hn, if_neg]
  · exact hg
  · rintro rfl
    rw [find?_of_mem hn hf] at hg
    cases hg
    exact hgd hd

theorem makeRoom (hn : c.pages.Nodup) (hr : c.makeRoom? = some c') : c'.Changed id := by
  rcases makeRoom?_cases hr with rfl | ⟨f, hf, hd, rfl⟩
  · exact h
  · exact h.remove hn hf hd

theorem add (hp : c.find? page.id = none) : (c.add page).2.Changed id := by
  obtain ⟨f, hf, hd⟩ := h
  refine ⟨f, ?_, hd⟩
  rw [find?_add, if_neg]
  · exact hf
  · rintro rfl
    rw [hp] at hf
    cases hf

theorem update (hd : page.dirty ≠ none) : (c.update page.id page).Changed id := by
  obtain ⟨f, hf, hfd⟩ := h
  unfold Changed
  rw [find?_update rfl]
  by_cases hi : id = page.id
  · rw [if_pos hi, ← hi, hf]
    exact ⟨_, rfl, hd⟩
  · rw [if_neg hi]
    exact ⟨f, hf, hfd⟩

end Changed

end Cache

/-! ## Demands -/

/-- A request, or the mark of a changed page that is taken off, or other files, tables and readers. -/
inductive Demand where
  | request (r : Request)
  | unmark (id : PageId)
  | outside (disk : Disk) (catalog : Catalog) (guarded : List Nat)

namespace Engine

variable {e e' : Engine} {tx : TxId} {c : Cache} {ids : List PageId}

/-- The engine after a demand. -/
def meet (e : Engine) : Demand → Engine
  | .request r => (e.serve r).2
  | .unmark id => (e.mark id none).2
  | .outside disk catalog guarded => { e with disk, catalog, cache := { e.cache with guarded } }

/-- The engine after some demands. -/
def meetAll (e : Engine) : List Demand → Engine
  | [] => e
  | d :: demands => (e.meet d).meetAll demands

/-- A cache that has become another one within its room. -/
def Kept (c : Cache) (e : Engine) : Prop := e.cache.Filled ∧ c.Descends e.cache

theorem Kept.update {page : Page} (h : Kept c e) : Kept c { e with cache := e.cache.update page.id page } :=
  ⟨h.1.update rfl, h.2.trans (Cache.descends_update _ rfl)⟩

/-- Copies that get other contents stay. -/
structure Retains (c : Cache) (e e' : Engine) : Prop where
  kept : Kept c e'
  pages : e'.cache.pages = e.cache.pages

theorem Retains.refl (h : Kept c e) : Retains c e e := ⟨h, rfl⟩

theorem Retains.trans {e'' : Engine} (h : Retains c e e') (h' : Retains c e' e'') : Retains c e e'' :=
  ⟨h'.kept, h'.pages.trans h.pages⟩

theorem Kept.retains (h : Kept c e) (disk : Disk) (page : Page) :
    Retains c e { e with disk, cache := e.cache.update page.id page } :=
  ⟨h.update, Cache.pages_update rfl⟩

theorem Kept.mark (h : Kept c e) (id : PageId) (owner : Option TxId) : Retains c e (e.mark id owner).2 := by
  unfold Engine.mark
  split
  · exact .refl h
  · next f hf =>
    obtain ⟨-, rfl⟩ := Cache.mem_of_find? hf
    exact h.retains e.disk (f.page.mark owner)

theorem Kept.flushPage (h : Kept c e) (id : PageId) : Retains c e (e.flushPage id).2 := by
  unfold Engine.flushPage
  split
  · exact .refl h
  next f hf =>
  obtain ⟨-, rfl⟩ := Cache.mem_of_find? hf
  split
  · exact .refl h
  split
  · exact .refl h
  split
  · exact .refl h
  · next disk _ => exact h.retains disk (f.page.mark none).settle

theorem Kept.flushEach (ids : List PageId) (h : Kept c e) : Retains c e (Engine.flushEach ids e).2 := by
  induction ids generalizing e with
  | nil => exact .refl h
  | cons id ids ih =>
    have hp := h.flushPage id
    unfold Engine.flushEach
    split
    · next hf =>
      rw [hf] at hp
      exact hp
    · next hf =>
      rw [hf] at hp
      exact hp.trans (ih hp.kept)

theorem Kept.discardEach (ids : List PageId) (h : Kept c e) : Retains c e (Engine.discardEach ids e).2 := by
  induction ids generalizing e with
  | nil => exact .refl h
  | cons id ids ih =>
    unfold Engine.discardEach
    split
    · exact .refl h
    · next page hs =>
      have hid := id_of_stored hs
      subst hid
      have hp := h.retains e.disk page
      exact hp.trans (ih hp.kept)

theorem Kept.complete (h : Kept c e) (tx : TxId) (keep : Bool) : Retains c e (e.complete tx keep).2 := by
  cases keep with
  | true =>
    have hp := h.flushEach (e.cache.owned tx)
    exact ⟨hp.kept, hp.pages⟩
  | false =>
    have hp := h.discardEach (e.cache.owned tx)
    exact ⟨hp.kept, hp.pages⟩

/-- The pages that were changed are changed still. -/
def Pinned (c : Cache) (e : Engine) : Prop := Kept c e ∧ ∀ id, c.Changed id → e.cache.Changed id

/-- They have copies still. -/
def Stays (c : Cache) (e : Engine) : Prop := Kept c e ∧ ∀ id, c.Changed id → id ∈ e.cache.pages

theorem Pinned.refl (h : e.cache.Filled) : Pinned e.cache e := ⟨⟨h, .refl _⟩, fun _ hc => hc⟩

theorem Pinned.stays (h : Pinned c e) : Stays c e := ⟨h.1, fun id hc => (h.2 id hc).mem⟩

theorem Pinned.retains (h : Pinned c e) (hr : Retains c e e') : Stays c e' :=
  ⟨hr.kept, fun id hc => by
    rw [hr.pages]
    exact (h.2 id hc).mem⟩

/-- **As long as a transaction goes on all changed pages are pinned**, and at its end they have their copies. -/
theorem ongoing_pinned (c : Cache) : Ongoing (Pinned c) (Stays c) where
  weaken h := h.stays
  grant _ h := h
  next _ h := h
  grow _ h := h
  touch id h := ⟨⟨h.1.1.touch id, h.1.2.trans (Cache.descends_touch _ id)⟩, fun _ hc => (h.2 _ hc).touch h.1.1.nodup id⟩
  evict h hev := by
    obtain ⟨f, hf, hd, rfl⟩ := Cache.evict?_cases hev
    exact ⟨⟨h.1.1.remove _, h.1.2.trans (Cache.descends_remove _ _)⟩, fun _ hc => (h.2 _ hc).remove h.1.1.nodup hf hd⟩
  put {e cache page} h hn _ hr := by
    obtain ⟨hfill, hlen⟩ := h.1.1.makeRoom hr
    have hn' := Cache.find?_makeRoom hr hn
    have hdesc := (h.1.2.trans (Cache.descends_makeRoom hr)).trans (Cache.descends_add cache page)
    exact ⟨⟨hfill.add (Cache.find?_eq_none_iff.1 hn') hlen, hdesc⟩,
      fun _ hc => ((h.2 _ hc).makeRoom h.1.1.nodup hr).add hn'⟩
  revise h _ hd := ⟨h.1.update, fun _ hc => (h.2 _ hc).update (by rw [hd]; simp)⟩
  complete tx keep h := h.retains (h.1.complete tx keep)

/-- What is done to a page that is removed is done to no other page. -/
theorem Kept.remove (h : Kept c e) (id : PageId) : Kept c { e with cache := e.cache.remove id } :=
  ⟨h.1.remove id, h.2.trans (Cache.descends_remove _ id)⟩

/-- **After one demand the cache is within its room**, and the pages that were changed have copies, but for the one that
was removed. -/
theorem meet_stays (h : e.cache.Filled) (d : Demand) : Kept e.cache (e.meet d) ∧
    ∀ id, e.cache.Changed id → d ≠ .request (.remove id) → id ∈ (e.meet d).cache.pages := by
  have hpin := Pinned.refl h
  have hall : Stays e.cache (e.meet d) → Kept e.cache (e.meet d) ∧
      ∀ id, e.cache.Changed id → d ≠ .request (.remove id) → id ∈ (e.meet d).cache.pages :=
    fun hs => ⟨hs.1, fun id hc _ => hs.2 id hc⟩
  cases d with
  | unmark id => exact hall (hpin.retains (hpin.1.mark id none))
  | outside disk catalog guarded =>
    -- the readers of copies are no part of them
    have hf : Cache.Filled { e.cache with guarded } := ⟨h.nodup, h.bounded, h.numbers, h.fresh⟩
    have hd : e.cache.Descends { e.cache with guarded } := ⟨rfl, le_rfl, fun g hg _ => ⟨g, hg, rfl, rfl⟩⟩
    exact hall ⟨⟨hf, hd⟩, fun _ hc => hc.mem⟩
  | request r =>
    cases r with
    | call c => exact hall ((ongoing_pinned e.cache).call hpin c)
    | checkpoint => exact hall (hpin.retains (hpin.1.flushEach e.cache.pages))
    | flushPage id => exact hall (hpin.retains (hpin.1.flushPage id))
    | flushPages tx => exact hall (hpin.retains (hpin.1.flushEach (e.cache.owned tx)))
    | flushAll => exact hall (hpin.retains (hpin.1.flushEach e.cache.pages))
    | discardPages tx => exact hall (hpin.retains (hpin.1.discardEach (e.cache.owned tx)))
    | unlock tx id => exact hall hpin.stays
    | mark id tx => exact hall (hpin.retains (hpin.1.mark id (some tx)))
    | remove id =>
      refine ⟨hpin.1.remove id, fun id' hc hne => ?_⟩
      obtain ⟨f, hf, -⟩ := hc
      obtain ⟨hm, rfl⟩ := Cache.mem_of_find? hf
      refine Cache.mem_pages_of_mem (Cache.mem_remove.2 ⟨hm, ?_⟩)
      rintro rfl
      exact hne rfl

theorem Kept.meetAll (demands : List Demand) (h : Kept c e) : Kept c (e.meetAll demands) := by
  induction demands generalizing e with
  | nil => exact h
  | cons d demands ih =>
    obtain ⟨hfill, hdesc⟩ := (meet_stays h.1 d).1
    exact ih ⟨hfill, h.2.trans hdesc⟩

end Engine

end HeapStore
