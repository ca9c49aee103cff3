import HeapStore.Cache.Basic
import Mathlib.Data.List.Nodup
import Mathlib.Tactic.ByContra

/-!
# What the cache holds

A cache as a function from pages to their copies (`Cache.find?`), and to the changes that transactions have
not ended yet (`Cache.draft`).

* `Cache.find?_eq_some_iff`: as long as no page has two copies, the copy of a page is any copy with its
  number.
* `Cache.find?_touch`, `find?_update`, `find?_remove`, `find?_add`: the copies after each operation.
* `Cache.makeRoom?_cases`: **room is made by dropping a clean copy**, or by nothing.
* `Cache.isSome_makeRoom?`: there is room as long as there are fewer changed copies than places.
* `Cache.changed_remove`, `changed_add`, `changed_update`: how many changed copies there are then.
* `Cache.draft_remove`, `draft_add`: copies that come and go are no changes.
* `Cache.unsaved`: the changes, whoever has made them.
-/

namespace HeapStore

theorem Frame.isOf_iff {f : Frame} {id : PageId} : f.isOf id = true ↔ f.page.id = id := by
  unfold Frame.isOf
  exact beq_iff_eq

theorem Frame.ownedBy_iff {f : Frame} {tx : TxId} : f.ownedBy tx = true ↔ f.page.dirty = some tx := by
  unfold Frame.ownedBy
  exact beq_iff_eq

theorem Frame.isClean_iff {f : Frame} : f.isClean = true ↔ f.page.dirty = none := by
  unfold Frame.isClean
  exact Option.isNone_iff_eq_none

namespace Cache

variable {c c' : Cache} {id id' : PageId} {tx : TxId} {f : Frame} {page : Page}

theorem mem_of_find? (h : c.find? id = some f) : f ∈ c.frames ∧ f.page.id = id := by
  unfold find? at h
  have ho := List.find?_some h
  exact ⟨List.mem_of_find?_eq_some h, Frame.isOf_iff.1 ho⟩

theorem find?_id (h : c.find? id = some f) : c.find? f.page.id = some f := by
  rw [(mem_of_find? h).2]
  exact h

theorem mem_pages_of_mem (h : f ∈ c.frames) : f.page.id ∈ c.pages := List.mem_map_of_mem h

theorem find?_eq_none_iff : c.find? id = none ↔ id ∉ c.pages := by
  unfold find? pages
  rw [List.find?_eq_none, List.mem_map]
  constructor
  · rintro h ⟨f, hf, he⟩
    exact h f hf (Frame.isOf_iff.2 he)
  · intro h f hf ho
    exact h ⟨f, hf, Frame.isOf_iff.1 ho⟩

/-- No page has two copies: the copy of a page is any copy with its number. -/
theorem find?_eq_some_iff (h : c.pages.Nodup) : c.find? id = some f ↔ f ∈ c.frames ∧ f.page.id = id := by
  refine ⟨mem_of_find?, ?_⟩
  rintro ⟨hf, rfl⟩
  cases hg : c.find? f.page.id with
  | none => exact absurd (mem_pages_of_mem hf) (find?_eq_none_iff.1 hg)
  | some g =>
    obtain ⟨hm, he⟩ := mem_of_find? hg
    rw [List.inj_on_of_nodup_map h hm hf he]

theorem find?_of_mem (h : c.pages.Nodup) (hf : f ∈ c.frames) : c.find? f.page.id = some f :=
  (find?_eq_some_iff h).2 ⟨hf, rfl⟩

/-! ## Operations -/

theorem touch_perm : (c.touch id).frames.Perm c.frames := List.filter_append_perm _ _

theorem mem_touch : f ∈ (c.touch id).frames ↔ f ∈ c.frames := touch_perm.mem_iff

theorem nodup_touch (h : c.pages.Nodup) : (c.touch id).pages.Nodup := by
  have hp : (c.touch id).pages.Perm c.pages := touch_perm.map fun f : Frame => f.page.id
  exact hp.nodup_iff.2 h

theorem find?_touch (h : c.pages.Nodup) : (c.touch id).find? id' = c.find? id' := by
  apply Option.ext
  intro f
  rw [find?_eq_some_iff h, find?_eq_some_iff (nodup_touch h), mem_touch]

/-- A page that is used has the same copy, even if it had two. -/
theorem find?_touch_self (c : Cache) (id : PageId) : (c.touch id).find? id = c.find? id := by
  unfold find? touch
  have hno : (c.frames.filter (!·.isOf id)).find? (·.isOf id) = none := by
    rw [List.find?_eq_none]
    intro f hf
    simpa using (List.mem_filter.1 hf).2
  simp only [List.find?_append, hno, Option.or_none, List.find?_filter, and_self, Bool.decide_eq_true]

theorem mem_update : f ∈ (c.update id page).frames ↔
    f ∈ c.frames ∧ f.page.id ≠ id ∨ ∃ g ∈ c.frames, g.page.id = id ∧ f = { g with page } := by
  unfold update
  simp only [List.mem_map]
  constructor
  · rintro ⟨g, hg, rfl⟩
    by_cases ho : g.page.id = id
    · rw [if_pos (Frame.isOf_iff.2 ho)]
      exact .inr ⟨g, hg, ho, rfl⟩
    · rw [if_neg (mt Frame.isOf_iff.1 ho)]
      exact .inl ⟨hg, ho⟩
  · rintro (⟨hf, ho⟩ | ⟨g, hg, ho, rfl⟩)
    · exact ⟨f, hf, if_neg (mt Frame.isOf_iff.1 ho)⟩
    · exact ⟨g, hg, if_pos (Frame.isOf_iff.2 ho)⟩

theorem pages_update (hp : page.id = id) : (c.update id page).pages = c.pages := by
  unfold pages update
  rw [List.map_map]
  apply List.map_congr_left
  intro f _
  simp only [Function.comp]
  split
  · next ho => rw [Frame.isOf_iff.1 ho, hp]
  · rfl

theorem nodup_update (hp : page.id = id) (h : c.pages.Nodup) : (c.update id page).pages.Nodup := by
  rw [pages_update hp]
  exact h

theorem find?_update (hp : page.id = id) :
    (c.update id page).find? id' = if id' = id then (c.find? id).map ({ · with page }) else c.find? id' := by
  unfold find? update
  simp only
  induction c.frames with
  | nil => split <;> rfl
  | cons f fs ih =>
    simp only [List.map_cons, List.find?_cons]
    by_cases ho : f.page.id = id
    · by_cases hi : id' = id
      · have h1 : Frame.isOf { f with page } id' = true := Frame.isOf_iff.2 (hp.trans hi.symm)
        simp only [Frame.isOf_iff.2 ho, hi ▸ h1, hi, if_true, Option.map_some]
      · have h1 : Frame.isOf { f with page } id' = false := by
          rw [Bool.eq_false_iff]
          exact fun h => hi ((Frame.isOf_iff.1 h).symm.trans hp)
        have h2 : f.isOf id' = false := by
          rw [Bool.eq_false_iff]
          exact fun h => hi ((Frame.isOf_iff.1 h).symm.trans ho)
        rw [if_neg hi] at ih ⊢
        simp only [Frame.isOf_iff.2 ho, if_true, h1, h2]
        exact ih
    · have h1 : f.isOf id = false := by
        rw [Bool.eq_false_iff]
        exact mt Frame.isOf_iff.1 ho
      by_cases hi : id' = id
      · rw [if_pos hi] at ih ⊢
        subst hi
        simp only [h1, Bool.false_eq_true, if_false]
        exact ih
      · rw [if_neg hi] at ih ⊢
        simp only [h1, Bool.false_eq_true, if_false]
        cases f.isOf id' with
        | true => rfl
        | false => exact ih

theorem mem_remove : f ∈ (c.remove id).frames ↔ f ∈ c.frames ∧ f.page.id ≠ id := by
  unfold remove
  simp only [List.mem_filter, Bool.not_eq_eq_eq_not, Bool.not_true, Bool.eq_false_iff, ne_eq, Frame.isOf_iff]

theorem nodup_remove (h : c.pages.Nodup) : (c.remove id).pages.Nodup :=
  h.sublist (List.filter_sublist.map _)

theorem find?_remove (h : c.pages.Nodup) :
    (c.remove id).find? id' = if id' = id then none else c.find? id' := by
  by_cases hi : id' = id
  · rw [if_pos hi, find?_eq_none_iff]
    intro hm
    obtain ⟨f, hf, he⟩ := List.mem_map.1 hm
    exact (mem_remove.1 hf).2 (he.trans hi)
  · rw [if_neg hi]
    apply Option.ext
    intro f
    rw [find?_eq_some_iff h, find?_eq_some_iff (nodup_remove h), mem_remove]
    exact ⟨fun h => ⟨h.1.1, h.2⟩, fun h => ⟨⟨h.1, fun he => hi (h.2.symm.trans he)⟩, h.2⟩⟩

theorem find?_add : (c.add page).2.find? id = if page.id = id then some (c.add page).1 else c.find? id := by
  unfold find? add
  simp only [List.find?_cons]
  by_cases ho : page.id = id
  · have h1 : Frame.isOf ⟨c.copies, page⟩ id = true := Frame.isOf_iff.2 ho
    rw [if_pos ho, h1]
  · have h1 : Frame.isOf ⟨c.copies, page⟩ id = false := by
      rw [Bool.eq_false_iff]
      exact mt Frame.isOf_iff.1 ho
    rw [if_neg ho, h1]

theorem mem_add : f ∈ (c.add page).2.frames ↔ f = (c.add page).1 ∨ f ∈ c.frames := List.mem_cons

theorem nodup_add (h : c.pages.Nodup) (hp : page.id ∉ c.pages) : (c.add page).2.pages.Nodup :=
  List.nodup_cons.2 ⟨hp, h⟩

/-- A copy that is dropped to make room is clean. -/
theorem evict?_cases (h : c.evict? = some c') : ∃ f ∈ c.frames, f.page.dirty = none ∧ c' = c.remove f.page.id := by
  obtain ⟨f, hf, rfl⟩ := Option.map_eq_some_iff.1 h
  have he := List.find?_some hf
  rw [evictable, Bool.and_eq_true] at he
  exact ⟨f, List.mem_reverse.1 (List.mem_of_find?_eq_some hf), Frame.isClean_iff.1 he.1, rfl⟩

/-- **Room is made by dropping a clean copy**, or by nothing. -/
theorem makeRoom?_cases (h : c.makeRoom? = some c') :
    c' = c ∨ ∃ f ∈ c.frames, f.page.dirty = none ∧ c' = c.remove f.page.id := by
  unfold makeRoom? at h
  split at h
  · exact .inr (evict?_cases h)
  · cases h
    exact .inl rfl

/-- The number of changed copies. -/
def changed (c : Cache) : Nat := c.frames.countP fun f => !f.isClean

/-- **There is room as long as there are fewer changed copies than places**, if nobody is reading. -/
theorem isSome_makeRoom? (hg : c.guarded = []) (h : c.changed < c.capacity) : c.makeRoom?.isSome := by
  unfold makeRoom?
  split
  · next hle =>
    obtain ⟨f, hf, hc⟩ : ∃ f ∈ c.frames, f.isClean = true := by
      by_contra hno
      have hall : c.changed = c.frames.length := by
        unfold changed
        rw [List.countP_eq_length]
        intro f hf
        rw [Bool.not_eq_true', Bool.eq_false_iff]
        exact fun hc => hno ⟨f, hf, hc⟩
      omega
    unfold evict?
    rw [Option.isSome_map, List.find?_isSome]
    refine ⟨f, List.mem_reverse.2 hf, ?_⟩
    unfold evictable
    rw [hc, hg]
    rfl
  · rfl

theorem changed_touch : (c.touch id).changed = c.changed := touch_perm.countP_eq _

theorem changed_remove (h : c.pages.Nodup) (hf : f ∈ c.frames) (hd : f.page.dirty = none) :
    (c.remove f.page.id).changed = c.changed := by
  unfold changed remove
  simp only [List.countP_filter]
  apply List.countP_congr
  intro g hg
  -- the only copy with this number is the clean one
  have hc : g.isClean = false → g.isOf f.page.id = false := by
    intro hgc
    rw [Bool.eq_false_iff]
    intro ho
    have : g = f := List.inj_on_of_nodup_map h hg hf (Frame.isOf_iff.1 ho)
    rw [this, Frame.isClean_iff.2 hd] at hgc
    cases hgc
  cases hgc : g.isClean with
  | true => simp
  | false => simp [hc hgc]

theorem changed_add (hd : page.dirty = none) : (c.add page).2.changed = c.changed := by
  have hc : Frame.isClean (c.add page).1 = true := Frame.isClean_iff.2 hd
  unfold changed
  have hf : (c.add page).2.frames = (c.add page).1 :: c.frames := rfl
  rw [hf, List.countP_cons_of_neg (by rw [hc]; simp)]

theorem countP_replace (page : Page) {fs : List Frame} (h : (fs.map fun f => f.page.id).Nodup) :
    (fs.map fun f => if f.isOf id then { f with page } else f).countP (fun f => !f.isClean) ≤
      fs.countP (fun f => !f.isClean) + 1 := by
  induction fs with
  | nil => exact Nat.zero_le _
  | cons g gs ih =>
    obtain ⟨hg, hgs⟩ := List.nodup_cons.1 h
    have ih := ih hgs
    simp only [List.map_cons, List.countP_cons]
    by_cases ho : g.page.id = id
    · -- the others have other numbers and stay as they are
      have hrest : gs.map (fun f => if f.isOf id then { f with page } else f) = gs.map fun f => f := by
        apply List.map_congr_left
        intro f hf
        rw [if_neg]
        intro hfo
        exact hg (List.mem_map.2 ⟨f, hf, (Frame.isOf_iff.1 hfo).trans ho.symm⟩)
      rw [hrest, List.map_id']
      split <;> split <;> omega
    · rw [if_neg (mt Frame.isOf_iff.1 ho)]
      split <;> omega

/-- A copy that gets another content is at most one change more. -/
theorem changed_update (h : c.pages.Nodup) : (c.update id page).changed ≤ c.changed + 1 := countP_replace page h

/-! ## Changes -/

/-- The page with the changes of a transaction, if it has changed it. -/
def draft (c : Cache) (tx : TxId) (id : PageId) : Option Page :=
  (c.find? id).bind fun f => if f.page.dirty = some tx then some f.page else none

theorem draft_eq_some_iff (h : c.pages.Nodup) :
    c.draft tx id = some page ↔ ∃ f ∈ c.frames, f.page = page ∧ page.id = id ∧ page.dirty = some tx := by
  unfold draft
  rw [Option.bind_eq_some_iff]
  constructor
  · rintro ⟨f, hf, hd⟩
    obtain ⟨hm, he⟩ := mem_of_find? hf
    split at hd
    · next ho =>
      cases hd
      exact ⟨f, hm, rfl, he, ho⟩
    · cases hd
  · rintro ⟨f, hf, rfl, rfl, hd⟩
    exact ⟨f, find?_of_mem h hf, if_pos hd⟩

theorem draft_of_find? (h : c.find? id = some f) :
    c.draft tx id = if f.page.dirty = some tx then some f.page else none := by
  unfold draft
  rw [h]
  rfl

theorem draft_of_not_mem (h : id ∉ c.pages) : c.draft tx id = none := by
  unfold draft
  rw [find?_eq_none_iff.2 h]
  rfl

/-- If nobody has changed a page no copy is changed. -/
theorem changed_eq_zero (h : c.pages.Nodup) (hd : ∀ tx id, c.draft tx id = none) : c.changed = 0 := by
  unfold changed
  rw [List.countP_eq_zero]
  intro f hf hc
  cases ho : f.page.dirty with
  | none =>
    rw [Frame.isClean_iff.2 ho] at hc
    cases hc
  | some tx =>
    have hs : c.draft tx f.page.id = some f.page := (draft_eq_some_iff h).2 ⟨f, hf, rfl, rfl, ho⟩
    rw [hd] at hs
    cases hs

/-- A page is changed by one transaction only. -/
theorem draft_unique {tx' : TxId} {page' : Page} (h : c.draft tx id = some page) (h' : c.draft tx' id = some page') :
    tx = tx' := by
  unfold draft at h h'
  cases hf : c.find? id with
  | none => rw [hf] at h; cases h
  | some f =>
    rw [hf] at h h'
    simp only [Option.bind_some] at h h'
    split at h
    · next ho =>
      split at h'
      · next ho' => exact Option.some.inj (ho.symm.trans ho')
      · cases h'
    · cases h

theorem draft_touch (h : c.pages.Nodup) : (c.touch id').draft tx id = c.draft tx id := by
  unfold draft
  rw [find?_touch h]

/-- The changes of a page go with its copy. -/
theorem draft_remove_eq (h : c.pages.Nodup) :
    (c.remove id').draft tx id = if id = id' then none else c.draft tx id := by
  unfold draft
  rw [find?_remove h]
  split <;> rfl

/-- A clean copy that goes was no change. -/
theorem draft_remove (h : c.pages.Nodup) (hf : f ∈ c.frames) (hd : f.page.dirty = none) :
    (c.remove f.page.id).draft tx id = c.draft tx id := by
  rw [draft_remove_eq h]
  split
  · next he =>
    rw [he, draft_of_find? (find?_of_mem h hf), if_neg (by rw [hd]; simp)]
  · rfl

/-- The changed copies and who has changed them. -/
theorem mem_dirtyPages (h : c.pages.Nodup) : (id, tx) ∈ c.dirtyPages ↔ (c.draft tx id).isSome := by
  unfold dirtyPages
  rw [List.mem_filterMap, Option.isSome_iff_exists]
  constructor
  · rintro ⟨f, hf, hd⟩
    obtain ⟨tx', ho, he⟩ := Option.map_eq_some_iff.1 hd
    cases he
    exact ⟨f.page, (draft_eq_some_iff h).2 ⟨f, hf, rfl, rfl, ho⟩⟩
  · rintro ⟨page, hd⟩
    obtain ⟨f, hf, rfl, rfl, ho⟩ := (draft_eq_some_iff h).1 hd
    exact ⟨f, hf, by rw [ho]; rfl⟩

/-- No page is changed by two transactions. -/
theorem nodup_dirtyPages (h : c.pages.Nodup) : (c.dirtyPages.map Prod.fst).Nodup := by
  refine h.sublist ?_
  unfold dirtyPages pages
  induction c.frames with
  | nil => exact .slnil
  | cons f fs ih =>
    rw [List.filterMap_cons, List.map_cons]
    cases f.page.dirty with
    | none => exact ih.cons _
    | some tx => exact ih.cons_cons _

/-- A clean copy that comes is no change. -/
theorem draft_add (hp : page.id ∉ c.pages) (hd : page.dirty = none) :
    (c.add page).2.draft tx id = c.draft tx id := by
  unfold draft
  rw [find?_add]
  split
  · next he =>
    subst he
    rw [find?_eq_none_iff.2 hp]
    have : (c.add page).1.page.dirty = none := hd
    simp [this]
  · rfl

theorem draft_update (hp : page.id = id) (hf : c.find? id = some f) :
    (c.update id page).draft tx id' =
      if id' = id then (if page.dirty = some tx then some page else none) else c.draft tx id' := by
  unfold draft
  rw [find?_update hp]
  by_cases hi : id' = id
  · rw [if_pos hi, if_pos hi, hf]
    rfl
  · rw [if_neg hi, if_neg hi]

/-- The page with changes, whoever has made them. -/
def unsaved (c : Cache) (id : PageId) : Option Page :=
  (c.find? id).bind fun f => if f.isClean then none else some f.page

theorem unsaved_of_find? (h : c.find? id = some f) : c.unsaved id = if f.isClean then none else some f.page := by
  unfold unsaved
  rw [h]
  rfl

theorem unsaved_of_draft (h : c.draft tx id = some page) : c.unsaved id = some page := by
  unfold draft at h
  unfold unsaved
  cases hf : c.find? id with
  | none =>
    rw [hf] at h
    cases h
  | some f =>
    rw [hf, Option.bind_some] at h
    split at h
    · next hd =>
      rw [Option.bind_some, if_neg, h]
      rw [Frame.isClean_iff, hd]
      nofun
    · cases h

/-- A page with changes is changed by some transaction. -/
theorem exists_draft_of_unsaved (h : c.unsaved id = some page) : ∃ tx, c.draft tx id = some page := by
  unfold unsaved at h
  unfold draft
  cases hf : c.find? id with
  | none =>
    rw [hf] at h
    cases h
  | some f =>
    rw [hf, Option.bind_some] at h
    split at h
    · cases h
    · next hc =>
      obtain ⟨tx, hd⟩ := Option.ne_none_iff_exists'.1 (mt Frame.isClean_iff.2 hc)
      exact ⟨tx, by rw [Option.bind_some, if_pos hd, h]⟩

theorem unsaved_eq_none_iff : c.unsaved id = none ↔ ∀ tx, c.draft tx id = none := by
  constructor
  · intro h tx
    cases hd : c.draft tx id with
    | none => rfl
    | some page =>
      rw [unsaved_of_draft hd] at h
      cases h
  · intro h
    cases hu : c.unsaved id with
    | none => rfl
    | some page =>
      obtain ⟨tx, hd⟩ := exists_draft_of_unsaved hu
      rw [h] at hd
      cases hd

/-- Where everybody has the same changes a page has the same changes. -/
theorem unsaved_congr (h : ∀ tx, c'.draft tx id = c.draft tx id) : c'.unsaved id = c.unsaved id := by
  cases hu : c.unsaved id with
  | none =>
    rw [unsaved_eq_none_iff] at hu ⊢
    exact fun tx => (h tx).trans (hu tx)
  | some page =>
    obtain ⟨tx, hd⟩ := exists_draft_of_unsaved hu
    exact unsaved_of_draft ((h tx).trans hd)

theorem mem_owned (h : c.pages.Nodup) : id ∈ c.owned tx ↔ (c.draft tx id).isSome := by
  unfold owned
  rw [List.mem_map, Option.isSome_iff_exists]
  constructor
  · rintro ⟨f, hf, rfl⟩
    obtain ⟨hm, ho⟩ := List.mem_filter.1 hf
    exact ⟨f.page, (draft_eq_some_iff h).2 ⟨f, hm, rfl, rfl, Frame.ownedBy_iff.1 ho⟩⟩
  · rintro ⟨page, hd⟩
    obtain ⟨f, hf, rfl, rfl, ho⟩ := (draft_eq_some_iff h).1 hd
    exact ⟨f, List.mem_filter.2 ⟨hf, Frame.ownedBy_iff.2 ho⟩, rfl⟩

theorem mem_pages_of_owned (h : id ∈ c.owned tx) : id ∈ c.pages := by
  obtain ⟨f, hf, rfl⟩ := List.mem_map.1 h
  exact mem_pages_of_mem (List.mem_of_mem_filter hf)

theorem nodup_owned (h : c.pages.Nodup) : (c.owned tx).Nodup := h.sublist (List.filter_sublist.map _)

end Cache

end HeapStore
