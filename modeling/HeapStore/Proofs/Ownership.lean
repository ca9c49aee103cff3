import HeapStore.Proofs.Isolation
import HeapStore.Proofs.Requests

/-!
# Changed pages have one owner

Three things know of a changed page: its copy says who has changed it, the lock table who holds it, and whoever asks
whose changes have been answered. They say the same as long as locks go at the end of a transaction only, and pages
are marked by their changes only.

* `Request.Orderly`: requests of this kind.
* `Request.changes?`: who has changed which page by a request, going by the reply. `Engine.authors`: who has changed a
  page since it had no changes, going by all replies.
* `Engine.Shifts`: what a request makes of the owners of pages. **A page that is changed has no other owner before**,
  and a page gets an owner in no other way.
* `Engine.served_owned`: **the owner of a changed page holds it exclusively and has made all of its changes.** Pages
  do not pass from one owner to another, and nobody owns a page after the end of its transaction.
-/

namespace HeapStore

/-- The request lets no lock go before the end of its transaction, and marks no page. -/
def Request.Orderly : Request → Prop
  | unlock _ _ => False
  | mark _ _ => False
  | _ => True

/-- Who has changed which page. -/
def Event.changes? : Event → Option (TxId × PageId)
  | changed tx place _ => some (tx, place.page)
  | _ => none

def Request.changes? : Request → Reply → Option (TxId × PageId)
  | call c, .answer a => (c.event a).changes?
  | _, _ => none

/-- The transaction that has ended. -/
def Call.ends? (c : Call) (a : Answer) : Option TxId := if c.ends || a.aborts then c.tx? else none

def Request.ends? : Request → Reply → Option TxId
  | call c, .answer a => c.ends? a
  | _, _ => none

namespace Engine

variable {e e' : Engine} {tx tx' : TxId} {id : PageId} {c : Call} {a : Answer} {r : Request}

/-- Who has changed each page since it had no changes, after one more request. -/
def authorsAfter (e : Engine) (r : Request) (old : PageId → List TxId) (id : PageId) : List TxId :=
  let (reply, e') := e.serve r
  if e'.cache.unsaved id = none then []
  else match r.changes? reply with
    | some (tx, page) => if page = id then tx :: old id else old id
    | none => old id

/-- Who has changed each page since it had no changes, after some requests. -/
def authors (e : Engine) : List Request → (PageId → List TxId) → PageId → List TxId
  | [], old => old
  | r :: requests, old => (e.serve r).2.authors requests (e.authorsAfter r old)

/-- What a request makes of the owners of pages, if it has changed the given page or none. -/
structure Shifts (who : Option (TxId × PageId)) (e e' : Engine) : Prop where
  fresh : ∀ {tx : TxId} {id : PageId}, (e'.cache.draft tx id).isSome →
    (e.cache.draft tx id).isSome ∨ who = some (tx, id)
  changed : ∀ {tx : TxId} {id : PageId}, who = some (tx, id) →
    (e'.cache.draft tx id).isSome ∧ ∀ tx', (e.cache.draft tx' id).isSome → tx' = tx

/-! ## One request -/

theorem draft_unique {tx tx' : TxId} (h : (e.cache.draft tx id).isSome) (h' : (e.cache.draft tx' id).isSome) :
    tx = tx' := by
  obtain ⟨p, hp⟩ := Option.isSome_iff_exists.1 h
  obtain ⟨p', hp'⟩ := Option.isSome_iff_exists.1 h'
  exact Cache.draft_unique hp hp'

/-- Owners that go make no difference to those who stay. -/
theorem Shifts.of_subset (h : ∀ tx id, (e'.cache.draft tx id).isSome → (e.cache.draft tx id).isSome) :
    Shifts none e e' :=
  ⟨fun hd => .inl (h _ _ hd), nofun⟩

theorem Quiet.shifts (h : Quiet tx e e') : Shifts none e e' := by
  refine .of_subset fun tx' id hd => ?_
  have hdraft : e'.cache.draft tx' = e.cache.draft tx' := congrArg View.draft (h.view_eq tx')
  rw [hdraft] at hd
  exact hd

/-- At the end of a transaction nothing is left of its own changes. -/
theorem Spares.shifts (h : Spares tx e e') (hended : Ended tx e') : Shifts none e e' := by
  refine .of_subset fun tx' id hd => ?_
  by_cases ht : tx' = tx
  · rw [ht, hended.draft] at hd
    cases hd
  · rw [h.drafts tx' ht] at hd
    exact hd

/-- **A page that is changed has no other owner**, since changes of others would still be there. -/
theorem Puts.shifts {q : Page} (h : Puts tx q e e') : Shifts (some (tx, q.id)) e e' where
  fresh {tx' id} hd := by
    by_cases ht : tx' = tx
    · subst ht
      by_cases hi : id = q.id
      · exact .inr (by rw [hi])
      · rw [h.draft, if_neg hi] at hd
        exact .inl hd
    · rw [h.drafts tx' ht] at hd
      exact .inl hd
  changed {tx' id} hw := by
    cases hw
    have hown : (e'.cache.draft tx q.id).isSome := by
      rw [h.draft, if_pos rfl]
      rfl
    refine ⟨hown, fun tx'' hd => ?_⟩
    by_contra ht
    rw [← h.drafts tx'' ht] at hd
    exact ht (draft_unique hd hown)

/-- **What a call makes of the owners of pages**, going by its answer. -/
theorem Effect.shifts (h : Effect e c a e') : Shifts (c.event a).changes? e e' := by
  -- a call that fails changes no page
  have hfails : ∀ {tx : TxId}, c.tx? = some tx → a.fails = true → (c.event a).changes? = none := by
    intro tx hc hf
    rw [Call.event_of_fails hf hc]
    split <;> rfl
  cases h with
  | began hq => exact (hq ⟨0⟩).shifts
  | @evicted result _ hq => cases result <;> exact (hq ⟨0⟩).shifts
  | fetched h => exact h.toQuiet.shifts
  | @inserted tx table r place q _ h =>
    obtain ⟨-, -, p, -, hq⟩ := h.inserts
    obtain ⟨hid, -, -, hch⟩ := Page.insert_ok hq
    have hs := h.toPuts.shifts
    have hpage : (q.mark (some tx)).id = place.page := hch.id.trans hid.symm
    rw [hpage] at hs
    exact hs
  | @deleted tx r place q _ h =>
    obtain ⟨hr, p, -, hq⟩ := h.deletes
    obtain ⟨slot, hslot, -, hch⟩ := Page.delete_ok hq
    rw [hr] at hslot
    cases hslot
    have hs := h.toPuts.shifts
    have hpage : (q.mark (some tx)).id = p.id := hch.id
    rw [hpage] at hs
    rw [Call.event_deleted tx hr]
    exact hs
  | @scanned tx table _ hq hp =>
    rw [Call.event_scanned]
    exact hq.shifts
  | @stepped s item _ hq hr => cases item <;> exact hq.shifts
  | kept h => exact h.toSpares.shifts h.toEnded
  | dropped h => exact h.toSpares.shifts h.toEnded
  | timedOut hc _ _ hf h =>
    rw [hfails hc hf]
    exact h.toSpares.shifts h.toEnded
  | failed hc _ _ hf hq =>
    rw [hfails hc hf]
    exact hq.shifts

/-- **After the end of a transaction it owns no page.** -/
theorem Effect.draft_of_ends (h : Effect e c a e') (ht : c.ends? a = some tx) (id : PageId) :
    e'.cache.draft tx id = none := by
  unfold Call.ends? at ht
  split at ht
  · next hends =>
    cases h with
    | kept h =>
      cases ht
      exact h.draft id
    | dropped h =>
      cases ht
      exact h.draft id
    | timedOut hc _ _ _ h =>
      rw [hc] at ht
      cases ht
      exact h.draft id
    | failed _ hn ha _ _ =>
      rw [hn, ha] at hends
      cases hends
    | @scanned tx table _ _ _ =>
      -- a scan that gives only records has ended nothing
      have habort : ∀ rs : List Record, Answer.aborts (.scanned (e.pages table) (.ok (rs.map .ok))) = false := by
        intro rs
        show (rs.map Except.ok).any Answer.isAbort = false
        rw [List.any_map, List.any_eq_false]
        exact fun r _ => Bool.false_ne_true
      rw [habort] at hends
      cases hends
    | @stepped s item _ _ _ => cases item <;> cases hends
    | _ => cases hends
  · cases ht

theorem Settles.sound {ids : List PageId} {bytes : PageId → Bytes} (hs : Settles ids bytes e e') (h : e.Sound) :
    e'.Sound where
  toCoherent := hs.coherent
  locks := by
    rw [hs.locks]
    exact h.locks
  locked {tx id} hd := by
    rw [hs.draft] at hd
    rw [hs.locks]
    split at hd
    · cases hd
    · exact h.locked hd

theorem Settles.shifts {ids : List PageId} {bytes : PageId → Bytes} (hs : Settles ids bytes e e') :
    Shifts none e e' := by
  refine .of_subset fun tx id hd => ?_
  rw [hs.draft] at hd
  split at hd
  · cases hd
  · exact hd

/-- **What a request makes of the owners of pages**, who go on holding them exclusively. -/
theorem Sound.serve (h : e.Sound) (hr : r.Orderly) (hs : (e.serve r).2.Small) :
    (e.serve r).2.Sound ∧ Shifts (r.changes? (e.serve r).1) e (e.serve r).2 := by
  have hflush : ∀ ids, (flushEach ids e).2.Sound ∧ Shifts none e (flushEach ids e).2 := by
    intro ids
    obtain ⟨e', hrun, hset⟩ := flushEach_ok ids h.toCoherent
    rw [hrun]
    exact ⟨hset.sound h, hset.shifts⟩
  cases r with
  | call c =>
    have heff := call_effect h c hs
    exact ⟨heff.sound, heff.shifts⟩
  | checkpoint => exact hflush e.cache.pages
  | flushPage id =>
    obtain ⟨e', hrun, hset⟩ := flushPage_total h.toCoherent id
    show (e.flushPage id).2.Sound ∧ Shifts none e (e.flushPage id).2
    rw [hrun]
    exact ⟨hset.sound h, hset.shifts⟩
  | flushPages tx => exact hflush (e.cache.owned tx)
  | flushAll => exact hflush e.cache.pages
  | discardPages tx =>
    obtain ⟨e', hrun, hset, -⟩ := discardEach_ok (e.cache.owned tx) h.toCoherent fun _ => Cache.mem_pages_of_owned
    show (e.discardPages tx).2.Sound ∧ Shifts none e (e.discardPages tx).2
    unfold discardPages
    rw [hrun]
    exact ⟨hset.sound h, hset.shifts⟩
  | remove id =>
    have hsub : ∀ tx id', ((e.cache.remove id).draft tx id').isSome → (e.cache.draft tx id').isSome := by
      intro tx id' hd
      rw [Cache.draft_remove_eq h.nodup] at hd
      split at hd
      · cases hd
      · exact hd
    exact ⟨⟨h.toCoherent.remove id, h.locks, fun hd => h.locked (hsub _ _ hd)⟩, .of_subset hsub⟩
  | unlock tx id => exact hr.elim
  | mark id tx => exact hr.elim

/-- Whoever has changed a page owns it, and the other way round. -/
theorem Shifts.authors {old : PageId → List TxId} (h : Shifts (r.changes? (e.serve r).1) e (e.serve r).2)
    (hold : ∀ tx id, tx ∈ old id ↔ (e.cache.draft tx id).isSome) (tx : TxId) (id : PageId) :
    tx ∈ e.authorsAfter r old id ↔ ((e.serve r).2.cache.draft tx id).isSome := by
  unfold authorsAfter
  simp only
  cases hu : (e.serve r).2.cache.unsaved id with
  | none =>
    rw [if_pos rfl, Cache.unsaved_eq_none_iff.1 hu tx]
    simp
  | some p =>
    rw [if_neg nofun]
    obtain ⟨owner, hp⟩ := Cache.exists_draft_of_unsaved hu
    have hown : ((e.serve r).2.cache.draft owner id).isSome := by
      rw [hp]
      rfl
    -- the page has one owner now, so it is enough that this one is its only author
    have hone : ((e.serve r).2.cache.draft tx id).isSome ↔ tx = owner :=
      ⟨fun hd => draft_unique hd hown, fun ht => by rw [ht]; exact hown⟩
    -- if its owner has not changed it just now he has owned it before, and so nobody else has
    have hbefore : (e.cache.draft owner id).isSome → (tx ∈ old id ↔ tx = owner) := by
      intro hd
      rw [hold]
      exact ⟨fun hd' => draft_unique hd' hd, fun ht => by rw [ht]; exact hd⟩
    rw [hone]
    cases hw : r.changes? (e.serve r).1 with
    | none => exact hbefore ((h.fresh hown).resolve_right (by rw [hw]; nofun))
    | some x =>
      obtain ⟨author, page⟩ := x
      dsimp only
      by_cases hi : page = id
      · subst hi
        obtain ⟨hd, hall⟩ := h.changed hw
        have howner : owner = author := draft_unique hown hd
        rw [if_pos rfl, List.mem_cons, hold, howner]
        exact ⟨fun ho => ho.elim (fun he => he) (hall tx), .inl⟩
      · rw [if_neg hi]
        refine hbefore ((h.fresh hown).resolve_right ?_)
        rw [hw]
        rintro ⟨⟩
        exact hi rfl

/-! ## Runs -/

/-- The owners of changed pages hold them exclusively and have made all of their changes. -/
theorem Sound.serveAll (requests : List Request) : ∀ {e : Engine} {old : PageId → List TxId}, e.Sound →
    (∀ r ∈ requests, r.Orderly) → (e.serveAll requests).Small →
    (∀ tx id, tx ∈ old id ↔ (e.cache.draft tx id).isSome) → (e.serveAll requests).Sound ∧
      ∀ tx id, tx ∈ e.authors requests old id ↔ ((e.serveAll requests).cache.draft tx id).isSome := by
  induction requests with
  | nil => exact fun h _ _ hold => ⟨h, hold⟩
  | cons r requests ih =>
    intro e old h hr hs hold
    have hsmall : (e.serve r).2.Small := small_of_served h.present [r] requests hs
    obtain ⟨h1, hsh⟩ := h.serve (hr r List.mem_cons_self) hsmall
    exact ih h1 (fun r' hm => hr r' (List.mem_cons_of_mem _ hm)) hs (hsh.authors hold)

/-- **A changed page has one owner, who holds it exclusively and has made all of its changes.** An engine was opened
over its files and any orderly requests are made by anybody, as long as page numbers have room. No page has two
owners, and those who have changed a page since it had no changes are its owner and nobody else. One more request does
not pass a page from one owner to another, and if it ends a transaction this one owns no page any more. -/
theorem served_owned (h : e.Ready) (requests : List Request) (hr : ∀ r ∈ requests, r.Orderly)
    (hs : (e.serveAll requests).Small) :
    let e' := e.serveAll requests
    (∀ id tx, (id, tx) ∈ e'.cache.dirtyPages → e'.locks.mode? tx id = some .exclusive) ∧
      (e'.cache.dirtyPages.map Prod.fst).Nodup ∧
      (∀ id tx, tx ∈ e.authors requests (fun _ => []) id ↔ (id, tx) ∈ e'.cache.dirtyPages) ∧
      ∀ r, r.Orderly → (e'.serve r).2.Small →
        (∀ id tx tx', (id, tx) ∈ e'.cache.dirtyPages → (id, tx') ∈ (e'.serve r).2.cache.dirtyPages → tx' = tx) ∧
        ∀ tx, r.ends? (e'.serve r).1 = some tx → ∀ id, (id, tx) ∉ (e'.serve r).2.cache.dirtyPages := by
  intro e'
  have hnone : ∀ tx id, tx ∈ (fun _ => [] : PageId → List TxId) id ↔ (e.cache.draft tx id).isSome := by
    intro tx id
    rw [h.draft]
    simp
  obtain ⟨hsound, hauthors⟩ : e'.Sound ∧ _ := h.sound.serveAll requests hr hs hnone
  refine ⟨fun id tx hm => hsound.locked ((Cache.mem_dirtyPages hsound.nodup).1 hm),
    Cache.nodup_dirtyPages hsound.nodup, fun id tx => ?_, fun r hr' hs' => ?_⟩
  · rw [Cache.mem_dirtyPages hsound.nodup]
    exact hauthors tx id
  · obtain ⟨hsound', hsh⟩ := hsound.serve hr' hs'
    simp only [Cache.mem_dirtyPages hsound.nodup, Cache.mem_dirtyPages hsound'.nodup]
    constructor
    · intro id tx tx' hd hd'
      rcases hsh.fresh hd' with hd' | hw
      · exact draft_unique hd' hd
      · exact ((hsh.changed hw).2 tx hd).symm
    · intro tx hends id
      cases r with
      | call c =>
        have hnone : ((e'.call c).2.cache.draft tx id) = none := (call_effect hsound c hs').draft_of_ends hends id
        show ¬ ((e'.call c).2.cache.draft tx id).isSome
        rw [hnone]
        nofun
      | _ => cases hends

end Engine

namespace Sample

/-- A page changes hands by way of a written state: its second owner goes on from the changes of the first. -/
def handing : List Request :=
  [.call (.insert ⟨1⟩ table (record 5)), .call (.insert ⟨2⟩ table (record 6)), .checkpoint, .call (.commit ⟨1⟩),
    .call (.insert ⟨2⟩ table (record 6)), .call (.insert ⟨2⟩ table (record 7)), .flushPage ⟨table, 0⟩, .call .evict]

theorem orderly_handing : ∀ r ∈ handing, r.Orderly := by
  simp [handing, Request.Orderly]

theorem served_owned_handing : engine.Ready ∧ (∀ r ∈ handing, r.Orderly) ∧ (engine.serveAll handing).Small ∧
    (engine.serveAll handing).cache.dirtyPages = [(⟨table, 1⟩, ⟨2⟩)] ∧
    let e' := engine.serveAll handing
    (∀ id tx, (id, tx) ∈ e'.cache.dirtyPages → e'.locks.mode? tx id = some .exclusive) ∧
      (e'.cache.dirtyPages.map Prod.fst).Nodup ∧
      (∀ id tx, tx ∈ engine.authors handing (fun _ => []) id ↔ (id, tx) ∈ e'.cache.dirtyPages) ∧
      ∀ r, r.Orderly → (e'.serve r).2.Small →
        (∀ id tx tx', (id, tx) ∈ e'.cache.dirtyPages → (id, tx') ∈ (e'.serve r).2.cache.dirtyPages → tx' = tx) ∧
        ∀ tx, r.ends? (e'.serve r).1 = some tx → ∀ id, (id, tx) ∉ (e'.serve r).2.cache.dirtyPages :=
  have hs : (engine.serveAll handing).Small := small_served (by decide +kernel)
  ⟨ready, orderly_handing, hs, by decide +kernel, Engine.served_owned ready handing orderly_handing hs⟩

end Sample

end HeapStore
