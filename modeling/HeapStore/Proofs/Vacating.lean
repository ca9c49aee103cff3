import HeapStore.Proofs.Acting
import HeapStore.Proofs.Deletion
import HeapStore.Proofs.Ownership

/-!
# Deleting a record twice

A transaction that has deleted a record holds its page exclusively until it ends. Until then nobody puts a record into the
slot, and nobody reads the page from the disk again as it was: the changes on it, if there are any that are not written,
are those of the transaction. So the record cannot be deleted again.

* `Request.Leaves`: what can be asked meanwhile. A transaction can also forget its copy of the page, drop its changes or
  let go of the page early; then the record can be there again.
* `Engine.Vacated`: the slot is free, and stays so. `Vacated.serve`: **one request**, `Vacated.retable`: tables that come
  and go.
* `Engine.Between`: what can become of the engine in between. `Between.vacated`: the slot is still free.
* `Engine.delete_frees_one`: **a record is deleted if it is there, then nothing else changes, and it is deleted once.**
* `Sample.deleted_again`: how a record that was deleted comes back without the end of its transaction.
-/

namespace HeapStore

/-- The request inserts nothing for a transaction, and neither drops its changes on a page nor lets go of the page for
it. -/
def Request.Leaves (tx : TxId) (id : PageId) : Request → Prop
  | .call (.insert tx' _ _) => tx' ≠ tx
  | .discardPages tx' => tx' ≠ tx
  | .remove id' => id' ≠ id
  | .unlock tx' id' => tx' = tx → id' ≠ id
  | .mark id' tx' => id' = id → tx' = tx
  | _ => True

namespace Engine

variable {e e' e0 : Engine} {tx tx' : TxId} {id : PageId} {place : RecordId} {r : Record} {f : Frame} {p : Page}
  {file : TableFile} {table : TableId}

/-- The slot is free, on a page that a transaction holds exclusively, and whose copy holds no changes but its own. If the
table of the page has gone, it is not to come back. -/
structure Vacated (tx : TxId) (place : RecordId) (e : Engine) : Prop where
  kempt : e.Kempt
  held : e.locks.mode? tx place.page = some .exclusive
  known : place.page.table.number ≤ e.catalog.lastId
  vacant : ∀ {file : TableFile}, e.file place.page.table = .ok file →
    ∃ p, e.seen place.page = .ok p ∧ p.contents place.slot = none ∧ ∀ tx' ∈ p.dirty, tx' = tx

namespace Vacated

/-- It is enough that the page is seen as before. -/
theorem of_seen (h : Vacated tx place e) (hk : e'.Kempt) (hx : e'.locks.mode? tx place.page = some .exclusive)
    (hc : e'.catalog = e.catalog)
    (hseen : ∀ {file : TableFile}, e.file place.page.table = .ok file → e'.seen place.page = e.seen place.page) :
    Vacated tx place e' where
  kempt := hk
  held := hx
  known := by
    rw [hc]
    exact h.known
  vacant hf := by
    rw [file_congr hc] at hf
    rw [hseen hf]
    exact h.vacant hf

theorem undisturbed (h : Vacated tx place e) (hu : Undisturbed tx e e') : Vacated tx place e' :=
  h.of_seen hu.kempt (hu.exclusive h.held) hu.catalog fun hf => by
    obtain ⟨p, hp, -⟩ := h.vacant hf
    exact hu.seen h.kempt (h.kempt.of_seen hp hf).2.2.2

/-- Copies are changed. On the page itself this leaves the slot free, and is done by the transaction. -/
theorem revise (h : Vacated tx place e) (hf : e.cache.find? p.id = some f) (hr : p.Revises f.page)
    (hsafe : p.id = place.page →
      (f.page.contents place.slot = none → p.contents place.slot = none) ∧ ∀ tx' ∈ p.dirty, tx' = tx) :
    Vacated tx place { e with cache := e.cache.update p.id p } where
  kempt := h.kempt.revise hf hr
  held := h.held
  known := h.known
  vacant hfile := by
    obtain ⟨p', hp', hnone, hown⟩ := h.vacant hfile
    rw [seen_update hf]
    split
    · next hid =>
      rw [hid, seen_of_find? hf] at hp'
      cases hp'
      obtain ⟨hfree, hown⟩ := hsafe hid.symm
      exact ⟨p, rfl, hfree hnone, hown⟩
    · exact ⟨p', hp', hnone, hown⟩

theorem append {number : Nat} {disk : Disk} (h : Vacated tx place e) (hf : e.file table = .ok file)
    (ha : file.append e.disk = .ok (number, disk)) (hs : { e with disk }.Small) :
    Vacated tx place { e with disk } := by
  have ho : e.Outgrows { e with disk } := (stable_grows e).append (Outgrows.refl e) hf ha
  obtain ⟨disk', ha', -, hu⟩ := h.kempt.append_ok hf (ho.small h.kempt.present hs) tx
  rw [ha] at ha'
  cases ha'
  exact h.undisturbed (hu hs).1

/-! ## Writing and dropping -/

/-- A page that is written keeps its records. -/
theorem flushPage (h : Vacated tx place e) (id : PageId) : Vacated tx place (e.flushPage id).2 := by
  unfold Engine.flushPage
  split
  · exact h
  · next f hf =>
    obtain ⟨-, rfl⟩ := Cache.mem_of_find? hf
    split
    · exact h
    · next hc =>
      rw [Bool.not_eq_true] at hc
      split
      · exact h
      · next file hfile =>
        split
        · exact h
        · next disk hw =>
          refine ⟨h.kempt.flush hf hc hfile hw, h.held, h.known, fun {file'} hfile' => ?_⟩
          obtain ⟨p, hp, hnone, hown⟩ := h.vacant hfile'
          by_cases hid : place.page = f.page.id
          · -- the copy is that of the page itself, and has no changes any more
            rw [hid, seen_of_find? hf] at hp
            cases hp
            have hfind : (e.cache.update f.page.id (f.page.mark none).settle).find? place.page =
                if place.page = f.page.id then _ else _ := Cache.find?_update rfl
            rw [if_pos hid, hf] at hfind
            exact ⟨_, seen_of_find? hfind, hnone, nofun⟩
          · exact ⟨p, h.kempt.seen_of_flush hf hc hfile hw hp hid, hnone, hown⟩

theorem flushEach (ids : List PageId) : ∀ {e : Engine}, Vacated tx place e → Vacated tx place (Engine.flushEach ids e).2 := by
  induction ids with
  | nil => exact fun h => h
  | cons id ids ih =>
    intro e h
    have hf := h.flushPage id
    unfold Engine.flushEach
    split
    · next hr =>
      rw [hr] at hf
      exact hf
    · next hr =>
      rw [hr] at hf
      exact ih hf

/-- **The changes of another transaction are not on the page.** -/
theorem discardPages (h : Vacated tx place e) (hne : tx' ≠ tx) : Vacated tx place (e.discardPages tx').2 := by
  have hlocks : ∀ (ids : List PageId) (e : Engine), (discardEach ids e).2.locks = e.locks := by
    intro ids
    induction ids with
    | nil => exact fun _ => rfl
    | cons id ids ih =>
      intro e
      unfold discardEach
      split
      · rfl
      · exact ih _
  obtain ⟨done, rest, hsplit, -, hseen⟩ := discardEach_seen (e.cache.owned tx') e
  refine h.of_seen (steady_kempt.discardEach _ h.kempt) ?_ ((steady_catalog e.catalog).discardEach _ rfl) fun hf => ?_
  · show (discardEach (e.cache.owned tx') e).2.locks.mode? tx place.page = _
    rw [hlocks]
    exact h.held
  · refine (hseen place.page).trans (if_neg fun hm => ?_)
    have howned : place.page ∈ e.cache.owned tx' := by
      rw [hsplit]
      exact List.mem_append_left _ hm
    obtain ⟨q, hq⟩ := Option.isSome_iff_exists.1 ((Cache.mem_owned h.kempt.nodup).1 howned)
    obtain ⟨hq, hd⟩ := seen_of_draft hq
    obtain ⟨p, hp, -, hown⟩ := h.vacant hf
    rw [hp] at hq
    cases hq
    exact hne (hown tx' hd)

theorem unlockAll (h : Vacated tx place e) (hne : tx' ≠ tx) : Vacated tx place (e.unlockAll tx') := by
  refine h.of_seen (h.kempt.locks _ _) ?_ rfl fun _ => rfl
  exact (LockTable.mode?_releaseAll_of_ne hne.symm).trans h.held

theorem complete (h : Vacated tx place e) (hne : tx' ≠ tx) (keep : Bool) :
    Vacated tx place (e.complete tx' keep).2 := by
  cases keep with
  | true => exact (h.flushEach (e.cache.owned tx')).unlockAll hne
  | false => exact (h.discardPages hne).unlockAll hne

/-! ## Calls -/

/-- Whoever changes the page holds it exclusively. -/
theorem page_ne (h : Vacated tx place e) (hx : e.locks.mode? tx' id = some .exclusive) (hne : tx' ≠ tx) :
    id ≠ place.page := by
  rintro rfl
  rw [LockTable.exclusive_alone h.held hne] at hx
  cases hx

/-- **The transaction itself** reads pages and frees slots. -/
theorem freeing (tx : TxId) (place : RecordId) : Freeing tx (Vacated tx place) fun _ => True where
  grant h hg := h.undisturbed (h.kempt.grant hg)
  load id h := h.undisturbed (h.kempt.load tx id)
  abort _ := trivial
  take {e f q slot} h hf _ hq := by
    have hfind : e.cache.find? (q.mark (some tx)).id = some f := (congrArg e.cache.find? hq.id).trans hf
    refine h.revise hfind (hq.revises tx) fun _ => ⟨fun hnone => ?_, fun tx' ht => (Option.some.inj ht).symm⟩
    refine (hq.contents place.slot).trans ?_
    rw [hnone, ite_self]

/-- Copies of other pages are changed. -/
theorem change {q : Page} {slot : Nat} {fields : Option (List Field)} (h : Vacated tx place e)
    (hf : e.cache.find? f.page.id = some f) (hx : e.locks.mode? tx' f.page.id = some .exclusive)
    (hq : f.page.Changes q slot fields) (hne : tx' ≠ tx) :
    Vacated tx place { e with cache := e.cache.update q.id (q.mark (some tx')) } := by
  have hfind : e.cache.find? (q.mark (some tx')).id = some f := (congrArg e.cache.find? hq.id).trans hf
  refine h.revise hfind (hq.revises tx') fun hid => ?_
  exact absurd (hq.id.symm.trans hid) (h.page_ne hx hne)

/-- What keeps this as long as page numbers have room, and no file. -/
theorem small_step {e1 : Engine} (h : e.Outgrows e1 ∧ (e1.Small → Vacated tx place e1)) (hc : e'.catalog = e1.catalog)
    (hd : e'.disk = e1.disk) (hstep : Vacated tx place e1 → Vacated tx place e') :
    e.Outgrows e' ∧ (e'.Small → Vacated tx place e') :=
  ⟨⟨hc.trans h.1.1, by rw [hd]; exact h.1.2⟩, fun hs => hstep (h.2 (small_of_disk hc.symm hd.symm hs))⟩

/-- **Other transactions** do not get at the page, as long as page numbers have room. -/
theorem acting (h : e.Present) (hne : tx' ≠ tx) (place : RecordId) :
    Acting tx' (fun e' => e.Outgrows e' ∧ (e'.Small → Vacated tx place e'))
    fun e' => e.Outgrows e' ∧ (e'.Small → Vacated tx place e') where
  grant hp hg := small_step hp rfl rfl fun h =>
    h.of_seen (h.kempt.locks _ _) (LockTable.exclusive_of_grant? hg h.held) rfl fun _ => rfl
  load {e1} id hp := small_step hp ((steady_catalog e1.catalog).load rfl id) ((steady_disk e1.disk).load rfl id) fun h =>
    h.undisturbed (h.kempt.load tx id)
  abort {e1} hp := small_step hp ((steady_catalog e1.catalog).drop rfl tx') ((steady_disk e1.disk).drop rfl tx') fun h =>
    h.complete hne false
  take hp hf hx hq := small_step hp rfl rfl fun h => h.change hf hx hq hne
  put hp hf hx hq := small_step hp rfl rfl fun h => h.change hf hx hq hne
  append {e1 _ _ _ disk} hp hf ha := by
    refine ⟨(stable_grows e).append hp.1 hf ha, fun hs => ?_⟩
    have ho : e1.Outgrows { e1 with disk } := (stable_grows e1).append (Outgrows.refl e1) hf ha
    exact (hp.2 (ho.small (hp.1.present h) hs)).append hf ha hs

/-- A call of the transaction that neither inserts nor ends it, or any call of others. -/
theorem call (h : Vacated tx place e) (c : Call) (hi : ∀ table r, c ≠ .insert tx table r)
    (hends : c.ends? (e.call c).1 ≠ some tx) (hs : (e.call c).2.Small) : Vacated tx place (e.call c).2 := by
  cases htx : c.tx? with
  | none =>
    cases c with
    | begin => exact h.of_seen (h.kempt.locks _ _) h.held rfl fun _ => rfl
    | evict => exact h.undisturbed (h.kempt.evictOne tx)
    | _ => cases htx
  | some tx' =>
    unfold Call.ends? at hends
    by_cases hne : tx' = tx
    · -- if it had ended the transaction, the answer would say so
      subst hne
      rw [htx] at hends
      have hgoes : (c.ends || (e.call c).1.aborts) = false := by
        rw [Bool.eq_false_iff]
        exact fun hc => hends (if_pos hc)
      rw [Bool.or_eq_false_iff] at hgoes
      exact ((freeing tx' place).call h htx hgoes.1 hi).of_goes hgoes.2
    · cases hc : c.ends with
      | true =>
        cases c with
        | commit tx'' =>
          cases htx
          exact h.complete hne true
        | abort tx'' =>
          cases htx
          exact h.complete hne false
        | _ => cases hc
      | false =>
        have hcomes := (acting h.kempt.present hne place).call ⟨Outgrows.refl e, fun _ => h⟩ htx hc
        unfold CallComes at hcomes
        rw [ite_self] at hcomes
        exact hcomes.2 hs

/-! ## Requests -/

/-- **Whatever is asked, the slot stays free**, as long as the request leaves the page to its transaction. -/
theorem serve (h : Vacated tx place e) {q : Request} (hq : q.Leaves tx place.page)
    (hends : q.ends? (e.serve q).1 ≠ some tx) (hs : (e.serve q).2.Small) : Vacated tx place (e.serve q).2 := by
  cases q with
  | call c =>
    refine h.call c (fun table r hc => ?_) hends hs
    subst hc
    exact hq rfl
  | checkpoint => exact h.flushEach e.cache.pages
  | flushPage id => exact h.flushPage id
  | flushPages tx' => exact h.flushEach (e.cache.owned tx')
  | flushAll => exact h.flushEach e.cache.pages
  | discardPages tx' => exact h.discardPages hq
  | remove id =>
    refine h.of_seen (h.kempt.remove id) h.held rfl fun _ => ?_
    have hfind : (e.cache.remove id).find? place.page = if place.page = id then none else _ :=
      Cache.find?_remove h.kempt.nodup
    exact seen_congr (hfind.trans (if_neg (Ne.symm hq))) rfl
  | unlock tx' id =>
    refine h.of_seen (h.kempt.locks _ _) ?_ rfl fun _ => rfl
    refine (LockTable.mode?_release e.locks tx' tx id place.page).trans ?_
    rw [if_neg (fun he => hq he.1.symm he.2.symm)]
    exact h.held
  | mark id tx' =>
    show Vacated tx place (e.mark id (some tx')).2
    unfold Engine.mark
    split
    · exact h
    · next f hf =>
      obtain ⟨-, rfl⟩ := Cache.mem_of_find? hf
      have hm : e.cache.find? (f.page.mark (some tx')).id = some f := hf
      refine h.revise hm ⟨rfl, rfl, rfl, rfl, nofun⟩ fun hid => ⟨fun hnone => hnone, fun tx'' ht => ?_⟩
      cases ht
      exact hq hid

/-- **Tables come and go.** A table that has gone does not come back. -/
theorem retable {c : Catalog} {disk : Disk} (h : Vacated tx place e) (hr : e.Retabled c disk) :
    Vacated tx place { e with catalog := c, disk } where
  kempt := h.kempt.retable hr
  held := h.held
  known := h.known.trans hr.follows.last
  vacant {file} hf := by
    have hf : c.tableFile place.page.table = .ok file := hf
    have hold : e.file place.page.table = .ok file := by
      rcases hr.follows.tables hf with hold | ⟨hnew, -⟩
      · exact hold
      · exact absurd h.known (by omega)
    obtain ⟨p, hp, hrest⟩ := h.vacant hold
    have hsame : Engine.seen { e with catalog := c, disk } place.page = e.seen place.page :=
      seen_congr rfl (h.kempt.present.stored_of_extends hold hf hr.bytes)
    exact ⟨p, hsame.trans hp, hrest⟩

/-- **The record is not deleted again.** -/
theorem not_deleted (h : Vacated tx place e) (hp : r.place = some place) : ∃ fault, (e.delete tx r).1 = .error fault := by
  have hcomes := h.kempt.delete_deletion tx r
  generalize e.delete tx r = o at hcomes
  cases hcomes with
  | freed hp' hb _ =>
    rw [hp] at hp'
    cases hp'
    obtain ⟨file, hf⟩ := hb.table
    obtain ⟨p, hseen, hnone, -⟩ := h.vacant hf
    obtain ⟨r', hr', -⟩ := hb.same
    rw [recordAt_of_seen hseen, Page.record?_eq_none_iff.2 hnone] at hr'
    cases hr'
  | _ => exact ⟨_, rfl⟩

end Vacated

/-- A slot that has become free is a vacated one. -/
theorem Freed.vacated (h : Freed tx place e e') (hk : e.Kempt) (ht : ∃ file, e.file place.page.table = .ok file) :
    Vacated tx place e' where
  kempt := h.kempt
  held := h.locked
  known := by
    obtain ⟨file, hf⟩ := ht
    rw [h.catalog]
    exact hk.given hf
  vacant _ := by
    obtain ⟨f, hf, hd⟩ := h.marked
    have hseen := seen_of_find? hf
    refine ⟨f.page, hseen, Page.record?_eq_none_iff.1 ((recordAt_of_seen hseen).symm.trans h.vacant), fun tx' ht => ?_⟩
    rw [hd] at ht
    exact (Option.some.inj ht).symm

/-! ## What happens in between -/

/-- What can become of an engine while a transaction goes on that neither inserts anything nor gives up a page. Anything
else is asked of it, by the transaction or by others. Other pages are changed in any way that is marked on them, and slots
of the page itself become free in the name of the transaction. Copies are read, files get pages, and tables come and
go. -/
inductive Between (tx : TxId) (id : PageId) (e0 : Engine) : Engine → Prop where
  | refl : Between tx id e0 e0
  | serve {e : Engine} (h : Between tx id e0 e) {q : Request} (hq : q.Leaves tx id)
    (hends : q.ends? (e.serve q).1 ≠ some tx) (hs : (e.serve q).2.Small) : Between tx id e0 (e.serve q).2
  | revise {e : Engine} {f : Frame} {p : Page} {tx' : TxId} (h : Between tx id e0 e) (hf : e.cache.find? p.id = some f)
    (hr : p.Revises f.page) (hd : p.dirty = some tx')
    (hsafe : p.id = id → tx' = tx ∧ ∀ slot, f.page.contents slot = none → p.contents slot = none) :
    Between tx id e0 { e with cache := e.cache.update p.id p }
  | hold {e : Engine} (h : Between tx id e0 e) (gone : List Frame) (guarded : List Nat) :
    Between tx id e0 { e with cache := { e.cache with gone, guarded } }
  | append {e : Engine} {table : TableId} {file : TableFile} {number : Nat} {disk : Disk} (h : Between tx id e0 e)
    (hf : e.file table = .ok file) (ha : file.append e.disk = .ok (number, disk)) (hs : { e with disk }.Small) :
    Between tx id e0 { e with disk }
  | retable {e : Engine} {c : Catalog} {disk : Disk} (h : Between tx id e0 e) (hr : e.Retabled c disk) :
    Between tx id e0 { e with catalog := c, disk }

/-- **The slot stays free.** -/
theorem Between.vacated (h : Between tx place.page e0 e) (h0 : Vacated tx place e0) : Vacated tx place e := by
  induction h with
  | refl => exact h0
  | serve _ hq hends hs ih => exact ih.serve hq hends hs
  | revise _ hf hr hd hsafe ih =>
    refine ih.revise hf hr fun hid => ⟨(hsafe hid).2 place.slot, fun tx'' ht => ?_⟩
    rw [hd] at ht
    exact (Option.some.inj ht).symm.trans (hsafe hid).1
  | @hold e _ gone guarded ih => exact ih.of_seen (ih.kempt.cache ih.kempt.nodup fun _ hf => .inl hf) ih.held rfl fun _ => rfl
  | append _ hf ha hs ih => exact ih.append hf ha hs
  | retable _ hr ih => exact ih.retable hr

/-- A record is deleted if it is where it says, nothing else changes, and it is deleted once. -/
structure DeletesOne (tx : TxId) (r : Record) (e : Engine) : Prop where
  comes : Deletion tx r e (e.delete tx r)
  /-- It is deleted if it is there, as long as its page can be locked and fetched. -/
  deletes : (∀ place, r.place = some place → ∃ f e1, e.fetch tx place.page .exclusive = (.ok f, e1)) →
    ((e.delete tx r).1 = .ok () ↔ ∃ place, r.place = some place ∧ e.Bears place r)
  /-- Once deleted it is not deleted again. -/
  once : (e.delete tx r).1 = .ok () → ∀ {place : RecordId} {e' : Engine}, r.place = some place →
    Between tx place.page (e.delete tx r).2 e' → ∃ fault, (e'.delete tx r).1 = .error fault

/-- **A record is deleted from the place that it names if it is there, then nothing else changes, and it is deleted once.**
A record without a place, one of a table that is not there, and one of a page that is not in the file cannot be deleted,
and then nothing at all has happened. If the slot is free, or not on the page, or has another record, the page has been
fetched, and no page is seen otherwise. -/
theorem delete_frees_one (h : e.Live) (tx : TxId) (r : Record) : DeletesOne tx r e := by
  have hk := h.kempt
  have hcomes := hk.delete_deletion tx r
  refine ⟨hcomes, hk.delete_iff, fun hok place e' hp hb => ?_⟩
  generalize e.delete tx r = o at hcomes hok hb
  cases hcomes with
  | freed hp' hbears hfreed =>
    rw [hp] at hp'
    cases hp'
    exact (hb.vacated (hfreed.vacated hk hbears.table)).not_deleted hp
  | _ => cases hok

end Engine

namespace Sample

/-! ## Deleting twice -/

/-- A transaction stores two records, and another one begins. -/
def settling : List Request :=
  [.call .begin, .call (.insert ⟨1⟩ table (record 5)), .call (.insert ⟨1⟩ table (record 6)), .call (.commit ⟨1⟩),
    .call .begin]

def settled : Engine := engine.serveAll settling

/-- The first of these records, as it is deleted. -/
def deletable : Record := { record 5 with place := some ⟨⟨table, 0⟩, 0⟩ }

theorem live_settled : settled.Live := live.serveAll _ (small_served (by decide +kernel))

/-- The changes are written while the transaction goes on, a third one, which wants the page, is ended, and the page
leaves the cache. -/
def meanwhile : List Request := [.checkpoint, .call (.insert ⟨3⟩ table (record 5)), .call .evict]

theorem between_meanwhile : Engine.Between ⟨2⟩ ⟨table, 0⟩ (settled.delete ⟨2⟩ deletable).2
    ((settled.delete ⟨2⟩ deletable).2.serveAll meanwhile) := by
  have hs : ((settled.delete ⟨2⟩ deletable).2.serveAll meanwhile).Small :=
    @small_served (settling ++ .call (.delete ⟨2⟩ deletable) :: meanwhile) (by decide +kernel)
  have hpresent : (settled.delete ⟨2⟩ deletable).2.Present :=
    ((Engine.firm_grows settled).serve (Engine.Outgrows.refl settled)
      (.call (.delete ⟨2⟩ deletable))).present live_settled.kempt.present
  have hsmall : ∀ n, ((settled.delete ⟨2⟩ deletable).2.serveAll (meanwhile.take n)).Small := fun n =>
    Engine.small_of_served hpresent (meanwhile.take n) (meanwhile.drop n) (by rw [List.take_append_drop]; exact hs)
  exact ((Engine.Between.refl.serve (q := .checkpoint) trivial (by decide +kernel) (hsmall 1)).serve
    (q := .call (.insert ⟨3⟩ table (record 5))) (show TxId.mk 3 ≠ ⟨2⟩ by decide) (by decide +kernel) (hsmall 2)).serve
    (q := .call .evict) trivial (by decide +kernel) (hsmall 3)

theorem delete_frees_one_settled : settled.Live ∧ (settled.delete ⟨2⟩ deletable).1.toOption = some () ∧
    Engine.DeletesOne ⟨2⟩ deletable settled ∧
    ∃ fault, (((settled.delete ⟨2⟩ deletable).2.serveAll meanwhile).delete ⟨2⟩ deletable).1 = .error fault := by
  have h := Engine.delete_frees_one live_settled ⟨2⟩ deletable
  have hok : (settled.delete ⟨2⟩ deletable).1.toOption = some () := by decide +kernel
  refine ⟨live_settled, hok, h, h.once ?_ rfl between_meanwhile⟩
  cases hr : (settled.delete ⟨2⟩ deletable).1 with
  | ok _ => rfl
  | error fault =>
    rw [hr] at hok
    cases hok

/-- What brings a record back that was deleted: its page is forgotten, or the changes on it are dropped, or another
transaction is made the owner of the changes and drops them, or gets the page early. -/
def undoing : List (List Request) :=
  [[.remove ⟨table, 0⟩], [.discardPages ⟨2⟩], [.mark ⟨table, 0⟩ ⟨3⟩, .call (.abort ⟨3⟩)],
    [.unlock ⟨2⟩ ⟨table, 0⟩, .call (.delete ⟨3⟩ { record 6 with place := some ⟨⟨table, 0⟩, 1⟩ }), .call (.abort ⟨3⟩)]]

/-- An engine with two tables and one place in its cache. Each has a record, and the page of one was changed and then
marked as unchanged. -/
def overlooked : Engine :=
  let narrow : Engine := { empty {} with cache := { capacity := 1 } }
  let a : Engine := (narrow.createTable ⟨false, ["a"], .nothing⟩ "a" schema none).2
  let b : Engine := (a.createTable ⟨false, ["b"], .nothing⟩ "b" schema none).2
  ((b.serveAll [.call (.insert ⟨1⟩ ⟨2⟩ (record 6)), .call (.commit ⟨1⟩),
    .call (.insert ⟨2⟩ ⟨1⟩ (record 5))]).mark ⟨⟨1⟩, 0⟩ none).2

/-- **A record can be deleted twice** if what was done to its page is undone in between, though the transaction goes on.
And a deletion can lose a record of another table whose page was marked as unchanged. -/
theorem deleted_again : settled.Live ∧ (settled.delete ⟨2⟩ deletable).1.toOption = some () ∧
    (∀ requests ∈ undoing,
      (((settled.delete ⟨2⟩ deletable).2.serveAll requests).delete ⟨2⟩ deletable).1.toOption = some ()) ∧
    ((((settled.delete ⟨2⟩ deletable).2.mark ⟨table, 0⟩ none).2.evict.2).delete ⟨2⟩ deletable).1.toOption = some () ∧
    let r : Record := { record 6 with place := some ⟨⟨⟨2⟩, 0⟩, 0⟩ }
    (overlooked.delete ⟨2⟩ r).1.toOption = some () ∧ overlooked.fieldsAt ⟨⟨⟨1⟩, 0⟩, 0⟩ = some [.int 5] ∧
      (overlooked.delete ⟨2⟩ r).2.fieldsAt ⟨⟨⟨1⟩, 0⟩, 0⟩ = none :=
  ⟨live_settled, by decide +kernel, by decide +kernel, by decide +kernel, by decide +kernel, by decide +kernel,
    by decide +kernel⟩

end Sample

end HeapStore
