import HeapStore.Proofs.Cursor

/-!
# Deleting a record

A record is deleted from the place that it names, if it lies there. That its table is there and its page in the file is
looked at first, and then nothing is locked and no copy is touched. What the slot holds can only be seen once the page has
been fetched.

* `Page.Lacks`: why a record is not in a slot. `Page.delete_cases`: **its slot becomes free, or the page lacks it.**
* `Engine.Freed`: **one slot has become free, and nothing else has changed.**
* `Engine.Deletion`: what can come of deleting a record. `Kempt.delete_deletion`: this is what comes of it, whatever copies
  there are and whoever holds which pages.
* `Engine.Bears`: the record lies where it says. `Kempt.delete_iff`: if its page can be had, **this is when it is
  deleted.**
-/

namespace HeapStore

/-! ## On a page -/

namespace Page

variable {p : Page} {r r' : Record} {slot slot' : Nat}

/-- Why a record is not in a slot of a page. -/
inductive Lacks (p : Page) (slot : Nat) (r : Record) : Absence → Prop where
  | outOfRange (hslot : p.slots.length ≤ slot) : Lacks p slot r (.outOfRange slot)
  | empty (hslot : slot < p.slots.length) (hr : p.record? slot = none) : Lacks p slot r (.empty slot)
  | differs {r' : Record} (hr : p.record? slot = some r') (hdiff : ¬ r'.Same r) : Lacks p slot r (.differs slot)

theorem record?_eq_none_iff : p.record? slot = none ↔ p.contents slot = none := by
  unfold record? contents
  rw [Option.map_eq_none_iff, Option.map_eq_none_iff]

/-- **A record is deleted from its slot**, or its page does not have it there. -/
theorem delete_cases (hp : r.place = some ⟨p.id, slot⟩) :
    (∃ r', p.record? slot = some r' ∧ r'.Same r ∧ slot < p.slots.length ∧ p.delete r = .ok (p.setSlot slot none)) ∨
      ∃ why, p.Lacks slot r why ∧ p.delete r = .error (.notFound p.id why) := by
  have hrecord : p.record? slot = (p.slots[slot]?.join).map (p.recordAt slot) := rfl
  unfold delete
  simp only [hp, ne_eq, not_true_eq_false, if_false]
  cases hs : p.slots[slot]? with
  | none => exact .inr ⟨_, .outOfRange (List.getElem?_eq_none_iff.1 hs), rfl⟩
  | some held =>
    have hlt : slot < p.slots.length := (List.getElem?_eq_some_iff.1 hs).1
    rw [hs] at hrecord
    cases held with
    | none => exact .inr ⟨_, .empty hlt hrecord, rfl⟩
    | some row =>
      simp only
      split
      · next hsame => exact .inl ⟨_, hrecord, hsame, hlt, rfl⟩
      · next hdiff => exact .inr ⟨_, .differs hrecord hdiff, rfl⟩

end Page

namespace Engine

variable {e e' e1 : Engine} {tx : TxId} {place : RecordId} {r r' : Record} {f : Frame} {file : TableFile}
  {fault : AccessFault}

/-! ## In an engine -/

/-- The record lies in a slot as it is seen, on a page in the file of a table that is there. -/
structure Bears (e : Engine) (place : RecordId) (r : Record) : Prop where
  table : ∃ file, e.file place.page.table = .ok file
  inFile : place.page.number < e.pages place.page.table
  same : ∃ r', e.recordAt place = some r' ∧ r'.Same r

/-- One slot has become free on a page that a transaction holds exclusively, and is marked there. No other slot has other
contents, no other page is seen otherwise or belongs to somebody else, and all files are as they were. -/
structure Freed (tx : TxId) (place : RecordId) (e e' : Engine) : Prop where
  kempt : e'.Kempt
  vacant : e'.recordAt place = none
  beside : ∀ slot ≠ place.slot, e'.recordAt ⟨place.page, slot⟩ = e.recordAt ⟨place.page, slot⟩
  marked : ∃ f, e'.cache.find? place.page = some f ∧ f.page.dirty = some tx
  others : ∀ {id : PageId} {file : TableFile}, id ≠ place.page → e.file id.table = .ok file → e'.seen id = e.seen id
  drafts : ∀ (tx' : TxId) {id : PageId}, id ≠ place.page → e'.cache.draft tx' id = e.cache.draft tx' id
  locked : e'.locks.mode? tx place.page = some .exclusive
  catalog : e'.catalog = e.catalog
  disk : e'.disk = e.disk

/-- No page is seen otherwise or belongs to somebody else, and all files are as they were. -/
structure Intact (e e' : Engine) : Prop where
  seen : ∀ {id : PageId} {file : TableFile}, e.file id.table = .ok file → e'.seen id = e.seen id
  drafts : e'.cache.draft = e.cache.draft
  catalog : e'.catalog = e.catalog
  disk : e'.disk = e.disk

/-- What can come of deleting a record. -/
inductive Deletion (tx : TxId) (r : Record) (e : Engine) : Outcome AccessFault Unit → Prop where
  | freed {place : RecordId} {e' : Engine} (hp : r.place = some place) (hb : e.Bears place r)
    (h : Freed tx place e e') : Deletion tx r e (.ok (), e')
  | unplaced (hp : r.place = none) : Deletion tx r e (.error (.record (.unplaced r.plain)), e)
  | unknown {place : RecordId} (hp : r.place = some place) (hf : ∀ file, e.file place.page.table ≠ .ok file) :
    Deletion tx r e (.error (.record (.notFound place.page (.noTable place.page.table))), e)
  | behind {place : RecordId} {file : TableFile} (hp : r.place = some place)
    (hf : e.file place.page.table = .ok file) (hn : e.pages place.page.table ≤ place.page.number) :
    Deletion tx r e (.error (.record (.notFound place.page (.noPage place.page.table))), e)
  | lacking {place : RecordId} {file : TableFile} {p : Page} {why : Absence} {e' : Engine} (hp : r.place = some place)
    (hf : e.file place.page.table = .ok file) (hn : place.page.number < e.pages place.page.table)
    (hseen : e.seen place.page = .ok p) (hl : p.Lacks place.slot r why) (h : Intact e e') :
    Deletion tx r e (.error (.record (.notFound place.page why)), e')
  | barred {place : RecordId} {file : TableFile} {fault : AccessFault} {e' : Engine} (hp : r.place = some place)
    (hf : e.file place.page.table = .ok file) (hn : place.page.number < e.pages place.page.table)
    (hfetch : e.fetch tx place.page .exclusive = (.error fault, e')) (h : Foils tx fault e e') (hd : e'.disk = e.disk) :
    Deletion tx r e (.error fault, e')

theorem Undisturbed.intact (hu : Undisturbed tx e e') (h : e.Kempt) (hd : e'.disk = e.disk) : Intact e e' :=
  ⟨fun hf => hu.seen_anywhere h hd hf, hu.draft, hu.catalog, hd⟩

/-- On a page that was fetched a slot becomes free, and nothing else changes. -/
theorem Undisturbed.freed (hu : Undisturbed tx e e1) (h : e.Kempt) (hd : e1.disk = e.disk)
    (hf : e.file place.page.table = .ok file) (hfind : e1.cache.find? place.page = some f)
    (hx : e1.locks.mode? tx place.page = some .exclusive) (hslot : place.slot < f.page.slots.length) :
    let q := (f.page.setSlot place.slot none).mark (some tx)
    Freed tx place e { e1 with cache := e1.cache.update q.id q } := by
  intro q
  have hid : q.id = place.page := (Cache.mem_of_find? hfind).2
  have hfind' : e1.cache.find? q.id = some f := by rw [hid]; exact hfind
  let e2 : Engine := { e1 with cache := e1.cache.update q.id q }
  have hseen : ∀ id, e2.seen id = if id = q.id then .ok q else e1.seen id := seen_update hfind'
  have hnew : e2.seen place.page = .ok q := by rw [hseen, if_pos hid.symm]
  have hold : e.seen place.page = .ok f.page := (hu.seen_anywhere h hd hf).symm.trans (seen_of_find? hfind)
  -- what is in a slot of the page, before and now
  have hrecord : ∀ slot, e2.recordAt ⟨place.page, slot⟩ =
      if slot = place.slot then none else e.recordAt ⟨place.page, slot⟩ := by
    intro slot
    have hafter : e2.recordAt ⟨place.page, slot⟩ = q.record? slot := recordAt_of_seen hnew
    have hbefore : e.recordAt ⟨place.page, slot⟩ = f.page.record? slot := recordAt_of_seen hold
    rw [hafter, hbefore]
    exact Page.record?_setSlot hslot none slot
  have hch := (Page.changes_setSlot hslot (none : Option f.page.schema.Row)).revises tx
  refine ⟨hu.kempt.revise hfind' hch, ?_, fun slot hne => ?_, ?_, fun {id file'} hne hf' => ?_, fun tx' id hne => ?_, hx,
    hu.catalog, hd⟩
  · exact (hrecord place.slot).trans (if_pos rfl)
  · exact (hrecord slot).trans (if_neg hne)
  · have hupdate : e2.cache.find? place.page = if place.page = q.id then _ else _ := Cache.find?_update rfl
    rw [if_pos hid.symm, hfind'] at hupdate
    exact ⟨_, hupdate, rfl⟩
  · refine (hseen id).trans ?_
    rw [if_neg (by rw [hid]; exact hne)]
    exact hu.seen_anywhere h hd hf'
  · have hdraft : e2.cache.draft tx' id = if id = q.id then _ else e1.cache.draft tx' id :=
      Cache.draft_update rfl hfind'
    rw [if_neg (by rw [hid]; exact hne), hu.draft] at hdraft
    exact hdraft

/-- **A record is deleted from the place that it names**, or its table, its page or its slot does not have it, or its page
cannot be had. -/
theorem Kempt.delete_deletion (h : e.Kempt) (tx : TxId) (r : Record) : Deletion tx r e (e.delete tx r) := by
  unfold delete Record.location
  cases hr : r.place with
  | none => exact .unplaced hr
  | some place =>
    simp only
    cases hf : e.file place.page.table with
    | error fault =>
      refine .unknown hr fun file hf' => ?_
      rw [hf] at hf'
      cases hf'
    | ok file =>
      have ht : file.table = place.page.table := h.catalog.own hf
      unfold deleteFrom Record.location
      simp only [hr]
      rw [if_neg (not_not.2 ht.symm), h.present.count hf, ht]
      simp only
      split
      · next hn => exact .behind hr hf hn
      · next hn =>
        rw [Nat.not_le] at hn
        -- only now the page is locked
        split
        · next fault e1 hfetch =>
          obtain ⟨hfoils, hd⟩ := h.fetch_error hfetch
          exact .barred hr hf hn hfetch hfoils hd
        · next f e1 hfetch =>
          obtain ⟨hu, hd, hfind, hx⟩ := h.fetch_ok hfetch
          have hid : f.page.id = place.page := (Cache.mem_of_find? hfind).2
          have hseen : e.seen place.page = .ok f.page := (hu.seen_anywhere h hd hf).symm.trans (seen_of_find? hfind)
          have hplace : r.place = some ⟨f.page.id, place.slot⟩ := by rw [hr, hid]
          unfold takeFrom
          rcases Page.delete_cases hplace with ⟨r', hrec, hsame, hslot, hdel⟩ | ⟨why, hl, hdel⟩
          · rw [hdel]
            have hb : e.Bears place r := ⟨⟨file, hf⟩, hn, r', (recordAt_of_seen hseen).trans hrec, hsame⟩
            exact .freed hr hb (hu.freed h hd hf hfind (hx rfl) hslot)
          · rw [hdel, hid]
            exact .lacking hr hf hn hseen hl (hu.intact h hd)

/-- A page that lacks the record in its slot is not seen to bear it. -/
theorem Bears.not_lacks {p : Page} {why : Absence} (h : e.Bears place r) (hp : e.seen place.page = .ok p) :
    ¬ p.Lacks place.slot r why := by
  obtain ⟨r', hr, hsame⟩ := h.same
  rw [recordAt_of_seen hp] at hr
  intro hl
  cases hl with
  | outOfRange hslot =>
    unfold Page.record? Page.row? at hr
    rw [List.getElem?_eq_none hslot] at hr
    cases hr
  | empty _ hnone =>
    rw [hnone] at hr
    cases hr
  | differs hr' hdiff =>
    rw [hr'] at hr
    cases hr
    exact hdiff hsame

/-- A record that lies where it says is deleted once its page has been fetched. -/
theorem Deletion.of_bears {o : Outcome AccessFault Unit} (h : Deletion tx r e o) (hp : r.place = some place)
    (hb : e.Bears place r) (hfetch : e.fetch tx place.page .exclusive = (.ok f, e1)) : o.1 = .ok () := by
  cases h with
  | freed => rfl
  | unplaced hp' => cases hp.symm.trans hp'
  | unknown hp' hf =>
    cases hp.symm.trans hp'
    obtain ⟨file, hfile⟩ := hb.table
    exact absurd hfile (hf file)
  | behind hp' _ hn =>
    cases hp.symm.trans hp'
    exact absurd hb.inFile (Nat.not_lt.2 hn)
  | lacking hp' _ _ hseen hl _ =>
    cases hp.symm.trans hp'
    exact absurd hl (hb.not_lacks hseen)
  | barred hp' _ _ hno _ _ =>
    cases hp.symm.trans hp'
    rw [hfetch] at hno
    cases hno

/-- **A record is deleted if it lies where it says**, and only then, as long as its page can be fetched. -/
theorem Kempt.delete_iff (h : e.Kempt)
    (hfetch : ∀ place, r.place = some place → ∃ f e1, e.fetch tx place.page .exclusive = (.ok f, e1)) :
    (e.delete tx r).1 = .ok () ↔ ∃ place, r.place = some place ∧ e.Bears place r := by
  have hcomes := h.delete_deletion tx r
  constructor
  · intro hok
    generalize e.delete tx r = o at hcomes hok
    cases hcomes with
    | freed hp hb _ => exact ⟨_, hp, hb⟩
    | _ => cases hok
  · rintro ⟨place, hp, hb⟩
    obtain ⟨f, e1, hf⟩ := hfetch place hp
    exact hcomes.of_bears hp hb hf

end Engine

end HeapStore
