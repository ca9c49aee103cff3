import HeapStore.Proofs.Seen
import Mathlib.Data.Prod.Lex
import Mathlib.Order.Bounds.Basic

/-!
# The first free slot

A record is put into the first free slot of its table, page by page and slot by slot, as the pages are seen. If there is
none on them it goes on a blank page behind the end of the file, and the file grows by this page only.

* `Engine.FirstFree`: the first slot of a table that is free. `Engine.Full`: there is none on the pages of its file.
* `Engine.Search`: what comes of looking through pages one after another. `putOnFirst_search`: it comes to this.
* `Engine.Taken`: **a record has taken the first free slot, and nothing else has changed.**
* `Engine.insert_takes_first`: this is what comes of an insertion that gives a place, whatever copies there are and
  whoever holds which pages. One that fails has changed nothing, or has only rolled back its transaction.
* `Sample.cleared_lost`: a changed page that was marked as unchanged can be lost to an insertion into another table.
-/

namespace HeapStore.Engine

variable {e e' e1 e2 : Engine} {tx : TxId} {id : PageId} {f : Frame} {fault : AccessFault} {p q : Page}
  {table : TableId} {file : TableFile} {r : Record} {place : RecordId} {n : Nat}

/-! ## Free slots -/

/-- A slot of a table is free, by the numbers of its page and of the slot: on a page that is seen, or on the blank page
behind the end of the file. -/
inductive Free (e : Engine) (table : TableId) : Nat → Nat → Prop where
  | seen {number slot : Nat} {p : Page} (hp : e.seen ⟨table, number⟩ = .ok p) (hslot : slot < p.slots.length)
    (hfree : p.row? slot = none) : Free e table number slot
  | behind {slot : Nat} {file : TableFile} (hf : e.file table = .ok file)
    (hslot : slot < file.schema.slotCount file.pageSize) : Free e table (e.pages table) slot

/-- The slot is the first one of its table that is free: by the page, and then by the slot. -/
def FirstFree (e : Engine) (place : RecordId) : Prop :=
  IsLeast {s : ℕ ×ₗ ℕ | e.Free place.page.table (ofLex s).1 (ofLex s).2} (toLex (place.page.number, place.slot))

/-- The page is seen and has no free slot. -/
def Crammed (e : Engine) (id : PageId) : Prop := ∃ p, e.seen id = .ok p ∧ p.freeSlots = 0

/-- No page in the file of a table has a free slot. -/
def Full (e : Engine) (table : TableId) : Prop := ∀ k < e.pages table, e.Crammed ⟨table, k⟩

/-- The fields in a slot as it is seen. -/
def fieldsAt (e : Engine) (place : RecordId) : Option (List Field) :=
  match e.seen place.page with
  | .ok p => p.contents place.slot
  | .error _ => none

theorem fieldsAt_of_seen (hp : e.seen id = .ok p) (slot : Nat) : e.fieldsAt ⟨id, slot⟩ = p.contents slot := by
  unfold fieldsAt
  simp only [hp]

theorem not_crammed (hp : e.seen id = .ok p) (hi : p.insert r = .ok (place, q)) : ¬ e.Crammed id := by
  rintro ⟨p', hp', hfull⟩
  rw [hp] at hp'
  cases hp'
  exact Page.freeSlots_of_insert hi hfull

theorem Undisturbed.crammed (hu : Undisturbed tx e e') (h : e.Kempt) (hn : n < e.pages table) :
    e'.Crammed ⟨table, n⟩ ↔ e.Crammed ⟨table, n⟩ := by
  have hin : (PageId.mk table n).number < e.pages (PageId.mk table n).table := hn
  unfold Crammed
  rw [hu.seen h hin]

/-- **The first free slot is on the first page that has one**, and is the first one there. -/
theorem firstFree_of (hle : place.page.number ≤ e.pages place.page.table)
    (hbefore : ∀ k < place.page.number, e.Crammed ⟨place.page.table, k⟩)
    (hfree : e.Free place.page.table place.page.number place.slot)
    (hleast : ∀ slot, e.Free place.page.table place.page.number slot → place.slot ≤ slot) : e.FirstFree place := by
  refine ⟨hfree, fun s hs => ?_⟩
  rw [← toLex_ofLex s, Prod.Lex.toLex_le_toLex]
  simp only
  have hs : e.Free place.page.table (ofLex s).1 (ofLex s).2 := hs
  generalize (ofLex s).1 = number at hs
  generalize (ofLex s).2 = slot at hs
  rcases Nat.lt_trichotomy place.page.number number with hlt | rfl | hlt
  · exact .inl hlt
  · exact .inr ⟨rfl, hleast slot hs⟩
  · -- the pages before it have no free slot
    obtain ⟨p, hp, hfull⟩ := hbefore number hlt
    cases hs with
    | seen hp' hslot hnone =>
      rw [hp] at hp'
      cases hp'
      exact absurd hnone (Page.row?_of_full hfull hslot)
    | behind => omega

/-! ## Looking for a free slot -/

/-- The first pages of a table have no free slot, and are held exclusively. -/
def Combed (e : Engine) (tx : TxId) (table : TableId) (n : Nat) : Prop :=
  ∀ k < n, e.Crammed ⟨table, k⟩ ∧ e.locks.mode? tx ⟨table, k⟩ = some .exclusive

/-- A record was put on the first page of its table with a free slot. -/
structure Lands (tx : TxId) (table : TableId) (r : Record) (place : RecordId) (e e' : Engine) : Prop where
  inTable : place.page.table = table
  inFile : place.page.number < e.pages table
  before : ∀ k < place.page.number, e.Crammed ⟨table, k⟩
  put : ∃ p q f, e.seen place.page = .ok p ∧ p.insert r = .ok (place, q) ∧ e'.cache.find? place.page = some f ∧
    f.page = q.mark (some tx)
  others : ∀ {id : PageId}, id ≠ place.page → id.number < e.pages id.table → e'.seen id = e.seen id
  locked : ∀ k ≤ place.page.number, e'.locks.mode? tx ⟨table, k⟩ = some .exclusive

/-- What comes of looking through the first `n` pages of a table. -/
inductive Search (tx : TxId) (table : TableId) (r : Record) (n : Nat) (e : Engine) :
    Outcome AccessFault (Option RecordId) → Prop where
  | found {place : RecordId} {e' : Engine} (h : Lands tx table r place e e') (hd : e'.disk = e.disk) :
    Search tx table r n e (.ok (some place), e')
  | none {e' : Engine} (hu : Undisturbed tx e e') (hc : e'.Combed tx table n) (hd : e'.disk = e.disk) :
    Search tx table r n e (.ok none, e')
  | failed {fault : AccessFault} {e' : Engine} (h : Foils tx fault e e') (hd : e'.disk = e.disk) :
    Search tx table r n e (.error fault, e')

theorem Undisturbed.combed (hu : Undisturbed tx e e') (h : e.Kempt) (hn : n ≤ e.pages table)
    (hc : e.Combed tx table n) : e'.Combed tx table n := by
  intro k hk
  obtain ⟨hfull, hx⟩ := hc k hk
  have hin : k < e.pages table := lt_of_lt_of_le hk hn
  exact ⟨(hu.crammed h hin).2 hfull, hu.exclusive hx⟩

theorem Undisturbed.search {o : Outcome AccessFault (Option RecordId)} (hu : Undisturbed tx e e1) (h : e.Kempt)
    (hd : e1.disk = e.disk) (hs : Search tx table r n e1 o) : Search tx table r n e o := by
  have hpages : ∀ t, e1.pages t = e.pages t := pages_of_disk hu.catalog hd
  cases hs with
  | @found place _ hl hd' =>
    have hin := hl.inFile
    rw [hpages] at hin
    refine .found ⟨hl.inTable, hin, fun k hk => ?_, ?_, fun {id} hne hn => ?_, hl.locked⟩ (hd'.trans hd)
    · exact (hu.crammed h (hk.trans hin)).1 (hl.before k hk)
    · obtain ⟨p, q, f, hp, hrest⟩ := hl.put
      have hplace : place.page.number < e.pages place.page.table := by
        rw [hl.inTable]
        exact hin
      rw [hu.seen h hplace] at hp
      exact ⟨p, q, f, hp, hrest⟩
    · exact (hl.others hne (by rw [hpages]; exact hn)).trans (hu.seen h hn)
  | none hu' hc hd' => exact .none (hu.trans hu') hc (hd'.trans hd)
  | failed hf hd' => exact .failed (hu.foils h hf) (hd'.trans hd)

/-- A record goes into a free slot of a page that was fetched, or it is refused there and nothing changes. -/
theorem putInto_search (h : e.Kempt) (hf : e.fetch tx ⟨table, n⟩ .exclusive = (.ok f, e1)) (hn : n < e.pages table)
    (hc : e.Combed tx table n) (m : Nat) :
    Search tx table r m e ((e1.putInto f tx r).1.map some, (e1.putInto f tx r).2) := by
  obtain ⟨hu, hd, hfind, hx⟩ := h.fetch_ok hf
  have hid : f.page.id = ⟨table, n⟩ := (Cache.mem_of_find? hfind).2
  have hin : (PageId.mk table n).number < e.pages (PageId.mk table n).table := hn
  have hseen : e.seen ⟨table, n⟩ = .ok f.page := (hu.seen h hin).symm.trans (seen_of_find? hfind)
  unfold putInto
  cases hi : f.page.insert r with
  | error cause => exact .failed ⟨fun _ _ hn => hu.seen h hn, nofun⟩ hd
  | ok stored =>
    obtain ⟨place, q⟩ := stored
    obtain ⟨hplace, -, -, hch⟩ := Page.insert_ok hi
    have hpl : place.page = ⟨table, n⟩ := hplace.trans hid
    have hqid : q.id = ⟨table, n⟩ := hch.id.trans hid
    let e2 : Engine := { e1 with cache := e1.cache.update q.id (q.mark (some tx)) }
    have hupdate : ∀ id, e2.cache.find? id = if id = q.id then _ else e1.cache.find? id :=
      fun id => Cache.find?_update rfl
    show Search tx table r m e (.ok (some place), e2)
    refine .found ⟨by rw [hpl], by rw [hpl]; exact hn, ?_, ?_, ?_, ?_⟩ hd
    · rw [hpl]
      exact fun k hk => (hc k hk).1
    · refine ⟨f.page, q, { f with page := q.mark (some tx) }, by rw [hpl]; exact hseen, hi, ?_, rfl⟩
      rw [hupdate, hpl, hqid, if_pos rfl, hfind]
      rfl
    · intro id hne hin
      rw [hpl, ← hqid] at hne
      exact (seen_congr ((hupdate id).trans (if_neg hne)) rfl).trans (hu.seen h hin)
    · rw [hpl]
      intro k hk
      -- the pages before it were passed with exclusive locks, and this one was fetched with one
      rcases Nat.lt_or_eq_of_le hk with hk | rfl
      · exact hu.exclusive (hc k hk).2
      · exact hx rfl

/-- **Pages are passed one after another as long as they have no free slot.** -/
theorem putOnFirst_search (ht : file.table = table) (len : Nat) : ∀ (s : Nat) {e : Engine}, e.Kempt →
    e.Combed tx table s → s + len ≤ e.pages table →
    Search tx table r (s + len) e (putOnFirst file tx r (List.range' s len) e) := by
  induction len with
  | zero => exact fun s e h hc _ => .none (Undisturbed.refl h tx) hc rfl
  | succ len ih =>
    intro s e h hc hlen
    have hpid : file.pageId s = ⟨table, s⟩ := by rw [← ht]; rfl
    rw [List.range'_succ]
    unfold putOnFirst
    rw [hpid]
    cases hf : e.fetch tx ⟨table, s⟩ .exclusive with
    | mk result e1 =>
      cases result with
      | error fault =>
        obtain ⟨hfoils, hd⟩ := h.fetch_error hf
        exact .failed hfoils hd
      | ok f =>
        obtain ⟨hu, hd, hfind, hx⟩ := h.fetch_ok hf
        simp only
        split
        · next hfull =>
          have hpages := pages_of_disk hu.catalog hd table
          have hc1 : e1.Combed tx table (s + 1) := by
            intro k hk
            rcases Nat.lt_or_eq_of_le (Nat.le_of_lt_succ hk) with hk | rfl
            · exact hu.combed h (by omega) hc k hk
            · exact ⟨⟨f.page, seen_of_find? hfind, hfull⟩, hx rfl⟩
          have hrest := ih (s + 1) hu.kempt hc1 (by omega)
          rw [show s + 1 + len = s + (len + 1) by omega] at hrest
          exact hu.search h hd hrest
        · exact putInto_search h hf (by omega) hc _

/-- All pages in the file of a table. -/
theorem putOnFirst_all (h : e.Kempt) (hf : e.file table = .ok file) (tx : TxId) (r : Record) :
    Search tx table r (e.pages table) e (putOnFirst file tx r (List.range (e.pages table)) e) := by
  have hnone : e.Combed tx table 0 := fun k hk => absurd hk (Nat.not_lt_zero k)
  have hsearch := putOnFirst_search (r := r) (h.catalog.own hf) (e.pages table) 0 h hnone (Nat.zero_add _).le
  rw [Nat.zero_add, ← List.range_eq_range'] at hsearch
  exact hsearch

/-! ## What comes of an insertion -/

/-- The file of a table has got one blank page, and no other table has another file. -/
structure Extended (table : TableId) (e e' : Engine) : Prop where
  pages : e'.pages table = e.pages table + 1
  file : ∃ file, e.file table = .ok file ∧ file.append e.disk = .ok (e.pages table, e'.disk) ∧
    ∀ table', e'.fileBytes table' =
      if table' = table then Paged.lengthened file.pageSize (e.fileBytes table) else e.fileBytes table'

/-- A record has taken the first free slot of its table, and nothing else has changed. -/
structure Taken (tx : TxId) (table : TableId) (r : Record) (place : RecordId) (e e' : Engine) : Prop where
  inTable : place.page.table = table
  first : e.FirstFree place
  /-- The page has a copy, which the transaction has changed, and the record is in the slot. -/
  holds : ∃ f r', e'.cache.find? place.page = some f ∧ f.page.dirty = some tx ∧
    f.page.record? place.slot = some r' ∧ r'.Same r ∧ r'.place = some place
  beside : ∀ slot ≠ place.slot, e'.fieldsAt ⟨place.page, slot⟩ = e.fieldsAt ⟨place.page, slot⟩
  others : ∀ {id : PageId}, id ≠ place.page → id.number < e.pages id.table → e'.seen id = e.seen id
  locked : ∀ k ≤ place.page.number, e'.locks.mode? tx ⟨table, k⟩ = some .exclusive
  grows : e.Full table → Extended table e e'
  stays : ¬ e.Full table → e'.disk = e.disk

/-- What can come of inserting a record. -/
inductive Insertion (tx : TxId) (table : TableId) (r : Record) (e : Engine) : Outcome AccessFault RecordId → Prop where
  | taken {file : TableFile} {place : RecordId} {e' : Engine} (hf : e.file table = .ok file)
    (ht : r.schema.types = file.schema.types) (h : Taken tx table r place e e') :
    Insertion tx table r e (.ok place, e')
  | unknown (hf : ∀ file, e.file table ≠ .ok file) : Insertion tx table r e (.error (.noTable table), e)
  | mismatch {file : TableFile} (hf : e.file table = .ok file) (ht : r.schema.types ≠ file.schema.types) :
    Insertion tx table r e (.error (.record (.schemaMismatch (.otherTable r.schema file.schema))), e)
  | failed {file : TableFile} {fault : AccessFault} {e' : Engine} (hf : e.file table = .ok file)
    (ht : r.schema.types = file.schema.types) (h : Foils tx fault e e')
    (hd : e'.disk = e.disk ∨ e.Full table ∧ Extended table e e') : Insertion tx table r e (.error fault, e')

/-- If no page in the file of a table has a free slot, one page is appended, and no further one is needed: the record is
put there, or the call fails there. -/
def AppendsOnce (e : Engine) (tx : TxId) (table : TableId) (r : Record) : Prop :=
  ∀ file e1, e.file table = .ok file → r.schema.types = file.schema.types →
    putOnFirst file tx r (List.range (e.pages table)) e = (.ok none, e1) →
    ∃ disk, file.append e1.disk = .ok (e.pages table, disk) ∧
      ∀ e2, putOnFirst file tx r [e.pages table] { e1 with disk } ≠ (.ok none, e2)

namespace Lands

theorem holds (h : Lands tx table r place e e') : ∃ f r', e'.cache.find? place.page = some f ∧
    f.page.dirty = some tx ∧ f.page.record? place.slot = some r' ∧ r'.Same r ∧ r'.place = some place := by
  obtain ⟨p, q, f, -, hi, hfind, hpage⟩ := h.put
  obtain ⟨r', hr, hsame, hplace⟩ := Page.record?_of_insert hi
  refine ⟨f, r', hfind, by rw [hpage]; rfl, ?_, hsame, hplace⟩
  rw [hpage]
  exact hr

theorem beside (h : Lands tx table r place e e') (slot : Nat) (hne : slot ≠ place.slot) :
    e'.fieldsAt ⟨place.page, slot⟩ = e.fieldsAt ⟨place.page, slot⟩ := by
  obtain ⟨p, q, f, hp, hi, hfind, hpage⟩ := h.put
  obtain ⟨-, -, -, hch⟩ := Page.insert_ok hi
  have hc := hch.contents slot
  rw [if_neg hne] at hc
  rw [fieldsAt_of_seen hp, fieldsAt_of_seen (seen_of_find? hfind), hpage]
  exact hc

/-- The page that has taken the record is not full. -/
theorem not_full (h : Lands tx table r place e e') : ¬ e.Full table := by
  obtain ⟨p, q, f, hp, hi, -⟩ := h.put
  intro hfull
  have hplace : place.page = ⟨table, place.page.number⟩ := by rw [← h.inTable]
  refine not_crammed hp hi ?_
  rw [hplace]
  exact hfull _ h.inFile

/-- **A record that was put on a page of the file has taken the first free slot.** -/
theorem taken (h : Lands tx table r place e e') (hd : e'.disk = e.disk) : Taken tx table r place e e' where
  inTable := h.inTable
  first := by
    obtain ⟨p, q, f, hp, hi, -⟩ := h.put
    obtain ⟨hlt, hless⟩ := Page.insert_least hi
    obtain ⟨-, hnone, -⟩ := Page.insert_ok hi
    have hrow : p.row? place.slot = none := Option.map_eq_none_iff.1 hnone
    have hin := h.inFile
    rw [← h.inTable] at hin
    refine firstFree_of hin.le (by rw [h.inTable]; exact h.before) (.seen hp hlt hrow) fun slot hs => ?_
    generalize hnumber : place.page.number = number at hs hin
    cases hs with
    | seen hp' hslot hfree =>
      rw [← hnumber, hp] at hp'
      cases hp'
      exact Nat.not_lt.1 fun hl => hless slot hl hfree
    | behind => exact absurd hin (lt_irrefl _)
  holds := h.holds
  beside := h.beside
  others := h.others
  locked := h.locked
  grows hfull := absurd hfull h.not_full
  stays _ := hd

/-- **A record that was put on the new page has taken the first free slot** of a table whose pages are full. -/
theorem taken_new (h : e.Kempt) (hf : e.file table = .ok file) (hu : Undisturbed tx e e1) (hfull : e.Full table)
    (hpages : e1.pages table = e.pages table + 1) (hp : e1.seen ⟨table, e.pages table⟩ = .ok p)
    (hrow : ∀ slot, p.row? slot = none) (hl : Lands tx table r place e1 e') (hext : Extended table e e') :
    Taken tx table r place e e' := by
  have hin := hl.inFile
  have hplace : place.page = ⟨table, place.page.number⟩ := by rw [← hl.inTable]
  obtain ⟨p', q, f, hp', hi, -⟩ := hl.put
  -- the pages of the file have no free slot, so it is the new one
  have hnumber : place.page.number = e.pages table := by
    by_contra hne
    have hlt : place.page.number < e.pages table := by omega
    refine not_crammed hp' hi ?_
    rw [hplace]
    exact (hu.crammed h hlt).2 (hfull _ hlt)
  have hid : place.page = ⟨table, e.pages table⟩ := by rw [hplace, hnumber]
  rw [hid, hp] at hp'
  cases hp'
  obtain ⟨hlt, hless⟩ := Page.insert_least hi
  have hbehind : ∃ fault, e.seen place.page = .error fault := by
    rw [hid]
    exact h.seen_behind hf le_rfl
  refine ⟨hl.inTable, ?_, hl.holds, fun slot hne => ?_, fun hne hn => ?_, hl.locked, fun _ => hext,
    fun hno => absurd hfull hno⟩
  · have hslots : p.slots.length = file.schema.slotCount file.pageSize := by
      have hf1 : e1.file table = .ok file := (hu.file_eq table).trans hf
      obtain ⟨-, hs, hz, -⟩ := hu.kempt.of_seen hp hf1
      rw [p.length_slots, hs, hz]
    refine firstFree_of ?_ ?_ ?_ fun slot _ => Nat.not_lt.1 fun hl => hless slot hl (hrow slot)
    · rw [hid]
    · rw [hid]
      exact hfull
    · rw [hid]
      exact .behind hf (hslots ▸ hlt)
  · obtain ⟨fault, hbehind⟩ := hbehind
    have hnone : e.fieldsAt ⟨place.page, slot⟩ = none := by
      unfold fieldsAt
      simp only [hbehind]
    have hp : e1.seen place.page = .ok p := by rw [hid]; exact hp
    rw [hl.beside slot hne, hnone, fieldsAt_of_seen hp]
    unfold Page.contents
    rw [hrow]
    rfl
  · exact (hl.others hne (lt_of_lt_of_le hn (hu.pages _))).trans (hu.seen h hn)

end Lands

/-- A blank page has a free slot. -/
theorem Kempt.not_crammed_of_blank (h : e.Kempt) (hf : e.file table = .ok file) (hp : e.seen ⟨table, n⟩ = .ok p)
    (hrow : ∀ slot, p.row? slot = none) : ¬ e.Crammed ⟨table, n⟩ := by
  rintro ⟨p', hp', hfull⟩
  rw [hp] at hp'
  cases hp'
  obtain ⟨-, hschema, hsize, -⟩ := h.of_seen hp hf
  refine Page.freeSlots_of_empty hrow ?_ hfull
  rw [hschema, hsize]
  exact h.catalog.slots hf

/-- Every engine with the files that have got a page has got it. -/
theorem Lengthened.extended {disk : Disk} (hl : Lengthened table file e1 { e1 with disk })
    (hf : e.file table = .ok file) (hc1 : e1.catalog = e.catalog) (hd1 : e1.disk = e.disk)
    (ha : file.append e1.disk = .ok (e.pages table, disk)) (hpages : { e1 with disk }.pages table = e.pages table + 1)
    (hc : e'.catalog = e.catalog) (hd : e'.disk = disk) : Extended table e e' := by
  have hc2 : e'.catalog = { e1 with disk }.catalog := hc.trans hc1.symm
  refine ⟨(pages_of_disk hc2 hd table).trans hpages, file, hf, by rw [← hd1, hd]; exact ha, fun t => ?_⟩
  rw [fileBytes_of_disk hc2 hd, hl.bytes, fileBytes_of_disk hc1 hd1, fileBytes_of_disk hc1 hd1]

/-- **One page more is enough**: it is blank, so the record goes there or the call fails there. -/
theorem putOnNew_insertion (h : e.Kempt) (hf : e.file table = .ok file) (ht : r.schema.types = file.schema.types)
    (hu : Undisturbed tx e e1) (hd : e1.disk = e.disk) (hc : e1.Combed tx table (e.pages table)) {tries : Nat}
    (hs : (putOnNew file tx r (tries + 1) e1).2.Small) :
    ∃ disk, file.append e1.disk = .ok (e.pages table, disk) ∧
      (∀ e2, putOnFirst file tx r [e.pages table] { e1 with disk } ≠ (.ok none, e2)) ∧
      Insertion tx table r e (putOnNew file tx r (tries + 1) e1) := by
  have hf1 : e1.file table = .ok file := (hu.file_eq table).trans hf
  have hpages := pages_of_disk hu.catalog hd
  -- page numbers that have room at the end had room before
  have hs1 : e1.Small :=
    ((stable_grows e1).putOnNew tx r _ (Outgrows.refl e1) hf1).small hu.kempt.present hs
  obtain ⟨disk, ha, hlong, hnew⟩ := hu.kempt.append_ok hf1 hs1 tx
  rw [hpages] at ha hnew
  let e2 : Engine := { e1 with disk }
  obtain ⟨hu2, hpages2, p, hp, hrow⟩ := hnew ((outgrows_putOnNew (r := r) hf1 ha tries).small hlong.present hs)
  have hall : Undisturbed tx e e2 := hu.trans hu2
  have hfull : e.Full table := fun k hk => (hu.crammed h hk).1 (hc k hk).1
  have hc2 : e2.Combed tx table (e.pages table) := hu2.combed hu.kempt (hpages table).ge hc
  have hsearch : Search tx table r (e.pages table + 1) e2 (putOnFirst file tx r [e.pages table] e2) :=
    putOnFirst_search (h.catalog.own hf) 1 _ hu2.kempt hc2 hpages2.ge
  have hcatalog := (steady_catalog e.catalog).putOnFirst file tx r [e.pages table] (e := e2) hall.catalog
  refine ⟨disk, ha, ?_⟩
  unfold putOnNew
  simp only [ha]
  cases hrun : putOnFirst file tx r [e.pages table] e2 with
  | mk o e3 =>
    rw [hrun] at hsearch hcatalog
    have hext : e3.disk = disk → Extended table e e3 := hlong.extended hf hu.catalog hd ha hpages2 hcatalog
    cases hsearch with
    | @found place _ hl hd' =>
      exact ⟨nofun, .taken hf ht (hl.taken_new h hf hall hfull hpages2 hp hrow (hext hd'))⟩
    | none hu3 hc3 _ =>
      -- the new page cannot have been passed, since it is blank
      have hin : e.pages table < e2.pages table := by
        show e.pages table < { e1 with disk }.pages table
        omega
      have hcrammed := (hu3.crammed hu2.kempt hin).1 (hc3 _ (Nat.lt_succ_self _)).1
      exact absurd hcrammed (hu2.kempt.not_crammed_of_blank hf1 hp hrow)
    | failed hfail hd' =>
      exact ⟨nofun, .failed hf ht (hall.foils h hfail) (.inr ⟨hfull, hext hd'⟩)⟩

theorem noTable_of_file (hf : e.file table = .error fault) : fault = .noTable table := by
  unfold file Catalog.tableFile at hf
  cases hc : e.catalog.file table with
  | ok file =>
    rw [hc] at hf
    cases hf
  | error cause =>
    rw [hc] at hf
    cases hf
    rfl

theorem appendsOnce_of_file (hf : e.file table = .ok file)
    (h : ∀ e1, r.schema.types = file.schema.types →
      putOnFirst file tx r (List.range (e.pages table)) e = (.ok none, e1) →
      ∃ disk, file.append e1.disk = .ok (e.pages table, disk) ∧
        ∀ e2, putOnFirst file tx r [e.pages table] { e1 with disk } ≠ (.ok none, e2)) : e.AppendsOnce tx table r := by
  intro file' e1 hf'
  rw [hf] at hf'
  cases hf'
  exact h e1

/-- **A record takes the first free slot of its table, and nothing else changes.** If the call fails, pages are seen as
before, but for those of its transaction if it has ended that. The file grows by a page only if all its pages are full,
and then by one: no second page is tried. -/
theorem insert_takes_first (h : e.Live) (hs : (e.insert tx table r).2.Small) :
    Insertion tx table r e (e.insert tx table r) ∧ e.AppendsOnce tx table r := by
  have hk := h.kempt
  unfold insert at hs ⊢
  cases hf : e.file table with
  | error fault =>
    obtain rfl := noTable_of_file hf
    have hnone : ∀ file, e.file table ≠ .ok file := by
      intro file hf'
      rw [hf] at hf'
      cases hf'
    exact ⟨.unknown hnone, fun file _ hf' => absurd hf' (hnone file)⟩
  | ok file =>
    rw [hf] at hs
    simp only at hs ⊢
    unfold insertInto at hs ⊢
    by_cases ht : r.schema.types = file.schema.types
    · rw [if_neg (not_not.2 ht), hk.present.count hf] at hs ⊢
      simp only at hs ⊢
      have hsearch := putOnFirst_all hk hf tx r
      cases hrun : putOnFirst file tx r (List.range (e.pages table)) e with
      | mk o e1 =>
        rw [hrun] at hsearch hs
        cases hsearch with
        | found hl hd =>
          refine ⟨.taken hf ht (hl.taken hd), appendsOnce_of_file hf fun _ _ hrun' => ?_⟩
          rw [hrun] at hrun'
          cases hrun'
        | failed hfail hd =>
          refine ⟨.failed hf ht hfail (.inl hd), appendsOnce_of_file hf fun _ _ hrun' => ?_⟩
          rw [hrun] at hrun'
          cases hrun'
        | none hu hc hd =>
          simp only at hs ⊢
          obtain ⟨disk, ha, hno, hin⟩ := putOnNew_insertion hk hf ht hu hd hc hs
          refine ⟨hin, appendsOnce_of_file hf fun _ _ hrun' => ?_⟩
          rw [hrun] at hrun'
          cases hrun'
          exact ⟨disk, ha, hno⟩
    · rw [if_pos ht]
      exact ⟨.mismatch hf ht, appendsOnce_of_file hf fun _ ht' => absurd ht' ht⟩

end HeapStore.Engine

namespace HeapStore.Sample

/-! ## Two insertions -/

/-- A transaction has filled the page of a table. -/
def brimful : Engine :=
  engine.serveAll [.call .begin, .call (.insert ⟨1⟩ table (record 5)), .call (.insert ⟨1⟩ table (record 6))]

theorem small_brimful : (brimful.insert ⟨1⟩ table (record 7)).2.Small :=
  @small_served [.call .begin, .call (.insert ⟨1⟩ table (record 5)), .call (.insert ⟨1⟩ table (record 6)),
    .call (.insert ⟨1⟩ table (record 7))] (by decide +kernel)

theorem live_brimful : brimful.Live := live.serveAll _ (small_served (by decide +kernel))

/-- A record more goes on a new page. -/
theorem insert_takes_first_brimful : (brimful.insert ⟨1⟩ table (record 7)).1.toOption = some ⟨⟨table, 1⟩, 0⟩ ∧
    brimful.Live ∧ (brimful.insert ⟨1⟩ table (record 7)).2.Small ∧
    Engine.Insertion ⟨1⟩ table (record 7) brimful (brimful.insert ⟨1⟩ table (record 7)) ∧
    brimful.AppendsOnce ⟨1⟩ table (record 7) :=
  ⟨by decide +kernel, live_brimful, small_brimful, Engine.insert_takes_first live_brimful small_brimful⟩

/-- An engine with two tables and one place in its cache. A transaction has changed a page, and then the copy was marked
as unchanged. -/
def cleared : Engine :=
  let narrow : Engine := { empty {} with cache := { capacity := 1 } }
  let a : Engine := (narrow.createTable ⟨false, ["a"], .nothing⟩ "a" schema none).2
  let b : Engine := (a.createTable ⟨false, ["b"], .nothing⟩ "b" schema none).2
  ((b.serveAll [.call .begin, .call (.insert ⟨1⟩ ⟨1⟩ (record 5))]).mark ⟨⟨1⟩, 0⟩ none).2

/-- **An insertion can lose a record of another table**: its page is marked as unchanged, and has to make room. -/
theorem cleared_lost : (cleared.insert ⟨1⟩ ⟨2⟩ (record 6)).1.toOption = some ⟨⟨⟨2⟩, 0⟩, 0⟩ ∧
    cleared.fieldsAt ⟨⟨⟨1⟩, 0⟩, 0⟩ = some [.int 5] ∧
    (cleared.insert ⟨1⟩ ⟨2⟩ (record 6)).2.fieldsAt ⟨⟨⟨1⟩, 0⟩, 0⟩ = none ∧
    ¬ Engine.Taken ⟨1⟩ ⟨2⟩ (record 6) ⟨⟨⟨2⟩, 0⟩, 0⟩ cleared (cleared.insert ⟨1⟩ ⟨2⟩ (record 6)).2 := by
  have hbefore : cleared.fieldsAt ⟨⟨⟨1⟩, 0⟩, 0⟩ = some [.int 5] := by decide +kernel
  have hafter : (cleared.insert ⟨1⟩ ⟨2⟩ (record 6)).2.fieldsAt ⟨⟨⟨1⟩, 0⟩, 0⟩ = none := by decide +kernel
  refine ⟨by decide +kernel, hbefore, hafter, fun h => ?_⟩
  have hin : (PageId.mk ⟨1⟩ 0).number < cleared.pages ⟨1⟩ := by decide +kernel
  have hsame := h.others (by decide) hin
  unfold Engine.fieldsAt at hbefore hafter
  rw [hsame, hbefore] at hafter
  cases hafter

end HeapStore.Sample
