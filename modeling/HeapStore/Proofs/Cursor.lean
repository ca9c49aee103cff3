import HeapStore.Proofs.FirstFree
import HeapStore.Proofs.PageEdits
import HeapStore.Proofs.Scans

/-!
# Scans over a table that changes

Before each step of a scan anything may be asked of the engine, by the transaction of the scan too. Records are stored and
deleted on the pages that it has passed and on those that are ahead, and copies come and go. It goes on from the place
where it was.

* `Engine.recordAt`: the record in a slot as it is seen. `RecordId.rank`, `Scan.cursor`: places in their order, and where a
  scan is.
* `Scan.Forward`: what one step comes to. It gives **the first record at the cursor or behind it**, `next_forward`.
* `Scan.turns`: the steps of a scan, each with the engine at which it is taken, after some requests.
* `Scan.ascending`: **records are given in their order.** `Scan.given_once`: one that stays in its slot is given once.
* `Scan.length_given_le`: there are no more records than slots.
-/

namespace HeapStore

/-- Places in their order, by the page and then by the slot. -/
def RecordId.rank (place : RecordId) : ℕ ×ₗ ℕ := toLex (place.page.number, place.slot)

theorem RecordId.rank_lt_iff {a b : RecordId} :
    a.rank < b.rank ↔ a.page.number < b.page.number ∨ a.page.number = b.page.number ∧ a.slot < b.slot :=
  Prod.Lex.toLex_lt_toLex

theorem RecordId.rank_inj {a b : RecordId} (ht : a.page.table = b.page.table) (h : a.rank = b.rank) : a = b := by
  obtain ⟨hn, hs⟩ := Prod.ext_iff.1 (toLex_inj.1 h)
  obtain ⟨⟨table, number⟩, slot⟩ := a
  obtain ⟨⟨table', number'⟩, slot'⟩ := b
  cases ht
  cases (show number = number' from hn)
  cases (show slot = slot' from hs)
  rfl

/-! ## The next record of a page -/

namespace Scan

variable {p : Page} {slot i : Nat} {r : Record}

theorem drop_range (n slot : Nat) : (List.range n).drop slot = List.range' slot (n - slot) := by
  rw [List.range_eq_range', List.drop_range', Nat.zero_add, Nat.mul_one]

/-- **The record that is found is the first one** in the slot or behind it. -/
theorem first_of_some (h : recordFrom? p slot = some (i, r)) :
    slot ≤ i ∧ i < p.slots.length ∧ p.record? i = some r ∧ ∀ j, slot ≤ j → j < i → p.record? j = none := by
  unfold recordFrom? at h
  rw [drop_range] at h
  obtain ⟨before, k, behind, hsplit, hk, hbefore⟩ := List.findSome?_eq_some_iff.1 h
  obtain ⟨r', hr, hir⟩ := Option.map_eq_some_iff.1 hk
  cases hir
  have hmem : ∀ j, slot ≤ j ∧ j < slot + (p.slots.length - slot) ↔ j ∈ before ++ i :: behind := by
    intro j
    rw [← hsplit, List.mem_range'_1]
  obtain ⟨hle, hlt⟩ := (hmem i).2 (List.mem_append_right _ List.mem_cons_self)
  refine ⟨hle, by omega, hr, fun j hj hji => ?_⟩
  -- the numbers behind it are larger
  have hsorted : (before ++ i :: behind).Pairwise (· < ·) := hsplit ▸ List.pairwise_lt_range'
  rcases List.mem_append.1 ((hmem j).1 ⟨hj, by omega⟩) with hb | hb
  · exact Option.map_eq_none_iff.1 (hbefore j hb)
  · rcases List.mem_cons.1 hb with rfl | hb
    · exact absurd hji (lt_irrefl _)
    · have := (List.pairwise_cons.1 (List.pairwise_append.1 hsorted).2.1).1 j hb
      omega

theorem none_of_none (h : recordFrom? p slot = none) {j : Nat} (hj : slot ≤ j) : p.record? j = none := by
  unfold recordFrom? at h
  rw [drop_range, List.findSome?_eq_none_iff] at h
  rcases Nat.lt_or_ge j p.slots.length with hlt | hge
  · exact Option.map_eq_none_iff.1 (h j (List.mem_range'_1.2 ⟨hj, by omega⟩))
  · unfold Page.record? Page.row?
    rw [List.getElem?_eq_none hge]
    rfl

end Scan

/-! ## What is in a slot -/

namespace Engine

variable {e e' : Engine} {tx : TxId} {table : TableId} {file : TableFile} {place : RecordId} {r : Record} {p : Page}

/-- The record in a slot as it is seen. -/
def recordAt (e : Engine) (place : RecordId) : Option Record :=
  match e.seen place.page with
  | .ok p => p.record? place.slot
  | .error _ => none

theorem recordAt_of_seen (hp : e.seen place.page = .ok p) : e.recordAt place = p.record? place.slot := by
  unfold recordAt
  rw [hp]

/-- A record that is seen carries its place. -/
theorem Kempt.place_of_recordAt (h : e.Kempt) (hf : e.file place.page.table = .ok file)
    (hr : e.recordAt place = some r) : r.place = some place := by
  unfold recordAt at hr
  split at hr
  · next p hp =>
    obtain ⟨hid, -⟩ := h.of_seen hp hf
    rw [Page.place_of_record? hr, hid]
  · cases hr

/-- As long as files stay as they are, no page is seen otherwise. -/
theorem Undisturbed.seen_anywhere {id : PageId} (hu : Undisturbed tx e e') (h : e.Kempt) (hd : e'.disk = e.disk)
    (hf : e.file id.table = .ok file) : e'.seen id = e.seen id := by
  rcases Nat.lt_or_ge id.number (e.pages id.table) with hn | hn
  · exact hu.seen h hn
  · -- behind the end of the file there are no copies
    have hnone : ∀ {e : Engine}, e.Kempt → e.file id.table = .ok file → e.pages id.table ≤ id.number →
        e.seen id = e.stored id := by
      intro e h hf hn
      refine seen_of_none (Option.eq_none_iff_forall_ne_some.2 fun f hm => ?_)
      exact absurd (h.inFile hf hm) (Nat.not_lt.2 hn)
    have hn' : e'.pages id.table ≤ id.number := by
      rw [pages_of_disk hu.catalog hd]
      exact hn
    rw [hnone h hf hn, hnone hu.kempt ((hu.file_eq _).trans hf) hn']
    unfold Engine.stored
    rw [hu.file_eq, hd]

theorem Undisturbed.recordAt (hu : Undisturbed tx e e') (h : e.Kempt) (hd : e'.disk = e.disk)
    (hf : e.file place.page.table = .ok file) : e'.recordAt place = e.recordAt place := by
  unfold Engine.recordAt
  rw [hu.seen_anywhere h hd hf]

end Engine

/-! ## One step -/

namespace Scan

variable {s s' : Scan} {e e' : Engine} {r : Record} {item : Option (Except AccessFault Record)} {place : RecordId}

/-- Where a scan is: it gives no record before this place. -/
def cursor (s : Scan) : ℕ ×ₗ ℕ := toLex (s.number, s.slot)

/-- The slot is on one of the pages that the scan visits. -/
def Covers (s : Scan) (place : RecordId) : Prop :=
  place.page.table = s.file.table ∧ place.page.number < s.pageCount

theorem Covers.page_eq {k : Nat} (h : s.Covers place) (hk : place.page.number = k) : place.page = s.file.pageId k := by
  show place.page = ⟨s.file.table, k⟩
  rw [← h.1, ← hk]

theorem cursor_place_le_iff {k slot : Nat} : (s.place k slot).cursor ≤ place.rank ↔
    k < place.page.number ∨ k = place.page.number ∧ slot ≤ place.slot :=
  Prod.Lex.toLex_le_toLex

/-- What one step comes to: the scan ends, for good, or it gives the first record at the cursor or behind it. -/
inductive Forward (s : Scan) (e : Engine) : Option (Except AccessFault Record) × Scan × Engine → Prop where
  | ended {s' : Scan} {e' : Engine} (hd : s'.done = true)
    (hrest : ∀ {place : RecordId}, s.Covers place → s.cursor ≤ place.rank → e.recordAt place = none) :
    Forward s e (none, s', e')
  | failed {fault : AccessFault} {s' : Scan} {e' : Engine} (hd : s'.done = true) :
    Forward s e (some (.error fault), s', e')
  | gave {place : RecordId} {r : Record} {e' : Engine} (hp : s.Covers place)
    (hslot : place.slot < s.file.schema.slotCount s.file.pageSize) (hle : s.cursor ≤ place.rank)
    (hr : e.recordAt place = some r)
    (hskip : ∀ {place' : RecordId}, s.Covers place' → s.cursor ≤ place'.rank → place'.rank < place.rank →
      e.recordAt place' = none) : Forward s e (some (.ok r), s.place place.page.number (place.slot + 1), e')

/-- On a page without a record at the cursor or behind it nothing is missed. -/
theorem Forward.pass {k slot : Nat} {p : Page} {out : Option (Except AccessFault Record) × Scan × Engine}
    (hp : e.seen (s.file.pageId k) = .ok p) (hnone : recordFrom? p slot = none)
    (hsame : ∀ {place : RecordId}, s.Covers place → e'.recordAt place = e.recordAt place)
    (h : Forward (s.place (k + 1) 0) e' out) : Forward (s.place k slot) e out := by
  -- a place at the cursor or behind it is on this page, or on a later one
  have hbehind : ∀ {place : RecordId}, s.Covers place → (s.place k slot).cursor ≤ place.rank →
      e.recordAt place = none ∨ (s.place (k + 1) 0).cursor ≤ place.rank := by
    intro place hc hle
    rcases cursor_place_le_iff.1 hle with hlt | ⟨he, hs⟩
    · exact .inr (cursor_place_le_iff.2 (by omega))
    · rw [← hc.page_eq he.symm] at hp
      rw [Engine.recordAt_of_seen hp]
      exact .inl (none_of_none hnone hs)
  cases h with
  | ended hd hrest =>
    refine .ended hd fun hc hle => ?_
    rcases hbehind hc hle with hn | hle
    · exact hn
    · rw [← hsame hc]
      exact hrest hc hle
  | failed hd => exact .failed hd
  | gave hc hslot hle hr hskip =>
    refine .gave (s := s.place k slot) hc hslot ?_ ((hsame hc).symm.trans hr) fun hc' hle' hlt => ?_
    · have hle := cursor_place_le_iff.1 hle
      exact cursor_place_le_iff.2 (by omega)
    · rcases hbehind hc' hle' with hn | hle'
      · exact hn
      · rw [← hsame hc']
        exact hskip hc' hle' hlt

/-- **One step gives the first record at the cursor or behind it**, if it is not the end. -/
theorem next_forward (len : Nat) : ∀ (k slot : Nat) {e : Engine}, e.Kempt → e.file s.file.table = .ok s.file →
    k + len = s.pageCount → Forward (s.place k slot) e ((s.place k slot).next e) := by
  induction len with
  | zero =>
    intro k slot e h hf hk
    rw [next_end (by omega)]
    refine .ended rfl fun {place} hc hle => ?_
    have hn : place.page.number < s.pageCount := hc.2
    have hle := cursor_place_le_iff.1 hle
    omega
  | succ len ih =>
    intro k slot e h hf hk
    have hkn : k < s.pageCount := by omega
    cases hfetch : e.fetch s.tx (s.file.pageId k) .shared with
    | mk result e' =>
    cases result with
    | error fault =>
      rw [next_error hkn hfetch]
      exact .failed rfl
    | ok f =>
      obtain ⟨hu, hd, hfind, -⟩ := h.fetch_ok hfetch
      have hseen' : e'.seen (s.file.pageId k) = .ok f.page := Engine.seen_of_find? hfind
      have hsame : ∀ {place : RecordId}, s.Covers place → e'.recordAt place = e.recordAt place :=
        fun hc => hu.recordAt h hd (hc.1 ▸ hf)
      have hf' : e'.file s.file.table = .ok s.file := (hu.file_eq _).trans hf
      obtain ⟨-, hschema, hsize, -⟩ := hu.kempt.of_seen hseen' hf'
      have hseen : e.seen (s.file.pageId k) = .ok f.page := (hu.seen_anywhere h hd hf).symm.trans hseen'
      cases hr : recordFrom? f.page slot with
      | none =>
        rw [next_page hkn hfetch hr]
        exact (ih (k + 1) 0 hu.kempt hf' (by omega)).pass hseen hr hsame
      | some found =>
        obtain ⟨i, r⟩ := found
        rw [next_record hkn hfetch hr]
        obtain ⟨hle, hlt, hrec, hfirst⟩ := first_of_some hr
        have hat : ∀ {place : RecordId}, place.page = s.file.pageId k →
            e.recordAt place = f.page.record? place.slot :=
          fun hp => Engine.recordAt_of_seen (hp ▸ hseen)
        have hc : (s.place k slot).Covers ⟨s.file.pageId k, i⟩ := ⟨rfl, hkn⟩
        refine .gave hc ?_ ?_ ((hat rfl).trans hrec) ?_
        · rw [f.page.length_slots, hschema, hsize] at hlt
          exact hlt
        · exact cursor_place_le_iff.2 (.inr ⟨rfl, hle⟩)
        · intro place hc hle' hlt'
          have hle' := cursor_place_le_iff.1 hle'
          have hlt' : place.page.number < k ∨ place.page.number = k ∧ place.slot < i := RecordId.rank_lt_iff.1 hlt'
          have hpage : place.page = s.file.pageId k := Covers.page_eq (s := s) hc (by omega)
          rw [hat hpage]
          exact hfirst _ (by omega) (by omega)

/-! ## All steps -/

/-- A step of a scan: the engine at which it is taken, and what it gives. -/
structure Turn where
  engine : Engine
  item : Option (Except AccessFault Record)

/-- The record that a step gives. -/
def Turn.record? (t : Turn) : Option Record :=
  match t.item with
  | some (.ok r) => some r
  | _ => none

/-- The records that some steps give. -/
def given (turns : List Turn) : List Record := turns.filterMap Turn.record?

/-- The steps of a scan, each after some requests. -/
def turns : Scan → Engine → List (List Request) → List Turn
  | _, _, [] => []
  | s, e, round :: rounds =>
    let e := e.serveAll round
    ⟨e, (s.next e).1⟩ :: turns (s.next e).2.1 (s.next e).2.2 rounds

/-- The scan and the engine after these steps. -/
def after : Scan → Engine → List (List Request) → Scan × Engine
  | s, e, [] => (s, e)
  | s, e, round :: rounds => after (s.next (e.serveAll round)).2.1 (s.next (e.serveAll round)).2.2 rounds

variable {t : Turn} {turns : List Turn} {round : List Request} {rounds : List (List Request)}

theorem given_cons_ok (hi : t.item = some (.ok r)) : given (t :: turns) = r :: given turns := by
  unfold given
  rw [List.filterMap_cons_some]
  unfold Turn.record?
  rw [hi]

/-- Steps that give no record. -/
theorem given_eq_nil (h : ∀ t ∈ turns, ∀ r, t.item ≠ some (.ok r)) : given turns = [] := by
  refine List.filterMap_eq_nil_iff.2 fun t ht => ?_
  unfold Turn.record?
  split
  · next r hr => exact absurd hr (h t ht r)
  · rfl

theorem turns_cons (hn : s.next (e.serveAll round) = (item, s', e')) :
    s.turns e (round :: rounds) = ⟨e.serveAll round, item⟩ :: s'.turns e' rounds := by
  show (⟨e.serveAll round, _⟩ : Turn) :: _ = _
  rw [hn]

theorem after_cons (hn : s.next (e.serveAll round) = (item, s', e')) :
    s.after e (round :: rounds) = s'.after e' rounds := by
  show after (s.next (e.serveAll round)).2.1 (s.next (e.serveAll round)).2.2 rounds = _
  rw [hn]

/-- **A scan that has ended gives nothing more.** -/
theorem turns_done (hd : s.done = true) (rounds : List (List Request)) : ∀ e : Engine,
    (∀ t ∈ s.turns e rounds, t.item = none) ∧ (s.after e rounds).1 = s := by
  induction rounds with
  | nil => exact fun _ => ⟨nofun, rfl⟩
  | cons round rounds ih =>
    intro e
    have hnext : s.next (e.serveAll round) = (none, s, e.serveAll round) := by
      unfold next
      rw [if_pos hd]
    obtain ⟨hitems, hafter⟩ := ih (e.serveAll round)
    rw [turns_cons hnext, after_cons hnext]
    exact ⟨List.forall_mem_cons.2 ⟨rfl, hitems⟩, hafter⟩

/-- Steps that lead a scan to where it is then: they give the first record at the cursor or behind it, again and again,
until the end of the scan, and then nothing. -/
inductive Passes : Scan → List Turn → Scan → Prop where
  | still {s : Scan} (hd : s.done = false) : Passes s [] s
  | ended {s s' : Scan} {t : Turn} {turns : List Turn} (hi : ∀ r, t.item ≠ some (.ok r)) (hd : s'.done = true)
    (hrest : t.item = none → ∀ {place : RecordId}, s.Covers place → s.cursor ≤ place.rank →
      t.engine.recordAt place = none) (hnone : ∀ t ∈ turns, t.item = none) : Passes s (t :: turns) s'
  | gave {s s' : Scan} {t : Turn} {turns : List Turn} {place : RecordId} {r : Record} (hi : t.item = some (.ok r))
    (hp : r.place = some place) (hc : s.Covers place)
    (hslot : place.slot < s.file.schema.slotCount s.file.pageSize) (hle : s.cursor ≤ place.rank)
    (hr : t.engine.recordAt place = some r)
    (hskip : ∀ {place' : RecordId}, s.Covers place' → s.cursor ≤ place'.rank → place'.rank < place.rank →
      t.engine.recordAt place' = none)
    (h : Passes (s.place place.page.number (place.slot + 1)) turns s') : Passes s (t :: turns) s'

/-- **All steps of a scan pass its table**, whatever is asked between them. -/
theorem passes (rounds : List (List Request)) : ∀ {s : Scan} {e : Engine}, s.done = false → s.number ≤ s.pageCount →
    (∀ t ∈ s.turns e rounds, t.engine.Kempt ∧ t.engine.file s.file.table = .ok s.file) →
      Passes s (s.turns e rounds) (s.after e rounds).1 := by
  induction rounds with
  | nil => exact fun hd _ _ => .still hd
  | cons round rounds ih =>
    intro s e hd hn h
    obtain ⟨⟨hk, hf⟩, -⟩ := List.forall_mem_cons.1 h
    have hk : (e.serveAll round).Kempt := hk
    have hf : (e.serveAll round).file s.file.table = .ok s.file := hf
    have hplace : s.place s.number s.slot = s := by
      unfold place
      rw [← hd]
    have hstep := next_forward (s := s) (s.pageCount - s.number) s.number s.slot hk hf (by omega)
    rw [hplace] at hstep
    cases hnext : s.next (e.serveAll round) with
    | mk item rest =>
    obtain ⟨s', e'⟩ := rest
    rw [turns_cons hnext] at h ⊢
    rw [after_cons hnext]
    obtain ⟨-, htail⟩ := List.forall_mem_cons.1 h
    have hstep : Forward s (e.serveAll round) (item, s', e') := hnext ▸ hstep
    cases hstep with
    | ended hd' hrest =>
      obtain ⟨hnone, hafter⟩ := turns_done hd' rounds e'
      rw [hafter]
      exact .ended nofun hd' (fun _ => hrest) hnone
    | failed hd' =>
      obtain ⟨hnone, hafter⟩ := turns_done hd' rounds e'
      rw [hafter]
      exact .ended nofun hd' nofun hnone
    | gave hc hslot hle hr hskip =>
      exact .gave rfl (hk.place_of_recordAt (hc.1 ▸ hf) hr) hc hslot hle hr hskip (ih rfl hc.2.le htail)

theorem lt_of_cursor_le {a b : RecordId} (h : (s.place a.page.number (a.slot + 1)).cursor ≤ b.rank) :
    a.rank < b.rank := by
  have := cursor_place_le_iff.1 h
  exact RecordId.rank_lt_iff.2 (by omega)

namespace Passes

/-- **What a step gives is in its slot**, on one of the pages of the scan, at the cursor or behind it. -/
theorem shown (h : Passes s turns s') : ∀ t ∈ turns, ∀ r, t.item = some (.ok r) → ∃ place, r.place = some place ∧
    s.Covers place ∧ place.slot < s.file.schema.slotCount s.file.pageSize ∧ s.cursor ≤ place.rank ∧
    t.engine.recordAt place = some r := by
  induction h with
  | still => exact nofun
  | ended hi _ _ hnone =>
    refine List.forall_mem_cons.2 ⟨fun r hr => absurd hr (hi r), fun t ht r hr => ?_⟩
    rw [hnone t ht] at hr
    cases hr
  | @gave s _ _ _ place r hi hp hc hslot hle hr _ _ ih =>
    refine List.forall_mem_cons.2 ⟨fun r' hr' => ?_, fun t ht r' hr' => ?_⟩
    · rw [hi] at hr'
      cases hr'
      exact ⟨place, hp, hc, hslot, hle, hr⟩
    · obtain ⟨place', hp', hc', hslot', hle', hrec⟩ := ih t ht r' hr'
      exact ⟨place', hp', hc', hslot', hle.trans (lt_of_cursor_le hle').le, hrec⟩

/-- A record that was given has a place. -/
theorem mem_given (h : Passes s turns s') (hr : r ∈ given turns) : ∃ place, r.place = some place ∧ s.Covers place ∧
    place.slot < s.file.schema.slotCount s.file.pageSize ∧ s.cursor ≤ place.rank := by
  obtain ⟨t, ht, hitem⟩ := List.mem_filterMap.1 hr
  unfold Turn.record? at hitem
  split at hitem
  · next r' hr' =>
    cases hitem
    obtain ⟨place, hp, hc, hslot, hle, -⟩ := h.shown t ht r hr'
    exact ⟨place, hp, hc, hslot, hle⟩
  · cases hitem

/-- **Records are given in their order.** -/
theorem ascending (h : Passes s turns s') :
    (given turns).Pairwise fun a b => ∃ p q, a.place = some p ∧ b.place = some q ∧ p.rank < q.rank := by
  induction h with
  | still => exact .nil
  | ended hi _ _ hnone =>
    rw [given_eq_nil (List.forall_mem_cons.2 ⟨hi, fun t ht r => by rw [hnone t ht]; nofun⟩)]
    exact .nil
  | @gave s _ _ _ place r hi hp _ _ _ _ _ h ih =>
    rw [given_cons_ok hi]
    refine List.pairwise_cons.2 ⟨fun r' hr' => ?_, ih⟩
    obtain ⟨place', hp', -, -, hle'⟩ := h.mem_given hr'
    exact ⟨place, place', hp, hp', lt_of_cursor_le hle'⟩

/-- **A step that gives no record is the last one that gives anything.** -/
theorem silent (h : Passes s turns s') :
    turns.Pairwise fun t t' => (∀ r, t.item ≠ some (.ok r)) → t'.item = none := by
  induction h with
  | still => exact .nil
  | ended _ _ _ hnone =>
    refine List.pairwise_cons.2 ⟨fun t' ht' _ => hnone t' ht', ?_⟩
    exact List.pairwise_of_forall_mem_list fun t _ t' ht' _ => hnone t' ht'
  | gave hi _ _ _ _ _ _ _ ih => exact List.pairwise_cons.2 ⟨fun _ _ hn => absurd hi (hn _), ih⟩

/-- **A record that stays in its slot is given once**, by a scan that comes to its end without a fault. -/
theorem given_once {place : RecordId} (h : Passes s turns s') (hd : s'.done = true)
    (hok : ∀ t ∈ turns, ∀ fault, t.item ≠ some (.error fault)) (hc : s.Covers place) (hle : s.cursor ≤ place.rank)
    (hr : ∀ t ∈ turns, t.engine.recordAt place = some r) :
    (given turns).filter (·.place = some place) = [r] := by
  induction h with
  | still hd' =>
    rw [hd'] at hd
    cases hd
  | @ended s _ t _ hi _ hrest _ =>
    have ht : t.item = none := by
      cases hitem : t.item with
      | none => rfl
      | some item =>
        cases item with
        | ok r => exact absurd hitem (hi r)
        | error fault => exact absurd hitem (hok t List.mem_cons_self fault)
    have hnone := hrest ht hc hle
    rw [hr t List.mem_cons_self] at hnone
    cases hnone
  | @gave s s' t turns place' r' hi hp hc' _ _ hr' hskip h ih =>
    have hrt := hr t List.mem_cons_self
    have hok := (List.forall_mem_cons.1 hok).2
    have hr := (List.forall_mem_cons.1 hr).2
    rw [given_cons_ok hi]
    rcases lt_trichotomy place'.rank place.rank with hlt | heq | hgt
    · -- it is given later
      have hne : r'.place ≠ some place := by
        rw [hp]
        rintro ⟨⟩
        exact lt_irrefl _ hlt
      have hle' : (s.place place'.page.number (place'.slot + 1)).cursor ≤ place.rank := by
        have := RecordId.rank_lt_iff.1 hlt
        exact cursor_place_le_iff.2 (by omega)
      rw [List.filter_cons_of_neg (by simpa using hne)]
      exact ih hd hok hc hle' hr
    · -- it is given now, and what is given later lies behind it
      have hplace : place' = place := RecordId.rank_inj (hc'.1.trans hc.1.symm) heq
      subst hplace
      rw [hr'] at hrt
      cases hrt
      rw [List.filter_cons_of_pos (by simpa using hp)]
      refine congrArg _ (List.filter_eq_nil_iff.2 fun a ha => ?_)
      obtain ⟨q, hq, -, -, hle'⟩ := h.mem_given ha
      have hlt := lt_of_cursor_le hle'
      rw [decide_eq_true_eq, hq]
      rintro ⟨⟩
      exact lt_irrefl _ hlt
    · -- it would have been passed
      have hnone := hskip hc hle hgt
      rw [hrt] at hnone
      cases hnone

/-- **There are no more records than slots.** -/
theorem length_given_le (h : Passes s turns s') :
    (given turns).length ≤ s.pageCount * s.file.schema.slotCount s.file.pageSize := by
  let slots := s.file.schema.slotCount s.file.pageSize
  let index : Record → Nat := fun r => (r.place.map fun p => p.page.number * slots + p.slot).getD 0
  have hindex : ∀ {r : Record} {p : RecordId}, r.place = some p → index r = p.page.number * slots + p.slot := by
    intro r p hp
    show (r.place.map _).getD 0 = _
    rw [hp]
    rfl
  have hbound : ∀ r ∈ given turns, index r < s.pageCount * slots := by
    intro r hr
    obtain ⟨place, hp, hc, hslot, -⟩ := h.mem_given hr
    have hle : (place.page.number + 1) * slots ≤ s.pageCount * slots := Nat.mul_le_mul_right _ hc.2
    rw [Nat.succ_mul] at hle
    rw [hindex hp]
    exact lt_of_lt_of_le (Nat.add_lt_add_left hslot _) hle
  have hnodup : ((given turns).map index).Nodup := by
    refine List.pairwise_map.2 (List.Pairwise.imp_of_mem ?_ h.ascending)
    rintro a b ha - ⟨p, q, hp, hq, hlt⟩
    obtain ⟨p', hp', -, hslot, -⟩ := h.mem_given ha
    cases hp.symm.trans hp'
    rw [hindex hp, hindex hq]
    rcases RecordId.rank_lt_iff.1 hlt with hlt | ⟨he, hlt⟩
    · have hle : (p.page.number + 1) * slots ≤ q.page.number * slots := Nat.mul_le_mul_right _ hlt
      rw [Nat.succ_mul] at hle
      have hslot : p.slot < slots := hslot
      omega
    · rw [he]
      omega
  have hsub : (given turns).map index ⊆ List.range (s.pageCount * slots) := by
    intro n hn
    obtain ⟨r, hr, rfl⟩ := List.mem_map.1 hn
    exact List.mem_range.2 (hbound r hr)
  have hlen := (List.subperm_of_subset hnodup hsub).length_le
  rw [List.length_map, List.length_range] at hlen
  exact hlen

end Passes

/-! ## From the opening of a scan on -/

/-- A step does not change where a scan begins. -/
theorem rewind_next (s : Scan) (e : Engine) : (s.next e).2.1.rewind = s.rewind := by
  induction s, e using Scan.next.induct with
  | case1 s e hd =>
    unfold next
    rw [if_pos hd]
  | case2 s e hd hn =>
    unfold next
    rw [if_neg hd, if_pos hn]
    rfl
  | case3 s e hd hn fault e' hf =>
    unfold next
    rw [if_neg hd, if_neg hn, hf]
    rfl
  | case4 s e hd hn f e' hf slot r hr =>
    unfold next
    rw [if_neg hd, if_neg hn, hf]
    simp only [hr]
    rfl
  | case5 s e hd hn f e' hf hr ih =>
    unfold next
    rw [if_neg hd, if_neg hn, hf]
    simp only [hr]
    exact ih

theorem rewind_after (rounds : List (List Request)) : ∀ (s : Scan) (e : Engine),
    (s.after e rounds).1.rewind = s.rewind := by
  induction rounds with
  | nil => exact fun _ _ => rfl
  | cons round rounds ih => exact fun s e => (ih _ _).trans (s.rewind_next _)

/-- All that is asked of the engine, the steps of the scan among it. -/
def asked : Scan → Engine → List (List Request) → List Request
  | _, _, [] => []
  | s, e, round :: rounds =>
    round ++ .call (.step s) :: asked (s.next (e.serveAll round)).2.1 (s.next (e.serveAll round)).2.2 rounds

theorem after_eq (rounds : List (List Request)) : ∀ (s : Scan) (e : Engine),
    (s.after e rounds).2 = e.serveAll (s.asked e rounds) := by
  induction rounds with
  | nil => exact fun _ _ => rfl
  | cons round rounds ih =>
    intro s e
    unfold asked
    rw [Engine.serveAll_append]
    exact ih _ _

/-- A step is taken at an engine that has served some of the requests. -/
theorem engine_of_turn (rounds : List (List Request)) : ∀ {s : Scan} {e : Engine}, ∀ t ∈ s.turns e rounds,
    ∃ requests requests', s.asked e rounds = requests ++ requests' ∧ t.engine = e.serveAll requests := by
  induction rounds with
  | nil => exact nofun
  | cons round rounds ih =>
    intro s e
    unfold asked
    refine List.forall_mem_cons.2 ⟨⟨round, _, rfl, rfl⟩, fun t ht => ?_⟩
    obtain ⟨requests, requests', heq, hengine⟩ := ih t ht
    refine ⟨round ++ .call (.step s) :: requests, requests', ?_, ?_⟩
    · rw [heq, List.append_assoc]
      rfl
    · rw [hengine, Engine.serveAll_append]
      rfl

variable {tx : TxId} {table : TableId}

/-- A scan is opened at the first slot of its table, and counts the pages. -/
theorem of_ofTable (h : e.Kempt) (ho : Scan.ofTable e tx table = .ok s) : s.rewind = s ∧ s.tx = tx ∧
    s.file.table = table ∧ e.file table = .ok s.file ∧ s.pageCount = e.pages table := by
  rw [h.present.ofTable_eq] at ho
  cases hc : e.catalog.file table with
  | error cause =>
    rw [hc] at ho
    cases ho
  | ok file =>
    rw [hc] at ho
    cases ho
    have hf := Engine.file_of_catalog hc
    exact ⟨rfl, rfl, h.catalog.own hf, hf, rfl⟩

/-- Requests leave the tables as they are. -/
theorem file_serveAll (e : Engine) (requests : List Request) (table : TableId) :
    (e.serveAll requests).file table = e.file table :=
  Engine.file_congr ((Engine.firm_grows e).serveAll requests (Engine.Outgrows.refl e)).1 table

/-- **The steps of a scan pass its table from its opening on**, whatever is asked between them. -/
theorem passes_of_ofTable (h : e.Live) (ho : Scan.ofTable e tx table = .ok s) (hs : (s.after e rounds).2.Small) :
    Passes s (s.turns e rounds) (s.after e rounds).1 := by
  obtain ⟨hrewind, -, ht, hf, -⟩ := of_ofTable h.kempt ho
  have hd : s.done = false := by rw [← hrewind]; rfl
  have hn : s.number ≤ s.pageCount := by rw [← hrewind]; exact Nat.zero_le _
  refine passes rounds hd hn fun t htm => ?_
  obtain ⟨requests, requests', hasked, hengine⟩ := engine_of_turn rounds t htm
  rw [after_eq, hasked] at hs
  have hlive := h.serveAll requests (Engine.small_of_served h.kempt.present requests requests' hs)
  rw [hengine, file_serveAll, ht]
  exact ⟨hlive.kempt, hf⟩

end Scan

end HeapStore
