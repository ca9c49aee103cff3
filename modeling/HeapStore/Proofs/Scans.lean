import HeapStore.Engine.Scan
import HeapStore.Proofs.Changes

/-!
# Scanning

A scan that is drained gives the records of the pages that the transaction sees, page by page, or those of the
first pages and then one fault.

* `View.listing`: the records of the first pages of a table, as a transaction sees them.
* `Scan.next_record`, `Scan.next_page` and the other equations: one step of a scan.
* `Engine.next_stepping`: one step gives a record that the transaction sees, or a fault.
* `Engine.drain_page`: the steps on one page give the records of this page.
* `Engine.scan_scanning`: **all steps give the listing of the table.** A scan that gives no fault has visited all
  pages, and the transaction holds them.
-/

namespace HeapStore

/-! ## Records of a page -/

namespace Page

variable {p : Page} {slot i : Nat} {r : Record}

/-- The records of a page in the given slot and behind it. -/
def recordsFrom (p : Page) (slot : Nat) : List Record := ((List.range p.slots.length).drop slot).filterMap p.record?

theorem filterMap_zipIdx {α β : Type} (g : Nat → α → β) (l : List (Option α)) : ∀ k,
    (l.zipIdx k).filterMap (fun (a, i) => a.map (g i)) =
      (List.range' k l.length).filterMap fun i => (l[i - k]?.join).map (g i) := by
  induction l with
  | nil =>
    intro k
    rfl
  | cons a l ih =>
    intro k
    have hrest : (List.range' (k + 1) l.length).filterMap (fun i => ((a :: l)[i - k]?.join).map (g i)) =
        (List.range' (k + 1) l.length).filterMap fun i => (l[i - (k + 1)]?.join).map (g i) := by
      apply List.filterMap_congr
      intro i hi
      have hk := (List.mem_range'_1.1 hi).1
      rw [show i - k = (i - (k + 1)) + 1 by omega, List.getElem?_cons_succ]
    rw [List.zipIdx_cons, List.length_cons, List.range'_succ, List.filterMap_cons, List.filterMap_cons, ih, hrest,
      Nat.sub_self]
    rfl

theorem recordsFrom_zero (p : Page) : p.recordsFrom 0 = p.records := by
  unfold recordsFrom records record? row?
  rw [filterMap_zipIdx p.recordAt p.slots 0, List.range_eq_range']
  rfl

/-- The search for the next record takes the first one off the list. -/
theorem recordsFrom_of_some (h : Scan.recordFrom? p slot = some (i, r)) :
    p.recordsFrom slot = r :: p.recordsFrom (i + 1) := by
  induction hd : p.slots.length - slot generalizing slot with
  | zero =>
    unfold Scan.recordFrom? at h
    rw [List.drop_of_length_le (by rw [List.length_range]; omega)] at h
    cases h
  | succ d ih =>
    have hlt : slot < p.slots.length := by omega
    unfold Scan.recordFrom? at h
    unfold recordsFrom
    rw [List.drop_eq_getElem_cons (by rw [List.length_range]; exact hlt), List.getElem_range] at h ⊢
    rw [List.findSome?_cons] at h
    rw [List.filterMap_cons]
    cases hr : p.record? slot with
    | some r' =>
      rw [hr] at h
      cases h
      rfl
    | none =>
      rw [hr] at h
      exact ih h (by omega)

theorem recordsFrom_of_none (h : Scan.recordFrom? p slot = none) : p.recordsFrom slot = [] := by
  unfold Scan.recordFrom? at h
  unfold recordsFrom
  rw [List.findSome?_eq_none_iff] at h
  rw [List.filterMap_eq_nil_iff]
  intro i hi
  have := h i hi
  rwa [Option.map_eq_none_iff] at this

/-- The record that is found is one of the page. -/
theorem mem_records_of_some (h : Scan.recordFrom? p slot = some (i, r)) : r ∈ p.records := by
  have hr : r ∈ p.recordsFrom slot := by
    rw [recordsFrom_of_some h]
    exact List.mem_cons_self
  rw [← recordsFrom_zero]
  exact ((List.drop_sublist slot _).filterMap p.record?).subset hr

theorem length_records_le (p : Page) : p.records.length ≤ p.schema.slotCount p.size := by
  unfold records
  refine (List.length_filterMap_le _ _).trans ?_
  rw [List.length_zipIdx, p.length_slots]

end Page

/-! ## Steps -/

namespace Scan

variable {s : Scan} {e e' : Engine} {k slot i : Nat} {f : Frame} {r : Record} {fault : AccessFault}

/-- The scan at a place of its table. -/
def place (s : Scan) (k slot : Nat) : Scan := { s with number := k, slot, done := false }

theorem next_end (h : s.pageCount ≤ k) : (s.place k slot).next e = (none, (s.place k slot).finish, e) := by
  unfold next place
  simp only [Bool.false_eq_true, if_false]
  rw [if_pos h]

theorem next_error (h : k < s.pageCount) (hf : e.fetch s.tx (s.file.pageId k) .shared = (.error fault, e')) :
    (s.place k slot).next e = (some (.error fault), (s.place k slot).finish, e') := by
  unfold next place
  simp only [Bool.false_eq_true, if_false]
  rw [if_neg (by omega), hf]

theorem next_record (h : k < s.pageCount) (hf : e.fetch s.tx (s.file.pageId k) .shared = (.ok f, e'))
    (hr : recordFrom? f.page slot = some (i, r)) :
    (s.place k slot).next e = (some (.ok r), s.place k (i + 1), e') := by
  unfold next place
  simp only [Bool.false_eq_true, if_false]
  rw [if_neg (by omega), hf]
  simp only [hr]

theorem next_page (h : k < s.pageCount) (hf : e.fetch s.tx (s.file.pageId k) .shared = (.ok f, e'))
    (hr : recordFrom? f.page slot = none) : (s.place k slot).next e = (s.place (k + 1) 0).next e' := by
  rw [next]
  unfold place
  simp only [Bool.false_eq_true, if_false]
  rw [if_neg (by omega), hf]
  simp only [hr]

theorem items_finish (n : Nat) : items n s.finish e = ([], s.finish, e) := by
  cases n with
  | zero => rfl
  | succ n =>
    have hd : s.finish.done = true := rfl
    unfold items next
    rw [if_pos hd]

end Scan

/-! ## Listings -/

namespace View

variable (v : View)

/-- The records of a page as a transaction sees it. -/
def recordsOn (id : PageId) : List Record :=
  match v.page id with
  | .ok p => p.records
  | .error _ => []

/-- The records of pages of a table, one page after another. -/
def recordsOf (table : TableId) (numbers : List Nat) : List Record :=
  numbers.flatMap fun k => v.recordsOn ⟨table, k⟩

/-- The records of the first pages of a table. -/
def listing (table : TableId) (n : Nat) : List Record := v.recordsOf table (List.range n)

variable {v}

theorem recordsOf_range' (table : TableId) (n : Nat) :
    v.recordsOf table (List.range' 0 (n - 0)) = v.listing table n := by
  rw [Nat.sub_zero, ← List.range_eq_range']
  rfl

theorem recordsOn_of_ok {id : PageId} {p : Page} (h : v.page id = .ok p) : v.recordsOn id = p.records := by
  unfold recordsOn
  rw [h]

end View

namespace Engine

variable {e e' e1 : Engine} {s : Scan} {tx : TxId} {id : PageId} {k n : Nat} {f : Frame} {fault : AccessFault}
  {table : TableId}

/-- What comes of draining a scan of `n` pages from page `k` on. -/
inductive Draining (tx : TxId) (table : TableId) (n k : Nat) (e : Engine) :
    List (Except AccessFault Record) → Engine → Prop where
  | all {e' : Engine} (hq : Quiet tx e e')
    (hp : ∀ j, k ≤ j → j < n → (∃ p, (e.view tx).page ⟨table, j⟩ = .ok p) ∧ (e'.locks.mode? tx ⟨table, j⟩).isSome) :
    Draining tx table n k e (((e.view tx).recordsOf table (List.range' k (n - k))).map .ok) e'
  | cut {e' : Engine} {fault : AccessFault} {j : Nat} (hk : k ≤ j) (hj : j < n)
    (hp : ∀ i, k ≤ i → i < j → ∃ p, (e.view tx).page ⟨table, i⟩ = .ok p)
    (hf : Fails tx fault (e.Lacks tx ⟨table, j⟩) e e') :
    Draining tx table n k e
      (((e.view tx).recordsOf table (List.range' k (j - k))).map .ok ++ [.error fault]) e'

/-- What comes of a scan of a table. -/
inductive Scanning (tx : TxId) (table : TableId) (e : Engine) :
    Outcome EngineFault (List (Except AccessFault Record)) → Prop where
  | drained {items : List (Except AccessFault Record)} {e' : Engine}
    (h : Draining tx table (e.pages table) 0 e items e') : Scanning tx table e (.ok items, e')
  | closed {fault : EngineFault} (ha : fault.aborts = false) (hf : ∃ fault, e.file table = .error fault) :
    Scanning tx table e (.error fault, e)

/-- What comes of one step of a scan: a record that the transaction sees or the end, or a fault. -/
inductive Stepping (s : Scan) (e : Engine) : Option (Except AccessFault Record) × Scan × Engine → Prop where
  | gave {item : Option Record} {s' : Scan} {e' : Engine} (hq : Quiet s.tx e e')
    (hr : ∀ r, item = some r → ∃ k, r ∈ (e.view s.tx).recordsOn ⟨s.file.table, k⟩) :
    Stepping s e (item.map .ok, s', e')
  | failed {fault : AccessFault} {s' : Scan} {e' : Engine} (hf : Fails s.tx fault True e e') :
    Stepping s e (some (.error fault), s', e')

theorem stepping_none (h : e.Sound) (s s' : Scan) : Stepping s e (none, s', e) := by
  show Stepping s e ((none : Option Record).map .ok, s', e)
  refine .gave (Quiet.refl h s.tx) fun r hr => ?_
  cases hr

/-- **One step of a scan gives a record that the transaction sees**, or its end, or a fault. -/
theorem next_stepping (s : Scan) (e : Engine) (h : e.Sound) : Stepping s e (s.next e) := by
  induction s, e using Scan.next.induct with
  | case1 s e hd =>
    unfold Scan.next
    rw [if_pos hd]
    exact stepping_none h s s
  | case2 s e hd hn =>
    unfold Scan.next
    rw [if_neg hd, if_pos hn]
    exact stepping_none h s s.finish
  | case3 s e hd hn fault e' hf =>
    unfold Scan.next
    rw [if_neg hd, if_neg hn, hf]
    exact .failed ((Quiet.refl h s.tx).fails (fetch_error h hf) fun _ => trivial)
  | case4 s e hd hn f e' hf slot r hr =>
    have hfetch := fetch_ok h hf
    unfold Scan.next
    rw [if_neg hd, if_neg hn, hf]
    simp only [hr]
    have hpage : (e.view s.tx).page ⟨s.file.table, s.number⟩ = .ok f.page := hfetch.page
    have hmem : r ∈ (e.view s.tx).recordsOn ⟨s.file.table, s.number⟩ := by
      rw [View.recordsOn_of_ok hpage]
      exact Page.mem_records_of_some hr
    show Stepping s e ((some r).map .ok, _, e')
    refine .gave hfetch.toQuiet fun r' hr' => ?_
    cases hr'
    exact ⟨s.number, hmem⟩
  | case5 s e hd hn f e' hf hr ih =>
    have hfetch := fetch_ok h hf
    -- the page has no more records, so the step goes on from the next page
    have hstep : s.next e = Scan.next { s with number := s.number + 1, slot := 0 } e' := by
      rw [Scan.next]
      rw [if_neg hd, if_neg hn, hf]
      simp only [hr]
    rw [hstep]
    have hrest := ih hfetch.sound
    generalize Scan.next { s with number := s.number + 1, slot := 0 } e' = o at hrest
    cases hrest with
    | gave hq hrec =>
      refine .gave (hfetch.toQuiet.trans hq) fun r hr => ?_
      rw [← hfetch.toQuiet.view_eq s.tx]
      exact hrec r hr
    | failed hfail => exact .failed (hfetch.toQuiet.fails hfail fun _ => trivial)

/-- A page that the transaction holds and that has a copy is fetched again. -/
theorem fetch_again (h : e.Sound) (hf : e.cache.find? id = some f) (hm : (e.locks.mode? tx id).isSome) :
    ∃ e', e.fetch tx id .shared = (.ok f, e') := by
  -- a transaction that holds a page is not denied a shared lock on it
  have hallow : e.locks.Allows tx id .shared := by
    intro tx' ht
    cases hm' : e.locks.mode? tx' id with
    | none => exact .inl rfl
    | some mode =>
      cases mode with
      | shared => exact .inr ⟨rfl, rfl⟩
      | exclusive =>
        rw [LockTable.exclusive_alone hm' (Ne.symm ht)] at hm
        cases hm
  obtain ⟨locks, hg⟩ := Option.isSome_iff_exists.1 ((LockTable.isSome_grant?_iff h.locks).2 hallow)
  rw [fetch_granted hg]
  unfold load
  simp only [hf]
  exact ⟨_, rfl⟩

/-- **The steps on one page give its records from a slot on**, and lead to the next page. -/
theorem drain_page (hk : k < s.pageCount) (d : Nat) : ∀ (slot : Nat) {e e1 : Engine}, e.Sound →
    e.fetch s.tx (s.file.pageId k) .shared = (.ok f, e1) → (f.page.recordsFrom slot).length = d →
    ∃ e2, Quiet s.tx e e2 ∧ (e2.locks.mode? s.tx (s.file.pageId k)).isSome ∧ e2.disk = e.disk ∧
      ∀ m, Scan.items (d + (m + 1)) (s.place k slot) e =
        (let (rest, s', e') := Scan.items (m + 1) (s.place (k + 1) 0) e2
        ((f.page.recordsFrom slot).map .ok ++ rest, s', e')) := by
  induction d with
  | zero =>
    intro slot e e1 h hf hd
    have hfetch := fetch_ok h hf
    have hnone : Scan.recordFrom? f.page slot = none := by
      cases hr : Scan.recordFrom? f.page slot with
      | none => rfl
      | some ir =>
        rw [Page.recordsFrom_of_some hr] at hd
        cases hd
    refine ⟨e1, hfetch.toQuiet, hfetch.held, hfetch.disk, fun m => ?_⟩
    rw [Page.recordsFrom_of_none hnone, Nat.zero_add]
    unfold Scan.items
    rw [Scan.next_page hk hf hnone]
    rfl
  | succ d ih =>
    intro slot e e1 h hf hd
    have hfetch := fetch_ok h hf
    cases hr : Scan.recordFrom? f.page slot with
    | none =>
      rw [Page.recordsFrom_of_none hr] at hd
      cases hd
    | some ir =>
      obtain ⟨i, r⟩ := ir
      have hrec := Page.recordsFrom_of_some hr
      rw [hrec, List.length_cons] at hd
      -- the next step finds the page again, since the scan holds it
      obtain ⟨e1', hf'⟩ := fetch_again hfetch.sound hfetch.found hfetch.held
      obtain ⟨e2, hq, hm, hdisk, hrun⟩ := ih (i + 1) hfetch.sound hf' (Nat.succ.inj hd)
      refine ⟨e2, hfetch.toQuiet.trans hq, hm, hdisk.trans hfetch.disk, fun m => ?_⟩
      rw [show d + 1 + (m + 1) = (d + (m + 1)) + 1 by omega]
      have hstep : Scan.items ((d + (m + 1)) + 1) (s.place k slot) e =
          (let (rest, s', e') := Scan.items (d + (m + 1)) (s.place k (i + 1)) e1
          (.ok r :: rest, s', e')) := by
        rw [Scan.items, Scan.next_record hk hf hr]
      rw [hstep, hrun m, hrec]
      rfl

/-- The listing of pages begins with that of the first one. -/
theorem recordsOf_succ {p : Page} (hpage : (e.view tx).page ⟨table, k⟩ = .ok p) {j : Nat} (hj : k < j) :
    (e.view tx).recordsOf table (List.range' k (j - k)) =
      p.records ++ (e.view tx).recordsOf table (List.range' (k + 1) (j - (k + 1))) := by
  rw [show j - k = (j - (k + 1)) + 1 by omega]
  unfold View.recordsOf
  rw [List.range'_succ, List.flatMap_cons, View.recordsOn_of_ok hpage]

/-- A scan that has given one page whole goes on with the pages behind it. -/
theorem Draining.cons {e2 : Engine} {p : Page} {items : List (Except AccessFault Record)} (hk : k < n)
    (hpage : (e.view tx).page ⟨table, k⟩ = .ok p) (hq : Quiet tx e e2) (hdisk : e2.disk = e.disk)
    (hmode : (e2.locks.mode? tx ⟨table, k⟩).isSome) (hrest : Draining tx table n (k + 1) e2 items e') :
    Draining tx table n k e (p.records.map .ok ++ items) e' := by
  have hv := hq.view_eq tx
  cases hrest with
  | all hq' hp =>
    rw [hv, ← List.map_append, ← recordsOf_succ hpage hk]
    refine .all (hq.trans hq') fun j hj hj' => ?_
    rcases Nat.eq_or_lt_of_le hj with rfl | hj
    · exact ⟨⟨p, hpage⟩, hq'.own _ hmode⟩
    · have := hp j hj hj'
      rw [hv] at this
      exact this
  | @cut _ fault j hkj hj hp hfail =>
    rw [hv, ← List.append_assoc, ← List.map_append, ← recordsOf_succ hpage (by omega)]
    refine .cut (by omega) hj (fun i hi hi' => ?_) (hq.fails hfail (hq.lacks hdisk))
    rcases Nat.eq_or_lt_of_le hi with rfl | hi
    · exact ⟨p, hpage⟩
    · have := hp i hi hi'
      rw [hv] at this
      exact this

/-- **The steps on all pages give the listing**, if they are enough. -/
theorem drain_pages (ht : s.file.table = table) {c : Nat} (len : Nat) : ∀ (k m : Nat) {e : Engine}, e.Sound →
    k + len = s.pageCount → len * c + 1 ≤ m →
    (∀ j p, (e.view s.tx).page ⟨table, j⟩ = .ok p → p.records.length ≤ c) →
    Draining s.tx table s.pageCount k e (Scan.items m (s.place k 0) e).1 (Scan.items m (s.place k 0) e).2.2 := by
  induction len with
  | zero =>
    intro k m e h hk hm _
    obtain ⟨m, rfl⟩ : ∃ m', m = m' + 1 := ⟨m - 1, by omega⟩
    unfold Scan.items
    rw [Scan.next_end (by omega)]
    have hd : Draining s.tx table s.pageCount k e
        (((e.view s.tx).recordsOf table (List.range' k (s.pageCount - k))).map .ok) e :=
      .all (Quiet.refl h s.tx) fun j hj hj' => by omega
    rw [show s.pageCount - k = 0 by omega] at hd
    exact hd
  | succ len ih =>
    intro k m e h hk hm hc
    have hkn : k < s.pageCount := by omega
    have hpid : s.file.pageId k = ⟨table, k⟩ := by rw [← ht]; rfl
    cases hfetch : e.fetch s.tx (s.file.pageId k) .shared with
    | mk o e1 =>
      cases o with
      | error fault =>
        obtain ⟨m, rfl⟩ : ∃ m', m = m' + 1 := ⟨m - 1, by omega⟩
        unfold Scan.items
        rw [Scan.next_error hkn hfetch]
        simp only [Scan.items_finish]
        have hd := Draining.cut (e := e) (n := s.pageCount) (le_refl k) hkn (fun i hi hi' => by omega)
          (by rw [← hpid]; exact fetch_error h hfetch)
        rw [Nat.sub_self] at hd
        exact hd
      | ok f =>
        have hf := fetch_ok h hfetch
        have hpage : (e.view s.tx).page ⟨table, k⟩ = .ok f.page := by rw [← hpid]; exact hf.page
        -- there are steps for the records of this page, one step more, and steps for the other pages
        have hlen := hc k f.page hpage
        have hmul : (len + 1) * c = len * c + c := Nat.succ_mul len c
        obtain ⟨m, rfl⟩ : ∃ m', m = f.page.records.length + (m' + 1) := ⟨m - f.page.records.length - 1, by omega⟩
        obtain ⟨e2, hq, hmode, hdisk, hrun⟩ := drain_page hkn _ 0 h hfetch rfl
        rw [hpid] at hmode
        have hrest := ih (k + 1) (m + 1) hq.sound (by omega) (by omega) (by rw [hq.view_eq s.tx]; exact hc)
        rw [← Page.recordsFrom_zero, hrun m, Page.recordsFrom_zero]
        exact hrest.cons hkn hpage hq hdisk hmode

/-- A scan of a table counts its pages. -/
theorem Present.ofTable_eq (h : e.Present) (tx : TxId) (table : TableId) :
    Scan.ofTable e tx table = match e.catalog.file table with
      | .error cause => .error (.catalog cause)
      | .ok file => .ok { file, tx, pageCount := e.pages table } := by
  unfold Scan.ofTable
  cases hc : e.catalog.file table with
  | error cause => rfl
  | ok file => simp only [h.count (file_of_catalog hc)]

/-- **A scan gives the listing of its table**, or the listing of the first pages and one fault. -/
theorem scan_scanning (h : e.Sound) (tx : TxId) (table : TableId) : Scanning tx table e (e.scan tx table) := by
  unfold scan
  rw [h.present.ofTable_eq]
  cases hc : e.catalog.file table with
  | error cause =>
    refine .closed rfl ⟨.noTable table, ?_⟩
    unfold file Catalog.tableFile
    rw [hc]
    rfl
  | ok file =>
    have hf : e.file table = .ok file := file_of_catalog hc
    let s : Scan := { file, tx, pageCount := e.pages table }
    have hcount : ∀ j p, (e.view tx).page ⟨table, j⟩ = .ok p →
        p.records.length ≤ file.schema.slotCount file.pageSize := by
      intro j p hp
      obtain ⟨-, file', hf', hs, hz⟩ := h.of_view_page hp
      have hf' : e.file table = .ok file' := hf'
      rw [hf] at hf'
      cases hf'
      rw [← hs, ← hz]
      exact p.length_records_le
    have hbound : e.pages table * file.schema.slotCount file.pageSize + 1 ≤ s.bound := Nat.le_succ _
    exact .drained (drain_pages (s := s) (h.catalog.own hf) (e.pages table) 0 s.bound h (Nat.zero_add _) hbound hcount)

end Engine

end HeapStore
