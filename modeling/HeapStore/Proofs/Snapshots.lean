import HeapStore.Proofs.Secures

/-!
# Scans while others work

A scan is opened, and before each of its steps other transactions make calls. The scan locks one page after another,
and others may have changed a page before it comes to it. So what it gives need not have been the state of its pages
before the last of them was locked, but it is their state from then on, and at its end.

* `Scan.among`: the steps of a scan, each after some calls. `Scan.drained`: what a scan has given, if it has come to
  its end.
* `View.ahead`: the records from a place of a table on. `Engine.next_advancing` says that **one step takes the first one
  of them**, and locks the pages that it has looked at.
* `Engine.among_ahead`: **all steps give what is ahead at the end.**
* `Engine.scan_among`: a scan gives exactly the records of **one state of the pages that the table had when it was
  opened.** Pages that were appended since then are not visited, so this is the whole table if there were none at the
  first step.
-/

namespace HeapStore

namespace Scan

/-- The items of a scan whose steps come each after some calls, and the engine at its end. -/
def among : List (List Call) → Scan → Engine → List (Option (Except AccessFault Record)) × Engine
  | [], _, e => ([], e)
  | calls :: rounds, s, e =>
    let (item, s, e) := s.next (e.run calls)
    let (items, e) := among rounds s e
    (item :: items, e)

/-- All engines that there are from the opening of the scan to its end. -/
def trail : List (List Call) → Scan → Engine → List Engine
  | [], _, e => [e]
  | calls :: rounds, s, e =>
    let (_, s', e') := s.next (e.run calls)
    (List.range (calls.length + 1)).map (fun n => e.run (calls.take n)) ++ trail rounds s' e'

/-- The records that a scan has given, if it has then come to its end without a fault. -/
def drained : List (Option (Except AccessFault Record)) → Option (List Record)
  | [none] => some []
  | some (.ok r) :: items => (drained items).map (r :: ·)
  | _ => none

/-- The engine at the end of a scan is the last one of them. -/
theorem among_mem_trail (rounds : List (List Call)) :
    ∀ (s : Scan) (e : Engine), (s.among rounds e).2 ∈ s.trail rounds e := by
  induction rounds with
  | nil => exact fun _ _ => List.mem_singleton_self _
  | cons calls rounds ih => exact fun s e => List.mem_append_right _ (ih _ _)

end Scan

namespace View

variable (v : View) {v' : View} {table : TableId} {id : PageId} {p : Page} {k j len slot : Nat}

/-- The records of a page from a slot on. -/
def recordsFrom (id : PageId) (slot : Nat) : List Record :=
  match v.page id with
  | .ok p => p.recordsFrom slot
  | .error _ => []

/-- The records of `len` pages of a table, from a slot of page `k` on. -/
def ahead (table : TableId) : (len k slot : Nat) → List Record
  | 0, _, _ => []
  | len + 1, k, slot => v.recordsFrom ⟨table, k⟩ slot ++ ahead table len (k + 1) 0

variable {v}

theorem recordsFrom_of_ok (h : v.page id = .ok p) : v.recordsFrom id slot = p.recordsFrom slot := by
  unfold recordsFrom
  rw [h]

theorem ahead_eq (table : TableId) (len : Nat) : ∀ k, v.ahead table len k 0 = v.recordsOf table (List.range' k len) := by
  induction len with
  | zero => exact fun _ => rfl
  | succ len ih =>
    intro k
    have hpage : v.recordsFrom ⟨table, k⟩ 0 = v.recordsOn ⟨table, k⟩ := by
      unfold recordsFrom recordsOn
      cases v.page ⟨table, k⟩ with
      | ok p => exact p.recordsFrom_zero
      | error fault => rfl
    unfold ahead
    rw [hpage, ih, List.range'_succ]
    rfl

/-- The two views are the same on the pages from `k` on before `j`. -/
def SameOn (v v' : View) (table : TableId) (k j : Nat) : Prop :=
  ∀ n, k ≤ n → n < j → v.page ⟨table, n⟩ = v'.page ⟨table, n⟩

end View

namespace Engine

variable {e e' : Engine} {s : Scan} {tx : TxId} {table : TableId} {k slot : Nat} {rs : List Record}

/-- The transaction holds the pages from `k` on before `j`. -/
def HoldsPages (e : Engine) (tx : TxId) (table : TableId) (k j : Nat) : Prop :=
  ∀ n, k ≤ n → n < j → (e.locks.mode? tx ⟨table, n⟩).isSome

theorem HoldsPages.cons {j : Nat} (h : e.HoldsPages tx table (k + 1) j) (hk : (e.locks.mode? tx ⟨table, k⟩).isSome) :
    e.HoldsPages tx table k j := by
  intro n hn hj
  rcases Nat.eq_or_lt_of_le hn with rfl | hn
  · exact hk
  · exact h n hn hj

/-! ## One step -/

/-- What comes of one step from a place of a scan: the first record ahead or the end, or a fault. The pages that were
looked at are locked, and it depends on nothing but them. -/
inductive Advancing (s : Scan) (k slot : Nat) (e : Engine) : Option (Except AccessFault Record) × Scan × Engine → Prop
  | gave {j i : Nat} {r : Record} {e' : Engine} (hk : k ≤ j) (hj : j < s.pageCount) (hq : Quiet s.tx e e')
    (hm : e'.HoldsPages s.tx s.file.table k (j + 1))
    (hr : ∀ v : View, v.SameOn (e.view s.tx) s.file.table k (j + 1) →
      v.ahead s.file.table (s.pageCount - k) k slot = r :: v.ahead s.file.table (s.pageCount - j) j (i + 1)) :
    Advancing s k slot e (some (.ok r), s.place j (i + 1), e')
  | ended {s' : Scan} {e' : Engine} (hq : Quiet s.tx e e') (hm : e'.HoldsPages s.tx s.file.table k s.pageCount)
    (hr : ∀ v : View, v.SameOn (e.view s.tx) s.file.table k s.pageCount →
      v.ahead s.file.table (s.pageCount - k) k slot = []) :
    Advancing s k slot e (none, s', e')
  | failed {fault : AccessFault} {s' : Scan} {e' : Engine} : Advancing s k slot e (some (.error fault), s', e')

/-- What is ahead on a page that has no more records is what is ahead on the next one. -/
theorem ahead_pass {v : View} {p : Page} (hk : k < s.pageCount) (hp : v.page ⟨s.file.table, k⟩ = .ok p)
    (hr : Scan.recordFrom? p slot = none) : v.ahead s.file.table (s.pageCount - k) k slot =
      v.ahead s.file.table (s.pageCount - (k + 1)) (k + 1) 0 := by
  rw [show s.pageCount - k = (s.pageCount - (k + 1)) + 1 by omega]
  show v.recordsFrom ⟨s.file.table, k⟩ slot ++ _ = _
  rw [View.recordsFrom_of_ok hp, Page.recordsFrom_of_none hr]
  rfl

/-- A page that has no more records is locked and passed. -/
theorem Advancing.pass {e1 : Engine} {f : Frame} {out : Option (Except AccessFault Record) × Scan × Engine}
    (hk : k < s.pageCount) (hf : Fetched s.tx ⟨s.file.table, k⟩ .shared f e e1)
    (hr : Scan.recordFrom? f.page slot = none) (h : Advancing s (k + 1) 0 e1 out) : Advancing s k slot e out := by
  have hview := hf.toQuiet.view_eq s.tx
  have hrest : ∀ {v : View} {j : Nat}, v.SameOn (e.view s.tx) s.file.table k j →
      v.SameOn (e1.view s.tx) s.file.table (k + 1) j := by
    intro v j hv n hn hj
    rw [hview]
    exact hv n (by omega) hj
  cases h with
  | failed => exact .failed
  | ended hq hm hrec =>
    refine .ended (hf.toQuiet.trans hq) (hm.cons (hq.own _ hf.held)) fun v hv => ?_
    rw [ahead_pass hk ((hv k le_rfl hk).trans hf.page) hr]
    exact hrec v (hrest hv)
  | gave hkj hj hq hm hrec =>
    refine .gave (by omega) hj (hf.toQuiet.trans hq) (hm.cons (hq.own _ hf.held)) fun v hv => ?_
    rw [ahead_pass hk ((hv k le_rfl (by omega)).trans hf.page) hr]
    exact hrec v (hrest hv)

/-- **One step takes the first record that is ahead**, and locks the pages up to it. -/
theorem next_advancing (s : Scan) (len : Nat) : ∀ (k slot : Nat) {e : Engine}, e.Sound → k + len = s.pageCount →
    Advancing s k slot e ((s.place k slot).next e) := by
  induction len with
  | zero =>
    intro k slot e h hk
    rw [Scan.next_end (by omega)]
    refine .ended (Quiet.refl h s.tx) (fun n hn hn' => by omega) fun v _ => ?_
    rw [show s.pageCount - k = 0 by omega]
    rfl
  | succ len ih =>
    intro k slot e h hk
    have hkn : k < s.pageCount := by omega
    cases hfetch : e.fetch s.tx (s.file.pageId k) .shared with
    | mk o e1 =>
      cases o with
      | error fault =>
        rw [Scan.next_error hkn hfetch]
        exact .failed
      | ok f =>
        have hf : Fetched s.tx ⟨s.file.table, k⟩ .shared f e e1 := fetch_ok h hfetch
        cases hr : Scan.recordFrom? f.page slot with
        | none =>
          rw [Scan.next_page hkn hfetch hr]
          exact (ih (k + 1) 0 hf.sound (by omega)).pass hkn hf hr
        | some ir =>
          obtain ⟨i, r⟩ := ir
          rw [Scan.next_record hkn hfetch hr]
          refine .gave le_rfl hkn hf.toQuiet (fun n hn hn' => ?_) fun v hv => ?_
          · obtain rfl : n = k := by omega
            exact hf.held
          · have hvk : v.page ⟨s.file.table, k⟩ = .ok f.page := (hv k le_rfl (Nat.lt_succ_self k)).trans hf.page
            rw [show s.pageCount - k = (s.pageCount - (k + 1)) + 1 by omega]
            unfold View.ahead
            rw [View.recordsFrom_of_ok hvk, View.recordsFrom_of_ok hvk, Page.recordsFrom_of_some hr]
            rfl

/-! ## All steps -/

theorem Stable.among {P : Engine → Prop} (hP : Stable P) (rounds : List (List Call)) :
    ∀ {s : Scan} {e : Engine}, P e → P (s.among rounds e).2 := by
  induction rounds with
  | nil => exact fun h => h
  | cons calls rounds ih => exact fun h => ih (hP.scanNext _ _ (hP.run calls h))

/-- If page numbers have room at the end of a scan, they have it before its first step. -/
theorem small_of_among (h : e.Present) (s : Scan) (calls : List Call) (rounds : List (List Call))
    (hs : (s.among (calls :: rounds) e).2.Small) : (e.run calls).Small := by
  have hp : (e.run calls).Present := ((stable_grows e).run calls (Outgrows.refl e)).present h
  have hgrows := stable_grows (e.run calls)
  exact (hgrows.among rounds (hgrows.scanNext s _ (Outgrows.refl _))).small hp hs

/-- **All steps give what is ahead at the end.** What the transaction holds has stayed, and it holds all pages that
were ahead. -/
theorem among_ahead (s : Scan) (rounds : List (List Call)) (hc : ∀ calls ∈ rounds, ∀ c ∈ calls, c.tx? ≠ some s.tx) :
    ∀ {k slot : Nat} {e : Engine} {rs : List Record}, e.Sound → k ≤ s.pageCount →
      ((s.place k slot).among rounds e).2.Small → Scan.drained ((s.place k slot).among rounds e).1 = some rs →
      let e' := ((s.place k slot).among rounds e).2
      Secures s.tx e e' ∧ e'.HoldsPages s.tx s.file.table k s.pageCount ∧
        rs = (e'.view s.tx).ahead s.file.table (s.pageCount - k) k slot := by
  induction rounds with
  | nil =>
    intro k slot e rs _ _ _ hd
    cases hd
  | cons calls rounds ih =>
    intro k slot e rs h hk hs hd
    have hothers := h.secures calls (hc calls List.mem_cons_self) (small_of_among h.present _ calls rounds hs)
    have hstep := next_advancing s (s.pageCount - k) k slot hothers.sound (by omega)
    unfold Scan.among at hs hd ⊢
    generalize (s.place k slot).next (e.run calls) = out at hs hd hstep
    cases hstep with
    | failed => cases hd
    | @ended _ e1 hq hm hr =>
      cases rounds with
      | nil =>
        cases hd
        show Secures s.tx e e1 ∧ e1.HoldsPages s.tx s.file.table k s.pageCount ∧
          [] = (e1.view s.tx).ahead s.file.table (s.pageCount - k) k slot
        exact ⟨hothers.trans (hq.secures s.tx), hm, (hr _ fun n _ _ => by rw [hq.view_eq]).symm⟩
      | cons calls' rounds => cases hd
    | @gave j _ _ _ hkj hj hq hm hr =>
      obtain ⟨rs', hd', rfl⟩ := Option.map_eq_some_iff.1 hd
      obtain ⟨hsec, hheld, rfl⟩ := ih (fun calls hmem => hc calls (List.mem_cons_of_mem _ hmem)) hq.sound hj.le hs hd'
      refine ⟨(hothers.trans (hq.secures s.tx)).trans hsec, fun n hn hn' => ?_, (hr _ fun n hn hn' => ?_).symm⟩
      · rcases Nat.lt_or_ge n j with hnj | hnj
        · exact hsec.held _ (hm n hn (by omega))
        · exact hheld n hnj hn'
      · -- the pages up to this record are held from now on
        rw [← hq.view_eq s.tx]
        exact hsec.page _ (hm n hn hn')

/-- A scan is opened at the first record of its table, and counts the pages. -/
theorem Coherent.of_ofTable (h : e.Coherent) (hopen : Scan.ofTable e tx table = .ok s) :
    s.place 0 0 = s ∧ s.tx = tx ∧ s.file.table = table ∧ s.pageCount = e.pages table := by
  rw [h.present.ofTable_eq] at hopen
  cases hc : e.catalog.file table with
  | error cause =>
    rw [hc] at hopen
    cases hopen
  | ok file =>
    rw [hc] at hopen
    cases hopen
    exact ⟨rfl, rfl, h.catalog.own (file_of_catalog hc), rfl⟩

/-- **Nothing lies behind the pages of a scan at its end**, if this was so before its first step. -/
theorem among_behind (h : e.Sound) (s : Scan) (calls : List Call) (rounds : List (List Call))
    (hc : ∀ calls' ∈ calls :: rounds, ∀ c ∈ calls', c.tx? ≠ some s.tx)
    (hp : (e.run calls).pages s.file.table ≤ s.pageCount)
    (hs : ((s.place 0 0).among (calls :: rounds) e).2.Small)
    (hd : Scan.drained ((s.place 0 0).among (calls :: rounds) e).1 = some rs) (hk : s.pageCount ≤ k) (slot : Nat) :
    ((((s.place 0 0).among (calls :: rounds) e).2).view s.tx).contents ⟨s.file.table, k⟩ slot = none := by
  have hothers := h.secures calls (hc calls List.mem_cons_self) (small_of_among h.present _ calls rounds hs)
  have hstep := next_advancing s s.pageCount 0 0 hothers.sound (Nat.zero_add _)
  unfold Scan.among at hs hd ⊢
  generalize (s.place 0 0).next (e.run calls) = out at hs hd hstep
  cases hstep with
  | failed => cases hd
  | @ended _ e1 hq hm hr =>
    cases rounds with
    | nil =>
      show (e1.view s.tx).contents ⟨s.file.table, k⟩ slot = none
      rw [hq.view_eq]
      exact hothers.sound.contents_behind (hp.trans hk) slot
    | cons calls' rounds => cases hd
  | @gave j _ _ e1 _ hj hq hm hr =>
    -- the first page is held from now on, and keeps the others from inserting
    have hcap : e1.Capped s.tx s.file.table s.pageCount := by
      refine ⟨hm 0 le_rfl (Nat.succ_pos j), fun tx' n hn => ?_, fun n hn slot => ?_⟩
      · have hv : e1.cache.draft tx' = (e.run calls).cache.draft tx' := congrArg View.draft (hq.view_eq tx')
        rw [hv]
        exact hothers.sound.draft_of_pages_le (hp.trans hn)
      · rw [hq.committed]
        exact hothers.sound.committed_behind (hp.trans hn) slot
    obtain ⟨rs', hd', -⟩ := Option.map_eq_some_iff.1 hd
    obtain ⟨hsec, -⟩ :=
      among_ahead s rounds (fun calls' hmem => hc calls' (List.mem_cons_of_mem _ hmem)) hq.sound hj.le hs hd'
    exact (hsec.capped _ _ hcap).contents hk slot

/-- **A scan gives one state of the pages that its table had.** An engine was opened over its files, any calls were
made, and then a transaction opens a scan. Other transactions make any calls before each of its steps, and it comes to
its end without a fault, as long as page numbers have room. Then there is an engine on the way, the one at the end,
where the changes of the transaction are as they were when the scan was opened, and the scan has given exactly the
records, committed there or changed by the transaction, on the pages that the table had when it was opened. If the table
had no more pages before the first step, these are all records of the table. -/
theorem scan_among (h : e.Ready) (before : List Call) (hopen : Scan.ofTable (e.run before) tx table = .ok s)
    (rounds : List (List Call)) (hothers : ∀ calls ∈ rounds, ∀ c ∈ calls, c.tx? ≠ some tx)
    (hs : (s.among rounds (e.run before)).2.Small)
    (hdrained : Scan.drained (s.among rounds (e.run before)).1 = some rs) :
    let opened := e.run before
    let ended := (s.among rounds opened).2
    ended ∈ s.trail rounds opened ∧ (∀ id, ended.ledger.drafts tx id = opened.ledger.drafts tx id) ∧
      Lists (fun place fields => place.page.table = table ∧ place.page.number < opened.pages table ∧
        ended.ledger.seen tx place.page place.slot = some fields) rs ∧
      ∀ first ∈ rounds.head?, (opened.run first).pages table = opened.pages table →
        Lists (fun place fields => place.page.table = table ∧
          ended.ledger.seen tx place.page place.slot = some fields) rs := by
  intro opened ended
  have hp : opened.Present := ((stable_grows e).run before (Outgrows.refl e)).present h.present
  have hsmall : opened.Small := ((stable_grows opened).among rounds (Outgrows.refl opened)).small hp hs
  have hsound : opened.Sound := h.run hsmall
  obtain ⟨hplace, rfl, rfl, hcount⟩ := hsound.of_ofTable hopen
  have hs' : ((s.place 0 0).among rounds opened).2.Small := hplace.symm ▸ hs
  have hd' : Scan.drained ((s.place 0 0).among rounds opened).1 = some rs := hplace.symm ▸ hdrained
  obtain ⟨hsec, -, hrs⟩ := among_ahead s rounds hothers hsound (Nat.zero_le _) hs' hd'
  rw [hplace] at hsec hrs
  have hlists : Lists (fun place fields => place.page.table = s.file.table ∧
      place.page.number < opened.pages s.file.table ∧ ended.ledger.seen s.tx place.page place.slot = some fields)
      rs := by
    rw [hrs, View.ahead_eq, View.recordsOf_range', hcount]
    simp only [seen_ledger]
    exact View.listing_lists (fun k p hpage => (hsec.sound.of_view_page hpage).1) _
  refine ⟨Scan.among_mem_trail rounds s opened, fun id => ?_, hlists, fun first hfirst hpages => hlists.congr fun place fields => ?_⟩
  · rw [drafts_ledger, drafts_ledger, hsec.draft]
  · constructor
    · rintro ⟨ht, -, hc⟩
      exact ⟨ht, hc⟩
    · rintro ⟨ht, hc⟩
      refine ⟨ht, ?_, hc⟩
      by_contra hn
      cases rounds with
      | nil => cases hfirst
      | cons calls rounds =>
        cases hfirst
        have hblank := among_behind hsound s first rounds hothers (hpages.trans hcount.symm).le hs' hd'
          (k := place.page.number) (by omega) place.slot
        rw [hplace] at hblank
        rw [seen_ledger] at hc
        have hid : place.page = ⟨s.file.table, place.page.number⟩ := by rw [← ht]
        rw [hid, hblank] at hc
        cases hc

end Engine

namespace Sample

/-- A record of the table where it lies. -/
def placed (n : Int32) (number slot : Nat) : Record := { record n with place := some ⟨⟨table, number⟩, slot⟩ }

/-- The first transaction fills a page, and the second one is about to open a scan. -/
def filled : List Call :=
  [.begin, .insert ⟨1⟩ table (record 5), .insert ⟨1⟩ table (record 6), .commit ⟨1⟩, .begin]

/-- Before the first step the third transaction puts a record on a new page, and deletes one on the page that there
was. -/
def overtaking : List (List Call) :=
  [[.begin, .insert ⟨3⟩ table (record 7), .delete ⟨3⟩ (placed 5 0 0), .commit ⟨3⟩], []]

/-- **The scan sees the deletion but not the insertion.** What it gives has been the whole table in no state between
its opening and its end. -/
theorem scan_overtaken : ∃ s rs, Scan.ofTable (engine.run filled) ⟨2⟩ table = .ok s ∧
    (∀ calls ∈ overtaking, ∀ c ∈ calls, c.tx? ≠ some ⟨2⟩) ∧
    Scan.drained (s.among overtaking (engine.run filled)).1 = some rs ∧
    ∀ e' ∈ s.trail overtaking (engine.run filled), ¬ Lists (fun place fields => place.page.table = table ∧
      e'.ledger.seen ⟨2⟩ place.page place.slot = some fields) rs := by
  have hrun : ((Scan.ofTable (engine.run filled) ⟨2⟩ table).toOption.any fun s =>
      (Scan.drained (s.among overtaking (engine.run filled)).1).map (List.map Record.place) ==
          some [some ⟨⟨table, 0⟩, 1⟩] &&
        (s.trail overtaking (engine.run filled)).all fun e' =>
          e'.ledger.seen ⟨2⟩ ⟨table, 0⟩ 0 == some [.int 5] || e'.ledger.seen ⟨2⟩ ⟨table, 1⟩ 0 == some [.int 7]) =
      true := by decide +kernel
  cases hopen : Scan.ofTable (engine.run filled) ⟨2⟩ table with
  | error fault =>
    rw [hopen] at hrun
    cases hrun
  | ok s =>
    rw [hopen] at hrun
    obtain ⟨hitems, hseen⟩ := (Bool.and_eq_true _ _).mp hrun
    obtain ⟨rs, hrs, hplaces⟩ := Option.map_eq_some_iff.1 (beq_iff_eq.1 hitems)
    refine ⟨s, rs, rfl, by decide, hrs, fun e' he' hlists => ?_⟩
    -- one of the two records is missing
    have hmissing : ∀ id slot fields, id.table = table → e'.ledger.seen ⟨2⟩ id slot = some fields →
        RecordId.mk id slot = ⟨⟨table, 0⟩, 1⟩ := by
      intro id slot fields ht hs
      obtain ⟨r, hr, hplace, -⟩ := (hlists.exact ⟨id, slot⟩ fields).2 ⟨ht, hs⟩
      have hmem : some (RecordId.mk id slot) ∈ rs.map Record.place := List.mem_map.2 ⟨r, hr, hplace⟩
      rw [hplaces, List.mem_singleton] at hmem
      exact Option.some.inj hmem
    rcases (Bool.or_eq_true _ _).mp (List.all_eq_true.1 hseen e' he') with h5 | h7
    · cases hmissing _ _ _ rfl (beq_iff_eq.1 h5)
    · cases hmissing _ _ _ rfl (beq_iff_eq.1 h7)

/-- The first transaction fills two pages, and the second one deletes a record and is about to open a scan. -/
def halved : List Call :=
  [.begin, .insert ⟨1⟩ table (record 5), .insert ⟨1⟩ table (record 6), .insert ⟨1⟩ table (record 7),
    .insert ⟨1⟩ table (record 8), .commit ⟨1⟩, .begin, .delete ⟨2⟩ (placed 7 1 0)]

/-- One transaction replaces a record before the first step, and another one is kept away from then on. -/
def replacing : List (List Call) :=
  [[.begin, .delete ⟨3⟩ (placed 5 0 0), .insert ⟨3⟩ table (record 9), .commit ⟨3⟩],
    [.begin, .insert ⟨4⟩ table (record 10)], [.evict, .scan ⟨4⟩ table], [.commit ⟨4⟩]]

theorem scan_among_replacing : engine.Ready ∧ ∃ s rs, Scan.ofTable (engine.run halved) ⟨2⟩ table = .ok s ∧
    (∀ calls ∈ replacing, ∀ c ∈ calls, c.tx? ≠ some ⟨2⟩) ∧ (s.among replacing (engine.run halved)).2.Small ∧
    Scan.drained (s.among replacing (engine.run halved)).1 = some rs ∧
    rs.map Record.fields = [[.int 9], [.int 6], [.int 8]] ∧
    let opened := engine.run halved
    let ended := (s.among replacing opened).2
    ended ∈ s.trail replacing opened ∧ (∀ id, ended.ledger.drafts ⟨2⟩ id = opened.ledger.drafts ⟨2⟩ id) ∧
      Lists (fun place fields => place.page.table = table ∧ place.page.number < opened.pages table ∧
        ended.ledger.seen ⟨2⟩ place.page place.slot = some fields) rs ∧
      ∀ first ∈ replacing.head?, (opened.run first).pages table = opened.pages table →
        Lists (fun place fields => place.page.table = table ∧
          ended.ledger.seen ⟨2⟩ place.page place.slot = some fields) rs := by
  have hrun : ((Scan.ofTable (engine.run halved) ⟨2⟩ table).toOption.any fun s =>
      (Scan.drained (s.among replacing (engine.run halved)).1).map (List.map Record.fields) ==
          some [[.int 9], [.int 6], [.int 8]] &&
        decide (((s.among replacing (engine.run halved)).2.fileBytes table).length < Paged.numberBound)) =
      true := by decide +kernel
  cases hopen : Scan.ofTable (engine.run halved) ⟨2⟩ table with
  | error fault =>
    rw [hopen] at hrun
    cases hrun
  | ok s =>
    rw [hopen] at hrun
    obtain ⟨hitems, hlength⟩ := (Bool.and_eq_true _ _).mp hrun
    obtain ⟨rs, hrs, hfields⟩ := Option.map_eq_some_iff.1 (beq_iff_eq.1 hitems)
    have hothers : ∀ calls ∈ replacing, ∀ c ∈ calls, c.tx? ≠ some ⟨2⟩ := by decide
    have hgrows := Engine.stable_grows engine
    have hs : (s.among replacing (engine.run halved)).2.Small :=
      small_of_outgrows (hgrows.among replacing (hgrows.run halved (Engine.Outgrows.refl engine)))
        (of_decide_eq_true hlength)
    exact ⟨ready, s, rs, rfl, hothers, hs, hrs, hfields,
      Engine.scan_among ready halved hopen replacing hothers hs hrs⟩

end Sample

end HeapStore
