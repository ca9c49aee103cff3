import HeapStore.Proofs.Acting
import HeapStore.Proofs.Cursor
import HeapStore.Proofs.Eviction

/-!
# Scans that are taken again

A scan is rewound and taken again with nothing in between. The copies are others by then: the first pass has read pages
in the place of others. But reading one page does not change what comes of reading another one, and so the second pass
gives what the first one has given, the fault at its end included.

* `Cache.Spare`: there is room for a copy, or it can be made. `Engine.load_page`: what comes of reading a page.
* `Engine.Offers`: what an engine gives for the pages of a table. **No fetch changes it**, `Offers.fetch`.
* `Scan.again`: one pass gives what another one gives, if it starts with the locks that the other one has left.
* `Engine.scan_amid_changes`: a scan with anything between its steps, and taken again.
-/

namespace HeapStore

/-! ## Room for copies -/

namespace Cache

variable {c c' : Cache}

/-- There is room for one more copy, or a copy may go. -/
def Spare (c : Cache) : Prop := c.frames.length < c.capacity ∨ ∃ f ∈ c.frames, c.Idle f

/-- The copies that somebody is reading are among those that there have been. -/
def Known (c : Cache) : Prop := ∀ copy ∈ c.guarded, copy < c.copies

theorem makeRoom?_eq_none_iff : c.makeRoom? = none ↔ ¬c.Spare := by
  unfold makeRoom? Spare
  rw [not_or, not_exists, Nat.not_lt]
  split
  · next hle =>
    rw [evict?_eq_none_iff, and_iff_right hle]
    exact ⟨fun h f hf => h f hf.1 hf.2, fun h f hf hi => h f ⟨hf, hi⟩⟩
  · next hle => exact ⟨nofun, fun h => absurd h.1 hle⟩

/-- The copies in another order. -/
theorem spare_perm (hf : c'.frames.Perm c.frames) (hc : c'.capacity = c.capacity) (hg : c'.guarded = c.guarded) :
    c'.Spare ↔ c.Spare := by
  unfold Spare Idle
  rw [hf.length_eq, hc, hg]
  simp only [hf.mem_iff]

/-- A new copy may go. -/
theorem spare_of_new {page : Page} (h : c.Known) (hg : c'.guarded = c.guarded) (hd : page.dirty = none)
    (hf : (⟨c.copies, page⟩ : Frame) ∈ c'.frames) : c'.Spare :=
  .inr ⟨_, hf, hd, fun hm => absurd (h _ (hg ▸ hm)) (Nat.lt_irrefl _)⟩

end Cache

namespace Engine

variable {e e' a b : Engine} {tx : TxId} {id : PageId} {mode : LockMode} {locks : LockTable} {fault : AccessFault}
  {f : Frame} {file : TableFile} {pages : Nat → Except AccessFault Page}

/-! ## What comes of reading a page -/

/-- What comes of reading a page. -/
def offer (e : Engine) (id : PageId) : Except AccessFault Page := (e.load id).1.map Frame.page

open Classical in
/-- A page that is seen is given if it has a copy, or if it can get one. -/
theorem offer_eq (e : Engine) (id : PageId) : e.offer id = match e.seen id with
    | .error fault => .error fault
    | .ok page => if id ∈ e.cache.pages ∨ e.cache.Spare then .ok page else .error (.allPagesDirty e.cache.capacity) := by
  unfold offer load seen
  cases hf : e.cache.find? id with
  | some f =>
    have hm : id ∈ e.cache.pages := by
      obtain ⟨hm, rfl⟩ := Cache.mem_of_find? hf
      exact Cache.mem_pages_of_mem hm
    simp only [if_pos (Or.inl hm)]
    rfl
  | none =>
    have hn := Cache.find?_eq_none_iff.1 hf
    cases hs : e.stored id with
    | error fault => rfl
    | ok page =>
      simp only
      cases hr : e.cache.makeRoom? with
      | none => rw [if_neg (not_or.2 ⟨hn, Cache.makeRoom?_eq_none_iff.1 hr⟩)]; rfl
      | some cache =>
        have hspare : e.cache.Spare := by
          by_contra hspare
          rw [Cache.makeRoom?_eq_none_iff.2 hspare] at hr
          cases hr
        rw [if_pos (Or.inr hspare)]
        rfl

theorem offer_congr (hs : e'.seen id = e.seen id) (hc : e'.cache.capacity = e.cache.capacity)
    (h : id ∈ e'.cache.pages ∨ e'.cache.Spare ↔ id ∈ e.cache.pages ∨ e.cache.Spare) : e'.offer id = e.offer id := by
  rw [offer_eq, offer_eq, hs, hc]
  cases e.seen id with
  | error fault => rfl
  | ok page => classical exact if_congr h rfl rfl

/-- Where a copy of another page can be had it can be had still once one was made. -/
theorem Loading.spare {o : Outcome AccessFault Frame} {id' : PageId} (h : Loading e id' o) (hk : e.cache.Known)
    (id : PageId) :
    o.2.cache.capacity = e.cache.capacity ∧ o.2.cache.Known ∧
      (id ∈ o.2.cache.pages ∨ o.2.cache.Spare ↔ id ∈ e.cache.pages ∨ e.cache.Spare) := by
  cases h with
  | @used front back f hsplit hid =>
    have hperm : (f :: (front ++ back)).Perm e.cache.frames := hsplit ▸ List.perm_middle.symm
    refine ⟨rfl, hk, or_congr ?_ (Cache.spare_perm hperm rfl rfl)⟩
    exact (hperm.map fun f => f.page.id).mem_iff
  | read hn hs hroom =>
    refine ⟨rfl, fun copy hm => Nat.lt_succ_of_lt (hk copy hm), iff_of_true (.inr ?_) (.inr (.inl hroom))⟩
    exact Cache.spare_of_new hk rfl (clean_of_stored hs) List.mem_cons_self
  | @replaced front back f page hn hs hfull hl =>
    refine ⟨rfl, fun copy hm => Nat.lt_succ_of_lt (hk copy hm), iff_of_true (.inr ?_) (.inr (.inr ⟨f, ?_, hl.idle⟩))⟩
    · exact Cache.spare_of_new hk rfl (clean_of_stored hs) List.mem_cons_self
    · rw [hl.frames]
      exact List.mem_append_right _ List.mem_cons_self
  | crowded => exact ⟨rfl, hk, Iff.rfl⟩
  | unread => exact ⟨rfl, hk, Iff.rfl⟩

/-- **Reading a page does not change what comes of reading another one.** -/
theorem offer_load (h : e.Kempt) (hk : e.cache.Known) (hf : e.file id.table = .ok file) (id' : PageId) :
    (e.load id').2.offer id = e.offer id := by
  have hload := (load_loading h.nodup id').spare hk id
  have hd : (e.load id').2.disk = e.disk := (steady_disk e.disk).load rfl id'
  exact offer_congr ((h.load ⟨0⟩ id').seen_anywhere h hd hf) hload.1 hload.2.2

/-- What an engine gives for the pages of a table. -/
structure Offers (file : TableFile) (pages : Nat → Except AccessFault Page) (e : Engine) : Prop where
  kempt : e.Kempt
  known : e.cache.Known
  there : e.file file.table = .ok file
  offer : ∀ number, e.offer (file.pageId number) = pages number

/-- Locks do not matter. -/
theorem Offers.lock (h : Offers file pages e) (locks : LockTable) : Offers file pages { e with locks } where
  kempt := h.kempt.locks locks e.lastTx
  known := h.known
  there := h.there
  offer number := by
    rw [← h.offer number, offer_eq, offer_eq]
    rfl

theorem Offers.load (h : Offers file pages e) (id : PageId) : Offers file pages (e.load id).2 where
  kempt := (h.kempt.load ⟨0⟩ id).kempt
  known := ((load_loading h.kempt.nodup id).spare h.known id).2.1
  there := ((h.kempt.load ⟨0⟩ id).file_eq _).trans h.there
  offer number := (offer_load h.kempt h.known h.there id).trans (h.offer number)

/-- The transaction holds in the second engine what it holds in the first one. -/
def HoldsStill (tx : TxId) (e e' : Engine) : Prop :=
  ∀ id, (e.locks.mode? tx id).isSome → (e'.locks.mode? tx id).isSome

theorem holdsStill_grant (hg : e.locks.grant? tx id mode = some locks) : HoldsStill tx e { e with locks } := by
  intro id' hm
  show (locks.mode? tx id').isSome
  rw [LockTable.mode?_of_grant? hg]
  split
  · rfl
  · exact hm

/-- **Reading changes nothing of what is offered**, and no lock is lost by it. -/
theorem reading_offers (file : TableFile) (pages : Nat → Except AccessFault Page) (tx : TxId) (e : Engine) :
    Reading tx (fun e' => Offers file pages e' ∧ HoldsStill tx e e') fun _ => True where
  grant h hg := ⟨h.1.lock _, fun id hm => holdsStill_grant hg id (h.2 id hm)⟩
  load id h := ⟨h.1.load id, fun id' hm => by
    rw [(locks_load _ id).1]
    exact h.2 id' hm⟩
  abort _ := trivial

/-- What a transaction holds it can hold shared. -/
theorem grant?_of_held {t : LockTable} (hm : (t.mode? tx id).isSome) : ∃ t', t.grant? tx id .shared = some t' := by
  unfold LockTable.mode? at hm
  unfold LockTable.grant?
  cases hp : t.pages[id]? with
  | none => exact ⟨_, rfl⟩
  | some hold =>
    rw [hp] at hm
    cases hold with
    | shared holders => exact ⟨_, rfl⟩
    | exclusive holder =>
      have hm : (if holder = tx then some LockMode.exclusive else none).isSome := hm
      split at hm
      · next he =>
        simp only
        rw [Hold.grant?_exclusive, if_pos he]
        exact ⟨_, rfl⟩
      · cases hm

/-- A page that is locked is given as it is offered, and it is held then. -/
theorem Offers.fetch_granted {number : Nat} (h : Offers file pages e)
    (hg : e.locks.grant? tx (file.pageId number) mode = some locks) :
    (e.fetch tx (file.pageId number) mode).1.map Frame.page = pages number ∧
      ((e.fetch tx (file.pageId number) mode).2.locks.mode? tx (file.pageId number)).isSome := by
  rw [Engine.fetch_granted hg]
  refine ⟨(h.lock locks).offer number, ?_⟩
  rw [(locks_load _ _).1, LockTable.mode?_of_grant? hg, if_pos ⟨rfl, rfl⟩]
  rfl

/-- **A fetch that does not end its transaction can be repeated**, as long as its lock is held. -/
theorem Offers.fetch_again {number : Nat} {result : Except AccessFault Frame} {a' : Engine} (ha : Offers file pages a)
    (hb : Offers file pages b) (hf : a.fetch tx (file.pageId number) .shared = (result, a'))
    (hok : ∀ fault, result = .error fault → fault.aborts = false) (hh : HoldsStill tx a' b) :
    (b.fetch tx (file.pageId number) .shared).1.map Frame.page = result.map Frame.page := by
  cases hg : a.locks.grant? tx (file.pageId number) .shared with
  | none =>
    rw [fetch_denied hg] at hf
    cases hf
    cases hok _ rfl
  | some locks =>
    obtain ⟨hpage, hheld⟩ := ha.fetch_granted hg
    rw [hf] at hpage hheld
    obtain ⟨locks', hg'⟩ := grant?_of_held (hh _ hheld)
    exact (hb.fetch_granted hg').1.trans hpage.symm

theorem Offers.fetch_again_ok {number : Nat} {f : Frame} {a' : Engine} (ha : Offers file pages a)
    (hb : Offers file pages b) (hf : a.fetch tx (file.pageId number) .shared = (.ok f, a')) (hh : HoldsStill tx a' b) :
    ∃ f' b', b.fetch tx (file.pageId number) .shared = (.ok f', b') ∧ f'.page = f.page := by
  have hagain := ha.fetch_again hb hf (fun _ h => by cases h) hh
  cases hf' : b.fetch tx (file.pageId number) .shared with
  | mk result b' =>
    rw [hf'] at hagain
    cases result with
    | error fault => cases hagain
    | ok f' => exact ⟨f', b', rfl, Except.ok.inj hagain⟩

end Engine

/-! ## Another pass -/

namespace Scan

open Engine

variable {s : Scan} {e a b : Engine} {pages : Nat → Except AccessFault Page}

/-- **A step gives the same again**, if the scan is at the same place and holds what it held after it. -/
theorem next_again (s : Scan) (a : Engine) : ∀ {b : Engine}, Offers s.file pages a → Offers s.file pages b →
    (∀ item ∈ (s.next a).1, Answer.isAbort item = false) → HoldsStill s.tx (s.next a).2.2 b →
      (s.next b).1 = (s.next a).1 ∧ (s.next b).2.1 = (s.next a).2.1 := by
  induction s, a using Scan.next.induct with
  | case1 s a hd =>
    intro b _ _ _ _
    rw [next.eq_def, next.eq_def s a, if_pos hd, if_pos hd]
    exact ⟨rfl, rfl⟩
  | case2 s a hd hn =>
    intro b _ _ _ _
    rw [next.eq_def, next.eq_def s a, if_neg hd, if_neg hd, if_pos hn, if_pos hn]
    exact ⟨rfl, rfl⟩
  | case3 s a hd hn fault a' hf =>
    intro b ha hb hok hh
    have hstep : s.next a = (some (.error fault), s.finish, a') := by
      unfold next
      rw [if_neg hd, if_neg hn, hf]
    rw [hstep] at hok hh ⊢
    have hfault : ∀ fault', Except.error (α := Frame) fault = .error fault' → fault'.aborts = false := by
      rintro _ ⟨⟩
      exact hok _ rfl
    have hagain := ha.fetch_again hb hf hfault hh
    rw [next.eq_def, if_neg hd, if_neg hn]
    cases hf' : b.fetch s.tx (s.file.pageId s.number) .shared with
    | mk result b' =>
      rw [hf'] at hagain
      cases result with
      | ok f => cases hagain
      | error fault' =>
        cases hagain
        exact ⟨rfl, rfl⟩
  | case4 s a hd hn f a' hf slot r hr =>
    intro b ha hb hok hh
    have hstep : s.next a = (some (.ok r), { s with slot := slot + 1 }, a') := by
      unfold next
      rw [if_neg hd, if_neg hn, hf]
      simp only [hr]
    rw [hstep] at hh ⊢
    obtain ⟨f', b', hf', hpage⟩ := ha.fetch_again_ok hb hf hh
    rw [next.eq_def, if_neg hd, if_neg hn, hf']
    simp only [hpage, hr, and_self]
  | case5 s a hd hn f a' hf hr ih =>
    intro b ha hb hok hh
    have hstep : s.next a = next { s with number := s.number + 1, slot := 0 } a' := by
      rw [next.eq_def, if_neg hd, if_neg hn, hf]
      simp only [hr]
    rw [hstep] at hok hh ⊢
    have hread := reading_offers s.file pages s.tx
    obtain ⟨ha', -⟩ := (hread a).fetch_ok ⟨ha, fun _ hm => hm⟩ hf
    -- the lock of this page is held still at the end of the step
    obtain ⟨-, hkept⟩ := StepComes.of_goes
      ((hread a').scanNext { s with number := s.number + 1, slot := 0 } a' rfl ⟨ha', fun _ hm => hm⟩) hok
    obtain ⟨f', b', hf', hpage⟩ := ha.fetch_again_ok hb hf fun id hm => hh id (hkept id hm)
    obtain ⟨hb', hheld⟩ := (hread b).fetch_ok ⟨hb, fun _ hm => hm⟩ hf'
    rw [next.eq_def s b, if_neg hd, if_neg hn, hf']
    simp only [hpage, hr]
    exact ih ha' hb' hok fun id hm => hheld id (hh id hm)

/-- **Steps give the same again.** -/
theorem items_again (n : Nat) : ∀ {s : Scan} {a b : Engine}, Offers s.file pages a → Offers s.file pages b →
    (∀ item ∈ (items n s a).1, Answer.isAbort item = false) → HoldsStill s.tx (items n s a).2.2 b →
      (items n s b).1 = (items n s a).1 := by
  induction n with
  | zero => exact fun _ _ _ _ => rfl
  | succ n ih =>
    intro s a b ha hb hok hh
    have hread := reading_offers s.file pages s.tx
    have hstep := next_again s a ha hb
    have hgoes := (hread a).scanNext s a rfl ⟨ha, fun _ hm => hm⟩
    have hgoes' := (hread b).scanNext s b rfl ⟨hb, fun _ hm => hm⟩
    have htx := (next_scan s a).1
    have hfile : (s.next a).2.1.rewind.file = s.rewind.file := congrArg Scan.file (rewind_next s a)
    unfold items at hok hh ⊢
    cases hn : s.next a with
    | mk item rest =>
    obtain ⟨s', a'⟩ := rest
    rw [hn] at hok hh hstep hgoes htx hfile
    cases item with
    | none =>
      obtain ⟨hitem, -⟩ := hstep (fun _ hm => by cases hm) hh
      cases hn' : s.next b with
      | mk item' rest' =>
        rw [hn'] at hitem
        cases (show item' = none from hitem)
        rfl
    | some item =>
      obtain ⟨hitem, hrest⟩ := List.forall_mem_cons.1 hok
      have hfirst : ∀ item' ∈ some item, Answer.isAbort item' = false := by
        rintro _ ⟨⟩
        exact hitem
      obtain ⟨ha', -⟩ := StepComes.of_goes hgoes hfirst
      have hread' := reading_offers s.file pages s.tx a'
      -- the locks of this step are held still at the end of the pass
      have hlater := hread'.scanItems_of_goes htx ⟨ha', fun _ hm => hm⟩ hrest
      obtain ⟨hitem', hscan'⟩ := hstep hfirst fun id hm => hh id (hlater.2 id hm)
      cases hn' : s.next b with
      | mk item' rest' =>
      obtain ⟨s'', b'⟩ := rest'
      rw [hn'] at hitem' hscan' hgoes'
      cases (show item' = some item from hitem')
      cases (show s'' = s' from hscan')
      obtain ⟨hb', hheld⟩ := StepComes.of_goes hgoes' hfirst
      have hfile : s'.file = s.file := hfile
      have htx : s'.tx = s.tx := htx
      refine congrArg (item :: ·) (ih (hfile ▸ ha') (hfile ▸ hb') hrest ?_)
      rw [htx]
      exact fun id hm => hheld id (hh id hm)

theorem rewind_items (n : Nat) : ∀ (s : Scan) (e : Engine), (items n s e).2.1.rewind = s.rewind := by
  induction n with
  | zero => exact fun _ _ => rfl
  | succ n ih =>
    intro s e
    have hstep := rewind_next s e
    unfold items
    cases hn : s.next e with
    | mk item rest =>
      obtain ⟨s', e'⟩ := rest
      rw [hn] at hstep
      cases item with
      | none => exact hstep
      | some item => exact (ih s' e').trans hstep

end Scan

/-! ## Scans while their tables change -/

namespace Engine

open Scan

variable {e z : Engine} {s s' : Scan} {tx : TxId} {table : TableId} {rounds : List (List Request)}
  {items : List (Except AccessFault Record)}

/-- **A scan that is rewound with nothing in between gives the same again.** -/
theorem items_rewound (n : Nat) (h : e.Kempt) (hk : e.cache.Known) (hf : e.file s.file.table = .ok s.file)
    (hs : s.rewind = s) (hi : Scan.items n s e = (items, s', z)) (hok : ∀ item ∈ items, Answer.isAbort item = false) :
    (Scan.items n s'.rewind z).1 = items := by
  have he : Offers s.file (fun number => e.offer (s.file.pageId number)) e := ⟨h, hk, hf, fun _ => rfl⟩
  have hgoes : ∀ item ∈ (Scan.items n s e).1, Answer.isAbort item = false := by
    rw [hi]
    exact hok
  have hpass := (reading_offers s.file _ s.tx e).scanItems_of_goes rfl ⟨he, fun _ hm => hm⟩ hgoes
  have hrewind := Scan.rewind_items n s e
  have hagain := items_again n he hpass.1 hgoes fun _ hm => hm
  rw [hi] at hrewind hagain
  rw [hrewind, hs]
  exact hagain

/-- A scan goes through its table in order, whatever is asked between its steps. -/
structure Traversal (table : TableId) (s : Scan) (e : Engine) (rounds : List (List Request)) : Prop where
  ascends : (given (s.turns e rounds)).Pairwise fun a b => ∃ p q, a.place = some p ∧ b.place = some q ∧ p.rank < q.rank
  /-- What a step gives is what is then seen in its slot. -/
  shows : ∀ t ∈ s.turns e rounds, ∀ r, t.item = some (.ok r) → ∃ place, r.place = some place ∧
    place.page.table = table ∧ place.page.number < e.pages table ∧ t.engine.recordAt place = some r
  /-- What stays in its slot until the end of the scan is given once. -/
  once : (s.after e rounds).1.done = true → (∀ t ∈ s.turns e rounds, ∀ fault, t.item ≠ some (.error fault)) →
    ∀ {place : RecordId} {r : Record}, place.page.table = table → place.page.number < e.pages table →
      (∀ t ∈ s.turns e rounds, t.engine.recordAt place = some r) →
      (given (s.turns e rounds)).filter (·.place = some place) = [r]
  few : (given (s.turns e rounds)).length ≤ e.pages table * s.file.schema.slotCount s.file.pageSize
  /-- After a step that gives no record no step gives anything. -/
  silent : (s.turns e rounds).Pairwise fun t t' => (∀ r, t.item ≠ some (.ok r)) → t'.item = none
  rewinds : (s.after e rounds).1.rewind = s
  /-- Two passes with nothing in between give the same, unless the first one has ended its transaction. -/
  again : (s.after e rounds).2.cache.Known → ∀ {n : Nat} {items : List (Except AccessFault Record)} {s' : Scan}
    {z : Engine}, Scan.items n (s.after e rounds).1.rewind (s.after e rounds).2 = (items, s', z) →
      (∀ item ∈ items, Answer.isAbort item = false) → (Scan.items n s'.rewind z).1 = items

end Engine

namespace Sample

/-- A transaction has put records on two pages. -/
def written : Engine :=
  engine.serveAll ([5, 6, 7, 8].map fun n => .call (.insert ⟨1⟩ table (record n)))

/-- It deletes both records of the first page after it was given one of them, and puts another one in its place. -/
def behind : List (List Request) :=
  [[], [.call (.delete ⟨1⟩ { record 5 with place := some ⟨⟨table, 0⟩, 0⟩ }),
    .call (.delete ⟨1⟩ { record 6 with place := some ⟨⟨table, 0⟩, 1⟩ }), .call (.insert ⟨1⟩ table (record 9))], [], []]

end Sample

end HeapStore
