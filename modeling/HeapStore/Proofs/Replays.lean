import HeapStore.Proofs.Calls
import HeapStore.Proofs.Listings

/-!
# Repeating the calls of a transaction

What the calls of a transaction come to depends on the bytes of few pages. An engine without other transactions
that has the same bytes there can repeat them.

* `View.Step`, `View.Steps`: a call that has succeeded, and such calls one after another, as their transaction sees
  them.
* `Footprint`: the pages that a call depends on. `View.Steps.rebase`: **where other pages have other bytes the same
  steps can be made.**
* `Engine.Alone`: no other transaction holds a page.
* `Engine.Alone.repeats`: **an engine of one transaction repeats its steps** as long as the cache has room, and no
  file grows beyond the pages that the steps have used.
-/

namespace HeapStore

/-! ## Steps -/

namespace View

variable {tx : TxId} {v w : View} {id : PageId} {table : TableId} {n m : Nat} {bytes : PageId → Bytes}
  {x : Call × Answer} {log : List (Call × Answer)}

/-- The first pages of a table are all that it has, and all of it can be read. -/
structure Covers (v : View) (table : TableId) (n : Nat) : Prop where
  readable : ∀ k, ∃ p, v.page ⟨table, k⟩ = .ok p
  behind : ∀ k, n ≤ k → v.recordsOn ⟨table, k⟩ = []

/-- A call that has succeeded, and what the transaction sees then. -/
inductive Step (tx : TxId) (v : View) : Call × Answer → View → Prop where
  | inserted {table : TableId} {r : Record} {place : RecordId} {q : Page} (h : v.Inserts table r place q) :
    Step tx v (.insert tx table r, .inserted (.ok place)) (v.put (q.mark (some tx)))
  | deleted {r : Record} {place : RecordId} {q : Page} (h : v.Deletes r place q) :
    Step tx v (.delete tx r, .deleted (.ok ())) (v.put (q.mark (some tx)))
  | scanned {table : TableId} {n : Nat} (h : 0 < n → v.Covers table n) :
    Step tx v (.scan tx table, .scanned n (.ok ((v.listing table n).map .ok))) v

/-- Calls that have succeeded one after another. -/
inductive Steps (tx : TxId) (v : View) : List (Call × Answer) → View → Prop where
  | nil : Steps tx v [] v
  | snoc {log : List (Call × Answer)} {x : Call × Answer} {w w' : View} (h : Steps tx v log w) (hx : Step tx w x w') :
    Steps tx v (log ++ [x]) w'

/-- Without calls the transaction sees what it saw. -/
theorem Steps.eq_of_nil (h : Steps tx v [] w) : w = v := by
  generalize hlog : ([] : List (Call × Answer)) = log at h
  cases h with
  | nil => rfl
  | snoc _ _ => exact absurd hlog.symm (List.append_ne_nil_of_right_ne_nil _ (List.cons_ne_nil _ _))

theorem Deletes.unique {r : Record} {place place' : RecordId} {q q' : Page} (h : v.Deletes r place q)
    (h' : v.Deletes r place' q') : place = place' ∧ q = q' := by
  obtain ⟨hr, p, hp, hq⟩ := h
  obtain ⟨hr', p', hp', hq'⟩ := h'
  have hplace : place = place' := Option.some.inj (hr.symm.trans hr')
  rw [hplace, hp'] at hp
  cases hp
  rw [hq] at hq'
  cases hq'
  exact ⟨hplace, rfl⟩

/-- Pages without records add nothing to a listing. -/
theorem listing_add (hb : ∀ k, n ≤ k → v.recordsOn ⟨table, k⟩ = []) (d : Nat) :
    v.listing table (n + d) = v.listing table n := by
  induction d with
  | zero => rfl
  | succ d ih =>
    rw [← ih]
    unfold listing recordsOf
    rw [← Nat.add_assoc, List.range_succ, List.flatMap_append, List.flatMap_cons, hb (n + d) (by omega)]
    simp

/-- Listings that cover a table are the same. -/
theorem listing_eq (hn : ∀ k, n ≤ k → v.recordsOn ⟨table, k⟩ = []) (hm : ∀ k, m ≤ k → v.recordsOn ⟨table, k⟩ = []) :
    v.listing table n = v.listing table m := by
  rcases Nat.le_total n m with h | h
  · obtain ⟨d, rfl⟩ := Nat.exists_eq_add_of_le h
    exact (listing_add hn d).symm
  · obtain ⟨d, rfl⟩ := Nat.exists_eq_add_of_le h
    exact listing_add hm d

/-! ## Other bytes -/

/-- The view with the same changes over other bytes. -/
def rebase (v : View) (bytes : PageId → Bytes) : View := { v with bytes }

theorem page_rebase (hb : bytes id = v.bytes id) : (v.rebase bytes).page id = v.page id := by
  have hs : (v.rebase bytes).stored id = v.stored id := by
    unfold stored rebase
    simp only [hb]
  unfold page
  rw [hs]
  rfl

theorem recordsOn_rebase (hb : bytes id = v.bytes id) : (v.rebase bytes).recordsOn id = v.recordsOn id := by
  unfold recordsOn
  rw [page_rebase hb]

end View

/-- The pages that a call depends on: those up to the place of a new record, the page of a deleted one, and all pages
of a table that was scanned, unless there was none. -/
def Footprint : Call × Answer → PageId → Prop
  | (.insert _ _ _, .inserted (.ok place)), id => id.table = place.page.table ∧ id.number ≤ place.page.number
  | (.delete _ r, _), id => r.place.map RecordId.page = some id
  | (.scan _ table, .scanned n _), id => 0 < n ∧ id.table = table
  | _, _ => False

namespace View

variable {tx : TxId} {v w : View} {id : PageId} {table : TableId} {n : Nat} {bytes : PageId → Bytes}
  {x : Call × Answer} {log : List (Call × Answer)}

/-- A step depends on the bytes of its footprint only. -/
theorem Step.rebase (h : Step tx v x w) (hb : ∀ id, Footprint x id → bytes id = v.bytes id) :
    Step tx (v.rebase bytes) x (w.rebase bytes) := by
  cases h with
  | @inserted table r place q h =>
    obtain ⟨ht, hbefore, p, hp, hq⟩ := h
    have hpage : ∀ k ≤ place.page.number, (v.rebase bytes).page ⟨table, k⟩ = v.page ⟨table, k⟩ :=
      fun k hk => page_rebase (hb _ ⟨ht.symm, hk⟩)
    refine .inserted ⟨ht, fun k hk => ?_, p, ?_, hq⟩
    · obtain ⟨p', hp', hfull⟩ := hbefore k hk
      exact ⟨p', by rw [hpage k hk.le]; exact hp', hfull⟩
    · rw [page_rebase (hb _ ⟨rfl, le_rfl⟩)]
      exact hp
  | @deleted r place q h =>
    obtain ⟨hr, p, hp, hq⟩ := h
    have hfoot : r.place.map RecordId.page = some place.page := by
      rw [hr]
      rfl
    refine .deleted ⟨hr, p, ?_, hq⟩
    rw [page_rebase (hb _ hfoot)]
    exact hp
  | @scanned table n h =>
    have hlist : v.listing table n = (v.rebase bytes).listing table n := by
      -- an empty listing depends on no page at all
      rcases Nat.eq_zero_or_pos n with rfl | hn
      · rfl
      · have hrec : (fun k => (v.rebase bytes).recordsOn ⟨table, k⟩) = fun k => v.recordsOn ⟨table, k⟩ :=
          funext fun k => recordsOn_rebase (hb _ ⟨hn, rfl⟩)
        unfold listing recordsOf
        rw [hrec]
    rw [hlist]
    refine .scanned fun hn => ?_
    have hpage : ∀ k, (v.rebase bytes).page ⟨table, k⟩ = v.page ⟨table, k⟩ := fun k => page_rebase (hb _ ⟨hn, rfl⟩)
    obtain ⟨hread, hbehind⟩ := h hn
    refine ⟨fun k => by rw [hpage]; exact hread k, fun k hk => ?_⟩
    rw [recordsOn_rebase (hb _ ⟨hn, rfl⟩)]
    exact hbehind k hk

theorem Step.bytes_eq (h : Step tx v x w) : w.bytes = v.bytes := by
  cases h <;> rfl

theorem Steps.bytes_eq (h : Steps tx v log w) : w.bytes = v.bytes := by
  induction h with
  | nil => rfl
  | snoc _ hx ih => exact hx.bytes_eq.trans ih

/-- **Steps depend on the bytes of their footprints only.** -/
theorem Steps.rebase (h : Steps tx v log w) (hb : ∀ x ∈ log, ∀ id, Footprint x id → bytes id = v.bytes id) :
    Steps tx (v.rebase bytes) log (w.rebase bytes) := by
  induction h with
  | nil => exact .nil
  | @snoc log x w w' h hx ih =>
    refine .snoc (ih fun y hy => hb y (List.mem_append_left _ hy)) (hx.rebase fun id hid => ?_)
    rw [h.bytes_eq]
    exact hb x (List.mem_append_right _ (List.mem_singleton.2 rfl)) id hid

end View

/-! ## An engine of one transaction -/

/-- The answer to a call that is repeated. It is the same one, but a scan of a table that had no pages yet is not
looked at. -/
def Answer.Repeats : Answer → Answer → Prop
  | scanned n result, scanned _ result' => 0 < n → result' = result
  | a, a' => a' = a

/-- A call that is repeated, with its answer. -/
def Repeats (x y : Call × Answer) : Prop := y.1 = x.1 ∧ x.2.Repeats y.2

/-- A new record lies on one of the first pages of its table. -/
def Within (n : TableId → Nat) : Call × Answer → Prop
  | (.insert _ _ _, .inserted (.ok place)) => place.page.number < n place.page.table
  | _ => True

namespace Engine

variable {e e' e'' : Engine} {tx : TxId} {v w : View} {table : TableId} {r : Record} {n : TableId → Nat} {k m : Nat}
  {x : Call × Answer} {log : List (Call × Answer)} {place : RecordId} {q : Page}

/-- No other transaction holds a page. -/
structure Alone (e : Engine) (tx : TxId) : Prop where
  sound : e.Sound
  small : e.Small
  guarded : e.cache.guarded = []
  others : ∀ tx' ≠ tx, ∀ id, e.locks.mode? tx' id = none

/-- An engine of one transaction after some of its calls: what the transaction sees, how many pages it has changed,
and how long the files can be. -/
structure Follows (tx : TxId) (n : TableId → Nat) (w : View) (k : Nat) (e e' : Engine) : Prop
    extends Spares tx e e' where
  small : e'.Small
  view : e'.view tx = w
  changed : e'.cache.changed ≤ e.cache.changed + k
  pages : ∀ t, e'.pages t ≤ n t

theorem Follows.trans (h : Follows tx n v k e e') (h' : Follows tx n w m e' e'') : Follows tx n w (k + m) e e'' where
  toSpares := h.toSpares.trans h'.toSpares
  small := h'.small
  view := h'.view
  changed := by
    have h1 := h.changed
    have h2 := h'.changed
    omega
  pages := h'.pages

theorem Puts.view_eq {page : Page} (h : Puts tx page e e') : e'.view tx = (e.view tx).put page := by
  have hd : e'.cache.draft tx = fun id => if id = page.id then some page else e.cache.draft tx id := funext h.draft
  unfold view View.put
  rw [h.catalog, h.bytes, hd]

/-- Pages behind the end of a file have no records. -/
theorem Coherent.recordsOn_behind (h : e.Coherent) (tx : TxId) (hk : e.pages table ≤ k) :
    (e.view tx).recordsOn ⟨table, k⟩ = [] := by
  rw [List.eq_nil_iff_forall_not_mem]
  intro r hr
  obtain ⟨slot, -, hc⟩ := View.mem_recordsOn (fun p hp => (h.of_view_page hp).1) hr
  have hbehind : e.pages (PageId.mk table k).table ≤ (PageId.mk table k).number := hk
  rw [h.contents_behind hbehind] at hc
  cases hc

namespace Alone

theorem roomy (h : e.Alone tx) (hr : e.cache.changed < e.cache.capacity) : e.Roomy := ⟨h.guarded, hr⟩

/-- Nobody is in the way, so a call that fails has a reason of its own. -/
theorem of_fails (h : e.Alone tx) (hr : e.cache.changed < e.cache.capacity) {fault : AccessFault} {reason : Prop}
    (hf : Fails tx fault reason e e') : Quiet tx e e' ∧ reason := by
  cases hf with
  | ended _ hc _ =>
    obtain ⟨tx', ht, id, hm⟩ := hc
    rw [h.others tx' ht] at hm
    cases hm
  | quiet _ hq hreason => exact ⟨hq, hreason (h.roomy hr)⟩

theorem spares (h : e.Alone tx) (hs : Spares tx e e') (hsmall : e'.Small) : e'.Alone tx where
  sound := hs.sound
  small := hsmall
  guarded := hs.guarded.trans h.guarded
  others tx' ht id := (hs.others tx' ht id).trans (h.others tx' ht id)

/-- A scan finds all records of a table that is covered. -/
theorem scan (h : e.Alone tx) (hr : e.cache.changed < e.cache.capacity) (table : TableId) :
    Quiet tx e (e.scan tx table).2 ∧
      ∀ m, (e.view tx).Covers table m → (e.scan tx table).1 = .ok (((e.view tx).listing table m).map .ok) := by
  have hscan := scan_scanning h.sound tx table
  generalize e.scan tx table = o at hscan
  cases hscan with
  | closed _ hf =>
    refine ⟨Quiet.refl h.sound tx, fun m hc => ?_⟩
    obtain ⟨fault, hf⟩ := hf
    -- a table that is covered is there
    obtain ⟨p, hp⟩ := hc.readable 0
    obtain ⟨-, file, hf', -⟩ := h.sound.of_view_page hp
    rw [hf] at hf'
    cases hf'
  | drained hd =>
    cases hd with
    | all hq hp =>
      refine ⟨hq, fun m hc => ?_⟩
      rw [View.recordsOf_range', View.listing_eq hc.behind fun k hk => h.sound.recordsOn_behind tx hk]
    | @cut _ fault j _ hj _ hf =>
      obtain ⟨hq, hlack⟩ := h.of_fails hr hf
      refine ⟨hq, fun m hc => ?_⟩
      obtain ⟨p, hp⟩ := hc.readable j
      rcases hlack with hle | ⟨fault, he⟩
      · exact absurd hle (Nat.not_le.2 hj)
      · rw [hp] at he
        cases he

/-- A record that the table takes is inserted, unless the cache has no room for its page. -/
theorem inserts (h : e.Alone tx) (hi : (e.view tx).Inserts table r place q)
    (hn : place.page.number + 1 < Paged.numberBound)
    (hr : (e.insert tx table r).1.isOk = true ∨ e.cache.changed < e.cache.capacity) :
    ∃ e', e.insert tx table r = (.ok place, e') ∧ Inserted tx table r place q e e' ∧ e'.Small ∧
      ∀ t, e'.pages t ≤ e.pages t ∨ t = table ∧ e'.pages t ≤ place.page.number + 1 := by
  obtain ⟨hsmall, hpages⟩ := insert_grows h.sound h.small hi hn
  have hins := insert_inserting h.sound hsmall
  generalize e.insert tx table r = o at hins hsmall hpages hr
  cases hins with
  | failed hf =>
    rcases hr with hr | hr
    · cases hr
    · exact absurd hi ((h.of_fails hr hf).2 place q)
  | inserted h' =>
    obtain ⟨rfl, rfl⟩ := hi.unique h'.inserts
    exact ⟨_, rfl, h', hsmall, hpages⟩

/-- **One step is repeated.** -/
theorem step (h : e.Alone tx) (hr : e.cache.changed < e.cache.capacity) (hx : View.Step tx (e.view tx) x w)
    (hn : ∀ t, n t < Paged.numberBound) (hp : ∀ t, e.pages t ≤ n t) (hw : Within n x) :
    Follows tx n w 1 e (e.call x.1).2 ∧ x.2.Repeats (e.call x.1).1 := by
  cases hx with
  | @inserted table r place q hi =>
    have hnumber : place.page.number < n table := by
      rw [← hi.inTable]
      exact hw
    -- the page that takes the record has room in the other engine, so it has room here
    obtain ⟨e', hrun, h', hsmall, hpages⟩ := h.inserts hi (by have := hn table; omega) (.inr hr)
    show Follows tx n _ 1 e (e.insert tx table r).2 ∧
      Answer.Repeats (.inserted (.ok place)) (.inserted (e.insert tx table r).1)
    rw [hrun]
    refine ⟨⟨h'.toSpares, hsmall, h'.toPuts.view_eq, h'.changed, fun t => ?_⟩, rfl⟩
    rcases hpages t with hle | ⟨rfl, hle⟩
    · exact hle.trans (hp t)
    · exact hle.trans hnumber
  | @deleted r place q hd =>
    have hdel : Deleting tx r e (e.delete tx r) := delete_deleting h.sound
    have hdisk := (steady_disk e.disk).delete (e := e) rfl tx r
    show Follows tx n _ 1 e (e.delete tx r).2 ∧ Answer.Repeats (.deleted (.ok ())) (.deleted (e.delete tx r).1)
    generalize e.delete tx r = o at hdel hdisk
    cases hdel with
    | failed hf => exact absurd hd ((h.of_fails hr hf).2 place q)
    | deleted h' =>
      obtain ⟨rfl, rfl⟩ := hd.unique h'.deletes
      refine ⟨⟨h'.toSpares, small_of_disk h'.catalog hdisk h.small, h'.toPuts.view_eq, h'.changed, fun t => ?_⟩, rfl⟩
      rw [pages_of_disk h'.catalog hdisk]
      exact hp t
  | @scanned table m hc =>
    obtain ⟨hq, hscan⟩ := h.scan hr table
    have hdisk := (steady_disk e.disk).scan (e := e) rfl tx table
    have hpages := fun t => pages_of_disk (e := e) hq.catalog hdisk t
    refine ⟨⟨hq.toSpares, small_of_disk hq.catalog hdisk h.small, hq.view_eq tx, ?_, fun t => ?_⟩,
      fun hm => hscan m (hc hm)⟩
    · exact hq.changed.trans_le (Nat.le_succ _)
    · exact (hpages t).trans_le (hp t)

/-- **An engine of one transaction repeats its steps.** -/
theorem repeats (hx : View.Steps tx v log w) (h : e.Alone tx) (hv : e.view tx = v)
    (hr : e.cache.changed + log.length ≤ e.cache.capacity) (hn : ∀ t, n t < Paged.numberBound)
    (hp : ∀ t, e.pages t ≤ n t) (hw : ∀ x ∈ log, Within n x) :
    Follows tx n w log.length e (e.run (log.map Prod.fst)) ∧
      List.Forall₂ Repeats log (e.log (log.map Prod.fst)) := by
  induction hx with
  | nil => exact ⟨⟨Spares.refl h.sound tx, h.small, hv, le_rfl, hp⟩, .nil⟩
  | @snoc log x w w' _ hx ih =>
    rw [List.length_append, List.length_singleton] at hr
    obtain ⟨hf, hlog⟩ := ih (by omega) fun y hy => hw y (List.mem_append_left _ hy)
    have hchanged := hf.changed
    have hcapacity := hf.capacity
    -- each step changes one page at most, so the cache has room for one more
    have hroom : (e.run (log.map Prod.fst)).cache.changed < (e.run (log.map Prod.fst)).cache.capacity := by omega
    rw [← hf.view] at hx
    obtain ⟨hf', hx'⟩ := (h.spares hf.toSpares hf.small).step hroom hx hn hf.pages
      (hw x (List.mem_append_right _ (List.mem_singleton.2 rfl)))
    rw [List.map_append, run_append, log_append, List.length_append]
    exact ⟨hf.trans hf', List.rel_append hlog (.cons ⟨rfl, hx'⟩ .nil)⟩

end Alone

end Engine

end HeapStore
