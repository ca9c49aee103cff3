import HeapStore.Proofs.Calls
import HeapStore.Proofs.Listings
import HeapStore.Proofs.Opening

/-!
# Transactions see only their own changes

A ledger says what is in the slots of each page, once for what has been committed and once more for each
transaction and each page that it has changed since. It knows nothing of copies, locks and files.

* `Ledger.after`: what an event makes of the ledger. `Ledger.Allows`: the answers that the ledger allows.
* `Engine.ledger`: the ledger of an engine.
* `Engine.Effect.refines`: **one call** of an engine is a call of its ledger.
* `Engine.run_isolated`: **so is every run.** A scan without a fault gives exactly the records that the ledger has
  for its transaction, whatever the others have done in between.
-/

namespace HeapStore

/-- What has been committed, and what each transaction has made of the pages that it has changed since. -/
structure Ledger where
  committed : PageId → Contents
  drafts : TxId → PageId → Option Contents

namespace Ledger

variable (l : Ledger) (tx : TxId)

/-- What a transaction has: its own version of a page, or the committed one. -/
def seen (id : PageId) : Contents := (l.drafts tx id).getD (l.committed id)

/-- The ledger after a transaction has changed a slot in its own version of a page. -/
def change (place : RecordId) (fields : Option (List Field)) : Ledger :=
  { l with drafts := fun tx' id =>
      if tx' = tx ∧ id = place.page then
        some fun slot => if slot = place.slot then fields else l.seen tx id slot
      else l.drafts tx' id }

/-- The ledger after the versions of a transaction are gone. -/
def drop : Ledger := { l with drafts := fun tx' id => if tx' = tx then none else l.drafts tx' id }

/-- The ledger after the versions of a transaction have become the committed ones. -/
def keep : Ledger := { l.drop tx with committed := l.seen tx }

/-- What an event makes of the ledger. -/
def after : Event → Ledger
  | .nothing => l
  | .changed tx place fields => l.change tx place fields
  | .kept tx => l.keep tx
  | .dropped tx => l.drop tx

/-- The answers that the ledger allows. Transactions can always be ended. -/
def Allows : Call → Answer → Prop
  | .fetch tx id _, .fetched (.ok p) => p.id = id ∧ p.contents = l.seen tx id
  | .insert tx table _, .inserted (.ok place) =>
    place.page.table = table ∧ l.seen tx place.page place.slot = none
  | .delete tx r, .deleted (.ok ()) =>
    ∃ place, r.place = some place ∧ l.seen tx place.page place.slot = some r.fields
  | .scan tx table, .scanned n (.ok items) => Answer.fails (.scanned n (.ok items)) = false →
    ∃ rs, items = rs.map .ok ∧
      Lists (fun place fields => place.page.table = table ∧ l.seen tx place.page place.slot = some fields) rs
  | .step s, .stepped (some (.ok r)) =>
    ∃ place, r.place = some place ∧ place.page.table = s.file.table ∧
      l.seen s.tx place.page place.slot = some r.fields
  | .commit _, a => a.fails = false
  | .abort _, a => a.fails = false
  | _, _ => True

/-- Calls with answers that the ledger allows, and that make another ledger of it. -/
def Explains : Ledger → List (Call × Answer) → Ledger → Prop
  | l, [], l' => l' = l
  | l, (c, a) :: log, l' => l.Allows c a ∧ (l.after (c.event a)).Explains log l'

variable {l tx}

theorem drafts_change {place : RecordId} {fields : Option (List Field)} {tx' : TxId} {id : PageId} :
    (l.change tx place fields).drafts tx' id = if tx' = tx ∧ id = place.page then
      some fun slot => if slot = place.slot then fields else l.seen tx id slot else l.drafts tx' id := rfl

/-- A fault is always allowed, but to those who end a transaction. -/
theorem allows_of_fails {c : Call} {a : Answer} (hf : a.fails = true) (hn : c.ends = false) : l.Allows c a := by
  unfold Allows
  split
  · cases hf
  · cases hf
  · cases hf
  · intro h
    rw [hf] at h
    cases h
  · cases hf
  · cases hn
  · cases hn
  · trivial

end Ledger

namespace Engine

variable {e e' : Engine} {tx : TxId} {c : Call} {a : Answer} {p q : Page}

/-- What has been committed: the stored pages. -/
def base (e : Engine) : View := ⟨e.catalog, e.pageBytes, fun _ => none⟩

/-- The committed fields in each slot of a page. -/
def committed (e : Engine) (id : PageId) : Contents := e.base.contents id

/-- The ledger of an engine. -/
def ledger (e : Engine) : Ledger := ⟨e.committed, fun tx id => (e.cache.draft tx id).map Page.contents⟩

theorem drafts_ledger (e : Engine) (tx : TxId) (id : PageId) :
    e.ledger.drafts tx id = (e.cache.draft tx id).map Page.contents := rfl

theorem ledger_ext {l : Ledger} (hc : ∀ id, e.committed id = l.committed id)
    (hd : ∀ tx id, (e.cache.draft tx id).map Page.contents = l.drafts tx id) : e.ledger = l := by
  obtain ⟨committed, drafts⟩ := l
  exact congr (congrArg Ledger.mk (funext hc)) (funext fun tx => funext fun id => hd tx id)

theorem Leaves.base_eq (h : Leaves tx e e') : e'.base = e.base := by
  unfold base
  rw [h.catalog, h.bytes]

theorem Leaves.committed (h : Leaves tx e e') (id : PageId) : e'.committed id = e.committed id := by
  unfold Engine.committed
  rw [h.base_eq]

/-- A page that a transaction has not changed it sees as it is stored. -/
theorem view_page_of_none {id : PageId} (h : e.cache.draft tx id = none) :
    (e.view tx).page id = e.base.page id := View.page_of_none h

/-- What the ledger has for a transaction is what the transaction sees. -/
theorem seen_ledger (e : Engine) (tx : TxId) (id : PageId) : e.ledger.seen tx id = (e.view tx).contents id := by
  unfold Ledger.seen
  rw [drafts_ledger]
  cases hd : e.cache.draft tx id with
  | some p =>
    have hv : (e.view tx).page id = .ok p := View.page_of_draft hd
    rw [View.contents_of_ok hv]
    rfl
  | none =>
    show e.base.contents id = _
    unfold View.contents
    rw [view_page_of_none hd]

theorem Quiet.ledger (h : Quiet tx e e') : e'.ledger = e.ledger := by
  refine ledger_ext h.committed fun tx' id => ?_
  have hd : e'.cache.draft tx' = e.cache.draft tx' := congrArg View.draft (h.view_eq tx')
  rw [hd]
  rfl

theorem Drops.ledger (h : Drops tx e e') : e'.ledger = e.ledger.drop tx := by
  refine ledger_ext h.committed fun tx' id => ?_
  show _ = if tx' = tx then none else (e.cache.draft tx' id).map Page.contents
  by_cases ht : tx' = tx
  · rw [ht, h.draft, if_pos rfl]
    rfl
  · rw [h.drafts tx' ht, if_neg ht]

/-- A page that changes in one slot is a change of one slot in the ledger. -/
theorem Puts.ledger {place : RecordId} {fields : Option (List Field)} (h : Puts tx (q.mark (some tx)) e e')
    (hp : (e.view tx).page place.page = .ok p) (hid : place.page = p.id) (hch : p.Changes q place.slot fields) :
    e'.ledger = e.ledger.change tx place fields := by
  refine ledger_ext h.committed fun tx' id => ?_
  rw [Ledger.drafts_change]
  by_cases ht : tx' = tx
  · rw [ht, h.draft]
    show (if id = q.id then _ else _ : Option Page).map Page.contents = _
    rw [hch.id, ← hid]
    by_cases hi : id = place.page
    · subst hi
      rw [if_pos rfl, if_pos ⟨rfl, rfl⟩]
      show some q.contents = _
      refine congrArg some (funext fun slot => ?_)
      rw [hch.contents, seen_ledger, View.contents_of_ok hp]
    · rw [if_neg hi, if_neg (fun h => hi h.2)]
      rfl
  · rw [h.drafts tx' ht, if_neg (fun h => ht h.1)]
    rfl

theorem Keeps.bytes_of_none (h : Keeps tx e e') {id : PageId} (hd : e.cache.draft tx id = none) :
    e'.pageBytes id = e.pageBytes id := by
  have hb : e'.pageBytes id = (e.view tx).keep.bytes id := congrFun h.bytes id
  rw [hb]
  unfold View.keep view
  simp only [hd]

/-- A page that the transaction has not changed is stored as it was. -/
theorem Keeps.base_of_none (h : Keeps tx e e') {id : PageId} (hd : e.cache.draft tx id = none) :
    e'.base.page id = e.base.page id := by
  have hb := h.bytes_of_none hd
  have hst : e'.base.stored id = e.base.stored id := by
    unfold base View.stored
    rw [h.catalog]
    simp only [hb]
  rw [View.page_of_none rfl, View.page_of_none rfl, hst]

/-- A page that the transaction has changed is read back as the transaction saw it. -/
theorem Keeps.base_of_draft (hs : e.Sound) (h : Keeps tx e e') {id : PageId} (hd : e.cache.draft tx id = some p) :
    e'.base.page id = .ok (p.mark none).settle := by
  obtain ⟨hid, -, file, hf, hsch, hz, -⟩ := hs.of_draft hd
  have hb : e'.pageBytes id = p.encode := by
    have hb : e'.pageBytes id = (e.view tx).keep.bytes id := congrFun h.bytes id
    rw [hb]
    unfold View.keep view
    simp only [hd]
  have hf' : e'.base.catalog.tableFile id.table = .ok file := by
    show e'.catalog.tableFile id.table = _
    rw [h.catalog]
    exact hf
  have hdec : Page.decode id file.schema file.pageSize p.encode = .ok (p.mark none).settle := by
    rw [← hid, ← hsch, ← hz]
    refine p.decode_encode ?_
    rw [hsch, hz]
    exact hs.catalog.slots hf
  rw [View.page_of_none rfl, View.stored_eq hf']
  show (Page.decode id file.schema file.pageSize (e'.pageBytes id)).mapError AccessFault.record = _
  rw [hb, hdec]
  rfl

/-- What is committed at the end of a transaction is what the transaction saw. -/
theorem Keeps.committed (hs : e.Sound) (h : Keeps tx e e') (id : PageId) :
    e'.committed id = (e.view tx).contents id := by
  unfold Engine.committed
  cases hd : e.cache.draft tx id with
  | none =>
    unfold View.contents
    rw [h.base_of_none hd, view_page_of_none hd]
  | some p =>
    have hv : (e.view tx).page id = .ok p := View.page_of_draft hd
    rw [View.contents_of_ok (h.base_of_draft hs hd), View.contents_of_ok hv]
    rfl

theorem Keeps.ledger (hs : e.Sound) (h : Keeps tx e e') : e'.ledger = e.ledger.keep tx := by
  refine ledger_ext (fun id => ?_) fun tx' id => ?_
  · show _ = e.ledger.seen tx id
    rw [h.committed hs, seen_ledger]
  · show _ = if tx' = tx then none else (e.cache.draft tx' id).map Page.contents
    by_cases ht : tx' = tx
    · rw [ht, h.draft, if_pos rfl]
      rfl
    · rw [h.drafts tx' ht, if_neg ht]

/-- **One call of an engine is a call of its ledger.** -/
theorem Effect.refines (hs : e.Sound) (h : Effect e c a e') :
    e.ledger.Allows c a ∧ e'.ledger = e.ledger.after (c.event a) := by
  cases h with
  | began hq => exact ⟨trivial, (hq ⟨0⟩).ledger⟩
  | @evicted result _ hq =>
    refine ⟨trivial, ?_⟩
    rw [(hq ⟨0⟩).ledger]
    cases result <;> rfl
  | @fetched tx id _ f _ h =>
    refine ⟨⟨(hs.of_view_page h.page).1, ?_⟩, h.toQuiet.ledger⟩
    rw [seen_ledger, View.contents_of_ok h.page]
  | @inserted tx table r place q _ h =>
    obtain ⟨ht, -, p, hp, hq⟩ := h.inserts
    obtain ⟨hid, hfree, -, hch⟩ := Page.insert_ok hq
    refine ⟨⟨ht, ?_⟩, h.toPuts.ledger hp hid hch⟩
    rw [seen_ledger, View.contents_of_ok hp]
    exact hfree
  | @deleted tx r place q _ h =>
    obtain ⟨hr, p, hp, hq⟩ := h.deletes
    obtain ⟨slot, hslot, hc, hch⟩ := Page.delete_ok hq
    rw [hr] at hslot
    cases hslot
    refine ⟨⟨_, hr, ?_⟩, ?_⟩
    · rw [seen_ledger, View.contents_of_ok hp]
      exact hc
    · rw [Call.event_deleted tx hr]
      exact h.toPuts.ledger hp rfl hch
  | @scanned tx table _ hq hp =>
    refine ⟨fun _ => ⟨_, rfl, ?_⟩, ?_⟩
    · simp only [seen_ledger]
      exact listing_all hs.toCoherent tx table
    · rw [hq.ledger, Call.event_scanned]
      rfl
  | @stepped s item _ hq hr =>
    rw [hq.ledger]
    cases item with
    | none => exact ⟨trivial, rfl⟩
    | some r =>
      obtain ⟨k, hk⟩ := hr r rfl
      obtain ⟨slot, hplace, hc⟩ := View.mem_recordsOn (fun p hp => (hs.of_view_page hp).1) hk
      refine ⟨⟨_, hplace, rfl, ?_⟩, rfl⟩
      rw [seen_ledger]
      exact hc
  | kept h => exact ⟨rfl, h.ledger hs⟩
  | dropped h => exact ⟨rfl, h.ledger⟩
  | timedOut hc hn ha hf h =>
    refine ⟨Ledger.allows_of_fails hf hn, ?_⟩
    rw [Call.event_of_fails hf hc, if_pos ha, h.ledger]
    rfl
  | failed hc hn ha hf hq =>
    refine ⟨Ledger.allows_of_fails hf hn, ?_⟩
    rw [Call.event_of_fails hf hc, if_neg (by rw [ha]; exact Bool.false_ne_true), hq.ledger]
    rfl

/-- The calls of a run are calls of the ledger. -/
theorem Sound.explains (calls : List Call) (h : e.Sound) (hs : (e.run calls).Small) :
    e.ledger.Explains (e.log calls) (e.run calls).ledger := by
  refine Sound.run_induction (P := fun e log e' => e.ledger.Explains log e'.ledger) (fun _ => rfl) ?_ calls h hs
  intro e e' e'' c a log h heff _ hrest
  obtain ⟨hallow, hafter⟩ := heff.refines h
  rw [hafter] at hrest
  exact ⟨hallow, hrest⟩

/-- **Transactions see only their own changes.** An engine was opened over its files, and any calls of any
transactions are made, as long as page numbers have room. Then no transaction has changed a page at first, each
answer is one that the ledger allows, and the engine ends with the ledger that these calls have made. -/
theorem run_isolated (h : e.Ready) (calls : List Call) (hs : (e.run calls).Small) :
    (∀ tx id, e.ledger.drafts tx id = none) ∧ e.ledger.Explains (e.log calls) (e.run calls).ledger := by
  refine ⟨fun tx id => ?_, h.sound.explains calls hs⟩
  show (e.cache.draft tx id).map Page.contents = none
  rw [h.draft]
  rfl

end Engine

namespace Sample

/-- Two transactions on one page: the second one is ended because of the first, and does more after it. -/
def turns : List Call :=
  [.begin, .insert ⟨1⟩ table (record 5), .begin, .scan ⟨2⟩ table, .commit ⟨1⟩, .insert ⟨2⟩ table (record 6), .evict,
    .scan ⟨2⟩ table, .abort ⟨2⟩]

theorem run_isolated_turns : engine.Ready ∧ (engine.run turns).Small ∧
    (∀ tx id, engine.ledger.drafts tx id = none) ∧
    engine.ledger.Explains (engine.log turns) (engine.run turns).ledger :=
  have hs : (engine.run turns).Small := small (by decide +kernel)
  ⟨ready, hs, Engine.run_isolated ready turns hs⟩

end Sample

end HeapStore
