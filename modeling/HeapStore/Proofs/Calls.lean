import HeapStore.Proofs.Scans

/-!
# Runs of calls

The calls of any number of transactions in any order, each done before the next one begins. A scan is drained by
one call, or each of its steps is a call.

* `Call.event`: what a call with its answer means for records.
* `Engine.run`, `Engine.log`: the engine after some calls, and the calls with their answers.
* `Engine.Effect`: what a call can come to. `Engine.call_effect`: **every call comes to one of these.**
* `Engine.Ready`: an engine as it was opened over its files. `Engine.Ready.run` says that whatever is called then,
  **copies, files and locks agree**, as long as page numbers have room.
-/

namespace HeapStore

/-- A call of an engine. -/
inductive Call where
  | begin
  | fetch (tx : TxId) (id : PageId) (mode : LockMode)
  | insert (tx : TxId) (table : TableId) (r : Record)
  | delete (tx : TxId) (r : Record)
  | scan (tx : TxId) (table : TableId)
  | step (s : Scan)
  | evict
  | commit (tx : TxId)
  | abort (tx : TxId)

/-- What a call gives. That of a drained scan begins with the number of pages that it was to visit. -/
inductive Answer where
  | began (tx : TxId)
  | fetched (result : Except AccessFault Page)
  | inserted (result : Except AccessFault RecordId)
  | deleted (result : Except AccessFault Unit)
  | scanned (pages : Nat) (result : Except EngineFault (List (Except AccessFault Record)))
  | stepped (item : Option (Except AccessFault Record))
  | evicted (result : Except AccessFault Unit)
  | ended (result : Except EngineFault Unit)

namespace Answer

/-- The call gave a fault. -/
def fails : Answer → Bool
  | began _ => false
  | fetched result => !result.isOk
  | inserted result => !result.isOk
  | deleted result => !result.isOk
  | scanned _ (.ok items) => items.any fun item => !item.isOk
  | scanned _ (.error _) => true
  | stepped item => item.any fun item => !item.isOk
  | evicted result => !result.isOk
  | ended result => !result.isOk

/-- A scan that gives only records gave no fault. -/
theorem fails_scanned (n : Nat) (rs : List Record) : fails (.scanned n (.ok (rs.map .ok))) = false := by
  show (rs.map Except.ok).any _ = false
  rw [List.any_map, List.any_eq_false]
  exact fun r _ => Bool.false_ne_true

/-- The item of a scan is a fault that has ended the transaction. -/
def isAbort : Except AccessFault Record → Bool
  | .ok _ => false
  | .error fault => fault.aborts

/-- The call gave a fault that has ended the transaction. -/
def aborts : Answer → Bool
  | fetched (.error fault) => fault.aborts
  | inserted (.error fault) => fault.aborts
  | deleted (.error fault) => fault.aborts
  | scanned _ (.ok items) => items.any isAbort
  | stepped item => item.any isAbort
  | _ => false

end Answer

/-- The transaction that makes the call. -/
def Call.tx? : Call → Option TxId
  | begin => none
  | fetch tx _ _ => some tx
  | insert tx _ _ => some tx
  | delete tx _ => some tx
  | scan tx _ => some tx
  | step s => some s.tx
  | evict => none
  | commit tx => some tx
  | abort tx => some tx

/-- The call ends its transaction. -/
def Call.ends : Call → Bool
  | commit _ => true
  | abort _ => true
  | _ => false

/-- What a call means for records: a slot gets fields or becomes free, or a transaction ends with its changes or
without them. -/
inductive Event where
  | nothing
  | changed (tx : TxId) (place : RecordId) (fields : Option (List Field))
  | kept (tx : TxId)
  | dropped (tx : TxId)

/-- What a call with its answer means. If it fails, its transaction has ended without its changes or nothing
happens. -/
def Call.event (c : Call) (a : Answer) : Event :=
  if a.fails then
    match c.tx? with
    | some tx => if a.aborts then .dropped tx else .nothing
    | none => .nothing
  else match c, a with
    | insert tx _ r, .inserted (.ok place) => .changed tx place (some r.fields)
    | delete tx r, .deleted (.ok ()) =>
      match r.place with
      | some place => .changed tx place none
      | none => .nothing
    | commit tx, _ => .kept tx
    | abort tx, _ => .dropped tx
    | _, _ => .nothing

theorem Call.event_of_fails {c : Call} {a : Answer} {tx : TxId} (hf : a.fails = true) (hc : c.tx? = some tx) :
    c.event a = if a.aborts then .dropped tx else .nothing := by
  unfold event
  rw [if_pos hf]
  simp only [hc]

theorem Call.event_deleted (tx : TxId) {r : Record} {place : RecordId} (hr : r.place = some place) :
    (delete tx r).event (.deleted (.ok ())) = .changed tx place none := by
  unfold event
  simp only [hr]
  rfl

/-- A scan that gives only records means nothing for them. -/
theorem Call.event_scanned (tx : TxId) (table : TableId) (n : Nat) (rs : List Record) :
    (scan tx table).event (.scanned n (.ok (rs.map .ok))) = .nothing := by
  unfold event
  rw [if_neg (by rw [Answer.fails_scanned]; exact Bool.false_ne_true)]

namespace Engine

variable {e e' : Engine} {c : Call} {calls : List Call}

/-- One call. -/
def call (e : Engine) : Call → Answer × Engine
  | .begin => (.began e.begin.1, e.begin.2)
  | .fetch tx id mode => (.fetched ((e.fetch tx id mode).1.map Frame.page), (e.fetch tx id mode).2)
  | .insert tx table r => (.inserted (e.insert tx table r).1, (e.insert tx table r).2)
  | .delete tx r => (.deleted (e.delete tx r).1, (e.delete tx r).2)
  | .scan tx table => (.scanned (e.pages table) (e.scan tx table).1, (e.scan tx table).2)
  | .step s => (.stepped (s.next e).1, (s.next e).2.2)
  | .evict => (.evicted e.evict.1, e.evict.2)
  | .commit tx => (.ended (e.commit tx).1, (e.commit tx).2)
  | .abort tx => (.ended (e.abort tx).1, (e.abort tx).2)

/-- The engine after some calls. -/
def run (e : Engine) : List Call → Engine
  | [] => e
  | c :: calls => (e.call c).2.run calls

/-- The calls with their answers. -/
def log (e : Engine) : List Call → List (Call × Answer)
  | [] => []
  | c :: calls => (c, (e.call c).1) :: (e.call c).2.log calls

theorem run_append (calls calls' : List Call) : ∀ e : Engine, e.run (calls ++ calls') = (e.run calls).run calls' := by
  induction calls with
  | nil =>
    intro e
    rfl
  | cons c calls ih =>
    intro e
    exact ih (e.call c).2

theorem log_append (calls calls' : List Call) :
    ∀ e : Engine, e.log (calls ++ calls') = e.log calls ++ (e.run calls).log calls' := by
  induction calls with
  | nil =>
    intro e
    rfl
  | cons c calls ih =>
    intro e
    exact congrArg ((c, (e.call c).1) :: ·) (ih (e.call c).2)

/-! ## What comes of a call -/

/-- What a call can come to. -/
inductive Effect (e : Engine) : Call → Answer → Engine → Prop where
  | began {tx : TxId} {e' : Engine} (hq : ∀ tx, Quiet tx e e') : Effect e .begin (.began tx) e'
  | evicted {result : Except AccessFault Unit} {e' : Engine} (hq : ∀ tx, Quiet tx e e') :
    Effect e .evict (.evicted result) e'
  | fetched {tx : TxId} {id : PageId} {mode : LockMode} {f : Frame} {e' : Engine} (h : Fetched tx id mode f e e') :
    Effect e (.fetch tx id mode) (.fetched (.ok f.page)) e'
  | inserted {tx : TxId} {table : TableId} {r : Record} {place : RecordId} {q : Page} {e' : Engine}
    (h : Inserted tx table r place q e e') : Effect e (.insert tx table r) (.inserted (.ok place)) e'
  | deleted {tx : TxId} {r : Record} {place : RecordId} {q : Page} {e' : Engine} (h : Deleted tx r place q e e') :
    Effect e (.delete tx r) (.deleted (.ok ())) e'
  /-- The scan has visited all pages, and the transaction holds them. -/
  | scanned {tx : TxId} {table : TableId} {e' : Engine} (hq : Quiet tx e e')
    (hp : ∀ j < e.pages table, (∃ p, (e.view tx).page ⟨table, j⟩ = .ok p) ∧
      (e'.locks.mode? tx ⟨table, j⟩).isSome) :
    Effect e (.scan tx table)
      (.scanned (e.pages table) (.ok (((e.view tx).listing table (e.pages table)).map .ok))) e'
  /-- The step has given a record that the transaction sees, or the scan has ended. -/
  | stepped {s : Scan} {item : Option Record} {e' : Engine} (hq : Quiet s.tx e e')
    (hr : ∀ r, item = some r → ∃ k, r ∈ (e.view s.tx).recordsOn ⟨s.file.table, k⟩) :
    Effect e (.step s) (.stepped (item.map .ok)) e'
  | kept {tx : TxId} {e' : Engine} (h : Keeps tx e e') : Effect e (.commit tx) (.ended (.ok ())) e'
  | dropped {tx : TxId} {e' : Engine} (h : Drops tx e e') : Effect e (.abort tx) (.ended (.ok ())) e'
  /-- The transaction was ended because another one holds a page. -/
  | timedOut {tx : TxId} {c : Call} {a : Answer} {e' : Engine} (hc : c.tx? = some tx) (hn : c.ends = false)
    (ha : a.aborts = true) (hf : a.fails = true) (h : Drops tx e e') : Effect e c a e'
  /-- Nothing has happened. -/
  | failed {tx : TxId} {c : Call} {a : Answer} {e' : Engine} (hc : c.tx? = some tx) (hn : c.ends = false)
    (ha : a.aborts = false) (hf : a.fails = true) (hq : Quiet tx e e') : Effect e c a e'

theorem Fails.effect {tx : TxId} {fault : AccessFault} {reason : Prop} {a : Answer} (h : Fails tx fault reason e e')
    (hc : c.tx? = some tx) (hn : c.ends = false) (ha : a.aborts = fault.aborts) (hf : a.fails = true) :
    Effect e c a e' := by
  cases h with
  | ended habort _ hd => exact .timedOut hc hn (ha.trans habort) hf hd
  | quiet habort hq _ => exact .failed hc hn (ha.trans habort) hf hq

theorem quiet_begin (h : e.Sound) (tx : TxId) (n : Nat) : Quiet tx e { e with lastTx := n } := by
  have hs : Sound { e with lastTx := n } := ⟨⟨h.catalog, ⟨h.present.held⟩, h.nodup, h.copies⟩, h.locks, h.locked⟩
  exact ⟨⟨⟨⟨hs, rfl, fun _ _ => rfl, fun _ _ _ => rfl, rfl, rfl⟩, rfl, fun _ => Paged.Grown.refl _ _⟩,
    fun _ hm => hm, fun _ hm => hm⟩, rfl, rfl⟩

theorem scan_effect (h : e.Sound) (tx : TxId) (table : TableId) :
    Effect e (.scan tx table) (.scanned (e.pages table) (e.scan tx table).1) (e.scan tx table).2 := by
  have hscan := scan_scanning h tx table
  generalize e.scan tx table = o at hscan
  cases hscan with
  | closed ha hf => exact .failed rfl rfl rfl rfl (Quiet.refl h tx)
  | drained hd =>
    cases hd with
    | all hq hp =>
      rw [View.recordsOf_range']
      exact .scanned hq fun j hj => hp j (Nat.zero_le j) hj
    | @cut _ fault j _ hj _ hf =>
      -- of all that the scan gives only the last item is a fault
      have habort : ∀ rs : List Record,
          (rs.map Except.ok ++ [Except.error fault]).any Answer.isAbort = fault.aborts := by
        intro rs
        have hrs : (rs.map Except.ok).any Answer.isAbort = false := by
          rw [List.any_map, List.any_eq_false]
          exact fun r _ => Bool.false_ne_true
        rw [List.any_append, hrs, Bool.false_or, List.any_cons, List.any_nil, Bool.or_false]
        rfl
      have hfail : ∀ rs : List Record,
          (rs.map Except.ok ++ [Except.error fault]).any (fun item => !item.isOk) = true := by
        intro rs
        rw [List.any_append, Bool.or_eq_true]
        exact .inr rfl
      exact hf.effect rfl rfl (habort _) (hfail _)

/-- **Every call comes to one of these effects.** -/
theorem call_effect (h : e.Sound) (c : Call) (hs : (e.call c).2.Small) : Effect e c (e.call c).1 (e.call c).2 := by
  cases c with
  | begin => exact .began fun tx => quiet_begin h tx _
  | evict => exact .evicted fun tx => quiet_evict h tx
  | fetch tx id mode =>
    show Effect e _ (.fetched ((e.fetch tx id mode).1.map Frame.page)) (e.fetch tx id mode).2
    cases hf : e.fetch tx id mode with
    | mk o e' =>
      cases o with
      | ok f => exact .fetched (fetch_ok h hf)
      | error fault => exact (fetch_error h hf).effect rfl rfl rfl rfl
  | insert tx table r =>
    have hi := insert_inserting h hs
    show Effect e _ (.inserted (e.insert tx table r).1) (e.insert tx table r).2
    generalize e.insert tx table r = o at hi
    cases hi with
    | inserted hi => exact .inserted hi
    | failed hf => exact hf.effect rfl rfl rfl rfl
  | delete tx r =>
    have hd : Deleting tx r e (e.delete tx r) := delete_deleting h
    show Effect e _ (.deleted (e.delete tx r).1) (e.delete tx r).2
    generalize e.delete tx r = o at hd
    cases hd with
    | deleted hd => exact .deleted hd
    | failed hf => exact hf.effect rfl rfl rfl rfl
  | scan tx table => exact scan_effect h tx table
  | step s =>
    have hn := next_stepping s e h
    show Effect e _ (.stepped (s.next e).1) (s.next e).2.2
    generalize s.next e = o at hn
    cases hn with
    | gave hq hr => exact .stepped hq hr
    | failed hf => exact hf.effect rfl rfl rfl rfl
  | commit tx =>
    obtain ⟨e', hrun, hk⟩ := complete_keep h tx
    show Effect e _ (.ended ((e.complete tx true).1.mapError .access)) (e.complete tx true).2
    rw [hrun]
    exact .kept hk
  | abort tx =>
    obtain ⟨e', hrun, hd, -⟩ := complete_drop h tx
    show Effect e _ (.ended ((e.complete tx false).1.mapError .access)) (e.complete tx false).2
    rw [hrun]
    exact .dropped hd

theorem Effect.sound {a : Answer} (h : Effect e c a e') : e'.Sound := by
  cases h with
  | began hq => exact (hq ⟨0⟩).sound
  | evicted hq => exact (hq ⟨0⟩).sound
  | fetched h => exact h.sound
  | inserted h => exact h.sound
  | deleted h => exact h.sound
  | scanned hq => exact hq.sound
  | stepped hq => exact hq.sound
  | kept h => exact h.sound
  | dropped h => exact h.sound
  | timedOut _ _ _ _ h => exact h.sound
  | failed _ _ _ _ h => exact h.sound

/-! ## Runs -/

theorem Stable.call {P : Engine → Prop} (hP : Stable P) (h : P e) (c : Call) : P (e.call c).2 := by
  cases c with
  | begin => exact hP.next _ h
  | evict => exact hP.evictOne h
  | fetch tx id mode => exact hP.fetch h tx id mode
  | insert tx table r => exact hP.insert h tx table r
  | delete tx r => exact hP.delete h tx r
  | scan tx table => exact hP.scan h tx table
  | step s => exact hP.scanNext s e h
  | commit tx => exact hP.complete h tx true
  | abort tx => exact hP.complete h tx false

theorem Stable.run {P : Engine → Prop} (hP : Stable P) (calls : List Call) : ∀ {e : Engine}, P e → P (e.run calls) := by
  induction calls with
  | nil => exact fun h => h
  | cons c calls ih => exact fun h => ih (hP.call h c)

theorem run_catalog (e : Engine) (calls : List Call) : (e.run calls).catalog = e.catalog :=
  ((stable_grows e).run calls (Outgrows.refl e)).1

/-- The files that are there stay there. -/
theorem Outgrows.present (ho : e.Outgrows e') (h : e.Present) : e'.Present := by
  refine ⟨fun {table file} hf' => ?_⟩
  have hf : e.file table = .ok file := (file_congr ho.1 table).symm.trans hf'
  obtain ⟨bytes, hb, -⟩ := ho.2 _ _ (h.held hf)
  rw [fileBytes_eq hf' hb]
  exact hb

/-- If page numbers have room after all calls, they have it after some of them. -/
theorem small_of_append (h : e.Present) (calls calls' : List Call) (hs : (e.run (calls ++ calls')).Small) :
    (e.run calls).Small := by
  have hp : (e.run calls).Present := ((stable_grows e).run calls (Outgrows.refl e)).present h
  rw [run_append] at hs
  exact ((stable_grows (e.run calls)).run calls' (Outgrows.refl _)).small hp hs

/-- **Induction on a run**: what holds of no calls, and of one more call before others, holds of all calls. -/
theorem Sound.run_induction {P : Engine → List (Call × Answer) → Engine → Prop}
    (nil : ∀ {e : Engine}, e.Sound → P e [] e)
    (cons : ∀ {e e' e'' : Engine} {c : Call} {a : Answer} {log : List (Call × Answer)}, e.Sound → Effect e c a e' →
      e'.Small → P e' log e'' → P e ((c, a) :: log) e'')
    (calls : List Call) : ∀ {e : Engine}, e.Sound → (e.run calls).Small → P e (e.log calls) (e.run calls) := by
  induction calls with
  | nil => exact fun h _ => nil h
  | cons c calls ih =>
    intro e h hs
    have hsmall : (e.call c).2.Small := small_of_append h.present [c] calls hs
    have heff := call_effect h c hsmall
    exact cons h heff hsmall (ih heff.sound hs)

theorem Sound.run (calls : List Call) (h : e.Sound) (hs : (e.run calls).Small) : (e.run calls).Sound :=
  Sound.run_induction (P := fun _ _ e' => e'.Sound) (fun h => h) (fun _ _ _ h => h) calls h hs

/-- An engine as it was opened over its files. -/
structure Ready (e : Engine) : Prop where
  catalog : e.catalog.Sound
  present : e.Present
  frames : e.cache.frames = []
  guarded : e.cache.guarded = []
  locks : e.locks = {}
  room : 0 < e.cache.capacity

namespace Ready

theorem draft (h : e.Ready) (tx : TxId) (id : PageId) : e.cache.draft tx id = none := by
  apply Cache.draft_of_not_mem
  unfold Cache.pages
  rw [h.frames]
  exact List.not_mem_nil

theorem mode? (h : e.Ready) (tx : TxId) (id : PageId) : e.locks.mode? tx id = none := by
  rw [h.locks]
  rfl

theorem roomy (h : e.Ready) : e.Roomy := by
  refine ⟨h.guarded, ?_⟩
  unfold Cache.changed
  rw [h.frames]
  exact h.room

theorem sound (h : e.Ready) : e.Sound where
  catalog := h.catalog
  present := h.present
  nodup := by
    unfold Cache.pages
    rw [h.frames]
    exact List.nodup_nil
  copies f hf := by
    rw [h.frames] at hf
    exact absurd hf List.not_mem_nil
  locks := by
    rw [h.locks]
    exact LockTable.sound_empty
  locked hd := by
    rw [h.draft] at hd
    cases hd

/-- **Whatever is called, copies, files and locks agree**, as long as page numbers have room. -/
theorem run (h : e.Ready) (hs : (e.run calls).Small) : (e.run calls).Sound := h.sound.run calls hs

end Ready

end Engine

end HeapStore
