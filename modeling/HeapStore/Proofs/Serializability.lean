import HeapStore.Proofs.Tracks

/-!
# Transactions one after another

The calls of a run are put into another order: those of each transaction together, at the place where it was
committed. Calls that failed are left out, and so are transactions that have ended otherwise.

* `Schedule`: the calls in this order, and those of transactions that are still running. `serial` makes a schedule of
  the calls of a run.
* `Engine.Mirrors`: an engine that nobody uses stores the same, but for blank pages at the ends of files.
* `Engine.Serializes`: an engine that has made the calls of a schedule gave the same answers and stores the same.
  `Serializes.step` says that **each call keeps it so.**
* `Engine.run_serializable`: **every run does what its transactions do one after another**, in the order in which they
  were committed.
-/

namespace HeapStore

/-! ## Schedules -/

/-- The transaction that changes or scans a table by the call. -/
def Call.worker? : Call → Option TxId
  | insert tx _ _ => some tx
  | delete tx _ => some tx
  | scan tx _ => some tx
  | _ => none

/-- The calls of committed transactions, one transaction after another, and those of running transactions. -/
structure Schedule where
  done : List (Call × Answer) := []
  pending : TxId → List (Call × Answer) := fun _ => []

namespace Schedule

variable (s : Schedule) (tx : TxId) (x : Call × Answer)

/-- The schedule with one more call of a running transaction. -/
def note : Schedule :=
  { s with pending := fun tx' => if tx' = tx then s.pending tx ++ [x] else s.pending tx' }

/-- The schedule without the calls of a running transaction. -/
def drop : Schedule := { s with pending := fun tx' => if tx' = tx then [] else s.pending tx' }

/-- The schedule after a transaction was committed by a call. -/
def keep : Schedule := { s.drop tx with done := s.done ++ (s.pending tx ++ [x]) }

/-- The schedule after a call. Changes and scans count if they have succeeded. -/
def after : Schedule :=
  match x.1.event x.2, x.1.worker? with
  | .kept tx, _ => s.keep tx x
  | .dropped tx, _ => s.drop tx
  | _, some tx => if x.2.fails then s else s.note tx x
  | _, none => s

variable {s tx x}

theorem after_of_fails (hf : x.2.fails = true) (hc : x.1.tx? = some tx) :
    s.after x = if x.2.aborts then s.drop tx else s := by
  unfold after
  rw [Call.event_of_fails hf hc]
  cases x.2.aborts with
  | true => rfl
  | false =>
    cases x.1.worker? with
    | none => rfl
    | some tx' => exact if_pos hf

theorem length_done_after : s.done.length ≤ (s.after x).done.length := by
  unfold after
  split
  · unfold keep
    rw [List.length_append]
    omega
  · exact le_rfl
  · split <;> exact le_rfl
  · exact le_rfl

theorem length_done_le (log : List (Call × Answer)) : ∀ s : Schedule,
    s.done.length ≤ (log.foldl after s).done.length := by
  induction log with
  | nil => exact fun _ => le_rfl
  | cons x log ih => exact fun s => length_done_after.trans (ih (s.after x))

end Schedule

/-- The schedule of the calls of a run. -/
def serial (log : List (Call × Answer)) : Schedule := log.foldl Schedule.after {}

namespace Engine

variable {e e' f f' : Engine} {tx : TxId} {c : Call} {a : Answer} {log : List (Call × Answer)} {s : Schedule}

/-! ## Engines that store the same -/

/-- An engine that nobody uses stores the same, and its files are not longer. -/
structure Mirrors (e f : Engine) : Prop where
  sound : f.Sound
  small : f.Small
  guarded : f.cache.guarded = []
  catalog : f.catalog = e.catalog
  bytes : f.pageBytes = e.pageBytes
  pages : ∀ table, f.pages table ≤ e.pages table
  draft : ∀ tx id, f.cache.draft tx id = none
  unlocked : ∀ tx id, f.locks.mode? tx id = none

namespace Mirrors

theorem leaves (h : Mirrors e f) (hm : Leaves tx e e') (hs : e'.Small) : Mirrors e' f where
  sound := h.sound
  small := h.small
  guarded := h.guarded
  catalog := h.catalog.trans hm.catalog.symm
  bytes := h.bytes.trans hm.bytes.symm
  pages table := (h.pages table).trans (hm.pages_le hs table)
  draft := h.draft
  unlocked := h.unlocked

theorem alone (h : Mirrors e f) (tx : TxId) : f.Alone tx := ⟨h.sound, h.small, h.guarded, fun tx' _ => h.unlocked tx'⟩

theorem view_eq (h : Mirrors e f) (tx : TxId) : f.view tx = e.base := by
  unfold view base
  rw [h.catalog, h.bytes, funext (h.draft tx)]

/-- **A transaction is committed in both**: where nobody uses the engine its calls are made only now. -/
theorem keeps (h : Mirrors e f) (ht : e.Tracks tx log) (hk : Keeps tx e e') (hroom : log.length ≤ f.cache.capacity) :
    Mirrors e' (f.run (log.map Prod.fst ++ [.commit tx])) ∧
      (f.run (log.map Prod.fst ++ [.commit tx])).cache.capacity = f.cache.capacity ∧
      List.Forall₂ Repeats (log ++ [(.commit tx, .ended (.ok ()))]) (f.log (log.map Prod.fst ++ [.commit tx])) := by
  have hzero : f.cache.changed = 0 := Cache.changed_eq_zero h.sound.nodup h.draft
  obtain ⟨hf, hlog⟩ := (h.alone tx).repeats (n := e.pages) ht.steps (h.view_eq tx) (by omega)
    e.pages_lt h.pages fun x hx => (ht.guards x hx).within
  -- then the transaction ends in the other engine too
  obtain ⟨f2, hrun, hk2⟩ := complete_keep hf.sound tx
  have hcall : (f.run (log.map Prod.fst)).call (.commit tx) = (.ended (.ok ()), f2) := by
    show (Answer.ended (((f.run (log.map Prod.fst)).complete tx true).1.mapError .access), _) = _
    unfold commit raised
    rw [hrun]
    rfl
  have hrun2 : f.run (log.map Prod.fst ++ [.commit tx]) = f2 := by
    rw [run_append]
    exact congrArg Prod.snd hcall
  have hlog2 : f.log (log.map Prod.fst ++ [.commit tx]) =
      f.log (log.map Prod.fst) ++ [(.commit tx, .ended (.ok ()))] := by
    rw [log_append]
    exact congrArg (fun o => _ ++ [(Call.commit tx, o)]) (congrArg Prod.fst hcall)
  rw [hrun2, hlog2]
  refine ⟨⟨hk2.sound, hk2.small hf.small, ?_, ?_, ?_, fun table => ?_, fun tx' id => ?_, fun tx' id => ?_⟩, ?_,
    List.rel_append hlog (.cons ⟨rfl, rfl⟩ .nil)⟩
  · rw [hk2.guarded, hf.guarded, h.guarded]
  · rw [hk2.catalog, hf.catalog, h.catalog, hk.catalog]
  · -- both store the changes that the transaction sees
    rw [hk2.bytes, hk.bytes, hf.view]
  · rw [hk2.pages_eq, hk.pages_eq]
    exact hf.pages table
  · by_cases htx : tx' = tx
    · rw [htx]
      exact hk2.draft id
    · rw [hk2.drafts tx' htx, hf.drafts tx' htx]
      exact h.draft tx' id
  · by_cases htx : tx' = tx
    · rw [htx]
      exact hk2.unlocked id
    · rw [hk2.others tx' htx, hf.others tx' htx]
      exact h.unlocked tx' id
  · rw [hk2.capacity, hf.capacity]

end Mirrors

/-! ## Runs -/

/-- Another engine has made the calls of the schedule: it has given the same answers and stores the same, and what is
pending could go on from there. -/
structure Serializes (f : Engine) (e : Engine) (s : Schedule) : Prop where
  small : e.Small
  repeats : List.Forall₂ Repeats s.done (f.log (s.done.map Prod.fst))
  mirrors : Mirrors e (f.run (s.done.map Prod.fst))
  capacity : (f.run (s.done.map Prod.fst)).cache.capacity = f.cache.capacity
  tracks : ∀ tx, e.Tracks tx (s.pending tx)

namespace Serializes

/-- A move that stores nothing. -/
theorem leaves (h : Serializes f e s) (hm : Leaves tx e e') (hs : e'.Small)
    {pending : TxId → List (Call × Answer)} (ht : ∀ tx, e'.Tracks tx (pending tx)) :
    Serializes f e' { s with pending } :=
  ⟨hs, h.repeats, h.mirrors.leaves hm hs, h.capacity, ht⟩

theorem quiet (h : Serializes f e s) (he : e.Sound) (hq : Quiet tx e e') (hs : e'.Small) : Serializes f e' s :=
  h.leaves hq.toLeaves hs fun tx' => (h.tracks tx').quiet he hq hs

theorem drops (h : Serializes f e s) (he : e.Sound) (hd : Drops tx e e') (hs : e'.Small) :
    Serializes f e' (s.drop tx) := by
  refine h.leaves hd.toLeaves hs fun tx' => ?_
  by_cases ht : tx' = tx
  · rw [if_pos ht, ht]
    exact .nil hd.draft
  · rw [if_neg ht]
    exact (h.tracks tx').drops he hd ht hs

/-- One more call of a running transaction. -/
theorem note (h : Serializes f e s) (hm : Holds tx e e') (hs : e'.Small) {x : Call × Answer}
    (hx : View.Step tx (e.view tx) x (e'.view tx)) (hg : e'.Guards tx x)
    (ht : ∀ tx' ≠ tx, e'.Tracks tx' (s.pending tx')) : Serializes f e' (s.note tx x) := by
  refine h.leaves hm.toLeaves hs fun tx' => ?_
  by_cases htx : tx' = tx
  · rw [if_pos htx, htx]
    exact (h.tracks tx).snoc hm hs hx hg
  · rw [if_neg htx]
    exact ht tx' htx

/-- The transaction is committed in both. -/
theorem keeps (h : Serializes f e s) (he : e.Sound) (hk : Keeps tx e e')
    (hroom : (s.keep tx (.commit tx, .ended (.ok ()))).done.length ≤ f.cache.capacity) :
    Serializes f e' (s.keep tx (.commit tx, .ended (.ok ()))) := by
  -- what is pending becomes a part of what is done, for which there is room
  have hpending : (s.pending tx).length ≤ f.cache.capacity := by
    unfold Schedule.keep at hroom
    simp only [List.length_append] at hroom
    omega
  rw [← h.capacity] at hpending
  obtain ⟨hmirrors, hcapacity, hlog⟩ := h.mirrors.keeps (h.tracks tx) hk hpending
  have hmap : (s.keep tx (.commit tx, .ended (.ok ()))).done.map Prod.fst =
      s.done.map Prod.fst ++ ((s.pending tx).map Prod.fst ++ [.commit tx]) := by
    unfold Schedule.keep
    simp only [List.map_append, List.map_cons, List.map_nil]
  refine ⟨hk.small h.small, ?_, ?_, ?_, fun tx' => ?_⟩
  · rw [hmap, log_append]
    exact List.rel_append h.repeats hlog
  · rw [hmap, run_append]
    exact hmirrors
  · rw [hmap, run_append, hcapacity]
    exact h.capacity
  · show e'.Tracks tx' (if tx' = tx then [] else s.pending tx')
    by_cases ht : tx' = tx
    · rw [if_pos ht, ht]
      exact .nil hk.draft
    · rw [if_neg ht]
      exact (h.tracks tx').keeps he hk ht

/-- **Each call keeps it so.** -/
theorem step (h : Serializes f e s) (he : e.Sound) (heff : Effect e c a e') (hs : e'.Small)
    (hroom : (s.after (c, a)).done.length ≤ f.cache.capacity) : Serializes f e' (s.after (c, a)) := by
  cases heff with
  | began hq => exact h.quiet he (hq ⟨0⟩) hs
  | @evicted result _ hq => cases result <;> exact h.quiet he (hq ⟨0⟩) hs
  | fetched hf => exact h.quiet he hf.toQuiet hs
  | @stepped _ item _ hq => cases item <;> exact h.quiet he hq hs
  | @inserted tx table r place q _ hi =>
    have htable : place.page.table = table := hi.inserts.inTable
    -- the call is one step more, guarded by the locks on all pages up to the new record
    refine h.note hi.toHolds hs ?_ ?_ fun tx' ht => (h.tracks tx').inserted he hi ht hs
    · rw [hi.toPuts.view_eq]
      exact .inserted hi.inserts
    · refine ⟨?_, fun k hk => ?_⟩
      · rw [htable]
        exact hi.inFile
      · rw [htable]
        exact hi.locked k hk
  | @deleted tx r place q _ hd =>
    -- the record names its page, and that page is held
    have hplace := hd.deletes.placed
    have hev : s.after (.delete tx r, .deleted (.ok ())) = s.note tx (.delete tx r, .deleted (.ok ())) := by
      unfold Schedule.after
      rw [Call.event_deleted tx hplace]
      rfl
    rw [hev]
    refine h.note hd.toHolds hs ?_ ?_ fun tx' ht => (h.tracks tx').deleted he hd ht hs
    · rw [hd.toPuts.view_eq]
      exact .deleted hd.deletes
    · intro id hid
      rw [hplace] at hid
      cases hid
      exact hd.locked
  | @scanned tx table _ hq hp =>
    have hev : ∀ rs : List Record, s.after (.scan tx table, .scanned (e.pages table) (.ok (rs.map .ok))) =
        s.note tx (.scan tx table, .scanned (e.pages table) (.ok (rs.map .ok))) := by
      intro rs
      unfold Schedule.after
      rw [Call.event_scanned]
      show (if Answer.fails _ = true then s else _) = _
      rw [Answer.fails_scanned]
      rfl
    rw [hev]
    refine h.note hq.toHolds hs ?_ (fun hn => (he.watched hq hn hp).2) fun tx' _ => (h.tracks tx').quiet he hq hs
    rw [hq.view_eq]
    exact .scanned fun hn => (he.watched hq hn hp).1
  | kept hk => exact h.keeps he hk hroom
  | dropped hd => exact h.drops he hd hs
  | timedOut hc hn ha hf hd =>
    rw [Schedule.after_of_fails hf hc, if_pos ha]
    exact h.drops he hd hs
  | failed hc hn ha hf hq =>
    have ha' : ¬ a.aborts = true := by
      rw [ha]
      exact Bool.false_ne_true
    rw [Schedule.after_of_fails hf hc, if_neg ha']
    exact h.quiet he hq hs

end Serializes

/-- Two engines that were opened over the same files serialize each other before the first call. -/
theorem Ready.serializes (he : e.Ready) (hf : f.Ready) (hc : f.catalog = e.catalog) (hd : f.disk = e.disk)
    (hs : e.Small) : Serializes f e {} where
  small := hs
  repeats := .nil
  mirrors :=
    { sound := hf.sound
      small := small_of_disk hc hd hs
      guarded := hf.guarded
      catalog := hc
      bytes := by
        show f.pageBytes = e.pageBytes
        funext id
        unfold pageBytes fileBytes file
        rw [hc, hd]
      pages := fun table => (pages_of_disk hc hd table).le
      draft := hf.draft
      unlocked := hf.mode? }
  capacity := rfl
  tracks tx := .nil (he.draft tx)

/-- The calls of a run are serialized. -/
theorem Sound.serializes (calls : List Call) (h : e.Sound) (hs : (e.run calls).Small) :
    ∀ s, Serializes f e s → ((e.log calls).foldl Schedule.after s).done.length ≤ f.cache.capacity →
      Serializes f (e.run calls) ((e.log calls).foldl Schedule.after s) := by
  refine Sound.run_induction (P := fun e log e' => ∀ s, Serializes f e s →
    (log.foldl Schedule.after s).done.length ≤ f.cache.capacity → Serializes f e' (log.foldl Schedule.after s))
    (fun _ _ hser _ => hser) ?_ calls h hs
  intro e e' e'' c a log h heff hsmall hrest s hser hroom
  have hle := Schedule.length_done_le log (s.after (c, a))
  exact hrest _ (hser.step h heff hsmall (hle.trans hroom)) hroom

/-- **Every run does what its transactions do one after another.** An engine was opened over its files, and any calls
of any transactions are made, as long as page numbers have room. Another engine was opened over the same files, and
its cache has room for the calls of all transactions that were committed. These calls, one transaction after another
in the order in which they were committed, come to the same there: each record goes to the same place, each deletion
succeeds, each scan that visited a page gives the same records. Then both store the same pages, but for blank ones at
the ends of files, and whoever has no calls pending sees the same in both. -/
theorem run_serializable (he : e.Ready) (hf : f.Ready) (hc : f.catalog = e.catalog) (hd : f.disk = e.disk)
    (calls : List Call) (hs : (e.run calls).Small) (hroom : (serial (e.log calls)).done.length ≤ f.cache.capacity) :
    let s := serial (e.log calls)
    let f' := f.run (s.done.map Prod.fst)
    List.Forall₂ Repeats s.done (f.log (s.done.map Prod.fst)) ∧
      f'.pageBytes = (e.run calls).pageBytes ∧ (∀ table, f'.pages table ≤ (e.run calls).pages table) ∧
      ∀ tx, s.pending tx = [] → f'.view tx = (e.run calls).view tx := by
  intro s f'
  have hsmall : e.Small := small_of_append he.present [] calls hs
  have hser : Serializes f (e.run calls) s :=
    he.sound.serializes calls hs {} (he.serializes hf hc hd hsmall) hroom
  refine ⟨hser.repeats, hser.mirrors.bytes, hser.mirrors.pages, fun tx hp => ?_⟩
  have htracks := (hser.tracks tx).steps
  rw [hp] at htracks
  exact (hser.mirrors.view_eq tx).trans htracks.eq_of_nil.symm

end Engine

namespace Sample

/-- The same engine with room for more pages. -/
def roomy : Engine := { engine with cache := { capacity := 16 } }

theorem ready_roomy : roomy.Ready :=
  ⟨ready.catalog, ⟨ready.present.held⟩, rfl, rfl, ready.locks, by decide⟩

/-- Three transactions, the second of which is ended once by the first, reads before the third, and is committed after
it. -/
def swap : List Call :=
  [.begin, .begin, .insert ⟨1⟩ table (record 5), .scan ⟨2⟩ table, .commit ⟨1⟩, .begin, .scan ⟨2⟩ table,
    .scan ⟨3⟩ table, .commit ⟨3⟩, .insert ⟨2⟩ table (record 6), .commit ⟨2⟩]

theorem run_serializable_swap : engine.Ready ∧ roomy.Ready ∧ (engine.run swap).Small ∧
    (serial (engine.log swap)).done.length = 7 ∧
    let s := serial (engine.log swap)
    let f' := roomy.run (s.done.map Prod.fst)
    List.Forall₂ Repeats s.done (roomy.log (s.done.map Prod.fst)) ∧
      f'.pageBytes = (engine.run swap).pageBytes ∧ (∀ table, f'.pages table ≤ (engine.run swap).pages table) ∧
      ∀ tx, s.pending tx = [] → f'.view tx = (engine.run swap).view tx :=
  have hs : (engine.run swap).Small := small (by decide +kernel)
  have hlength : (serial (engine.log swap)).done.length = 7 := by decide +kernel
  have hroom : (serial (engine.log swap)).done.length ≤ roomy.cache.capacity := by
    rw [hlength]
    decide
  ⟨ready, ready_roomy, hs, hlength, Engine.run_serializable ready ready_roomy rfl rfl swap hs hroom⟩

end Sample

end HeapStore
