import HeapStore.Proofs.Rollback

/-!
# Locks that are denied

A call asks for one lock after another. The first one that is denied is the end of the call and of its transaction,
wherever the call is at that moment: it may hold several pages already, or have made its file longer.

* `Ask`: a lock that is asked for, with the engine as it is then.
* `Engine.FirstAsks`, `Engine.NewAsks`, `Engine.NextAsks`, `Engine.ItemsAsk`, `Engine.CallAsks`: what the functions of an
  engine ask for, and what each call asks for.
* `CallAsks.denied`: a call whose lock is denied fails with this lock as its cause, and leaves what aborting the
  transaction leaves. `CallAsks.of_aborts`: no call aborts its transaction for another reason.
* `Engine.timeout_is_abort`: **a denied lock is an abort from just before it**, and nothing can be kept afterwards.
-/

namespace HeapStore

/-- A lock that is asked for, and the engine as it is then. -/
structure Ask where
  engine : Engine
  page : PageId
  mode : LockMode

namespace Ask

variable (a : Ask) (tx : TxId)

/-- The holders of the page forbid it. -/
def Denied : Prop := a.engine.locks.grant? tx a.page a.mode = none

/-- The transaction was aborted for it. -/
def fault : AccessFault := .aborted tx (.timeout tx a.page a.mode)

/-- The engine once the transaction was aborted for it. -/
def ended : Engine := (a.engine.abort tx).2

end Ask

/-- The fault that a result is, if it is one. -/
def faultOf? {α : Type} : Except AccessFault α → Option AccessFault
  | .ok _ => none
  | .error fault => some fault

/-- The first fault of access that a call gave. -/
def Answer.fault? : Answer → Option AccessFault
  | .fetched result => faultOf? result
  | .inserted result => faultOf? result
  | .deleted result => faultOf? result
  | .scanned _ (.ok items) => items.findSome? faultOf?
  | .stepped item => item.bind faultOf?
  | .evicted result => faultOf? result
  | _ => none

namespace Engine

variable {e e' : Engine} {a : Ask} {tx : TxId} {id : PageId} {mode : LockMode} {file : TableFile} {r : Record}
  {s : Scan} {numbers : List Nat} {n : Nat} {fault : AccessFault} {c : Call}

/-! ## What is asked for -/

/-- What a search for a free slot on some pages asks for. -/
inductive FirstAsks (file : TableFile) (tx : TxId) : List Nat → Engine → Ask → Prop where
  | here {number : Nat} {numbers : List Nat} {e : Engine} :
    FirstAsks file tx (number :: numbers) e ⟨e, file.pageId number, .exclusive⟩
  | later {number : Nat} {numbers : List Nat} {e e' : Engine} {f : Frame} {a : Ask}
    (hf : e.fetch tx (file.pageId number) .exclusive = (.ok f, e')) (hfull : f.page.freeSlots = 0)
    (ha : FirstAsks file tx numbers e' a) : FirstAsks file tx (number :: numbers) e a

/-- What appending pages until one has a free slot asks for. -/
inductive NewAsks (file : TableFile) (tx : TxId) (r : Record) : (tries : Nat) → Engine → Ask → Prop where
  | here {tries number : Nat} {disk : Disk} {e : Engine} {a : Ask} (hn : file.append e.disk = .ok (number, disk))
    (ha : FirstAsks file tx [number] { e with disk } a) : NewAsks file tx r (tries + 1) e a
  | later {tries number : Nat} {disk : Disk} {e e' : Engine} {a : Ask} (hn : file.append e.disk = .ok (number, disk))
    (hp : putOnFirst file tx r [number] { e with disk } = (.ok none, e')) (ha : NewAsks file tx r tries e' a) :
    NewAsks file tx r (tries + 1) e a

/-- What one step of a scan asks for. -/
inductive NextAsks : Scan → Engine → Ask → Prop where
  | here {s : Scan} {e : Engine} (hd : ¬ s.done = true) (hn : ¬ s.pageCount ≤ s.number) :
    NextAsks s e ⟨e, s.file.pageId s.number, .shared⟩
  | later {s : Scan} {e e' : Engine} {f : Frame} {a : Ask} (hd : ¬ s.done = true) (hn : ¬ s.pageCount ≤ s.number)
    (hf : e.fetch s.tx (s.file.pageId s.number) .shared = (.ok f, e')) (hr : Scan.recordFrom? f.page s.slot = none)
    (ha : NextAsks { s with number := s.number + 1, slot := 0 } e' a) : NextAsks s e a

/-- What some steps of a scan ask for. -/
inductive ItemsAsk : (n : Nat) → Scan → Engine → Ask → Prop where
  | here {n : Nat} {s : Scan} {e : Engine} {a : Ask} (ha : NextAsks s e a) : ItemsAsk (n + 1) s e a
  | later {n : Nat} {s s' : Scan} {e e' : Engine} {item : Except AccessFault Record} {a : Ask}
    (hn : s.next e = (some item, s', e')) (ha : ItemsAsk n s' e' a) : ItemsAsk (n + 1) s e a

/-- What a call asks for. -/
inductive CallAsks (e : Engine) : Call → Ask → Prop where
  | fetch {tx : TxId} {id : PageId} {mode : LockMode} : CallAsks e (.fetch tx id mode) ⟨e, id, mode⟩
  | first {tx : TxId} {table : TableId} {r : Record} {file : TableFile} {count : Nat} {a : Ask}
    (hf : e.file table = .ok file) (ht : r.schema.types = file.schema.types) (hc : file.count e.disk = .ok count)
    (ha : FirstAsks file tx (List.range count) e a) : CallAsks e (.insert tx table r) a
  | new {tx : TxId} {table : TableId} {r : Record} {file : TableFile} {count : Nat} {e' : Engine} {a : Ask}
    (hf : e.file table = .ok file) (ht : r.schema.types = file.schema.types) (hc : file.count e.disk = .ok count)
    (hp : putOnFirst file tx r (List.range count) e = (.ok none, e'))
    (ha : NewAsks file tx r (e'.cache.frames.length + 1) e' a) : CallAsks e (.insert tx table r) a
  | delete {tx : TxId} {r : Record} {place : RecordId} {file : TableFile} {count : Nat} (hr : r.location = .ok place)
    (hf : e.file place.page.table = .ok file) (ht : place.page.table = file.table)
    (hc : file.count e.disk = .ok count) (hn : place.page.number < count) :
    CallAsks e (.delete tx r) ⟨e, place.page, .exclusive⟩
  | step {s : Scan} {a : Ask} (ha : NextAsks s e a) : CallAsks e (.step s) a
  | scan {tx : TxId} {table : TableId} {s : Scan} {a : Ask} (hs : Scan.ofTable e tx table = .ok s)
    (ha : ItemsAsk s.bound s e a) : CallAsks e (.scan tx table) a

/-! ## A lock that is denied -/

theorem Ask.fetch_eq (hd : a.Denied tx) : a.engine.fetch tx a.page a.mode = (.error (a.fault tx), a.ended tx) :=
  fetch_denied hd

theorem FirstAsks.denied (ha : FirstAsks file tx numbers e a) (hd : a.Denied tx) (r : Record) :
    putOnFirst file tx r numbers e = (.error (a.fault tx), a.ended tx) := by
  induction ha with
  | here =>
    have hf := Ask.fetch_eq hd
    unfold putOnFirst
    rw [hf]
  | later hf hfull _ ih =>
    unfold putOnFirst
    rw [hf]
    simp only [hfull, if_true]
    exact ih hd

theorem NewAsks.denied (ha : NewAsks file tx r n e a) (hd : a.Denied tx) :
    putOnNew file tx r n e = (.error (a.fault tx), a.ended tx) := by
  induction ha with
  | here hn ha =>
    have hp := ha.denied hd r
    unfold putOnNew
    rw [hn]
    simp only [hp]
  | later hn hp _ ih =>
    unfold putOnNew
    rw [hn]
    simp only [hp]
    exact ih hd

theorem NextAsks.denied (ha : NextAsks s e a) (hd : a.Denied s.tx) :
    ∃ s', s.next e = (some (.error (a.fault s.tx)), s', a.ended s.tx) := by
  induction ha with
  | @here s e hn hlt =>
    have hf := Ask.fetch_eq hd
    refine ⟨s.finish, ?_⟩
    unfold Scan.next
    rw [if_neg hn, if_neg hlt, hf]
  | @later s e e' f a hn hlt hf hr _ ih =>
    obtain ⟨s', hs'⟩ := ih hd
    refine ⟨s', ?_⟩
    unfold Scan.next
    rw [if_neg hn, if_neg hlt, hf]
    simp only [hr]
    exact hs'

/-- A scan that has ended asks for nothing. -/
theorem NextAsks.not_done (ha : NextAsks s e a) : ¬ s.done = true := by
  cases ha with
  | here hd _ => exact hd
  | later hd _ _ _ _ => exact hd

theorem ItemsAsk.not_done (ha : ItemsAsk n s e a) : ¬ s.done = true := by
  cases ha with
  | here ha => exact ha.not_done
  | later hn _ =>
    intro hd
    unfold Scan.next at hn
    rw [if_pos hd] at hn
    cases hn

/-- A step belongs to the same transaction as the scan, and one that gives a fault ends it. -/
theorem next_scan (s : Scan) (e : Engine) : (s.next e).2.1.tx = s.tx ∧
    ∀ fault, (s.next e).1 = some (.error fault) → (s.next e).2.1.done = true := by
  induction s, e using Scan.next.induct with
  | case1 s e hd =>
    unfold Scan.next
    rw [if_pos hd]
    refine ⟨rfl, fun fault h => ?_⟩
    cases h
  | case2 s e hd hn =>
    unfold Scan.next
    rw [if_neg hd, if_pos hn]
    refine ⟨rfl, fun fault h => ?_⟩
    cases h
  | case3 s e hd hn fault e' hf =>
    unfold Scan.next
    rw [if_neg hd, if_neg hn, hf]
    exact ⟨rfl, fun _ _ => rfl⟩
  | case4 s e hd hn f e' hf slot r hr =>
    have hstep : s.next e = (some (.ok r), { s with slot := slot + 1 }, e') := by
      unfold Scan.next
      rw [if_neg hd, if_neg hn, hf]
      simp only [hr]
    rw [hstep]
    refine ⟨rfl, fun fault h => ?_⟩
    cases h
  | case5 s e hd hn f e' hf hr ih =>
    unfold Scan.next
    rw [if_neg hd, if_neg hn, hf]
    simp only [hr]
    exact ih

theorem ItemsAsk.denied (ha : ItemsAsk n s e a) (hd : a.Denied s.tx) : ∃ rs s',
    Scan.items n s e = (List.map .ok rs ++ [.error (a.fault s.tx)], s', a.ended s.tx) := by
  induction ha with
  | @here n s e a ha =>
    obtain ⟨s', hs'⟩ := ha.denied hd
    have hscan := next_scan s e
    rw [hs'] at hscan
    have hdone : s' = s'.finish := by
      unfold Scan.finish
      rw [← hscan.2 _ rfl]
    refine ⟨[], s', ?_⟩
    unfold Scan.items
    rw [hs']
    simp only
    rw [hdone, Scan.items_finish]
    rfl
  | @later n s s' e e' item a hn ha ih =>
    have hscan := next_scan s e
    rw [hn] at hscan
    obtain ⟨htx, hend⟩ := hscan
    have htx : s'.tx = s.tx := htx
    rw [htx] at ih
    obtain ⟨rs, s'', hrest⟩ := ih hd
    cases item with
    | error fault => exact absurd (hend fault rfl) ha.not_done
    | ok r =>
      refine ⟨r :: rs, s'', ?_⟩
      unfold Scan.items
      rw [hn]
      simp only [hrest]
      rfl

theorem tx_of_ofTable {table : TableId} (h : Scan.ofTable e tx table = .ok s) : s.tx = tx := by
  unfold Scan.ofTable at h
  split at h
  · cases h
  · split at h
    · cases h
    · cases h
      rfl

/-- The items that a scan gave end with the only fault among them. -/
theorem fault?_scanned (n : Nat) (rs : List Record) (fault : AccessFault) :
    Answer.fault? (.scanned n (.ok (rs.map .ok ++ [.error fault]))) = some fault := by
  show List.findSome? _ _ = _
  rw [List.findSome?_append]
  have hrs : (rs.map Except.ok).findSome? faultOf? = none := by
    rw [List.findSome?_eq_none_iff]
    intro item hm
    obtain ⟨r, -, rfl⟩ := List.mem_map.1 hm
    rfl
  rw [hrs]
  rfl

/-- **A call whose lock is denied fails for this lock**, and leaves what aborting the transaction leaves. -/
theorem CallAsks.denied (ha : CallAsks e c a) (hc : c.tx? = some tx) (hd : a.Denied tx) :
    (e.call c).1.fault? = some (a.fault tx) ∧ (e.call c).2 = a.ended tx := by
  cases ha with
  | fetch =>
    cases hc
    show (Answer.fetched ((e.fetch tx _ _).1.map Frame.page)).fault? = _ ∧ (e.fetch tx _ _).2 = _
    have hrun : e.fetch tx _ _ = _ := Ask.fetch_eq hd
    rw [hrun]
    exact ⟨rfl, rfl⟩
  | @first _ table r file count _ hf ht hcount ha =>
    cases hc
    have hrun : e.insert tx table r = (.error (a.fault tx), a.ended tx) := by
      unfold insert insertInto
      simp only [hf, hcount, ha.denied hd r]
      rw [if_neg (not_not_intro ht)]
    show (Answer.inserted (e.insert tx table r).1).fault? = _ ∧ (e.insert tx table r).2 = _
    rw [hrun]
    exact ⟨rfl, rfl⟩
  | @new _ table r file count e' _ hf ht hcount hp ha =>
    cases hc
    have hrun : e.insert tx table r = (.error (a.fault tx), a.ended tx) := by
      unfold insert insertInto
      simp only [hf, hcount, hp, ha.denied hd]
      rw [if_neg (not_not_intro ht)]
    show (Answer.inserted (e.insert tx table r).1).fault? = _ ∧ (e.insert tx table r).2 = _
    rw [hrun]
    exact ⟨rfl, rfl⟩
  | @delete _ r place file count hr hf ht hcount hn =>
    cases hc
    let a : Ask := ⟨e, place.page, .exclusive⟩
    have hfetch : e.fetch tx place.page .exclusive = (.error (a.fault tx), a.ended tx) := Ask.fetch_eq hd
    have hrun : e.delete tx r = (.error (a.fault tx), a.ended tx) := by
      unfold Engine.delete deleteFrom
      simp only [hr, hf, hcount, hfetch]
      rw [if_neg (not_not_intro ht), if_neg (Nat.not_le.2 hn)]
    show (Answer.deleted (e.delete tx r).1).fault? = _ ∧ (e.delete tx r).2 = _
    rw [hrun]
    exact ⟨rfl, rfl⟩
  | @step s _ ha =>
    cases hc
    obtain ⟨s', hrun⟩ := ha.denied hd
    show (Answer.stepped (s.next e).1).fault? = _ ∧ (s.next e).2.2 = _
    rw [hrun]
    exact ⟨rfl, rfl⟩
  | @scan _ table s _ hs ha =>
    cases hc
    have htx : s.tx = tx := tx_of_ofTable hs
    rw [← htx] at hd
    obtain ⟨rs, s', hitems⟩ := ha.denied hd
    rw [htx] at hitems
    have hrun : e.scan tx table = (.ok (rs.map .ok ++ [.error (a.fault tx)]), a.ended tx) := by
      unfold Engine.scan
      simp only [hs, hitems]
    show (Answer.scanned (e.pages table) (e.scan tx table).1).fault? = _ ∧ (e.scan tx table).2 = _
    rw [hrun]
    exact ⟨fault?_scanned _ _ _, rfl⟩

/-! ## What aborts a transaction -/

theorem denied_of_fetch (hf : e.fetch tx id mode = (.error fault, e')) (h : fault.aborts = true) :
    Ask.Denied ⟨e, id, mode⟩ tx := by
  cases hg : e.locks.grant? tx id mode with
  | none => exact hg
  | some locks =>
    rw [fetch_granted hg] at hf
    rw [aborts_of_load hf] at h
    cases h

theorem aborts_of_putInto {f : Frame} (hp : (e.putInto f tx r).1 = .error fault) : fault.aborts = false := by
  unfold putInto at hp
  split at hp
  · cases hp
    rfl
  · cases hp

theorem aborts_of_mapError {ε α : Type} {o : Except ε α} {g : ε → AccessFault} (hg : ∀ cause, (g cause).aborts = false)
    (h : o.mapError g = .error fault) : fault.aborts = false := by
  unfold Except.mapError at h
  split at h
  · cases h
    exact hg _
  · cases h

theorem asks_of_putOnFirst (hp : (putOnFirst file tx r numbers e).1 = .error fault) (h : fault.aborts = true) :
    ∃ a, FirstAsks file tx numbers e a ∧ a.Denied tx := by
  induction numbers generalizing e with
  | nil => cases hp
  | cons number numbers ih =>
    unfold putOnFirst at hp
    split at hp
    · next hf =>
      cases hp
      exact ⟨_, .here, denied_of_fetch hf h⟩
    · next hf =>
      split at hp
      · next hfull =>
        obtain ⟨a, ha, hd⟩ := ih hp
        exact ⟨a, .later hf hfull ha, hd⟩
      · -- a record that does not fit aborts nothing
        simp only [Except.map] at hp
        split at hp
        · next hput =>
          cases hp
          rw [aborts_of_putInto hput] at h
          cases h
        · cases hp

theorem asks_of_putOnNew (hp : (putOnNew file tx r n e).1 = .error fault) (h : fault.aborts = true) :
    ∃ a, NewAsks file tx r n e a ∧ a.Denied tx := by
  induction n generalizing e with
  | zero =>
    cases hp
    cases h
  | succ n ih =>
    unfold putOnNew at hp
    split at hp
    · next hn =>
      cases hp
      rw [aborts_of_mapError (fun _ => rfl) hn] at h
      cases h
    · next hn =>
      split at hp
      · next hfirst =>
        cases hp
        obtain ⟨a, ha, hd⟩ := asks_of_putOnFirst (congrArg Prod.fst hfirst) h
        exact ⟨a, .here hn ha, hd⟩
      · cases hp
      · next hfirst =>
        obtain ⟨a, ha, hd⟩ := ih hp
        exact ⟨a, .later hn hfirst ha, hd⟩

theorem asks_of_insert {table : TableId} (hi : (e.insert tx table r).1 = .error fault) (h : fault.aborts = true) :
    ∃ a, CallAsks e (.insert tx table r) a ∧ a.Denied tx := by
  unfold insert at hi
  split at hi
  · next hf =>
    cases hi
    rw [aborts_of_mapError (fun _ => rfl) hf] at h
    cases h
  · next hf =>
    unfold insertInto at hi
    split at hi
    · cases hi
      cases h
    · next ht =>
      have ht := not_not.1 ht
      split at hi
      · next hc =>
        cases hi
        rw [aborts_of_mapError (fun _ => rfl) hc] at h
        cases h
      · next hc =>
        split at hi
        · next hp =>
          cases hi
          obtain ⟨a, ha, hd⟩ := asks_of_putOnFirst (congrArg Prod.fst hp) h
          exact ⟨a, .first hf ht hc ha, hd⟩
        · cases hi
        · next hp =>
          obtain ⟨a, ha, hd⟩ := asks_of_putOnNew hi h
          exact ⟨a, .new hf ht hc hp ha, hd⟩

theorem asks_of_delete (hi : (e.delete tx r).1 = .error fault) (h : fault.aborts = true) :
    ∃ a, CallAsks e (.delete tx r) a ∧ a.Denied tx := by
  unfold Engine.delete at hi
  split at hi
  · cases hi
    cases h
  · next place hr =>
    split at hi
    · cases hi
      cases h
    · next file hf =>
      unfold deleteFrom at hi
      rw [hr] at hi
      simp only at hi
      split at hi
      · cases hi
        cases h
      · next ht =>
        have ht := not_not.1 ht
        split at hi
        · next hc =>
          cases hi
          rw [aborts_of_mapError (fun _ => rfl) hc] at h
          cases h
        · next hc =>
          split at hi
          · cases hi
            cases h
          · next hn =>
            have hn := Nat.not_le.1 hn
            split at hi
            · next hfetch =>
              cases hi
              exact ⟨_, .delete hr hf ht hc hn, denied_of_fetch hfetch h⟩
            · unfold takeFrom at hi
              split at hi
              · cases hi
                cases h
              · cases hi

theorem asks_of_next (s : Scan) (e : Engine) (hn : (s.next e).1 = some (.error fault)) (h : fault.aborts = true) :
    ∃ a, NextAsks s e a ∧ a.Denied s.tx := by
  induction s, e using Scan.next.induct with
  | case1 s e hd =>
    unfold Scan.next at hn
    rw [if_pos hd] at hn
    cases hn
  | case2 s e hd hlt =>
    unfold Scan.next at hn
    rw [if_neg hd, if_pos hlt] at hn
    cases hn
  | case3 s e hd hlt fault' e' hf =>
    unfold Scan.next at hn
    rw [if_neg hd, if_neg hlt, hf] at hn
    cases hn
    exact ⟨_, .here hd hlt, denied_of_fetch hf h⟩
  | case4 s e hd hlt f e' hf slot r hr =>
    unfold Scan.next at hn
    rw [if_neg hd, if_neg hlt, hf] at hn
    simp only [hr] at hn
    cases hn
  | case5 s e hd hlt f e' hf hr ih =>
    unfold Scan.next at hn
    rw [if_neg hd, if_neg hlt, hf] at hn
    simp only [hr] at hn
    obtain ⟨a, ha, hdenied⟩ := ih hn
    exact ⟨a, .later hd hlt hf hr ha, hdenied⟩

theorem asks_of_items (hi : (Scan.items n s e).1.any Answer.isAbort = true) :
    ∃ a, ItemsAsk n s e a ∧ a.Denied s.tx := by
  induction n generalizing s e with
  | zero => cases hi
  | succ n ih =>
    have hscan := next_scan s e
    unfold Scan.items at hi
    split at hi
    · cases hi
    · next item s' e' hn =>
      rw [hn] at hscan
      have htx : s'.tx = s.tx := hscan.1
      rw [List.any_cons, Bool.or_eq_true] at hi
      rcases hi with hi | hi
      · cases item with
        | ok r => cases hi
        | error fault =>
          obtain ⟨a, ha, hd⟩ := asks_of_next s e (congrArg Prod.fst hn) hi
          exact ⟨a, .here ha, hd⟩
      · obtain ⟨a, ha, hd⟩ := ih hi
        rw [htx] at hd
        exact ⟨a, .later hn ha, hd⟩

/-- **No call aborts its transaction unless a lock is denied.** -/
theorem CallAsks.of_aborts (h : (e.call c).1.aborts = true) :
    ∃ tx a, c.tx? = some tx ∧ CallAsks e c a ∧ a.Denied tx := by
  cases c with
  | begin => cases h
  | evict => cases h
  | commit tx => cases h
  | abort tx => cases h
  | fetch tx id mode =>
    replace h : (Answer.fetched ((e.fetch tx id mode).1.map Frame.page)).aborts = true := h
    cases hf : e.fetch tx id mode with
    | mk o e' =>
      rw [hf] at h
      cases o with
      | ok f => cases h
      | error fault => exact ⟨tx, _, rfl, .fetch, denied_of_fetch hf h⟩
  | insert tx table r =>
    replace h : (Answer.inserted (e.insert tx table r).1).aborts = true := h
    cases hi : (e.insert tx table r).1 with
    | ok place =>
      rw [hi] at h
      cases h
    | error fault =>
      rw [hi] at h
      obtain ⟨a, ha, hd⟩ := asks_of_insert hi h
      exact ⟨tx, a, rfl, ha, hd⟩
  | delete tx r =>
    replace h : (Answer.deleted (e.delete tx r).1).aborts = true := h
    cases hi : (e.delete tx r).1 with
    | ok _ =>
      rw [hi] at h
      cases h
    | error fault =>
      rw [hi] at h
      obtain ⟨a, ha, hd⟩ := asks_of_delete hi h
      exact ⟨tx, a, rfl, ha, hd⟩
  | step s =>
    replace h : (Answer.stepped (s.next e).1).aborts = true := h
    cases hn : (s.next e).1 with
    | none =>
      rw [hn] at h
      cases h
    | some item =>
      rw [hn] at h
      cases item with
      | ok r => cases h
      | error fault =>
        obtain ⟨a, ha, hd⟩ := asks_of_next s e hn h
        exact ⟨s.tx, a, rfl, .step ha, hd⟩
  | scan tx table =>
    replace h : (Answer.scanned (e.pages table) (e.scan tx table).1).aborts = true := h
    unfold Engine.scan at h
    split at h
    · cases h
    · next s hs =>
      obtain ⟨a, ha, hd⟩ := asks_of_items h
      rw [tx_of_ofTable hs] at hd
      exact ⟨tx, a, rfl, .scan hs ha, hd⟩

/-! ## What is left -/

/-- Up to the lock that is denied the engine has only gone on as it does in any call. -/
theorem Steady.first {P : Engine → Prop} (hP : Steady P) (h : P e) (ha : FirstAsks file tx numbers e a) : P a.engine := by
  induction ha with
  | here => exact h
  | @later number _ e _ _ _ hf _ _ ih =>
    have hk := hP.fetch h tx (file.pageId number) .exclusive
    rw [hf] at hk
    exact ih hk

theorem Steady.nextAsks {P : Engine → Prop} (hP : Steady P) (h : P e) (ha : NextAsks s e a) : P a.engine := by
  induction ha with
  | here => exact h
  | @later s e _ _ _ _ _ hf _ _ ih =>
    have hk := hP.fetch h s.tx (s.file.pageId s.number) .shared
    rw [hf] at hk
    exact ih hk

theorem Steady.itemsAsk {P : Engine → Prop} (hP : Steady P) (h : P e) (ha : ItemsAsk n s e a) : P a.engine := by
  induction ha with
  | here ha => exact hP.nextAsks h ha
  | @later _ s _ e _ _ _ hn _ ih =>
    have hk := hP.scanNext s e h
    rw [hn] at hk
    exact ih hk

theorem Stable.newAsks {P : Engine → Prop} (hP : Stable P) {table : TableId} (hf : e.file table = .ok file) (h : P e)
    (ha : NewAsks file tx r n e a) : P a.engine := by
  induction ha with
  | here hn ha => exact hP.first (hP.append h hf hn) ha
  | @later _ number disk e _ _ hn hp _ ih =>
    have hk := hP.putOnFirst file tx r [number] (hP.append h hf hn)
    have hc := (steady_catalog e.catalog).putOnFirst file tx r [number] (e := { e with disk }) rfl
    rw [hp] at hk hc
    exact ih ((file_congr hc table).trans hf) hk

theorem Stable.asks {P : Engine → Prop} (hP : Stable P) (h : P e) (ha : CallAsks e c a) : P a.engine := by
  cases ha with
  | fetch => exact h
  | first hf _ _ ha => exact hP.first h ha
  | @new tx table r file count e' _ hf _ _ hp ha =>
    have hk := hP.putOnFirst file tx r (List.range count) h
    have hc := (steady_catalog e.catalog).putOnFirst file tx r (List.range count) (e := e) rfl
    rw [hp] at hk hc
    exact hP.newAsks ((file_congr hc table).trans hf) hk ha
  | delete => exact h
  | step ha => exact hP.nextAsks h ha
  | scan _ ha => exact hP.itemsAsk h ha

/-- What comes of a call of a transaction in which a lock is denied. -/
structure TimesOut (tx : TxId) (a : Ask) (answer : Answer) (e' : Engine) : Prop where
  fault : answer.fault? = some (.aborted tx (.timeout tx a.page a.mode))
  /-- The engine is the one that aborting the transaction gives just before the lock was asked for. -/
  aborted : a.engine.abort tx = (.ok (), e')
  back : RollsBack tx a.engine e'
  /-- The transaction cannot keep anything any more. -/
  commit : e'.commit tx = (.ok (), e')
  abort : e'.abort tx = (.ok (), e')

/-- **A denied lock is an abort from just before it.** For every engine whose tables stay, every call and every lock that
it asks for on its way, if the lock is denied the call fails for it, and the engine is the one that an abort gives at that
moment. This drops exactly the changes and the locks of the transaction. To commit or to abort it again changes nothing.
No call aborts its transaction for another reason, and any transaction that has ended can end again, in either way,
without a trace. -/
theorem timeout_is_abort (h : e.Lasting) :
    (∀ c tx a, c.tx? = some tx → CallAsks e c a → a.Denied tx → (e.call c).2.Small →
      TimesOut tx a (e.call c).1 (e.call c).2) ∧
    (∀ c, (e.call c).1.aborts = true → ∃ tx a, c.tx? = some tx ∧ CallAsks e c a ∧ a.Denied tx) ∧
    ∀ tx keep keep', (e.complete tx keep).1 = .ok () ∧
      (e.complete tx keep).2.complete tx keep' = (.ok (), (e.complete tx keep).2) := by
  refine ⟨fun c tx a hc ha hd hs => ?_, fun c hab => CallAsks.of_aborts hab,
    fun tx keep keep' => complete_again h.coherent h.tidy.locks tx keep keep'⟩
  obtain ⟨hfault, hrun⟩ := ha.denied hc hd
  have htidy : a.engine.Tidy := stable_tidy.asks h.tidy ha
  obtain ⟨-, hcoherent⟩ := (firm_coherent h.coherent.present).toStable.asks ⟨Outgrows.refl e, fun _ => h.coherent⟩ ha
  -- an abort leaves the files alone, so page numbers had room when the lock was asked for
  have hcatalog : (a.ended tx).catalog = a.engine.catalog := (steady_catalog a.engine.catalog).drop rfl tx
  have hdisk : (a.ended tx).disk = a.engine.disk := (steady_disk a.engine.disk).drop rfl tx
  have hsmall : a.engine.Small := by
    rw [hrun] at hs
    exact small_of_disk hcatalog.symm hdisk.symm hs
  have hcoh : a.engine.Coherent := hcoherent hsmall
  obtain ⟨e', habort, hback⟩ := complete_rollsBack hcoh htidy.locks tx
  have hended : a.ended tx = e' := congrArg Prod.snd habort
  have hagain : ∀ keep, e'.complete tx keep = (.ok (), e') := by
    intro keep
    have hag := (complete_again hcoh htidy.locks tx false keep).2
    rw [habort] at hag
    exact hag
  rw [hrun, hended]
  refine ⟨hfault, ?_, hback, ?_, ?_⟩
  · unfold abort
    rw [habort]
    rfl
  · unfold commit
    rw [hagain]
    rfl
  · unfold abort
    rw [hagain]
    rfl

end Engine

namespace Sample

/-- One transaction has filled a page and the other one has locked the page behind it, which is not there yet. -/
def meeting : List Request :=
  [.call .begin, .call .begin, .call (.insert ⟨1⟩ table (record 5)), .call (.insert ⟨1⟩ table (record 6)),
    .call (.fetch ⟨2⟩ ⟨table, 1⟩ .shared)]

/-- The lock is denied once the file was made longer. -/
theorem timeout_is_abort_meeting :
    let e := engine.serveAll meeting
    let c := Call.insert ⟨1⟩ table (record 7)
    e.Lasting ∧ e.cache.owned ⟨1⟩ = [⟨table, 0⟩] ∧ e.locks.lockedPages ⟨1⟩ = [⟨table, 0⟩] ∧
      e.pages table = 1 ∧ (e.call c).2.pages table = 2 ∧ (e.call c).2.Small ∧
      (∃ a, Engine.CallAsks e c a ∧ a.Denied ⟨1⟩ ∧ Engine.TimesOut ⟨1⟩ a (e.call c).1 (e.call c).2) ∧
      ∀ tx keep keep', (e.complete tx keep).1 = .ok () ∧
        (e.complete tx keep).2.complete tx keep' = (.ok (), (e.complete tx keep).2) := by
  have hl : (engine.serveAll meeting).Lasting := lasting.serveAll meeting (small_served (by decide +kernel))
  have hs : (engine.serveAll (meeting ++ [.call (.insert ⟨1⟩ table (record 7))])).Small :=
    small_served (by decide +kernel)
  obtain ⟨hdenied, habort, hagain⟩ := Engine.timeout_is_abort hl
  obtain ⟨tx, a, hc, ha, hd⟩ := habort (.insert ⟨1⟩ table (record 7)) (by decide +kernel)
  cases hc
  exact ⟨hl, by decide +kernel, by decide +kernel, by decide +kernel, by decide +kernel, hs,
    ⟨a, ha, hd, hdenied _ _ a rfl ha hd hs⟩, hagain⟩

end Sample

end HeapStore
