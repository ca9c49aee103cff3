import HeapStore.Proofs.Alike
import HeapStore.Proofs.Ongoing

/-!
# What a transaction does

Other transactions see of a call what its transaction does: it takes locks, loads pages, changes copies of pages that it
holds exclusively, appends pages, and, where a lock is denied, ends. What each of these keeps is kept by every call,
unless the call ends its transaction.

* `Engine.Comes`: one property holds after a call, or another one if it has ended its transaction.
* `Engine.Reading`: what a transaction does that only reads. `Engine.Freeing`: what one does that also deletes.
  `Engine.Acting`: what any does.
* `Reading.fetch`, `Reading.scanItems`, `Freeing.delete`, `Acting.insert`: the functions, and `Acting.call`, all
  calls.
-/

namespace HeapStore.Engine

variable {α : Type} {P Q : Engine → Prop} {e e' : Engine} {tx : TxId} {id : PageId} {mode : LockMode} {f : Frame}
  {r : Record} {file : TableFile}

/-- One property holds after a call, or another one if it has ended its transaction. -/
def Comes (P Q : Engine → Prop) : Outcome AccessFault α → Prop
  | (.ok _, e) => P e
  | (.error fault, e) => if fault.aborts then Q e else P e

theorem comes_error {fault : AccessFault} (ha : fault.aborts = false) (he : P e) :
    Comes (α := α) P Q (.error fault, e) := by
  show if fault.aborts then Q e else P e
  rw [ha]
  exact he

/-- The same for a step of a scan. -/
def StepComes (P Q : Engine → Prop) : Option (Except AccessFault Record) × Scan × Engine → Prop
  | (some (.error fault), _, e) => if fault.aborts then Q e else P e
  | (_, _, e) => P e

theorem StepComes.of_goes {o : Option (Except AccessFault Record) × Scan × Engine} (h : StepComes P Q o)
    (ho : ∀ item ∈ o.1, Answer.isAbort item = false) : P o.2.2 := by
  obtain ⟨item, s, e⟩ := o
  cases item with
  | none => exact h
  | some item =>
    cases item with
    | ok r => exact h
    | error fault =>
      have ha : fault.aborts = false := ho _ rfl
      have h : if fault.aborts then Q e else P e := h
      rw [ha] at h
      exact h

/-- The same for a call. -/
def CallComes (P Q : Engine → Prop) (o : Answer × Engine) : Prop := if o.1.aborts then Q o.2 else P o.2

theorem CallComes.of_goes {o : Answer × Engine} (h : CallComes P Q o) (ha : o.1.aborts = false) : P o.2 := by
  unfold CallComes at h
  rw [ha] at h
  exact h

/-- What comes of a function comes of the call that answers with its result. -/
theorem Comes.call {o : Outcome AccessFault α} (h : Comes P Q o) (answer : Except AccessFault α → Answer)
    (hok : ∀ a, (answer (.ok a)).aborts = false) (herror : ∀ fault, (answer (.error fault)).aborts = fault.aborts) :
    CallComes P Q (answer o.1, o.2) := by
  obtain ⟨result, e⟩ := o
  cases result with
  | ok a =>
    show if (answer (.ok a)).aborts then Q e else P e
    rw [hok]
    exact h
  | error fault =>
    show if (answer (.error fault)).aborts then Q e else P e
    rw [herror]
    exact h

/-- What a transaction does that only reads keeps the first property, and its end leads to the second. -/
structure Reading (tx : TxId) (P Q : Engine → Prop) : Prop where
  grant : ∀ {e : Engine} {id : PageId} {mode : LockMode} {locks : LockTable}, P e →
    e.locks.grant? tx id mode = some locks → P { e with locks }
  load : ∀ {e : Engine} (id : PageId), P e → P (e.load id).2
  abort : ∀ {e : Engine}, P e → Q (e.complete tx false).2

namespace Reading

variable (h : Reading tx P Q)

include h

theorem fetch (he : P e) (id : PageId) (mode : LockMode) : Comes P Q (e.fetch tx id mode) := by
  cases hg : e.locks.grant? tx id mode with
  | none =>
    rw [fetch_denied hg]
    exact h.abort he
  | some locks =>
    rw [fetch_granted hg]
    have hl := h.load id (h.grant he hg)
    cases hr : Engine.load { e with locks } id with
    | mk result e' =>
      rw [hr] at hl
      cases result with
      | ok f => exact hl
      | error fault =>
        exact comes_error (aborts_of_load hr) hl

theorem fetch_ok (he : P e) (hf : e.fetch tx id mode = (.ok f, e')) : P e' := by
  have hc := h.fetch he id mode
  rw [hf] at hc
  exact hc

theorem scanNext (s : Scan) (e : Engine) (hs : s.tx = tx) (he : P e) : StepComes P Q (s.next e) := by
  induction s, e using Scan.next.induct with
  | case1 s e hd =>
    unfold Scan.next
    rw [if_pos hd]
    exact he
  | case2 s e hd hn =>
    unfold Scan.next
    rw [if_neg hd, if_pos hn]
    exact he
  | case3 s e hd hn fault e' hr =>
    have hf := h.fetch he (s.file.pageId s.number) .shared
    rw [← hs, hr] at hf
    unfold Scan.next
    rw [if_neg hd, if_neg hn, hr]
    exact hf
  | case4 s e hd hn f e' hr slot r hrec =>
    have hf := h.fetch he (s.file.pageId s.number) .shared
    rw [← hs, hr] at hf
    unfold Scan.next
    rw [if_neg hd, if_neg hn, hr]
    simp only [hrec]
    exact hf
  | case5 s e hd hn f e' hr hrec ih =>
    have hf := h.fetch he (s.file.pageId s.number) .shared
    rw [← hs, hr] at hf
    unfold Scan.next
    rw [if_neg hd, if_neg hn, hr]
    simp only [hrec]
    exact ih hs hf

theorem scanItems (n : Nat) : ∀ {s : Scan} {e : Engine}, s.tx = tx → P e →
    if (Scan.items n s e).1.any Answer.isAbort then Q (Scan.items n s e).2.2 else P (Scan.items n s e).2.2 := by
  induction n with
  | zero => exact fun _ he => he
  | succ n ih =>
    intro s e hs he
    have hc := h.scanNext s e hs he
    obtain ⟨htx, hend⟩ := next_scan s e
    unfold Scan.items
    cases hn : s.next e with
    | mk item rest =>
      obtain ⟨s', e'⟩ := rest
      rw [hn] at hc htx hend
      cases item with
      | none => exact hc
      | some item =>
        cases item with
        | ok r => exact ih (htx.trans hs) hc
        | error fault =>
          -- the fault has ended the scan
          have hfinish : s' = s'.finish := by
            unfold Scan.finish
            rw [← hend fault rfl]
          simp only
          rw [hfinish, Scan.items_finish]
          show if (Answer.isAbort (.error fault) || false) then Q e' else P e'
          rw [Bool.or_false]
          exact hc

theorem scanItems_of_goes {n : Nat} {s : Scan} (hs : s.tx = tx) (he : P e)
    (hgoes : ∀ item ∈ (Scan.items n s e).1, Answer.isAbort item = false) : P (Scan.items n s e).2.2 := by
  have hc := h.scanItems n hs he
  have hnone : (Scan.items n s e).1.any Answer.isAbort = false :=
    List.any_eq_false.2 fun item hm => by rw [hgoes item hm]; exact Bool.false_ne_true
  rw [hnone] at hc
  exact hc

end Reading

/-- Whoever has fetched a page exclusively holds it so. -/
theorem exclusive_of_fetch (hf : e.fetch tx id .exclusive = (.ok f, e')) :
    e'.locks.mode? tx f.page.id = some .exclusive := by
  obtain ⟨-, hid⟩ := Cache.mem_of_find? (find?_of_fetch hf)
  rw [hid]
  cases hg : e.locks.grant? tx id .exclusive with
  | none =>
    rw [fetch_denied hg] at hf
    cases hf
  | some locks =>
    rw [fetch_granted hg] at hf
    have hl := (locks_load { e with locks } id).1
    rw [hf] at hl
    rw [show e'.locks = locks from hl]
    exact LockTable.mode?_granted hg

/-- What a transaction does that reads and deletes: it also frees slots of copies whose pages it holds exclusively. -/
structure Freeing (tx : TxId) (P Q : Engine → Prop) : Prop extends Reading tx P Q where
  take : ∀ {e : Engine} {f : Frame} {q : Page} {slot : Nat}, P e → e.cache.find? f.page.id = some f →
    e.locks.mode? tx f.page.id = some .exclusive → f.page.Changes q slot none →
    P { e with cache := e.cache.update q.id (q.mark (some tx)) }

theorem Freeing.delete (h : Freeing tx P Q) (he : P e) (r : Record) : Comes P Q (e.delete tx r) := by
  unfold Engine.delete
  split
  · exact he
  split
  · exact he
  unfold Engine.deleteFrom
  split
  · exact he
  · next place _ =>
    simp only
    split
    · exact he
    split
    · next hc => exact comes_error (aborts_of_mapError (fun _ => rfl) hc) he
    split
    · exact he
    have hf := h.fetch he place.page .exclusive
    split
    · next hr =>
      rw [hr] at hf
      exact hf
    · next f e1 hr =>
      have hfind := find?_fetched hr
      have hx := exclusive_of_fetch hr
      rw [hr] at hf
      unfold Engine.takeFrom
      split
      · exact hf
      · next hd =>
        obtain ⟨slot, -, -, hq⟩ := Page.delete_ok hd
        exact h.take hf hfind hx hq

/-- What any transaction does: it also takes slots of such copies, and appends pages. -/
structure Acting (tx : TxId) (P Q : Engine → Prop) : Prop extends Freeing tx P Q where
  put : ∀ {e : Engine} {f : Frame} {q : Page} {slot : Nat} {fields : List Field}, P e →
    e.cache.find? f.page.id = some f → e.locks.mode? tx f.page.id = some .exclusive →
    f.page.Changes q slot (some fields) → P { e with cache := e.cache.update q.id (q.mark (some tx)) }
  append : ∀ {e : Engine} {table : TableId} {file : TableFile} {number : Nat} {disk : Disk}, P e →
    e.file table = .ok file → file.append e.disk = .ok (number, disk) → P { e with disk }

namespace Acting

variable (h : Acting tx P Q)

include h

theorem putInto (he : P e) (hf : e.cache.find? f.page.id = some f) (hx : e.locks.mode? tx f.page.id = some .exclusive)
    (r : Record) : Comes P Q (e.putInto f tx r) := by
  unfold Engine.putInto
  split
  · exact he
  · next hi =>
    obtain ⟨-, -, -, hq⟩ := Page.insert_ok hi
    exact h.put he hf hx hq

theorem putOnFirst (file : TableFile) (r : Record) (numbers : List Nat) : ∀ {e : Engine}, P e →
    Comes P Q (Engine.putOnFirst file tx r numbers e) := by
  induction numbers with
  | nil => exact fun he => he
  | cons number numbers ih =>
    intro e he
    have hf := h.fetch he (file.pageId number) .exclusive
    unfold Engine.putOnFirst
    split
    · next hr =>
      rw [hr] at hf
      exact hf
    · next f e1 hr =>
      have hfind := find?_fetched hr
      have hx := exclusive_of_fetch hr
      rw [hr] at hf
      split
      · exact ih hf
      · have hp := h.putInto hf hfind hx r
        cases hi : Engine.putInto e1 f tx r with
        | mk result e2 =>
          rw [hi] at hp
          cases result with
          | ok place => exact hp
          | error fault => exact hp

theorem putOnNew {table : TableId} (r : Record) (tries : Nat) : ∀ {e : Engine}, P e → e.file table = .ok file →
    Comes P Q (Engine.putOnNew file tx r tries e) := by
  induction tries with
  | zero => exact fun he _ => he
  | succ tries ih =>
    intro e he hfile
    unfold Engine.putOnNew
    split
    · next ha => exact comes_error (aborts_of_mapError (fun _ => rfl) ha) he
    · next number disk ha =>
      have hf := h.putOnFirst file r [number] (h.append he hfile ha)
      have hc := (steady_catalog e.catalog).putOnFirst file tx r [number] (e := { e with disk }) rfl
      split
      · next hr =>
        rw [hr] at hf
        exact hf
      · next hr =>
        rw [hr] at hf
        exact hf
      · next hr =>
        rw [hr] at hf hc
        exact ih hf ((file_congr hc table).trans hfile)

theorem insert (he : P e) (table : TableId) (r : Record) : Comes P Q (e.insert tx table r) := by
  unfold Engine.insert
  split
  · next hf => exact comes_error (aborts_of_mapError (fun _ => rfl) hf) he
  · next file hfile =>
    unfold Engine.insertInto
    split
    · exact he
    split
    · next hc => exact comes_error (aborts_of_mapError (fun _ => rfl) hc) he
    · next count _ =>
      have hf := h.putOnFirst file r (List.range count) he
      have hc := (steady_catalog e.catalog).putOnFirst file tx r (List.range count) (e := e) rfl
      split
      · next hr =>
        rw [hr] at hf
        exact hf
      · next hr =>
        rw [hr] at hf
        exact hf
      · next hr =>
        rw [hr] at hf hc
        exact h.putOnNew r _ hf ((file_congr hc table).trans hfile)

end Acting

/-! ## Calls -/

variable {c : Call}

/-- **All calls that only read or delete.** -/
theorem Freeing.call (h : Freeing tx P Q) (he : P e) (hc : c.tx? = some tx) (hends : c.ends = false)
    (hi : ∀ table r, c ≠ .insert tx table r) : CallComes P Q (e.call c) := by
  cases c with
  | begin => cases hc
  | evict => cases hc
  | commit => cases hends
  | abort => cases hends
  | insert tx' table r =>
    cases hc
    exact absurd rfl (hi table r)
  | fetch tx' id mode =>
    cases hc
    exact (h.fetch he id mode).call (fun result => .fetched (result.map Frame.page)) (fun _ => rfl) fun _ => rfl
  | delete tx' r =>
    cases hc
    exact (h.delete he r).call .deleted (fun _ => rfl) fun _ => rfl
  | scan tx' table =>
    cases hc
    show CallComes P Q (.scanned (e.pages table) (e.scan tx table).1, (e.scan tx table).2)
    unfold Engine.scan
    cases ho : Scan.ofTable e tx table with
    | error fault => exact he
    | ok s => exact h.scanItems s.bound (tx_of_ofTable ho) he
  | step s =>
    cases hc
    have hs := h.scanNext s e rfl he
    show CallComes P Q (.stepped (s.next e).1, (s.next e).2.2)
    generalize s.next e = o at hs
    obtain ⟨item, s', e'⟩ := o
    cases item with
    | none => exact hs
    | some item =>
      cases item with
      | ok r => exact hs
      | error fault => exact hs

/-- **All calls.** -/
theorem Acting.call (h : Acting tx P Q) (he : P e) (hc : c.tx? = some tx) (hends : c.ends = false) :
    CallComes P Q (e.call c) := by
  by_cases hi : ∃ table r, c = .insert tx table r
  · obtain ⟨table, r, rfl⟩ := hi
    exact (h.insert he table r).call .inserted (fun _ => rfl) fun _ => rfl
  · exact h.toFreeing.call he hc hends fun table r heq => hi ⟨table, r, heq⟩

end HeapStore.Engine
