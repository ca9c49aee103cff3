import HeapStore.Proofs.Timeouts

/-!
# Until a transaction ends

A call goes from page to page as long as each of them can be had. While it goes on it grants locks, uses, reads and
changes copies, and appends pages to files. Once it has ended its transaction it does nothing more. So what holds of the
engine while a transaction goes on may be more than what holds at the end of a call.

* `Engine.Goes`: one property holds after an answer, and another one after a fault.
* `Engine.Ongoing`: each single change keeps the first property, and ending the transaction leads to the second.
* `Ongoing.insert`, `Ongoing.delete`, `Ongoing.scan`: **the functions of an engine**, and `Ongoing.call`, all calls.
-/

namespace HeapStore.Engine

variable {ε α : Type} {P Q : Engine → Prop} {e e' : Engine} {tx : TxId} {id : PageId} {f : Frame} {r : Record}

/-- One property holds after an answer, and another one after a fault. -/
def Goes (P Q : Engine → Prop) : Outcome ε α → Prop
  | (.ok _, e) => P e
  | (.error _, e) => Q e

/-- The same for a step of a scan, which may have come to its end. -/
def StepGoes (P Q : Engine → Prop) : Option (Except ε α) × Scan × Engine → Prop
  | (some (.error _), _, e) => Q e
  | (_, _, e) => P e

/-- Each single change keeps the first property as long as a transaction goes on, and its end leads to the second. -/
structure Ongoing (P Q : Engine → Prop) : Prop where
  weaken : ∀ {e : Engine}, P e → Q e
  grant : ∀ {e : Engine} (locks : LockTable), P e → P { e with locks }
  next : ∀ {e : Engine} (n : Nat), P e → P { e with lastTx := n }
  grow : ∀ {e : Engine} (disk : Disk), P e → P { e with disk }
  touch : ∀ {e : Engine} (id : PageId), P e → P { e with cache := e.cache.touch id }
  evict : ∀ {e : Engine} {cache : Cache}, P e → e.cache.evict? = some cache → P { e with cache }
  /-- A page without a copy gets one, once room was made for it. -/
  put : ∀ {e : Engine} {cache : Cache} {page : Page}, P e → e.cache.find? page.id = none → page.dirty = none →
    e.cache.makeRoom? = some cache → P { e with cache := (cache.add page).2 }
  /-- A copy is changed. -/
  revise : ∀ {e : Engine} {f : Frame} {page : Page} {tx : TxId}, P e → e.cache.find? page.id = some f →
    page.dirty = some tx → P { e with cache := e.cache.update page.id page }
  complete : ∀ {e : Engine} (tx : TxId) (keep : Bool), P e → Q (e.complete tx keep).2

/-- A scan that has ended does nothing more. -/
theorem items_done (n : Nat) {s : Scan} (hd : s.done = true) (e : Engine) : (Scan.items n s e).2.2 = e := by
  cases n with
  | zero => rfl
  | succ n =>
    unfold Scan.items Scan.next
    rw [if_pos hd]

namespace Ongoing

variable (h : Ongoing P Q)

include h

theorem goes {o : Outcome ε α} (ho : Goes P Q o) : Q o.2 := by
  obtain ⟨result, e⟩ := o
  cases result with
  | ok a => exact h.weaken ho
  | error fault => exact ho

theorem stepGoes {o : Option (Except ε α) × Scan × Engine} (ho : StepGoes P Q o) : Q o.2.2 := by
  obtain ⟨item, s, e⟩ := o
  cases item with
  | none => exact h.weaken ho
  | some item =>
    cases item with
    | ok a => exact h.weaken ho
    | error fault => exact ho

theorem load (he : P e) (id : PageId) : Goes P P (e.load id) := by
  unfold Engine.load
  split
  · exact h.touch id he
  · next hn =>
    split
    · exact he
    · next page hs =>
      obtain ⟨rfl, hclean⟩ := of_stored_eq hs
      split
      · exact he
      · next cache hr => exact h.put he hn hclean hr

theorem fetch (he : P e) (tx : TxId) (id : PageId) (mode : LockMode) : Goes P Q (e.fetch tx id mode) := by
  unfold Engine.fetch LockTable.acquire
  split
  · next locks _ =>
    have hl := h.load (h.grant locks he) id
    cases hr : Engine.load { e with locks } id with
    | mk result e' =>
      rw [hr] at hl
      cases result with
      | ok f => exact hl
      | error fault => exact h.weaken hl
  · exact h.complete tx false he

/-- A copy that is changed in one slot. -/
theorem change {q : Page} {slot : Nat} {fields : Option (List Field)} (he : P e)
    (hf : e.cache.find? f.page.id = some f) (hq : f.page.Changes q slot fields) (tx : TxId) :
    P { e with cache := e.cache.update q.id (q.mark (some tx)) } := by
  have hm : e.cache.find? (q.mark (some tx)).id = some f := by
    show e.cache.find? q.id = some f
    rw [hq.id]
    exact hf
  exact h.revise he hm rfl

theorem putInto (he : P e) (hf : e.cache.find? f.page.id = some f) (tx : TxId) (r : Record) :
    Goes P P (e.putInto f tx r) := by
  unfold Engine.putInto
  split
  · exact he
  · next hi =>
    obtain ⟨-, -, -, hq⟩ := Page.insert_ok hi
    exact h.change he hf hq tx

theorem putOnFirst (file : TableFile) (tx : TxId) (r : Record) (numbers : List Nat) (he : P e) :
    Goes P Q (Engine.putOnFirst file tx r numbers e) := by
  induction numbers generalizing e with
  | nil => exact he
  | cons number numbers ih =>
    have hf := h.fetch he tx (file.pageId number) .exclusive
    unfold Engine.putOnFirst
    split
    · next hr =>
      rw [hr] at hf
      exact hf
    · next f e1 hr =>
      have hfind := find?_fetched hr
      rw [hr] at hf
      split
      · exact ih hf
      · have hp := h.putInto hf hfind tx r
        cases hi : Engine.putInto e1 f tx r with
        | mk result e2 =>
          rw [hi] at hp
          cases result with
          | ok place => exact hp
          | error fault => exact h.weaken hp

theorem putOnNew (file : TableFile) (tx : TxId) (r : Record) (tries : Nat) (he : P e) :
    Goes P Q (Engine.putOnNew file tx r tries e) := by
  induction tries generalizing e with
  | zero => exact h.weaken he
  | succ tries ih =>
    unfold Engine.putOnNew
    split
    · exact h.weaken he
    · next number disk _ =>
      have hf := h.putOnFirst file tx r [number] (h.grow disk he)
      split
      · next hr =>
        rw [hr] at hf
        exact hf
      · next hr =>
        rw [hr] at hf
        exact hf
      · next hr =>
        rw [hr] at hf
        exact ih hf

theorem insert (he : P e) (tx : TxId) (table : TableId) (r : Record) : Goes P Q (e.insert tx table r) := by
  unfold Engine.insert
  split
  · exact h.weaken he
  · next file _ =>
    unfold Engine.insertInto
    split
    · exact h.weaken he
    split
    · exact h.weaken he
    · next count _ =>
      have hf := h.putOnFirst file tx r (List.range count) he
      split
      · next hr =>
        rw [hr] at hf
        exact hf
      · next hr =>
        rw [hr] at hf
        exact hf
      · next hr =>
        rw [hr] at hf
        exact h.putOnNew file tx r _ hf

theorem takeFrom (he : P e) (hf : e.cache.find? f.page.id = some f) (tx : TxId) (r : Record) :
    Goes P P (e.takeFrom f tx r) := by
  unfold Engine.takeFrom
  split
  · exact he
  · next hd =>
    obtain ⟨slot, -, -, hq⟩ := Page.delete_ok hd
    exact h.change he hf hq tx

theorem delete (he : P e) (tx : TxId) (r : Record) : Goes P Q (e.delete tx r) := by
  unfold Engine.delete
  split
  · exact h.weaken he
  split
  · exact h.weaken he
  unfold Engine.deleteFrom
  split
  · exact h.weaken he
  · next place _ =>
    simp only
    split
    · exact h.weaken he
    split
    · exact h.weaken he
    split
    · exact h.weaken he
    have hf := h.fetch he tx place.page .exclusive
    split
    · next hr =>
      rw [hr] at hf
      exact hf
    · next f e1 hr =>
      have hfind := find?_fetched hr
      rw [hr] at hf
      have ht := h.takeFrom hf hfind tx r
      cases hi : Engine.takeFrom e1 f tx r with
      | mk result e2 =>
        rw [hi] at ht
        cases result with
        | ok _ => exact ht
        | error fault => exact h.weaken ht

theorem scanNext (s : Scan) (e : Engine) (he : P e) : StepGoes P Q (s.next e) := by
  induction s, e using Scan.next.induct with
  | case1 s e hd =>
    unfold Scan.next
    rw [if_pos hd]
    exact he
  | case2 s e hd hn =>
    unfold Scan.next
    rw [if_neg hd, if_pos hn]
    exact he
  | case3 s e hd hn fault e' hr =>
    have hf := h.fetch he s.tx (s.file.pageId s.number) .shared
    rw [hr] at hf
    unfold Scan.next
    rw [if_neg hd, if_neg hn, hr]
    exact hf
  | case4 s e hd hn f e' hr slot r hrec =>
    have hf := h.fetch he s.tx (s.file.pageId s.number) .shared
    rw [hr] at hf
    unfold Scan.next
    rw [if_neg hd, if_neg hn, hr]
    simp only [hrec]
    exact hf
  | case5 s e hd hn f e' hr hrec ih =>
    have hf := h.fetch he s.tx (s.file.pageId s.number) .shared
    rw [hr] at hf
    unfold Scan.next
    rw [if_neg hd, if_neg hn, hr]
    simp only [hrec]
    exact ih hf

theorem scanItems (n : Nat) (s : Scan) (he : P e) : Q (Scan.items n s e).2.2 := by
  induction n generalizing s e with
  | zero => exact h.weaken he
  | succ n ih =>
    have hk := h.scanNext s e he
    unfold Scan.items
    cases hn : s.next e with
    | mk item rest =>
      obtain ⟨s', e'⟩ := rest
      rw [hn] at hk
      cases item with
      | none => exact h.weaken hk
      | some item =>
        cases item with
        | ok a => exact ih s' hk
        | error fault =>
          -- the fault has ended the scan
          have hdone : s'.done = true := by
            have hd := (next_scan s e).2 fault
            rw [hn] at hd
            exact hd rfl
          show Q (Scan.items n s' e').2.2
          rw [items_done n hdone]
          exact hk

theorem scan (he : P e) (tx : TxId) (table : TableId) : Q (e.scan tx table).2 := by
  unfold Engine.scan
  split
  · exact h.weaken he
  · exact h.scanItems _ _ he

/-- **What holds at the end of every call.** -/
theorem call (he : P e) (c : Call) : Q (e.call c).2 := by
  cases c with
  | begin => exact h.weaken (h.next _ he)
  | fetch tx id mode => exact h.goes (h.fetch he tx id mode)
  | insert tx table r => exact h.goes (h.insert he tx table r)
  | delete tx r => exact h.goes (h.delete he tx r)
  | scan tx table => exact h.scan he tx table
  | step s => exact h.stepGoes (h.scanNext s e he)
  | evict =>
    show Q e.evict.2
    unfold Engine.evict
    split
    · exact h.weaken he
    · next hc => exact h.weaken (h.evict he hc)
  | commit tx => exact h.complete tx true he
  | abort tx => exact h.complete tx false he

end Ongoing

end HeapStore.Engine
