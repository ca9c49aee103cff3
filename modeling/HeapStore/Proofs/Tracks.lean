import HeapStore.Proofs.Isolation
import HeapStore.Proofs.Replays

/-!
# What a running transaction relies on

While a transaction is running, others are committed and files get pages. What the transaction has done so far could
still be done from what is stored now, because its locks keep the others away from all that it depends on. One thing
is not locked: that a table has no pages behind those that were scanned. Here the lock of the first page does it,
since every insertion takes this lock first.

* `Engine.Guards`: what a call of a transaction leaves locked. `Guards.draft` says that **no other transaction changes
  its footprint.**
* `Engine.Watched`: a table whose pages are all held, but for blank ones.
* `Engine.Tracks`: calls of a transaction lead from what is stored to what it sees, and all of them are guarded.
* `Tracks.snoc`, `Tracks.quiet`, `Tracks.inserted`, `Tracks.deleted`, `Tracks.drops`, `Tracks.keeps`: **whatever
  happens the calls of a running transaction lead there.**
-/

namespace HeapStore.Engine

variable {e e' : Engine} {tx tx' : TxId} {id : PageId} {table : TableId} {r : Record} {place : RecordId} {q : Page}
  {x : Call × Answer} {log : List (Call × Answer)}

/-- The transaction holds every page of the table but blank ones, and nobody else has changed any. -/
structure Watched (e : Engine) (tx : TxId) (table : TableId) : Prop where
  first : (e.locks.mode? tx ⟨table, 0⟩).isSome
  others : ∀ tx' ≠ tx, ∀ k, e.cache.draft tx' ⟨table, k⟩ = none
  blank : ∀ k, (e.locks.mode? tx ⟨table, k⟩).isSome ∨ ∀ slot, e.committed ⟨table, k⟩ slot = none

/-- What a call has left locked: the pages that it depends on. -/
def Guards (e : Engine) (tx : TxId) : Call × Answer → Prop
  | (.insert _ _ _, .inserted (.ok place)) => place.page.number < e.pages place.page.table ∧
      ∀ k ≤ place.page.number, e.locks.mode? tx ⟨place.page.table, k⟩ = some .exclusive
  | (.delete _ r, _) => ∀ id, r.place.map RecordId.page = some id → e.locks.mode? tx id = some .exclusive
  | (.scan _ table, .scanned n _) => 0 < n → e.Watched tx table
  | _ => True

/-- Calls of a transaction lead from what is stored to what it sees, and all of them are guarded. -/
structure Tracks (e : Engine) (tx : TxId) (log : List (Call × Answer)) : Prop where
  steps : View.Steps tx e.base log (e.view tx)
  guards : ∀ x ∈ log, e.Guards tx x

/-! ## Guards -/

theorem Guards.within (h : e.Guards tx x) : Within e.pages x := by
  unfold Within
  split
  · exact h.1
  · trivial

/-- **No other transaction has changed the footprint of a call.** -/
theorem Guards.draft (hs : e.Sound) (h : e.Guards tx x) (hf : Footprint x id) (ht : tx' ≠ tx) :
    e.cache.draft tx' id = none := by
  have hheld : e.locks.mode? tx id = some .exclusive → e.cache.draft tx' id = none :=
    fun hx => hs.draft_of_held (by rw [hx]; rfl) ht
  unfold Footprint at hf
  split at hf
  · obtain ⟨htable, hn⟩ := hf
    have hx := h.2 id.number hn
    rw [← htable] at hx
    exact hheld hx
  · exact hheld (h id hf)
  · obtain ⟨hn, rfl⟩ := hf
    exact (h hn).others tx' ht id.number
  · exact hf.elim

/-- Calls are guarded as long as locks are held and tables are watched. -/
theorem Guards.imp (h : e.Guards tx x)
    (hx : ∀ id, e.locks.mode? tx id = some .exclusive → e'.locks.mode? tx id = some .exclusive)
    (hp : ∀ table, e.pages table ≤ e'.pages table) (hw : ∀ table, e.Watched tx table → e'.Watched tx table) :
    e'.Guards tx x := by
  unfold Guards at h ⊢
  split at h
  · exact ⟨h.1.trans_le (hp _), fun k hk => hx _ (h.2 k hk)⟩
  · exact fun id hid => hx id (h id hid)
  · exact fun hn => hw _ (h hn)
  · trivial

/-! ## Changes by others -/

theorem Inserted.id_eq (h : Inserted tx table r place q e e') : (q.mark (some tx)).id = place.page := by
  obtain ⟨-, -, p, -, hq⟩ := h.inserts
  obtain ⟨hid, -, -, hch⟩ := Page.insert_ok hq
  exact hch.id.trans hid.symm

theorem Deleted.id_eq (h : Deleted tx r place q e e') : (q.mark (some tx)).id = place.page := by
  obtain ⟨hr, p, -, hq⟩ := h.deletes
  obtain ⟨slot, hslot, -, hch⟩ := Page.delete_ok hq
  rw [hr] at hslot
  have hid : place.page = p.id := congrArg RecordId.page (Option.some.inj hslot)
  exact hch.id.trans hid.symm

/-- Nobody else holds the first page of a table that is inserted into. -/
theorem Inserted.not_held (h : Inserted tx' table r place q e e') (ht : tx ≠ tx') :
    e.locks.mode? tx ⟨table, 0⟩ = none := by
  have hx := h.locked 0 (Nat.zero_le _)
  rw [← h.others tx ht]
  exact LockTable.exclusive_alone hx ht

theorem Deleted.not_held (h : Deleted tx' r place q e e') (ht : tx ≠ tx') : e.locks.mode? tx place.page = none := by
  rw [← h.others tx ht]
  exact LockTable.exclusive_alone h.locked ht

/-- A page without records of which nothing can be deleted, unless the transaction has changed it before. -/
theorem Deleted.not_blank (h : Deleted tx r place q e e') (hn : e.cache.draft tx place.page = none) :
    ¬ ∀ slot, e.committed place.page slot = none := by
  obtain ⟨-, p, hp, hq⟩ := h.deletes
  obtain ⟨slot, -, hc, -⟩ := Page.delete_ok hq
  have hbase : e.base.page place.page = .ok p := (view_page_of_none hn).symm.trans hp
  intro hblank
  have hslot : e.committed place.page slot = none := hblank slot
  unfold committed at hslot
  rw [View.contents_of_ok hbase, hc] at hslot
  cases hslot

/-! ## Watched tables -/

namespace Watched

/-- The transaction itself goes on watching. -/
theorem holds (h : e.Watched tx table) (hm : Holds tx e e') : e'.Watched tx table where
  first := hm.own _ h.first
  others tx' ht k := by
    rw [hm.drafts tx' ht]
    exact h.others tx' ht k
  blank k := by
    rw [hm.committed]
    exact (h.blank k).imp_left (hm.own _)

/-- Others who leave the table alone do not matter. -/
theorem spares (h : e.Watched tx table) (hm : Spares tx' e e') (ht : tx ≠ tx')
    (hc : ∀ k, e'.committed ⟨table, k⟩ = e.committed ⟨table, k⟩) (hd : ∀ k, e'.cache.draft tx' ⟨table, k⟩ = none) :
    e'.Watched tx table where
  first := by
    rw [hm.others tx ht]
    exact h.first
  others tx'' ht'' k := by
    by_cases htt : tx'' = tx'
    · rw [htt]
      exact hd k
    · rw [hm.drafts tx'' htt]
      exact h.others tx'' ht'' k
  blank k := by
    rw [hc, hm.others tx ht]
    exact h.blank k

/-- Nobody else inserts into the table, since an insertion takes the first page. -/
theorem not_inserted (h : e.Watched tx table) (hi : Inserted tx' table r place q e e') (ht : tx ≠ tx') : False := by
  have hfirst := h.first
  rw [hi.not_held ht] at hfirst
  cases hfirst

/-- Nobody else deletes from the table, since only blank pages are not held. -/
theorem not_deleted (h : e.Watched tx place.page.table) (hd : Deleted tx' r place q e e') (ht : tx ≠ tx') : False := by
  rcases h.blank place.page.number with hheld | hblank
  · have hheld : (e.locks.mode? tx place.page).isSome := hheld
    rw [hd.not_held ht] at hheld
    cases hheld
  · exact hd.not_blank (h.others tx' (Ne.symm ht) place.page.number) hblank

end Watched

/-- What is behind the end of a file is blank. -/
theorem Coherent.committed_behind (h : e.Coherent) (hn : e.pages id.table ≤ id.number) (slot : Nat) :
    e.committed id slot = none := by
  have hnone : e.cache.draft ⟨0⟩ id = none := h.draft_of_pages_le hn
  have hc : (e.view ⟨0⟩).contents id slot = none := h.contents_behind hn slot
  unfold View.contents at hc
  rw [view_page_of_none hnone] at hc
  exact hc

/-- A table that was scanned is watched, and the scan has covered it. -/
theorem Sound.watched (h : e.Sound) (hq : Quiet tx e e') (hn : 0 < e.pages table)
    (hp : ∀ j < e.pages table, (∃ p, (e.view tx).page ⟨table, j⟩ = .ok p) ∧
      (e'.locks.mode? tx ⟨table, j⟩).isSome) :
    (e.view tx).Covers table (e.pages table) ∧ e'.Watched tx table := by
  constructor
  · refine ⟨fun k => ?_, fun k hk => h.recordsOn_behind tx hk⟩
    rcases Nat.lt_or_ge k (e.pages table) with hk | hk
    · exact (hp k hk).1
    · -- the table is there since its first page was read, and behind its end all pages are blank
      obtain ⟨p0, hp0⟩ := (hp 0 hn).1
      obtain ⟨-, file, hf, -⟩ := h.of_view_page hp0
      have hfile : e.file (PageId.mk table k).table = .ok file := hf
      obtain ⟨p, hpk, -⟩ := h.view_page_behind hfile hk tx
      exact ⟨p, hpk⟩
  · refine ⟨(hp 0 hn).2, fun tx' ht k => ?_, fun k => ?_⟩
    · rcases Nat.lt_or_ge k (e.pages table) with hk | hk
      · exact hq.sound.draft_of_held (hp k hk).2 ht
      · rw [hq.drafts tx' ht]
        exact h.draft_of_pages_le hk
    · rcases Nat.lt_or_ge k (e.pages table) with hk | hk
      · exact .inl (hp k hk).2
      · rw [hq.committed]
        exact .inr (h.committed_behind hk)

/-! ## Running transactions -/

namespace Tracks

/-- At first a transaction sees what is stored. -/
theorem nil (hd : ∀ id, e.cache.draft tx id = none) : e.Tracks tx [] := by
  have hv : e.view tx = e.base := by
    unfold view base
    rw [funext hd]
  exact ⟨by rw [hv]; exact .nil, fun _ hx => absurd hx List.not_mem_nil⟩

/-- One more call of the transaction. -/
theorem snoc (h : e.Tracks tx log) (hm : Holds tx e e') (hs : e'.Small)
    (hx : View.Step tx (e.view tx) x (e'.view tx)) (hg : e'.Guards tx x) : e'.Tracks tx (log ++ [x]) where
  steps := by
    rw [hm.base_eq]
    exact h.steps.snoc hx
  guards y hy := by
    rcases List.mem_append.1 hy with hy | hy
    · exact (h.guards y hy).imp hm.exclusive (hm.pages_le hs) fun _ hw => hw.holds hm
    · rw [List.mem_singleton.1 hy]
      exact hg

/-- A move of another transaction, as far as it stores nothing that this one depends on. -/
theorem spares (h : e.Tracks tx log) (hs : e.Sound) (hm : Spares tx' e e') (ht : tx ≠ tx')
    (hp : ∀ table, e.pages table ≤ e'.pages table)
    (hb : ∀ id, e.cache.draft tx' id = none → e'.pageBytes id = e.pageBytes id)
    (hw : ∀ table, e.Watched tx table → e'.Watched tx table) : e'.Tracks tx log where
  steps := by
    have hbase : e'.base = e.base.rebase e'.pageBytes := by
      unfold base View.rebase
      rw [hm.catalog]
    have hview : e'.view tx = (e.view tx).rebase e'.pageBytes := by
      unfold view View.rebase
      rw [hm.catalog, hm.drafts tx ht]
    rw [hbase, hview]
    -- what the calls depend on is guarded, and so the other one has not changed it
    exact h.steps.rebase fun x hx id hid => hb id ((h.guards x hx).draft hs hid (Ne.symm ht))
  guards x hx := (h.guards x hx).imp (fun id hm' => by rw [hm.others tx ht]; exact hm') hp hw

/-- A move of another transaction that stores nothing. -/
theorem leaves (h : e.Tracks tx log) (hs : e.Sound) (hm : Leaves tx' e e') (ht : tx ≠ tx') (hsmall : e'.Small)
    (hd : ∀ table, e.Watched tx table → ∀ k, e'.cache.draft tx' ⟨table, k⟩ = none) : e'.Tracks tx log :=
  h.spares hs hm.toSpares ht (hm.pages_le hsmall) (fun _ _ => congrFun hm.bytes _)
    fun table hw => hw.spares hm.toSpares ht (fun _ => hm.committed _) (hd table hw)

theorem quiet (h : e.Tracks tx log) (hs : e.Sound) (hq : Quiet tx' e e') (hsmall : e'.Small) : e'.Tracks tx log := by
  by_cases ht : tx = tx'
  · subst ht
    refine ⟨?_, fun x hx => (h.guards x hx).imp hq.exclusive (hq.pages_le hsmall) fun _ hw => hw.holds hq.toHolds⟩
    rw [hq.base_eq, hq.view_eq]
    exact h.steps
  · refine h.leaves hs hq.toLeaves ht hsmall fun table hw k => ?_
    rw [hq.draft]
    exact hw.others tx' (Ne.symm ht) k

theorem drops (h : e.Tracks tx log) (hs : e.Sound) (hd : Drops tx' e e') (ht : tx ≠ tx') (hsmall : e'.Small) :
    e'.Tracks tx log :=
  h.leaves hs hd.toLeaves ht hsmall fun _ _ _ => hd.draft _

/-- Another transaction has changed a page, which lies in no table that is watched. -/
theorem puts {page : Page} (h : e.Tracks tx log) (hs : e.Sound) (hm : Puts tx' page e e') (ht : tx ≠ tx')
    (hsmall : e'.Small) (hno : ¬ e.Watched tx page.id.table) : e'.Tracks tx log := by
  refine h.leaves hs hm.toLeaves ht hsmall fun table hw k => ?_
  rw [hm.draft]
  split
  · next hid =>
    rw [← hid] at hno
    exact absurd hw hno
  · exact hw.others tx' (Ne.symm ht) k

theorem inserted (h : e.Tracks tx log) (hs : e.Sound) (hi : Inserted tx' table r place q e e') (ht : tx ≠ tx')
    (hsmall : e'.Small) : e'.Tracks tx log := by
  refine h.puts hs hi.toPuts ht hsmall fun hw => ?_
  rw [hi.id_eq, hi.inserts.1] at hw
  exact hw.not_inserted hi ht

theorem deleted (h : e.Tracks tx log) (hs : e.Sound) (hd : Deleted tx' r place q e e') (ht : tx ≠ tx')
    (hsmall : e'.Small) : e'.Tracks tx log := by
  refine h.puts hs hd.toPuts ht hsmall fun hw => ?_
  rw [hd.id_eq] at hw
  exact hw.not_deleted hd ht

/-- The end of another transaction with its changes, none of which are where this one depends on. -/
theorem keeps (h : e.Tracks tx log) (hs : e.Sound) (hk : Keeps tx' e e') (ht : tx ≠ tx') : e'.Tracks tx log := by
  refine h.spares hs hk.toSpares ht (fun table => (hk.pages_eq table).ge) (fun id hd => hk.bytes_of_none hd)
    fun table hw => hw.spares hk.toSpares ht (fun k => ?_) fun k => hk.draft _
  unfold committed View.contents
  rw [hk.base_of_none (hw.others tx' (Ne.symm ht) k)]

end Tracks

end HeapStore.Engine
