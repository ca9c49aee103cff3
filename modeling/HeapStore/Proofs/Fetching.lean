import HeapStore.Proofs.Closing

/-!
# Fetching pages

A page that is fetched is the page that the transaction sees, and fetching it is seen by nobody. It can fail in
two ways: the transaction is ended because another one holds the page, or nothing happens.

* `Engine.Fetched`: a page for a transaction. `Engine.fetch_ok` says that it is what is given.
* `Engine.Fails`: what a call that fails comes to. `Engine.fetch_error` says that fetching fails in this way.
-/

namespace HeapStore.Engine

variable {e e' e'' : Engine} {tx : TxId} {id : PageId} {mode : LockMode} {f : Frame} {fault : AccessFault}

/-- Nobody is reading a copy, and there are fewer changed copies than places. -/
def Roomy (e : Engine) : Prop := e.cache.guarded = [] ∧ e.cache.changed < e.cache.capacity

/-- Another transaction holds a page. -/
def Contended (e : Engine) (tx : TxId) : Prop := ∃ tx' ≠ tx, ∃ id, (e.locks.mode? tx' id).isSome

/-- The page lies behind the end of its file, or cannot be read. -/
def Lacks (e : Engine) (tx : TxId) (id : PageId) : Prop :=
  e.pages id.table ≤ id.number ∨ ∃ fault, (e.view tx).page id = .error fault

/-- A page for a transaction. -/
structure Fetched (tx : TxId) (id : PageId) (mode : LockMode) (f : Frame) (e e' : Engine) : Prop
    extends Quiet tx e e' where
  page : (e.view tx).page id = .ok f.page
  found : e'.cache.find? id = some f
  held : (e'.locks.mode? tx id).isSome
  alone : mode = .exclusive → e'.locks.mode? tx id = some .exclusive
  inFile : id.number < e.pages id.table
  disk : e'.disk = e.disk

/-- What a call that fails comes to: the end of the transaction because of the others, or nothing. If the cache
had room there is a reason for the second. -/
inductive Fails (tx : TxId) (fault : AccessFault) (reason : Prop) (e e' : Engine) : Prop where
  | ended (ha : fault.aborts = true) (hc : e.Contended tx) (hd : Drops tx e e')
  | quiet (ha : fault.aborts = false) (hq : Quiet tx e e') (hr : e.Roomy → reason)

theorem Quiet.roomy (h : Quiet tx e e') : e'.Roomy ↔ e.Roomy := by
  unfold Roomy
  rw [h.guarded, h.changed, h.capacity]

/-- A page lacks as long as the files stay and nobody sees a change. -/
theorem Quiet.lacks (h : Quiet tx e e') (hd : e'.disk = e.disk) (hl : e'.Lacks tx id) : e.Lacks tx id := by
  unfold Lacks at hl ⊢
  rw [h.view_eq tx, pages_of_disk h.catalog hd] at hl
  exact hl

theorem Spares.contended (h : Spares tx e e') (hc : e'.Contended tx) : e.Contended tx := by
  obtain ⟨tx', ht, id, hm⟩ := hc
  exact ⟨tx', ht, id, by rw [← h.others tx' ht id]; exact hm⟩

theorem Quiet.fails {reason reason' : Prop} (h : Quiet tx e e') (hf : Fails tx fault reason e' e'')
    (hr : reason → reason') : Fails tx fault reason' e e'' := by
  cases hf with
  | ended ha hc hd => exact .ended ha (h.contended hc) (h.drops hd)
  | quiet ha hq hn => exact .quiet ha (h.trans hq) fun hroom => hr (hn (h.roomy.2 hroom))

/-! ## Copies -/

/-- The page that a transaction holds is changed by it or by nobody, so its copy is what it sees. -/
theorem Sound.view_page_of_find? (h : e.Sound) (hf : e.cache.find? id = some f)
    (hm : (e.locks.mode? tx id).isSome) : (e.view tx).page id = .ok f.page :=
  h.view_page_of_mem hf (h.dirty_cases hf hm)

theorem quiet_touch (h : e.Sound) (tx : TxId) (id : PageId) :
    Quiet tx e { e with cache := e.cache.touch id } := by
  refine Quiet.cache h tx (Cache.nodup_touch h.nodup) (fun f hf => .inl (Cache.mem_touch.1 hf)) ?_ rfl rfl
    Cache.changed_touch
  funext tx' id'
  exact Cache.draft_touch h.nodup

theorem quiet_remove (h : e.Sound) (tx : TxId) (hf : f ∈ e.cache.frames) (hd : f.page.dirty = none) :
    Quiet tx e { e with cache := e.cache.remove f.page.id } := by
  refine Quiet.cache h tx (Cache.nodup_remove h.nodup) (fun g hg => .inl (Cache.mem_remove.1 hg).1) ?_ rfl rfl
    (Cache.changed_remove h.nodup hf hd)
  funext tx' id'
  exact Cache.draft_remove h.nodup hf hd

theorem quiet_add (h : e.Sound) (tx : TxId) {page : Page} (hs : e.stored page.id = .ok page)
    (hn : e.cache.find? page.id = none) : Quiet tx e { e with cache := (e.cache.add page).2 } := by
  obtain ⟨file, -, -, hdec⟩ := h.present.of_stored hs
  obtain ⟨-, -, -, hd, -⟩ := Page.fields_of_decode hdec
  rw [Cache.find?_eq_none_iff] at hn
  refine Quiet.cache h tx (Cache.nodup_add h.nodup hn) (fun g hg => ?_) ?_ rfl rfl (Cache.changed_add hd)
  · rcases Cache.mem_add.1 hg with rfl | hg
    · exact .inr hs
    · exact .inl hg
  · funext tx' id'
    exact Cache.draft_add hn hd

/-- Room is made without anybody seeing it. -/
theorem quiet_makeRoom (h : e.Sound) (tx : TxId) {cache : Cache} (hr : e.cache.makeRoom? = some cache) :
    Quiet tx e { e with cache } ∧ ∀ f ∈ cache.frames, f ∈ e.cache.frames := by
  rcases Cache.makeRoom?_cases hr with rfl | ⟨f, hf, hd, rfl⟩
  · exact ⟨Quiet.refl h tx, fun _ hf => hf⟩
  · exact ⟨quiet_remove h tx hf hd, fun g hg => (Cache.mem_remove.1 hg).1⟩

theorem quiet_evict (h : e.Sound) (tx : TxId) : Quiet tx e e.evict.2 := by
  unfold evict
  split
  · exact Quiet.refl h tx
  · next cache hc =>
    obtain ⟨f, hf, hd, rfl⟩ := Cache.evict?_cases hc
    exact quiet_remove h tx hf hd

/-- The copy of a page that the transaction holds. -/
theorem load_ok (h : e.Sound) (hm : (e.locks.mode? tx id).isSome) (hl : e.load id = (.ok f, e')) :
    Quiet tx e e' ∧ (e.view tx).page id = .ok f.page ∧ e'.cache.find? id = some f ∧
      id.number < e.pages id.table ∧ e'.disk = e.disk ∧ e'.locks = e.locks := by
  unfold load at hl
  split at hl
  · next g hg =>
    cases hl
    obtain ⟨hmem, rfl⟩ := Cache.mem_of_find? hg
    obtain ⟨file, q, -, hn, -⟩ := h.of_mem hmem
    exact ⟨quiet_touch h tx _, h.view_page_of_find? hg hm, (Cache.find?_touch h.nodup).trans hg, hn, rfl, rfl⟩
  · next hnone =>
    split at hl
    · cases hl
    · next page hs =>
      split at hl
      · cases hl
      · next cache hr =>
        cases hl
        obtain ⟨hq, hsub⟩ := quiet_makeRoom h tx hr
        have hid := id_of_stored hs
        subst hid
        obtain ⟨file, hf, hn, -⟩ := h.present.of_stored hs
        have hnone' : cache.find? page.id = none := by
          rw [Cache.find?_eq_none_iff] at hnone ⊢
          intro hmem
          obtain ⟨g, hg, he⟩ := List.mem_map.1 hmem
          exact hnone (he ▸ Cache.mem_pages_of_mem (hsub g hg))
        have hadd : Quiet tx { e with cache } { e with cache := (cache.add page).2 } :=
          quiet_add hq.sound tx hs hnone'
        have hdraft : e.cache.draft tx page.id = none :=
          Cache.draft_of_not_mem (Cache.find?_eq_none_iff.1 hnone)
        refine ⟨hq.trans hadd, ?_, ?_, hn, rfl, rfl⟩
        · rw [View.page_of_none hdraft]
          exact h.present.view_stored_of_stored hs
        · show (cache.add page).2.find? page.id = some (cache.add page).1
          rw [Cache.find?_add, if_pos rfl]

/-- No fault of reading a page ends a transaction. -/
theorem aborts_of_stored (h : e.stored id = .error fault) : fault.aborts = false := by
  unfold stored TableFile.read file Catalog.tableFile at h
  cases hc : e.catalog.file id.table with
  | error cause =>
    rw [hc] at h
    cases h
    rfl
  | ok file =>
    rw [hc] at h
    simp only [bind, Except.bind, Except.mapError] at h
    split at h
    · next hr =>
      cases h
      split at hr
      · cases hr
        rfl
      · cases hr
    · split at h
      · cases h
        rfl
      · cases h

/-- No fault of loading it does. -/
theorem aborts_of_load (h : e.load id = (.error fault, e')) : fault.aborts = false := by
  unfold load at h
  split at h
  · cases h
  · split at h
    · next hs =>
      cases h
      exact aborts_of_stored hs
    · split at h
      · cases h
        rfl
      · cases h

/-- A page whose copy cannot be had. -/
theorem load_error (h : e.Sound) (tx : TxId) (hl : e.load id = (.error fault, e')) :
    e' = e ∧ fault.aborts = false ∧ (e.Roomy → e.Lacks tx id) := by
  have ha := aborts_of_load hl
  unfold load at hl
  split at hl
  · cases hl
  · next hnone =>
    split at hl
    · next hs =>
      cases hl
      refine ⟨rfl, ha, fun _ => ?_⟩
      have hdraft : e.cache.draft tx id = none := Cache.draft_of_not_mem (Cache.find?_eq_none_iff.1 hnone)
      rcases Nat.lt_or_ge id.number (e.pages id.table) with hn | hn
      · cases hf : e.file id.table with
        | error _ =>
          unfold pages at hn
          rw [hf] at hn
          exact absurd hn (Nat.not_lt_zero _)
        | ok file =>
          rw [h.present.stored_of_lt hf hn tx] at hs
          exact .inr ⟨_, (View.page_of_none hdraft).trans hs⟩
      · exact .inl hn
    · split at hl
      · next hr =>
        cases hl
        refine ⟨rfl, ha, fun hroom => ?_⟩
        have := Cache.isSome_makeRoom? hroom.1 hroom.2
        rw [hr] at this
        cases this
      · cases hl

/-! ## Fetching -/

theorem fetch_granted {locks : LockTable} (hg : e.locks.grant? tx id mode = some locks) :
    e.fetch tx id mode = { e with locks }.load id := by
  unfold fetch LockTable.acquire
  rw [hg]

theorem fetch_denied (hg : e.locks.grant? tx id mode = none) :
    e.fetch tx id mode = (.error (.aborted tx (.timeout tx id mode)), (e.complete tx false).2) := by
  unfold fetch LockTable.acquire
  rw [hg]

/-- **A page that is fetched is the page that the transaction sees.** -/
theorem fetch_ok (h : e.Sound) (hf : e.fetch tx id mode = (.ok f, e')) : Fetched tx id mode f e e' := by
  cases hg : e.locks.grant? tx id mode with
  | none =>
    rw [fetch_denied hg] at hf
    cases hf
  | some locks =>
    rw [fetch_granted hg] at hf
    have hq := Quiet.grant h hg
    have hm : (locks.mode? tx id).isSome := by
      rw [LockTable.mode?_of_grant? hg, if_pos ⟨rfl, rfl⟩]
      rfl
    obtain ⟨hl, hpage, hfound, hn, hdisk, hlocks⟩ := load_ok hq.sound hm hf
    refine ⟨hq.trans hl, ?_, hfound, ?_, ?_, hn, hdisk⟩
    · rw [← hq.view_eq tx]
      exact hpage
    · rw [hlocks]
      exact hm
    · rintro rfl
      rw [hlocks]
      exact LockTable.mode?_granted hg

/-- A request that is denied is in the way of another transaction. -/
theorem contended_of_denied (h : e.Sound) (hg : e.locks.grant? tx id mode = none) : e.Contended tx := by
  by_contra hno
  have hallow : e.locks.Allows tx id mode := by
    intro tx' ht
    refine .inl ?_
    cases hm : e.locks.mode? tx' id with
    | none => rfl
    | some m => exact absurd ⟨tx', ht, id, by rw [hm]; rfl⟩ hno
  have := (LockTable.isSome_grant?_iff h.locks).2 hallow
  rw [hg] at this
  cases this

/-- **A page that is not fetched** is held by another transaction, which ends this one, or it lacks, or there is
no room for it. -/
theorem fetch_error (h : e.Sound) (hf : e.fetch tx id mode = (.error fault, e')) :
    Fails tx fault (e.Lacks tx id) e e' := by
  cases hg : e.locks.grant? tx id mode with
  | none =>
    rw [fetch_denied hg] at hf
    cases hf
    obtain ⟨e1, hrun, hd, -⟩ := complete_drop h tx
    rw [hrun]
    exact .ended rfl (contended_of_denied h hg) hd
  | some locks =>
    rw [fetch_granted hg] at hf
    have hq := Quiet.grant h hg
    obtain ⟨rfl, ha, hr⟩ := load_error hq.sound tx hf
    refine .quiet ha hq fun hroom => ?_
    have hl := hr (hq.roomy.2 hroom)
    unfold Lacks at hl ⊢
    rw [hq.view_eq tx] at hl
    exact hl

end HeapStore.Engine
