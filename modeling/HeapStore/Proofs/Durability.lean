import HeapStore.Proofs.Isolation

/-!
# What is stored at any time

The files of an engine hold what has been committed, at every point of a run and not only at its end. An engine
that is lost at any point loses what was not committed, and nothing else.

* `Books`: what has been kept in each slot, and what each transaction has made of it since. Unlike a ledger they
  know nothing of pages.
* `Engine.Touches`: what a call may do to the files. **Only the commit of a transaction writes over a page**, and
  only over pages that the transaction has changed. Other calls append blank pages.
* `Engine.Reopens`: another engine is opened over the file of a table.
* `Engine.run_durable`: **a scan after reopening gives exactly the records that were kept**, wherever the run was
  cut off.
-/

namespace HeapStore

/-! ## Books -/

/-- What has been kept in each slot, and what transactions have made of slots that they have changed since. -/
structure Books where
  kept : RecordId → Option (List Field)
  pending : TxId → RecordId → Option (Option (List Field))

namespace Books

variable (b : Books) (tx : TxId)

/-- What a transaction has in a slot: what it has made of it, or what was kept there. -/
def seen (place : RecordId) : Option (List Field) := (b.pending tx place).getD (b.kept place)

/-- The books after a transaction has changed a slot. -/
def note (place : RecordId) (fields : Option (List Field)) : Books :=
  { b with pending := fun tx' place' => if tx' = tx ∧ place' = place then some fields else b.pending tx' place' }

/-- The books after the changes of a transaction are gone. -/
def drop : Books := { b with pending := fun tx' place => if tx' = tx then none else b.pending tx' place }

/-- The books after the changes of a transaction were kept. -/
def keep : Books := { b.drop tx with kept := b.seen tx }

/-- What an event makes of the books. -/
def after : Event → Books
  | .nothing => b
  | .changed tx place fields => b.note tx place fields
  | .kept tx => b.keep tx
  | .dropped tx => b.drop tx

/-- What calls with their answers make of the books. -/
def replay : Books → List (Call × Answer) → Books
  | b, [] => b
  | b, (c, a) :: log => (b.after (c.event a)).replay log

end Books

/-- No page has versions of two transactions. -/
def Ledger.Apart (l : Ledger) : Prop :=
  ∀ tx tx' id, tx ≠ tx' → (l.drafts tx id).isSome → l.drafts tx' id = none

/-- The books say of each slot what the ledger says, and nothing of pages that a transaction has not changed. -/
structure Books.Fits (b : Books) (l : Ledger) : Prop where
  kept : ∀ place, b.kept place = l.committed place.page place.slot
  seen : ∀ tx place, b.seen tx place = l.seen tx place.page place.slot
  pending : ∀ tx place, l.drafts tx place.page = none → b.pending tx place = none

namespace Books.Fits

variable {b : Books} {l : Ledger} {tx : TxId}

theorem note (h : b.Fits l) (tx : TxId) (place : RecordId) (fields : Option (List Field)) :
    (b.note tx place fields).Fits (l.change tx place fields) where
  kept := h.kept
  seen tx' place' := by
    unfold Books.seen Ledger.seen
    rw [Ledger.drafts_change]
    show (if tx' = tx ∧ place' = place then some fields else b.pending tx' place').getD (b.kept place') = _
    have hseen := h.seen tx' place'
    by_cases ht : tx' = tx
    · subst ht
      by_cases hp : place'.page = place.page
      · rw [if_pos (⟨rfl, hp⟩ : tx' = tx' ∧ _)]
        show _ = if place'.slot = place.slot then fields else l.seen tx' place'.page place'.slot
        by_cases hs : place'.slot = place.slot
        · have he : place' = place := by
            obtain ⟨page', slot'⟩ := place'
            obtain ⟨page, slot⟩ := place
            simp only at hp hs
            rw [hp, hs]
          rw [if_pos ⟨rfl, he⟩, if_pos hs]
          rfl
        · rw [if_neg (fun he => hs (by rw [he.2])), if_neg hs]
          exact hseen
      · rw [if_neg (fun he => hp (by rw [he.2])), if_neg (fun he => hp he.2)]
        exact hseen
    · rw [if_neg (fun he => ht he.1), if_neg (fun he => ht he.1)]
      exact hseen
  pending tx' place' hd := by
    rw [Ledger.drafts_change] at hd
    split at hd
    · cases hd
    · next hne =>
      show (if tx' = tx ∧ place' = place then some fields else b.pending tx' place') = none
      rw [if_neg (fun he => hne ⟨he.1, by rw [he.2]⟩)]
      exact h.pending tx' place' hd

theorem drop (h : b.Fits l) (tx : TxId) : (b.drop tx).Fits (l.drop tx) where
  kept := h.kept
  seen tx' place := by
    show (if tx' = tx then none else b.pending tx' place).getD (b.kept place) =
      (if tx' = tx then none else l.drafts tx' place.page).getD (l.committed place.page) place.slot
    by_cases ht : tx' = tx
    · rw [if_pos ht, if_pos ht]
      exact h.kept place
    · rw [if_neg ht, if_neg ht]
      exact h.seen tx' place
  pending tx' place hd := by
    show (if tx' = tx then none else b.pending tx' place) = none
    by_cases ht : tx' = tx
    · rw [if_pos ht]
    · have hd : (if tx' = tx then none else l.drafts tx' place.page) = none := hd
      rw [if_neg ht] at hd ⊢
      exact h.pending tx' place hd

/-- Of a page that another transaction has changed nothing was pending here, so what is kept there stays. -/
theorem keep (h : b.Fits l) (ha : l.Apart) (tx : TxId) : (b.keep tx).Fits (l.keep tx) where
  kept place := h.seen tx place
  seen tx' place := by
    show (if tx' = tx then none else b.pending tx' place).getD (b.seen tx place) =
      (if tx' = tx then none else l.drafts tx' place.page).getD (l.seen tx place.page) place.slot
    by_cases ht : tx' = tx
    · rw [if_pos ht, if_pos ht]
      exact h.seen tx place
    rw [if_neg ht, if_neg ht]
    cases hd : l.drafts tx' place.page with
    | none =>
      rw [h.pending tx' place hd]
      exact h.seen tx place
    | some version =>
      have hnone : l.drafts tx place.page = none := ha tx' tx place.page ht (by rw [hd]; rfl)
      have hkept : b.seen tx place = b.kept place := by
        unfold Books.seen
        rw [h.pending tx place hnone]
        rfl
      have hseen : b.seen tx' place = version place.slot := by
        rw [h.seen tx' place]
        unfold Ledger.seen
        rw [hd]
        rfl
      rw [hkept]
      exact hseen
  pending tx' place hd := (h.drop tx).pending tx' place hd

/-- An event makes books that fit of books that fit. -/
theorem after (h : b.Fits l) (ha : l.Apart) (ev : Event) : (b.after ev).Fits (l.after ev) := by
  cases ev with
  | nothing => exact h
  | changed tx place fields => exact h.note tx place fields
  | kept tx => exact h.keep ha tx
  | dropped tx => exact h.drop tx

end Books.Fits

namespace Engine

variable {e e' g : Engine} {tx : TxId} {id : PageId} {table table' : TableId} {c : Call} {a : Answer}
  {calls : List Call}

/-- The books of an engine before its first call. -/
def books (e : Engine) : Books := ⟨fun place => e.committed place.page place.slot, fun _ _ => none⟩

theorem Sound.apart (h : e.Sound) : e.ledger.Apart := by
  intro tx tx' id ht hd
  rw [drafts_ledger, Option.isSome_map] at hd
  rw [drafts_ledger]
  have hx := h.locked hd
  rw [h.draft_of_held (by rw [hx]; rfl) (Ne.symm ht)]
  rfl

/-- Books that fit at first fit after all calls. -/
theorem Sound.fits (calls : List Call) (h : e.Sound) (hs : (e.run calls).Small) :
    ∀ b : Books, b.Fits e.ledger → (b.replay (e.log calls)).Fits (e.run calls).ledger := by
  refine Sound.run_induction (P := fun e log e' => ∀ b : Books, b.Fits e.ledger → (b.replay log).Fits e'.ledger)
    (fun _ _ hb => hb) ?_ calls h hs
  intro e e' e'' c a log h heff _ hrest b hb
  refine hrest _ ?_
  rw [(heff.refines h).2]
  exact hb.after h.apart _

theorem Ready.fits (h : e.Ready) : e.books.Fits e.ledger where
  kept _ := rfl
  seen tx place := by
    have hd : e.ledger.drafts tx place.page = none := by
      rw [drafts_ledger, h.draft]
      rfl
    unfold Ledger.seen
    rw [hd]
    rfl
  pending _ _ _ := rfl

/-! ## Pages that can be read -/

/-- The page can be read from its stored bytes. -/
def Readable (e : Engine) (id : PageId) : Prop := ∃ p, e.base.page id = .ok p

theorem Leaves.readable (h : Leaves tx e e') (id : PageId) : e'.Readable id ↔ e.Readable id := by
  unfold Readable
  rw [h.base_eq]

theorem Keeps.readable (hs : e.Sound) (h : Keeps tx e e') (id : PageId) : e'.Readable id ↔ e.Readable id := by
  unfold Readable
  cases hd : e.cache.draft tx id with
  | none => rw [h.base_of_none hd]
  | some p =>
    -- a page that was changed had been read before
    obtain ⟨f, hf, rfl, rfl, -⟩ := (Cache.draft_eq_some_iff hs.nodup).1 hd
    obtain ⟨q, hq, -⟩ := hs.copies f hf
    have hview : (e.view tx).stored f.page.id = .ok q := hs.present.view_stored_of_stored hq
    have hbase : e.base.page f.page.id = .ok q := hview
    exact ⟨fun _ => ⟨q, hbase⟩, fun _ => ⟨_, h.base_of_draft hs hd⟩⟩

/-- No call makes a page readable or unreadable. -/
theorem Effect.readable (hs : e.Sound) (h : Effect e c a e') (id : PageId) : e'.Readable id ↔ e.Readable id := by
  cases h with
  | began hq => exact (hq ⟨0⟩).readable id
  | evicted hq => exact (hq ⟨0⟩).readable id
  | fetched h => exact h.toQuiet.readable id
  | inserted h => exact h.toPuts.readable id
  | deleted h => exact h.toPuts.readable id
  | scanned hq => exact hq.readable id
  | stepped hq => exact hq.readable id
  | kept h => exact h.readable hs id
  | dropped h => exact h.readable id
  | timedOut _ _ _ _ h => exact h.readable id
  | failed _ _ _ _ hq => exact hq.readable id

theorem Sound.readable (calls : List Call) (h : e.Sound) (hs : (e.run calls).Small) (id : PageId) :
    (e.run calls).Readable id ↔ e.Readable id := by
  refine Sound.run_induction (P := fun e _ e' => e'.Readable id ↔ e.Readable id) (fun _ => Iff.rfl) ?_ calls h hs
  intro e e' e'' c a log h heff _ hrest
  exact hrest.trans (heff.readable h id)

/-! ## What calls do to files -/

/-- What a call may do to the file of each table. A commit writes over pages that its transaction has changed. All
other calls append blank pages, if they do anything. -/
def Touches (e : Engine) (c : Call) (e' : Engine) : Prop :=
  ∀ table file, e.file table = .ok file →
    match c with
    | .commit tx => Paged.Rewritten file.pageSize (fun n => (e.cache.draft tx ⟨table, n⟩).isSome)
        (e.fileBytes table) (e'.fileBytes table)
    | _ => Paged.Grown file.pageSize (e.fileBytes table) (e'.fileBytes table)

theorem Leaves.touches (h : Leaves tx e e') (hc : ∀ tx, c ≠ .commit tx) : e.Touches c e' := by
  intro table file hf
  cases c with
  | commit tx => exact absurd rfl (hc tx)
  | _ => exact h.grown hf

theorem Effect.touches (h : Effect e c a e') : e.Touches c e' := by
  have hends : ∀ {c : Call}, c.ends = false → ∀ tx, c ≠ .commit tx := by
    rintro _ hn tx rfl
    cases hn
  cases h with
  | began hq => exact (hq ⟨0⟩).touches fun tx => nofun
  | evicted hq => exact (hq ⟨0⟩).touches fun tx => nofun
  | fetched h => exact h.toQuiet.touches fun tx => nofun
  | inserted h => exact h.toPuts.touches fun tx => nofun
  | deleted h => exact h.toPuts.touches fun tx => nofun
  | scanned hq => exact hq.touches fun tx => nofun
  | stepped hq => exact hq.touches fun tx => nofun
  | kept h => exact fun table file hf => h.rewritten hf
  | dropped h => exact h.touches fun tx => nofun
  | timedOut _ hn _ _ h => exact h.touches (hends hn)
  | failed _ hn _ _ hq => exact hq.touches (hends hn)

/-! ## Reopening -/

/-- Another engine was opened, and one of its tables is a table of this engine: it has the same schema and page size,
and its file has the same bytes. -/
structure Reopens (e g : Engine) (table table' : TableId) : Prop where
  ready : g.Ready
  same : ∃ file file', e.file table = .ok file ∧ g.file table' = .ok file' ∧ file'.schema = file.schema ∧
    file'.pageSize = file.pageSize ∧ g.fileBytes table' = e.fileBytes table

namespace Reopens

variable (h : Reopens e g table table')

include h

/-- The pages are the stored ones, with the number of the new table. -/
theorem page (tx : TxId) (k : Nat) : (g.view tx).page ⟨table', k⟩ =
    (e.base.page ⟨table, k⟩).map fun p => { p with id := ⟨table', k⟩ } := by
  obtain ⟨file, file', hf, hf', hsch, hz, hbytes⟩ := h.same
  have hold : e.file (PageId.mk table k).table = .ok file := hf
  have hnew : g.file (PageId.mk table' k).table = .ok file' := hf'
  have hbase : e.base.catalog.tableFile (PageId.mk table k).table = .ok file := hf
  have hpage : g.pageBytes ⟨table', k⟩ = e.pageBytes ⟨table, k⟩ := by
    rw [pageBytes_eq hnew, pageBytes_eq hold, hz, hbytes]
  rw [View.page_of_none (h.ready.draft tx _), view_stored_eq hnew, View.page_of_none rfl, View.stored_eq hbase]
  show _ = ((Page.decode ⟨table, k⟩ file.schema file.pageSize (e.pageBytes ⟨table, k⟩)).mapError
    AccessFault.record).map _
  rw [hpage, hsch, hz, Page.decode_id ⟨table, k⟩ ⟨table', k⟩]
  cases Page.decode ⟨table, k⟩ file.schema file.pageSize (e.pageBytes ⟨table, k⟩) <;> rfl

theorem contents (tx : TxId) (k : Nat) : (g.view tx).contents ⟨table', k⟩ = e.committed ⟨table, k⟩ := by
  unfold committed View.contents
  rw [h.page tx k]
  cases e.base.page ⟨table, k⟩ <;> rfl

theorem readable_iff (tx : TxId) (k : Nat) :
    e.Readable ⟨table, k⟩ ↔ ∃ p, (g.view tx).page ⟨table', k⟩ = .ok p := by
  unfold Readable
  rw [h.page tx k]
  cases e.base.page ⟨table, k⟩ with
  | ok p => exact ⟨fun _ => ⟨_, rfl⟩, fun _ => ⟨_, rfl⟩⟩
  | error fault => exact ⟨nofun, nofun⟩

/-- A listing of the new engine lists what was committed. -/
theorem lists (tx : TxId) (n : Nat) : Lists (fun place fields => place.page.table = table' ∧ place.page.number < n ∧
    e.committed ⟨table, place.page.number⟩ place.slot = some fields) ((g.view tx).listing table' n) := by
  refine (View.listing_lists (fun k p hp => (h.ready.sound.of_view_page hp).1) n).congr fun place fields => ?_
  constructor
  · rintro ⟨rfl, hn, hc⟩
    rw [← h.contents tx]
    exact ⟨rfl, hn, hc⟩
  · rintro ⟨rfl, hn, hc⟩
    rw [← h.contents tx] at hc
    exact ⟨rfl, hn, hc⟩

/-- Behind the end of the file all pages can be read, and they are blank. -/
theorem readable_behind {k : Nat} (hk : g.pages table' ≤ k) :
    e.Readable ⟨table, k⟩ ∧ ∀ slot, e.committed ⟨table, k⟩ slot = none := by
  obtain ⟨-, file', -, hf', -⟩ := h.same
  have hnew : g.file (PageId.mk table' k).table = .ok file' := hf'
  obtain ⟨p, hp, -⟩ := h.ready.sound.view_page_behind hnew hk ⟨0⟩
  refine ⟨(h.readable_iff ⟨0⟩ k).2 ⟨p, hp⟩, fun slot => ?_⟩
  rw [← h.contents ⟨0⟩]
  exact h.ready.sound.contents_behind hk slot

/-- A page that the file has is fetched unless it cannot be read: nobody holds a page, and the cache is empty. -/
theorem not_readable {tx : TxId} {k : Nat} {fault : AccessFault} {g' : Engine} (hk : k < g.pages table')
    (hf : Fails tx fault (g.Lacks tx ⟨table', k⟩) g g') : ¬ e.Readable ⟨table, k⟩ := by
  rw [h.readable_iff tx]
  rintro ⟨p, hp⟩
  cases hf with
  | ended _ hc _ =>
    obtain ⟨tx', -, id, hm⟩ := hc
    rw [h.ready.mode?] at hm
    cases hm
  | quiet _ _ hr =>
    rcases hr h.ready.roomy with hle | ⟨fault, he⟩
    · exact absurd hle (Nat.not_le.2 hk)
    · rw [hp] at he
      cases he

/-- **A scan gives exactly what the file has up to its first page that cannot be read**, which is a fault. -/
theorem scan (tx : TxId) : ∃ (rs : List Record) (fault? : Option AccessFault),
    (g.scan tx table').1 = .ok (rs.map .ok ++ (fault?.map .error).toList) ∧
    (fault? = none ↔ ∀ k, e.Readable ⟨table, k⟩) ∧
    Lists (fun place fields => place.page.table = table' ∧
      (∀ k ≤ place.page.number, e.Readable ⟨table, k⟩) ∧
      e.committed ⟨table, place.page.number⟩ place.slot = some fields) rs := by
  have hscan := scan_scanning h.ready.sound tx table'
  generalize g.scan tx table' = o at hscan
  cases hscan with
  | closed _ hf =>
    obtain ⟨-, file', -, hf', -⟩ := h.same
    obtain ⟨fault, hf⟩ := hf
    rw [hf'] at hf
    cases hf
  | drained hd =>
    cases hd with
    | all hq hp =>
      have hread : ∀ k, e.Readable ⟨table, k⟩ := by
        intro k
        rcases Nat.lt_or_ge k (g.pages table') with hk | hk
        · exact (h.readable_iff tx k).2 (hp k (Nat.zero_le k) hk).1
        · exact (h.readable_behind hk).1
      rw [View.recordsOf_range']
      refine ⟨_, none, by rw [Option.map_none, Option.toList_none, List.append_nil], ⟨fun _ => hread, fun _ => rfl⟩,
        (h.lists tx _).congr fun place fields => ⟨?_, ?_⟩⟩
      · rintro ⟨ht, -, hc⟩
        exact ⟨ht, fun k _ => hread k, hc⟩
      · -- nothing was committed behind the end of the file
        rintro ⟨ht, -, hc⟩
        refine ⟨ht, ?_, hc⟩
        by_contra hn
        rw [(h.readable_behind (Nat.le_of_not_lt hn)).2] at hc
        cases hc
    | @cut _ fault j _ hj hp hf =>
      have hbad : ¬ e.Readable ⟨table, j⟩ := h.not_readable hj hf
      have hgood : ∀ k < j, e.Readable ⟨table, k⟩ :=
        fun k hk => (h.readable_iff tx k).2 (hp k (Nat.zero_le k) hk)
      rw [View.recordsOf_range']
      refine ⟨_, some fault, rfl, ⟨nofun, fun hall => absurd (hall j) hbad⟩,
        (h.lists tx j).congr fun place fields => ⟨?_, ?_⟩⟩
      · rintro ⟨ht, hn, hc⟩
        exact ⟨ht, fun k hk => hgood k (Nat.lt_of_le_of_lt hk hn), hc⟩
      · rintro ⟨ht, hread, hc⟩
        refine ⟨ht, ?_, hc⟩
        by_contra hn
        exact hbad (hread j (Nat.le_of_not_lt hn))

end Reopens

/-- **What is stored at any time is what has been committed.** An engine was opened over its files, and any calls of any
transactions are made, as long as page numbers have room. Then only commits write over pages, each over pages that
its transaction has changed, and other calls append blank pages. So after any number of calls, whoever opens the
files anew finds by a scan exactly the records that have been kept, in the slots where they were put, up to a page
that could not be read from the start. -/
theorem run_durable (h : e.Ready) (calls : List Call) (hs : (e.run calls).Small) :
    (∀ before c after, calls = before ++ c :: after → (e.run before).Touches c (e.run (before ++ [c]))) ∧
    ∀ before after g table table' tx, calls = before ++ after → (e.run before).Reopens g table table' →
      ∃ (rs : List Record) (fault? : Option AccessFault),
        (g.scan tx table').1 = .ok (rs.map .ok ++ (fault?.map .error).toList) ∧
        (fault? = none ↔ ∀ k, e.Readable ⟨table, k⟩) ∧
        Lists (fun place fields => place.page.table = table' ∧
          (∀ k ≤ place.page.number, e.Readable ⟨table, k⟩) ∧
          (e.books.replay (e.log before)).kept ⟨⟨table, place.page.number⟩, place.slot⟩ = some fields) rs := by
  constructor
  · rintro before c after rfl
    have hbefore := small_of_append h.present before (c :: after) hs
    rw [run_append] at hs ⊢
    have hcall := small_of_append (h.run hbefore).present [c] after hs
    exact (call_effect (h.run hbefore) c hcall).touches
  · rintro before after g table table' tx rfl hg
    have hbefore := small_of_append h.present before after hs
    have hread : ∀ k, (e.run before).Readable ⟨table, k⟩ ↔ e.Readable ⟨table, k⟩ :=
      fun k => h.sound.readable before hbefore ⟨table, k⟩
    have hkept := (h.sound.fits before hbefore e.books h.fits).kept
    obtain ⟨rs, fault?, hscan, hfault, hlist⟩ := hg.scan tx
    simp only [hread] at hfault hlist
    refine ⟨rs, fault?, hscan, hfault, hlist.congr fun place fields => ?_⟩
    rw [hkept]
    exact Iff.rfl

end Engine

namespace Sample

/-- Calls after which one transaction is committed, one was ended by another, and one is running. -/
def cut : List Call :=
  [.begin, .insert ⟨1⟩ table (record 5), .insert ⟨1⟩ table (record 6), .begin, .insert ⟨2⟩ table (record 7),
    .commit ⟨1⟩, .begin, .delete ⟨3⟩ ⟨schema, (record 5).row, some ⟨⟨table, 0⟩, 0⟩⟩, .insert ⟨3⟩ table (record 8),
    .evict]

/-- The engine that is opened where the other one was cut off. -/
def reopened : Engine := opened (engine.run cut).disk

theorem createTable_cut :
    ((empty (engine.run cut).disk).createTable path "numbers" schema none).1.toOption = some table := by
  decide +kernel

theorem reopens : (engine.run cut).Reopens reopened table table := by
  obtain ⟨file, hf, hs, hz, -⟩ := file_opened createTable_engine
  obtain ⟨file', hf', hs', hz', -⟩ := file_opened createTable_cut
  have hf1 : (engine.run cut).file table = .ok file := by
    rw [Engine.file_congr (Engine.run_catalog engine cut)]
    exact hf
  exact ⟨ready_opened createTable_cut, file, file', hf1, hf', hs'.trans hs.symm, hz'.trans hz.symm, by decide +kernel⟩

theorem run_durable_cut : engine.Ready ∧ (engine.run cut).Small ∧ (engine.run cut).Reopens reopened table table ∧
    (engine.run (cut.take 5)).Touches (.commit ⟨1⟩) (engine.run (cut.take 5 ++ [.commit ⟨1⟩])) ∧
    ∃ (rs : List Record) (fault? : Option AccessFault),
      (reopened.scan ⟨1⟩ table).1 = .ok (rs.map .ok ++ (fault?.map .error).toList) ∧
      (fault? = none ↔ ∀ k, engine.Readable ⟨table, k⟩) ∧
      Lists (fun place fields => place.page.table = table ∧
        (∀ k ≤ place.page.number, engine.Readable ⟨table, k⟩) ∧
        (engine.books.replay (engine.log cut)).kept ⟨⟨table, place.page.number⟩, place.slot⟩ = some fields) rs :=
  have hs : (engine.run cut).Small := small (by decide +kernel)
  have hd := Engine.run_durable ready cut hs
  ⟨ready, hs, reopens, hd.1 _ _ _ rfl, hd.2 cut [] reopened table table ⟨1⟩ (List.append_nil cut).symm reopens⟩

end Sample

end HeapStore
