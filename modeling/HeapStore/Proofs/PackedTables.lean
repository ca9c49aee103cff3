import HeapStore.Proofs.Packing
import HeapStore.Proofs.Replays
import Mathlib.Data.List.Perm.Subperm

/-!
# Packed tables

Records that are inserted into a table without any fill its pages one after another. A transaction that has packed the
table from its first page on has its copies of all of them, so it needs room in the cache for these pages and no more.

* `Engine.PackedFor`: a transaction sees a table that is packed with some rows, and would store it so.
  `PackedFor.inserted` says that **one more record is packed behind the others**.
* `Engine.Working`: a transaction has packed a table from its first row on, and nothing else is changed.
  `Working.insert` says that **a cache with room for the pages of the table is enough** for one more record, and
  `Working.insertAll` says so for any number of records.
-/

namespace HeapStore

/-- Blank pages leave whole pages. -/
theorem Paged.Grown.dvd {size : Nat} {file file' : Bytes} (h : Grown size file file') (hd : size ∣ file.length) :
    size ∣ file'.length := by
  rcases h with rfl | ⟨k, -, rfl⟩
  · exact hd
  · rw [length_blanks]
    exact Dvd.intro_left _ rfl

/-- What is stored after a page was changed. -/
theorem View.keep_put (v : View) (page : Page) (id : PageId) :
    (v.put page).keep.bytes id = if id = page.id then page.encode else v.keep.bytes id := by
  unfold put keep
  by_cases hi : id = page.id
  · simp only [if_pos hi]
  · simp only [if_neg hi]

/-- Where the record behind `n` others goes. -/
def TableFile.placeAt (t : TableFile) (n : Nat) : RecordId :=
  ⟨t.pageId (n / t.schema.slotCount t.pageSize), n % t.schema.slotCount t.pageSize⟩

namespace Engine

variable {e e' : Engine} {tx tx' : TxId} {table : TableId} {file : TableFile} {rows : List (List Field)} {r : Record}
  {q : Page}

/-- The stored bytes of a page by its number. -/
theorem pageBytes_nth (hf : e.file table = .ok file) (n : Nat) :
    e.pageBytes ⟨table, n⟩ = Paged.page file.pageSize (e.fileBytes table) n := pageBytes_eq hf

/-- A page as it is stored, by its number. -/
theorem view_stored_nth (hf : e.file table = .ok file) (tx : TxId) (n : Nat) : (e.view tx).stored ⟨table, n⟩ =
    (Page.decode ⟨table, n⟩ file.schema file.pageSize (e.pageBytes ⟨table, n⟩)).mapError .record := view_stored_eq hf

/-! ## A packed table -/

/-- The transaction sees a table that is packed with the rows, and would store it so. -/
structure PackedFor (tx : TxId) (table : TableId) (file : TableFile) (rows : List (List Field)) (e : Engine) : Prop where
  ofTable : e.file table = .ok file
  pages : e.pages table = file.schema.pagesFor file.pageSize rows.length
  whole : file.pageSize ∣ (e.fileBytes table).length
  page : ∀ k, ∃ p, (e.view tx).page ⟨table, k⟩ = .ok p ∧ p.Packs (file.schema.rowsOn file.pageSize rows k) ∧
    (e.view tx).keep.bytes ⟨table, k⟩ = p.encode

namespace PackedFor

/-- The record behind the others has its place. -/
theorem inserts (h : PackedFor tx table file rows e) (hc : e.Coherent) (hr : r.schema.types = file.schema.types) :
    ∃ q, (e.view tx).Inserts table r (file.placeAt rows.length) q ∧ q.id = (file.placeAt rows.length).page ∧
      q.Packs (file.schema.rowsOn file.pageSize (rows ++ [r.fields]) (file.placeAt rows.length).page.number) := by
  have hs := hc.catalog.slots h.ofTable
  have ht : file.table = table := hc.catalog.own h.ofTable
  have hdiv := Nat.div_add_mod' rows.length (file.schema.slotCount file.pageSize)
  have hmod := Nat.mod_lt rows.length (Nat.pos_of_ne_zero hs)
  have hpage : (file.placeAt rows.length).page = ⟨table, rows.length / file.schema.slotCount file.pageSize⟩ := by
    rw [← ht]
    rfl
  obtain ⟨p, hp, hpacks, -⟩ := h.page (rows.length / file.schema.slotCount file.pageSize)
  obtain ⟨hid, file', hf', hschema, hsize⟩ := hc.of_view_page hp
  obtain rfl : file' = file := Except.ok.inj (hf'.symm.trans h.ofTable)
  have hlength : (file'.schema.rowsOn file'.pageSize rows (rows.length / file'.schema.slotCount file'.pageSize)).length =
      rows.length % file'.schema.slotCount file'.pageSize := by
    rw [length_rowsOn]
    omega
  obtain ⟨q, hq, hqp, hqid, -⟩ := hpacks.insert (r := r) (by rw [hr, hschema]) (by rw [hschema, hsize, hlength]; exact hmod)
  rw [hlength, hid] at hq
  refine ⟨q, ⟨by rw [hpage], fun k hk => ?_, p, by rw [hpage]; exact hp, ?_⟩, ?_, ?_⟩
  · -- the pages in front of it are full
    rw [hpage] at hk
    obtain ⟨p', hp', hpacks', -⟩ := h.page k
    obtain ⟨-, file2, hf2, hschema', hsize'⟩ := hc.of_view_page hp'
    obtain rfl : file2 = file' := Except.ok.inj (hf2.symm.trans h.ofTable)
    have hle : (k + 1) * file2.schema.slotCount file2.pageSize ≤ rows.length :=
      le_trans (Nat.mul_le_mul_right _ hk) (Nat.div_mul_le_self _ _)
    rw [Nat.add_mul, Nat.one_mul] at hle
    refine ⟨p', hp', ?_⟩
    rw [hpacks'.freeSlots, hschema', hsize', length_rowsOn]
    omega
  · unfold TableFile.placeAt TableFile.pageId
    rw [ht]
    exact hq
  · rw [hpage, hqid, hid]
  · rw [hpage, rowsOn_snoc hs, if_pos rfl]
    exact hqp

/-- **One more record is packed behind the others.** -/
theorem inserted (h : PackedFor tx table file rows e) (hc : e.Coherent) (hr : r.schema.types = file.schema.types)
    (hi : Inserted tx table r (file.placeAt rows.length) q e e')
    (hle : e'.pages table ≤ rows.length / file.schema.slotCount file.pageSize + 1) :
    PackedFor tx table file (rows ++ [r.fields]) e' := by
  have hslots := hc.catalog.slots h.ofTable
  have ht : file.table = table := hc.catalog.own h.ofTable
  obtain ⟨q', hins, hid, hpacks⟩ := h.inserts hc hr
  obtain ⟨-, rfl⟩ := hins.unique hi.inserts
  have hnumber : ∀ k, (⟨table, k⟩ : PageId) = (q'.mark (some tx)).id ↔
      k = rows.length / file.schema.slotCount file.pageSize := by
    intro k
    have hmark : (q'.mark (some tx)).id = ⟨table, rows.length / file.schema.slotCount file.pageSize⟩ := by
      rw [← ht]
      exact hid
    rw [hmark, PageId.mk.injEq]
    exact and_iff_right rfl
  refine ⟨(hi.file_eq table).trans h.ofTable, ?_, (hi.grown h.ofTable).dvd h.whole, fun k => ?_⟩
  · -- the page of the record is the last one
    have hlt : rows.length / file.schema.slotCount file.pageSize < e'.pages table := hi.inFile
    rw [List.length_append, List.length_singleton, pagesFor_succ hslots]
    omega
  · rw [hi.toPuts.view_eq, View.keep_put]
    by_cases hk : k = rows.length / file.schema.slotCount file.pageSize
    · have hmark := (hnumber k).2 hk
      refine ⟨q'.mark (some tx), ?_, ?_, if_pos hmark⟩
      · exact View.page_of_draft (if_pos hmark)
      · rw [hk]
        exact hpacks.mark (some tx)
    · have hmark := mt (hnumber k).1 hk
      obtain ⟨p, hp, hpp, hbytes⟩ := h.page k
      refine ⟨p, ?_, ?_, (if_neg hmark).trans hbytes⟩
      · have hdraft : ((e.view tx).put (q'.mark (some tx))).draft ⟨table, k⟩ = (e.view tx).draft ⟨table, k⟩ :=
          if_neg hmark
        rw [← hp]
        unfold View.page
        rw [hdraft]
        rfl
      · rw [rowsOn_snoc hslots, if_neg hk]
        exact hpp

end PackedFor

/-! ## Room in the cache -/

/-- Who works alone is the only one with changes. -/
theorem Alone.draft_of_ne (h : e.Alone tx) (ht : tx' ≠ tx) (id : PageId) : e.cache.draft tx' id = none := by
  cases hd : e.cache.draft tx' id with
  | none => rfl
  | some p =>
    have hx : e.locks.mode? tx' id = some .exclusive := h.sound.locked (by rw [hd]; rfl)
    rw [h.others tx' ht] at hx
    cases hx

/-- **A page that the transaction has changed needs no room**, since it has its copy. -/
theorem Alone.fetch_draft {id : PageId} (h : e.Alone tx) (hd : (e.cache.draft tx id).isSome) (mode : LockMode) :
    ∃ f e', e.fetch tx id mode = (.ok f, e') := by
  cases hg : e.locks.grant? tx id mode with
  | none =>
    obtain ⟨tx', ht, id', hm⟩ := contended_of_denied h.sound hg
    rw [h.others tx' ht] at hm
    cases hm
  | some locks =>
    rw [fetch_granted hg]
    cases hf : e.cache.find? id with
    | none =>
      rw [Cache.draft_of_not_mem (Cache.find?_eq_none_iff.1 hf)] at hd
      cases hd
    | some f =>
      unfold load
      simp only [hf]
      exact ⟨f, _, rfl⟩

/-- **On pages that the transaction has changed a record is looked for without room.** -/
theorem Alone.putOnFirst_drafts (hr : r.schema.types = file.schema.types) (numbers : List Nat) : ∀ {e : Engine},
    e.Alone tx → e.file table = .ok file → (∀ n ∈ numbers, (e.cache.draft tx (file.pageId n)).isSome) →
    (putOnFirst file tx r numbers e).1.isOk = true := by
  induction numbers with
  | nil => exact fun _ _ _ => rfl
  | cons n numbers ih =>
    intro e h hfile hd
    obtain ⟨f, e1, hf⟩ := h.fetch_draft (hd n List.mem_cons_self) .exclusive
    have hfetch := fetch_ok h.sound hf
    unfold putOnFirst
    rw [hf]
    simp only
    split
    · have h1 : e1.Alone tx := h.spares hfetch.toSpares (small_of_disk hfetch.catalog hfetch.disk h.small)
      refine ih h1 ((hfetch.file_eq table).trans hfile) fun m hm => ?_
      rw [hfetch.draft]
      exact hd m (List.mem_cons_of_mem _ hm)
    · next hfree =>
      -- a page of the table takes its records
      obtain ⟨-, file', hf', hschema, -⟩ := h.sound.of_view_page hfetch.page
      have ht : file.table = table := h.sound.catalog.own hfile
      rw [show (file.pageId n).table = table from ht, hfile] at hf'
      cases hf'
      obtain ⟨place, q, hq⟩ := Page.insert_total (hr.trans (congrArg Schema.types hschema).symm) hfree
      unfold putInto
      rw [hq]
      rfl

/-- There are not more changed copies than pages of the table where the changes lie. -/
theorem Coherent.changed_le (h : e.Coherent) (hd : ∀ tx id, (e.cache.draft tx id).isSome → id.table = table) :
    e.cache.changed ≤ e.pages table := by
  have hlength : e.cache.changed = (e.cache.dirtyPages.map Prod.fst).length := by
    unfold Cache.changed Cache.dirtyPages
    rw [List.length_map, List.length_filterMap_eq_countP]
    congr 1
    funext f
    rw [Option.isSome_map]
    unfold Frame.isClean
    cases f.page.dirty <;> rfl
  have hsub : e.cache.dirtyPages.map Prod.fst ⊆ (List.range (e.pages table)).map (PageId.mk table) := by
    intro id hm
    obtain ⟨⟨id', tx⟩, hdirty, rfl⟩ := List.mem_map.1 hm
    have hdraft := (Cache.mem_dirtyPages h.nodup).1 hdirty
    obtain rfl := hd tx id' hdraft
    refine List.mem_map.2 ⟨id'.number, List.mem_range.2 ?_, rfl⟩
    by_contra hle
    rw [h.draft_of_pages_le (by omega)] at hdraft
    cases hdraft
  have hle := ((Cache.nodup_dirtyPages h.nodup).subperm hsub).length_le
  simp only [List.length_map, List.length_range] at hlength hle
  exact hlength.trans_le hle

/-! ## One transaction -/

/-- The transaction has packed the table with the rows from its first page on, and changed nothing else. -/
structure Working (tx : TxId) (table : TableId) (file : TableFile) (rows : List (List Field)) (e : Engine) : Prop
    extends Alone e tx, PackedFor tx table file rows e where
  only : ∀ id, (e.cache.draft tx id).isSome → id.table = table
  all : ∀ k < e.pages table, (e.cache.draft tx ⟨table, k⟩).isSome

namespace Working

/-- As long as the cache has room for the pages of the table, one more record is not refused. -/
theorem insert_isOk (h : Working tx table file rows e) (hr : r.schema.types = file.schema.types)
    (hi : (e.view tx).Inserts table r (file.placeAt rows.length) q)
    (hroom : file.schema.pagesFor file.pageSize (rows.length + 1) ≤ e.cache.capacity) :
    (e.insert tx table r).1.isOk = true ∨ e.cache.changed < e.cache.capacity := by
  have hs := h.sound.catalog.slots h.ofTable
  have ht : file.table = table := h.sound.catalog.own h.ofTable
  have hpages := h.pages
  rw [pagesFor_succ hs] at hroom
  rw [pagesFor_eq hs] at hpages
  split at hpages
  · -- all pages are full, and there is room for one more
    have hchanged : e.cache.changed ≤ e.pages table := h.sound.changed_le fun tx' id hd => by
      by_cases htx : tx' = tx
      · exact h.only id (htx ▸ hd)
      · rw [h.toAlone.draft_of_ne htx] at hd
        cases hd
    exact .inr (by omega)
  · -- the record goes to a page that has its copy
    refine .inl ?_
    have hok := h.toAlone.putOnFirst_drafts (r := r) hr (List.range (e.pages table)) h.ofTable fun k hk => by
      have hall := h.all k (List.mem_range.1 hk)
      rw [← ht] at hall
      exact hall
    have hplace := putOnFirst_range h.sound h.ofTable tx r
    unfold insert insertInto
    simp only [h.ofTable]
    rw [if_neg (not_not.2 hr), h.sound.present.count h.ofTable]
    simp only
    cases hrun : putOnFirst file tx r (List.range (e.pages table)) e with
    | mk o e1 =>
      rw [hrun] at hok hplace
      cases hplace with
      | placed _ => rfl
      | failed _ => cases hok
      | passed hq hp _ =>
        rw [← hq.view_eq tx] at hi
        have hle := hp.le_of_inserts hi
        have hnumber : (file.placeAt rows.length).page.number = rows.length / file.schema.slotCount file.pageSize := rfl
        omega

/-- **A cache with room for the pages of the table is enough for one more record.** -/
theorem insert (h : Working tx table file rows e) (hr : r.schema.types = file.schema.types)
    (hroom : file.schema.pagesFor file.pageSize (rows.length + 1) ≤ e.cache.capacity)
    (hn : file.schema.pagesFor file.pageSize (rows.length + 1) < Paged.numberBound) :
    ∃ e', e.insert tx table r = (.ok (file.placeAt rows.length), e') ∧
      Working tx table file (rows ++ [r.fields]) e' ∧ e'.cache.capacity = e.cache.capacity := by
  have hs := h.sound.catalog.slots h.ofTable
  have ht : file.table = table := h.sound.catalog.own h.ofTable
  obtain ⟨q, hi, hid, -⟩ := h.toPackedFor.inserts h.sound.toCoherent hr
  have hnumber : (file.placeAt rows.length).page.number = rows.length / file.schema.slotCount file.pageSize := rfl
  rw [pagesFor_succ hs] at hn
  have hok := h.insert_isOk hr hi hroom
  obtain ⟨e', hrun, hins, hsmall, hgrows⟩ := h.toAlone.inserts hi hn hok
  have hbefore : e.pages table ≤ rows.length / file.schema.slotCount file.pageSize + 1 := by
    rw [h.pages, pagesFor_eq hs]
    split <;> omega
  have hafter : e'.pages table ≤ rows.length / file.schema.slotCount file.pageSize + 1 := by
    rcases hgrows table with hle | ⟨-, hle⟩ <;> omega
  have hmark : (q.mark (some tx)).id = ⟨table, rows.length / file.schema.slotCount file.pageSize⟩ := by
    rw [← ht]
    exact hid
  refine ⟨e', hrun, ⟨h.toAlone.spares hins.toSpares hsmall, h.toPackedFor.inserted h.sound.toCoherent hr hins hafter,
    fun id hd => ?_, fun k hk => ?_⟩, hins.capacity⟩
  · rw [hins.draft, hmark] at hd
    split at hd
    · next he => rw [he]
    · exact h.only id hd
  · rw [hins.draft, hmark]
    split
    · rfl
    · next hne =>
      refine h.all k ?_
      rw [PageId.mk.injEq, not_and] at hne
      have hne := hne rfl
      rw [h.pages, pagesFor_eq hs]
      split <;> omega

/-- **A transaction packs all records**, and none of them is refused. -/
theorem insertAll (records : List Record) : ∀ {e : Engine} {rows : List (List Field)}, Working tx table file rows e →
    (∀ r ∈ records, r.schema.types = file.schema.types) →
    file.schema.pagesFor file.pageSize (rows.length + records.length) ≤ e.cache.capacity →
    file.schema.pagesFor file.pageSize (rows.length + records.length) < Paged.numberBound →
    Working tx table file (rows ++ records.map Record.fields) (e.run (records.map (.insert tx table))) ∧
      ∀ x ∈ e.log (records.map (.insert tx table)), x.2.fails = false := by
  induction records with
  | nil =>
    intro e rows h _ _ _
    rw [List.map_nil, List.append_nil]
    exact ⟨h, fun x hx => absurd hx List.not_mem_nil⟩
  | cons r records ih =>
    intro e rows h hr hroom hn
    have hmono : file.schema.pagesFor file.pageSize (rows.length + 1) ≤
        file.schema.pagesFor file.pageSize (rows.length + (r :: records).length) :=
      file.schema.pagesFor_mono _ (by rw [List.length_cons]; omega)
    obtain ⟨e', hrun, h', hcapacity⟩ := h.insert (hr r List.mem_cons_self) (hmono.trans hroom) (lt_of_le_of_lt hmono hn)
    have hlength : (rows ++ [r.fields]).length + records.length = rows.length + (r :: records).length := by
      rw [List.length_append, List.length_singleton, List.length_cons]
      omega
    obtain ⟨hw, hlog⟩ := ih h' (fun r' hm => hr r' (List.mem_cons_of_mem _ hm)) (by rw [hlength, hcapacity]; exact hroom)
      (by rw [hlength]; exact hn)
    have hcall : e.call (.insert tx table r) = (.inserted (.ok (file.placeAt rows.length)), e') := by
      show (Answer.inserted (e.insert tx table r).1, (e.insert tx table r).2) = _
      rw [hrun]
    rw [List.map_cons, List.map_cons]
    unfold run log
    rw [hcall]
    refine ⟨?_, fun x hx => ?_⟩
    · rw [List.append_assoc] at hw
      exact hw
    · rcases List.mem_cons.1 hx with rfl | hx
      · rfl
      · exact hlog x hx

end Working

end Engine

end HeapStore
