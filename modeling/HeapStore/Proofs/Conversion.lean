import HeapStore.Proofs.Importing
import HeapStore.Proofs.PackedTables

/-!
# Imported and inserted records

Records that are inserted into a table without any fill its pages one after another, in one transaction or in many. So
the file of the table becomes the one that an import of the same records makes.

* `Engine.Idle`: no transaction is at work. `Alone.commit` says what everybody sees after a transaction has packed a table.
* `Engine.Idle.insertAll`, `Engine.Idle.insertEach`: all records in one transaction, and each in its own.
* `Engine.converts_alike`: **what is imported becomes the file that inserting its records makes.**
-/

namespace HeapStore

namespace Engine

variable {e e' : Engine} {tx tx' : TxId} {table : TableId} {file : TableFile} {rows : List (List Field)} {r : Record}

/-! ## Between transactions -/

/-- No transaction is at work. -/
def Idle (e : Engine) : Prop := ∀ tx, e.Alone tx

namespace Idle

theorem draft (h : e.Idle) (tx : TxId) (id : PageId) : e.cache.draft tx id = none :=
  (h ⟨tx.number + 1⟩).draft_of_ne (fun he => Nat.succ_ne_self _ (congrArg TxId.number he).symm) id

/-- An engine that was opened over its files is idle. -/
theorem of_ready (h : e.Ready) (hs : e.Small) : e.Idle := fun _ =>
  ⟨h.sound, hs, h.guarded, fun tx' _ id => h.mode? tx' id⟩

/-- It has no changed copies. -/
theorem changed (h : e.Idle) : e.cache.changed = 0 := Cache.changed_eq_zero (h ⟨0⟩).sound.nodup h.draft

/-- A new transaction is seen by nobody. -/
theorem begin (h : e.Idle) (n : Nat) : Idle { e with lastTx := n } := fun tx =>
  (h tx).spares (quiet_begin (h tx).sound tx n).toSpares (h tx).small

/-- What everybody sees between transactions. -/
theorem view_eq (h : e.Idle) (tx : TxId) : e.view tx = ⟨e.catalog, e.pageBytes, fun _ => none⟩ := by
  unfold view
  rw [funext (h.draft tx)]

end Idle

/-- **After the commit everybody sees the packed table.** -/
theorem Alone.commit (h : e.Alone tx) (hp : PackedFor tx table file rows e) :
    ∃ e', e.commit tx = (.ok (), e') ∧ e'.Idle ∧ (∀ tx', PackedFor tx' table file rows e') ∧
      e'.cache.capacity = e.cache.capacity := by
  obtain ⟨e', hrun, hk⟩ := complete_keep h.sound tx
  have hidle : e'.Idle := fun tx' =>
    ⟨hk.sound, hk.small h.small, hk.guarded.trans h.guarded, fun other _ id => by
      by_cases ho : other = tx
      · rw [ho]
        exact hk.unlocked id
      · rw [hk.others other ho]
        exact h.others other ho id⟩
  have hf : e'.file table = .ok file := (hk.file_eq table).trans hp.ofTable
  refine ⟨e', ?_, hidle, fun tx' => ⟨hf, (hk.pages_eq table).trans hp.pages, ?_, fun k => ?_⟩, hk.capacity⟩
  · unfold Engine.commit raised
    rw [hrun]
    rfl
  · rw [(hk.rewritten hp.ofTable).1]
    exact hp.whole
  · -- each page is read back from the bytes that were stored of it
    obtain ⟨p, hpage, hpacks, hbytes⟩ := hp.page k
    obtain ⟨hid, file', hf', hschema, hsize⟩ := h.sound.of_view_page hpage
    obtain rfl : file' = file := Except.ok.inj (hf'.symm.trans hp.ofTable)
    have hstored : e'.pageBytes ⟨table, k⟩ = p.encode := (congrFun hk.bytes _).trans hbytes
    have hdecode := p.decode_encode (by rw [hschema, hsize]; exact h.sound.catalog.slots hp.ofTable)
    rw [hid, hschema, hsize, ← hstored] at hdecode
    refine ⟨(p.mark none).settle, ?_, hpacks.settle none, ?_⟩
    · rw [View.page_of_none (hidle.draft tx' _), view_stored_nth hf, hdecode]
      rfl
    · rw [hidle.view_eq]
      exact hstored

/-- The calls of one transaction that inserts all records. -/
def insertsAll (tx : TxId) (table : TableId) (records : List Record) : List Call :=
  .begin :: (records.map (.insert tx table) ++ [.commit tx])

/-- The calls of transactions that insert one record each. -/
def insertsEach (table : TableId) (works : List (TxId × Record)) : List Call :=
  works.flatMap fun (tx, r) => [.begin, .insert tx table r, .commit tx]

/-- No call fails, and the file at a location holds the bytes in the end. -/
def Yields (e : Engine) (calls : List Call) (here : Location) (bytes : Bytes) : Prop :=
  (∀ x ∈ e.log calls, x.2.fails = false) ∧ (e.run calls).disk.held here = .ok bytes

/-- Between transactions the file of a packed table is packed. -/
theorem Idle.packed (h : e.Idle) (hp : PackedFor tx table file rows e) :
    ∃ bytes, e.disk.held file.location = .ok bytes ∧ Packed file.schema file.pageSize rows bytes := by
  have hsound := (h tx).sound
  have hcount : (e.fileBytes table).length / file.pageSize = file.schema.pagesFor file.pageSize rows.length := by
    rw [← hp.pages, pages_eq hp.ofTable, Paged.count_eq ((h tx).small table file hp.ofTable)]
  refine ⟨e.fileBytes table, hsound.present.held hp.ofTable, ?_, fun k hk => ?_⟩
  · rw [← hcount, Nat.div_mul_cancel hp.whole]
  · obtain ⟨p, hpage, hpacks, hbytes⟩ := hp.page k
    obtain ⟨-, file', hf', hschema, hsize⟩ := hsound.of_view_page hpage
    obtain rfl : file' = file := Except.ok.inj (hf'.symm.trans hp.ofTable)
    refine ⟨p, congrArg Schema.types hschema, hsize, hpacks, ?_⟩
    rw [h.view_eq] at hbytes
    have hpb : e.pageBytes ⟨table, k⟩ = p.encode := hbytes
    rw [pageBytes_nth hp.ofTable, Paged.page_of_lt] at hpb
    · exact hpb
    · rw [← pages_eq hp.ofTable, hp.pages]
      exact hk

/-- What an engine without rows in its table begins with. -/
theorem Idle.packedFor_nil (h : e.Idle) (hf : e.file table = .ok file) (hb : e.fileBytes table = []) (tx : TxId) :
    PackedFor tx table file [] e := by
  have hs := (h tx).sound.catalog.slots hf
  have hpages : e.pages table = 0 := by
    rw [pages_eq hf, hb]
    unfold Paged.count Paged.countOf
    simp
  refine ⟨hf, ?_, by rw [hb]; exact Dvd.intro_left 0 (by simp), fun k => ?_⟩
  · rw [hpages, List.length_nil, pagesFor_eq hs]
    simp
  · have hbytes : e.pageBytes ⟨table, k⟩ = Bytes.zeros file.pageSize :=
      pageBytes_of_pages_le hf (by rw [hpages]; exact Nat.zero_le _)
    obtain ⟨p, hp, -⟩ : ∃ p, Page.blank ⟨table, k⟩ file.schema file.pageSize = .ok p ∧ ∀ slot, p.row? slot = none :=
      Page.decode_zeros hs
    obtain ⟨hpacks, hencode⟩ := Page.packs_of_blank hp
    refine ⟨p, ?_, ?_, ?_⟩
    · rw [View.page_of_none (h.draft tx _), view_stored_nth hf, hbytes]
      unfold Page.blank at hp
      rw [hp]
      rfl
    · unfold Schema.rowsOn
      rw [List.drop_nil, List.take_nil]
      exact hpacks
    · rw [h.view_eq, hencode]
      exact hbytes

/-- **All records in one transaction**: a cache with room for the pages of the table is enough. -/
theorem Idle.insertAll {records : List Record} (h : e.Idle) (hf : e.file table = .ok file)
    (hb : e.fileBytes table = []) (hr : ∀ r ∈ records, r.schema.types = file.schema.types)
    (hroom : file.schema.pagesFor file.pageSize records.length ≤ e.cache.capacity)
    (hn : file.schema.pagesFor file.pageSize records.length < Paged.numberBound) (tx : TxId) :
    ∃ bytes, Yields e (insertsAll tx table records) file.location bytes ∧
      Packed file.schema file.pageSize (records.map Record.fields) bytes := by
  have hbegun : e.begin.2.Idle := h.begin (e.lastTx + 1)
  have hp : PackedFor tx table file [] e.begin.2 := hbegun.packedFor_nil hf hb tx
  have hpages : e.begin.2.pages table = 0 := by
    rw [hp.pages, List.length_nil, pagesFor_eq ((h tx).sound.catalog.slots hf)]
    simp
  have hw : Working tx table file [] e.begin.2 :=
    { toAlone := hbegun tx
      toPackedFor := hp
      only := fun id hd => by
        rw [hbegun.draft] at hd
        cases hd
      all := fun k hk => by
        rw [hpages] at hk
        exact absurd hk (Nat.not_lt_zero k) }
  obtain ⟨hw', hlog⟩ := hw.insertAll records hr (by rw [List.length_nil, Nat.zero_add]; exact hroom)
    (by rw [List.length_nil, Nat.zero_add]; exact hn)
  obtain ⟨e', hcommit, hidle, hpacked, -⟩ := hw'.toAlone.commit hw'.toPackedFor
  obtain ⟨bytes, hheld, hbytes⟩ := hidle.packed (hpacked tx)
  have hcall : (e.begin.2.run (records.map (.insert tx table))).call (.commit tx) = (.ended (.ok ()), e') := by
    show (Answer.ended (Engine.commit _ tx).1, (Engine.commit _ tx).2) = _
    rw [hcommit]
  refine ⟨bytes, ⟨fun x hx => ?_, ?_⟩, hbytes⟩
  · have hcalls : e.log (insertsAll tx table records) = (.begin, .began e.begin.1) ::
        (e.begin.2.log (records.map (.insert tx table)) ++ [(.commit tx, .ended (.ok ()))]) := by
      show _ :: e.begin.2.log _ = _
      rw [log_append]
      unfold log
      rw [hcall]
      rfl
    rw [hcalls, List.mem_cons, List.mem_append, List.mem_singleton] at hx
    rcases hx with rfl | hx | rfl
    · rfl
    · exact hlog x hx
    · rfl
  · have hrun : e.run (insertsAll tx table records) = e' := by
      show e.begin.2.run _ = e'
      rw [run_append]
      unfold run
      rw [hcall]
      rfl
    rw [hrun]
    exact hheld

/-- One record in a transaction of its own needs room for one page. -/
theorem Idle.insertOne (h : e.Idle) (hp : ∀ tx, PackedFor tx table file rows e) (hr : r.schema.types = file.schema.types)
    (hroom : 0 < e.cache.capacity) (hn : file.schema.pagesFor file.pageSize (rows.length + 1) < Paged.numberBound)
    (tx : TxId) : ∃ e', e.run [.begin, .insert tx table r, .commit tx] = e' ∧ e'.Idle ∧
      (∀ tx', PackedFor tx' table file (rows ++ [r.fields]) e') ∧ e'.cache.capacity = e.cache.capacity ∧
      ∀ x ∈ e.log [.begin, .insert tx table r, .commit tx], x.2.fails = false := by
  have hbegun : e.begin.2.Idle := h.begin (e.lastTx + 1)
  have hpacked : PackedFor tx table file rows e.begin.2 :=
    ⟨(hp tx).ofTable, (hp tx).pages, (hp tx).whole, (hp tx).page⟩
  have halone : e.begin.2.Alone tx := hbegun tx
  have hs := halone.sound.catalog.slots hpacked.ofTable
  obtain ⟨q, hi, -⟩ := hpacked.inserts halone.sound.toCoherent hr
  have hnumber : (file.placeAt rows.length).page.number = rows.length / file.schema.slotCount file.pageSize := rfl
  rw [pagesFor_succ hs] at hn
  obtain ⟨e1, hinsert, hins, hsmall, hgrows⟩ := halone.inserts hi hn (.inr (by rw [hbegun.changed]; exact hroom))
  have hbefore : e.begin.2.pages table ≤ rows.length / file.schema.slotCount file.pageSize + 1 := by
    rw [hpacked.pages, pagesFor_eq hs]
    split <;> omega
  have hafter : e1.pages table ≤ rows.length / file.schema.slotCount file.pageSize + 1 := by
    rcases hgrows table with hle | ⟨-, hle⟩ <;> omega
  obtain ⟨e2, hcommit, hidle, hpacked', hcapacity⟩ := (halone.spares hins.toSpares hsmall).commit
    (hpacked.inserted halone.sound.toCoherent hr hins hafter)
  have hcall : e.begin.2.call (.insert tx table r) = (.inserted (.ok (file.placeAt rows.length)), e1) := by
    show (Answer.inserted (Engine.insert _ tx table r).1, (Engine.insert _ tx table r).2) = _
    rw [hinsert]
  have hcall' : e1.call (.commit tx) = (.ended (.ok ()), e2) := by
    show (Answer.ended (Engine.commit _ tx).1, (Engine.commit _ tx).2) = _
    rw [hcommit]
  refine ⟨e2, ?_, hidle, hpacked', hcapacity.trans hins.capacity, fun x hx => ?_⟩
  · show ((e.begin.2.call (.insert tx table r)).2.call (.commit tx)).2 = e2
    rw [hcall, hcall']
  · have hlog : e.log [.begin, .insert tx table r, .commit tx] = [(.begin, .began e.begin.1),
        (.insert tx table r, .inserted (.ok (file.placeAt rows.length))), (.commit tx, .ended (.ok ()))] := by
      show [_, (_, (e.begin.2.call (.insert tx table r)).1),
        (_, ((e.begin.2.call (.insert tx table r)).2.call (.commit tx)).1)] = _
      rw [hcall, hcall']
      rfl
    rw [hlog] at hx
    simp only [List.mem_cons, List.not_mem_nil, or_false] at hx
    rcases hx with rfl | rfl | rfl <;> rfl

/-- Each record in a transaction of its own, one after another. -/
theorem Idle.insertsEach_packed (works : List (TxId × Record)) : ∀ {e : Engine} {rows : List (List Field)}, e.Idle →
    (∀ tx, PackedFor tx table file rows e) → (∀ w ∈ works, w.2.schema.types = file.schema.types) →
    0 < e.cache.capacity → file.schema.pagesFor file.pageSize (rows.length + works.length) < Paged.numberBound →
    (e.run (insertsEach table works)).Idle ∧
      (∀ tx, PackedFor tx table file (rows ++ works.map fun w => w.2.fields) (e.run (insertsEach table works))) ∧
      ∀ x ∈ e.log (insertsEach table works), x.2.fails = false := by
  induction works with
  | nil =>
    intro e rows h hp _ _ _
    rw [List.map_nil, List.append_nil]
    exact ⟨h, hp, fun x hx => absurd hx List.not_mem_nil⟩
  | cons w works ih =>
    intro e rows h hp hr hroom hn
    have hmono : file.schema.pagesFor file.pageSize (rows.length + 1) ≤
        file.schema.pagesFor file.pageSize (rows.length + (w :: works).length) :=
      file.schema.pagesFor_mono _ (by rw [List.length_cons]; omega)
    obtain ⟨e', hrun, hidle, hp', hcapacity, hlog⟩ := h.insertOne hp (hr w List.mem_cons_self) hroom
      (lt_of_le_of_lt hmono hn) w.1
    have hlength : (rows ++ [w.2.fields]).length + works.length = rows.length + (w :: works).length := by
      rw [List.length_append, List.length_singleton, List.length_cons]
      omega
    obtain ⟨hidle', hpacked, hlog'⟩ := ih hidle hp' (fun w' hm => hr w' (List.mem_cons_of_mem _ hm))
      (by rw [hcapacity]; exact hroom) (by rw [hlength]; exact hn)
    have hcalls : insertsEach table (w :: works) =
        [.begin, .insert w.1 table w.2, .commit w.1] ++ insertsEach table works := rfl
    rw [hcalls, run_append, log_append, hrun]
    refine ⟨hidle', fun tx => ?_, fun x hx => ?_⟩
    · have hrows := hpacked tx
      rw [List.append_assoc] at hrows
      exact hrows
    · rcases List.mem_append.1 hx with hx | hx
      · exact hlog x hx
      · exact hlog' x hx

/-- **Each record in a transaction of its own**: a cache with room for one page is enough. -/
theorem Idle.insertEach {works : List (TxId × Record)} (h : e.Idle) (hf : e.file table = .ok file)
    (hb : e.fileBytes table = []) (hr : ∀ w ∈ works, w.2.schema.types = file.schema.types)
    (hroom : 0 < e.cache.capacity) (hn : file.schema.pagesFor file.pageSize works.length < Paged.numberBound) :
    ∃ bytes, Yields e (insertsEach table works) file.location bytes ∧
      Packed file.schema file.pageSize (works.map fun w => w.2.fields) bytes := by
  obtain ⟨hidle, hpacked, hlog⟩ := h.insertsEach_packed works (h.packedFor_nil hf hb) hr hroom
    (by rw [List.length_nil, Nat.zero_add]; exact hn)
  obtain ⟨bytes, hheld, hbytes⟩ := hidle.packed (hpacked ⟨0⟩)
  exact ⟨bytes, ⟨hlog, hheld⟩, hbytes⟩

/-! ## Imported and inserted -/

/-- An engine is idle when its only table was made on an empty file. -/
theorem idle_created {settings : Settings} {disk : Disk} {e₀ : Engine} {path : Path} {name : String} {layout : Schema}
    {key : Option String} (hstart : start settings disk = .ok e₀)
    (hcreate : e₀.createTable path name layout key = (.ok table, e)) (hf : e.file table = .ok file)
    (hvacant : disk.Vacant file.location) : e.Idle ∧ e.fileBytes table = [] ∧ file.schema = layout ∧
      file.pageSize = settings.pageSize ∧ e.cache.capacity = settings.bufferPages ∧ 0 < e.cache.capacity := by
  have hfirst : e₀.Ready := ready_start hstart
  have hstarted := start_eq hstart
  have hcatalog : e₀.catalog = {} := by rw [hstarted]
  have hdisk : e₀.disk = disk := by rw [hstarted]
  have hsettings : e₀.settings = settings := by rw [hstarted]
  have hcapacity : e₀.cache.capacity = settings.bufferPages := by rw [hstarted]
  have hnone : ∀ t f, e₀.file t ≠ .ok f := fun t f he => by
    rw [file_eq, hcatalog] at he
    exact Catalog.tableFile_empty t f he
  have hready : e.Ready := hfirst.createTable hcreate (by rw [hcatalog]; rfl) fun t f _ he => absurd he (hnone t f)
  obtain ⟨made, disk', -, hschema, hsize, hmade, hid, he⟩ := createTable_spec hcreate
  have hfile : ∀ t, e.file t = if t = table then .ok { made with table := t } else e₀.file t := by
    intro t
    rw [he, file_eq, ← hid]
    exact Catalog.tableFile_add (c := e₀.catalog) (by rw [hcatalog]; rfl) t
  have hmine : file = { made with table } := by
    rw [hfile, if_pos rfl] at hf
    exact (Except.ok.inj hf).symm
  have hbytes : e.fileBytes table = [] := by
    have hheld : e.disk.held file.location = .ok [] := by
      subst hmine
      rw [he]
      rw [hdisk] at hmade
      exact Disk.held_of_vacant hmade hvacant
    exact fileBytes_eq hf hheld
  have hsmall : e.Small := by
    intro t f ht
    rw [hfile] at ht
    split at ht
    · next hone =>
      subst hone
      rw [hbytes, List.length_nil, Nat.zero_div]
      exact Nat.two_pow_pos 32
    · exact absurd ht (hnone t f)
  have hcache : e.cache = e₀.cache := by rw [he]
  subst hmine
  refine ⟨.of_ready hready hsmall, hbytes, hschema, hsize.trans (congrArg Settings.pageSize hsettings), ?_, hready.room⟩
  rw [hcache]
  exact hcapacity

/-- **What is imported becomes the file that inserting its records makes**, byte for byte, whatever reader delivers its
rows: in one transaction, if the cache has room for all pages of the table, and in a transaction for each record,
whatever room there is. -/
theorem converts_alike {settings : Settings} {source disk made : Disk} {input output : String} {types : List FieldType}
    {schema layout : Schema} {reader : Option Bytes → List Delivery} {content : Option Bytes} {records : List Record}
    {here : Location} {e₀ : Engine} {path : Path} {name : String} {key : Option String}
    (hs : Schema.ofTypes types = .ok schema) (hslots : schema.slotCount settings.pageSize ≠ 0)
    (hsource : source.source (Path.ofText input) = .ok content)
    (hrows : Delivers types (reader content) (records.map Record.fields))
    (hrecords : ∀ r ∈ records, r.schema.types = types)
    (houtput : source.create (Path.ofText output) = (.ok here, made)) (hfree : source.Vacant here)
    (hstart : start settings disk = .ok e₀) (hcreate : e₀.createTable path name layout key = (.ok table, e))
    (hlayout : layout.types = types) (hf : e.file table = .ok file) (hvacant : disk.Vacant file.location)
    (hsmall : schema.pagesFor settings.pageSize records.length < Paged.numberBound) :
    ∃ bytes, (∃ after, source.importWith reader input output settings.pageSize types =
        (.ok records.length, after) ∧ after.held here = .ok bytes) ∧
      (schema.pagesFor settings.pageSize records.length ≤ settings.bufferPages →
        ∀ tx, e.Yields (insertsAll tx table records) file.location bytes) ∧
      ∀ works : List (TxId × Record), works.map Prod.snd = records →
        e.Yields (insertsEach table works) file.location bytes := by
  obtain ⟨hidle, hempty, hschema, hsize, hcapacity, hroom⟩ := idle_created hstart hcreate hf hvacant
  have htypes : schema.types = file.schema.types := by rw [Schema.types_ofTypes hs, hschema, hlayout]
  have htyped : ∀ r ∈ records, r.schema.types = file.schema.types := fun r hm =>
    (hrecords r hm).trans ((Schema.types_ofTypes hs).symm.trans htypes)
  have hpages : ∀ n, file.schema.pagesFor file.pageSize n = schema.pagesFor settings.pageSize n := by
    intro n
    rw [hsize]
    unfold Schema.pagesFor Schema.slotCount Schema.width
    rw [htypes]
  obtain ⟨after, bytes, himport, hheld, hpacked⟩ := Disk.importWith_packed hs hslots hsource houtput hfree hrows
    (by rw [List.length_map]; exact hsmall.le)
  rw [← hsize] at hpacked
  rw [List.length_map] at himport
  refine ⟨bytes, ⟨after, himport, hheld⟩, fun hfit tx => ?_, fun works hworks => ?_⟩
  · obtain ⟨bytes', hyields, hpacked'⟩ := hidle.insertAll hf hempty htyped (by rw [hpages, hcapacity]; exact hfit)
      (by rw [hpages]; exact hsmall) tx
    obtain rfl := hpacked.unique hpacked' htypes
    exact hyields
  · subst hworks
    rw [List.length_map] at hsmall
    obtain ⟨bytes', hyields, hpacked'⟩ := hidle.insertEach hf hempty
      (fun w hm => htyped w.2 (List.mem_map_of_mem hm)) hroom (by rw [hpages]; exact hsmall)
    rw [List.map_map] at hpacked
    obtain rfl := hpacked.unique hpacked' htypes
    exact hyields

end Engine

namespace Sample

open Engine

/-- The schema of the imported text, whose column has no name. -/
def plain : Schema := ⟨[⟨.int, none⟩], by decide⟩

/-- Three numbers and a row of one empty field. -/
def numbers : Bytes := Bytes.ofText "5\n\"\"\n6\n 7\n"

def texts : Disk := ({} : Disk).set ["rows"] numbers

theorem create_pages : ∃ made, texts.create (Path.ofText "pages") = (.ok ["pages"], made) := by
  have hmade : (texts.create (Path.ofText "pages")).1.toOption = some ["pages"] := by decide +kernel
  cases hc : texts.create (Path.ofText "pages") with
  | mk o made =>
    rw [hc] at hmade
    cases o with
    | ok here =>
      cases hmade
      exact ⟨made, rfl⟩
    | error fault => cases hmade

/-- The reader of delimited text delivers three rows of one number each, and leaves one out that has none. -/
theorem delivers_numbers : Delivers [.int] (deliveries 0x2C (some numbers)) [[.int 5], [.int 6], [.int 7]] := by
  have hrow : ∀ (row : Delimited.Row) (n : Int32) (text : List Char), row.texts = .ok [text] → text ≠ [] →
      FieldType.int.read? text = .ok ⟨.int n, trivial⟩ → Delivery.Gives [.int] (.ok row) [.int n] :=
    fun row n text htexts hne hread => ⟨row, [text], rfl, htexts, by simpa using hne, .cons hread .nil⟩
  exact .row (hrow ⟨_, _⟩ 5 ['5'] rfl (by decide) rfl) (.blank ⟨⟨_, _⟩, rfl, rfl⟩
    (.row (hrow ⟨_, _⟩ 6 ['6'] rfl (by decide) rfl) (.row (hrow ⟨_, _⟩ 7 ['7'] rfl (by decide) rfl) .nil)))

def works : List (TxId × Record) := [(⟨1⟩, record 5), (⟨2⟩, record 6), (⟨3⟩, record 7)]

/-- Two of the numbers fill a page, and the third lies on another. -/
theorem converts_alike_three : ∃ bytes,
    (∃ after, texts.importWith (deliveries 0x2C) "rows" "pages" 9 [.int] = (.ok 3, after) ∧
      after.held ["pages"] = .ok bytes) ∧
      engine.Yields (insertsAll ⟨1⟩ table [record 5, record 6, record 7]) ["numbers"] bytes ∧
      engine.Yields (insertsEach table works) ["numbers"] bytes := by
  obtain ⟨made, houtput⟩ := create_pages
  obtain ⟨file, hf, -⟩ := file_opened createTable_engine
  have hplace : ((engine.file table).toOption.map TableFile.location) = some ["numbers"] := by decide +kernel
  have hlocation : file.location = ["numbers"] := by
    rw [show engine.file table = .ok file from hf] at hplace
    exact Option.some.inj hplace
  have hschema : Schema.ofTypes [.int] = .ok plain := rfl
  have hsource : texts.source (Path.ofText "rows") = .ok (some numbers) := rfl
  have htypes : ∀ r ∈ [record 5, record 6, record 7], r.schema.types = [.int] := by decide
  obtain ⟨bytes, himport, hall, heach⟩ := converts_alike hschema (by decide) hsource delivers_numbers htypes houtput
    (.inl rfl) (start_empty {}) (createTable_opened createTable_engine) rfl hf (.inl (by rw [hlocation]; rfl)) (by decide)
  rw [hlocation] at hall heach
  exact ⟨bytes, himport, hall (by decide) ⟨1⟩, heach works rfl⟩

end Sample

end HeapStore
