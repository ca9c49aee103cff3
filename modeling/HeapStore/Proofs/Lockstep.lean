import HeapStore.Proofs.Alike

/-!
# Engines in lockstep

Where the same records are inserted, deleted and read in two engines that are alike, both use the same slots and give
the same records, and they are alike again, or one of them has no room.

* `Alike.insert`, `Alike.delete`: **both change the same slot.** An insertion may append a page, and
  `Lengthened.latest` says that the record finds its place there at once.
* `Alike.next`, `Alike.items`, `Alike.scan`: **both give the same records.**
-/

namespace HeapStore.Engine

variable {e e' f f' : Engine} {tx : TxId} {id : PageId} {mode : LockMode} {table : TableId} {file : TableFile}
  {r : Record} {a b : Frame} {α β : Type}

/-! ## Inserting and deleting -/

namespace Alike

variable (h : Alike e f)

include h

/-- The same page is changed in the same way. -/
theorem change {q : Page} {slot : Nat} {fields : Option (List Field)} (ha : e.cache.find? a.page.id = some a)
    (hb : f.cache.find? b.page.id = some b) (hp : b.page = a.page) (hq : a.page.Changes q slot fields) (tx : TxId) :
    Alike { e with cache := e.cache.update q.id (q.mark (some tx)) }
      { f with cache := f.cache.update q.id (q.mark (some tx)) } where
  left := steady_coherent.change h.left ha hq tx
  right := steady_coherent.change h.right hb (hp ▸ hq) tx
  catalog := h.catalog
  bytes := h.bytes
  locks := h.locks
  lastTx := h.lastTx
  draft := by
    funext tx' id'
    have he : e.cache.find? q.id = some a := by
      rw [hq.id]
      exact ha
    have hf : f.cache.find? q.id = some b := by
      rw [hq.id, ← hp]
      exact hb
    have hm : (q.mark (some tx)).id = q.id := rfl
    show (f.cache.update q.id (q.mark (some tx))).draft tx' id' = (e.cache.update q.id (q.mark (some tx))).draft tx' id'
    rw [Cache.draft_update hm he, Cache.draft_update hm hf, h.draft]

theorem putInto (ha : e.cache.find? a.page.id = some a) (hb : f.cache.find? b.page.id = some b)
    (hp : b.page = a.page) (tx : TxId) (r : Record) :
    Paired isCrowded (e.putInto a tx r) (f.putInto b tx r) := by
  unfold Engine.putInto
  rw [hp]
  cases hi : a.page.insert r with
  | error cause => exact .same h
  | ok placed =>
    obtain ⟨-, -, -, hq⟩ := Page.insert_ok hi
    exact .same (h.change ha hb hp hq tx)

theorem takeFrom (ha : e.cache.find? a.page.id = some a) (hb : f.cache.find? b.page.id = some b)
    (hp : b.page = a.page) (tx : TxId) (r : Record) :
    Paired isCrowded (e.takeFrom a tx r) (f.takeFrom b tx r) := by
  unfold Engine.takeFrom
  rw [hp]
  cases hd : a.page.delete r with
  | error cause => exact .same h
  | ok q =>
    obtain ⟨slot, -, -, hq⟩ := Page.delete_ok hd
    exact .same (h.change ha hb hp hq tx)

end Alike

/-- Trying the first of some pages. -/
theorem putOnFirst_cons (file : TableFile) (tx : TxId) (r : Record) (number : Nat) (numbers : List Nat) (e : Engine) :
    putOnFirst file tx r (number :: numbers) e = andThen (e.fetch tx (file.pageId number) .exclusive) fun a e =>
      if a.page.freeSlots = 0 then putOnFirst file tx r numbers e
      else ((e.putInto a tx r).1.map some, (e.putInto a tx r).2) := by
  rw [putOnFirst]
  unfold andThen
  rcases e.fetch tx (file.pageId number) .exclusive with ⟨_ | _, _⟩ <;> rfl

theorem Alike.putOnFirst (file : TableFile) (tx : TxId) (r : Record) (numbers : List Nat) :
    ∀ {e f : Engine}, Alike e f →
      Paired isCrowded (Engine.putOnFirst file tx r numbers e) (Engine.putOnFirst file tx r numbers f) := by
  induction numbers with
  | nil => exact fun h => .same h
  | cons number numbers ih =>
    intro e f h
    rw [putOnFirst_cons, putOnFirst_cons]
    refine (h.fetch tx (file.pageId number) .exclusive).andThen fun a b e1 f1 he hf hp h1 => ?_
    rw [hp]
    split
    · exact ih h1
    · have hput := h1.putInto (find?_fetched he) (find?_fetched hf) hp tx r
      exact hput.map (Except.map some) fun x hx => (isCrowded_map some x).trans hx

/-- A page with a free slot is not passed. -/
theorem putOnFirst_ne_none (h : e.Coherent) (tx : TxId) (r : Record) {number : Nat} {page : Page}
    (hl : e.latest (file.pageId number) = .ok page) (hfree : page.freeSlots ≠ 0) :
    (putOnFirst file tx r [number] e).1 ≠ .ok none := by
  have hplaced : ∀ x : Except AccessFault RecordId, x.map some ≠ .ok none := by
    intro x
    cases x <;> nofun
  rw [putOnFirst_cons]
  unfold andThen
  cases hf : e.fetch tx (file.pageId number) .exclusive with
  | mk o e1 =>
    cases o with
    | error fault => nofun
    | ok a =>
      have hp : a.page = page := Except.ok.inj ((h.latest_of_fetch hf).symm.trans hl)
      dsimp only
      rw [hp, if_neg hfree]
      exact hplaced _

/-- The new page of a file is stored as zeros, nobody has changed it, and so it has a free slot. -/
theorem Lengthened.latest {disk : Disk} (h : Lengthened table file e { e with disk }) (hf : e.file table = .ok file)
    (hc : e.Coherent) (hs : e.Small) (hs' : { e with disk }.Small) :
    ∃ page, Engine.latest { e with disk } ⟨table, e.pages table⟩ = .ok page ∧ page.freeSlots ≠ 0 := by
  have hpages : Engine.pages { e with disk } table = e.pages table + 1 := by rw [h.pages hf hc hs hs', if_pos rfl]
  have hzeros : pageBytes { e with disk } ⟨table, e.pages table⟩ = Bytes.zeros file.pageSize := by
    have hgrown : { e with disk }.pageBytes = e.pageBytes := pageBytes_of_grown rfl hc.catalog hs hs' (h.grown hf)
    rw [hgrown]
    exact pageBytes_of_pages_le hf le_rfl
  obtain ⟨page, hd, hrow⟩ : ∃ page, Page.decode ⟨table, e.pages table⟩ file.schema file.pageSize
      (Bytes.zeros file.pageSize) = .ok page ∧ ∀ slot, page.row? slot = none :=
    Page.decode_zeros (hc.catalog.slots hf)
  obtain ⟨-, hsch, hz, -⟩ := Page.fields_of_decode hd
  refine ⟨page, ?_, Page.freeSlots_of_empty hrow (by rw [hsch, hz]; exact hc.catalog.slots hf)⟩
  have hu : e.cache.unsaved ⟨table, e.pages table⟩ = none :=
    Cache.unsaved_eq_none_iff.2 fun tx => hc.draft_of_pages_le le_rfl
  unfold Engine.latest
  simp only [hu]
  have hnew : Engine.file { e with disk } (PageId.mk table (e.pages table)).table = .ok file := hf
  apply h.present.stored_of_decode hnew
  · show e.pages table < Engine.pages { e with disk } table
    rw [hpages]
    exact Nat.lt_succ_self _
  · rw [hzeros]
    exact hd

/-- A blank page was appended to both files. -/
theorem Alike.lengthen {disk disk' : Disk} (h : Alike e f) (hf : e.file table = .ok file) (hs : e.Small)
    (hl : Lengthened table file e { e with disk }) (hl' : Lengthened table file f { f with disk := disk' })
    (hs' : { e with disk }.Small) : Alike { e with disk } { f with disk := disk' } := by
  have hf' : f.file table = .ok file := (h.file_eq table).trans hf
  have hbytes : ∀ table', fileBytes { f with disk := disk' } table' = fileBytes { e with disk } table' := by
    intro table'
    rw [hl.bytes, hl'.bytes, h.bytes, h.bytes]
  have hsmall : Small { f with disk := disk' } := by
    intro table' file' hfile
    rw [hbytes]
    exact hs' table' file' ((h.file_eq table').symm.trans hfile)
  exact ⟨hl.coherent hf h.left hs hs', hl'.coherent hf' h.right (h.small_iff.2 hs) hsmall, h.catalog, hbytes, h.locks,
    h.lastTx, h.draft⟩

/-- The place that was found, or what comes of going on if there was none. -/
def placedOr (k : Engine → Outcome AccessFault RecordId) (place : Option RecordId) (e : Engine) :
    Outcome AccessFault RecordId :=
  match place with
  | some place => (.ok place, e)
  | none => k e

theorem putOnNew_succ {number tries : Nat} {disk : Disk} (ha : file.append e.disk = .ok (number, disk)) :
    putOnNew file tx r (tries + 1) e =
      andThen (putOnFirst file tx r [number] { e with disk }) (placedOr (putOnNew file tx r tries)) := by
  rw [putOnNew]
  simp only [ha]
  unfold andThen
  rcases putOnFirst file tx r [number] { e with disk } with ⟨_ | _ | _, _⟩ <;> rfl

theorem insertInto_eq {n : Nat} (ht : r.schema.types = file.schema.types) (hc : file.count e.disk = .ok n) :
    e.insertInto file tx r = andThen (putOnFirst file tx r (List.range n) e)
      (placedOr fun e => putOnNew file tx r (e.cache.frames.length + 1) e) := by
  unfold insertInto
  rw [if_neg (not_not.2 ht), hc]
  simp only
  unfold andThen
  rcases putOnFirst file tx r (List.range n) e with ⟨_ | _ | _, _⟩ <;> rfl

/-- **The new page takes the record in both**, however often they would try. -/
theorem Alike.putOnNew (h : Alike e f) (hf : e.file table = .ok file) (tries tries' : Nat)
    (hs : (Engine.putOnNew file tx r (tries + 1) e).2.Small) :
    Paired isCrowded (Engine.putOnNew file tx r (tries + 1) e) (Engine.putOnNew file tx r (tries' + 1) f) := by
  have ht : file.table = table := h.left.catalog.own hf
  have hs0 : e.Small :=
    ((stable_grows e).putOnNew tx r (tries + 1) (Outgrows.refl e) hf).small h.left.present hs
  obtain ⟨disk, ha, hl⟩ := append_bytes h.left hf hs0
  obtain ⟨disk', ha', hl'⟩ := append_bytes h.right ((h.file_eq table).trans hf) (h.small_iff.2 hs0)
  rw [h.pages_eq] at ha'
  have hs1 : { e with disk }.Small := (outgrows_putOnNew hf ha tries).small hl.present hs
  have h1 := h.lengthen hf hs0 hl hl' hs1
  obtain ⟨page, hpage, hfree⟩ := hl.latest hf h.left hs0 hs1
  rw [← ht] at hpage
  have hne := putOnFirst_ne_none h1.left tx r hpage hfree
  rw [ht] at hne
  rw [putOnNew_succ ha, putOnNew_succ ha']
  refine ((Alike.putOnFirst file tx r [e.pages table] h1).map (Except.map id) fun x hx =>
    (isCrowded_map id x).trans hx).andThen fun place place' e2 f2 he2 _ heq h2 => ?_
  -- the page has a free slot, so neither engine goes on
  obtain rfl : place' = place := heq
  cases place' with
  | some place => exact .same h2
  | none =>
    rw [he2] at hne
    exact absurd rfl hne

/-- **Both insert a record at the same place.** -/
theorem Alike.insert (h : Alike e f) (tx : TxId) (table : TableId) (r : Record)
    (hs : (e.insert tx table r).2.Small) : Paired isCrowded (e.insert tx table r) (f.insert tx table r) := by
  unfold Engine.insert at hs ⊢
  rw [h.file_eq]
  cases hf : e.file table with
  | error fault => exact .same h
  | ok file =>
    have hf' : f.file table = .ok file := (h.file_eq table).trans hf
    rw [hf] at hs
    simp only at hs ⊢
    by_cases htypes : r.schema.types = file.schema.types
    · rw [insertInto_eq htypes (h.left.present.count hf)] at hs ⊢
      rw [insertInto_eq htypes (h.right.present.count hf'), h.pages_eq]
      refine ((Alike.putOnFirst file tx r (List.range (e.pages table)) h).map (Except.map id) fun x hx =>
        (isCrowded_map id x).trans hx).andThen fun place place' e1 f1 he1 _ heq h1 => ?_
      obtain rfl : place' = place := heq
      rw [he1] at hs
      cases place' with
      | some place => exact .same h1
      | none =>
        have hcatalog : e1.catalog = e.catalog := by
          have hrun := (steady_catalog e.catalog).putOnFirst file tx r (List.range (e.pages table)) (e := e) rfl
          rw [he1] at hrun
          exact hrun
        exact h1.putOnNew ((file_congr hcatalog table).trans hf) _ _ hs
    · unfold insertInto
      rw [if_pos htypes, if_pos htypes]
      exact .same h

/-- Deleting from a page that the file has. -/
theorem deleteFrom_eq {place : RecordId} {n : Nat} (hr : r.location = .ok place) (ht : file.table = place.page.table)
    (hc : file.count e.disk = .ok n) (hn : ¬ n ≤ place.page.number) :
    e.deleteFrom file tx r = andThen (e.fetch tx place.page .exclusive) fun a e => e.takeFrom a tx r := by
  unfold deleteFrom andThen
  simp only [hr, hc, if_neg hn, if_neg (not_not.2 ht.symm)]
  rcases e.fetch tx place.page .exclusive with ⟨_ | _, _⟩ <;> rfl

/-- **Both delete a record.** -/
theorem Alike.delete (h : Alike e f) (tx : TxId) (r : Record) : Paired isCrowded (e.delete tx r) (f.delete tx r) := by
  unfold Engine.delete
  cases hr : r.location with
  | error cause => exact .same h
  | ok place =>
    simp only
    rw [h.file_eq]
    cases hf : e.file place.page.table with
    | error fault => exact .same h
    | ok file =>
      have hf' : f.file place.page.table = .ok file := (h.file_eq _).trans hf
      have ht : file.table = place.page.table := h.left.catalog.own hf
      have hc := h.left.present.count hf
      have hc' := h.right.present.count hf'
      rw [h.pages_eq] at hc'
      by_cases hn : e.pages place.page.table ≤ place.page.number
      · unfold deleteFrom
        simp only [hr, hc, hc', if_pos hn, if_neg (not_not.2 ht.symm)]
        exact .same h
      · dsimp only
        rw [deleteFrom_eq hr ht hc hn, deleteFrom_eq hr ht hc' hn]
        refine (h.fetch tx place.page .exclusive).andThen fun a b e1 f1 he hf hp h1 => ?_
        exact h1.takeFrom (find?_fetched he) (find?_fetched hf) hp tx r

/-! ## Scanning -/

/-- There was no room in a step of a scan. -/
def isCrowdedItem (item : Option (Except AccessFault Record)) : Bool := item.any isCrowded

/-- **One step gives the same in both**, and they go on from the same place. -/
theorem Alike.next (s : Scan) {e f : Engine} (h : Alike e f) :
    Paired (fun x : Option (Except AccessFault Record) × Scan => isCrowdedItem x.1)
      (((s.next e).1, (s.next e).2.1), (s.next e).2.2) (((s.next f).1, (s.next f).2.1), (s.next f).2.2) := by
  induction hd : s.pageCount - s.number generalizing s e f with
  | zero =>
    unfold Scan.next
    rw [if_pos (Nat.sub_eq_zero_iff_le.1 hd), if_pos (Nat.sub_eq_zero_iff_le.1 hd)]
    split <;> exact .same h
  | succ d ih =>
    have hn : ¬ s.pageCount ≤ s.number := by omega
    unfold Scan.next
    rw [if_neg hn, if_neg hn]
    split
    · exact .same h
    · rcases (h.fetch s.tx (s.file.pageId s.number) .shared).split with ⟨fault, e1, he, hc⟩ | ⟨fault, f1, hf, hc⟩ |
        ⟨fault, e1, f1, he, hf, h1⟩ | ⟨a, b, e1, f1, he, hf, hp, h1⟩
      · rw [he]
        exact .left hc
      · rw [hf]
        exact .right hc
      · rw [he, hf]
        exact .same h1
      · rw [he, hf]
        simp only [hp]
        cases Scan.recordFrom? a.page s.slot with
        | some slot => exact .same h1
        | none =>
          have hrest : s.pageCount - (s.number + 1) = d := by omega
          exact ih { s with number := s.number + 1, slot := 0 } h1 hrest

/-- All steps give the same in both. -/
theorem Alike.items (n : Nat) : ∀ (s : Scan) {e f : Engine}, Alike e f →
    Paired (fun x : List (Except AccessFault Record) => x.any isCrowded) ((Scan.items n s e).1, (Scan.items n s e).2.2)
      ((Scan.items n s f).1, (Scan.items n s f).2.2) := by
  induction n with
  | zero => exact fun _ _ _ h => .same h
  | succ n ih =>
    intro s e f h
    have hpair := h.next s
    unfold Scan.items
    generalize s.next e = o at hpair
    generalize s.next f = o' at hpair
    obtain ⟨x, s1, e1⟩ := o
    obtain ⟨y, s2, f1⟩ := o'
    cases hpair with
    | same h1 =>
      cases x with
      | none => exact .same h1
      | some item =>
        exact (ih s1 h1).map (item :: ·) fun l hl => by rw [List.any_cons, hl, Bool.or_true]
    | left hc =>
      cases x with
      | none => cases hc
      | some item =>
        have hc : isCrowded item = true := hc
        exact .left (by rw [List.any_cons, hc, Bool.true_or])
    | right hc =>
      cases y with
      | none => cases hc
      | some item =>
        have hc : isCrowded item = true := hc
        exact .right (by rw [List.any_cons, hc, Bool.true_or])

/-- There was no room somewhere in a scan. -/
def isCrowdedScan : Except EngineFault (List (Except AccessFault Record)) → Bool
  | .ok items => items.any isCrowded
  | .error _ => false

/-- **A scan gives the same in both.** -/
theorem Alike.scan (h : Alike e f) (tx : TxId) (table : TableId) :
    Paired isCrowdedScan (e.scan tx table) (f.scan tx table) := by
  unfold Engine.scan
  rw [h.left.present.ofTable_eq, h.right.present.ofTable_eq, h.catalog, h.pages_eq]
  cases e.catalog.file table with
  | error cause => exact .same h
  | ok file =>
    dsimp only
    exact (Alike.items _ _ h).map Except.ok fun _ hl => hl

end HeapStore.Engine
