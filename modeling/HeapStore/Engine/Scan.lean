import HeapStore.Engine.Basic

/-!
# Scans

A scan gives the records of a table one after another, by page and by slot. It visits the pages that the
table has when the scan is opened and locks each of them for sharing. A fault ends it.

* `Scan.next`: the next record or the fault that ends the scan, if there is one.
* `Scan.items`, `Engine.scan`: what a scan gives in a number of steps, and until its end.
-/

namespace HeapStore

structure Scan where
  file : TableFile
  tx : TxId
  pageCount : Nat
  /-- Where the search for the next record begins. -/
  number : Nat := 0
  slot : Nat := 0
  done : Bool := false

namespace Scan

variable (s : Scan)

/-- A scan of a table, from its first record on. -/
def ofTable (e : Engine) (tx : TxId) (table : TableId) : Except EngineFault Scan :=
  match e.catalog.file table with
  | .error cause => .error (.catalog cause)
  | .ok file =>
    match file.count e.disk with
    | .error cause => .error (.access cause)
    | .ok pageCount => .ok { file, tx, pageCount }

/-- The scan from the first record on. -/
def rewind : Scan := { s with number := 0, slot := 0, done := false }

def finish : Scan := { s with done := true }

/-- The first record of a page in the given slot or behind it. -/
def recordFrom? (page : Page) (slot : Nat) : Option (Nat × Record) :=
  ((List.range page.slots.length).drop slot).findSome? fun i => (page.record? i).map (i, ·)

/-- The next record or the fault that ends the scan. -/
def next (s : Scan) (e : Engine) : Option (Except AccessFault Record) × Scan × Engine :=
  if s.done then (none, s, e)
  else if s.pageCount ≤ s.number then (none, s.finish, e)
  else match e.fetch s.tx (s.file.pageId s.number) .shared with
    | (.error fault, e) => (some (.error fault), s.finish, e)
    | (.ok f, e) =>
      match recordFrom? f.page s.slot with
      | some (slot, r) => (some (.ok r), { s with slot := slot + 1 }, e)
      | none => next { s with number := s.number + 1, slot := 0 } e
termination_by s.pageCount - s.number

/-- What a scan gives in at most `n` steps. -/
def items : (n : Nat) → Scan → Engine → List (Except AccessFault Record) × Scan × Engine
  | 0, s, e => ([], s, e)
  | n + 1, s, e =>
    match s.next e with
    | (none, s, e) => ([], s, e)
    | (some item, s, e) =>
      let (rest, s, e) := items n s e
      (item :: rest, s, e)

/-- More steps than a scan can take: one for each slot of its pages, and one for a fault. -/
def bound : Nat := s.pageCount * s.file.schema.slotCount s.file.pageSize + 2

/-- How a scan is described. -/
def form : String :=
  Text.Form.fields "HeapScan"
    [("table_id", s.file.table.form), ("tid", s.tx.form), ("page_no", toString s.number),
      ("slot_id", toString s.slot)]

end Scan

/-- All that a scan of a table gives. -/
def Engine.scan (e : Engine) (tx : TxId) (table : TableId) :
    Engine.Outcome EngineFault (List (Except AccessFault Record)) :=
  match Scan.ofTable e tx table with
  | .error fault => (.error fault, e)
  | .ok s =>
    let (items, _, e) := Scan.items s.bound s e
    (.ok items, e)

end HeapStore
