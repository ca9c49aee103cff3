import HeapStore.Text.Form
import Std.Data.ExtTreeMap.Lemmas

/-!
# Identifiers

Tables, pages, records and transactions are named by numbers. Page identifiers are ordered by table
and then by page number, which is the order in which lists of pages are shown.

* `PageId.label`, `TxId.label`: the names under which messages mention them; `form` is the structured
  form of reports.
* the order instances make each identifier a key of the ordered maps of the standard library.
-/

namespace HeapStore

open Std

/-- The number that the catalog gave a table. -/
structure TableId where
  number : Nat
deriving DecidableEq, Repr, Inhabited

/-- A page: its table, and its place in the table's file. -/
structure PageId where
  table : TableId
  number : Nat
deriving DecidableEq, Repr, Inhabited

/-- Where a record lies: its page, and its slot on the page. -/
structure RecordId where
  page : PageId
  slot : Nat
deriving DecidableEq, Repr, Inhabited

/-- A transaction. -/
structure TxId where
  number : Nat
deriving DecidableEq, Repr, Inhabited

def TableId.label (t : TableId) : String := s!"table#{t.number}"

def PageId.label (p : PageId) : String := s!"{p.table.label}/page#{p.number}"

def TxId.label (t : TxId) : String := s!"tx#{t.number}"

def TableId.form (t : TableId) : String := Text.Form.tuple "TableId" [toString t.number]

def PageId.form (p : PageId) : String :=
  Text.Form.fields "PageId" [("table_id", p.table.form), ("page_no", toString p.number)]

def TxId.form (t : TxId) : String := Text.Form.tuple "TransactionId" [toString t.number]

instance : Ord TableId := ⟨compareOn TableId.number⟩

instance : TransOrd TableId := inferInstanceAs (TransCmp (compareOn TableId.number))

instance : LawfulEqOrd TableId where
  eq_of_compare {a b} h := by
    have h : compare a.number b.number = .eq := h
    exact congrArg TableId.mk (Std.compare_eq_iff_eq.1 h)

instance : Ord TxId := ⟨compareOn TxId.number⟩

instance : TransOrd TxId := inferInstanceAs (TransCmp (compareOn TxId.number))

instance : LawfulEqOrd TxId where
  eq_of_compare {a b} h := by
    have h : compare a.number b.number = .eq := h
    exact congrArg TxId.mk (Std.compare_eq_iff_eq.1 h)

instance : Ord PageId := ⟨compareLex (compareOn PageId.table) (compareOn PageId.number)⟩

instance : TransOrd PageId :=
  inferInstanceAs (TransCmp (compareLex (compareOn PageId.table) (compareOn PageId.number)))

instance : LawfulEqOrd PageId where
  eq_of_compare {a b} h := by
    have h : (compare a.table b.table).then (compare a.number b.number) = .eq := h
    rw [Ordering.then_eq_eq, Std.compare_eq_iff_eq, Std.compare_eq_iff_eq] at h
    cases a
    cases b
    cases h.1
    cases h.2
    rfl

end HeapStore
