import HeapStore.Proofs.Loading
import Mathlib.Data.List.Induction
import Mathlib.Data.List.Sort

/-!
# The history of a catalog

A catalog changes in two ways: a table is added, or all of them go. What it holds is told by the history of these
changes. The table that was added as the n-th one has the number n, and it is there until another one takes its name or
the catalog is cleared.

* `Catalog.Stands`: a table is there, as the history tells it. `stands_snoc`: what one change does to that.
* `Stands.earlier`: a table that is there and has an old number was there before under this number.
* `Catalog.given_eq`: **no number is given twice.**
* `Catalog.Records`: both indexes of a catalog hold the tables that stand and no others. One change keeps it
  (`Records.change`), and so do all of them (`Records.changeAll`).
-/

namespace HeapStore

open Std

namespace Catalog

/-- What changes which tables there are. -/
inductive Change where
  | add (file : TableFile) (name : String) (key : Option String)
  | clear

namespace Change

/-- A table is added. -/
def isAdd : Change → Bool
  | .add _ _ _ => true
  | .clear => false

/-- A table with the name is gone after the change, unless it is new. -/
def takes (name : String) : Change → Bool
  | .add _ name' _ => name' == name
  | .clear => true

end Change

/-- The catalog after a change. -/
def change (c : Catalog) : Change → Catalog
  | .add file name key => (c.add file name key).2
  | .clear => c.clear

/-- The catalog after some changes. -/
def changeAll (c : Catalog) : List Change → Catalog
  | [] => c
  | x :: xs => (c.change x).changeAll xs

/-- The numbers that tables are given in the course of some changes. -/
def given (c : Catalog) : List Change → List TableId
  | [] => []
  | .add file name key :: xs => (c.add file name key).1 :: (c.add file name key).2.given xs
  | .clear :: xs => c.clear.given xs

/-- How many tables are added. -/
def adds (history : List Change) : Nat := history.countP Change.isAdd

/-- A table was added under the number that was next, and nothing has happened to it since then. -/
inductive Stands (history : List Change) (id : TableId) : Table → Prop where
  | intro {before after : List Change} {file : TableFile} {name : String} {key : Option String}
    (hh : history = before ++ .add file name key :: after) (hid : id = ⟨adds before + 1⟩)
    (hafter : ∀ x ∈ after, x.takes name = false) : Stands history id ⟨name, { file with table := id }, key⟩

/-- The catalog is what the history of its changes tells: the tables are those that stand, and the names are theirs. -/
structure Records (c : Catalog) (history : List Change) : Prop where
  last : c.lastId = adds history
  stands : ∀ id t, c.tables[id]? = some t ↔ Stands history id t
  names : ∀ name id, c.names[name]? = some id ↔ ∃ t : Table, c.tables[id]? = some t ∧ t.name = name

variable {c c' : Catalog} {history xs : List Change} {id : TableId} {t : Table} {x : Change} {name : String}

/-! ## Tables that stand -/

theorem adds_append (xs ys : List Change) : adds (xs ++ ys) = adds xs + adds ys := List.countP_append

/-- The numbers that are given are the next ones, in their order. -/
theorem given_eq (c : Catalog) (xs : List Change) :
    c.given xs = (List.range' (c.lastId + 1) (adds xs)).map TableId.mk := by
  induction xs generalizing c with
  | nil => rfl
  | cons x xs ih =>
    cases x with
    | add file name key =>
      have hadds : adds (.add file name key :: xs) = adds xs + 1 := List.countP_cons_of_pos rfl
      unfold given
      rw [ih, hadds, List.range'_succ, lastId_add]
      rfl
    | clear =>
      have hadds : adds (.clear :: xs) = adds xs := List.countP_cons_of_neg nofun
      unfold given
      rw [ih, hadds]
      rfl

theorem Stands.own (h : Stands history id t) : t.file.table = id := by
  cases h
  rfl

/-- A table has the number of one that was added. -/
theorem Stands.number (h : Stands history id t) : 1 ≤ id.number ∧ id.number ≤ adds history := by
  obtain @⟨before, after, file, name, key, hh, hid, -⟩ := h
  have hadds : adds history = adds before + (adds after + 1) := by
    rw [hh, adds_append]
    exact congrArg (adds before + ·) (List.countP_cons_of_pos rfl)
  rw [hid, hadds]
  simp only
  omega

/-- **What one change does to the tables that stand**: it takes away those with its name and adds its own. -/
theorem stands_snoc : Stands (history ++ [x]) id t ↔ Stands history id t ∧ x.takes t.name = false ∨
    ∃ file name key, x = .add file name key ∧ id = ⟨adds history + 1⟩ ∧ t = ⟨name, { file with table := id }, key⟩ := by
  constructor
  · rintro @⟨before, after, file, name, key, hh, hid, hafter⟩
    rcases List.eq_nil_or_concat after with rfl | ⟨after, y, rfl⟩
    · obtain ⟨rfl, hx⟩ := List.append_inj' hh rfl
      exact .inr ⟨file, name, key, List.head_eq_of_cons_eq hx, hid, rfl⟩
    · rw [List.concat_eq_append] at hh hafter
      rw [← List.cons_append, ← List.append_assoc] at hh
      obtain ⟨rfl, hx⟩ := List.append_inj' hh rfl
      obtain rfl := List.head_eq_of_cons_eq hx
      refine .inl ⟨.intro rfl hid fun y hy => hafter y (List.mem_append_left _ hy), ?_⟩
      exact hafter x (List.mem_append_right _ (List.mem_singleton.2 rfl))
  · rintro (⟨@⟨before, after, file, name, key, rfl, hid, hafter⟩, hx⟩ | ⟨file, name, key, rfl, hid, rfl⟩)
    · have hh : before ++ .add file name key :: after ++ [x] = before ++ .add file name key :: (after ++ [x]) :=
        List.append_assoc before _ [x]
      refine .intro hh hid fun y hy => ?_
      rcases List.mem_append.1 hy with hy | hy
      · exact hafter y hy
      · rw [List.mem_singleton.1 hy]
        exact hx
    · exact .intro rfl hid nofun

/-- A table that is there and has an old number was there before. -/
theorem Stands.earlier (later : List Change) : Stands (history ++ later) id t → id.number ≤ adds history →
    Stands history id t := by
  induction later using List.reverseRecOn with
  | nil =>
    intro h _
    rw [List.append_nil] at h
    exact h
  | append_singleton later x ih =>
    intro h hid
    rw [← List.append_assoc] at h
    rcases stands_snoc.1 h with ⟨h, -⟩ | ⟨file, name, key, -, rfl, -⟩
    · exact ih h hid
    · rw [adds_append] at hid
      simp only at hid
      omega

/-! ## The indexes -/

/-- The table that had a name goes, and the new one is there. -/
theorem tables_add (c : Catalog) (file : TableFile) (name : String) (key : Option String) (id : TableId) :
    (c.add file name key).2.tables[id]? = if id = ⟨c.lastId + 1⟩ then some ⟨name, { file with table := id }, key⟩
      else if c.names[name]? = some id then none else c.tables[id]? := by
  unfold add
  simp only [ExtTreeMap.getElem?_insert, Std.compare_eq_iff_eq]
  by_cases hid : id = ⟨c.lastId + 1⟩
  · rw [if_pos hid.symm, if_pos hid, hid]
  · rw [if_neg (Ne.symm hid), if_neg hid]
    cases hn : c.names[name]? with
    | none => rw [if_neg nofun]
    | some old =>
      simp only [ExtTreeMap.getElem?_erase, Std.compare_eq_iff_eq, Option.some.injEq]

theorem names_add (c : Catalog) (file : TableFile) (name : String) (key : Option String) (name' : String) :
    (c.add file name key).2.names[name']? = if name = name' then some ⟨c.lastId + 1⟩ else c.names[name']? := by
  unfold add
  simp only [ExtTreeMap.getElem?_insert, Std.compare_eq_iff_eq]

theorem records_empty : Records {} [] where
  last := rfl
  stands id t := by
    have hnone : ({} : Catalog).tables[id]? = none := ExtTreeMap.getElem?_empty
    rw [hnone]
    constructor
    · nofun
    · rintro @⟨before, after, file, name, key, hh, -, -⟩
      cases before <;> cases hh
  names name id := by
    have hnames : ({} : Catalog).names[name]? = none := ExtTreeMap.getElem?_empty
    have htables : ({} : Catalog).tables[id]? = none := ExtTreeMap.getElem?_empty
    rw [hnames, htables]
    constructor
    · nofun
    · rintro ⟨t, ht, -⟩
      cases ht

namespace Records

/-- The number that is next has no table. -/
theorem fresh (h : c.Records history) : c.tables[(⟨c.lastId + 1⟩ : TableId)]? = none := by
  rw [Option.eq_none_iff_forall_ne_some]
  intro t ht
  have hle := ((h.stands _ t).1 ht).number.2
  rw [← h.last] at hle
  exact Nat.not_succ_le_self _ hle

theorem add (h : c.Records history) (file : TableFile) (name : String) (key : Option String) :
    (c.add file name key).2.Records (history ++ [.add file name key]) where
  last := by
    rw [lastId_add, h.last, adds_append]
    rfl
  stands id t := by
    rw [tables_add, stands_snoc, ← h.stands]
    by_cases hid : id = ⟨c.lastId + 1⟩
    · rw [if_pos hid]
      have hnone : c.tables[id]? = none := by
        rw [hid]
        exact h.fresh
      constructor
      · rintro ⟨⟩
        exact .inr ⟨file, name, key, rfl, by rw [hid, h.last], rfl⟩
      · rintro (⟨ht, -⟩ | ⟨file', name', key', ⟨⟩, -, rfl⟩)
        · rw [hnone] at ht
          cases ht
        · rfl
    · rw [if_neg hid]
      have hother : ¬ ∃ file' name' key', Change.add file name key = .add file' name' key' ∧
          id = ⟨adds history + 1⟩ ∧ t = ⟨name', { file' with table := id }, key'⟩ := by
        rintro ⟨_, _, _, -, hid', -⟩
        exact hid (by rw [hid', h.last])
      have htakes : Change.takes t.name (.add file name key) = false ↔ name ≠ t.name := beq_eq_false_iff_ne
      rw [or_iff_left hother, htakes]
      constructor
      · intro ht
        split at ht
        · cases ht
        · next hn => exact ⟨ht, fun he => hn ((h.names name id).2 ⟨t, ht, he.symm⟩)⟩
      · rintro ⟨ht, hne⟩
        rw [if_neg ?_]
        · exact ht
        · intro hn
          obtain ⟨t', ht', rfl⟩ := (h.names name id).1 hn
          rw [ht] at ht'
          cases ht'
          exact hne rfl
  names name' id := by
    rw [names_add, tables_add]
    by_cases hname : name = name'
    · rw [if_pos hname]
      constructor
      · rintro ⟨⟩
        exact ⟨_, if_pos rfl, hname⟩
      · rintro ⟨t, ht, rfl⟩
        by_cases hid : id = ⟨c.lastId + 1⟩
        · rw [hid]
        · -- whatever had the name before is gone
          rw [if_neg hid] at ht
          split at ht
          · cases ht
          · next hn => exact absurd ((h.names name id).2 ⟨t, ht, hname.symm⟩) hn
    · rw [if_neg hname, h.names]
      constructor
      · rintro ⟨t, ht, rfl⟩
        have hid : id ≠ ⟨c.lastId + 1⟩ := by
          rintro rfl
          rw [h.fresh] at ht
          cases ht
        refine ⟨t, ?_, rfl⟩
        rw [if_neg hid, if_neg ?_]
        · exact ht
        · intro hn
          obtain ⟨t', ht', rfl⟩ := (h.names name id).1 hn
          rw [ht] at ht'
          cases ht'
          exact hname rfl
      · rintro ⟨t, ht, rfl⟩
        by_cases hid : id = ⟨c.lastId + 1⟩
        · rw [if_pos hid] at ht
          cases ht
          exact absurd rfl hname
        · rw [if_neg hid] at ht
          split at ht
          · cases ht
          · exact ⟨t, ht, rfl⟩

theorem clear (h : c.Records history) : c.clear.Records (history ++ [.clear]) where
  last := by
    rw [adds_append]
    exact h.last
  stands id t := by
    have hnone : c.clear.tables[id]? = none := ExtTreeMap.getElem?_empty
    rw [hnone, stands_snoc]
    constructor
    · nofun
    · rintro (⟨-, hx⟩ | ⟨_, _, _, hx, -⟩)
      · cases hx
      · cases hx
  names name id := by
    have hnames : c.clear.names[name]? = none := ExtTreeMap.getElem?_empty
    have htables : c.clear.tables[id]? = none := ExtTreeMap.getElem?_empty
    rw [hnames, htables]
    constructor
    · nofun
    · rintro ⟨t, ht, -⟩
      cases ht

/-- **One change keeps the indexes in step with the history.** -/
theorem change (h : c.Records history) (x : Change) : (c.change x).Records (history ++ [x]) := by
  cases x with
  | add file name key => exact h.add file name key
  | clear => exact h.clear

theorem changeAll (xs : List Change) : ∀ {c : Catalog} {history : List Change}, c.Records history →
    (c.changeAll xs).Records (history ++ xs) := by
  induction xs with
  | nil =>
    intro c history h
    rw [List.append_nil]
    exact h
  | cons x xs ih =>
    intro c history h
    have hrest := ih (h.change x)
    rw [List.append_assoc] at hrest
    exact hrest

end Records

/-- The numbers of the tables that are there are those that were given, in their order, less those of tables that are
gone. -/
theorem Records.order (h : c.Records history) : c.ids.Pairwise (fun a b => a.number < b.number) ∧
    (∀ id, id ∈ c.ids ↔ ∃ t, c.tables[id]? = some t) ∧ c.ids.Sublist (({} : Catalog).given history) := by
  have hids : c.ids.Pairwise (fun a b => a.number < b.number) := by
    refine ExtTreeMap.ordered_keys.imp fun {a b} hab => ?_
    exact Nat.compare_eq_lt.1 hab
  have hmem : ∀ id, id ∈ c.ids ↔ ∃ t, c.tables[id]? = some t := by
    intro id
    unfold ids
    rw [ExtTreeMap.mem_keys, ExtTreeMap.mem_iff_isSome_getElem?, Option.isSome_iff_exists]
  have hgiven : (({} : Catalog).given history).Pairwise (fun a b => a.number < b.number) := by
    rw [given_eq]
    exact List.pairwise_map.2 List.pairwise_lt_range'
  have hsub : c.ids ⊆ ({} : Catalog).given history := by
    intro id hid
    obtain ⟨t, ht⟩ := (hmem id).1 hid
    obtain ⟨hpos, hle⟩ := ((h.stands id t).1 ht).number
    rw [given_eq]
    refine List.mem_map.2 ⟨id.number, List.mem_range'_1.2 ⟨hpos, ?_⟩, rfl⟩
    exact Nat.lt_of_le_of_lt hle (Nat.lt_add_of_pos_left Nat.one_pos)
  have hnodup : c.ids.Nodup := ExtTreeMap.nodup_keys
  have : Std.Antisymm fun a b : TableId => a.number ≤ b.number :=
    ⟨fun a b hab hba => congrArg TableId.mk (Nat.le_antisymm hab hba)⟩
  exact ⟨hids, hmem, List.sublist_of_subperm_of_pairwise (List.subperm_of_subset hnodup hsub)
    (hids.imp Nat.le_of_lt) (hgiven.imp Nat.le_of_lt)⟩

end Catalog

end HeapStore
