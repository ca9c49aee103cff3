import HeapStore.Proofs.Locks

/-!
# Runs of lock calls

The table is changed from two sides: a grant writes the holders of a page and the pages of a transaction, a release
takes one page from both, and at the end of a transaction its list of pages goes first and then its name on each page.

* `LockTable.mode?_release`: **letting go of a page takes exactly one transaction off exactly one page.**
* `LockTable.serveAll`: the table after any calls of anybody. `Sound.serve` is one call, `Sound.serveAll` a run.
* `LockTable.served_exact`: **after every run both sides say the same** (`LockTable.Exact`), and no page is shared by
  nobody or held exclusively beside others.
-/

namespace HeapStore

open Std

/-- The order in which pages are listed. -/
def PageId.Before (a b : PageId) : Prop :=
  a.table.number < b.table.number ∨ a.table = b.table ∧ a.number < b.number

theorem PageId.before_of_compare {a b : PageId} (h : compare a b = .lt) : a.Before b := by
  have h : (compare a.table.number b.table.number).then (compare a.number b.number) = .lt := h
  rw [Ordering.then_eq_lt, Nat.compare_eq_lt, Nat.compare_eq_eq, Nat.compare_eq_lt] at h
  rcases h with htable | ⟨htable, hnumber⟩
  · exact .inl htable
  · have he : a.table = b.table := congrArg TableId.mk htable
    exact .inr ⟨he, hnumber⟩

/-- The transaction is among the holders. -/
def Hold.HeldBy (tx : TxId) : Hold → Prop
  | .shared holders => tx ∈ holders
  | .exclusive holder => holder = tx

theorem Hold.isSome_mode?_iff {hold : Hold} {tx : TxId} : (hold.mode? tx).isSome ↔ hold.HeldBy tx := by
  cases hold with
  | shared holders =>
    have hm : (shared holders).HeldBy tx ↔ tx ∈ holders := Iff.rfl
    rw [mode?_shared, hm]
    split <;> simp [*]
  | exclusive holder =>
    have hm : (exclusive holder).HeldBy tx ↔ holder = tx := Iff.rfl
    rw [mode?_exclusive, hm]
    split <;> simp [*]

/-- A page is held exclusively by the one who stands alone on it. -/
theorem Hold.mode?_eq_exclusive_iff {hold : Hold} {tx : TxId} :
    hold.mode? tx = some .exclusive ↔ hold = .exclusive tx := by
  cases hold with
  | shared holders =>
    rw [mode?_shared]
    split <;> simp
  | exclusive holder =>
    rw [mode?_exclusive]
    split
    · next h => simp [h]
    · next h => simp [h]

/-- What a lock table is asked for. A request that waits makes one attempt after another; those that are denied change
nothing, so it is called with its last one. -/
inductive LockCall where
  | attempt (tx : TxId) (page : PageId) (mode : LockMode)
  | acquire (tx : TxId) (page : PageId) (mode : LockMode)
  | release (tx : TxId) (page : PageId)
  | releaseAll (tx : TxId)

namespace LockTable

variable {t t' : LockTable} {tx tx' : TxId} {page page' : PageId} {mode : LockMode}

/-! ## Letting go of one page -/

/-- **Letting go of a page takes exactly one transaction off exactly one page.** -/
theorem mode?_release (t : LockTable) (tx tx' : TxId) (page page' : PageId) :
    (t.release tx page).table.mode? tx' page' =
      if tx' = tx ∧ page' = page then none else t.mode? tx' page' := by
  unfold release
  split
  · exact mode?_dropHolder
  · next hn =>
    -- who does not hold the page has no mode there to lose
    split
    · next he =>
      obtain ⟨rfl, rfl⟩ := he
      exact Option.not_isSome_iff_eq_none.1 hn
    · rfl

/-- The pages that a transaction is listed with, once one of them is struck. -/
theorem mem_held_unlist (t : LockTable) (tx tx' : TxId) (page page' : PageId) :
    page' ∈ (t.unlist tx page).held.getD tx' {} ↔
      page' ∈ t.held.getD tx' {} ∧ ¬ (tx' = tx ∧ page' = page) := by
  have hmem : ∀ p, p ∈ (t.held.getD tx {}).erase page ↔ p ∈ t.held.getD tx {} ∧ p ≠ page := by
    intro p
    rw [ExtTreeSet.mem_erase, ne_eq, PageId.compare_eq_iff, and_comm, eq_comm]
  unfold unlist
  simp only
  by_cases ht : tx = tx'
  · subst ht
    split
    · -- its last page is struck, so it is not listed any more
      next he =>
      rw [ExtTreeSet.isEmpty_iff] at he
      have hnone := hmem page'
      rw [he] at hnone
      simp only [ExtTreeMap.getD_erase, TxId.compare_eq_iff, if_true, true_and]
      exact hnone
    · simp only [ExtTreeMap.getD_insert, TxId.compare_eq_iff, if_true, true_and]
      exact hmem page'
  · have hne : ¬ (tx' = tx ∧ page' = page) := fun h => ht h.1.symm
    split
    · simp only [ExtTreeMap.getD_erase, TxId.compare_eq_iff, if_neg ht, hne, not_false_eq_true, and_true]
    · simp only [ExtTreeMap.getD_insert, TxId.compare_eq_iff, if_neg ht, hne, not_false_eq_true, and_true]

/-- Nobody is listed with no page, once one is struck. -/
theorem Sound.ne_empty_of_unlist (h : t.Sound) {pages : ExtTreeSet PageId}
    (hp : (t.unlist tx page).held[tx']? = some pages) : pages ≠ ∅ := by
  unfold unlist at hp
  simp only at hp
  split at hp
  · rw [ExtTreeMap.getElem?_erase] at hp
    split at hp
    · cases hp
    · exact h.some_listed hp
  · next hne =>
    rw [ExtTreeMap.getElem?_insert] at hp
    split at hp
    · cases hp
      rwa [ExtTreeSet.isEmpty_iff] at hne
    · exact h.some_listed hp

theorem Sound.release (h : t.Sound) (tx : TxId) (page : PageId) : (t.release tx page).table.Sound := by
  by_cases hh : t.holds tx page
  · have he : (t.release tx page).table = (t.dropHolder tx page).unlist tx page := by
      unfold LockTable.release
      rw [if_pos hh]
    refine ⟨?_, fun a p => ?_, fun {a pages} hp => ?_⟩
    · have ho : (t.dropHolder tx page).Occupied := Occupied.dropHolder h.shared
      rw [he]
      intro p holders hp
      exact ho hp
    · have hheld : (t.dropHolder tx page).held = t.held := rfl
      rw [mode?_release, he, mem_held_unlist, hheld, h.listed]
      split
      · next hap => simp [hap]
      · next hap => simp [hap]
    · rw [he] at hp
      exact h.ne_empty_of_unlist hp
  · have he : (t.release tx page).table = t := by
      unfold LockTable.release
      rw [if_neg hh]
    rw [he]
    exact h

/-- The others are listed with their pages as before. -/
theorem lockedPages_releaseAll_of_ne (h : tx' ≠ tx) :
    (t.releaseAll tx).table.lockedPages tx' = t.lockedPages tx' := by
  rw [releaseAll_table]
  split
  · rfl
  · unfold lockedPages
    simp only [ExtTreeMap.getD_erase, TxId.compare_eq_iff, if_neg (Ne.symm h)]

/-! ## Runs -/

/-- One call. -/
def serve (t : LockTable) : LockCall → LockTable
  | .attempt tx page mode => (t.grant? tx page mode).getD t
  | .acquire tx page mode =>
    match t.acquire tx page mode with
    | .ok t' => t'
    | .error _ => t
  | .release tx page => (t.release tx page).table
  | .releaseAll tx => (t.releaseAll tx).table

/-- The table after some calls. -/
def serveAll (t : LockTable) : List LockCall → LockTable
  | [] => t
  | c :: calls => (t.serve c).serveAll calls

theorem serve_attempt (t : LockTable) (tx : TxId) (page : PageId) (mode : LockMode) :
    t.serve (.attempt tx page mode) = (t.grant? tx page mode).getD t := rfl

/-- A request is one attempt, as far as the table is concerned. -/
theorem serve_acquire (t : LockTable) (tx : TxId) (page : PageId) (mode : LockMode) :
    t.serve (.acquire tx page mode) = (t.grant? tx page mode).getD t := by
  simp only [serve, acquire]
  cases t.grant? tx page mode <;> rfl

theorem Sound.serve (h : t.Sound) (c : LockCall) : (t.serve c).Sound := by
  have hgrant : ∀ tx page mode, ((t.grant? tx page mode).getD t).Sound := by
    intro tx page mode
    cases hg : t.grant? tx page mode with
    | none => exact h
    | some t' => exact h.grant? hg
  cases c with
  | attempt tx page mode => exact hgrant tx page mode
  | acquire tx page mode =>
    rw [serve_acquire]
    exact hgrant tx page mode
  | release tx page => exact h.release tx page
  | releaseAll tx => exact h.releaseAll

theorem Sound.serveAll (calls : List LockCall) : ∀ {t : LockTable}, t.Sound → (t.serveAll calls).Sound := by
  induction calls with
  | nil => exact fun h => h
  | cons c calls ih => exact fun h => ih (h.serve c)

/-- What the pages say of their holders is what the transactions are listed with. -/
structure Exact (t : LockTable) : Prop where
  /-- A page has no entry, or is shared by some, or is held by one alone. -/
  entry : ∀ page : PageId, t.pages[page]? = none ∨
    (∃ holders, t.pages[page]? = some (Hold.shared holders) ∧ holders ≠ ∅) ∨
      ∃ holder, t.pages[page]? = some (Hold.exclusive holder)
  exclusive : ∀ tx page, t.mode? tx page = some .exclusive ↔ t.pages[page]? = some (Hold.exclusive tx)
  alone : ∀ tx tx' page, t.mode? tx page = some .exclusive → tx' ≠ tx → t.mode? tx' page = none
  /-- A transaction is listed with the pages whose entries name it. -/
  index : ∀ (tx : TxId) (page : PageId), (∃ pages, t.held[tx]? = some pages ∧ page ∈ pages) ↔
    ∃ hold : Hold, t.pages[page]? = some hold ∧ hold.HeldBy tx
  occupied : ∀ tx : TxId, t.held[tx]? ≠ some ∅
  sorted : ∀ tx, (t.lockedPages tx).Pairwise PageId.Before
  locked : ∀ tx page, page ∈ t.lockedPages tx ↔ t.holds tx page = true
  holds : ∀ tx page, t.holds tx page = true ↔ t.mode? tx page ≠ none
  held : ∀ tx page, t.holds tx page = true ↔ ∃ hold : Hold, t.pages[page]? = some hold ∧ hold.HeldBy tx

theorem isSome_mode?_iff : (t.mode? tx page).isSome ↔ ∃ hold, t.pages[page]? = some hold ∧ hold.HeldBy tx := by
  unfold mode?
  cases hp : t.pages[page]? with
  | none => simp
  | some hold => simp [Hold.isSome_mode?_iff]

theorem mode?_eq_exclusive_iff : t.mode? tx page = some .exclusive ↔ t.pages[page]? = some (.exclusive tx) := by
  unfold mode?
  cases hp : t.pages[page]? with
  | none => simp
  | some hold => simp [Hold.mode?_eq_exclusive_iff]

theorem mem_getD_held_iff : page ∈ t.held.getD tx {} ↔ ∃ pages, t.held[tx]? = some pages ∧ page ∈ pages := by
  rw [ExtTreeMap.getD_eq_getD_getElem?]
  cases ht : t.held[tx]? with
  | none => simp
  | some pages => simp

theorem Sound.isExact (h : t.Sound) : t.Exact where
  entry page := by
    cases hp : t.pages[page]? with
    | none => exact .inl rfl
    | some hold =>
      cases hold with
      | shared holders => exact .inr (.inl ⟨holders, rfl, h.shared hp⟩)
      | exclusive holder => exact .inr (.inr ⟨holder, rfl⟩)
  exclusive tx page := mode?_eq_exclusive_iff
  alone tx tx' page hx hne := exclusive_alone hx hne
  index tx page := by
    rw [← mem_getD_held_iff, ← isSome_mode?_iff]
    exact h.listed tx page
  occupied tx he := h.some_listed he rfl
  sorted tx := by
    have ho := ExtTreeSet.ordered_toList (t := t.held.getD tx {})
    exact ho.imp PageId.before_of_compare
  locked tx page := h.mem_lockedPages
  holds tx page := by
    unfold LockTable.holds
    rw [Option.isSome_iff_ne_none]
  held tx page := isSome_mode?_iff

/-- **After any calls of anybody the table is exact.** A page has no entry, or is shared by some, or is held exclusively
by one and by nobody else. A transaction is listed with the pages that name it, and not at all if there are none. Its
list is in order and without repetitions, and has the pages that it holds, which are those where it has a mode. -/
theorem served_exact (calls : List LockCall) : (serveAll {} calls).Exact := by
  have h : (serveAll {} calls).Sound := sound_empty.serveAll calls
  exact h.isExact

end LockTable

end HeapStore
