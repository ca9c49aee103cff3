import HeapStore.Proofs.LockGrants

/-!
# Letting go of all pages

A release strikes a transaction off one page and the page off its list. At the end of a transaction its whole list goes
first, and then it is struck off the pages, in whatever order the list gives them. Both ways lead to the same table,
because a table is known from the modes in which the pages are held.

* `LockTable.Sound.ext`: **two sound tables with the same modes are the same.**
* `LockTable.releaseListed`: all pages let go of in a given order. `dropHolder_comm` says that the order of two of them
  does not matter.
* `LockTable.Forbids`: the lock that stands in the way of a request.
* `LockTable.served_releaseAll`: **to let go of all pages is to let go of each**, in any order, and does nothing to
  anybody else.
-/

namespace HeapStore

open Std

namespace Hold

variable {tx : TxId} {hold hold' : Hold} {holders : ExtTreeSet TxId}

theorem mode?_shared_eq_some_iff : (shared holders).mode? tx = some .shared ↔ tx ∈ holders := by
  rw [mode?_shared]
  split
  · next hm => exact ⟨fun _ => hm, fun _ => rfl⟩
  · next hn => exact ⟨nofun, fun hm => absurd hm hn⟩

/-- The holders of a page are known from their modes. -/
theorem ext_mode (h : ∀ tx, hold.mode? tx = hold'.mode? tx) : hold = hold' := by
  cases hold with
  | exclusive holder =>
    have hx : (exclusive holder).mode? holder = some .exclusive := mode?_eq_exclusive_iff.2 rfl
    exact (mode?_eq_exclusive_iff.1 ((h holder).symm.trans hx)).symm
  | shared holders =>
    cases hold' with
    | exclusive holder =>
      have hx : (exclusive holder).mode? holder = some .exclusive := mode?_eq_exclusive_iff.2 rfl
      exact mode?_eq_exclusive_iff.1 ((h holder).trans hx)
    | shared holders' =>
      refine congrArg shared (ExtTreeSet.ext_mem fun tx => ?_)
      rw [← mode?_shared_eq_some_iff, ← mode?_shared_eq_some_iff, h tx]

/-- A page that is held is held by somebody. -/
theorem exists_mode? (hne : ∀ holders, hold = shared holders → holders ≠ ∅) : ∃ tx, hold.mode? tx ≠ none := by
  cases hold with
  | exclusive holder =>
    refine ⟨holder, ?_⟩
    rw [mode?_exclusive, if_pos rfl]
    exact Option.some_ne_none _
  | shared holders =>
    have hsome : ∃ tx, tx ∈ holders := by
      by_contra hno
      exact hne holders rfl (ExtTreeSet.eq_empty_iff_forall_not_mem.2 fun tx hm => hno ⟨tx, hm⟩)
    obtain ⟨tx, hm⟩ := hsome
    refine ⟨tx, ?_⟩
    rw [mode?_shared, if_pos hm]
    exact Option.some_ne_none _

end Hold

namespace LockTable

variable {t t' : LockTable} {tx tx' : TxId} {page page' : PageId} {mode : LockMode} {hold : Hold}

/-! ## Tables with the same modes -/

theorem Sound.exists_mode? (h : t.Sound) (hp : t.pages[page]? = some hold) : ∃ tx, t.mode? tx page ≠ none := by
  have hne : ∀ holders, hold = .shared holders → holders ≠ ∅ := fun holders he => h.shared (he ▸ hp)
  obtain ⟨tx, hm⟩ := Hold.exists_mode? hne
  exact ⟨tx, by rw [mode?_of_some hp]; exact hm⟩

/-- The entry of a page is known from the modes in which it is held. -/
theorem Sound.entry_eq (h : t.Sound) (h' : t'.Sound) (hm : ∀ tx, t.mode? tx page = t'.mode? tx page) :
    t.pages[page]? = t'.pages[page]? := by
  cases hp : t.pages[page]? with
  | none =>
    cases hp' : t'.pages[page]? with
    | none => rfl
    | some hold' =>
      obtain ⟨tx, hsome⟩ := h'.exists_mode? hp'
      exact absurd ((hm tx).symm.trans (mode?_of_none hp)) hsome
  | some hold =>
    cases hp' : t'.pages[page]? with
    | none =>
      obtain ⟨tx, hsome⟩ := h.exists_mode? hp
      exact absurd ((hm tx).trans (mode?_of_none hp')) hsome
    | some hold' =>
      have hmodes : ∀ tx, hold.mode? tx = hold'.mode? tx := by
        intro tx
        rw [← mode?_of_some hp, ← mode?_of_some hp', hm tx]
      rw [Hold.ext_mode hmodes]

/-- The list of a transaction is known from the modes in which it holds its pages. -/
theorem Sound.held_eq (h : t.Sound) (h' : t'.Sound) (hm : ∀ page, t.mode? tx page = t'.mode? tx page) :
    t.held[tx]? = t'.held[tx]? := by
  have hmem : ∀ page, page ∈ t.held.getD tx {} ↔ page ∈ t'.held.getD tx {} := by
    intro page
    rw [h.listed, h'.listed, hm]
  have hsame : t.held.getD tx {} = t'.held.getD tx {} := ExtTreeSet.ext_mem hmem
  rw [ExtTreeMap.getD_eq_getD_getElem?, ExtTreeMap.getD_eq_getD_getElem?] at hsame
  -- nobody is listed without a page, so to be listed with none is not to be listed
  cases hl : t.held[tx]? with
  | none =>
    cases hl' : t'.held[tx]? with
    | none => rfl
    | some pages' =>
      rw [hl, hl'] at hsame
      exact absurd hsame.symm (h'.some_listed hl')
  | some pages =>
    cases hl' : t'.held[tx]? with
    | none =>
      rw [hl, hl'] at hsame
      exact absurd hsame (h.some_listed hl)
    | some pages' =>
      rw [hl, hl'] at hsame
      exact congrArg some hsame

/-- **Two sound tables with the same modes are the same.** -/
theorem Sound.ext (h : t.Sound) (h' : t'.Sound) (hm : ∀ tx page, t.mode? tx page = t'.mode? tx page) : t = t' := by
  have hpages : t.pages = t'.pages := ExtTreeMap.ext_getElem? fun page => h.entry_eq h' fun tx => hm tx page
  have hheld : t.held = t'.held := ExtTreeMap.ext_getElem? fun tx => h.held_eq h' (hm tx)
  cases t
  cases t'
  cases hpages
  cases hheld
  rfl

/-! ## One by one, and in any order -/

/-- The transaction lets go of the pages of a list, one after another, and is not listed any more. -/
def releaseListed (t : LockTable) (tx : TxId) : List PageId → Released
  | [] => ⟨t, false⟩
  | page :: pages =>
    let struck := t.dropEach tx (page :: pages)
    ⟨{ struck with held := struck.held.erase tx }, true⟩

theorem releaseAll_eq (t : LockTable) (tx : TxId) : t.releaseAll tx = t.releaseListed tx (t.lockedPages tx) := by
  unfold releaseAll
  cases t.lockedPages tx <;> rfl

/-- The order in which a transaction is struck off two pages does not matter. -/
theorem dropHolder_comm (t : LockTable) (tx : TxId) (page page' : PageId) :
    (t.dropHolder tx page).dropHolder tx page' = (t.dropHolder tx page').dropHolder tx page := by
  have hpages : ((t.dropHolder tx page).dropHolder tx page').pages =
      ((t.dropHolder tx page').dropHolder tx page).pages := by
    refine ExtTreeMap.ext_getElem? fun p => ?_
    unfold dropHolder
    simp only [ExtTreeMap.getElem?_alter, PageId.compare_eq_iff]
    by_cases hp : page = p <;> by_cases hp' : page' = p <;> simp [hp, hp']
  unfold dropHolder at hpages ⊢
  exact congrArg (fun pages => { t with pages }) hpages

theorem dropEach_perm {pages pages' : List PageId} (h : pages.Perm pages') (t : LockTable) :
    t.dropEach tx pages = t.dropEach tx pages' :=
  h.foldl_eq' (fun page _ page' _ t => dropHolder_comm t tx page page') t

theorem releaseListed_perm {pages pages' : List PageId} (h : pages.Perm pages') (t : LockTable) :
    t.releaseListed tx pages = t.releaseListed tx pages' := by
  have hdrop : t.dropEach tx pages = t.dropEach tx pages' := dropEach_perm h t
  cases pages with
  | nil =>
    rw [h.nil_eq]
  | cons page pages =>
    cases pages' with
    | nil => exact absurd h.eq_nil (List.cons_ne_nil _ _)
    | cons page' pages' =>
      exact congrArg (fun struck : LockTable => Released.mk { struck with held := struck.held.erase tx } true) hdrop

/-- Letting go of some pages takes one transaction off exactly these. -/
theorem mode?_releaseEach (tx : TxId) (pages : List PageId) : ∀ (t : LockTable) (tx' : TxId) (page' : PageId),
    (t.serveAll (pages.map (.release tx))).mode? tx' page' =
      if tx' = tx ∧ page' ∈ pages then none else t.mode? tx' page' := by
  induction pages with
  | nil =>
    intro t tx' page'
    rw [if_neg fun h => List.not_mem_nil h.2]
    rfl
  | cons page pages ih =>
    intro t tx' page'
    have hstep : t.serveAll ((page :: pages).map (.release tx)) =
        (t.release tx page).table.serveAll (pages.map (.release tx)) := rfl
    rw [hstep, ih, mode?_release]
    by_cases ht : tx' = tx <;> by_cases hp : page' = page <;> by_cases hm : page' ∈ pages <;> simp [ht, hp, hm]

/-- **Page by page the same table is made.** -/
theorem Sound.releaseEach (h : t.Sound) {pages : List PageId} (hp : pages.Perm (t.lockedPages tx)) :
    t.serveAll (pages.map (.release tx)) = (t.releaseAll tx).table := by
  have hmem : ∀ page, page ∈ pages ↔ (t.mode? tx page).isSome := fun page => hp.mem_iff.trans h.mem_lockedPages
  -- the two ways keep the list of the transaction differently, but both tables are sound, so only the modes count
  refine (h.serveAll _).ext h.releaseAll fun tx' page => ?_
  rw [mode?_releaseEach, mode?_releaseAll h]
  by_cases ht : tx' = tx
  · subst ht
    rw [if_pos rfl]
    split
    · rfl
    · next hn =>
      rw [hmem, Option.isSome_iff_ne_none] at hn
      exact not_not.1 fun hm => hn ⟨rfl, hm⟩
  · rw [if_neg ht, if_neg fun he => ht he.1]

/-! ## What it does to the others -/

/-- The lock of the first transaction stands in the way of a request of the second one. -/
def Forbids (t : LockTable) (tx' tx : TxId) (page : PageId) (mode : LockMode) : Prop :=
  tx' ≠ tx ∧ (t.mode? tx' page = some .exclusive ∨ mode = .exclusive ∧ t.mode? tx' page ≠ none)

theorem allows_iff_forall_not_forbids : t.Allows tx page mode ↔ ∀ tx', ¬ t.Forbids tx' tx page mode := by
  unfold Allows Forbids
  refine forall_congr' fun tx' => ?_
  by_cases ht : tx' = tx
  · simp [ht]
  · rcases t.mode? tx' page with _ | ⟨_ | _⟩ <;> cases mode <;> simp [ht]

/-- Once a transaction holds nothing, what only it stood in the way of is granted. -/
theorem Sound.grant?_releaseAll_iff (h : t.Sound) : ((t.releaseAll tx).table.grant? tx' page mode).isSome ↔
    ∀ other, t.Forbids other tx' page mode → other = tx := by
  rw [isSome_grant?_iff h.releaseAll, allows_iff_forall_not_forbids]
  refine forall_congr' fun other => ?_
  unfold Forbids
  rw [mode?_releaseAll h]
  by_cases ho : other = tx
  · simp [ho]
  · rw [if_neg ho]
    exact ⟨fun hn hf => absurd hf hn, fun hi hf => ho (hi hf)⟩

/-- What it comes to that a transaction lets go of all pages. -/
structure LetsGoOfAll (t : LockTable) (tx : TxId) : Prop where
  /-- It may let go of them one by one, in any order. -/
  each : ∀ pages : List PageId, pages.Perm (t.lockedPages tx) →
    t.serveAll (pages.map (.release tx)) = (t.releaseAll tx).table
  /-- The order in which the pages of its list are met does not matter. -/
  listed : ∀ pages : List PageId, pages.Perm (t.lockedPages tx) → t.releaseListed tx pages = t.releaseAll tx
  gone : ∀ page, (t.releaseAll tx).table.mode? tx page = none
  unlisted : (t.releaseAll tx).table.held[tx]? = none ∧ (t.releaseAll tx).table.lockedPages tx = []
  /-- A request is granted if nobody else stood in its way. -/
  granted : ∀ tx' page mode, ((t.releaseAll tx).table.grant? tx' page mode).isSome ↔
    ∀ other, t.Forbids other tx' page mode → other = tx
  others : ∀ tx' page, tx' ≠ tx → (t.releaseAll tx).table.mode? tx' page = t.mode? tx' page
  lists : ∀ tx' : TxId, tx' ≠ tx → (t.releaseAll tx).table.held[tx']? = t.held[tx']?
  entries : ∀ page : PageId, t.holds tx page = false → (t.releaseAll tx).table.pages[page]? = t.pages[page]?

theorem Sound.letsGoOfAll (h : t.Sound) (tx : TxId) : t.LetsGoOfAll tx where
  each pages hp := h.releaseEach hp
  listed pages hp := (releaseListed_perm hp t).trans (releaseAll_eq t tx).symm
  gone page := by rw [mode?_releaseAll h, if_pos rfl]
  unlisted := by
    have hmodes : ∀ page, (t.releaseAll tx).table.mode? tx page = mode? {} tx page := by
      intro page
      rw [mode?_releaseAll h, if_pos rfl]
      rfl
    have hnone := h.releaseAll.held_eq sound_empty hmodes
    exact ⟨hnone.trans ExtTreeMap.getElem?_empty, lockedPages_releaseAll h⟩
  granted tx' page mode := h.grant?_releaseAll_iff
  others tx' page hne := mode?_releaseAll_of_ne hne
  lists tx' hne := h.releaseAll.held_eq h fun page => mode?_releaseAll_of_ne hne
  entries page hn := by
    refine h.releaseAll.entry_eq h fun tx' => ?_
    rw [mode?_releaseAll h]
    split
    · next ht =>
      subst ht
      exact (Option.not_isSome_iff_eq_none.1 (Bool.not_eq_true _ ▸ hn)).symm
    · rfl

/-- **To let go of all pages is to let go of each of them, in any order.** After any calls of anybody the same table
is made when a transaction lets go of everything, when it releases its pages one by one in any order, and when its
list is gone through in any order. It holds nothing then and is not listed. What only its locks stood in the way of is
granted. Everybody else holds the same pages in the same modes, and the entries of pages that it did not hold are as
they were. -/
theorem served_releaseAll (calls : List LockCall) (tx : TxId) : (serveAll {} calls).LetsGoOfAll tx := by
  have h : (serveAll {} calls).Sound := sound_empty.serveAll calls
  exact h.letsGoOfAll tx

end LockTable

end HeapStore
