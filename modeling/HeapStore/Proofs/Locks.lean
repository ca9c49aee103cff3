import HeapStore.Lock.Fault
import Mathlib.Logic.Basic
import Mathlib.Tactic.ByContra

/-!
# How pages are held

A lock table as a function from transactions and pages to the way they are held (`LockTable.mode?`).

* `LockTable.exclusive_alone`: a page that is held exclusively is held by nobody else.
* `LockTable.mode?_of_grant?`: **a grant changes how one transaction holds one page**, and never to less.
* `LockTable.isSome_grant?_iff`: a request is granted exactly when no other holder forbids it.
* `LockTable.Sound`: no page is listed without holders, and the pages of a transaction are listed exactly.
  Every operation keeps it.
* `LockTable.mode?_releaseAll`: **a transaction that lets go of all pages holds none**, and the others hold
  theirs as before.
-/

namespace HeapStore

open Std

theorem TxId.compare_eq_iff {a b : TxId} : compare a b = .eq ↔ a = b := Std.compare_eq_iff_eq

theorem PageId.compare_eq_iff {a b : PageId} : compare a b = .eq ↔ a = b := Std.compare_eq_iff_eq

/-- The mode in which a page is held after a grant. -/
def LockMode.after (old : Option LockMode) (mode : LockMode) : LockMode :=
  if old = some .exclusive then .exclusive else mode

namespace Hold

variable {tx tx' : TxId} {mode : LockMode} {hold hold' : Hold} {holders : ExtTreeSet TxId}

theorem mode?_shared : (shared holders).mode? tx = if tx ∈ holders then some .shared else none := rfl

theorem mode?_exclusive : (exclusive tx').mode? tx = if tx' = tx then some .exclusive else none := rfl

theorem mode?_single : (single tx mode).mode? tx' = if tx = tx' then some mode else none := by
  cases mode with
  | shared =>
    unfold single
    rw [mode?_shared]
    simp
  | exclusive => rfl

theorem grant?_exclusive : grant? tx mode (exclusive tx') = if tx' = tx then some (exclusive tx) else none := by
  cases mode <;> rfl

theorem grant?_shared : grant? tx .shared (shared holders) = some (shared (holders.insert tx)) := rfl

theorem grant?_upgrade : grant? tx .exclusive (shared holders) =
    if holders.size = 1 ∧ tx ∈ holders then some (exclusive tx) else none := rfl

theorem drop?_exclusive : drop? tx (exclusive tx') = if tx' = tx then none else some (exclusive tx') := rfl

theorem drop?_shared : drop? tx (shared holders) =
    if (holders.erase tx).isEmpty then none else some (shared (holders.erase tx)) := rfl

theorem exclusive_alone (h : hold.mode? tx = some .exclusive) (hne : tx' ≠ tx) : hold.mode? tx' = none := by
  cases hold with
  | shared holders =>
    rw [mode?_shared] at h
    split at h <;> cases h
  | exclusive holder =>
    rw [mode?_exclusive] at h ⊢
    split at h
    · next he => rw [if_neg (by rintro rfl; exact hne he)]
    · cases h

/-- The only holder of a page that is shared. -/
theorem sole_iff : holders.size = 1 ∧ tx ∈ holders ↔ tx ∈ holders ∧ ∀ tx' ∈ holders, tx' = tx := by
  constructor
  · intro h
    refine ⟨h.2, fun tx' hm => ?_⟩
    have he : holders.erase tx = ∅ := ExtTreeSet.erase_eq_empty_iff.2 (.inr h)
    have hn : ¬ tx' ∈ holders.erase tx := by rw [he]; exact ExtTreeSet.not_mem_empty
    rw [ExtTreeSet.mem_erase, ne_eq, TxId.compare_eq_iff] at hn
    by_contra hne
    exact hn ⟨fun he => hne he.symm, hm⟩
  · rintro ⟨hm, hall⟩
    have he : holders.erase tx = ∅ := by
      rw [ExtTreeSet.eq_empty_iff_forall_not_mem]
      intro tx' hm'
      rw [ExtTreeSet.mem_erase, ne_eq, TxId.compare_eq_iff] at hm'
      exact hm'.1 (hall tx' hm'.2).symm
    rcases ExtTreeSet.erase_eq_empty_iff.1 he with h | h
    · subst h
      exact absurd hm ExtTreeSet.not_mem_empty
    · exact h

theorem mode?_of_grant? (h : hold.grant? tx mode = some hold') :
    hold'.mode? tx' = if tx' = tx then some (.after (hold.mode? tx) mode) else hold.mode? tx' := by
  cases hold with
  | exclusive holder =>
    rw [grant?_exclusive] at h
    split at h
    · next he =>
      cases h
      subst he
      simp only [mode?_exclusive, if_true]
      by_cases ht : tx' = holder
      · rw [if_pos ht, if_pos ht.symm]
        rfl
      · rw [if_neg ht, if_neg (Ne.symm ht)]
    · cases h
  | shared holders =>
    cases mode with
    | shared =>
      rw [grant?_shared] at h
      cases h
      simp only [mode?_shared, ExtTreeSet.mem_insert, TxId.compare_eq_iff]
      by_cases ht : tx' = tx
      · subst ht
        rw [if_pos (.inl rfl), if_pos rfl]
        split <;> rfl
      · simp only [ht, Ne.symm ht, false_or, if_false]
    | exclusive =>
      rw [grant?_upgrade] at h
      split at h
      · -- only a sole reader is upgraded, so no other holder is left behind
        next hs =>
        cases h
        rw [mode?_exclusive, mode?_shared, mode?_shared]
        by_cases ht : tx' = tx
        · subst ht
          rw [if_pos rfl, if_pos rfl]
          split <;> rfl
        · rw [if_neg ht, if_neg (Ne.symm ht), if_neg (fun hm => ht ((sole_iff.1 hs).2 tx' hm))]
      · cases h

/-- The other holders of the page do not forbid a request. -/
def Allows (hold : Hold) (tx : TxId) (mode : LockMode) : Prop :=
  ∀ tx' ≠ tx, hold.mode? tx' = none ∨ mode = .shared ∧ hold.mode? tx' = some .shared

/-- A request is granted exactly when the other holders do not forbid it. -/
theorem isSome_grant?_iff (hne : ∀ holders, hold = shared holders → holders ≠ ∅) :
    (hold.grant? tx mode).isSome ↔ hold.Allows tx mode := by
  cases hold with
  | exclusive holder =>
    rw [grant?_exclusive]
    constructor
    · intro h tx' ht
      refine .inl ?_
      rw [mode?_exclusive, if_neg]
      rintro rfl
      rw [if_neg ht] at h
      cases h
    · intro h
      by_cases ht : holder = tx
      · rw [if_pos ht]
        rfl
      · have := h holder ht
        rw [mode?_exclusive, if_pos rfl] at this
        rcases this with h | ⟨-, h⟩ <;> cases h
  | shared holders =>
    -- holders of a shared page never stand in the way of a reader
    have hmode : ∀ tx', (shared holders).mode? tx' = none ∨ (shared holders).mode? tx' = some .shared := by
      intro tx'
      rw [mode?_shared]
      split
      · exact .inr rfl
      · exact .inl rfl
    cases mode with
    | shared => exact ⟨fun _ tx' _ => (hmode tx').imp_right fun h => ⟨rfl, h⟩, fun _ => rfl⟩
    | exclusive =>
      rw [grant?_upgrade]
      constructor
      · intro h tx' ht
        split at h
        · next hs =>
          refine .inl ?_
          rw [mode?_shared, if_neg (fun hm => ht ((sole_iff.1 hs).2 tx' hm))]
        · cases h
      · intro h
        have hall : ∀ tx' ∈ holders, tx' = tx := by
          intro tx' hm
          by_contra ht
          have := h tx' ht
          rw [mode?_shared, if_pos hm] at this
          rcases this with h | ⟨h, -⟩ <;> cases h
        -- a page that is listed as shared has a holder, and it can only be this transaction
        obtain ⟨tx', hm⟩ : ∃ tx', tx' ∈ holders := by
          by_contra hno
          exact hne holders rfl (ExtTreeSet.eq_empty_iff_forall_not_mem.2 fun a ha => hno ⟨a, ha⟩)
        have := hall tx' hm
        subst this
        rw [if_pos (sole_iff.2 ⟨hm, hall⟩)]
        rfl

theorem mode?_of_drop? : (hold.drop? tx).bind (mode? tx') = if tx' = tx then none else hold.mode? tx' := by
  cases hold with
  | shared holders =>
    have hm : ∀ a, a ∈ holders.erase tx ↔ tx ≠ a ∧ a ∈ holders := by
      intro a
      rw [ExtTreeSet.mem_erase, ne_eq, TxId.compare_eq_iff]
    rw [drop?_shared]
    split
    · next he =>
      rw [ExtTreeSet.isEmpty_iff, ExtTreeSet.eq_empty_iff_forall_not_mem] at he
      have := he tx'
      rw [hm, not_and_or, not_not] at this
      rw [mode?_shared]
      by_cases ht : tx' = tx
      · rw [if_pos ht]
        rfl
      · rw [if_neg ht, if_neg (this.resolve_left (Ne.symm ht))]
        rfl
    · simp only [Option.bind_some, mode?_shared, hm]
      by_cases ht : tx' = tx
      · rw [if_pos ht, if_neg (fun h => h.1 ht.symm)]
      · simp [ht, Ne.symm ht]
  | exclusive holder =>
    rw [drop?_exclusive, mode?_exclusive]
    by_cases hh : holder = tx
    · subst hh
      rw [if_pos rfl]
      by_cases ht : tx' = holder
      · rw [if_pos ht]
        rfl
      · rw [if_neg ht, if_neg (Ne.symm ht)]
        rfl
    · rw [if_neg hh]
      simp only [Option.bind_some, mode?_exclusive]
      by_cases ht : tx' = tx
      · rw [if_pos ht, if_neg (by rintro rfl; exact hh ht)]
      · rw [if_neg ht]

/-- Holders that are shared and left are some. -/
theorem ne_empty_of_drop? (hne : ∀ holders, hold = shared holders → holders ≠ ∅)
    (h : hold.drop? tx = some (shared holders)) : holders ≠ ∅ := by
  cases hold with
  | shared before =>
    rw [drop?_shared] at h
    split at h
    · cases h
    · next he =>
      cases h
      rwa [ExtTreeSet.isEmpty_iff] at he
  | exclusive holder =>
    rw [drop?_exclusive] at h
    split at h <;> cases h

theorem ne_empty_of_grant? (h : hold.grant? tx mode = some (shared holders)) : holders ≠ ∅ := by
  cases hold with
  | exclusive holder =>
    rw [grant?_exclusive] at h
    split at h <;> cases h
  | shared before =>
    cases mode with
    | shared =>
      cases h
      exact ExtTreeSet.insert_ne_empty
    | exclusive =>
      rw [grant?_upgrade] at h
      split at h <;> cases h

end Hold

namespace LockTable

variable {t t' : LockTable} {tx tx' : TxId} {page page' : PageId} {mode : LockMode} {hold : Hold}

theorem mode?_of_none (h : t.pages[page]? = none) : t.mode? tx page = none := by
  unfold mode?
  rw [h]
  rfl

theorem mode?_of_some (h : t.pages[page]? = some hold) : t.mode? tx page = hold.mode? tx := by
  unfold mode?
  rw [h]
  rfl

theorem exclusive_alone (h : t.mode? tx page = some .exclusive) (hne : tx' ≠ tx) :
    t.mode? tx' page = none := by
  cases hp : t.pages[page]? with
  | none => exact mode?_of_none hp
  | some hold =>
    rw [mode?_of_some hp] at h ⊢
    exact Hold.exclusive_alone h hne

theorem mode?_put (hold : Hold) :
    (t.put tx page hold).mode? tx' page' = if page' = page then hold.mode? tx' else t.mode? tx' page' := by
  unfold mode? put
  simp only [ExtTreeMap.getElem?_insert, PageId.compare_eq_iff, eq_comm (a := page)]
  split <;> rfl

/-- **A grant changes how one transaction holds one page.** -/
theorem mode?_of_grant? (h : t.grant? tx page mode = some t') :
    t'.mode? tx' page' =
      if tx' = tx ∧ page' = page then some (.after (t.mode? tx page) mode) else t.mode? tx' page' := by
  unfold grant? at h
  cases hp : t.pages[page]? with
  | none =>
    rw [hp] at h
    cases h
    have hn : ∀ a, t.mode? a page = none := fun _ => mode?_of_none hp
    rw [mode?_put, Hold.mode?_single]
    by_cases hpp : page' = page
    · subst hpp
      by_cases ht : tx' = tx
      · subst ht
        rw [if_pos rfl, if_pos rfl, if_pos ⟨rfl, rfl⟩, hn]
        rfl
      · rw [if_pos rfl, if_neg (Ne.symm ht), if_neg (fun h => ht h.1), hn]
    · rw [if_neg hpp, if_neg (fun h => hpp h.2)]
  | some hold =>
    rw [hp] at h
    obtain ⟨hold', hg, rfl⟩ := Option.map_eq_some_iff.1 h
    have hm : ∀ a, t.mode? a page = hold.mode? a := fun _ => mode?_of_some hp
    rw [mode?_put]
    by_cases hpp : page' = page
    · subst hpp
      rw [if_pos rfl, Hold.mode?_of_grant? hg, hm, hm]
      by_cases ht : tx' = tx
      · rw [if_pos ht, if_pos ⟨ht, rfl⟩]
      · rw [if_neg ht, if_neg (fun h => ht h.1)]
    · rw [if_neg hpp, if_neg (fun h => hpp h.2)]

/-- A page that was granted is held at least as it was asked for. -/
theorem mode?_granted (h : t.grant? tx page .exclusive = some t') : t'.mode? tx page = some .exclusive := by
  rw [mode?_of_grant? h, if_pos ⟨rfl, rfl⟩]
  unfold LockMode.after
  split <;> rfl

/-- Who holds a page exclusively is granted every request and goes on holding it so. -/
theorem exclusive_of_grant? (h : t.grant? tx page mode = some t') (hm : t.mode? tx' page' = some .exclusive) :
    t'.mode? tx' page' = some .exclusive := by
  rw [mode?_of_grant? h]
  split
  · next he =>
    rw [he.1, he.2] at hm
    rw [hm]
    rfl
  · exact hm

/-! ## Exact lists -/

/-- No page is shared by nobody. -/
def Occupied (t : LockTable) : Prop :=
  ∀ {page : PageId} {holders : ExtTreeSet TxId}, t.pages[page]? = some (.shared holders) → holders ≠ ∅

/-- No page is listed without holders, and every transaction is listed with exactly the pages that it
holds. -/
structure Sound (t : LockTable) : Prop where
  shared : t.Occupied
  listed : ∀ tx page, page ∈ t.held.getD tx {} ↔ (t.mode? tx page).isSome
  some_listed : ∀ {tx : TxId} {pages : ExtTreeSet PageId}, t.held[tx]? = some pages → pages ≠ ∅

theorem sound_empty : Sound {} where
  shared h := by simp at h
  listed tx page := by
    have hm : mode? {} tx page = none := rfl
    simp [hm]
  some_listed h := by simp at h

theorem Sound.mem_lockedPages (h : t.Sound) : page ∈ t.lockedPages tx ↔ (t.mode? tx page).isSome := by
  unfold lockedPages
  rw [ExtTreeSet.mem_toList]
  exact h.listed tx page

/-- The other holders of a page do not forbid a request. -/
def Allows (t : LockTable) (tx : TxId) (page : PageId) (mode : LockMode) : Prop :=
  ∀ tx' ≠ tx, t.mode? tx' page = none ∨ mode = .shared ∧ t.mode? tx' page = some .shared

/-- **A request is granted exactly when no other holder forbids it.** -/
theorem isSome_grant?_iff (h : t.Sound) : (t.grant? tx page mode).isSome ↔ t.Allows tx page mode := by
  unfold grant? Allows mode?
  cases hp : t.pages[page]? with
  | none => simp
  | some hold =>
    simp only [Option.isSome_map, Option.bind_some]
    exact Hold.isSome_grant?_iff fun holders hh => h.shared (hh ▸ hp)

theorem isSome_mode?_put {hold : Hold} (hh : (hold.mode? tx).isSome)
    (ho : ∀ tx' ≠ tx, hold.mode? tx' = t.mode? tx' page) (h : t.Sound) (a : TxId) (p : PageId) :
    p ∈ (t.put tx page hold).held.getD a {} ↔ ((t.put tx page hold).mode? a p).isSome := by
  rw [mode?_put]
  unfold put
  simp only [ExtTreeMap.getD_insert, TxId.compare_eq_iff]
  by_cases ha : tx = a
  · subst ha
    rw [if_pos rfl, ExtTreeSet.mem_insert, PageId.compare_eq_iff]
    by_cases hp : p = page
    · subst hp
      rw [if_pos rfl]
      exact ⟨fun _ => hh, fun _ => .inl rfl⟩
    · rw [if_neg hp, ← h.listed tx p]
      exact ⟨fun h => h.resolve_left (Ne.symm hp), .inr⟩
  · rw [if_neg ha, h.listed a p]
    by_cases hp : p = page
    · subst hp
      rw [if_pos rfl, ho a (Ne.symm ha)]
    · rw [if_neg hp]

theorem Sound.put {hold : Hold} (h : t.Sound) (hh : (hold.mode? tx).isSome)
    (ho : ∀ tx' ≠ tx, hold.mode? tx' = t.mode? tx' page)
    (hne : ∀ holders, hold = .shared holders → holders ≠ ∅) : (t.put tx page hold).Sound where
  shared {p holders} hp := by
    unfold LockTable.put at hp
    rw [ExtTreeMap.getElem?_insert] at hp
    split at hp
    · exact hne holders (Option.some.inj hp)
    · exact h.shared hp
  listed := isSome_mode?_put hh ho h
  some_listed {a pages} hp := by
    unfold LockTable.put at hp
    rw [ExtTreeMap.getElem?_insert] at hp
    split at hp
    · cases hp
      exact ExtTreeSet.insert_ne_empty
    · exact h.some_listed hp

theorem Sound.grant? (h : t.Sound) (hg : t.grant? tx page mode = some t') : t'.Sound := by
  unfold LockTable.grant? at hg
  cases hp : t.pages[page]? with
  | none =>
    rw [hp] at hg
    cases hg
    refine h.put (by rw [Hold.mode?_single, if_pos rfl]; rfl) (fun tx' ht => ?_) fun holders hs => ?_
    · rw [Hold.mode?_single, if_neg (Ne.symm ht), mode?_of_none hp]
    · cases mode with
      | shared =>
        cases hs
        exact ExtTreeSet.insert_ne_empty
      | exclusive => cases hs
  | some hold =>
    rw [hp] at hg
    obtain ⟨hold', hh, rfl⟩ := Option.map_eq_some_iff.1 hg
    refine h.put ?_ (fun tx' ht => ?_) fun holders hs => Hold.ne_empty_of_grant? (hs ▸ hh)
    · rw [Hold.mode?_of_grant? hh, if_pos rfl]
      rfl
    · rw [Hold.mode?_of_grant? hh, if_neg ht, mode?_of_some hp]

/-! ## Letting go of all pages -/

theorem mode?_dropHolder :
    (t.dropHolder tx page).mode? tx' page' = if tx' = tx ∧ page' = page then none else t.mode? tx' page' := by
  unfold dropHolder mode?
  simp only [ExtTreeMap.getElem?_alter, PageId.compare_eq_iff, eq_comm (a := page)]
  by_cases hp : page' = page
  · subst hp
    rw [if_pos rfl]
    cases t.pages[page']? with
    | none => simp
    | some hold =>
      rw [Option.bind_some, Hold.mode?_of_drop?, Option.bind_some]
      by_cases ht : tx' = tx
      · rw [if_pos ht, if_pos ⟨ht, rfl⟩]
      · rw [if_neg ht, if_neg (fun h => ht h.1)]
  · rw [if_neg hp, if_neg (fun h => hp h.2)]

theorem Occupied.dropHolder (h : t.Occupied) : (t.dropHolder tx page).Occupied := by
  intro p holders hp
  unfold LockTable.dropHolder at hp
  rw [ExtTreeMap.getElem?_alter] at hp
  split at hp
  · obtain ⟨hold, hb, hd⟩ := Option.bind_eq_some_iff.1 hp
    exact Hold.ne_empty_of_drop? (fun holders hs => h (hs ▸ hb)) hd
  · exact h hp

/-- The table without the transaction among the holders of some pages. -/
def dropEach (t : LockTable) (tx : TxId) (pages : List PageId) : LockTable :=
  pages.foldl (fun t page => t.dropHolder tx page) t

theorem dropEach_spec (tx : TxId) (pages : List PageId) : ∀ t : LockTable,
    (t.dropEach tx pages).held = t.held ∧
      (∀ tx' page', (t.dropEach tx pages).mode? tx' page' =
        if tx' = tx ∧ page' ∈ pages then none else t.mode? tx' page') ∧
      (t.Occupied → (t.dropEach tx pages).Occupied) := by
  induction pages with
  | nil =>
    intro t
    refine ⟨rfl, fun tx' page' => ?_, fun h => h⟩
    rw [if_neg (by simp)]
    rfl
  | cons page pages ih =>
    intro t
    obtain ⟨h1, h2, h3⟩ := ih (t.dropHolder tx page)
    refine ⟨h1, fun tx' page' => ?_, fun h => h3 h.dropHolder⟩
    have he : t.dropEach tx (page :: pages) = (t.dropHolder tx page).dropEach tx pages := rfl
    rw [he, h2, mode?_dropHolder]
    by_cases ht : tx' = tx <;> by_cases hp : page' ∈ pages <;> by_cases hpp : page' = page <;>
      simp [ht, hp, hpp]

theorem releaseAll_table (t : LockTable) (tx : TxId) :
    (t.releaseAll tx).table = if t.lockedPages tx = [] then t
      else { t.dropEach tx (t.lockedPages tx) with held := t.held.erase tx } := by
  unfold releaseAll
  cases hl : t.lockedPages tx with
  | nil => rfl
  | cons page pages =>
    have hh := (dropEach_spec tx (page :: pages) t).1
    rw [if_neg (List.cons_ne_nil _ _), ← hh]
    rfl

/-- The others hold their pages as before. -/
theorem mode?_releaseAll_of_ne (h : tx' ≠ tx) :
    (t.releaseAll tx).table.mode? tx' page = t.mode? tx' page := by
  rw [releaseAll_table]
  split
  · rfl
  · have := (dropEach_spec tx (t.lockedPages tx) t).2.1 tx' page
    rw [if_neg (fun hh => h hh.1)] at this
    exact this

/-- **A transaction that lets go of all pages holds none.** -/
theorem mode?_releaseAll (h : t.Sound) (tx tx' : TxId) (page : PageId) :
    (t.releaseAll tx).table.mode? tx' page = if tx' = tx then none else t.mode? tx' page := by
  by_cases ht : tx' = tx
  · subst ht
    rw [if_pos rfl, releaseAll_table]
    have hl : page ∈ t.lockedPages tx' ↔ _ := h.mem_lockedPages
    split
    · next hn =>
      rw [hn] at hl
      cases hm : t.mode? tx' page with
      | none => rfl
      | some mode => exact absurd (hl.2 (by rw [hm]; rfl)) List.not_mem_nil
    · have := (dropEach_spec tx' (t.lockedPages tx') t).2.1 tx' page
      have hm : mode? { t.dropEach tx' (t.lockedPages tx') with held := t.held.erase tx' } tx' page =
        (t.dropEach tx' (t.lockedPages tx')).mode? tx' page := rfl
      rw [hm, this]
      split
      · rfl
      · next hn =>
        cases hm : t.mode? tx' page with
        | none => rfl
        | some mode => exact absurd ⟨rfl, hl.2 (by rw [hm]; rfl)⟩ hn
  · rw [if_neg ht, mode?_releaseAll_of_ne ht]

theorem Sound.releaseAll (h : t.Sound) : (t.releaseAll tx).table.Sound := by
  have hm := mode?_releaseAll h tx
  obtain ⟨-, -, h3⟩ := dropEach_spec tx (t.lockedPages tx) t
  by_cases hl : t.lockedPages tx = []
  · rw [releaseAll_table, if_pos hl]
    exact h
  have he := releaseAll_table t tx
  rw [if_neg hl] at he
  refine ⟨?_, fun a page => ?_, ?_⟩
  · rw [he]
    exact h3 h.shared
  · rw [hm a page, he]
    simp only [ExtTreeMap.getD_erase, TxId.compare_eq_iff]
    by_cases ha : a = tx
    · subst ha
      rw [if_pos rfl, if_pos rfl]
      simp
    · rw [if_neg (Ne.symm ha), if_neg ha]
      exact h.listed a page
  · rw [he]
    intro a pages hp
    simp only [ExtTreeMap.getElem?_erase] at hp
    split at hp
    · cases hp
    · exact h.some_listed hp

theorem lockedPages_releaseAll (h : t.Sound) : (t.releaseAll tx).table.lockedPages tx = [] := by
  rw [List.eq_nil_iff_forall_not_mem]
  intro page
  rw [h.releaseAll.mem_lockedPages, mode?_releaseAll h, if_pos rfl]
  simp

end LockTable

end HeapStore
