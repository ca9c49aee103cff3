import HeapStore.Proofs.LockReleases

/-!
# Requests that sleep

A request that is denied sleeps until those who wait are woken, and then it is made again. Nobody looks after it in the
meantime, so a call after which it would be granted has to wake it.

* `LockTable.wakes`: the calls after which those who wait are woken. `Sound.wakes_release_iff` and
  `Sound.wakes_releaseAll_iff`: a release wakes them **if and only if it changes the table**.
* `LockTable.Sound.denied_of_grant`: **a grant makes no request possible** that was denied before it.
* `Sleepers`: the requests that sleep beside a table. `Sleepers.Idle.step` is one event: whoever sleeps is denied.
* `LockTable.served_wakes`: after any calls of anybody, **what a call makes possible it wakes**, and nobody ever sleeps
  who would be granted.
-/

namespace HeapStore

namespace LockTable

variable {t t' : LockTable} {tx tx' : TxId} {page page' : PageId} {mode mode' : LockMode} {c : LockCall}

/-! ## Which calls wake -/

/-- The call wakes those who wait. -/
def wakes (t : LockTable) : LockCall → Bool
  | .release tx page => (t.release tx page).wakes
  | .releaseAll tx => (t.releaseAll tx).wakes
  | .attempt .. | .acquire .. => false

theorem wakes_release (t : LockTable) (tx : TxId) (page : PageId) : (t.release tx page).wakes = t.holds tx page := by
  unfold release
  split
  · next h => exact h.symm
  · next h => exact (Bool.not_eq_true _ ▸ h).symm

theorem wakes_releaseAll (t : LockTable) (tx : TxId) :
    (t.releaseAll tx).wakes = true ↔ t.lockedPages tx ≠ [] := by
  rw [releaseAll_eq]
  cases t.lockedPages tx with
  | nil => exact ⟨nofun, fun h => absurd rfl h⟩
  | cons page pages => exact ⟨fun _ => List.cons_ne_nil _ _, fun _ => rfl⟩

/-- A release wakes those who wait if and only if it changes the table. -/
theorem wakes_release_iff (t : LockTable) (tx : TxId) (page : PageId) :
    (t.release tx page).wakes = true ↔ (t.release tx page).table ≠ t := by
  rw [wakes_release]
  constructor
  · intro h he
    have hgone := mode?_release t tx tx page page
    rw [he, if_pos ⟨rfl, rfl⟩] at hgone
    have hheld : (t.mode? tx page).isSome = true := h
    rw [hgone] at hheld
    cases hheld
  · intro h
    by_contra hn
    unfold release at h
    rw [if_neg hn] at h
    exact h rfl

/-- Letting go of all pages wakes those who wait if and only if it changes the table. -/
theorem Sound.wakes_releaseAll_iff (h : t.Sound) (tx : TxId) :
    (t.releaseAll tx).wakes = true ↔ (t.releaseAll tx).table ≠ t := by
  rw [wakes_releaseAll]
  constructor
  · intro hl he
    have hnone : (t.releaseAll tx).table.lockedPages tx = [] := lockedPages_releaseAll h
    rw [he] at hnone
    exact hl hnone
  · intro hc hl
    rw [releaseAll_eq, hl] at hc
    exact hc rfl

/-! ## What stays denied -/

/-- What others forbid they forbid when they hold the page more strongly. -/
theorem Allows.of_strength_le (hs : ∀ tx', LockMode.strength (t.mode? tx' page) ≤ LockMode.strength (t'.mode? tx' page))
    (h : t'.Allows tx page mode) : t.Allows tx page mode := by
  intro tx' hne
  have hle := hs tx'
  rcases h tx' hne with hnone | ⟨hmode, hshared⟩
  · rw [hnone] at hle
    generalize t.mode? tx' page = old at hle ⊢
    rcases old with _ | ⟨_ | _⟩
    · exact .inl rfl
    · exact absurd hle (by decide)
    · exact absurd hle (by decide)
  · rw [hshared] at hle
    generalize t.mode? tx' page = old at hle ⊢
    rcases old with _ | ⟨_ | _⟩
    · exact .inl rfl
    · exact .inr ⟨hmode, rfl⟩
    · exact absurd hle (by decide)

/-- **A grant makes no request possible** that was denied before it, whoever is granted what. -/
theorem Sound.denied_of_grant (h : t.Sound) (hd : t.grant? tx page mode = none)
    (hg : t.grant? tx' page' mode' = some t') : t'.grant? tx page mode = none := by
  rw [(h.grant? hg).grant?_eq_none_iff]
  rw [h.grant?_eq_none_iff] at hd
  exact fun ha => hd (ha.of_strength_le fun other => strength_le_of_grant? hg other page)

/-- A call that wakes nobody leaves denied what was denied. -/
theorem Sound.denied_of_silent (h : t.Sound) (hd : t.grant? tx page mode = none) (hw : t.wakes c = false) :
    (t.serve c).grant? tx page mode = none := by
  have hattempt : ∀ tx' page' mode', ((t.grant? tx' page' mode').getD t).grant? tx page mode = none := by
    intro tx' page' mode'
    cases hg : t.grant? tx' page' mode' with
    | none => exact hd
    | some t' => exact h.denied_of_grant hd hg
  cases c with
  | attempt tx' page' mode' => exact hattempt tx' page' mode'
  | acquire tx' page' mode' =>
    rw [serve_acquire]
    exact hattempt tx' page' mode'
  | release tx' page' =>
    have hsame : (t.release tx' page').table = t := by
      by_contra hc
      exact Bool.false_ne_true (hw.symm.trans ((wakes_release_iff t tx' page').2 hc))
    show (t.release tx' page').table.grant? tx page mode = none
    rw [hsame]
    exact hd
  | releaseAll tx' =>
    have hsame : (t.releaseAll tx').table = t := by
      by_contra hc
      exact Bool.false_ne_true (hw.symm.trans ((h.wakes_releaseAll_iff tx').2 hc))
    show (t.releaseAll tx').table.grant? tx page mode = none
    rw [hsame]
    exact hd

end LockTable

/-! ## Those who sleep -/

/-- Who asks for which page, and how. -/
structure LockRequest where
  tx : TxId
  page : PageId
  mode : LockMode
deriving DecidableEq

/-- The table, and the requests that sleep. -/
structure Sleepers where
  table : LockTable
  asleep : List LockRequest

/-- What happens to a table and to those who wait for it. -/
inductive LockEvent where
  /-- A request is made, and sleeps if it is denied. -/
  | ask (r : LockRequest)
  /-- Somebody makes a call. -/
  | call (c : LockCall)
  /-- A request wakes without being woken, by chance or because its time is up. -/
  | stir (r : LockRequest)

namespace Sleepers

variable {w : Sleepers}

def step (w : Sleepers) : LockEvent → Sleepers
  | .ask r =>
    match w.table.grant? r.tx r.page r.mode with
    | some t => { w with table := t }
    | none => { w with asleep := r :: w.asleep }
  | .call c => ⟨w.table.serve c, if w.table.wakes c then [] else w.asleep⟩
  | .stir r => { w with asleep := w.asleep.filter (· ≠ r) }

def run (w : Sleepers) : List LockEvent → Sleepers
  | [] => w
  | event :: events => (w.step event).run events

/-- Whoever sleeps would be denied. -/
structure Idle (w : Sleepers) : Prop where
  sound : w.table.Sound
  denied : ∀ r ∈ w.asleep, w.table.grant? r.tx r.page r.mode = none

theorem Idle.step (h : w.Idle) (event : LockEvent) : (w.step event).Idle := by
  cases event with
  | ask r =>
    unfold Sleepers.step
    simp only
    split
    · -- no grant makes possible what the others sleep for
      next t hg => exact ⟨h.sound.grant? hg, fun r' hm => h.sound.denied_of_grant (h.denied r' hm) hg⟩
    · next hd =>
      refine ⟨h.sound, fun r' hm => ?_⟩
      rcases List.mem_cons.1 hm with rfl | hm
      · exact hd
      · exact h.denied r' hm
  | call c =>
    refine ⟨h.sound.serve c, fun r hm => ?_⟩
    unfold Sleepers.step at hm
    simp only at hm
    split at hm
    · -- all are awake
      exact absurd hm List.not_mem_nil
    · next hw => exact h.sound.denied_of_silent (h.denied r hm) (Bool.not_eq_true _ ▸ hw)
  | stir r => exact ⟨h.sound, fun r' hm => h.denied r' (List.mem_filter.1 hm).1⟩

theorem Idle.run (events : List LockEvent) : ∀ {w : Sleepers}, w.Idle → (w.run events).Idle := by
  induction events with
  | nil => exact fun h => h
  | cons event events ih => exact fun h => ih (h.step event)

end Sleepers

namespace LockTable

/-- What makes a request possible wakes those who wait. -/
structure LosesNoWake (t : LockTable) : Prop where
  /-- If a call makes possible what was denied, it was a release that has woken those who wait. -/
  woken : ∀ tx page mode c, t.grant? tx page mode = none → (t.serve c).grant? tx page mode ≠ none →
    (∃ tx' page', c = .release tx' page' ∧ (t.release tx' page').wakes = true) ∨
      ∃ tx', c = .releaseAll tx' ∧ (t.releaseAll tx').wakes = true
  granting : ∀ tx page mode tx' page' mode' t', t.grant? tx page mode = none →
    t.grant? tx' page' mode' = some t' → t'.grant? tx page mode = none
  /-- A release that wakes nobody has changed nothing. -/
  release : ∀ tx page, (t.release tx page).wakes = true ↔ (t.release tx page).table ≠ t
  releaseAll : ∀ tx, (t.releaseAll tx).wakes = true ↔ (t.releaseAll tx).table ≠ t
  /-- Whatever happens afterwards, nobody sleeps who would be granted. -/
  asleep : ∀ events, ∀ r ∈ ((Sleepers.mk t []).run events).asleep,
    ((Sleepers.mk t []).run events).table.grant? r.tx r.page r.mode = none

theorem Sound.losesNoWake {t : LockTable} (h : t.Sound) : t.LosesNoWake where
  woken tx page mode c hd hg := by
    have hw : t.wakes c = true := by
      by_contra hn
      exact hg (h.denied_of_silent hd (Bool.not_eq_true _ ▸ hn))
    cases c with
    | attempt tx' page' mode' => cases hw
    | acquire tx' page' mode' => cases hw
    | release tx' page' => exact .inl ⟨tx', page', rfl, hw⟩
    | releaseAll tx' => exact .inr ⟨tx', rfl, hw⟩
  granting tx page mode tx' page' mode' t' hd hg := h.denied_of_grant hd hg
  release tx page := wakes_release_iff t tx page
  releaseAll tx := h.wakes_releaseAll_iff tx
  asleep events := by
    have hidle : (Sleepers.mk t []).Idle := ⟨h, fun r hm => absurd hm List.not_mem_nil⟩
    exact (hidle.run events).denied

/-- **No wake-up is lost.** After any calls of anybody, if one more call makes a request possible that was denied,
then that call is a release that wakes those who wait. No grant makes anything possible, and a release that wakes
nobody leaves the table as it is. So a request that sleeps without having been woken would still be denied, whatever
happens. -/
theorem served_wakes (calls : List LockCall) : (serveAll {} calls).LosesNoWake := by
  have h : (serveAll {} calls).Sound := sound_empty.serveAll calls
  exact h.losesNoWake

/-- The second reader of a page goes, and the first one may write it. -/
example : ((serveAll {} [.attempt ⟨1⟩ ⟨⟨1⟩, 0⟩ .shared, .attempt ⟨2⟩ ⟨⟨1⟩, 0⟩ .shared]).grant? ⟨1⟩ ⟨⟨1⟩, 0⟩
      .exclusive).isSome = false ∧
    ((serveAll {} [.attempt ⟨1⟩ ⟨⟨1⟩, 0⟩ .shared, .attempt ⟨2⟩ ⟨⟨1⟩, 0⟩ .shared, .release ⟨2⟩ ⟨⟨1⟩, 0⟩]).grant? ⟨1⟩
      ⟨⟨1⟩, 0⟩ .exclusive).isSome = true := by decide +kernel

end LockTable

end HeapStore
