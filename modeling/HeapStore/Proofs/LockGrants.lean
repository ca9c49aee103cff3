import HeapStore.Proofs.LockCalls

/-!
# Who is granted a page

A request is decided by the entry of its page alone, and it is written twice where a reader becomes a writer. What comes
of it can be said of the modes in which the transactions hold the page.

* `LockMode.strength`: not held, shared, exclusive. `LockMode.strength_after`: a grant gives the stronger one of the old
  mode and the one that is asked for.
* `LockTable.await`: a request that waits, while others make calls between its attempts. `LockTable.await_granted` and
  `LockTable.await_denied`: **it has done nothing but its last attempt**.
* `LockCall.LetsGo`: the calls that take a page from a transaction. `Sound.strength_le_serveAll`: **nothing else weakens
  the mode** in which it is held.
* `LockTable.served_compatible`: after any calls of anybody a request is granted **exactly when it is compatible** with
  the modes of the others.
-/

namespace HeapStore

/-- How strongly a page is held. -/
def LockMode.strength : Option LockMode → Nat
  | none => 0
  | some .shared => 1
  | some .exclusive => 2

theorem LockMode.strength_after (old : Option LockMode) (mode : LockMode) :
    strength (some (after old mode)) = max (strength old) (strength (some mode)) := by
  cases mode <;> rcases old with _ | ⟨_ | _⟩ <;> rfl

/-- The call takes the page from the transaction. -/
def LockCall.LetsGo (tx : TxId) (page : PageId) : LockCall → Prop
  | .release tx' page' => tx' = tx ∧ page' = page
  | .releaseAll tx' => tx' = tx
  | _ => False

namespace LockTable

variable {t t' : LockTable} {tx : TxId} {page : PageId} {mode : LockMode} {c : LockCall}

/-! ## One request -/

/-- Nobody else may hold a page that is asked for exclusively. -/
theorem allows_exclusive_iff : t.Allows tx page .exclusive ↔ ∀ tx' ≠ tx, t.mode? tx' page = none := by
  unfold Allows
  refine forall₂_congr fun tx' _ => ⟨fun h => h.resolve_right ?_, .inl⟩
  rintro ⟨hmode, -⟩
  cases hmode

/-- Nobody else may hold a page exclusively that is asked for shared. -/
theorem allows_shared_iff : t.Allows tx page .shared ↔ ∀ tx' ≠ tx, t.mode? tx' page ≠ some .exclusive := by
  unfold Allows
  refine forall₂_congr fun tx' _ => ?_
  rcases t.mode? tx' page with _ | ⟨_ | _⟩ <;> simp

theorem strength_of_grant? (h : t.grant? tx page mode = some t') :
    LockMode.strength (t'.mode? tx page) = max (LockMode.strength (t.mode? tx page)) (LockMode.strength (some mode)) := by
  rw [mode?_of_grant? h, if_pos ⟨rfl, rfl⟩, LockMode.strength_after]

/-- A grant weakens no mode of anybody. -/
theorem strength_le_of_grant? (h : t.grant? tx page mode = some t') (tx' : TxId) (page' : PageId) :
    LockMode.strength (t.mode? tx' page') ≤ LockMode.strength (t'.mode? tx' page') := by
  rw [mode?_of_grant? h]
  split
  · next he =>
    rw [he.1, he.2, LockMode.strength_after]
    exact Nat.le_max_left _ _
  · exact Nat.le_refl _

theorem acquire_granted (h : t.grant? tx page mode = some t') : t.acquire tx page mode = .ok t' := by
  unfold acquire
  rw [h]

theorem acquire_denied (h : t.grant? tx page mode = none) :
    t.acquire tx page mode = .error (.timeout tx page mode) := by
  unfold acquire
  rw [h]

/-! ## Requests that wait -/

/-- A request makes an attempt, and another one after each group of calls that others make, until one is granted or its
time is up. -/
def await (tx : TxId) (page : PageId) (mode : LockMode) :
    List (List LockCall) → LockTable → Except LockFault Unit × LockTable
  | [], t =>
    match t.acquire tx page mode with
    | .ok t' => (.ok (), t')
    | .error fault => (.error fault, t)
  | calls :: rounds, t =>
    match t.acquire tx page mode with
    | .ok t' => (.ok (), t')
    | .error _ => await tx page mode rounds (t.serveAll calls)

/-- The table that the others have made by the attempt with the given number. -/
def meanwhile (t : LockTable) (rounds : List (List LockCall)) (n : Nat) : LockTable :=
  (rounds.take n).foldl serveAll t

/-- What comes first is now, or later. -/
theorem exists_first_succ {now before : Nat → Prop} {m : Nat} : (∃ n ≤ m + 1, now n ∧ ∀ k < n, before k) ↔
    now 0 ∨ before 0 ∧ ∃ n ≤ m, now (n + 1) ∧ ∀ k < n, before (k + 1) := by
  constructor
  · rintro ⟨n, hn, h, hbefore⟩
    cases n with
    | zero => exact .inl h
    | succ n =>
      exact .inr ⟨hbefore 0 n.succ_pos, n, Nat.le_of_succ_le_succ hn, h, fun k hk => hbefore _ (Nat.succ_lt_succ hk)⟩
  · rintro (h | ⟨h0, n, hn, h, hbefore⟩)
    · exact ⟨0, Nat.zero_le _, h, fun k hk => absurd hk k.not_lt_zero⟩
    · refine ⟨n + 1, Nat.succ_le_succ hn, h, fun k hk => ?_⟩
      cases k with
      | zero => exact h0
      | succ k => exact hbefore k (Nat.lt_of_succ_lt_succ hk)

/-- **A request that is granted after some time** was granted at one attempt and denied at those before it. -/
theorem await_granted (rounds : List (List LockCall)) : ∀ {t : LockTable},
    await tx page mode rounds t = (.ok (), t') ↔ ∃ n ≤ rounds.length,
      (t.meanwhile rounds n).grant? tx page mode = some t' ∧
        ∀ k < n, (t.meanwhile rounds k).grant? tx page mode = none := by
  induction rounds with
  | nil =>
    intro t
    have hnow : await tx page mode [] t = (.ok (), t') ↔ t.grant? tx page mode = some t' := by
      unfold await acquire
      cases t.grant? tx page mode <;> simp
    rw [hnow]
    constructor
    · exact fun h => ⟨0, Nat.le_refl _, h, fun _ hk => absurd hk (Nat.not_lt_zero _)⟩
    · rintro ⟨n, hn, h, -⟩
      obtain rfl : n = 0 := Nat.le_zero.1 hn
      exact h
  | cons calls rounds ih =>
    intro t
    rw [List.length_cons, exists_first_succ]
    -- the first attempt is made at the table as it is, and the later ones after the first round
    show _ ↔ t.grant? tx page mode = some t' ∨ t.grant? tx page mode = none ∧ ∃ n ≤ rounds.length,
      ((t.serveAll calls).meanwhile rounds n).grant? tx page mode = some t' ∧
        ∀ k < n, ((t.serveAll calls).meanwhile rounds k).grant? tx page mode = none
    cases hg : t.grant? tx page mode with
    | some t'' =>
      have hnow : await tx page mode (calls :: rounds) t = (.ok (), t'') := by rw [await, acquire_granted hg]
      simp [hnow]
    | none =>
      have hlater : await tx page mode (calls :: rounds) t = await tx page mode rounds (t.serveAll calls) := by
        rw [await, acquire_denied hg]
      rw [hlater, ih]
      simp

/-- **A request whose time is up** was denied at every attempt, and leaves the table as the others have made it. -/
theorem await_denied (rounds : List (List LockCall)) : ∀ {t : LockTable} {fault : LockFault},
    await tx page mode rounds t = (.error fault, t') → fault = .timeout tx page mode ∧
      t' = t.meanwhile rounds rounds.length ∧
        ∀ n ≤ rounds.length, (t.meanwhile rounds n).grant? tx page mode = none := by
  induction rounds with
  | nil =>
    intro t fault h
    unfold await at h
    cases hg : t.grant? tx page mode with
    | some t'' =>
      rw [acquire_granted hg] at h
      cases h
    | none =>
      rw [acquire_denied hg] at h
      cases h
      refine ⟨rfl, rfl, fun n hn => ?_⟩
      obtain rfl : n = 0 := Nat.le_zero.1 hn
      exact hg
  | cons calls rounds ih =>
    intro t fault h
    unfold await at h
    cases hg : t.grant? tx page mode with
    | some t'' =>
      rw [acquire_granted hg] at h
      cases h
    | none =>
      rw [acquire_denied hg] at h
      obtain ⟨hfault, ht, hnone⟩ := ih h
      refine ⟨hfault, ht, fun n hn => ?_⟩
      cases n with
      | zero => exact hg
      | succ n => exact hnone n (Nat.le_of_succ_le_succ hn)

/-! ## Modes over time -/

/-- **Nothing but letting go weakens the mode** in which a page is held. -/
theorem Sound.strength_le_serve (h : t.Sound) (hc : ¬ c.LetsGo tx page) :
    LockMode.strength (t.mode? tx page) ≤ LockMode.strength ((t.serve c).mode? tx page) := by
  have hattempt : ∀ tx' page' mode, LockMode.strength (t.mode? tx page) ≤
      LockMode.strength (((t.grant? tx' page' mode).getD t).mode? tx page) := by
    intro tx' page' mode
    cases hg : t.grant? tx' page' mode with
    | none => exact Nat.le_refl _
    | some t' => exact strength_le_of_grant? hg tx page
  cases c with
  | attempt tx' page' mode => exact hattempt tx' page' mode
  | acquire tx' page' mode =>
    rw [serve_acquire]
    exact hattempt tx' page' mode
  | release tx' page' =>
    have hne : ¬ (tx = tx' ∧ page = page') := fun he => hc ⟨he.1.symm, he.2.symm⟩
    have hsame := (mode?_release t tx' tx page' page).trans (if_neg hne)
    exact Nat.le_of_eq (congrArg LockMode.strength hsame.symm)
  | releaseAll tx' =>
    have hne : tx ≠ tx' := fun he => hc he.symm
    have hsame := (mode?_releaseAll h tx' tx page).trans (if_neg hne)
    exact Nat.le_of_eq (congrArg LockMode.strength hsame.symm)

theorem Sound.strength_le_serveAll (calls : List LockCall) (hc : ∀ c ∈ calls, ¬ c.LetsGo tx page) :
    ∀ {t : LockTable}, t.Sound →
      LockMode.strength (t.mode? tx page) ≤ LockMode.strength ((t.serveAll calls).mode? tx page) := by
  induction calls with
  | nil => exact fun _ => Nat.le_refl _
  | cons c calls ih =>
    intro t h
    have hfirst := h.strength_le_serve (hc c List.mem_cons_self)
    exact Nat.le_trans hfirst (ih (fun c hm => hc c (List.mem_cons_of_mem _ hm)) (h.serve c))

/-- How requests of a transaction for a page are decided, and what becomes of its mode. -/
structure Decides (t : LockTable) (tx : TxId) (page : PageId) : Prop where
  exclusive : (t.grant? tx page .exclusive).isSome ↔ ∀ tx' ≠ tx, t.mode? tx' page = none
  shared : (t.grant? tx page .shared).isSome ↔ ∀ tx' ≠ tx, t.mode? tx' page ≠ some .exclusive
  /-- A grant gives the stronger mode, and nobody has another mode anywhere else. -/
  granted : ∀ mode t', t.grant? tx page mode = some t' →
    LockMode.strength (t'.mode? tx page) =
        max (LockMode.strength (t.mode? tx page)) (LockMode.strength (some mode)) ∧
      ∀ tx' page', ¬ (tx' = tx ∧ page' = page) → t'.mode? tx' page' = t.mode? tx' page'
  /-- A writer may ask to read, and goes on as a writer. -/
  keeps : t.mode? tx page = some .exclusive →
    ∃ t', t.grant? tx page .shared = some t' ∧ t'.mode? tx page = some .exclusive
  /-- The only reader of a page becomes its writer at once. -/
  upgrades : t.mode? tx page = some .shared → (∀ tx' ≠ tx, t.mode? tx' page = none) →
    ∃ t', t.grant? tx page .exclusive = some t' ∧ t'.mode? tx page = some .exclusive
  /-- An attempt that is denied changes nothing. -/
  denied : ∀ mode, t.grant? tx page mode = none →
    t.acquire tx page mode = .error (.timeout tx page mode) ∧ t.serve (.attempt tx page mode) = t ∧
      t.serve (.acquire tx page mode) = t
  /-- A request that waits is granted at the first attempt at which it is compatible, and does nothing else. -/
  waits : ∀ mode rounds t', await tx page mode rounds t = (.ok (), t') ↔ ∃ n ≤ rounds.length,
    (t.meanwhile rounds n).grant? tx page mode = some t' ∧
      ∀ k < n, ¬ (t.meanwhile rounds k).Allows tx page mode
  /-- It times out if it never is, and then it has changed nothing. -/
  timesOut : ∀ mode rounds fault t', await tx page mode rounds t = (.error fault, t') →
    fault = .timeout tx page mode ∧ t' = t.meanwhile rounds rounds.length ∧
      ∀ n ≤ rounds.length, ¬ (t.meanwhile rounds n).Allows tx page mode
  /-- The mode is weakened by letting go only. -/
  lasting : ∀ calls, (∀ c ∈ calls, ¬ LockCall.LetsGo tx page c) →
    LockMode.strength (t.mode? tx page) ≤ LockMode.strength ((t.serveAll calls).mode? tx page)

theorem Sound.meanwhile (h : t.Sound) (rounds : List (List LockCall)) (n : Nat) : (t.meanwhile rounds n).Sound := by
  unfold LockTable.meanwhile
  generalize rounds.take n = rounds
  induction rounds generalizing t with
  | nil => exact h
  | cons calls rounds ih => exact ih (h.serveAll calls)

/-- What is denied is forbidden by another holder. -/
theorem Sound.grant?_eq_none_iff (h : t.Sound) : t.grant? tx page mode = none ↔ ¬ t.Allows tx page mode := by
  rw [← isSome_grant?_iff h, Option.not_isSome_iff_eq_none]

theorem Sound.decides (h : t.Sound) (tx : TxId) (page : PageId) : t.Decides tx page where
  exclusive := (isSome_grant?_iff h).trans allows_exclusive_iff
  shared := (isSome_grant?_iff h).trans allows_shared_iff
  granted mode t' hg := by
    refine ⟨strength_of_grant? hg, fun tx' page' hne => ?_⟩
    rw [mode?_of_grant? hg, if_neg hne]
  keeps hx := by
    have hallow : t.Allows tx page .shared := by
      intro tx' hne
      exact .inl (exclusive_alone hx hne)
    obtain ⟨t', hg⟩ := Option.isSome_iff_exists.1 ((isSome_grant?_iff h).2 hallow)
    exact ⟨t', hg, exclusive_of_grant? hg hx⟩
  upgrades _ halone := by
    obtain ⟨t', hg⟩ := Option.isSome_iff_exists.1 ((isSome_grant?_iff h).2 (allows_exclusive_iff.2 halone))
    exact ⟨t', hg, mode?_granted hg⟩
  denied mode hg := by
    rw [serve_attempt, serve_acquire, hg]
    exact ⟨acquire_denied hg, rfl, rfl⟩
  waits mode rounds t' := by
    rw [await_granted]
    simp only [(h.meanwhile rounds _).grant?_eq_none_iff]
  timesOut mode rounds fault t' hw := by
    obtain ⟨hfault, ht, hnone⟩ := await_denied rounds hw
    exact ⟨hfault, ht, fun n hn => (h.meanwhile rounds n).grant?_eq_none_iff.1 (hnone n hn)⟩
  lasting calls hc := Sound.strength_le_serveAll calls hc h

/-- **After any calls of anybody a lock is granted exactly when it is compatible.** A page that is asked for exclusively
is granted if nobody else holds it, and one that is asked for shared if nobody else holds it exclusively. The transaction
then has the stronger one of its old mode and the new one, and all others have theirs. A request that is denied has
changed nothing, also if it has waited. What a transaction holds is weakened by nothing but its own letting go. -/
theorem served_compatible (calls : List LockCall) (tx : TxId) (page : PageId) :
    (serveAll {} calls).Decides tx page := by
  have h : (serveAll {} calls).Sound := sound_empty.serveAll calls
  exact h.decides tx page

end LockTable

end HeapStore
