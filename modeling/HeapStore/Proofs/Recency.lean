import HeapStore.Proofs.Eviction

/-!
# The most recent pages

As long as nobody reads a copy and none is changed the list of copies is what the fetches have made of it.

* `PageId.recent`: the pages of a log, the newest first, each once.
* `Engine.visitsAll`: the pages that calls have fetched. `Engine.Recalls`: **the list shows the most recent of them**, as
  many as it has room for.
* `Engine.Twin`: engines that differ in the room of their caches only. **What they fetch is the same.**
* `Engine.evicts_least_recent`: all of this, whatever has been asked of the engine before.
-/

namespace HeapStore

/-! ## Logs -/

/-- The pages of a log, the newest first, each once. -/
def PageId.recent : List PageId → List PageId
  | [] => []
  | id :: log => id :: (recent log).erase id

theorem PageId.recent_of_nodup {log : List PageId} (h : log.Nodup) : recent log = log := by
  induction log with
  | nil => rfl
  | cons id log ih =>
    obtain ⟨hn, hlog⟩ := List.nodup_cons.1 h
    unfold recent
    rw [ih hlog, List.erase_of_not_mem hn]

/-- It does not matter whether a list is cut before an element is put in front or only afterwards. -/
theorem take_cons_erase {α : Type} [DecidableEq α] (a : α) (l : List α) (n : Nat) :
    (a :: (l.take n).erase a).take n = (a :: l.erase a).take n := by
  cases n with
  | zero => rfl
  | succ n =>
    rw [List.take_succ_cons, List.take_succ_cons]
    congr 1
    have hsplit : l.erase a = if a ∈ l.take (n + 1) then (l.take (n + 1)).erase a ++ l.drop (n + 1)
        else l.take (n + 1) ++ (l.drop (n + 1)).erase a := by
      rw [← List.erase_append, List.take_append_drop]
    rw [hsplit]
    split
    · next hm =>
      -- one of the first elements goes, so those that are left are at least `n` or all
      have hlen := List.length_erase_of_mem hm
      rw [List.length_take] at hlen
      rcases Nat.lt_or_ge n l.length with hn | hn
      · rw [List.take_append_of_le_length (by omega)]
      · rw [List.drop_of_length_le (by omega), List.append_nil]
    · next hm =>
      rw [List.erase_of_not_mem hm]
      rcases Nat.lt_or_ge n l.length with hn | hn
      · rw [List.take_append_of_le_length (by rw [List.length_take]; omega)]
      · rw [List.drop_of_length_le (by omega), List.erase_nil, List.append_nil]

/-! ## Pages that are fetched -/

/-- Calls that only fetch pages. -/
def Call.Reads : Call → Prop
  | begin => True
  | fetch _ _ _ => True
  | scan _ _ => True
  | step _ => True
  | _ => False

namespace Scan

/-- The pages that a step fetches, one after another. -/
def visits (s : Scan) (e : Engine) : List PageId :=
  if s.done then []
  else if s.pageCount ≤ s.number then []
  else match e.fetch s.tx (s.file.pageId s.number) .shared with
    | (.error _, _) => []
    | (.ok f, e) =>
      match recordFrom? f.page s.slot with
      | some _ => [s.file.pageId s.number]
      | none => s.file.pageId s.number :: visits { s with number := s.number + 1, slot := 0 } e
termination_by s.pageCount - s.number

/-- The pages that some steps fetch. -/
def visitsAll : (n : Nat) → Scan → Engine → List PageId
  | 0, _, _ => []
  | n + 1, s, e =>
    match s.next e with
    | (none, _, _) => s.visits e
    | (some _, s', e') => s.visits e ++ visitsAll n s' e'

end Scan

namespace Engine

variable {e e' f : Engine} {tx : TxId} {id : PageId} {mode : LockMode} {fault : AccessFault} {a : Frame}
  {log : List PageId} {c : Call}

/-- The pages that a call fetches, one after another. -/
def visits (e : Engine) : Call → List PageId
  | .fetch tx id mode =>
    match (e.fetch tx id mode).1 with
    | .ok _ => [id]
    | .error _ => []
  | .scan tx table =>
    match Scan.ofTable e tx table with
    | .ok s => s.visitsAll s.bound e
    | .error _ => []
  | .step s => s.visits e
  | _ => []

/-- The pages that some calls fetch. -/
def visitsAll (e : Engine) : List Call → List PageId
  | [] => []
  | c :: calls => e.visits c ++ (e.call c).2.visitsAll calls

/-- Nobody reads a copy and none is changed, and the list shows the newest pages of a log. -/
structure Recalls (log : List PageId) (e : Engine) : Prop where
  filled : e.cache.Filled
  unguarded : e.cache.guarded = []
  clean : ∀ f ∈ e.cache.frames, f.page.dirty = none
  pages : e.cache.pages = (PageId.recent log).take e.cache.capacity

theorem Recalls.of_cache (h : Recalls log e) (hc : e'.cache = e.cache) : Recalls log e' where
  filled := hc ▸ h.filled
  unguarded := hc ▸ h.unguarded
  clean := hc ▸ h.clean
  pages := hc ▸ h.pages

/-- The end of a transaction that has changed nothing drops nothing. -/
theorem complete_clean (h : ∀ f ∈ e.cache.frames, f.page.dirty = none) (tx : TxId) :
    e.complete tx false = (.ok (), e.unlockAll tx) := by
  have hnone : e.cache.owned tx = [] := by
    unfold Cache.owned
    rw [List.map_eq_nil_iff, List.filter_eq_nil_iff]
    intro f hf ho
    rw [Frame.ownedBy_iff, h f hf] at ho
    cases ho
  unfold complete discardPages
  rw [hnone]
  rfl

theorem Loading.guarded {o : Outcome AccessFault Frame} (h : Loading e id o) :
    o.2.cache.guarded = e.cache.guarded := by cases h <;> rfl

/-- **Where all copies may go the one at the back goes**: the page comes to the front, and the list is cut to its length. -/
theorem Loading.pages (h : Loading e id (.ok a, e')) (hfill : e.cache.Filled) (hfill' : e'.cache.Filled)
    (hcap : e'.cache.capacity = e.cache.capacity) (hidle : ∀ f ∈ e.cache.frames, e.cache.Idle f) :
    e'.cache.pages = (id :: e.cache.pages.erase id).take e.cache.capacity := by
  have hbound : e'.cache.pages.length ≤ e.cache.capacity := hcap ▸ (List.length_map _).trans_le hfill'.bounded
  cases h with
  | @used front back f hsplit hid =>
    have herase : e.cache.pages.erase id = (front ++ back).map fun f => f.page.id := by
      rw [hfill.nodup.erase_eq_filter, ← Cache.filter_not_isOf hfill.nodup hsplit, hid, Cache.pages, List.filter_map]
      rfl
    rw [herase, ← hid]
    exact (List.take_of_length_le hbound).symm
  | read hn hs hroom =>
    rw [List.erase_of_not_mem hn, ← id_of_stored hs]
    exact (List.take_of_length_le hbound).symm
  | @replaced front back f page hn hs hfull hl =>
    have hpid := id_of_stored hs
    have hframes : e.cache.frames = front ++ f :: back := hl.frames
    have hback : back = [] := by
      rw [List.eq_nil_iff_forall_not_mem]
      intro g hg
      refine hl.behind g hg (hidle g ?_)
      rw [hframes]
      exact List.mem_append_right _ (List.mem_cons_of_mem _ hg)
    subst hback
    have hlen := hfull
    have hle := hfill.bounded
    rw [hframes, List.length_append, List.length_singleton] at hlen hle
    have hpages : e.cache.pages = front.map (fun f => f.page.id) ++ [f.page.id] := by
      unfold Cache.pages
      rw [hframes, List.map_append]
      rfl
    show page.id :: (front ++ []).map (fun f : Frame => f.page.id) = _
    rw [List.append_nil, List.erase_of_not_mem hn, hpages, ← List.cons_append, List.take_left' (by simp; omega), hpid]

/-- **A page that is fetched is the newest one of the log.** -/
theorem Recalls.fetch_ok (h : Recalls log e) (hf : e.fetch tx id mode = (.ok a, e')) : Recalls (id :: log) e' := by
  have hclean := calm_clean.fetch h.clean tx id mode
  have hpin := (ongoing_pinned e.cache).fetch (Pinned.refl h.filled) tx id mode
  cases hg : e.locks.grant? tx id mode with
  | none =>
    rw [fetch_denied hg] at hf
    cases hf
  | some locks =>
    have hload := fetch_loading h.filled.nodup hg
    rw [hf] at hclean hpin hload
    obtain ⟨⟨hfill, hdesc⟩, -⟩ : Pinned e.cache e' := hpin
    have hpages := hload.pages h.filled hfill hdesc.capacity fun f hm => (Cache.idle_iff h.unguarded).2 (h.clean f hm)
    refine ⟨hfill, hload.guarded.trans h.unguarded, hclean, ?_⟩
    rw [hdesc.capacity, hpages]
    show (id :: e.cache.pages.erase id).take e.cache.capacity = _
    rw [h.pages, take_cons_erase]
    rfl

/-- A page that is not fetched leaves the list. -/
theorem Recalls.fetch_error (h : Recalls log e) (hf : e.fetch tx id mode = (.error fault, e')) : Recalls log e' := by
  cases hg : e.locks.grant? tx id mode with
  | none =>
    rw [fetch_denied hg, complete_clean h.clean] at hf
    cases hf
    exact h.of_cache rfl
  | some locks =>
    have hload := fetch_loading h.filled.nodup hg
    rw [hf] at hload
    rw [hload.of_error]
    exact h.of_cache rfl

theorem Recalls.next (s : Scan) (e : Engine) : ∀ {log : List PageId}, Recalls log e →
    Recalls ((s.visits e).reverse ++ log) (s.next e).2.2 := by
  induction s, e using Scan.next.induct with
  | case1 s e hd =>
    intro log h
    unfold Scan.next Scan.visits
    rw [if_pos hd, if_pos hd]
    exact h
  | case2 s e hd hn =>
    intro log h
    unfold Scan.next Scan.visits
    rw [if_neg hd, if_neg hd, if_pos hn, if_pos hn]
    exact h
  | case3 s e hd hn fault e' hf =>
    intro log h
    unfold Scan.next Scan.visits
    rw [if_neg hd, if_neg hd, if_neg hn, if_neg hn, hf]
    exact h.fetch_error hf
  | case4 s e hd hn f e' hf slot r hr =>
    intro log h
    unfold Scan.next Scan.visits
    rw [if_neg hd, if_neg hd, if_neg hn, if_neg hn, hf]
    simp only [hr]
    exact h.fetch_ok hf
  | case5 s e hd hn f e' hf hr ih =>
    intro log h
    have hrest := ih (h.fetch_ok hf)
    unfold Scan.next Scan.visits
    rw [if_neg hd, if_neg hd, if_neg hn, if_neg hn, hf]
    simp only [hr]
    rw [List.reverse_cons, List.append_assoc]
    exact hrest

theorem Recalls.items (n : Nat) : ∀ (s : Scan) {e : Engine} {log : List PageId}, Recalls log e →
    Recalls ((s.visitsAll n e).reverse ++ log) (Scan.items n s e).2.2 := by
  induction n with
  | zero => exact fun _ _ _ h => h
  | succ n ih =>
    intro s e log h
    have hstep := Recalls.next s e h
    unfold Scan.items Scan.visitsAll
    cases hn : s.next e with
    | mk item rest =>
      obtain ⟨s', e'⟩ := rest
      rw [hn] at hstep
      cases item with
      | none => exact hstep
      | some item =>
        simp only
        rw [List.reverse_append, List.append_assoc]
        exact ih s' hstep

theorem Recalls.call (h : Recalls log e) (hc : c.Reads) :
    Recalls ((e.visits c).reverse ++ log) (e.call c).2 := by
  cases c with
  | begin => exact h.of_cache rfl
  | fetch tx id mode =>
    show Recalls _ (e.fetch tx id mode).2
    simp only [visits]
    cases hf : e.fetch tx id mode with
    | mk result e' =>
      cases result with
      | ok a => exact h.fetch_ok hf
      | error fault => exact h.fetch_error hf
  | scan tx table =>
    show Recalls _ (e.scan tx table).2
    simp only [visits, scan]
    cases Scan.ofTable e tx table with
    | error fault => exact h
    | ok s => exact h.items s.bound s
  | step s => exact h.next s e
  | _ => exact hc.elim

theorem Recalls.run (calls : List Call) (hc : ∀ c ∈ calls, c.Reads) : ∀ {e : Engine} {log : List PageId},
    Recalls log e → Recalls ((e.visitsAll calls).reverse ++ log) (e.run calls) := by
  induction calls with
  | nil => exact fun h => h
  | cons c calls ih =>
    intro e log h
    have hrest := ih (fun c hm => hc c (List.mem_cons_of_mem _ hm)) (h.call (hc c List.mem_cons_self))
    unfold visitsAll
    rw [List.reverse_append, List.append_assoc]
    exact hrest

/-! ## Caches with different room -/

/-- Nobody reads a copy, there is room for one, and all of them are as the files have them. -/
structure Pristine (e : Engine) : Prop where
  filled : e.cache.Filled
  unguarded : e.cache.guarded = []
  room : 0 < e.cache.capacity
  stored : ∀ f ∈ e.cache.frames, e.stored f.page.id = .ok f.page

theorem Pristine.clean (h : Pristine e) : ∀ f ∈ e.cache.frames, f.page.dirty = none :=
  fun f hf => clean_of_stored (h.stored f hf)

/-- **What is fetched is what the files have**, whichever copies there are. -/
theorem Pristine.load (h : Pristine e) (id : PageId) :
    (e.load id).1.map Frame.page = e.stored id ∧ Pristine (e.load id).2 ∧
      ∃ cache, (e.load id).2 = { e with cache } := by
  have hfill := (ongoing_pinned e.cache).load (Pinned.refl h.filled) id
  have hload := load_loading h.filled.nodup id
  cases hr : e.load id with
  | mk result e' =>
  rw [hr] at hfill hload
  cases hload with
  | @used front back f hsplit hid =>
    have hm : ∀ g ∈ f :: (front ++ back), g ∈ e.cache.frames := by
      rw [hsplit]
      exact fun g hg => List.perm_middle.mem_iff.2 hg
    refine ⟨?_, ⟨hfill.1.1, h.unguarded, h.room, fun g hg => h.stored g (hm g hg)⟩, _, rfl⟩
    rw [← hid]
    exact (h.stored f (hm f List.mem_cons_self)).symm
  | read hn hs hroom =>
    refine ⟨hs.symm, ⟨hfill.1.1, h.unguarded, h.room, fun g hg => ?_⟩, _, rfl⟩
    rcases List.mem_cons.1 hg with rfl | hg
    · rw [id_of_stored hs]
      exact hs
    · exact h.stored g hg
  | @replaced front back f page hn hs hfull hl =>
    refine ⟨hs.symm, ⟨hfill.1.1, h.unguarded, h.room, fun g hg => ?_⟩, _, rfl⟩
    rcases List.mem_cons.1 hg with rfl | hg
    · rw [id_of_stored hs]
      exact hs
    · refine h.stored g ?_
      rw [hl.frames]
      exact List.perm_middle.mem_iff.2 (List.mem_cons_of_mem _ hg)
  | crowded hn hs hfull hall =>
    -- a full cache with room has a copy, which is clean
    obtain ⟨f, hf⟩ := List.exists_mem_of_length_pos (Nat.lt_of_lt_of_le h.room hfull)
    exact absurd ((Cache.idle_iff h.unguarded).2 (h.clean f hf)) (hall f hf)
  | unread hn hs => exact ⟨hs.symm, h, _, rfl⟩

/-- Engines that differ in their caches only, both of which are as the files have them. -/
structure Twin (e f : Engine) : Prop where
  left : Pristine e
  right : Pristine f
  same : ∃ cache, f = { e with cache }

theorem Twin.fetch (h : Twin e f) (tx : TxId) (id : PageId) (mode : LockMode) :
    (e.fetch tx id mode).1.map Frame.page = (f.fetch tx id mode).1.map Frame.page ∧
      Twin (e.fetch tx id mode).2 (f.fetch tx id mode).2 := by
  obtain ⟨hl, hr, cache, rfl⟩ := h
  cases hg : e.locks.grant? tx id mode with
  | none =>
    rw [fetch_denied hg, fetch_denied (e := { e with cache }) hg, complete_clean hl.clean,
      complete_clean (e := { e with cache }) hr.clean]
    exact ⟨rfl, ⟨hl.filled, hl.unguarded, hl.room, hl.stored⟩, ⟨hr.filled, hr.unguarded, hr.room, hr.stored⟩,
      cache, rfl⟩
  | some locks =>
    have hl' : Pristine { e with locks } := ⟨hl.filled, hl.unguarded, hl.room, hl.stored⟩
    have hr' : Pristine { e with cache, locks } := ⟨hr.filled, hr.unguarded, hr.room, hr.stored⟩
    rw [fetch_granted hg, fetch_granted (e := { e with cache }) hg]
    obtain ⟨hpage, hleft, c, hc⟩ := hl'.load id
    obtain ⟨hpage', hright, c', hc'⟩ := hr'.load id
    refine ⟨hpage.trans hpage'.symm, hleft, hright, c', ?_⟩
    rw [hc, hc']

theorem Twin.fetch_ok (h : Twin e f) (he : e.fetch tx id mode = (.ok a, e')) :
    ∃ b f', f.fetch tx id mode = (.ok b, f') ∧ b.page = a.page ∧ Twin e' f' := by
  obtain ⟨hpage, htwin⟩ := h.fetch tx id mode
  rw [he] at hpage htwin
  cases hf : f.fetch tx id mode with
  | mk result f' =>
    rw [hf] at hpage htwin
    cases result with
    | ok b => exact ⟨b, f', rfl, (Except.ok.inj hpage).symm, htwin⟩
    | error fault => cases hpage

theorem Twin.fetch_error (h : Twin e f) (he : e.fetch tx id mode = (.error fault, e')) :
    ∃ f', f.fetch tx id mode = (.error fault, f') ∧ Twin e' f' := by
  obtain ⟨hpage, htwin⟩ := h.fetch tx id mode
  rw [he] at hpage htwin
  cases hf : f.fetch tx id mode with
  | mk result f' =>
    rw [hf] at hpage htwin
    cases result with
    | ok b => cases hpage
    | error fault =>
      cases hpage
      exact ⟨f', rfl, htwin⟩

/-- **A step of a scan is the same in both.** -/
theorem Twin.next (s : Scan) (e : Engine) : ∀ {f : Engine}, Twin e f → (s.next e).1 = (s.next f).1 ∧
    (s.next e).2.1 = (s.next f).2.1 ∧ s.visits e = s.visits f ∧ Twin (s.next e).2.2 (s.next f).2.2 := by
  induction s, e using Scan.next.induct with
  | case1 s e hd =>
    intro f h
    rw [Scan.next.eq_def, Scan.next.eq_def s f, Scan.visits.eq_def, Scan.visits.eq_def s f, if_pos hd, if_pos hd,
      if_pos hd, if_pos hd]
    exact ⟨rfl, rfl, rfl, h⟩
  | case2 s e hd hn =>
    intro f h
    rw [Scan.next.eq_def, Scan.next.eq_def s f, Scan.visits.eq_def, Scan.visits.eq_def s f]
    simp only [if_neg hd, if_pos hn, true_and]
    exact h
  | case3 s e hd hn fault e' hf =>
    intro f h
    obtain ⟨f', hf', htwin⟩ := h.fetch_error hf
    rw [Scan.next.eq_def, Scan.next.eq_def s f, Scan.visits.eq_def, Scan.visits.eq_def s f]
    simp only [if_neg hd, if_neg hn, hf, hf', true_and]
    exact htwin
  | case4 s e hd hn a e' hf slot r hr =>
    intro f h
    obtain ⟨b, f', hf', hb, htwin⟩ := h.fetch_ok hf
    rw [Scan.next.eq_def, Scan.next.eq_def s f, Scan.visits.eq_def, Scan.visits.eq_def s f]
    simp only [if_neg hd, if_neg hn, hf, hf', hb, hr, true_and]
    exact htwin
  | case5 s e hd hn a e' hf hr ih =>
    intro f h
    obtain ⟨b, f', hf', hb, htwin⟩ := h.fetch_ok hf
    obtain ⟨hitem, hscan, hvisits, hnext⟩ := ih htwin
    rw [Scan.next.eq_def, Scan.next.eq_def s f, Scan.visits.eq_def, Scan.visits.eq_def s f]
    simp only [if_neg hd, if_neg hn, hf, hf', hb, hr]
    exact ⟨hitem, hscan, congrArg _ hvisits, hnext⟩

theorem Twin.items (n : Nat) : ∀ (s : Scan) {e f : Engine}, Twin e f →
    s.visitsAll n e = s.visitsAll n f ∧ Twin (Scan.items n s e).2.2 (Scan.items n s f).2.2 := by
  induction n with
  | zero => exact fun _ _ _ h => ⟨rfl, h⟩
  | succ n ih =>
    intro s e f h
    obtain ⟨hitem, hscan, hvisits, hnext⟩ := Twin.next s e h
    unfold Scan.items Scan.visitsAll
    cases hn : s.next e with
    | mk item rest =>
    cases hn' : s.next f with
    | mk item' rest' =>
    obtain ⟨s', e'⟩ := rest
    obtain ⟨t', f'⟩ := rest'
    rw [hn, hn'] at hitem hscan hnext
    cases (show item = item' from hitem)
    cases (show s' = t' from hscan)
    cases item with
    | none => exact ⟨hvisits, hnext⟩
    | some item =>
      obtain ⟨hrest, htwin⟩ := ih s' hnext
      exact ⟨congrArg₂ (· ++ ·) hvisits hrest, htwin⟩

theorem Twin.call (h : Twin e f) (hc : c.Reads) : e.visits c = f.visits c ∧ Twin (e.call c).2 (f.call c).2 := by
  cases c with
  | begin =>
    obtain ⟨hl, hr, cache, rfl⟩ := h
    exact ⟨rfl, ⟨hl.filled, hl.unguarded, hl.room, hl.stored⟩, ⟨hr.filled, hr.unguarded, hr.room, hr.stored⟩, cache, rfl⟩
  | fetch tx id mode =>
    obtain ⟨hpage, htwin⟩ := h.fetch tx id mode
    refine ⟨?_, htwin⟩
    simp only [visits]
    cases hf : (e.fetch tx id mode).1 with
    | ok a =>
      cases hf' : (f.fetch tx id mode).1 with
      | ok b => rfl
      | error fault =>
        rw [hf, hf'] at hpage
        cases hpage
    | error fault =>
      cases hf' : (f.fetch tx id mode).1 with
      | ok b =>
        rw [hf, hf'] at hpage
        cases hpage
      | error fault => rfl
  | scan tx table =>
    have hopen : Scan.ofTable f tx table = Scan.ofTable e tx table := by
      obtain ⟨-, -, cache, rfl⟩ := h
      rfl
    show e.visits (.scan tx table) = f.visits (.scan tx table) ∧ Twin (e.scan tx table).2 (f.scan tx table).2
    simp only [visits, scan, hopen]
    cases Scan.ofTable e tx table with
    | error fault => exact ⟨rfl, h⟩
    | ok s => exact Twin.items s.bound s h
  | step s =>
    obtain ⟨-, -, hvisits, hnext⟩ := Twin.next s e h
    exact ⟨hvisits, hnext⟩
  | _ => exact hc.elim

/-- **Calls that read fetch the same pages**, whatever room there is for copies. -/
theorem Twin.visitsAll (calls : List Call) (hc : ∀ c ∈ calls, c.Reads) : ∀ {e f : Engine}, Twin e f →
    e.visitsAll calls = f.visitsAll calls := by
  induction calls with
  | nil => exact fun _ => rfl
  | cons c calls ih =>
    intro e f h
    obtain ⟨hvisits, hnext⟩ := h.call (hc c List.mem_cons_self)
    exact congrArg₂ (· ++ ·) hvisits (ih (fun c hm => hc c (List.mem_cons_of_mem _ hm)) hnext)

theorem run_capacity (calls : List Call) : ∀ {e : Engine}, e.cache.Filled →
    (e.run calls).cache.capacity = e.cache.capacity := by
  induction calls with
  | nil => exact fun _ => rfl
  | cons c calls ih =>
    intro e h
    obtain ⟨⟨hfill, hdesc⟩, -⟩ := (ongoing_pinned e.cache).call (Pinned.refl h) c
    exact (ih hfill).trans hdesc.capacity

/-- An engine whose cache has room for some copies, and has none. -/
def emptied (e : Engine) (capacity : Nat) : Engine := { e with cache := { capacity } }

theorem filled_emptied (e : Engine) (n : Nat) : (e.emptied n).cache.Filled :=
  ⟨List.nodup_nil, Nat.zero_le _, List.nodup_nil, nofun⟩

theorem pristine_emptied (e : Engine) {n : Nat} (hn : 0 < n) : Pristine (e.emptied n) :=
  ⟨e.filled_emptied n, rfl, hn, nofun⟩

/-- **After calls that read the list shows the most recent pages**, as many as it has room for. -/
theorem pages_run (h : e.cache.Filled) (hg : e.cache.guarded = []) (hd : ∀ f ∈ e.cache.frames, f.page.dirty = none)
    {calls : List Call} (hc : ∀ c ∈ calls, c.Reads) : (e.run calls).cache.pages =
      (PageId.recent ((e.visitsAll calls).reverse ++ e.cache.pages)).take e.cache.capacity := by
  have hlen : e.cache.pages.length ≤ e.cache.capacity := (List.length_map _).trans_le h.bounded
  have hstart : Recalls e.cache.pages e := by
    refine ⟨h, hg, hd, ?_⟩
    rw [PageId.recent_of_nodup h.nodup, List.take_of_length_le hlen]
  rw [(hstart.run calls hc).pages, run_capacity calls h]

/-- **A larger cache has all that a smaller one has**, after the same calls that read. -/
theorem pages_run_emptied (e : Engine) {small large : Nat} (hle : small ≤ large) {calls : List Call}
    (hc : ∀ c ∈ calls, c.Reads) :
    ((e.emptied small).run calls).cache.pages = ((e.emptied large).run calls).cache.pages.take small := by
  rw [pages_run (e.filled_emptied small) rfl nofun hc, pages_run (e.filled_emptied large) rfl nofun hc]
  show (PageId.recent _).take small = ((PageId.recent _).take large).take small
  rw [List.take_take, Nat.min_eq_left hle]
  rcases Nat.eq_zero_or_pos small with rfl | hpos
  · rw [List.take_zero, List.take_zero]
  · have htwin : Twin (e.emptied small) (e.emptied large) :=
      ⟨e.pristine_emptied hpos, e.pristine_emptied (Nat.lt_of_lt_of_le hpos hle), _, rfl⟩
    rw [htwin.visitsAll calls hc]
    rfl

/-- What goes is what was used least recently. -/
structure LeastRecent (e : Engine) : Prop where
  /-- A page that is locked comes to the front, or it is read. -/
  fetched : ∀ {tx id mode locks}, e.locks.grant? tx id mode = some locks →
    Loading { e with locks } id (e.fetch tx id mode)
  /-- One that can be read is denied only if no copy may go. -/
  crowded : ∀ {tx id mode locks page}, e.locks.grant? tx id mode = some locks → id ∉ e.cache.pages →
    e.stored id = .ok page → ((e.fetch tx id mode).1 = .error (.allPagesDirty e.cache.capacity) ↔
      e.cache.capacity ≤ e.cache.frames.length ∧ ∀ f ∈ e.cache.frames, ¬e.cache.Idle f)
  failed : ∀ {tx id mode fault e'}, e.fetch tx id mode = (.error fault, e') → fault.aborts = false →
    e'.cache = e.cache ∧ e'.disk = e.disk
  evicts : ∀ {e'}, e.evict = (.ok (), e') ↔ ∃ front f back, e.cache.LastIdle front f back ∧
    e' = { e with cache := { e.cache with frames := front ++ back, gone := f :: e.cache.gone } }
  stuck : e.evict = (.error (.allPagesDirty e.cache.capacity), e) ↔ ∀ f ∈ e.cache.frames, ¬e.cache.Idle f
  rests : ∀ {d : Demand}, d.Rests → (e.meet d).cache.pages = e.cache.pages
  idle : e.cache.guarded = [] → ∀ f, e.cache.Idle f ↔ f.page.dirty = none
  /-- As long as nothing is changed the list is made of the fetches. -/
  recent : e.cache.guarded = [] → (∀ f ∈ e.cache.frames, f.page.dirty = none) → ∀ {calls : List Call},
    (∀ c ∈ calls, c.Reads) → (e.run calls).cache.pages =
      (PageId.recent ((e.visitsAll calls).reverse ++ e.cache.pages)).take e.cache.capacity
  larger : ∀ {small large : Nat}, small ≤ large → ∀ {calls : List Call}, (∀ c ∈ calls, c.Reads) →
    ((e.emptied small).run calls).cache.pages = ((e.emptied large).run calls).cache.pages.take small

/-- **What goes is what was used least recently.** Whatever has been demanded of an engine, a page that is locked comes to
the front of the list of copies, and all others stay in their order. If it is new and there is no room, the copy nearest
the back goes that is clean and that nobody is reading, and a fetch fails for want of room only if there is none. Where
it fails, and has not ended its transaction, no copy and no file is touched. Ends of transactions, writes, drops and marks
leave the list. As long as pages are only read it shows the most recent ones, as many as there is room for, and a larger
cache has all that a smaller one has. -/
theorem evicts_least_recent (h : e.Demanded) : LeastRecent e where
  fetched hl := fetch_loading h.filled.nodup hl
  crowded hl hn hs := fetch_crowded_iff h.filled.nodup hl hn hs
  failed hf ha := fetch_error_cache hf ha
  evicts := evict_eq_ok_iff h.filled.nodup
  stuck := evict_eq_error_iff
  rests hd := meet_rests h.filled hd
  idle hg _ := Cache.idle_iff hg
  recent hg hd _ hc := pages_run h.filled hg hd hc
  larger hle _ hc := pages_run_emptied e hle hc

end Engine

namespace Sample

/-- A table has three pages, and there is room for two copies. The one used least recently is changed. -/
def mixed : Engine :=
  (engine.emptied 2).meetAll ([5, 6, 7, 8, 9].map (fun n => .request (.call (.insert ⟨1⟩ table (record n)))) ++
    [.request (.call (.commit ⟨1⟩)), .request (.call (.insert ⟨2⟩ table (record 4))),
      .request (.call (.fetch ⟨2⟩ ⟨table, 0⟩ .shared))])

theorem evicts_least_recent_mixed : mixed.Demanded ∧ mixed.cache.guarded = [] ∧
    mixed.cache.pages = [⟨table, 0⟩, ⟨table, 2⟩] ∧ mixed.cache.dirtyPages = [(⟨table, 2⟩, ⟨2⟩)] ∧
    (mixed.fetch ⟨2⟩ ⟨table, 1⟩ .shared).2.cache.pages = [⟨table, 1⟩, ⟨table, 2⟩] ∧ Engine.LeastRecent mixed :=
  have hd : mixed.Demanded := .meetAll _ (.start engine 2)
  ⟨hd, by decide +kernel, by decide +kernel, by decide +kernel, by decide +kernel, Engine.evicts_least_recent hd⟩

end Sample

end HeapStore
