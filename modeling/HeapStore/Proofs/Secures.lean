import HeapStore.Proofs.Tracks

/-!
# What locks secure

What a transaction holds stays as it is, whatever the others do, and whatever it does itself that nobody sees. If it
holds the first page of a table nobody puts records behind the pages that the table has, since every insertion takes
this page first.

* `Engine.Capped`: a table with blank pages behind its first ones, whose first page the transaction holds.
* `Engine.Secures`: all that the transaction holds has stayed.
* `Engine.Effect.secures`, `Engine.Sound.secures`: **the calls of others leave it.**
-/

namespace HeapStore.Engine

variable {e e' e'' : Engine} {tx tx' : TxId} {id : PageId} {table : TableId} {r : Record} {place : RecordId} {q : Page}
  {c : Call} {a : Answer} {k n : Nat}

/-- The transaction holds the first page of the table, and behind the first `n` pages there is nothing and nobody has
changed anything. -/
structure Capped (e : Engine) (tx : TxId) (table : TableId) (n : Nat) : Prop where
  first : (e.locks.mode? tx ⟨table, 0⟩).isSome
  drafts : ∀ tx' k, n ≤ k → e.cache.draft tx' ⟨table, k⟩ = none
  blank : ∀ k, n ≤ k → ∀ slot, e.committed ⟨table, k⟩ slot = none

/-- Behind the first pages the transaction sees nothing. -/
theorem Capped.contents (h : e.Capped tx table n) (hk : n ≤ k) (slot : Nat) :
    (e.view tx).contents ⟨table, k⟩ slot = none := by
  unfold View.contents
  rw [view_page_of_none (h.drafts tx k hk)]
  exact h.blank k hk slot

/-- All that the transaction holds has stayed: its locks and changes, and the pages that it has locked. -/
structure Secures (tx : TxId) (e e' : Engine) : Prop where
  sound : e'.Sound
  draft : e'.cache.draft tx = e.cache.draft tx
  held : ∀ id, (e.locks.mode? tx id).isSome → (e'.locks.mode? tx id).isSome
  page : ∀ id, (e.locks.mode? tx id).isSome → (e'.view tx).page id = (e.view tx).page id
  capped : ∀ table n, e.Capped tx table n → e'.Capped tx table n

theorem Secures.refl (h : e.Sound) (tx : TxId) : Secures tx e e :=
  ⟨h, rfl, fun _ hm => hm, fun _ _ => rfl, fun _ _ hc => hc⟩

theorem Secures.trans (h : Secures tx e e') (h' : Secures tx e' e'') : Secures tx e e'' where
  sound := h'.sound
  draft := h'.draft.trans h.draft
  held id hm := h'.held id (h.held id hm)
  page id hm := (h'.page id (h.held id hm)).trans (h.page id hm)
  capped table n hc := h'.capped table n (h.capped table n hc)

/-- A move that nobody sees, whoever makes it. -/
theorem Quiet.secures (h : Quiet tx' e e') (tx : TxId) : Secures tx e e' := by
  have hdraft : ∀ tx'', e'.cache.draft tx'' = e.cache.draft tx'' := fun tx'' => congrArg View.draft (h.view_eq tx'')
  have hheld : ∀ id, (e.locks.mode? tx id).isSome → (e'.locks.mode? tx id).isSome := by
    intro id hm
    by_cases ht : tx = tx'
    · subst ht
      exact h.own id hm
    · rw [h.others tx ht]
      exact hm
  refine ⟨h.sound, hdraft tx, hheld, fun id _ => by rw [h.view_eq], fun table n hc => ⟨hheld _ hc.first, ?_, ?_⟩⟩
  · intro tx'' k hk
    rw [hdraft]
    exact hc.drafts tx'' k hk
  · intro k hk slot
    rw [h.committed]
    exact hc.blank k hk slot

/-- A move of another transaction, as far as it stores only what it had changed, and changes nothing behind the pages
of a table that is capped. -/
theorem Spares.secures (h : e.Sound) (hm : Spares tx' e e') (ht : tx ≠ tx')
    (hb : ∀ id, e.cache.draft tx' id = none → e'.base.page id = e.base.page id)
    (hd : ∀ table n, e.Capped tx table n → ∀ k, n ≤ k → e'.cache.draft tx' ⟨table, k⟩ = none) : Secures tx e e' where
  sound := hm.sound
  draft := hm.drafts tx ht
  held id hheld := by
    rw [hm.others tx ht]
    exact hheld
  page id hheld := by
    have hdraft : e'.cache.draft tx id = e.cache.draft tx id := congrFun (hm.drafts tx ht) id
    cases hown : e.cache.draft tx id with
    | some p =>
      rw [hown] at hdraft
      exact (View.page_of_draft hdraft).trans (View.page_of_draft hown).symm
    | none =>
      -- what the transaction holds the other one has not changed
      rw [hown] at hdraft
      rw [view_page_of_none hdraft, view_page_of_none hown]
      exact hb id (h.draft_of_held hheld (Ne.symm ht))
  capped table n hc := by
    refine ⟨?_, fun tx'' k hk => ?_, fun k hk slot => ?_⟩
    · rw [hm.others tx ht]
      exact hc.first
    · by_cases htt : tx'' = tx'
      · rw [htt]
        exact hd table n hc k hk
      · rw [hm.drafts tx'' htt]
        exact hc.drafts tx'' k hk
    · unfold committed View.contents
      rw [hb _ (hc.drafts tx' k hk)]
      exact hc.blank k hk slot

/-- A move of another transaction that stores nothing. -/
theorem Leaves.secures (h : e.Sound) (hm : Leaves tx' e e') (ht : tx ≠ tx')
    (hd : ∀ table n, e.Capped tx table n → ∀ k, n ≤ k → e'.cache.draft tx' ⟨table, k⟩ = none) : Secures tx e e' :=
  hm.toSpares.secures h ht (fun _ _ => by rw [hm.base_eq]) hd

/-- Another transaction has changed a page, which does not lie behind the pages of a table that is capped. -/
theorem Puts.secures {page : Page} (h : e.Sound) (hm : Puts tx' page e e') (ht : tx ≠ tx')
    (hno : ∀ n, e.Capped tx page.id.table n → ¬ n ≤ page.id.number) : Secures tx e e' := by
  refine hm.toLeaves.secures h ht fun table n hc k hk => ?_
  rw [hm.draft]
  split
  · next hid =>
    rw [← hid] at hno
    exact absurd hk (hno n hc)
  · exact hc.drafts tx' k hk

theorem Inserted.secures (h : e.Sound) (hi : Inserted tx' table r place q e e') (ht : tx ≠ tx') : Secures tx e e' := by
  refine hi.toPuts.secures h ht fun n hc _ => ?_
  rw [hi.id_eq, hi.inserts.1] at hc
  have hfirst := hc.first
  rw [hi.not_held ht] at hfirst
  cases hfirst

theorem Deleted.secures (h : e.Sound) (hd : Deleted tx' r place q e e') (ht : tx ≠ tx') : Secures tx e e' := by
  refine hd.toPuts.secures h ht fun n hc hn => ?_
  rw [hd.id_eq] at hc hn
  exact hd.not_blank (hc.drafts tx' _ hn) (hc.blank _ hn)

theorem Drops.secures (h : e.Sound) (hd : Drops tx' e e') (ht : tx ≠ tx') : Secures tx e e' :=
  hd.toLeaves.secures h ht fun _ _ _ _ _ => hd.draft _

theorem Keeps.secures (h : e.Sound) (hk : Keeps tx' e e') (ht : tx ≠ tx') : Secures tx e e' :=
  hk.toSpares.secures h ht (fun _ hn => hk.base_of_none hn) fun _ _ _ _ _ => hk.draft _

/-- **A call of another transaction leaves all that this one holds.** -/
theorem Effect.secures (h : e.Sound) (heff : Effect e c a e') (hc : c.tx? ≠ some tx) : Secures tx e e' := by
  have hother : ∀ {tx'}, c.tx? = some tx' → tx ≠ tx' := fun hc' ht => hc (by rw [ht]; exact hc')
  cases heff with
  | began hq => exact (hq tx).secures tx
  | evicted hq => exact (hq tx).secures tx
  | fetched hf => exact hf.toQuiet.secures tx
  | inserted hi => exact hi.secures h (hother rfl)
  | deleted hd => exact hd.secures h (hother rfl)
  | scanned hq => exact hq.secures tx
  | stepped hq => exact hq.secures tx
  | kept hk => exact hk.secures h (hother rfl)
  | dropped hd => exact hd.secures h (hother rfl)
  | timedOut hc' _ _ _ hd => exact hd.secures h (hother hc')
  | failed _ _ _ _ hq => exact hq.secures tx

/-- **So do all their calls.** -/
theorem Sound.secures (calls : List Call) (hc : ∀ c ∈ calls, c.tx? ≠ some tx) :
    ∀ {e : Engine}, e.Sound → (e.run calls).Small → Secures tx e (e.run calls) := by
  induction calls with
  | nil => exact fun h _ => Secures.refl h tx
  | cons c calls ih =>
    intro e h hs
    have heff := call_effect h c (small_of_append h.present [c] calls hs)
    have hfirst := heff.secures h (hc c List.mem_cons_self)
    exact hfirst.trans (ih (fun c hm => hc c (List.mem_cons_of_mem _ hm)) hfirst.sound hs)

end HeapStore.Engine
