import HeapStore.Proofs.FileCalls
import HeapStore.Settings.Basic
import HeapStore.Table.File

/-!
# Page numbers that run out

A page number has 32 bits, and the number of pages is cut to them. So a file can hold one page more than its numbers
can count, and then its number of pages is zero.

* `Paged.pages`: the pages that a file holds, counted in full.
* `Paged.pages_append`, `Paged.pages_appendAll`: a page that is appended makes the file longer only up to the bound.
* `Paged.Appends`: what one more page comes to. `Paged.appends_to_bound`: **pages are appended behind all others as long as there
  are fewer than the bound**; the last of them hides all pages, and what is appended then overwrites.
* `Sample.numbers_wrap`: with the smallest pages that settings allow the bound is reached at 20 GiB.
-/

namespace HeapStore

open Bytes (zeros overwrite)

namespace Paged

variable {size : Nat} {file data : Bytes} {n : Nat}

/-- The pages that a file holds, counted in full. -/
def pages (size : Nat) (file : Bytes) : Nat := file.length / size

/-- The file after some pages were appended one after another. -/
def appendAll (size : Nat) (file : Bytes) (blocks : List Bytes) : Bytes :=
  serveAll size file (blocks.map .append)

theorem numberBound_pos : 0 < numberBound := by decide

/-- The number of pages is the true one, cut to 32 bits. -/
theorem count_eq_mod (size : Nat) (file : Bytes) : count size file = pages size file % numberBound := rfl

/-- As many pages as there are numbers are cut to none. -/
theorem pages_mod_eq_zero (h : pages size file = numberBound) : pages size file % numberBound = 0 := by
  rw [h, Nat.mod_self]

/-- It is not cut below the bound only. -/
theorem count_eq_pages_iff (size : Nat) (file : Bytes) : count size file = pages size file ↔
    pages size file < numberBound := by
  refine ⟨fun h => ?_, Nat.mod_eq_of_lt⟩
  rw [← h]
  exact Nat.mod_lt _ numberBound_pos

/-- A page whose number was cut lies in the file, and what is written there takes the place of a page. -/
theorem length_overwrite_cut (hd : data.length = size) (hp : numberBound ≤ pages size file) :
    (overwrite file (count size file * size) data).length = file.length := by
  have hlt : count size file < pages size file := Nat.lt_of_lt_of_le (Nat.mod_lt _ numberBound_pos) hp
  have hend : (count size file + 1) * size ≤ file.length :=
    (Nat.mul_le_mul_right _ hlt).trans (Nat.div_mul_le_self _ _)
  rw [Nat.add_mul, Nat.one_mul] at hend
  rw [Bytes.length_overwrite]
  omega

theorem length_overwrite_behind (hs : 0 < size) (hd : data.length = size) (hp : pages size file < numberBound) :
    (overwrite file (count size file * size) data).length = (pages size file + 1) * size := by
  have hcount := (count_eq_pages_iff size file).2 hp
  have hle : pages size file * size ≤ file.length := Nat.div_mul_le_self _ _
  rw [overwrite_behind hs hp hd, List.length_append, List.length_take, hcount, Nat.min_eq_left hle, hd, Nat.add_mul,
    Nat.one_mul]

/-- **A page that is appended makes the file longer only up to the bound.** -/
theorem pages_append (file : Bytes) (hs : 0 < size) (hd : data.length = size) :
    pages size (serve size file (.append data)).2 =
      if pages size file < numberBound then pages size file + 1 else pages size file := by
  rw [serve_append hd]
  split
  · next hp =>
    have hlen := length_overwrite_behind hs hd hp
    unfold pages at hlen ⊢
    rw [hlen, Nat.mul_div_cancel _ hs]
  · next hp =>
    have hlen := length_overwrite_cut hd (not_lt.1 hp)
    unfold pages
    rw [hlen]

theorem pages_appendAll (hs : 0 < size) (blocks : List Bytes) : ∀ (file : Bytes), (∀ b ∈ blocks, b.length = size) →
    pages size (appendAll size file blocks) =
      max (pages size file) (min (pages size file + blocks.length) numberBound) := by
  induction blocks with
  | nil =>
    intro file _
    have hnil : appendAll size file [] = file := rfl
    rw [hnil, List.length_nil]
    omega
  | cons b blocks ih =>
    intro file hblocks
    have hb : b.length = size := hblocks b List.mem_cons_self
    have hrest := ih (serve size file (.append b)).2 fun b' hb' => hblocks b' (List.mem_cons_of_mem _ hb')
    have hcons : appendAll size file (b :: blocks) = appendAll size (serve size file (.append b)).2 blocks := rfl
    rw [pages_append _ hs hb] at hrest
    rw [hcons, hrest, List.length_cons]
    -- only that it is some bound matters
    generalize numberBound = bound
    split <;> omega

/-- What one more page comes to. -/
inductive Appends (size : Nat) (data file : Bytes) : Except FileFault FileAnswer → Bytes → Prop where
  /-- It lies behind all others, which are as they were, and all pages are counted. -/
  | counted {file' : Bytes} (hp : pages size file + 1 < numberBound)
    (hplaced : Placed size (pages size file) data file file') (hcount : count size file' = pages size file') :
    Appends size data file (.ok (.number (pages size file))) file'
  /-- It lies behind all others, but now there are more pages than can be counted, and none is found. -/
  | hides {file' : Bytes} (hp : pages size file + 1 = numberBound) (hpages : pages size file' = numberBound)
    (hkept : ∀ i < pages size file * size, file'[i]? = file[i]?)
    (hlost : ∀ n, read size file' n size = .error (.pageNotFound n 0)) :
    Appends size data file (.ok (.number (pages size file))) file'
  /-- It takes the place of a page. -/
  | overwrites {file' : Bytes} (hp : numberBound ≤ pages size file) (hlen : file'.length = file.length)
    (hover : file'.slice (pages size file % numberBound * size) size = data) :
    Appends size data file (.ok (.number (pages size file % numberBound))) file'

/-- **One more page**, whatever the file is. -/
theorem serve_appends (hs : 0 < size) (hd : data.length = size) (file : Bytes) :
    Appends size data file (serve size file (.append data)).1 (serve size file (.append data)).2 := by
  have hgrow := pages_append file hs hd
  rw [serve_append hd] at hgrow ⊢
  rcases Nat.lt_or_ge (pages size file) numberBound with hp | hp
  · have hcount := (count_eq_pages_iff size file).2 hp
    rw [if_pos hp] at hgrow
    simp only at hgrow ⊢
    rcases Nat.lt_or_ge (pages size file + 1) numberBound with hp' | hp'
    · have hnew : pages size (overwrite file (count size file * size) data) < numberBound := by
        rw [hgrow]
        exact hp'
      have hplaced := placed_of_eq hs hd hnew
      rw [hcount] at hplaced ⊢
      refine .counted hp' hplaced ?_
      rw [← hcount]
      exact (count_eq_pages_iff _ _).2 hnew
    · have hlast : pages size file + 1 = numberBound := Nat.le_antisymm hp hp'
      have hle : count size file * size ≤ file.length := by
        rw [hcount]
        exact Nat.div_mul_le_self _ _
      have hzero : count size (overwrite file (count size file * size) data) = 0 := by
        rw [count_eq_mod, pages_mod_eq_zero (hgrow.trans hlast)]
      have hkept : ∀ i < pages size file * size,
          (overwrite file (count size file * size) data)[i]? = file[i]? := by
        intro i hi
        rw [Bytes.getElem?_overwrite hle, hcount, if_pos hi]
      have hlost : ∀ n, read size (overwrite file (count size file * size) data) n size =
          .error (.pageNotFound n 0) := by
        intro n
        rw [read_of_le (by omega), hzero]
      rw [hcount] at hgrow hkept hlost ⊢
      exact .hides hlast (hgrow.trans hlast) hkept hlost
  · have hlen := length_overwrite_cut hd hp
    have hlt : count size file < pages size file := Nat.lt_of_lt_of_le (Nat.mod_lt _ numberBound_pos) hp
    have hend : (count size file + 1) * size ≤ file.length :=
      (Nat.mul_le_mul_right _ hlt).trans (Nat.div_mul_le_self _ _)
    rw [Nat.add_mul, Nat.one_mul] at hend
    refine .overwrites hp hlen (List.ext_getElem? fun i => ?_)
    rw [← count_eq_mod, Bytes.getElem?_slice]
    by_cases hi : i < size
    · rw [if_pos hi, Bytes.getElem?_overwrite (by omega), if_neg (by omega), if_pos (by omega),
        Nat.add_sub_cancel_left]
    · rw [if_neg hi, List.getElem?_eq_none (by omega)]

/-- In a file with as many pages as there are numbers the next page takes the place of the first. -/
theorem overwrites_first (hs : 0 < size) (hd : data.length = size) (hp : pages size file = numberBound) :
    (serve size file (.append data)).2.length = file.length ∧ (serve size file (.append data)).2.slice 0 size = data := by
  have happends := serve_appends hs hd file
  generalize serve size file (.append data) = outcome at happends ⊢
  obtain ⟨answer, file'⟩ := outcome
  cases happends with
  | counted hlt =>
    rw [hp] at hlt
    exact absurd hlt (Nat.not_lt.2 (Nat.le_succ _))
  | hides hlast =>
    rw [hp] at hlast
    exact absurd hlast (Nat.succ_ne_self _)
  | overwrites _ hlen hslice =>
    rw [pages_mod_eq_zero hp, Nat.zero_mul] at hslice
    exact ⟨hlen, hslice⟩

/-- **Pages are appended behind all others as long as there are fewer than the bound.** However many are appended, the
file holds no more of them than the bound, unless it did at first. The number of pages is the true one below the bound
only. With the page that reaches it none is found any more, and what is appended then takes the place of a page. -/
theorem appends_to_bound (hs : 0 < size) (initial : Bytes) (before : List Bytes) (data : Bytes)
    (hbefore : ∀ b ∈ before, b.length = size) (hd : data.length = size) :
    pages size (appendAll size initial before) =
        max (pages size initial) (min (pages size initial + before.length) numberBound) ∧
      (count size (appendAll size initial before) = pages size (appendAll size initial before) ↔
        pages size (appendAll size initial before) < numberBound) ∧
      Appends size data (appendAll size initial before)
        (serve size (appendAll size initial before) (.append data)).1
        (serve size (appendAll size initial before) (.append data)).2 :=
  ⟨pages_appendAll hs before initial hbefore, count_eq_pages_iff _ _, serve_appends hs hd _⟩

end Paged

namespace Sample

/-- The second page goes behind the first one. -/
theorem appended_two : 0 < 5 ∧ (∀ b ∈ [zeros 5], b.length = 5) ∧ [1, 2, 3, 4, 5].length = 5 ∧
    Paged.Appends 5 [1, 2, 3, 4, 5] (zeros 5) (.ok (.number 1)) (zeros 5 ++ [1, 2, 3, 4, 5]) := by
  have hbefore : ∀ b ∈ [zeros 5], b.length = 5 := by decide
  obtain ⟨-, -, happends⟩ := Paged.appends_to_bound (Nat.succ_pos 4) [] [zeros 5] [1, 2, 3, 4, 5] hbefore rfl
  exact ⟨Nat.succ_pos 4, hbefore, rfl, happends⟩

/-- As many pages of five bytes as there are numbers. -/
def full : Bytes := Paged.appendAll 5 [] (List.replicate Paged.numberBound (zeros 5))

/-- The file of a table, after it was made as long as that. -/
def crowded : Disk := ⟨({} : Std.ExtTreeMap Location Node).insert ["a.dat"] (.file ⟨[], 5 * Paged.numberBound⟩)⟩

theorem pages_full : Paged.pages 5 full = Paged.numberBound := by
  have hblocks : ∀ b ∈ List.replicate Paged.numberBound (zeros 5), b.length = 5 := by
    intro b hb
    rw [List.eq_of_mem_replicate hb]
    exact Bytes.length_zeros 5
  have hmany : ∀ bound : Nat, max 0 (min (0 + bound) bound) = bound := by
    intro bound
    omega
  have hlength := Paged.pages_appendAll (Nat.succ_pos 4) _ [] hblocks
  rw [List.length_replicate] at hlength
  exact hlength.trans (hmany Paged.numberBound)

/-- **Page numbers wrap.** Settings allow pages of five bytes. After as many of them were appended as there are numbers
the file has no page, and the next one takes the place of the first. A table whose file is as long as that has no page
either. -/
theorem numbers_wrap : ({ pageSize := 5 } : Settings).validate.isOk = true ∧
    Paged.pages 5 full = Paged.numberBound ∧ Paged.count 5 full = 0 ∧
    (∃ data : Bytes, data.length = 5 ∧ (Paged.serve 5 full (.append data)).2.length = full.length ∧
      (Paged.serve 5 full (.append data)).2.slice 0 5 = data ∧ full.slice 0 5 ≠ data) ∧
    (TableFile.count ⟨⟨1⟩, ⟨[⟨.int, some "n"⟩], by decide⟩, ["a.dat"], 5⟩ crowded).toOption = some 0 := by
  have hcount : Paged.count 5 full = 0 := by
    rw [Paged.count_eq_mod, Paged.pages_mod_eq_zero pages_full]
  refine ⟨by decide +kernel, pages_full, hcount, ?_, by decide +kernel⟩
  have hover : ∀ data : Bytes, data.length = 5 → (Paged.serve 5 full (.append data)).2.length = full.length ∧
      (Paged.serve 5 full (.append data)).2.slice 0 5 = data :=
    fun data hd => Paged.overwrites_first (Nat.succ_pos 4) hd pages_full
  -- one of two pages is another one than the first
  by_cases hfirst : full.slice 0 5 = [1, 1, 1, 1, 1]
  · obtain ⟨hlen, hslice⟩ := hover [2, 2, 2, 2, 2] rfl
    refine ⟨[2, 2, 2, 2, 2], rfl, hlen, hslice, ?_⟩
    rw [hfirst]
    decide
  · obtain ⟨hlen, hslice⟩ := hover [1, 1, 1, 1, 1] rfl
    exact ⟨[1, 1, 1, 1, 1], rfl, hlen, hslice, hfirst⟩

end Sample

end HeapStore
