import HeapStore.Table.File
import Mathlib.Tactic.Ring

/-!
# The pages of a file

A file of pages as a function from page numbers to bytes. Behind the last page there are zeros, so a file
that grows by blank pages is the same function (`page_of_grown`).

* `Paged.page`: the bytes of a page. `read_of_lt` and `read_of_le` say when they are read.
* `Paged.page_overwrite`: **writing a page changes that page only**, and never the length of the file.
* `Paged.Grown`: a file with blank pages more at its end. They take the place of the bytes behind the last
  whole page.
* `Paged.Rewritten`: a file with some of its pages written over.
* `Disk.held_set_self`, `Disk.held_set_ne`: what files hold after one of them was written.
* `Disk.Grows`: no file becomes shorter.
-/

namespace HeapStore

open Bytes (zeros overwrite)

namespace Bytes

theorem getElem?_overwrite {file data : Bytes} {offset : Nat} (h : offset ≤ file.length) (i : Nat) :
    (overwrite file offset data)[i]? =
      if i < offset then file[i]? else if i < offset + data.length then data[i - offset]? else file[i]? := by
  have hz : zeros (offset - file.length) = [] := by
    rw [Nat.sub_eq_zero_of_le h]
    rfl
  unfold overwrite
  rw [hz, List.append_nil, List.append_assoc]
  by_cases h1 : i < offset
  · rw [if_pos h1, List.getElem?_append_left (by rw [List.length_take]; omega), List.getElem?_take, if_pos h1]
  rw [if_neg h1, List.getElem?_append_right (by rw [List.length_take]; omega), List.length_take,
    Nat.min_eq_left h]
  by_cases h2 : i < offset + data.length
  · rw [if_pos h2, List.getElem?_append_left (by omega)]
  · rw [if_neg h2, List.getElem?_append_right (by omega), List.getElem?_drop]
    congr 1
    omega

theorem getElem?_slice (file : Bytes) (start size i : Nat) :
    (file.slice start size)[i]? = if i < size then file[start + i]? else none := by
  unfold slice
  rw [List.getElem?_take, List.getElem?_drop]

end Bytes

namespace Paged

variable {size : Nat} {file file' data : Bytes} {n m : Nat}

/-- The bytes of a page. Behind the last page there are zeros. -/
def page (size : Nat) (file : Bytes) (n : Nat) : Bytes :=
  if n < count size file then file.slice (n * size) size else zeros size

theorem count_le (size : Nat) (file : Bytes) : count size file ≤ file.length / size := Nat.mod_le _ _

/-- Page numbers do not wrap as long as they have room in 32 bits. -/
theorem count_eq (h : file.length / size < numberBound) : count size file = file.length / size :=
  Nat.mod_eq_of_lt h

theorem end_le_length (h : n < count size file) : (n + 1) * size ≤ file.length := by
  have h1 : n + 1 ≤ file.length / size := lt_of_lt_of_le h (count_le size file)
  exact le_trans (Nat.mul_le_mul_right _ h1) (Nat.div_mul_le_self _ _)

theorem page_of_lt (h : n < count size file) : page size file n = file.slice (n * size) size := if_pos h

theorem page_of_le (h : count size file ≤ n) : page size file n = zeros size := if_neg (by omega)

theorem read_of_lt (h : n < count size file) : read size file n size = .ok (page size file n) := by
  unfold read
  rw [if_neg (not_not.2 rfl), if_neg (by omega), page_of_lt h]

theorem read_of_le (h : count size file ≤ n) :
    read size file n size = .error (.pageNotFound n (count size file)) := by
  unfold read
  rw [if_neg (not_not.2 rfl), if_pos h]

theorem write_of_lt (h : n < count size file) (hd : data.length = size) :
    write size file n data = .ok (overwrite file (n * size) data) := by
  unfold write
  rw [if_neg (not_not.2 hd), if_neg (by omega)]

theorem length_of_write (h : write size file n data = .ok file') : file.length ≤ file'.length := by
  unfold write at h
  split at h
  · cases h
  split at h
  · cases h
  cases h
  rw [Bytes.length_overwrite]
  exact le_max_left _ _

/-- Writing a page does not change the length of the file. -/
theorem length_overwrite_page (h : n < count size file) (hd : data.length = size) :
    (overwrite file (n * size) data).length = file.length := by
  have := end_le_length h
  rw [Nat.add_mul, Nat.one_mul] at this
  rw [Bytes.length_overwrite]
  omega

/-- **Writing a page changes that page only.** -/
theorem page_overwrite (h : n < count size file) (hd : data.length = size) (m : Nat) :
    page size (overwrite file (n * size) data) m = if m = n then data else page size file m := by
  have hend := end_le_length h
  rw [Nat.add_mul, Nat.one_mul] at hend
  have hc : count size (overwrite file (n * size) data) = count size file := by
    unfold count
    rw [length_overwrite_page h hd]
  rcases Nat.lt_or_ge m (count size file) with hm | hm
  · rw [page_of_lt (by rw [hc]; exact hm), page_of_lt hm]
    apply List.ext_getElem?
    intro i
    rw [Bytes.getElem?_slice]
    by_cases hi : i < size
    · rw [if_pos hi, Bytes.getElem?_overwrite (by omega)]
      rcases Nat.lt_trichotomy m n with hmn | rfl | hmn
      · have : (m + 1) * size ≤ n * size := Nat.mul_le_mul_right _ hmn
        rw [Nat.add_mul, Nat.one_mul] at this
        rw [if_pos (by omega), if_neg (by omega), Bytes.getElem?_slice, if_pos hi]
      · rw [if_neg (by omega), if_pos (by omega), if_pos rfl, Nat.add_sub_cancel_left]
      · have : (n + 1) * size ≤ m * size := Nat.mul_le_mul_right _ hmn
        rw [Nat.add_mul, Nat.one_mul] at this
        rw [if_neg (by omega), if_neg (by omega), if_neg (by omega), Bytes.getElem?_slice, if_pos hi]
    · rw [if_neg hi]
      split
      · rw [List.getElem?_eq_none (by omega)]
      · rw [Bytes.getElem?_slice, if_neg hi]
  · rw [page_of_le (by rw [hc]; exact hm), page_of_le hm, if_neg (by omega)]

/-! ## Files that grow -/

/-- The file with blank pages more at its end, if with any. -/
def Grown (size : Nat) (file file' : Bytes) : Prop :=
  file' = file ∨ ∃ k, 0 < k ∧ file' = file.take (file.length / size * size) ++ zeros (k * size)

/-- Bytes behind the last page go, so that blank pages begin where a page does. -/
theorem length_blanks (size k : Nat) (file : Bytes) :
    (file.take (file.length / size * size) ++ zeros (k * size)).length = (file.length / size + k) * size := by
  rw [List.length_append, List.length_take, Bytes.length_zeros, Nat.min_eq_left (Nat.div_mul_le_self _ _), Nat.add_mul]

theorem Grown.refl (size : Nat) (file : Bytes) : Grown size file file := .inl rfl

theorem Grown.trans {file'' : Bytes} (hs : 0 < size) (h : Grown size file file')
    (h' : Grown size file' file'') : Grown size file file'' := by
  rcases h with rfl | ⟨k, hk, rfl⟩
  · exact h'
  rcases h' with rfl | ⟨k', hk', rfl⟩
  · exact .inr ⟨k, hk, rfl⟩
  refine .inr ⟨k + k', by omega, ?_⟩
  have hl := length_blanks size k file
  rw [hl, Nat.mul_div_cancel _ hs, List.take_of_length_le (by omega), List.append_assoc]
  congr 1
  simp only [zeros, List.replicate_append_replicate, Nat.add_mul]

/-- **Blank pages at the end change no page.** -/
theorem page_of_grown (hs : 0 < size) (h : Grown size file file') (hb : file.length / size < numberBound)
    (hb' : file'.length / size < numberBound) (n : Nat) : page size file' n = page size file n := by
  rcases h with rfl | ⟨k, hk, rfl⟩
  · rfl
  have hle := Nat.div_mul_le_self file.length size
  have hl := length_blanks size k file
  have hc : count size (file.take (file.length / size * size) ++ zeros (k * size)) = file.length / size + k := by
    rw [count_eq hb', hl, Nat.mul_div_cancel _ hs]
  have hc0 := count_eq hb
  rcases Nat.lt_or_ge n (file.length / size) with hn | hn
  · rw [page_of_lt (by omega), page_of_lt (by omega)]
    have hend : (n + 1) * size ≤ file.length / size * size := Nat.mul_le_mul_right _ hn
    rw [Nat.add_mul, Nat.one_mul] at hend
    unfold Bytes.slice
    rw [List.drop_append_of_le_length (by rw [List.length_take]; omega), List.drop_take, List.take_append_of_le_length
      (by rw [List.length_take, List.length_drop]; omega), List.take_take, Nat.min_eq_left (by omega)]
  · have hold : page size file n = zeros size := page_of_le (by omega)
    rw [hold]
    rcases Nat.lt_or_ge n (file.length / size + k) with hn' | hn'
    · rw [page_of_lt (by omega)]
      have h1 : file.length / size * size ≤ n * size := Nat.mul_le_mul_right _ hn
      have h2 : (n + 1) * size ≤ (file.length / size + k) * size := Nat.mul_le_mul_right _ hn'
      rw [Nat.add_mul, Nat.one_mul, Nat.add_mul] at h2
      unfold Bytes.slice zeros
      rw [List.drop_append, List.drop_of_length_le (by rw [List.length_take]; omega), List.nil_append, List.length_take,
        Nat.min_eq_left hle, List.drop_replicate, List.take_replicate, Nat.min_eq_left (by omega)]
    · rw [page_of_le (by omega)]

/-- A file that grows has at least as many pages. -/
theorem Grown.count_le (hs : 0 < size) (h : Grown size file file') (hb : file'.length / size < numberBound) :
    count size file ≤ count size file' := by
  rcases h with rfl | ⟨k, hk, rfl⟩
  · exact le_rfl
  have hc := Paged.count_le size file
  rw [count_eq hb, length_blanks, Nat.mul_div_cancel _ hs]
  omega

/-- The file with one blank page more. -/
def lengthened (size : Nat) (file : Bytes) : Bytes := file.take (file.length / size * size) ++ zeros (1 * size)

theorem grown_lengthened (size : Nat) (file : Bytes) : Grown size file (lengthened size file) :=
  .inr ⟨1, Nat.one_pos, rfl⟩

theorem length_lengthened (hs : 0 < size) (file : Bytes) :
    (lengthened size file).length / size = file.length / size + 1 := by
  unfold lengthened
  rw [length_blanks, Nat.mul_div_cancel _ hs]

/-- A blank page goes behind the last page and takes the place of the bytes behind it. -/
theorem append_zeros (hs : 0 < size) (hb : file.length / size < numberBound) :
    append size file (zeros size) = .ok (file.length / size, lengthened size file) := by
  have hle := Nat.div_mul_le_self file.length size
  have hlt : file.length < file.length / size * size + size := Nat.lt_div_mul_add hs
  unfold append lengthened
  rw [if_neg (not_not.2 (Bytes.length_zeros _)), count_eq hb]
  unfold overwrite
  rw [Nat.sub_eq_zero_of_le hle, List.drop_of_length_le (by rw [Bytes.length_zeros]; omega), Nat.one_mul]
  simp [zeros]

theorem length_of_append (h : append size file data = .ok (n, file')) : file.length ≤ file'.length := by
  unfold append at h
  split at h
  · cases h
  cases h
  rw [Bytes.length_overwrite]
  exact le_max_left _ _

/-! ## Files that are written over -/

/-- The file with some of its pages written over. -/
def Rewritten (size : Nat) (pages : Nat → Prop) (file file' : Bytes) : Prop :=
  file'.length = file.length ∧ ∀ i, file'[i]? ≠ file[i]? → pages (i / size)

variable {pages : Nat → Prop}

theorem Rewritten.refl (size : Nat) (pages : Nat → Prop) (file : Bytes) : Rewritten size pages file file :=
  ⟨rfl, fun _ h => absurd rfl h⟩

theorem Rewritten.imp {pages' : Nat → Prop} (h : Rewritten size pages file file') (hp : ∀ n, pages n → pages' n) :
    Rewritten size pages' file file' :=
  ⟨h.1, fun i hi => hp _ (h.2 i hi)⟩

theorem Rewritten.trans {file'' : Bytes} (h : Rewritten size pages file file')
    (h' : Rewritten size pages file' file'') : Rewritten size pages file file'' := by
  refine ⟨h'.1.trans h.1, fun i hi => ?_⟩
  by_cases hm : file'[i]? = file[i]?
  · exact h'.2 i (by rw [hm]; exact hi)
  · exact h.2 i hm

/-- A byte that a page brings with it lies on that page. -/
theorem div_eq_of_overwrite (h : n * size ≤ file.length) (hd : data.length = size) {i : Nat}
    (hi : (overwrite file (n * size) data)[i]? ≠ file[i]?) : i / size = n := by
  rw [Bytes.getElem?_overwrite h] at hi
  split at hi
  · exact absurd rfl hi
  split at hi
  · have hpos : 0 < size := by omega
    rw [Nat.div_eq_iff hpos]
    omega
  · exact absurd rfl hi

theorem rewritten_overwrite (h : n < count size file) (hd : data.length = size) (hp : pages n) :
    Rewritten size pages file (overwrite file (n * size) data) := by
  refine ⟨length_overwrite_page h hd, fun i hi => ?_⟩
  have hend := end_le_length h
  rw [Nat.add_mul, Nat.one_mul] at hend
  rw [div_eq_of_overwrite (by omega) hd hi]
  exact hp

/-- A page that is written changes no byte of another page. -/
theorem div_eq_of_write (h : write size file n data = .ok file') {i : Nat} (hi : file'[i]? ≠ file[i]?) :
    i / size = n := by
  unfold write at h
  split at h
  · cases h
  · next hd =>
    split at h
    · cases h
    · next hn =>
      cases h
      have hle : n ≤ file.length / size := (not_lt.1 hn).trans (count_le size file)
      exact div_eq_of_overwrite ((Nat.mul_le_mul_right _ hle).trans (Nat.div_mul_le_self _ _)) (not_not.1 hd) hi

theorem Rewritten.count_eq (h : Rewritten size pages file file') : count size file' = count size file := by
  unfold count
  rw [h.1]

/-- Two files that were written over on pages of theirs are the same if their pages are. -/
theorem Rewritten.eq {pages' : Nat → Prop} {file'' : Bytes} (h : Rewritten size pages file file')
    (h' : Rewritten size pages' file file'') (hp : ∀ n, pages n → n < count size file)
    (hp' : ∀ n, pages' n → n < count size file) (hpage : ∀ n, page size file'' n = page size file' n) :
    file'' = file' := by
  apply List.ext_getElem?
  intro i
  -- a byte that was written in one of them lies on a page, and pages are the same
  have hbyte : i / size < count size file → file''[i]? = file'[i]? := by
    intro hn
    have hc := h.count_eq
    have hc' := h'.count_eq
    have hsize : 0 < size := by
      rcases Nat.eq_zero_or_pos size with h0 | h0
      · rw [h0] at hn
        simp [count, countOf] at hn
      · exact h0
    have hslice := hpage (i / size)
    rw [page_of_lt (by rw [hc']; exact hn), page_of_lt (by rw [hc]; exact hn)] at hslice
    have hi := congrArg (fun bytes : Bytes => bytes[i % size]?) hslice
    simp only [Bytes.getElem?_slice, if_pos (Nat.mod_lt i hsize), Nat.div_add_mod' i size] at hi
    exact hi
  by_cases hi : file'[i]? = file[i]?
  · by_cases hi' : file''[i]? = file[i]?
    · rw [hi, hi']
    · exact hbyte (hp' _ (h'.2 i hi'))
  · exact hbyte (hp _ (h.2 i hi))

end Paged

/-! ## What files hold -/

namespace Disk

variable {d d' : Disk} {here there : Location} {bytes : Bytes}

theorem not_isAbove_of_held (h : d.held here = .ok bytes) : here.isAbove = false := by
  by_contra hne
  rw [Bool.not_eq_false] at hne
  unfold held node? at h
  rw [if_pos hne] at h
  cases h

theorem held_set_self (h : here.isAbove = false) : (d.set here bytes).held here = .ok bytes := by
  unfold held node? set
  simp [h]

theorem held_set_ne (h : here ≠ there) : (d.set here bytes).held there = d.held there := by
  have hc : ¬ compare here there = .eq := fun hc => h (Std.LawfulEqCmp.eq_of_compare hc)
  unfold held node? set
  simp only [Std.ExtTreeMap.getElem?_insert, if_neg hc]

/-- No file becomes shorter. -/
def Grows (d d' : Disk) : Prop :=
  ∀ here bytes, d.held here = .ok bytes → ∃ bytes', d'.held here = .ok bytes' ∧ bytes.length ≤ bytes'.length

theorem Grows.refl (d : Disk) : d.Grows d := fun _ bytes h => ⟨bytes, h, le_rfl⟩

theorem Grows.trans {d'' : Disk} (h : d.Grows d') (h' : d'.Grows d'') : d.Grows d'' := by
  intro here bytes hb
  obtain ⟨bytes', hb', hle⟩ := h here bytes hb
  obtain ⟨bytes'', hb'', hle'⟩ := h' here bytes' hb'
  exact ⟨bytes'', hb'', le_trans hle hle'⟩

theorem grows_set {bytes' : Bytes} (h : d.held here = .ok bytes) (hle : bytes.length ≤ bytes'.length) :
    d.Grows (d.set here bytes') := by
  intro there b hb
  by_cases he : here = there
  · subst he
    rw [h] at hb
    cases hb
    exact ⟨bytes', held_set_self (not_isAbove_of_held h), hle⟩
  · exact ⟨b, by rw [held_set_ne he]; exact hb, le_rfl⟩

end Disk

namespace TableFile

variable {t : TableFile} {d d' : Disk}

theorem bytes_eq_ok {bytes : Bytes} : t.bytes d = .ok bytes ↔ d.held t.location = .ok bytes := by
  unfold TableFile.bytes Except.mapError
  cases d.held t.location <;> simp

theorem grows_of_append {n : Nat} (h : t.append d = .ok (n, d')) : d.Grows d' := by
  unfold append at h
  cases hb : t.bytes d with
  | error fault => rw [hb] at h; cases h
  | ok bytes =>
    rw [hb] at h
    cases ha : Paged.append t.pageSize bytes (zeros t.pageSize) with
    | error fault => simp only [bind, Except.bind, ha] at h; cases h
    | ok r =>
      obtain ⟨number, file⟩ := r
      simp only [bind, Except.bind, ha] at h
      cases h
      exact Disk.grows_set (bytes_eq_ok.1 hb) (Paged.length_of_append ha)

/-- What a page that is written does to the files. -/
theorem of_write {page : Page} (h : t.write d page = .ok d') : ∃ bytes bytes', d.held t.location = .ok bytes ∧
    Paged.write t.pageSize bytes page.id.number page.encode = .ok bytes' ∧ d' = d.set t.location bytes' := by
  unfold write store at h
  cases hb : t.bytes d with
  | error fault => rw [hb] at h; cases h
  | ok bytes =>
    rw [hb] at h
    cases hw : Paged.write t.pageSize bytes page.id.number page.encode with
    | error fault => simp only [bind, Except.bind, hw] at h; cases h
    | ok bytes' =>
      simp only [bind, Except.bind, hw] at h
      cases h
      exact ⟨bytes, bytes', bytes_eq_ok.1 hb, hw, rfl⟩

theorem grows_of_write {page : Page} (h : t.write d page = .ok d') : d.Grows d' := by
  obtain ⟨bytes, bytes', hb, hw, rfl⟩ := of_write h
  exact Disk.grows_set hb (Paged.length_of_write hw)

end TableFile

end HeapStore
