import HeapStore.Proofs.FilePages

/-!
# Calls on a file of pages

A file of pages is an array of pages, whatever bytes it begins with and whatever is asked of it. It may end in part of a
page; no read gives these bytes, they stay as long as pages are only written in place, and the first page behind the
last one takes their place.

* `FileCall`, `Paged.serve`: a page is read into a buffer, written from one, or appended.
* `Paged.Placed`: **what a page that is written does to the file**, inside it (`placed_of_lt`) or at its end
  (`placed_of_eq`).
* `Paged.Latest`: what a page holds by the log of the calls: what was placed there last, or what the file began with.
* `Paged.Paging`: what holds of the file after any calls. One call keeps it (`Paging.step`).
* `Paged.file_calls`: **the answers are those of an array of pages**, as long as page numbers have room.
-/

namespace HeapStore

open Bytes (zeros overwrite)

/-- What is asked of a file of pages. A page is read into room for some number of bytes. -/
inductive FileCall where
  | read (number room : Nat)
  | write (number : Nat) (data : Bytes)
  | append (data : Bytes)

/-- What it answers. -/
inductive FileAnswer where
  | bytes (data : Bytes)
  | done
  | number (n : Nat)

namespace Paged

variable {size : Nat} {file file' initial data : Bytes} {n m room : Nat}

/-- The answer to a call, and the file afterwards. -/
def serve (size : Nat) (file : Bytes) : FileCall → Except FileFault FileAnswer × Bytes
  | .read number room => ((read size file number room).map .bytes, file)
  | .write number data =>
    match write size file number data with
    | .ok file => (.ok .done, file)
    | .error fault => (.error fault, file)
  | .append data =>
    match append size file data with
    | .ok (number, file) => (.ok (.number number), file)
    | .error fault => (.error fault, file)

/-- The file after some calls. -/
def serveAll (size : Nat) (file : Bytes) : List FileCall → Bytes
  | [] => file
  | x :: calls => serveAll size (serve size file x).2 calls

/-- What was asked and answered in the course of some calls. -/
abbrev Log := List (FileCall × Except FileFault FileAnswer)

def log (size : Nat) (file : Bytes) : List FileCall → Log
  | [] => []
  | x :: calls => (x, (serve size file x).1) :: log size (serve size file x).2 calls

/-! ## One page -/

/-- A page was placed in a file, in place of one or behind the last one. -/
structure Placed (size n : Nat) (data file file' : Bytes) : Prop where
  count : count size file' = if n = count size file then count size file + 1 else count size file
  page : ∀ m, page size file' m = if m = n then data else page size file m
  /-- In place of a page, and the bytes behind the last one stay. -/
  inside : n < Paged.count size file → file'.length = file.length ∧
    file'.drop (Paged.count size file * size) = file.drop (Paged.count size file * size)
  /-- Behind the last page, and nothing is behind it now. -/
  behind : n = Paged.count size file → file'.length = (n + 1) * size

theorem placed_of_lt (h : n < count size file) (hd : data.length = size) :
    Placed size n data file (overwrite file (n * size) data) where
  count := by
    rw [if_neg (Nat.ne_of_lt h)]
    unfold count
    rw [length_overwrite_page h hd]
  page m := page_overwrite h hd m
  inside _ := by
    refine ⟨length_overwrite_page h hd, List.ext_getElem? fun i => ?_⟩
    have hend : (n + 1) * size ≤ count size file * size := Nat.mul_le_mul_right _ h
    have hlen : n * size ≤ file.length := (Nat.mul_le_mul_right _ (Nat.le_succ n)).trans (end_le_length h)
    rw [Nat.add_mul, Nat.one_mul] at hend
    rw [List.getElem?_drop, List.getElem?_drop, Bytes.getElem?_overwrite hlen, if_neg (by omega), if_neg (by omega)]
  behind he := absurd he (Nat.ne_of_lt h)

/-- The bytes behind the last page go when a page is placed there. -/
theorem overwrite_behind (hs : 0 < size) (hb : file.length / size < numberBound) (hd : data.length = size) :
    overwrite file (count size file * size) data = file.take (count size file * size) ++ data := by
  have hle := Nat.div_mul_le_self file.length size
  have hlt : file.length < file.length / size * size + size := Nat.lt_div_mul_add hs
  rw [count_eq hb]
  unfold overwrite
  rw [Nat.sub_eq_zero_of_le hle, List.drop_of_length_le (by omega)]
  simp [zeros]

theorem placed_of_eq (hs : 0 < size) (hd : data.length = size)
    (hb : (overwrite file (count size file * size) data).length / size < numberBound) :
    Placed size (count size file) data file (overwrite file (count size file * size) data) := by
  have hold : file.length / size < numberBound := by
    refine Nat.lt_of_le_of_lt (Nat.div_le_div_right ?_) hb
    rw [Bytes.length_overwrite]
    exact le_max_left _ _
  have hle : count size file * size ≤ file.length := by
    rw [count_eq hold]
    exact Nat.div_mul_le_self _ _
  rw [overwrite_behind hs hold hd] at hb ⊢
  have hlen : (file.take (count size file * size) ++ data).length = (count size file + 1) * size := by
    rw [List.length_append, List.length_take, Nat.min_eq_left hle, hd, Nat.add_mul, Nat.one_mul]
  have hcount : count size (file.take (count size file * size) ++ data) = count size file + 1 := by
    rw [count_eq hb, hlen, Nat.mul_div_cancel _ hs]
  refine ⟨by rw [if_pos rfl, hcount], fun m => ?_, fun h => absurd h (Nat.lt_irrefl _), fun _ => hlen⟩
  rcases Nat.lt_trichotomy m (count size file) with hm | rfl | hm
  · have hend : (m + 1) * size ≤ count size file * size := Nat.mul_le_mul_right _ hm
    rw [Nat.add_mul, Nat.one_mul] at hend
    rw [if_neg (by omega), page_of_lt (by omega), page_of_lt hm]
    unfold Bytes.slice
    rw [List.drop_append_of_le_length (by rw [List.length_take]; omega), List.drop_take,
      List.take_append_of_le_length (by rw [List.length_take, List.length_drop]; omega), List.take_take,
      Nat.min_eq_left (by omega)]
  · rw [if_pos rfl, page_of_lt (by omega)]
    unfold Bytes.slice
    rw [List.drop_append, List.drop_of_length_le (by rw [List.length_take]; omega), List.nil_append, List.length_take,
      Nat.min_eq_left hle, Nat.sub_self, List.drop_zero, List.take_of_length_le (by omega)]
  · rw [if_neg (by omega), page_of_le (by omega), page_of_le (by omega)]

/-- A page is placed in the file or behind its last page. -/
theorem placed (hs : 0 < size) (hd : data.length = size) (hn : n ≤ count size file)
    (hb : (overwrite file (n * size) data).length / size < numberBound) :
    Placed size n data file (overwrite file (n * size) data) := by
  rcases Nat.lt_or_ge n (count size file) with hlt | hge
  · exact placed_of_lt hlt hd
  · obtain rfl := Nat.le_antisymm hn hge
    exact placed_of_eq hs hd hb

/-! ## One call -/

theorem serve_write (hd : data.length = size) (hn : n ≤ count size file) :
    serve size file (.write n data) = (.ok .done, overwrite file (n * size) data) := by
  simp only [serve, write, if_neg (not_not.2 hd), if_neg (not_lt.2 hn)]

theorem serve_write_far (hd : data.length = size) (hn : ¬ n ≤ count size file) :
    serve size file (.write n data) = (.error (.pageOutOfRange n (count size file)), file) := by
  simp only [serve, write, if_neg (not_not.2 hd), if_pos (not_le.1 hn)]

theorem serve_write_unfit (n : Nat) (hd : data.length ≠ size) :
    serve size file (.write n data) = (.error (.pageWidth size data.length), file) := by
  simp only [serve, write, if_pos hd]

theorem serve_append (hd : data.length = size) : serve size file (.append data) =
    (.ok (.number (count size file)), overwrite file (count size file * size) data) := by
  simp only [serve, append, if_neg (not_not.2 hd)]

theorem serve_append_unfit (hd : data.length ≠ size) :
    serve size file (.append data) = (.error (.pageWidth size data.length), file) := by
  simp only [serve, append, if_pos hd]

/-- The page that a call has placed. -/
def placedBy : FileCall × Except FileFault FileAnswer → Option (Nat × Bytes)
  | (.write number data, .ok _) => some (number, data)
  | (.append data, .ok (.number number)) => some (number, data)
  | _ => none

/-- What a page holds by the log of the calls. -/
inductive Latest (size : Nat) (initial : Bytes) (log : Log) (n : Nat) : Bytes → Prop where
  /-- It was placed there, and nothing else since then. -/
  | placed {before after : Log} {x : FileCall × Except FileFault FileAnswer} {data : Bytes}
    (hl : log = before ++ x :: after) (hx : placedBy x = some (n, data))
    (hafter : ∀ y ∈ after, ∀ other, placedBy y ≠ some (n, other)) : Latest size initial log n data
  /-- Nothing was, and the file began with it. -/
  | initial (hn : n < count size initial) (hnever : ∀ y ∈ log, ∀ other, placedBy y ≠ some (n, other)) :
    Latest size initial log n (initial.slice (n * size) size)

theorem Latest.keep {log : Log} {x : FileCall × Except FileFault FileAnswer} (h : Latest size initial log n data)
    (hx : ∀ other, placedBy x ≠ some (n, other)) : Latest size initial (log ++ [x]) n data := by
  cases h with
  | @placed before after z _ hl hz hafter =>
    subst hl
    refine .placed (List.append_assoc before (z :: after) [x]) hz fun y hy => ?_
    rcases List.mem_append.1 hy with hy | hy
    · exact hafter y hy
    · rw [List.mem_singleton.1 hy]
      exact hx
  | initial hn hnever =>
    refine .initial hn fun y hy => ?_
    rcases List.mem_append.1 hy with hy | hy
    · exact hnever y hy
    · rw [List.mem_singleton.1 hy]
      exact hx

theorem Latest.place (initial : Bytes) (log : Log) {x : FileCall × Except FileFault FileAnswer}
    (hx : placedBy x = some (n, data)) : Latest size initial (log ++ [x]) n data :=
  .placed rfl hx nofun

/-- What a call answers on a file, and what it does to it. The pages hold what `latest` says. -/
def Served (size : Nat) (file : Bytes) (latest : Nat → Bytes → Prop) (answer : Except FileFault FileAnswer)
    (file' : Bytes) : FileCall → Prop
  | .read n room => file' = file ∧ (room ≠ size → answer = .error (.pageWidth size room)) ∧
    (room = size → count size file ≤ n → answer = .error (.pageNotFound n (count size file))) ∧
    (room = size → n < count size file → ∃ data, answer = .ok (.bytes data) ∧ latest n data)
  | .write n data => (answer = .ok .done ↔ data.length = size ∧ n ≤ count size file) ∧
    (answer = .ok .done → Placed size n data file file') ∧
    (data.length ≠ size → answer = .error (.pageWidth size data.length) ∧ file' = file) ∧
    (data.length = size → count size file < n → answer = .error (.pageOutOfRange n (count size file)) ∧ file' = file)
  | .append data => (data.length = size → answer = .ok (.number (count size file)) ∧
      Placed size (count size file) data file file') ∧
    (data.length ≠ size → answer = .error (.pageWidth size data.length) ∧ file' = file)

/-- A call places a page in the file or behind its last page, or it leaves the file alone. -/
theorem serve_cases (size : Nat) (file : Bytes) (x : FileCall) :
    (∃ n data, placedBy (x, (serve size file x).1) = some (n, data) ∧ data.length = size ∧ n ≤ count size file ∧
      (serve size file x).2 = overwrite file (n * size) data) ∨
    placedBy (x, (serve size file x).1) = none ∧ (serve size file x).2 = file := by
  cases x with
  | read n room => exact .inr ⟨rfl, rfl⟩
  | write n data =>
    by_cases hd : data.length = size
    · by_cases hn : n ≤ count size file
      · rw [serve_write hd hn]
        exact .inl ⟨n, data, rfl, hd, hn, rfl⟩
      · rw [serve_write_far hd hn]
        exact .inr ⟨rfl, rfl⟩
    · rw [serve_write_unfit n hd]
      exact .inr ⟨rfl, rfl⟩
  | append data =>
    by_cases hd : data.length = size
    · rw [serve_append hd]
      exact .inl ⟨count size file, data, rfl, hd, le_rfl, rfl⟩
    · rw [serve_append_unfit hd]
      exact .inr ⟨rfl, rfl⟩

/-- A call does not make the file shorter. -/
theorem length_le_serve (size : Nat) (file : Bytes) (x : FileCall) : file.length ≤ (serve size file x).2.length := by
  rcases serve_cases size file x with ⟨n, data, -, -, -, hf⟩ | ⟨-, hf⟩
  · rw [hf, Bytes.length_overwrite]
    exact le_max_left _ _
  · rw [hf]

theorem length_le_serveAll (size : Nat) (calls : List FileCall) : ∀ file : Bytes,
    file.length ≤ (serveAll size file calls).length := by
  induction calls with
  | nil => exact fun _ => le_rfl
  | cons x calls ih => exact fun file => (length_le_serve size file x).trans (ih _)

/-- **The answer to a call**, on a file whose pages hold what `latest` says. -/
theorem serve_served {latest : Nat → Bytes → Prop} (hs : 0 < size) (x : FileCall)
    (hb : (serve size file x).2.length / size < numberBound)
    (hl : ∀ n, n < count size file → latest n (file.slice (n * size) size)) :
    Served size file latest (serve size file x).1 (serve size file x).2 x := by
  cases x with
  | read n room =>
    refine ⟨rfl, fun hr => ?_, fun hr hn => ?_, fun hr hn => ?_⟩
    · simp only [serve, read, if_pos hr]
      rfl
    · subst hr
      simp only [serve, read_of_le hn]
      rfl
    · subst hr
      refine ⟨file.slice (n * room) room, ?_, hl n hn⟩
      simp only [serve, read_of_lt hn, page_of_lt hn]
      rfl
  | write n data =>
    by_cases hd : data.length = size
    · by_cases hn : n ≤ count size file
      · rw [serve_write hd hn] at hb ⊢
        have hplaced := placed hs hd hn hb
        exact ⟨⟨fun _ => ⟨hd, hn⟩, fun _ => rfl⟩, fun _ => hplaced, fun h => absurd hd h,
          fun _ h => absurd hn (Nat.not_le.2 h)⟩
      · rw [serve_write_far hd hn]
        exact ⟨⟨nofun, fun h => absurd h.2 hn⟩, nofun, fun h => absurd hd h, fun _ _ => ⟨rfl, rfl⟩⟩
    · rw [serve_write_unfit n hd]
      exact ⟨⟨nofun, fun h => absurd h.1 hd⟩, nofun, fun _ => ⟨rfl, rfl⟩, fun h => absurd h hd⟩
  | append data =>
    by_cases hd : data.length = size
    · rw [serve_append hd] at hb ⊢
      exact ⟨fun _ => ⟨rfl, placed hs hd le_rfl hb⟩, fun h => absurd hd h⟩
    · rw [serve_append_unfit hd]
      exact ⟨fun h => absurd h hd, fun _ => ⟨rfl, rfl⟩⟩

/-! ## All calls -/

/-- What holds of a file after the calls of a log. -/
structure Paging (size : Nat) (initial : Bytes) (log : Log) (file : Bytes) : Prop where
  count_le : count size initial ≤ count size file
  latest : ∀ n, n < count size file → Latest size initial log n (file.slice (n * size) size)
  /-- The file has not got longer: part of a page at its end is as it was. -/
  tail : count size file = count size initial → file.length = initial.length ∧
    file.drop (count size file * size) = initial.drop (count size file * size)
  /-- It has: nothing is behind the last page. -/
  even : count size initial < count size file → file.length % size = 0

theorem Paging.start (size : Nat) (initial : Bytes) : Paging size initial [] initial where
  count_le := le_rfl
  latest _ hn := .initial hn nofun
  tail _ := ⟨rfl, rfl⟩
  even h := absurd h (Nat.lt_irrefl _)

/-- **One call keeps it.** -/
theorem Paging.step {log : Log} (h : Paging size initial log file) (hs : 0 < size) (x : FileCall)
    (hb : (serve size file x).2.length / size < numberBound) :
    Paging size initial (log ++ [(x, (serve size file x).1)]) (serve size file x).2 := by
  rcases serve_cases size file x with ⟨n, data, hx, hd, hn, hf⟩ | ⟨hx, hf⟩
  · rw [hf] at hb ⊢
    have hp : Placed size n data file (overwrite file (n * size) data) := placed hs hd hn hb
    have hcount := hp.count
    have hle := h.count_le
    refine ⟨?_, fun m hm => ?_, fun he => ?_, fun hlt => ?_⟩
    · split at hcount <;> omega
    · rw [← page_of_lt hm, hp.page]
      by_cases he : m = n
      · rw [if_pos he, he]
        exact .place initial log hx
      · -- another page was there before
        rw [if_neg he]
        have hold : m < count size file := by
          split at hcount <;> omega
        rw [page_of_lt hold]
        refine (h.latest m hold).keep fun other ho => he ?_
        rw [hx] at ho
        cases ho
        rfl
    · have hlt : n < count size file := by
        split at hcount <;> omega
      have hsame : count size file = count size initial := by
        split at hcount <;> omega
      rw [if_neg (Nat.ne_of_lt hlt)] at hcount
      obtain ⟨hlen, hdrop⟩ := hp.inside hlt
      obtain ⟨hlen', hdrop'⟩ := h.tail hsame
      rw [hcount]
      exact ⟨hlen.trans hlen', hdrop.trans hdrop'⟩
    · rcases Nat.lt_or_ge n (count size file) with hlt' | hge
      · rw [if_neg (Nat.ne_of_lt hlt')] at hcount
        rw [(hp.inside hlt').1]
        exact h.even (by omega)
      · rw [hp.behind (Nat.le_antisymm hn hge)]
        exact Nat.mul_mod_left _ _
  · rw [hf]
    refine ⟨h.count_le, fun m hm => (h.latest m hm).keep fun other ho => ?_, h.tail, h.even⟩
    rw [hx] at ho
    cases ho

theorem serveAll_append (calls calls' : List FileCall) : ∀ file : Bytes,
    serveAll size file (calls ++ calls') = serveAll size (serveAll size file calls) calls' := by
  induction calls with
  | nil => exact fun _ => rfl
  | cons x calls ih => exact fun file => ih _

/-- And so do all of them. -/
theorem Paging.serveAll (hs : 0 < size) (calls : List FileCall) : ∀ {file : Bytes} {before : Log},
    Paging size initial before file → (Paged.serveAll size file calls).length / size < numberBound →
      Paging size initial (before ++ log size file calls) (Paged.serveAll size file calls) := by
  induction calls with
  | nil =>
    intro file before h _
    unfold log
    rw [List.append_nil]
    exact h
  | cons x calls ih =>
    intro file before h hb
    have hx : (serve size file x).2.length / size < numberBound :=
      Nat.lt_of_le_of_lt (Nat.div_le_div_right (length_le_serveAll size calls _)) hb
    have hrest := ih (h.step hs x hx) hb
    rw [List.append_assoc] at hrest
    exact hrest

/-- **A file of pages is an array of pages.** Whatever it begins with and whatever was asked, its number of pages is that
of its length, each page holds what was placed there last or what the file began with, and the next call reads, changes
or adds the page that it names and no other, or fails and leaves the file as it is. The bytes behind the last page stay
until the file gets longer, and then there are none any more. -/
theorem file_calls (hs : 0 < size) (initial : Bytes) (calls : List FileCall) (x : FileCall)
    (hb : (serveAll size initial (calls ++ [x])).length / size < numberBound) :
    count size (serveAll size initial calls) = (serveAll size initial calls).length / size ∧
      Paging size initial (log size initial calls) (serveAll size initial calls) ∧
      Served size (serveAll size initial calls) (Latest size initial (log size initial calls))
        (serve size (serveAll size initial calls) x).1 (serve size (serveAll size initial calls) x).2 x ∧
      Paging size initial (log size initial calls ++ [(x, (serve size (serveAll size initial calls) x).1)])
        (serve size (serveAll size initial calls) x).2 := by
  rw [serveAll_append] at hb
  have hold : (serveAll size initial calls).length / size < numberBound :=
    Nat.lt_of_le_of_lt (Nat.div_le_div_right (length_le_serve size _ x)) hb
  have hrun : Paging size initial (log size initial calls) (serveAll size initial calls) :=
    (Paging.start size initial).serveAll hs calls hold
  exact ⟨count_eq hold, hrun, serve_served hs x hb hrun.latest, hrun.step hs x hb⟩

end Paged

namespace Sample

/-- A page and part of one. The page is written over, and another one is appended. -/
def ragged : Bytes := [1, 2, 3, 4, 9]

def placing : List FileCall := [.write 0 [5, 6, 7, 8], .append [1, 1, 1, 1]]

/-- The next read gives what was appended, and the part of a page is gone. -/
theorem file_calls_placing : 0 < 4 ∧ (Paged.serveAll 4 ragged (placing ++ [.read 1 4])).length / 4 < Paged.numberBound ∧
    Paged.Served 4 [5, 6, 7, 8, 1, 1, 1, 1] (Paged.Latest 4 ragged (Paged.log 4 ragged placing))
      (.ok (.bytes [1, 1, 1, 1])) [5, 6, 7, 8, 1, 1, 1, 1] (.read 1 4) := by
  have hroom : (Paged.serveAll 4 ragged (placing ++ [.read 1 4])).length / 4 < Paged.numberBound := by decide
  obtain ⟨-, -, hserved, -⟩ := Paged.file_calls (Nat.succ_pos 3) ragged placing (.read 1 4) hroom
  exact ⟨Nat.succ_pos 3, hroom, hserved⟩

/-- **Without room for a page even a missing page is not missed**: the room is looked at first. -/
theorem read_into_three : ¬ ∀ number room : Nat, Paged.read 4 [1, 2, 3, 4] number room =
    if number < 1 then .ok (Bytes.slice [1, 2, 3, 4] (number * 4) 4) else .error (.pageNotFound number 1) := by
  intro h
  have hmissing := h 1 3
  cases hmissing

end Sample

end HeapStore
