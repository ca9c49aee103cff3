import HeapStore.Bytes
import HeapStore.Disk.Fault

/-!
# Files of pages

A file of pages is a byte string cut into pages of one size. Bytes behind the last whole page are no
page; the next page that is appended takes their place. Page numbers have 32 bits.

* `Paged.count`: the number of pages.
* `Paged.read`, `Paged.write`, `Paged.append`: one page read, written in place or behind the last
  page, or appended.
-/

namespace HeapStore.Paged

variable (size : Nat) (file : Bytes)

/-- Page numbers are below this bound. -/
def numberBound : Nat := 0x100000000

/-- The number of whole pages in a file of the given length. -/
def countOf (length : Nat) : Nat := length / size % numberBound

/-- The number of whole pages. -/
def count : Nat := countOf size file.length

/-- The bytes of a page, into room for `room` bytes. -/
def read (number room : Nat) : Except FileFault Bytes :=
  if room ≠ size then .error (.pageWidth size room)
  else if count size file ≤ number then .error (.pageNotFound number (count size file))
  else .ok (file.slice (number * size) size)

/-- The file with one page changed or added at its end. -/
def write (number : Nat) (data : Bytes) : Except FileFault Bytes :=
  if data.length ≠ size then .error (.pageWidth size data.length)
  else if count size file < number then .error (.pageOutOfRange number (count size file))
  else .ok (file.overwrite (number * size) data)

/-- The number of the new page, and the file with it. -/
def append (data : Bytes) : Except FileFault (Nat × Bytes) :=
  if data.length ≠ size then .error (.pageWidth size data.length)
  else .ok (count size file, file.overwrite (count size file * size) data)

/-- How a file of pages is described. -/
def form (name : String) : String :=
  Text.Form.fields "PagedFile" [("path", Text.quote name), ("page_size", toString size)]

end HeapStore.Paged
