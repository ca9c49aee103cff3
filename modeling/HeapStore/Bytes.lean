/-!
# Byte strings

The bytes of files and pages, as lists.

* `ofWord`, `toWord`: words of 32 bits, most significant byte first; `toWord_ofWord` reads back what
  was written.
* `overwrite`: a file after bytes were written at an offset. Bytes before and after the written part
  stay, and a gap behind the end of the file becomes zeros (`length_overwrite`).
-/

namespace HeapStore

/-- A byte string. -/
abbrev Bytes := List UInt8

namespace Bytes

def zeros (n : Nat) : Bytes := List.replicate n 0

/-- The four bytes of a word, the most significant first. -/
def ofWord (w : UInt32) : Bytes :=
  [.ofNat (w.toNat / 0x1000000), .ofNat (w.toNat / 0x10000), .ofNat (w.toNat / 0x100),
    .ofNat w.toNat]

/-- The word that the bytes spell, the most significant first. -/
def toWord (bytes : Bytes) : UInt32 :=
  .ofNat (bytes.foldl (fun n b => 0x100 * n + b.toNat) 0)

/-- The bytes of a text in UTF-8. -/
def ofText (s : String) : Bytes := s.toUTF8.data.toList

/-- `size` bytes from offset `start` on. -/
def slice (bytes : Bytes) (start size : Nat) : Bytes := (bytes.drop start).take size

/-- The file after `data` was written at `offset`. -/
def overwrite (file : Bytes) (offset : Nat) (data : Bytes) : Bytes :=
  file.take offset ++ zeros (offset - file.length) ++ data ++ file.drop (offset + data.length)

/-- The file cut or extended with zeros to `size` bytes. -/
def resize (file : Bytes) (size : Nat) : Bytes :=
  file.take size ++ zeros (size - file.length)

@[simp] theorem length_zeros (n : Nat) : (zeros n).length = n := List.length_replicate

@[simp] theorem length_ofWord (w : UInt32) : (ofWord w).length = 4 := rfl

theorem toWord_ofWord (w : UInt32) : toWord (ofWord w) = w := by
  have h : w.toNat < 0x100000000 := w.toNat_lt
  apply UInt32.toNat_inj.1
  simp [ofWord, toWord]
  omega

@[simp] theorem length_resize (file : Bytes) (size : Nat) : (resize file size).length = size := by
  simp [resize]
  omega

theorem length_overwrite (file : Bytes) (offset : Nat) (data : Bytes) :
    (overwrite file offset data).length = max file.length (offset + data.length) := by
  simp [overwrite]
  omega

end Bytes

end HeapStore
