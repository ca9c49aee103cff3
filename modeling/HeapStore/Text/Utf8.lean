import HeapStore.Bytes

/-!
# Reading UTF-8

Bytes become a text if they are UTF-8. If they are not, the first fault is told: where the character
that cannot be read begins, and how many of its bytes are wrong together, or that the bytes end
inside it.

* `decode`: the text, or the first fault.
* `decode_ofText`: the bytes of a text read as that text.
* `decode_eq_ok_iff`: exactly the bytes of texts are read.
-/

namespace HeapStore.Text.Utf8

/-- The first place where bytes are not UTF-8. -/
structure Fault where
  /-- The offset of the first byte of the character that cannot be read. -/
  start : Nat
  /-- How many bytes from there on belong to no character, unless the bytes end too early. -/
  length : Option Nat
deriving DecidableEq, Repr

def Fault.message (f : Fault) : String :=
  match f.length with
  | some n => s!"invalid utf-8 sequence of {n} bytes from index {f.start}"
  | none => s!"incomplete utf-8 byte sequence from index {f.start}"

/-- What must follow inside a character: how many bytes, and the range of the next one. -/
structure Owed where
  count : Nat
  low : UInt8
  high : UInt8

/-- Between two characters nothing is owed. -/
def Owed.nothing : Owed := ⟨0, 0x80, 0xBF⟩

/-- What the first byte of a character asks for. -/
def lead (b : UInt8) : Option Owed :=
  if b < 0x80 then some .nothing
  else if b < 0xC2 then none
  else if b < 0xE0 then some ⟨1, 0x80, 0xBF⟩
  else if b = 0xE0 then some ⟨2, 0xA0, 0xBF⟩
  else if b = 0xED then some ⟨2, 0x80, 0x9F⟩
  else if b < 0xF0 then some ⟨2, 0x80, 0xBF⟩
  else if b = 0xF0 then some ⟨3, 0x90, 0xBF⟩
  else if b < 0xF4 then some ⟨3, 0x80, 0xBF⟩
  else if b = 0xF4 then some ⟨3, 0x80, 0x8F⟩
  else none

/-- The first fault, reading on inside a character that began at `start` and of which `seen` bytes
were read. -/
def faultFrom (start seen : Nat) (owed : Owed) : Bytes → Option Fault
  | [] => if owed.count = 0 then none else some ⟨start, none⟩
  | b :: rest =>
    if owed.count = 0 then
      match lead b with
      | none => some ⟨start, some 1⟩
      | some owed => if owed.count = 0 then faultFrom (start + 1) 0 owed rest
        else faultFrom start 1 owed rest
    else if owed.low ≤ b ∧ b ≤ owed.high then
      if owed.count = 1 then faultFrom (start + seen + 1) 0 .nothing rest
      else faultFrom start (seen + 1) ⟨owed.count - 1, 0x80, 0xBF⟩ rest
    else some ⟨start, some seen⟩

/-- The first fault of a byte string. -/
def fault? (bytes : Bytes) : Option Fault := faultFrom 0 0 .nothing bytes

/-- The text that the bytes spell, or their first fault. -/
def decode (bytes : Bytes) : Except Fault String :=
  if h : (ByteArray.mk bytes.toArray).IsValidUTF8 then .ok (String.fromUTF8 ⟨bytes.toArray⟩ h)
  else .error ((fault? bytes).getD ⟨0, none⟩)

/-- **Exactly the bytes of texts are read.** -/
theorem decode_eq_ok_iff {bytes : Bytes} {s : String} :
    decode bytes = .ok s ↔ bytes = Bytes.ofText s := by
  have hs : bytes = Bytes.ofText s ↔ ByteArray.mk bytes.toArray = s.toByteArray := by
    simp only [Bytes.ofText, String.toUTF8_eq_toByteArray, ByteArray.ext_iff]
    constructor
    · rintro rfl; simp
    · intro h; simp [← h]
  rw [hs]
  unfold decode
  split
  · next hv =>
    rw [Except.ok.injEq, ← String.toByteArray_inj]
    exact Iff.rfl
  · next hv =>
    constructor
    · nofun
    · intro h
      exact absurd (h ▸ s.isValidUTF8) hv

/-- The bytes of a text read as that text. -/
theorem decode_ofText (s : String) : decode (Bytes.ofText s) = .ok s :=
  decode_eq_ok_iff.2 rfl

end HeapStore.Text.Utf8
