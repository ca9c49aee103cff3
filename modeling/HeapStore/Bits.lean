import HeapStore.Bytes

/-!
# Bits in bytes

Flags are packed eight to a byte, the first flag in the lowest bit.

* `pack`, `unpack`: the two directions; `unpack_pack` says that flags survive packing.
* `isSet`, `setBit`: one bit of a byte. `Bytes.isUsed`, `Bytes.setUsed`: the flag of a number in bytes.
-/

namespace HeapStore.Bits

/-- The number that flags spell, the first flag worth one. -/
def value : List Bool → Nat
  | [] => 0
  | b :: bs => b.toNat + 2 * value bs

/-- The `n` lowest bits of a number, the lowest first. -/
def ofNat : Nat → Nat → List Bool
  | 0, _ => []
  | n + 1, m => (m % 2 == 1) :: ofNat n (m / 2)

/-- `n` bytes that hold the flags. -/
def pack : Nat → List Bool → Bytes
  | 0, _ => []
  | n + 1, flags => UInt8.ofNat (value (flags.take 8)) :: pack n (flags.drop 8)

/-- The flags that bytes hold. -/
def unpack (bytes : Bytes) : List Bool := bytes.flatMap fun b => ofNat 8 b.toNat

/-- One bit of a byte. -/
def isSet (b : UInt8) (k : Nat) : Bool := (b >>> UInt8.ofNat k) &&& 1 == 1

/-- The byte with one of its bits set or cleared. -/
def setBit (b : UInt8) (k : Nat) (used : Bool) : UInt8 :=
  if used then b ||| (1 <<< UInt8.ofNat k) else b &&& ~~~(1 <<< UInt8.ofNat k)

@[simp] theorem length_ofNat (n m : Nat) : (ofNat n m).length = n := by
  induction n generalizing m with
  | zero => rfl
  | succ n ih => simp [ofNat, ih]

@[simp] theorem length_pack (n : Nat) (flags : List Bool) : (pack n flags).length = n := by
  induction n generalizing flags with
  | zero => rfl
  | succ n ih => simp [pack, ih]

@[simp] theorem length_unpack (bytes : Bytes) : (unpack bytes).length = 8 * bytes.length := by
  induction bytes with
  | nil => rfl
  | cons b bytes ih =>
    simp only [unpack, List.flatMap_cons, List.length_append, length_ofNat, List.length_cons] at ih ⊢
    omega

theorem value_lt (flags : List Bool) : value flags < Nat.pow 2 flags.length := by
  induction flags with
  | nil => decide
  | cons b bs ih =>
    have : b.toNat ≤ 1 := Bool.toNat_le b
    have : Nat.pow 2 (bs.length + 1) = 2 * Nat.pow 2 bs.length := Nat.pow_succ'
    simp only [value, List.length_cons]
    omega

theorem ofNat_value (flags : List Bool) : ofNat flags.length (value flags) = flags := by
  induction flags with
  | nil => rfl
  | cons b bs ih =>
    have hb : b.toNat ≤ 1 := Bool.toNat_le b
    have hd : (b.toNat + 2 * value bs) / 2 = value bs := by omega
    have hm : (b.toNat + 2 * value bs) % 2 = b.toNat := by omega
    simp only [List.length_cons, ofNat, value, hd, hm, ih]
    cases b <;> rfl

/-- **Flags survive packing** into as many bytes as they fill. -/
theorem unpack_pack {n : Nat} {flags : List Bool} (h : flags.length = 8 * n) :
    unpack (pack n flags) = flags := by
  induction n generalizing flags with
  | zero => simp_all [pack, unpack]
  | succ n ih =>
    have h8 : (flags.take 8).length = 8 := by simp; omega
    have hv : value (flags.take 8) < 0x100 := by
      have := value_lt (flags.take 8)
      rwa [h8] at this
    have hb : ofNat 8 (UInt8.ofNat (value (flags.take 8))).toNat = flags.take 8 := by
      have := ofNat_value (flags.take 8)
      rw [h8] at this
      rw [UInt8.toNat_ofNat', Nat.mod_eq_of_lt hv, this]
    have ht : unpack (pack n (flags.drop 8)) = flags.drop 8 := ih (by simp; omega)
    simp only [unpack] at ht
    simp only [pack, unpack, List.flatMap_cons, hb, ht, List.take_append_drop]

end HeapStore.Bits

namespace HeapStore.Bytes

/-- The bit of a slot is set. Behind the last byte there is none. -/
def isUsed (bytes : Bytes) (slot : Nat) : Bool :=
  match bytes[slot / 8]? with
  | some b => Bits.isSet b (slot % 8)
  | none => false

/-- The bytes with the bit of one slot set or cleared. -/
def setUsed (bytes : Bytes) (slot : Nat) (used : Bool) : Bytes :=
  bytes.modify (slot / 8) fun b => Bits.setBit b (slot % 8) used

end HeapStore.Bytes
