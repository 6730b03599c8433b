import Mathlib.Data.Nat.Bitwise

/-!
# Byte arrays as bitmaps

Bit `i` of a byte array is bit `i % 8` of byte `i / 8`.  Setting and testing a
bit are written as C writes them, on the byte promoted to 32 bits, and are
related here to `Nat.testBit`, so that a round trip can be argued one bit at a
time.
-/

namespace ByteBitmap

variable {n : Nat}

/-- Bit `i` of a byte array; bits past the array are clear. -/
def bit (bytes : Vector UInt8 n) (i : Nat) : Bool :=
  if h : i / 8 < n then bytes[i / 8].toNat.testBit (i % 8) else false

/-- `1U << k`. -/
def mask (k : Nat) : UInt32 := 1 <<< UInt32.ofNat k

/-- `(byte & (1U << k)) != 0`. -/
def isSet (byte : UInt8) (k : Nat) : Bool := byte.toUInt32 &&& mask k ≠ 0

/-- `static_cast<BYTE>(byte | (1U << k))`. -/
def withBit (byte : UInt8) (k : Nat) : UInt8 := (byte.toUInt32 ||| mask k).toUInt8

/-- The mask of a bit is its power of two. -/
theorem mask_toNat {k : Nat} (hk : k < 8) : (mask k).toNat = 2 ^ k := by
  have hshift : (UInt32.ofNat k).toNat % 32 = k := by
    simp only [UInt32.toNat_ofNat', Nat.reducePow]
    omega
  have hlt : 2 ^ k < 2 ^ 32 := Nat.pow_lt_pow_right (by decide) (by omega)
  simp only [mask, UInt32.toNat_shiftLeft, hshift]
  simpa [Nat.shiftLeft_eq] using hlt

/-- Masking tests the bit. -/
theorem isSet_eq_testBit (byte : UInt8) {k : Nat} (hk : k < 8) :
    isSet byte k = byte.toNat.testBit k := by
  have hzero : byte.toUInt32 &&& mask k = 0 ↔ byte.toNat.testBit k = false := by
    rw [← UInt32.toNat_inj, UInt32.toNat_and, mask_toNat hk, UInt8.toNat_toUInt32,
      Nat.and_two_pow]
    cases byte.toNat.testBit k <;> simp
  cases hbit : byte.toNat.testBit k <;> simp [isSet, hzero, hbit]

/-- Setting a bit sets it and leaves the others. -/
theorem testBit_withBit (byte : UInt8) {k : Nat} (hk : k < 8) (j : Nat) :
    (withBit byte k).toNat.testBit j = (byte.toNat.testBit j || decide (j = k)) := by
  simp only [withBit, UInt32.toNat_toUInt8, UInt32.toNat_or, mask_toNat hk,
    UInt8.toNat_toUInt32, Nat.testBit_mod_two_pow, Nat.testBit_or, Nat.testBit_two_pow]
  by_cases hj : j < 8
  · simp [hj, eq_comm]
  · have hbyte : byte.toNat.testBit j = false :=
      Nat.testBit_lt_two_pow (Nat.lt_of_lt_of_le byte.toNat_lt
        (Nat.pow_le_pow_right (by decide) (by omega)))
    have hne : j ≠ k := by omega
    simp [hj, hbyte, hne]

/-- A bit of the map is one of the byte that it falls into. -/
theorem bit_of_lt {bytes : Vector UInt8 n} {i : Nat} (h : i / 8 < n) :
    bit bytes i = bytes[i / 8].toNat.testBit (i % 8) := by
  simp [bit, h]

/-- Bit `k` of byte `b` is bit `8 * b + k` of the array. -/
theorem bit_mul_add {bytes : Vector UInt8 n} {b k : Nat} (hb : b < n) (hk : k < 8) :
    bit bytes (b * 8 + k) = bytes[b].toNat.testBit k := by
  have hdiv : (b * 8 + k) / 8 = b := by omega
  have hmod : (b * 8 + k) % 8 = k := by omega
  simp [bit, hdiv, hmod, hb]

/-- Setting bit `i` in its byte sets exactly that bit of the array. -/
theorem bit_set_withBit {bytes : Vector UInt8 n} {i : Nat} (hi : i / 8 < n) (j : Nat) :
    bit (bytes.set (i / 8) (withBit bytes[i / 8] (i % 8))) j =
      (bit bytes j || decide (j = i)) := by
  by_cases hj : j / 8 < n
  · rw [bit_of_lt hj, bit_of_lt hj, Vector.getElem_set]
    by_cases hbyte : i / 8 = j / 8
    · have hsame : decide (j % 8 = i % 8) = decide (j = i) := by
        apply decide_eq_decide.mpr
        omega
      simp [hbyte, testBit_withBit _ (Nat.mod_lt i (by decide)), hsame]
    · have hne : j ≠ i := fun h => hbyte (h ▸ rfl)
      simp [hbyte, hne]
  · have hne : j ≠ i := fun h => hj (h ▸ hi)
    simp [bit, hj, hne]

/-- A map of zeros has no bit. -/
@[simp] theorem bit_replicate_zero (i : Nat) : bit (Vector.replicate n 0) i = false := by
  by_cases h : i / 8 < n <;> simp [bit, h]

/-- Bytes with the same eight bits are the same. -/
theorem byte_ext {x y : UInt8} (h : ∀ k, k < 8 → x.toNat.testBit k = y.toNat.testBit k) :
    x = y := by
  apply UInt8.toNat_inj.mp
  apply Nat.eq_of_testBit_eq
  intro k
  by_cases hk : k < 8
  · exact h k hk
  · have hout : ∀ z : UInt8, z.toNat.testBit k = false := fun z =>
      Nat.testBit_lt_two_pow (Nat.lt_of_lt_of_le z.toNat_lt
        (Nat.pow_le_pow_right (by decide) (by omega)))
    rw [hout x, hout y]

/-- A byte whose bits are all clear is zero. -/
theorem byte_eq_zero {bytes : Vector UInt8 n} {b : Nat} (hb : b < n)
    (h : ∀ k, k < 8 → bit bytes (b * 8 + k) = false) : bytes[b] = 0 := by
  apply byte_ext
  intro k hk
  rw [← bit_mul_add hb hk, h k hk]
  simp

end ByteBitmap
