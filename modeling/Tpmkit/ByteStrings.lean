import Mathlib.Data.List.TakeWhile
import Mathlib.Tactic.Common

/-!
# Byte strings and C strings

Two notions of string meet at a C interface.  A `ByteString` has a length and
may hold any bytes.  A `CString` is memory that contains a NUL: what its reader
sees is `contents`, the bytes before the first NUL.  `contents_cStr_eq_iff` says
when a byte string handed over as a C string is seen whole.
-/

namespace ByteStrings

/-- A property of all bytes is checked on the 256 numbers. -/
theorem forall_byte {P : UInt8 → Prop} (h : ∀ n < 256, P (UInt8.ofNat n)) (byte : UInt8) :
    P byte := by
  have hbyte := h byte.toNat byte.toNat_lt
  rwa [UInt8.ofNat_toNat] at hbyte

/-- A counted string of bytes. -/
abbrev ByteString : Type := List UInt8

/-- The bytes of an ASCII literal. -/
def ascii (text : String) : ByteString :=
  text.toList.map fun c => UInt8.ofNat c.toNat

/-- `std::to_string` of an unsigned number. -/
def decimal (n : Nat) : ByteString := ascii (toString n)

/-- The memory a `const char*` points to, up to some NUL. -/
structure CString where
  memory : List UInt8
  terminated : (0 : UInt8) ∈ memory
deriving DecidableEq, Repr

/-- The bytes up to the first NUL. -/
def CString.contents (s : CString) : ByteString := s.memory.takeWhile (· ≠ 0)

/-- `c_str()`: the bytes of the string with a NUL after them. -/
def cStr (s : ByteString) : CString := ⟨s ++ [0], by simp⟩

theorem contents_cStr (s : ByteString) : (cStr s).contents = s.takeWhile (· ≠ 0) := by
  simp only [CString.contents, cStr, List.takeWhile_append]
  split
  · next h => simpa using ((List.takeWhile_prefix _).eq_of_length h).symm
  · rfl

/-- A byte string is seen whole exactly when it holds no NUL. -/
theorem contents_cStr_eq_iff {s : ByteString} : (cStr s).contents = s ↔ (0 : UInt8) ∉ s := by
  rw [contents_cStr, List.takeWhile_eq_self_iff]
  constructor
  · intro h hmem
    simpa using h 0 hmem
  · intro h b hb
    have hne : b ≠ 0 := fun hzero => h (hzero ▸ hb)
    simpa using hne

end ByteStrings
