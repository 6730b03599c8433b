import Mathlib.Data.Nat.Digits.Defs
import Mathlib.Data.Nat.Log
import Mathlib.Tactic.Common

/-!
# Numerals of fixed width

The `width` lowest digits of a number, the most significant first, and the
number that such a numeral denotes.  `value_digits` reads a numeral back; a number
that fits is not changed by it.  A `padded` numeral has a least width and as many
digits more as its number needs.
-/

namespace FixedDigits

/-- The `width` lowest digits of a number, the most significant first. -/
def digits (base : Nat) : Nat → Nat → List Nat
  | 0, _ => []
  | width + 1, n => digits base width (n / base) ++ [n % base]

/-- The number that a numeral denotes. -/
def value (base : Nat) (numeral : List Nat) : Nat := Nat.ofDigits base numeral.reverse

variable {base : Nat}

/-- There are as many digits as asked for. -/
@[simp] theorem length_digits (width n : Nat) : (digits base width n).length = width := by
  induction width generalizing n with
  | zero => rfl
  | succ width ih => simp [digits, ih]

/-- Every digit is below the base. -/
theorem lt_of_mem_digits (hbase : 0 < base) {width n d : Nat} (h : d ∈ digits base width n) :
    d < base := by
  induction width generalizing n with
  | zero => simp [digits] at h
  | succ width ih =>
      rw [digits, List.mem_append, List.mem_singleton] at h
      rcases h with h | rfl
      · exact ih h
      · exact Nat.mod_lt n hbase

/-- A further digit counts once, and what stands before it `base` times. -/
theorem value_append_singleton (numeral : List Nat) (d : Nat) :
    value base (numeral ++ [d]) = d + base * value base numeral := by
  simp [value, Nat.ofDigits_cons]

/-- A numeral denotes the number modulo what its width can hold. -/
theorem value_digits (width n : Nat) : value base (digits base width n) = n % base ^ width := by
  induction width generalizing n with
  | zero => simp [digits, value, Nat.mod_one]
  | succ width ih =>
      rw [digits, value_append_singleton, ih, Nat.pow_succ, Nat.mul_comm (base ^ width) base,
        Nat.mod_mul]

/-- A number that the width has room for is read back. -/
theorem value_digits_of_lt {width n : Nat} (h : n < base ^ width) :
    value base (digits base width n) = n := by
  rw [value_digits, Nat.mod_eq_of_lt h]

/-- The digit at each position. -/
theorem digits_eq_map (width n : Nat) :
    digits base width n = (List.range width).map fun i => n / base ^ (width - 1 - i) % base := by
  induction width generalizing n with
  | zero => rfl
  | succ width ih =>
      rw [digits, ih, List.range_succ, List.map_append, List.map_singleton]
      congr 1
      · apply List.map_congr_left
        intro i hi
        have hlt : i < width := List.mem_range.mp hi
        have hexponent : width + 1 - 1 - i = width - 1 - i + 1 := by omega
        rw [hexponent, Nat.pow_succ, Nat.mul_comm, Nat.div_div_eq_div_mul]
      · simp

/-! ## Padding -/

/-- All digits of a number, with zeros in front up to the least width. -/
def padded (base width n : Nat) : List Nat := digits base (max width (Nat.log base n + 1)) n

/-- Padding fills up to the width and never cuts. -/
@[simp] theorem length_padded (width n : Nat) :
    (padded base width n).length = max width (Nat.log base n + 1) :=
  length_digits _ n

/-- A number that fits is not widened. -/
theorem padded_of_lt {width n : Nat} (hwidth : 0 < width) (h : n < base ^ width) :
    padded base width n = digits base width n := by
  have hlog : Nat.log base n < width := by
    rcases Nat.eq_zero_or_pos n with rfl | hn
    · rw [Nat.log_zero_right]
      exact hwidth
    · exact Nat.log_lt_of_lt_pow (Nat.ne_of_gt hn) h
  rw [padded, Nat.max_eq_left hlog]

end FixedDigits
