import Mathlib.Data.List.DropRight

/-!
# Trimming with two indices

A small library for the loops that trim a string: `first` moves up past leading
blanks, `last` moves down past trailing ones, and what is left is between them.
`trimmed_eq` says that the loops drop a prefix and a suffix of blanks, and
`trimmed_eq_self_iff` when they drop nothing.
-/

namespace Trimming

variable {α : Type} (blank : α → Bool) (values : List α)

/-- `while (first < last && blank(values[first])) ++first`. -/
def skipLeading (first last : Nat) : Nat :=
  if first < last ∧ values[first]?.any blank then skipLeading (first + 1) last else first
termination_by last - first

/-- `while (last > first && blank(values[last - 1])) --last`. -/
def skipTrailing (first : Nat) : Nat → Nat
  | 0 => 0
  | last + 1 =>
      if first < last + 1 ∧ values[last]?.any blank then skipTrailing first last else last + 1

/-- What is left between the two positions. -/
def trimmed : List α :=
  let first := skipLeading blank values 0 values.length
  let last := skipTrailing blank values first values.length
  (values.drop first).take (last - first)

/-- The first loop drops the leading blanks of what is left. -/
theorem drop_skipLeading (first : Nat) :
    values.drop (skipLeading blank values first values.length) =
      (values.drop first).dropWhile blank := by
  induction hleft : values.length - first generalizing first with
  | zero =>
      have hend : values.length ≤ first := Nat.sub_eq_zero_iff_le.mp hleft
      have hstop : skipLeading blank values first values.length = first := by
        rw [skipLeading, if_neg fun h => Nat.not_lt.mpr hend h.1]
      rw [hstop, List.drop_of_length_le hend, List.dropWhile_nil]
  | succ left ih =>
      have hfirst : first < values.length := by omega
      rw [skipLeading, List.drop_eq_getElem_cons hfirst, List.getElem?_eq_getElem hfirst]
      cases hblank : blank values[first] with
      | true =>
          rw [if_pos ⟨hfirst, by simpa using hblank⟩, ih (first + 1) (by omega),
            List.dropWhile_cons_of_pos hblank]
      | false =>
          rw [if_neg fun h => by simp [hblank] at h, List.dropWhile_cons_of_neg (by simp [hblank]),
            List.drop_eq_getElem_cons hfirst]

/-- The second loop drops the trailing blanks of what is left. -/
theorem take_skipTrailing {first last : Nat} (hlast : last ≤ values.length) :
    (values.drop first).take (skipTrailing blank values first last - first) =
      ((values.drop first).take (last - first)).rdropWhile blank := by
  induction last with
  | zero => simp [skipTrailing]
  | succ last ih =>
      by_cases hfirst : first < last + 1
      swap
      · have hempty : last + 1 - first = 0 := by omega
        have hstop : skipTrailing blank values first (last + 1) = last + 1 := by
          rw [skipTrailing, if_neg fun h => hfirst h.1]
        simp [hstop, hempty]
      have hbound : last - first < (values.drop first).length := by
        rw [List.length_drop]
        omega
      have hvalue : (values.drop first)[last - first] = values[last] := by
        rw [List.getElem_drop]
        congr 1
        omega
      have hsucc : last + 1 - first = last - first + 1 := by omega
      rw [hsucc, List.take_succ_eq_append_getElem hbound, hvalue, List.rdropWhile_concat,
        skipTrailing, List.getElem?_eq_getElem hlast]
      cases hblank : blank values[last] with
      | true => rw [if_pos ⟨hfirst, by simpa using hblank⟩, if_pos rfl, ih (by omega)]
      | false =>
          rw [if_neg fun h => by simp [hblank] at h, if_neg Bool.false_ne_true, hsucc,
            List.take_succ_eq_append_getElem hbound, hvalue]

/-- **The loops drop the blanks at both ends.** -/
theorem trimmed_eq : trimmed blank values = (values.dropWhile blank).rdropWhile blank := by
  have hleading := drop_skipLeading blank values 0
  rw [List.drop_zero] at hleading
  rw [trimmed, take_skipTrailing blank values (Nat.le_refl _), hleading, List.take_of_length_le]
  rw [← hleading, List.length_drop]

/-- **Nothing is dropped when there is no blank at either end.** -/
theorem trimmed_eq_self_iff :
    trimmed blank values = values ↔
      (∀ a ∈ values.head?, blank a = false) ∧ ∀ a ∈ values.getLast?, blank a = false := by
  rw [trimmed_eq]
  constructor
  · intro h
    have hleading : values.dropWhile blank = values := by
      have hle : ((values.dropWhile blank).rdropWhile blank).length ≤
          (values.dropWhile blank).length := (List.rdropWhile_prefix blank _).length_le
      rw [h] at hle
      exact (List.dropWhile_suffix blank).eq_of_length_le hle
    rw [hleading] at h
    constructor
    · intro a ha
      obtain ⟨rest, rfl⟩ := List.head?_eq_some_iff.mp ha
      by_contra hblank
      have hshorter : (rest.dropWhile blank).length ≤ rest.length :=
        (List.dropWhile_suffix blank).length_le
      rw [List.dropWhile_cons_of_pos (by simpa using hblank)] at hleading
      rw [hleading] at hshorter
      exact Nat.not_succ_le_self _ hshorter
    · intro a ha
      obtain ⟨front, rfl⟩ := List.getLast?_eq_some_iff.mp ha
      simpa using List.rdropWhile_eq_self_iff.mp h (by simp)
  · intro h
    obtain ⟨hfirst, hlast⟩ := h
    have hleading : values.dropWhile blank = values := by
      cases values with
      | nil => rfl
      | cons a rest => exact List.dropWhile_cons_of_neg (by simp [hfirst a rfl])
    rw [hleading]
    refine List.rdropWhile_eq_self_iff.mpr fun hne => ?_
    simp [hlast _ (List.getLast?_eq_some_getLast hne)]

end Trimming
