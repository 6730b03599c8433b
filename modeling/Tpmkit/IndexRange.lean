import Tpmkit.PcrValues

/-!
# Ranges of PCR indices

`make_index_range` of `index.cpp`, over unsigned 32-bit arithmetic.  The guard
compares the start first, so that its subtraction does not wrap, and it keeps every
index of the loop in range (`makeIndexRange_exact`).
-/

namespace Tpmkit.Pcr

open Checked AscendingSet

/-- The message of the guard. -/
def indexRangeMessage : String := "PCR index range must be in the range 0-31"

/-- `max_index` of the guard. -/
def maxIndex : UInt32 := UInt32.ofNat Index.maxValue

/-- `validate_index_range`. -/
def validateIndexRange (first count : UInt32) : Outcome Unit :=
  if count = 0 then return ()
  else if first > maxIndex || count > maxIndex + 1 - first then
    .fault (.thrown (.inputValidationError indexRangeMessage))
  else return ()

/-- One pass of the loop of `make_index_range`. -/
def insertIndex (first : UInt32) (offset : Nat) (indices : Finset Index) :
    Outcome (Finset Index) := do
  let index ← Index.make (first + UInt32.ofNat offset)
  return insert index indices

/-- `make_index_range`. -/
def makeIndexRange (first count : UInt32) : Outcome (Finset Index) := do
  validateIndexRange first count
  forIndex (insertIndex first) count.toNat 0 ∅

/-! ## The guard -/

/-- The range is empty or lies inside 0 to 31. -/
def RangeFits (first count : UInt32) : Prop :=
  count.toNat = 0 ∨ first.toNat + count.toNat ≤ 32

theorem maxIndex_toNat : maxIndex.toNat = 31 := by decide

/-- The subtraction of the guard does not wrap where it is reached. -/
theorem remaining_toNat {first : UInt32} (h : first.toNat ≤ 31) :
    (maxIndex + 1 - first).toNat = 32 - first.toNat := by
  have hnext : (maxIndex + 1).toNat = 32 := by decide
  have hle : first ≤ maxIndex + 1 := by
    rw [UInt32.le_iff_toNat_le, hnext]
    omega
  rw [UInt32.toNat_sub_of_le _ _ hle, hnext]

theorem validateIndexRange_of_fits {first count : UInt32} (h : RangeFits first count) :
    validateIndexRange first count = .value () := by
  unfold validateIndexRange
  split
  · rfl
  · next hcount =>
    have hpos : count.toNat ≠ 0 := fun hzero => hcount (UInt32.toNat_inj.mp hzero)
    have hsum : first.toNat + count.toNat ≤ 32 := h.resolve_left hpos
    have hfirst : ¬first > maxIndex := by
      rw [gt_iff_lt, UInt32.lt_iff_toNat_lt, maxIndex_toNat]
      omega
    have hremaining : ¬count > maxIndex + 1 - first := by
      rw [gt_iff_lt, UInt32.lt_iff_toNat_lt, remaining_toNat (by omega)]
      omega
    simp [hfirst, hremaining]

theorem validateIndexRange_of_not_fits {first count : UInt32} (h : ¬RangeFits first count) :
    validateIndexRange first count =
      .fault (.thrown (.inputValidationError indexRangeMessage)) := by
  obtain ⟨hpos, hsum⟩ := not_or.mp h
  have hcount : count ≠ 0 := fun hzero => hpos (by rw [hzero]; rfl)
  rw [validateIndexRange, if_neg hcount]
  by_cases hfirst : first > maxIndex
  · simp [hfirst]
  · have hle : first.toNat ≤ 31 := by
      rw [gt_iff_lt, UInt32.lt_iff_toNat_lt, maxIndex_toNat] at hfirst
      omega
    have hremaining : count > maxIndex + 1 - first := by
      rw [gt_iff_lt, UInt32.lt_iff_toNat_lt, remaining_toNat hle]
      omega
    simp [hfirst, hremaining]

/-! ## The loop -/

/-- The index of a pass neither wraps nor is out of range. -/
theorem index_of_pass {first count : UInt32} {offset : Nat} (h : first.toNat + count.toNat ≤ 32)
    (hoffset : offset < count.toNat) :
    (first + UInt32.ofNat offset).toNat = first.toNat + offset ∧
      ∃ hlt : first.toNat + offset < 32,
        Index.make (first + UInt32.ofNat offset) = .value ⟨first.toNat + offset, hlt⟩ := by
  have hlt : first.toNat + offset < 32 := by omega
  have hsum : (first + UInt32.ofNat offset).toNat = first.toNat + offset := by
    rw [UInt32.toNat_add, UInt32.toNat_ofNat']
    omega
  refine ⟨hsum, hlt, ?_⟩
  have hmake := Index.make_ofNat (n := first.toNat + offset) (Nat.le_of_lt_succ hlt)
  have hvalue : UInt32.ofNat (first.toNat + offset) = first + UInt32.ofNat offset := by
    apply UInt32.toNat_inj.mp
    rw [hsum, UInt32.toNat_ofNat']
    omega
  rwa [hvalue] at hmake

/-- The loop collects the indices of its passes. -/
theorem insertIndexLoop {first count : UInt32} (h : first.toNat + count.toNat ≤ 32) :
    ∃ indices, forIndex (insertIndex first) count.toNat 0 ∅ = .value indices ∧
      ∀ i : Index, i ∈ indices ↔ first.toNat ≤ i.val ∧ i.val < first.toNat + count.toNat := by
  obtain ⟨indices, hloop, hindices⟩ := forIndex_invariant (insertIndex first)
    (fun offset indices => ∀ i : Index, i ∈ indices ↔
      first.toNat ≤ i.val ∧ i.val < first.toNat + offset) count.toNat 0 ∅
    (fun offset indices _ hoffset hmem => by
      obtain ⟨_, hlt, hmake⟩ := index_of_pass h (show offset < count.toNat by omega)
      refine ⟨insert ⟨first.toNat + offset, hlt⟩ indices, ?_, ?_⟩
      · rw [insertIndex, hmake]
        rfl
      · intro i
        simp only [Finset.mem_insert, hmem, Fin.ext_iff]
        omega)
    (fun i => by
      refine iff_of_false (Finset.notMem_empty i) ?_
      omega)
  rw [Nat.zero_add] at hindices
  exact ⟨indices, hloop, hindices⟩

/-- A set of consecutive indices is walked from its first to its last. -/
theorem ascending_eq_range {indices : Finset Index} {first count : Nat} (hfits : first + count ≤ 32)
    (hmem : ∀ i : Index, i ∈ indices ↔ first ≤ i.val ∧ i.val < first + count) :
    (ascending indices).map Fin.val = List.range' first count := by
  have hsorted : ((ascending indices).map Fin.val).Pairwise (· < ·) :=
    List.pairwise_map.mpr (pairwise_ascending indices)
  have hrange : (List.range' first count).Pairwise (· < ·) := List.pairwise_lt_range'
  refine @List.Perm.eq_of_pairwise _ (· < ·) _ _ ?_ hsorted hrange ?_
  · exact fun a b _ _ hab hba => absurd hab (Nat.lt_asymm hba)
  · apply (List.perm_ext_iff_of_nodup (hsorted.imp Nat.ne_of_lt) (hrange.imp Nat.ne_of_lt)).mpr
    intro n
    simp only [List.mem_map, mem_ascending, hmem, List.mem_range'_1]
    constructor
    · intro h
      obtain ⟨i, hi, rfl⟩ := h
      exact hi
    · intro h
      exact ⟨⟨n, Nat.lt_of_lt_of_le h.2 hfits⟩, h, rfl⟩

/-- **Ranges are exact over all 32-bit arguments.**  The call throws exactly when the
count is positive and the sum of the arguments exceeds 32.  Otherwise it returns the
indices from the first on, in ascending order.  The subtraction of the guard and the
additions of the loop do not wrap, and no index that the loop constructs throws. -/
theorem makeIndexRange_exact (first count : UInt32) :
    (0 < count.toNat ∧ 32 < first.toNat + count.toNat →
      makeIndexRange first count =
        .fault (.thrown (.inputValidationError "PCR index range must be in the range 0-31"))) ∧
    (¬(0 < count.toNat ∧ 32 < first.toNat + count.toNat) →
      (∃ indices, makeIndexRange first count = .value indices ∧
        (ascending indices).map Fin.val = List.range' first.toNat count.toNat) ∧
      ∀ offset < count.toNat,
        (first + UInt32.ofNat offset).toNat = first.toNat + offset ∧
          ∃ index, Index.make (first + UInt32.ofNat offset) = .value index) ∧
    (first.toNat ≤ 31 → (maxIndex + 1 - first).toNat = 32 - first.toNat) := by
  refine ⟨?_, ?_, remaining_toNat⟩
  · intro h
    have hnot : ¬RangeFits first count := by
      unfold RangeFits
      omega
    rw [makeIndexRange, validateIndexRange_of_not_fits hnot]
    rfl
  · intro h
    have hfits : RangeFits first count := by
      unfold RangeFits
      omega
    constructor
    · rcases hfits with hzero | hsum
      · refine ⟨∅, ?_, ?_⟩
        · rw [makeIndexRange, validateIndexRange_of_fits (Or.inl hzero), hzero]
          rfl
        · rw [hzero, ascending_empty]
          rfl
      · obtain ⟨indices, hloop, hindices⟩ := insertIndexLoop hsum
        refine ⟨indices, ?_, ascending_eq_range hsum hindices⟩
        rw [makeIndexRange, validateIndexRange_of_fits (Or.inr hsum)]
        exact hloop
    · intro offset hoffset
      have hsum : first.toNat + count.toNat ≤ 32 := hfits.resolve_left (by omega)
      obtain ⟨hvalue, _, hmake⟩ := index_of_pass hsum hoffset
      exact ⟨hvalue, _, hmake⟩

/-- The last index alone, and a sum that wraps in 32 bits. -/
theorem makeIndexRange_exact_bounds :
    (∃ indices, makeIndexRange 31 1 = .value indices ∧ (ascending indices).map Fin.val = [31]) ∧
      makeIndexRange 1 0xffffffff =
        .fault (.thrown (.inputValidationError "PCR index range must be in the range 0-31")) :=
  ⟨((makeIndexRange_exact 31 1).2.1 (by decide)).1, (makeIndexRange_exact 1 0xffffffff).1 (by decide)⟩

end Tpmkit.Pcr
