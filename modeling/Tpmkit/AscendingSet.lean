import Mathlib.Data.Finset.Sort
import Mathlib.Data.Fintype.Basic
import Mathlib.Order.Fin.Basic

/-!
# Ordered sets of bounded indices

An ordered set of indices below `n` is a `Finset (Fin n)` together with its
ascending enumeration, the order in which an iterator walks it.  The
enumeration filters the list of all indices, so it evaluates on a concrete
set; `ascending_eq_sort` identifies it with Mathlib's sorted list.
-/

namespace AscendingSet

variable {n : Nat}

/-- The members of `s`, each once, from the smallest to the largest. -/
def ascending (s : Finset (Fin n)) : List (Fin n) :=
  (List.finRange n).filter (· ∈ s)

/-- The list has the elements of the set. -/
@[simp] theorem mem_ascending {s : Finset (Fin n)} {i : Fin n} :
    i ∈ ascending s ↔ i ∈ s := by
  simp [ascending]

/-- The list ascends strictly. -/
theorem pairwise_ascending (s : Finset (Fin n)) :
    (ascending s).Pairwise (· < ·) :=
  (List.pairwise_lt_finRange n).filter _

/-- No element is listed twice. -/
theorem nodup_ascending (s : Finset (Fin n)) : (ascending s).Nodup :=
  (List.nodup_finRange n).filter _

/-- An ascending list is the enumeration of the set of its members. -/
theorem eq_ascending {l : List (Fin n)} {s : Finset (Fin n)}
    (hl : l.Pairwise (· < ·)) (hmem : ∀ i, i ∈ l ↔ i ∈ s) : l = ascending s := by
  refine @List.Perm.eq_of_pairwise _ (· < ·) _ _ ?_ ?_ ?_ ?_
  · exact fun a b _ _ hab hba => absurd hab (lt_asymm hba)
  · exact hl
  · exact pairwise_ascending s
  · exact (List.perm_ext_iff_of_nodup (hl.imp ne_of_lt) (nodup_ascending s)).mpr
      fun i => by rw [hmem, mem_ascending]

/-- The enumeration is Mathlib's sorted list of the set. -/
theorem ascending_eq_sort (s : Finset (Fin n)) : ascending s = s.sort :=
  (eq_ascending s.sortedLT_sort.pairwise fun _ => Finset.mem_sort _).symm

/-- The list is as long as the set is large. -/
@[simp] theorem length_ascending (s : Finset (Fin n)) : (ascending s).length = s.card := by
  rw [ascending_eq_sort, Finset.length_sort]

/-- The empty set makes the empty list. -/
@[simp] theorem ascending_empty : ascending (∅ : Finset (Fin n)) = [] := by
  simp [ascending]

end AscendingSet
