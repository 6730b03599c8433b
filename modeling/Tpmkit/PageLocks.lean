import Mathlib.Data.List.Induction
import Mathlib.Data.Set.Insert

/-!
# Page locks that do not nest

A library for programs that lock pages in memory with calls such as `mlock` and
`munlock`.  A page has one lock, however many calls asked for it: the first
call that unlocks the page takes it away from all of them.

`mem_lockedAfter_iff` is the rule for whole runs.  A page is locked exactly when
some call locked it and no later call unlocked it.
-/

namespace PageLocks

variable {π ε : Type*} (locks unlocks : ε → Set π)

/-- The locked pages after one call. -/
def apply (locked : Set π) (call : ε) : Set π := (locked \ unlocks call) ∪ locks call

/-- The locked pages after some calls. -/
def lockedAfter (locked : Set π) (calls : List ε) : Set π :=
  calls.foldl (apply locks unlocks) locked

variable {locks unlocks}

/-- After a call a page is locked if it was and the call does not unlock it, or if the call
locks it. -/
theorem mem_apply_iff {locked : Set π} {call : ε} {page : π} :
    page ∈ apply locks unlocks locked call ↔
      (page ∈ locked ∧ page ∉ unlocks call) ∨ page ∈ locks call :=
  Iff.rfl

/-- The last call is applied last. -/
theorem lockedAfter_concat (locked : Set π) (calls : List ε) (call : ε) :
    lockedAfter locks unlocks locked (calls ++ [call]) =
      apply locks unlocks (lockedAfter locks unlocks locked calls) call := by
  simp [lockedAfter]

/-- **The history of a locked page.** -/
theorem mem_lockedAfter_iff {calls : List ε} {page : π} :
    page ∈ lockedAfter locks unlocks ∅ calls ↔
      ∃ before call after, calls = before ++ call :: after ∧ page ∈ locks call ∧
        ∀ later ∈ after, page ∉ unlocks later := by
  induction calls using List.reverseRecOn with
  | nil => simp [lockedAfter]
  | append_singleton calls last ih =>
      rw [lockedAfter_concat, mem_apply_iff, ih]
      constructor
      · intro hlocked
        rcases hlocked with ⟨hearlier, hlast⟩ | hlast
        · obtain ⟨before, call, after, rfl, hlocks, hlater⟩ := hearlier
          refine ⟨before, call, after ++ [last], by simp, hlocks, fun later hmem => ?_⟩
          rcases List.mem_append.mp hmem with hmem | hmem
          · exact hlater later hmem
          · exact List.mem_singleton.mp hmem ▸ hlast
        · exact ⟨calls, last, [], rfl, hlast, by simp⟩
      · intro hlocked
        obtain ⟨before, call, after, heq, hlocks, hlater⟩ := hlocked
        rcases List.eq_nil_or_concat after with rfl | ⟨init, final, rfl⟩
        -- the last call is the one that locked the page
        · obtain ⟨_, hlast⟩ := List.append_inj' heq rfl
          exact Or.inr ((List.cons.inj hlast).1 ▸ hlocks)
        · rw [List.concat_eq_append] at heq hlater
          have hsplit : calls ++ [last] = (before ++ call :: init) ++ [final] := by
            rw [heq]
            simp
          obtain ⟨hcalls, hlast⟩ := List.append_inj' hsplit rfl
          have hfinal : last = final := (List.cons.inj hlast).1
          refine Or.inl ⟨⟨before, call, init, hcalls, hlocks, fun later hmem => ?_⟩, ?_⟩
          · exact hlater later (List.mem_append_left _ hmem)
          · exact hfinal ▸ hlater final (by simp)

end PageLocks
