import Mathlib.Tactic.Common

/-!
# Steps up to the first failure

A library for procedures that make fallible steps in a fixed order and stop at
the first one that fails.  `made` is what such a procedure gets to do; the step
that it fails with and whether it succeeds can be read off what it did.
-/

namespace Attempts

variable {α β : Type} (ok : α → Bool)

/-- The steps that are made: those before the first failing one, and that one. -/
def made : List α → List α
  | [] => []
  | step :: rest => if ok step then step :: made rest else [step]

/-- The first step that fails. -/
def failing (steps : List α) : Option α := steps.find? fun step => !ok step

variable {ok}

@[simp] theorem made_nil : made ok [] = [] := rfl

/-- After a step that succeeds one goes on. -/
theorem made_cons_of_ok {step : α} (h : ok step = true) (rest : List α) :
    made ok (step :: rest) = step :: made ok rest :=
  if_pos h

/-- A step that fails is the last one. -/
theorem made_cons_of_not {step : α} (h : ok step = false) (rest : List α) :
    made ok (step :: rest) = [step] :=
  if_neg (by simp [h])

/-- Nothing fails when everything succeeds. -/
theorem failing_eq_none_iff {steps : List α} :
    failing ok steps = none ↔ ∀ step ∈ steps, ok step = true := by
  simp [failing]

/-- What is done is a beginning of what was planned. -/
theorem made_prefix (steps : List α) : made ok steps <+: steps := by
  induction steps with
  | nil => exact List.prefix_rfl
  | cons step rest ih =>
      cases hok : ok step with
      | true =>
          rw [made_cons_of_ok hok]
          exact (List.prefix_cons_inj step).mpr ih
      | false =>
          rw [made_cons_of_not hok]
          exact ⟨rest, rfl⟩

/-- The steps that are made are those that succeed and the one that fails. -/
theorem made_eq (steps : List α) :
    made ok steps = steps.takeWhile ok ++ (failing ok steps).toList := by
  induction steps with
  | nil => rfl
  | cons step rest ih =>
      cases hok : ok step with
      | true =>
          rw [made_cons_of_ok hok, ih, List.takeWhile_cons_of_pos hok]
          simp [failing, hok]
      | false =>
          rw [made_cons_of_not hok, List.takeWhile_cons_of_neg (by simp [hok])]
          simp [failing, hok]

/-- The step that fails is the last one that is made. -/
theorem getLast?_made_of_failing {steps : List α} {failed : α} (h : failing ok steps = some failed) :
    (made ok steps).getLast? = some failed := by
  rw [made_eq, h]
  exact List.getLast?_concat

/-- What was done tells the step that failed. -/
theorem failing_made (steps : List α) : failing ok (made ok steps) = failing ok steps := by
  induction steps with
  | nil => rfl
  | cons step rest ih =>
      cases hok : ok step with
      | true =>
          rw [made_cons_of_ok hok]
          simpa [failing, hok] using ih
      | false =>
          rw [made_cons_of_not hok]
          simp [failing, hok]

/-- Nothing is done after a step that fails. -/
theorem failing_of_mem_made {steps : List α} {step : α} (hmem : step ∈ made ok steps)
    (hfailed : ok step = false) : failing ok steps = some step := by
  induction steps with
  | nil => cases hmem
  | cons first rest ih =>
      cases hok : ok first with
      | true =>
          rw [made_cons_of_ok hok] at hmem
          rcases List.mem_cons.mp hmem with rfl | hmem
          · rw [hok] at hfailed
            cases hfailed
          · simpa [failing, hok] using ih hmem
      | false =>
          rw [made_cons_of_not hok] at hmem
          obtain rfl := List.mem_singleton.mp hmem
          simp [failing, hok]

/-- The step that fails is among those that are made. -/
theorem mem_made_of_failing {steps : List α} {step : α} (h : failing ok steps = some step) :
    step ∈ made ok steps :=
  List.mem_of_find?_eq_some ((failing_made steps).trans h)

/-- What was done tells why it failed. -/
theorem findSome?_made {reason : α → Option β} (h : ∀ step, ok step = (reason step).isNone)
    (steps : List α) : (made ok steps).findSome? reason = (failing ok steps).bind reason := by
  induction steps with
  | nil => rfl
  | cons step rest ih =>
      cases hreason : reason step with
      | none =>
          have hok : ok step = true := by rw [h, hreason]; rfl
          rw [made_cons_of_ok hok, List.findSome?_cons_of_isNone (by rw [hreason]; rfl), ih]
          simp [failing, hok]
      | some cause =>
          have hok : ok step = false := by rw [h, hreason]; rfl
          rw [made_cons_of_not hok]
          simp [failing, hok, hreason]

/-- If everything succeeds, everything is done. -/
theorem made_of_all {steps : List α} (h : ∀ step ∈ steps, ok step = true) :
    made ok steps = steps := by
  induction steps with
  | nil => rfl
  | cons step rest ih =>
      obtain ⟨hstep, hrest⟩ := List.forall_mem_cons.mp h
      rw [made_cons_of_ok hstep, ih hrest]

/-- Two procedures one after the other, where the first one succeeds. -/
theorem made_append_of_all {steps : List α} (h : ∀ step ∈ steps, ok step = true)
    (later : List α) : made ok (steps ++ later) = steps ++ made ok later := by
  induction steps with
  | nil => rfl
  | cons step rest ih =>
      obtain ⟨hstep, hrest⟩ := List.forall_mem_cons.mp h
      rw [List.cons_append, made_cons_of_ok hstep, ih hrest, List.cons_append]

/-- Two procedures one after the other, where the first one fails. -/
theorem made_append_of_failing {steps : List α} {failed : α} (h : failing ok steps = some failed)
    (later : List α) : made ok (steps ++ later) = made ok steps := by
  induction steps with
  | nil => cases h
  | cons step rest ih =>
      cases hok : ok step with
      | true =>
          have hrest : failing ok rest = some failed := by simpa [failing, hok] using h
          rw [List.cons_append, made_cons_of_ok hok, made_cons_of_ok hok, ih hrest]
      | false => rw [List.cons_append, made_cons_of_not hok, made_cons_of_not hok]

/-- After a part that succeeds the rest decides. -/
theorem failing_append_of_all {steps : List α} (h : ∀ step ∈ steps, ok step = true)
    (later : List α) : failing ok (steps ++ later) = failing ok later := by
  rw [failing, List.find?_append, show steps.find? _ = none from failing_eq_none_iff.mpr h]
  rfl

/-- After a part that fails the rest does not matter. -/
theorem failing_append_of_failing {steps : List α} {failed : α}
    (h : failing ok steps = some failed) (later : List α) :
    failing ok (steps ++ later) = some failed := by
  rw [failing, List.find?_append, show steps.find? _ = some failed from h]
  rfl

end Attempts
