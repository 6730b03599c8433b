import Mathlib.Data.List.Induction
import Mathlib.Tactic.Common

/-!
# Sessions with resources

A library for traces in which resources are opened over a base, used, and
closed, and bases are released.  A trace is `Disciplined` when every resource is
opened once, used and closed only while it is open, and no base is released
under an open resource.

`session_of_disciplined` says what this means for one resource: it is opened,
used any number of times, and closed at the end if at all.
-/

namespace ResourceSessions

variable {τ ρ : Type}

/-- What is done to resources in `ρ` over bases in `τ`. -/
inductive Step (τ ρ : Type) where
  | opened (base : τ) (r : ρ)
  | used (r : ρ)
  | closed (r : ρ)
  | released (base : τ)
deriving DecidableEq

/-- The resources that were opened, each with its base. -/
def openings (steps : List (Step τ ρ)) : List (τ × ρ) :=
  steps.filterMap fun
    | .opened base r => some (base, r)
    | _ => none

/-- The resources that were closed. -/
def closings (steps : List (Step τ ρ)) : List ρ :=
  steps.filterMap fun
    | .closed r => some r
    | _ => none

/-- The resource was opened, and not closed since. -/
def Live (steps : List (Step τ ρ)) (r : ρ) : Prop :=
  (∃ base, (base, r) ∈ openings steps) ∧ r ∉ closings steps

/-- A step that is in order after the steps before it. -/
def Allowed (past : List (Step τ ρ)) : Step τ ρ → Prop
  | .opened _ r => (∀ base, (base, r) ∉ openings past) ∧ r ∉ closings past
  | .used r => Live past r
  | .closed r => Live past r
  | .released base => ∀ r, (base, r) ∈ openings past → r ∈ closings past

/-- Each of the later steps is in order. -/
def Disciplined (past : List (Step τ ρ)) : List (Step τ ρ) → Prop
  | [] => True
  | step :: steps => Allowed past step ∧ Disciplined (past ++ [step]) steps

variable {past steps steps' : List (Step τ ρ)}

/-! ## Openings and closings -/

@[simp] theorem openings_nil : openings ([] : List (Step τ ρ)) = [] := rfl

@[simp] theorem closings_nil : closings ([] : List (Step τ ρ)) = [] := rfl

/-- The openings of two parts are those of the one and then those of the other. -/
@[simp] theorem openings_append :
    openings (steps ++ steps') = openings steps ++ openings steps' :=
  List.filterMap_append

/-- So are the closings. -/
@[simp] theorem closings_append :
    closings (steps ++ steps') = closings steps ++ closings steps' :=
  List.filterMap_append

@[simp] theorem openings_opened (base : τ) (r : ρ) :
    openings (.opened base r :: steps) = (base, r) :: openings steps := rfl

@[simp] theorem openings_used (r : ρ) :
    openings (.used r :: steps : List (Step τ ρ)) = openings steps := rfl

@[simp] theorem openings_closed (r : ρ) :
    openings (.closed r :: steps : List (Step τ ρ)) = openings steps := rfl

@[simp] theorem openings_released (base : τ) :
    openings (.released base :: steps : List (Step τ ρ)) = openings steps := rfl

@[simp] theorem closings_opened (base : τ) (r : ρ) :
    closings (.opened base r :: steps) = closings steps := rfl

@[simp] theorem closings_used (r : ρ) :
    closings (.used r :: steps : List (Step τ ρ)) = closings steps := rfl

@[simp] theorem closings_closed (r : ρ) :
    closings (.closed r :: steps : List (Step τ ρ)) = r :: closings steps := rfl

@[simp] theorem closings_released (base : τ) :
    closings (.released base :: steps : List (Step τ ρ)) = closings steps := rfl

@[simp] theorem openings_replicate_used (n : Nat) (r : ρ) :
    openings (List.replicate n (.used r) : List (Step τ ρ)) = [] := by
  induction n with
  | zero => rfl
  | succ n ih => rw [List.replicate_succ, openings_used, ih]

@[simp] theorem closings_replicate_used (n : Nat) (r : ρ) :
    closings (List.replicate n (.used r) : List (Step τ ρ)) = [] := by
  induction n with
  | zero => rfl
  | succ n ih => rw [List.replicate_succ, closings_used, ih]

/-! ## Discipline -/

@[simp] theorem disciplined_nil : Disciplined past [] := trivial

@[simp] theorem disciplined_singleton (step : Step τ ρ) :
    Disciplined past [step] ↔ Allowed past step := by
  simp [Disciplined]

/-- The second part of a run is judged with the first as its past. -/
theorem disciplined_append :
    Disciplined past (steps ++ steps') ↔
      Disciplined past steps ∧ Disciplined (past ++ steps) steps' := by
  induction steps generalizing past with
  | nil => simp
  | cons step steps ih =>
      rw [List.cons_append, Disciplined, Disciplined, ih, and_assoc, List.append_assoc]
      rfl

/-- Uses change nothing. -/
theorem live_append_uses (n : Nat) (r r' : ρ) :
    Live (past ++ List.replicate n (.used r)) r' ↔ Live past r' := by
  simp [Live]

/-- Uses are in order together, or not at all. -/
theorem disciplined_uses (n : Nat) (r : ρ) :
    Disciplined past (List.replicate n (.used r)) ↔ (n ≠ 0 → Live past r) := by
  induction n generalizing past with
  | zero => simp
  | succ n ih =>
      rw [List.replicate_succ, Disciplined, ih]
      have hlive : Live (past ++ [.used r]) r ↔ Live past r := live_append_uses 1 r r
      simp only [hlive, Allowed]
      tauto

/-! ## Starting and ending a session -/

/-- A resource, if there is one, is opened over a base and used some times. -/
def startSession (base : τ) (r : Option ρ) (uses : Nat) : List (Step τ ρ) :=
  r.toList.flatMap fun r => .opened base r :: List.replicate uses (.used r)

/-- The resource, if there is one, is closed, and the base released. -/
def endSession (base : τ) (r : Option ρ) : List (Step τ ρ) :=
  r.toList.map .closed ++ [.released base]

@[simp] theorem startSession_none (base : τ) (uses : Nat) :
    startSession base (none : Option ρ) uses = [] := rfl

/-- A session that is started opens its resource and nothing else. -/
@[simp] theorem openings_startSession (base : τ) (r : Option ρ) (uses : Nat) :
    openings (startSession base r uses) = r.toList.map (base, ·) := by
  cases r <;> simp [startSession]

/-- It closes nothing yet. -/
@[simp] theorem closings_startSession (base : τ) (r : Option ρ) (uses : Nat) :
    closings (startSession base r uses) = [] := by
  cases r <;> simp [startSession]

/-- A session that is ended opens nothing. -/
@[simp] theorem openings_endSession (base : τ) (r : Option ρ) :
    openings (endSession base r) = [] := by
  cases r <;> simp [endSession]

/-- It closes its resource. -/
@[simp] theorem closings_endSession (base : τ) (r : Option ρ) :
    closings (endSession base r) = r.toList := by
  cases r <;> simp [endSession]

/-- A resource that is new is opened and used in order. -/
theorem disciplined_startSession {base : τ} {r : Option ρ} (uses : Nat)
    (h : ∀ r', r = some r' →
      (∀ base', (base', r') ∉ openings past) ∧ r' ∉ closings past) :
    Disciplined past (startSession base r uses) := by
  cases r with
  | none => trivial
  | some r =>
      obtain ⟨hnew, hunclosed⟩ := h r rfl
      have hlive : Live (past ++ [.opened base r]) r :=
        ⟨⟨base, by simp⟩, by simpa using hunclosed⟩
      have huses := (disciplined_uses uses r).mpr fun _ => hlive
      simpa [startSession, Disciplined, Allowed] using ⟨⟨hnew, hunclosed⟩, huses⟩

/-- The only resource that is open over a base is closed before the base is
released. -/
theorem disciplined_endSession {base : τ} {r : Option ρ}
    (hlive : ∀ r', r = some r' → Live past r')
    (honly : ∀ r', (base, r') ∈ openings past → r' ∉ closings past → r = some r') :
    Disciplined past (endSession base r) := by
  cases r with
  | none =>
      refine ⟨fun r' hopened => ?_, trivial⟩
      by_contra hunclosed
      cases honly r' hopened hunclosed
  | some r =>
      refine ⟨hlive r rfl, fun r' hopened => ?_, trivial⟩
      by_contra hunclosed
      have hother : r' ≠ r := fun h => hunclosed (by simp [h])
      have hbefore : r' ∉ closings past := fun h => hunclosed (by simp [h])
      exact hother (Option.some.inj (honly r' (by simpa using hopened) hbefore)).symm

/-! ## The session of one resource -/

section Session

variable [DecidableEq ρ]

/-- The steps that name the resource. -/
def sessionOf (r : ρ) (steps : List (Step τ ρ)) : List (Step τ ρ) :=
  steps.filter fun
    | .opened _ r' => r' = r
    | .used r' => r' = r
    | .closed r' => r' = r
    | .released _ => false

/-- How far a session got. -/
inductive Reached (r : ρ) (steps : List (Step τ ρ)) : Prop
  | unopened (hnone : ∀ base, (base, r) ∉ openings steps) (hclosed : r ∉ closings steps)
      (hsession : sessionOf r steps = [])
  | live (base : τ) (n : Nat) (hopened : (base, r) ∈ openings steps)
      (hunclosed : r ∉ closings steps)
      (hsession : sessionOf r steps = .opened base r :: List.replicate n (.used r))
  | closed (base : τ) (n : Nat) (hopened : (base, r) ∈ openings steps)
      (hclosed : r ∈ closings steps)
      (hsession : sessionOf r steps =
        .opened base r :: List.replicate n (.used r) ++ [.closed r])

omit [DecidableEq ρ] in
/-- A further step opens what it says it opens. -/
theorem mem_openings_append_singleton {base : τ} {r : ρ} {step : Step τ ρ} :
    (base, r) ∈ openings (steps ++ [step]) ↔
      (base, r) ∈ openings steps ∨ step = .opened base r := by
  cases step <;> simp [eq_comm]

omit [DecidableEq ρ] in
/-- A further step closes what it says it closes. -/
theorem mem_closings_append_singleton {r : ρ} {step : Step τ ρ} :
    r ∈ closings (steps ++ [step]) ↔ r ∈ closings steps ∨ step = .closed r := by
  cases step <;> simp [eq_comm]

/-- A step that does not name the resource. -/
theorem Reached.other {r : ρ} {step : Step τ ρ} (h : Reached r steps)
    (hstep : sessionOf r [step] = []) : Reached r (steps ++ [step]) := by
  have hopened : ∀ base, step ≠ .opened base r := by
    rintro base rfl
    simp [sessionOf] at hstep
  have hclosed : step ≠ .closed r := by
    rintro rfl
    simp [sessionOf] at hstep
  have hsame : sessionOf r (steps ++ [step]) = sessionOf r steps := by
    rw [sessionOf, List.filter_append]
    exact (congrArg _ hstep).trans (List.append_nil _)
  cases h with
  | unopened hnone hunclosed hsession =>
      refine .unopened (fun base hmem => ?_) (fun hmem => ?_) (hsame.trans hsession)
      · exact (mem_openings_append_singleton.mp hmem).elim (hnone base) (hopened base)
      · exact (mem_closings_append_singleton.mp hmem).elim hunclosed hclosed
  | live base n hbase hunclosed hsession =>
      refine .live base n (mem_openings_append_singleton.mpr (Or.inl hbase)) (fun hmem => ?_)
        (hsame.trans hsession)
      exact (mem_closings_append_singleton.mp hmem).elim hunclosed hclosed
  | closed base n hbase hmem hsession =>
      exact .closed base n (mem_openings_append_singleton.mpr (Or.inl hbase))
        (mem_closings_append_singleton.mpr (Or.inl hmem)) (hsame.trans hsession)

/-- A step that is in order takes a session on. -/
theorem Reached.step {r : ρ} {step : Step τ ρ} (h : Reached r steps) (hstep : Allowed steps step) :
    Reached r (steps ++ [step]) := by
  by_cases hother : sessionOf r [step] = []
  · exact h.other hother
  have happend : sessionOf r (steps ++ [step]) = sessionOf r steps ++ [step] := by
    rw [sessionOf, List.filter_append]
    refine congrArg _ ?_
    by_contra hne
    exact hother (by simpa [sessionOf, List.filter_cons] using hne)
  cases step with
  | released base => simp [sessionOf] at hother
  | opened base r' =>
      obtain rfl : r' = r := by
        by_contra hne
        simp [sessionOf, hne] at hother
      cases h with
      | unopened hnone hunclosed hsession =>
          refine .live base 0 (by simp) (fun hmem => ?_) ?_
          · simp [hunclosed] at hmem
          · rw [happend, hsession]
            rfl
      | live base' n hopened hunclosed hsession => exact absurd hopened (hstep.1 base')
      | closed base' n hopened hmem hsession => exact absurd hopened (hstep.1 base')
  | used r' =>
      obtain rfl : r' = r := by
        by_contra hne
        simp [sessionOf, hne] at hother
      cases h with
      | unopened hnone hunclosed hsession =>
          obtain ⟨⟨base, hopened⟩, _⟩ := hstep
          exact absurd hopened (hnone base)
      | live base n hopened hunclosed hsession =>
          refine .live base (n + 1) (by simpa using hopened) (by simpa using hunclosed) ?_
          · rw [happend, hsession, List.cons_append, ← List.replicate_succ']
      | closed base n hopened hmem hsession => exact absurd hmem hstep.2
  | closed r' =>
      obtain rfl : r' = r := by
        by_contra hne
        simp [sessionOf, hne] at hother
      cases h with
      | unopened hnone hunclosed hsession =>
          obtain ⟨⟨base, hopened⟩, _⟩ := hstep
          exact absurd hopened (hnone base)
      | live base n hopened hunclosed hsession =>
          exact .closed base n (by simpa using hopened) (by simp) (by rw [happend, hsession])
      | closed base n hopened hmem hsession => exact absurd hmem hstep.2

/-- **The session of a resource.** -/
theorem session_of_disciplined (h : Disciplined [] steps) (r : ρ) : Reached r steps := by
  induction steps using List.reverseRecOn with
  | nil => exact .unopened (by simp) (by simp) rfl
  | append_singleton steps step ih =>
      obtain ⟨hsteps, hstep⟩ := disciplined_append.mp h
      exact (ih hsteps).step ((disciplined_singleton step).mp hstep)

end Session

end ResourceSessions
