import Mathlib.Logic.Function.Basic
import Mathlib.Tactic.Common

/-!
# Objects of a value type

A library for runs over any number of objects of one class: they are
constructed, copied, moved, assigned and destroyed in any order.  The class is
given by its constructor, which may refuse, and by what a move leaves in the
object that was moved from.

* `run_all`: what the constructor establishes and the moves keep holds of every
  object;
* `always_iff_no_move`: what holds of constructed objects and of no object that
  was moved from holds throughout a run exactly when the run moves nothing.
-/

namespace ValuePool

variable {κ ι ν : Type}

/-- A class: its constructor, which gives nothing when it throws, and what a move
leaves behind. -/
structure ValueClass (ι ν : Type) where
  construct : ι → Option ν
  moved : ν → ν

/-- The public operations on the objects named in `κ`. -/
inductive Op (κ ι : Type) where
  | construct (target : κ) (arguments : ι)
  | copyConstruct (target source : κ)
  | moveConstruct (target source : κ)
  | copyAssign (target source : κ)
  | moveAssign (target source : κ)
  | destroy (target : κ)

/-- A move-construction or a move-assignment. -/
def Op.isMove : Op κ ι → Bool
  | .moveConstruct .. => true
  | .moveAssign .. => true
  | _ => false

/-- The objects that are alive. -/
abbrev Pool (κ ν : Type) : Type := κ → Option ν

/-- Every object that is alive satisfies `P`. -/
def All (P : ν → Prop) (pool : Pool κ ν) : Prop := ∀ k v, pool k = some v → P v

variable [DecidableEq κ]

/-- The target takes the value and the source keeps what the move leaves.  A
move to itself leaves that too. -/
def transfer (cls : ValueClass ι ν) (pool : Pool κ ν) (target source : κ) (v : ν) : Pool κ ν :=
  Function.update (Function.update pool target (some v)) source (some (cls.moved v))

/-- One operation, where the language allows it: an object is constructed once, and
used only while it is alive. -/
def step (cls : ValueClass ι ν) (pool : Pool κ ν) : Op κ ι → Option (Pool κ ν)
  | .construct target arguments =>
    match pool target, cls.construct arguments with
    | none, some v => some (Function.update pool target (some v))
    | none, none => some pool
    | some _, _ => none
  | .copyConstruct target source =>
    match pool target, pool source with
    | none, some v => some (Function.update pool target (some v))
    | _, _ => none
  | .moveConstruct target source =>
    match pool target, pool source with
    | none, some v => some (transfer cls pool target source v)
    | _, _ => none
  | .copyAssign target source =>
    match pool target, pool source with
    | some _, some v => some (Function.update pool target (some v))
    | _, _ => none
  | .moveAssign target source =>
    match pool target, pool source with
    | some _, some v => some (transfer cls pool target source v)
    | _, _ => none
  | .destroy target =>
    match pool target with
    | some _ => some (Function.update pool target none)
    | none => none

/-- The operations of a run, one after the other. -/
def run (cls : ValueClass ι ν) (pool : Pool κ ν) : List (Op κ ι) → Option (Pool κ ν)
  | [] => some pool
  | op :: ops => (step cls pool op).bind fun next => run cls next ops

/-- `Q` holds in every state that the run goes through. -/
def Always (cls : ValueClass ι ν) (Q : Pool κ ν → Prop) (pool : Pool κ ν) (ops : List (Op κ ι)) :
    Prop :=
  ∀ before reached, before <+: ops → run cls pool before = some reached → Q reached

/-! ## What an operation does -/

variable {cls : ValueClass ι ν} {pool pool' : Pool κ ν} {op : Op κ ι} {P : ν → Prop}

/-- The effects of an operation: nothing, one object that takes a value, a move, or
an object that ends. -/
theorem step_cases (h : step cls pool op = some pool') :
    pool' = pool ∨
    (∃ target v, ((∃ arguments, cls.construct arguments = some v) ∨ ∃ source,
      pool source = some v) ∧ op.isMove = false ∧ pool' = Function.update pool target (some v)) ∨
    (∃ target source v, pool source = some v ∧ op.isMove = true ∧
      pool' = transfer cls pool target source v) ∨
    ∃ target, pool' = Function.update pool target none := by
  cases op with
  | construct target arguments =>
      simp only [step] at h
      split at h
      · next v _ hv =>
          exact Or.inr (Or.inl ⟨target, v, Or.inl ⟨arguments, hv⟩, rfl, (Option.some.inj h).symm⟩)
      · exact Or.inl (Option.some.inj h).symm
      · cases h
  | copyConstruct target source =>
      simp only [step] at h
      split at h
      · next v _ hv =>
          exact Or.inr (Or.inl ⟨target, v, Or.inr ⟨source, hv⟩, rfl, (Option.some.inj h).symm⟩)
      · cases h
  | moveConstruct target source =>
      simp only [step] at h
      split at h
      · next v _ hv =>
          exact Or.inr (Or.inr (Or.inl ⟨target, source, v, hv, rfl, (Option.some.inj h).symm⟩))
      · cases h
  | copyAssign target source =>
      simp only [step] at h
      split at h
      · next v _ hv =>
          exact Or.inr (Or.inl ⟨target, v, Or.inr ⟨source, hv⟩, rfl, (Option.some.inj h).symm⟩)
      · cases h
  | moveAssign target source =>
      simp only [step] at h
      split at h
      · next v _ hv =>
          exact Or.inr (Or.inr (Or.inl ⟨target, source, v, hv, rfl, (Option.some.inj h).symm⟩))
      · cases h
  | destroy target =>
      simp only [step] at h
      split at h
      · exact Or.inr (Or.inr (Or.inr ⟨target, (Option.some.inj h).symm⟩))
      · cases h

/-- A move leaves an object that was moved from. -/
theorem moved_of_step (hmove : op.isMove = true) (h : step cls pool op = some pool') :
    ∃ source v, pool source = some v ∧ pool' source = some (cls.moved v) := by
  cases op with
  | moveConstruct target source =>
      simp only [step] at h
      split at h
      · next v _ hv =>
          cases h
          exact ⟨source, v, hv, Function.update_self ..⟩
      · cases h
  | moveAssign target source =>
      simp only [step] at h
      split at h
      · next v _ hv =>
          cases h
          exact ⟨source, v, hv, Function.update_self ..⟩
      · cases h
  | _ => cases hmove

theorem All.update (h : All P pool) (k : κ) {object : Option ν}
    (hobject : ∀ v, object = some v → P v) : All P (Function.update pool k object) := by
  intro k' v hv
  by_cases hk : k' = k
  · subst hk
    rw [Function.update_self] at hv
    exact hobject v hv
  · rw [Function.update_of_ne hk] at hv
    exact h k' v hv

/-- One operation keeps what the constructor establishes, a move if moving keeps it. -/
theorem step_all (hconstruct : ∀ arguments v, cls.construct arguments = some v → P v)
    (hmoved : op.isMove = true → ∀ v, P v → P (cls.moved v)) (h : All P pool)
    (hstep : step cls pool op = some pool') : All P pool' := by
  rcases step_cases hstep with rfl | ⟨target, v, hv, _, rfl⟩ | ⟨target, source, v, hv, hmove, rfl⟩ |
    ⟨target, rfl⟩
  · exact h
  · have hkept : P v := by
      rcases hv with ⟨arguments, hv⟩ | ⟨source, hv⟩
      · exact hconstruct arguments v hv
      · exact h source v hv
    apply h.update
    intro v' heq
    exact Option.some.inj heq ▸ hkept
  · have hkept : P v := h source v hv
    apply All.update
    · apply h.update
      intro v' heq
      exact Option.some.inj heq ▸ hkept
    · intro v' heq
      exact Option.some.inj heq ▸ hmoved hmove v hkept
  · apply h.update
    intro v heq
    cases heq

/-! ## Whole runs -/

variable {ops : List (Op κ ι)}

/-- **The invariant rule.** -/
theorem run_all (hconstruct : ∀ arguments v, cls.construct arguments = some v → P v)
    (hmoved : ∀ op ∈ ops, op.isMove = true → ∀ v, P v → P (cls.moved v)) (h : All P pool)
    (hrun : run cls pool ops = some pool') : All P pool' := by
  induction ops generalizing pool with
  | nil =>
      cases hrun
      exact h
  | cons op ops ih =>
      obtain ⟨next, hstep, hrest⟩ := Option.bind_eq_some_iff.mp hrun
      apply ih _ _ hrest
      · exact fun op' hop' => hmoved op' (List.mem_cons_of_mem _ hop')
      · exact step_all hconstruct (hmoved op List.mem_cons_self) h hstep

theorem run_append (ops ops' : List (Op κ ι)) :
    run cls pool (ops ++ ops') = (run cls pool ops).bind fun next => run cls next ops' := by
  induction ops generalizing pool with
  | nil => rfl
  | cons op ops ih =>
      rw [List.cons_append, run, run, Option.bind_assoc]
      congr 1
      funext next
      exact ih

/-- **Only moves break what construction establishes.** -/
theorem always_iff_no_move {R : ν → Prop} {Q : Pool κ ν → Prop}
    (hconstruct : ∀ arguments v, cls.construct arguments = some v → P v)
    (hweaken : ∀ v, P v → R v) (hmoved : ∀ v, R v → R (cls.moved v))
    (hgood : ∀ pool, All P pool → Q pool)
    (hbad : ∀ pool k v, R v → pool k = some (cls.moved v) → ¬Q pool) {last : Pool κ ν}
    (h : All P pool) (hrun : run cls pool ops = some last) :
    Always cls Q pool ops ↔ ∀ op ∈ ops, op.isMove = false := by
  constructor
  · intro halways op hop
    by_contra hmove
    rw [Bool.not_eq_false] at hmove
    obtain ⟨before, after, rfl⟩ := List.append_of_mem hop
    rw [run_append] at hrun
    obtain ⟨reached, hbefore, hrest⟩ := Option.bind_eq_some_iff.mp hrun
    obtain ⟨next, hstep, _⟩ := Option.bind_eq_some_iff.mp hrest
    have hall : All R reached := by
      refine run_all (fun arguments v hv => hweaken v (hconstruct arguments v hv))
        (fun _ _ _ => hmoved) ?_ hbefore
      exact fun k v hv => hweaken v (h k v hv)
    obtain ⟨source, v, hv, hleft⟩ := moved_of_step hmove hstep
    refine hbad next source v (hall source v hv) hleft (halways (before ++ [op]) next ?_ ?_)
    · exact ⟨after, by simp⟩
    · rw [run_append, hbefore, Option.bind_some, run, hstep]
      rfl
  · intro hnone before reached hinitial hreached
    refine hgood reached (run_all hconstruct ?_ h hreached)
    intro op hop hmove
    rw [hnone op (hinitial.subset hop)] at hmove
    cases hmove

end ValuePool
