import Mathlib.Tactic.Common

/-!
# Calls that return, fail or fault

A small library for embedding imperative code that reports expected failures
in its return value and can also go wrong outside it.  A call ends in one of
three ways (`Result`): it returns a value, it returns an error, or it faults.
A fault is what the source language has no return value for: an access past an
array, a call through a null function pointer, an exception.

Three layers are built on that:

* `Result` is the monad of pure code.  Array accesses are checked, so "never
  indexes past its array" is the statement that no fault is returned;
* `forIndex` is a counted loop with an early return, with one rule for loops
  that never fail (`forIndex_invariant`) and one that decides exactly when a
  loop fails (`forIndex_exact`);
* `Program` threads a world through the call.  The world reached so far is
  kept by an error and by a fault.
-/

namespace Checked

/-- What leaves a program outside its return value. -/
inductive Fault (χ : Type) where
  | outOfBounds
  | nullCall
  | thrown (exception : χ)
deriving DecidableEq, Repr

/-- How a call ends: with a value, with an error it returns, or with a fault. -/
inductive Result (ε χ α : Type) where
  | value (a : α)
  | unexpected (e : ε)
  | fault (f : Fault χ)
deriving DecidableEq, Repr

variable {ε χ α β σ ω : Type}

namespace Result

/-- Continue with the value; an error and a fault end the call. -/
def andThen : Result ε χ α → (α → Result ε χ β) → Result ε χ β
  | value a, next => next a
  | unexpected e, _ => unexpected e
  | fault f, _ => fault f

instance : Monad (Result ε χ) where
  pure := value
  bind := andThen

@[simp] theorem pure_eq (a : α) : (pure a : Result ε χ α) = value a := rfl

@[simp] theorem value_bind (a : α) (next : α → Result ε χ β) :
    (value a >>= next) = next a := rfl

@[simp] theorem unexpected_bind (e : ε) (next : α → Result ε χ β) :
    (unexpected e >>= next) = unexpected e := rfl

@[simp] theorem fault_bind (f : Fault χ) (next : α → Result ε χ β) :
    (fault f >>= next) = fault f := rfl

@[simp] theorem map_value (g : α → β) (a : α) :
    (g <$> value a : Result ε χ β) = value (g a) := rfl

@[simp] theorem map_unexpected (g : α → β) (e : ε) :
    (g <$> unexpected e : Result ε χ β) = unexpected e := rfl

@[simp] theorem map_fault (g : α → β) (f : Fault χ) :
    (g <$> fault f : Result ε χ β) = fault f := rfl

/-- The call stays inside its return value. -/
def NoFault (x : Result ε χ α) : Prop := ∀ f, x ≠ fault f

/-- The call returns some value. -/
def Succeeds (x : Result ε χ α) : Prop := ∃ a, x = value a

@[simp] theorem noFault_value (a : α) : (value a : Result ε χ α).NoFault :=
  fun _ h => nomatch h

@[simp] theorem noFault_unexpected (e : ε) :
    (unexpected e : Result ε χ α).NoFault :=
  fun _ h => nomatch h

/-- A function of the value brings in no fault. -/
theorem NoFault.map {x : Result ε χ α} (h : x.NoFault) (g : α → β) : (g <$> x).NoFault := by
  cases x with
  | value a => exact noFault_value (g a)
  | unexpected e => exact noFault_unexpected e
  | fault f => exact absurd rfl (h f)

@[simp] theorem succeeds_value (a : α) : (value a : Result ε χ α).Succeeds :=
  ⟨a, rfl⟩

@[simp] theorem not_succeeds_unexpected (e : ε) :
    ¬(unexpected e : Result ε χ α).Succeeds := by
  intro hvalue
  obtain ⟨a, h⟩ := hvalue
  cases h

/-- A successful composition exposes the value passed on. -/
theorem bind_eq_value {x : Result ε χ α} {next : α → Result ε χ β} {b : β} :
    (x >>= next) = value b ↔ ∃ a, x = value a ∧ next a = value b := by
  cases x <;> simp

/-- A mapped result has a value where the result has. -/
theorem map_eq_value {x : Result ε χ α} {g : α → β} {b : β} :
    (g <$> x) = value b ↔ ∃ a, x = value a ∧ g a = b := by
  cases x <;> simp

/-- The errors that the call returns are among those that satisfy `P`. -/
def FailsWithin (P : ε → Prop) (x : Result ε χ α) : Prop := ∀ e, x = unexpected e → P e

section FailsWithin

variable {P : ε → Prop}

/-- A value is no failure, so it meets every condition on failures. -/
theorem failsWithin_value (a : α) : (value a : Result ε χ α).FailsWithin P :=
  fun _ h => nomatch h

/-- A fault is not an error; it is excluded by `NoFault` and not here. -/
theorem failsWithin_fault (f : Fault χ) : (fault f : Result ε χ α).FailsWithin P :=
  fun _ h => nomatch h

/-- An error is what the condition says of it. -/
theorem failsWithin_unexpected {e : ε} (h : P e) : (unexpected e : Result ε χ α).FailsWithin P := by
  intro e' he
  obtain rfl := unexpected.inj he
  exact h

/-- A weaker condition holds of more. -/
theorem FailsWithin.mono {Q : ε → Prop} {x : Result ε χ α} (hx : x.FailsWithin P)
    (h : ∀ e, P e → Q e) : x.FailsWithin Q :=
  fun e he => h e (hx e he)

/-- The errors of a sequence are those of its parts. -/
theorem FailsWithin.bind {x : Result ε χ α} {next : α → Result ε χ β} (hx : x.FailsWithin P)
    (hnext : ∀ a, (next a).FailsWithin P) : (x >>= next).FailsWithin P := by
  cases x with
  | value a => exact hnext a
  | unexpected e => exact failsWithin_unexpected (hx e rfl)
  | fault f => exact failsWithin_fault f

/-- A function of the value changes no error. -/
theorem FailsWithin.map {x : Result ε χ α} (hx : x.FailsWithin P) (g : α → β) :
    (g <$> x).FailsWithin P :=
  FailsWithin.bind hx fun a => failsWithin_value (g a)

/-- The errors of a branch are those of its sides. -/
theorem FailsWithin.ite {x y : Result ε χ α} {p : Prop} [Decidable p] (hx : x.FailsWithin P)
    (hy : y.FailsWithin P) : (if p then x else y).FailsWithin P := by
  split
  · exact hx
  · exact hy

end FailsWithin

/-- A check that returns normally exactly when `p` holds, and an error otherwise. -/
def Decides (check : Result ε χ Unit) (p : Prop) : Prop :=
  (p ∧ check = value ()) ∨ (¬p ∧ ∃ e, check = unexpected e)

/-- A check goes through where its condition holds. -/
theorem Decides.of_holds {check : Result ε χ Unit} {p : Prop} (h : Decides check p) (hp : p) :
    check = value () :=
  h.elim And.right fun hnot => absurd hp hnot.1

/-- A check fails with an error where its condition does not hold. -/
theorem Decides.of_not {check : Result ε χ Unit} {p : Prop} (h : Decides check p) (hp : ¬p) :
    ∃ e, check = unexpected e :=
  h.elim (fun hholds => absurd hholds.1 hp) And.right

/-- `if (p) return error;` decides the negation of `p`. -/
theorem decides_ite (p : Prop) [Decidable p] (e : ε) :
    Decides (if p then unexpected e else value () : Result ε χ Unit) (¬p) := by
  by_cases hp : p
  · exact Or.inr ⟨not_not.mpr hp, e, if_pos hp⟩
  · exact Or.inl ⟨hp, if_neg hp⟩

/-- A check after another one is reached only when the first one passes. -/
theorem Decides.bind {x y : Result ε χ Unit} {p q : Prop} (hx : Decides x p)
    (hy : p → Decides y q) : Decides (x >>= fun _ => y) (p ∧ q) := by
  by_cases hp : p
  · rw [hx.of_holds hp, value_bind]
    exact (hy hp).imp (fun h => ⟨⟨hp, h.1⟩, h.2⟩) fun h => ⟨fun hpq => h.1 hpq.2, h.2⟩
  · obtain ⟨e, he⟩ := hx.of_not hp
    exact Or.inr ⟨fun hpq => hp hpq.1, e, by rw [he, unexpected_bind]⟩

/-- An early return in front of a check. -/
theorem Decides.ite {p q : Prop} [Decidable p] {e : ε} {y : Result ε χ Unit}
    (hy : ¬p → Decides y q) : Decides (if p then unexpected e else y) (¬p ∧ q) := by
  by_cases hp : p
  · exact Or.inr ⟨fun hpq => hpq.1 hp, e, if_pos hp⟩
  · rw [if_neg hp]
    exact (hy hp).imp (fun h => ⟨⟨hp, h.1⟩, h.2⟩) fun h => ⟨fun hpq => h.1 hpq.2, h.2⟩

end Result

/-! ## Checked memory -/

section Memory

variable {n : Nat}

/-- Read one array element. -/
def readAt (xs : Vector α n) (i : Nat) : Result ε χ α :=
  if h : i < n then .value xs[i] else .fault .outOfBounds

/-- Write one array element. -/
def writeAt (xs : Vector α n) (i : Nat) (x : α) : Result ε χ (Vector α n) :=
  if h : i < n then .value (xs.set i x) else .fault .outOfBounds

/-- Read one element of a span, whose accesses are checked by its own type. -/
def spanAt (xs : List α) (i : Nat) : Result ε χ α :=
  if h : i < xs.length then .value xs[i] else .fault .outOfBounds

/-- `dst` with its first elements replaced by `src`. -/
def overlay (src : List α) (dst : Vector α n) : Vector α n :=
  Vector.ofFn fun i => src.getD i dst[i]

/-- Copy a range to the start of an array member of `capacity` elements. -/
def copyInto (capacity : Nat) (src : List α) (dst : Vector α n) :
    Result ε χ (Vector α n) :=
  if src.length ≤ capacity ∧ src.length ≤ n then .value (overlay src dst)
  else .fault .outOfBounds

/-- Read the first `count` elements of an array member of `capacity` elements. -/
def readPrefix (capacity count : Nat) (xs : Vector α n) : Result ε χ (List α) :=
  if count ≤ capacity ∧ count ≤ n then .value (xs.toList.take count)
  else .fault .outOfBounds

@[simp] theorem readAt_of_lt {xs : Vector α n} {i : Nat} (h : i < n) :
    (readAt xs i : Result ε χ α) = .value xs[i] := by
  simp [readAt, h]

@[simp] theorem writeAt_of_lt {xs : Vector α n} {i : Nat} {x : α} (h : i < n) :
    (writeAt xs i x : Result ε χ (Vector α n)) = .value (xs.set i x) := by
  simp [writeAt, h]

@[simp] theorem spanAt_of_lt {xs : List α} {i : Nat} (h : i < xs.length) :
    (spanAt xs i : Result ε χ α) = .value xs[i] := by
  simp [spanAt, h]

/-- An access outside of an array is a fault and no error. -/
theorem failsWithin_readAt {P : ε → Prop} (xs : Vector α n) (i : Nat) :
    (readAt xs i : Result ε χ α).FailsWithin P := by
  unfold readAt
  split
  · exact Result.failsWithin_value _
  · exact Result.failsWithin_fault _

/-- So is one outside of a span. -/
theorem failsWithin_spanAt {P : ε → Prop} (xs : List α) (i : Nat) :
    (spanAt xs i : Result ε χ α).FailsWithin P := by
  unfold spanAt
  split
  · exact Result.failsWithin_value _
  · exact Result.failsWithin_fault _

/-- So is a prefix that is longer than the array. -/
theorem failsWithin_readPrefix {P : ε → Prop} (capacity count : Nat) (xs : Vector α n) :
    (readPrefix capacity count xs : Result ε χ (List α)).FailsWithin P := by
  unfold readPrefix
  split
  · exact Result.failsWithin_value _
  · exact Result.failsWithin_fault _

/-- A copy that fits is the source laid over the array. -/
theorem copyInto_of_le {capacity : Nat} {src : List α} {dst : Vector α n}
    (hcapacity : src.length ≤ capacity) (hn : src.length ≤ n) :
    (copyInto capacity src dst : Result ε χ (Vector α n)) =
      .value (overlay src dst) := by
  simp [copyInto, hcapacity, hn]

/-- A prefix that fits is read in full. -/
theorem readPrefix_of_le {capacity count : Nat} {xs : Vector α n}
    (hcapacity : count ≤ capacity) (hn : count ≤ n) :
    (readPrefix capacity count xs : Result ε χ (List α)) =
      .value (xs.toList.take count) := by
  simp [readPrefix, hcapacity, hn]

/-- Laid over an array, the source hides its front and leaves the rest. -/
theorem getElem_overlay {src : List α} {dst : Vector α n} {i : Nat} (h : i < n) :
    (overlay src dst)[i] = src.getD i dst[i] := by
  simp [overlay]

/-- An overlay reads back as the source followed by what was there before. -/
theorem take_overlay {src : List α} {dst : Vector α n} (h : src.length ≤ n) :
    (overlay src dst).toList.take src.length = src := by
  apply List.ext_getElem
  · simp [h]
  · intro i hi hsrc
    simp [overlay, hsrc]

end Memory

/-! ## Counted loops -/

/-- `for (i = first; n > 0; ++i, --n)` with the loop-carried state `s`. -/
def forIndex (body : Nat → σ → Result ε χ σ) : Nat → Nat → σ → Result ε χ σ
  | 0, _, s => pure s
  | n + 1, i, s => body i s >>= forIndex body n (i + 1)

/-- A loop returns the errors of its body. -/
theorem failsWithin_forIndex {P : ε → Prop} {body : Nat → σ → Result ε χ σ}
    (hbody : ∀ i s, (body i s).FailsWithin P) (n first : Nat) (s : σ) :
    (forIndex body n first s).FailsWithin P := by
  induction n generalizing first s with
  | zero => exact Result.failsWithin_value s
  | succ n ih => exact (hbody first s).bind fun next => ih (first + 1) next

/-- A loop whose body always returns a value carries its invariant to the end. -/
theorem forIndex_invariant (body : Nat → σ → Result ε χ σ)
    (invariant : Nat → σ → Prop) (n first : Nat) (s : σ)
    (hstep : ∀ i s, first ≤ i → i < first + n → invariant i s →
      ∃ s', body i s = .value s' ∧ invariant (i + 1) s')
    (hs : invariant first s) :
    ∃ s', forIndex body n first s = .value s' ∧ invariant (first + n) s' := by
  induction n generalizing first s with
  | zero => exact ⟨s, rfl, hs⟩
  | succ n ih =>
      obtain ⟨next, hbody, hnext⟩ := hstep first s (by omega) (by omega) hs
      obtain ⟨s', hloop, hs'⟩ := ih (first + 1) next
        (fun i t hi hlt ht => hstep i t (by omega) (by omega) ht) hnext
      refine ⟨s', by simp [forIndex, hbody, hloop], ?_⟩
      have heq : first + 1 + n = first + (n + 1) := by omega
      rwa [heq] at hs'

/-- **The exact loop rule.**  When each iteration returns a value on the indices
that satisfy `good` and an error on the others, the loop returns a value exactly
when every index it visits is good, and then carries the invariant. -/
theorem forIndex_exact (body : Nat → σ → Result ε χ σ)
    (invariant : Nat → σ → Prop) (good : Nat → Prop) (n first : Nat) (s : σ)
    (hgood : ∀ i s, first ≤ i → i < first + n → invariant i s → good i →
      ∃ s', body i s = .value s' ∧ invariant (i + 1) s')
    (hbad : ∀ i s, first ≤ i → i < first + n → invariant i s → ¬good i →
      ∃ e, body i s = .unexpected e)
    (hs : invariant first s) :
    ((∀ i, first ≤ i → i < first + n → good i) ∧
      ∃ s', forIndex body n first s = .value s' ∧ invariant (first + n) s') ∨
    ((∃ i, first ≤ i ∧ i < first + n ∧ ¬good i) ∧
      ∃ e, forIndex body n first s = .unexpected e) := by
  induction n generalizing first s with
  | zero => exact Or.inl ⟨fun i hi hlt => absurd hi (by omega), s, rfl, hs⟩
  | succ n ih =>
      by_cases hfirst : good first
      · obtain ⟨next, hbody, hnext⟩ :=
          hgood first s (by omega) (by omega) hs hfirst
        have hloop : forIndex body (n + 1) first s =
            forIndex body n (first + 1) next := by simp [forIndex, hbody]
        rcases ih (first + 1) next (fun i t hi hlt => hgood i t (by omega) (by omega))
            (fun i t hi hlt => hbad i t (by omega) (by omega)) hnext with
          ⟨hall, s', hrun, hs'⟩ | ⟨⟨i, hi, hlt, hnot⟩, e, hrun⟩
        · refine Or.inl ⟨fun i hi hlt => ?_, s', hloop.trans hrun, ?_⟩
          · by_cases heq : i = first
            · exact heq ▸ hfirst
            · exact hall i (by omega) (by omega)
          · have heq : first + 1 + n = first + (n + 1) := by omega
            rwa [heq] at hs'
        · exact Or.inr ⟨⟨i, by omega, by omega, hnot⟩, e, hloop.trans hrun⟩
      · obtain ⟨e, hbody⟩ := hbad first s (by omega) (by omega) hs hfirst
        exact Or.inr ⟨⟨first, by omega, by omega, hfirst⟩, e,
          by simp [forIndex, hbody]⟩

/-- Writing the next element of a list extends the part of it that is overlaid. -/
theorem overlay_take_succ {n : Nat} (xs : List α) (dst : Vector α n) {i : Nat}
    (hi : i < xs.length) (hn : i < n) :
    (overlay (xs.take i) dst).set i xs[i] = overlay (xs.take (i + 1)) dst := by
  apply Vector.ext
  intro j hj
  rw [Vector.getElem_set, getElem_overlay hj, getElem_overlay hj]
  by_cases heq : i = j
  · subst heq
    simp [List.getD_eq_getElem?_getD, hi]
  · rw [if_neg heq]
    simp only [List.getD_eq_getElem?_getD, List.getElem?_take]
    grind

/-- A loop that writes the elements of a list, one per iteration, overlays the
list on the array it started from. -/
theorem forIndex_fill {n : Nat} (body : Nat → Vector α n → Result ε χ (Vector α n))
    (xs : List α) (dst : Vector α n) (hn : xs.length ≤ n)
    (hbody : ∀ i (hi : i < xs.length) (s : Vector α n), s[i] = dst[i] →
      body i s = .value (s.set i xs[i])) :
    forIndex body xs.length 0 dst = .value (overlay xs dst) := by
  obtain ⟨filled, hloop, hfilled⟩ := forIndex_invariant body
    (fun i s => s = overlay (xs.take i) dst) xs.length 0 dst
    (fun i s _ hi hs => by
      have hlt : i < xs.length := by omega
      have hin : i < n := by omega
      refine ⟨_, hbody i hlt s ?_, ?_⟩
      · rw [hs, getElem_overlay hin]
        have htaken : (xs.take i)[i]? = none := List.getElem?_eq_none (List.length_take_le i xs)
        rw [List.getD_eq_getElem?_getD, htaken, Option.getD_none]
      · rw [hs, overlay_take_succ xs dst hlt hin])
    (by simp [overlay])
  rw [hloop, hfilled, Nat.zero_add, List.take_length]

/-! ## Programs over a world -/

/-- A call that reads and changes a world of type `ω`. -/
def Program (ω ε χ α : Type) : Type := ω → Result ε χ α × ω

namespace Program

/-- Continue a finished call; an error and a fault keep the world they reached. -/
def resume (next : α → Program ω ε χ β) : Result ε χ α × ω → Result ε χ β × ω
  | (.value a, w) => next a w
  | (.unexpected e, w) => (.unexpected e, w)
  | (.fault f, w) => (.fault f, w)

instance : Monad (Program ω ε χ) where
  pure a := fun w => (.value a, w)
  bind x next := fun w => resume next (x w)

/-- Run pure code; the world is left alone. -/
def lift (x : Result ε χ α) : Program ω ε χ α := fun w => (x, w)

/-- `return unexpected(e)`. -/
def returnError (e : ε) : Program ω ε χ α := fun w => (.unexpected e, w)

/-- Keep the returned error as a value, as a local of an expected type does. -/
def attempt (x : Program ω ε χ α) : Program ω ε χ (Except ε α) := fun w =>
  match x w with
  | (.value a, w') => (.value (.ok a), w')
  | (.unexpected e, w') => (.value (.error e), w')
  | (.fault f, w') => (.fault f, w')

/-- Change the world. -/
def update (g : ω → ω) : Program ω ε χ Unit := fun w => (.value (), g w)

/-- Run `cleanup` when `body` leaves its scope, by a return or by an exception.
The other faults have no behaviour to continue from. -/
def onExit (body : Program ω ε χ α) (cleanup : Program ω ε χ Unit) : Program ω ε χ α := fun w =>
  match body w with
  | (.fault .outOfBounds, w') => (.fault .outOfBounds, w')
  | (.fault .nullCall, w') => (.fault .nullCall, w')
  | (result, w') => resume (fun _ => lift result) (cleanup w')

@[simp] theorem pure_apply (a : α) (w : ω) :
    (pure a : Program ω ε χ α) w = (.value a, w) := rfl

@[simp] theorem bind_apply (x : Program ω ε χ α) (next : α → Program ω ε χ β) (w : ω) :
    (x >>= next) w = resume next (x w) := rfl

@[simp] theorem resume_value (next : α → Program ω ε χ β) (a : α) (w : ω) :
    resume next (.value a, w) = next a w := rfl

@[simp] theorem resume_unexpected (next : α → Program ω ε χ β) (e : ε) (w : ω) :
    resume next (.unexpected e, w) = (.unexpected e, w) := rfl

@[simp] theorem resume_fault (next : α → Program ω ε χ β) (f : Fault χ) (w : ω) :
    resume next (.fault f, w) = (.fault f, w) := rfl

@[simp] theorem lift_apply (x : Result ε χ α) (w : ω) :
    (lift x : Program ω ε χ α) w = (x, w) := rfl

@[simp] theorem returnError_apply (e : ε) (w : ω) :
    (returnError e : Program ω ε χ α) w = (.unexpected e, w) := rfl

@[simp] theorem update_apply (g : ω → ω) (w : ω) :
    (update g : Program ω ε χ Unit) w = (.value (), g w) := rfl

/-- The program returns an error and leaves the world as it was. -/
def Rejects (x : Program ω ε χ α) (w : ω) : Prop := ∃ e, x w = (.unexpected e, w)

/-- A passed check is transparent. -/
theorem guard_holds {check : Result ε χ Unit} {p : Prop} (hcheck : check.Decides p) (hp : p)
    (rest : Unit → Program ω ε χ α) (w : ω) : (lift check >>= rest) w = rest () w := by
  simp [hcheck.of_holds hp]

/-- A failed check rejects, and so does a passed check in front of a rejection. -/
theorem guard_rejects {check : Result ε χ Unit} {p : Prop} (hcheck : check.Decides p)
    {rest : Unit → Program ω ε χ α} {w : ω} (hrest : p → (rest ()).Rejects w) :
    (lift check >>= rest).Rejects w := by
  by_cases hp : p
  · obtain ⟨e, he⟩ := hrest hp
    exact ⟨e, by rw [guard_holds hcheck hp, he]⟩
  · obtain ⟨e, he⟩ := hcheck.of_not hp
    exact ⟨e, by simp [he]⟩

/-- A cleanup that cannot fail leaves the result of its scope alone. -/
theorem onExit_apply {body : Program ω ε χ α} {cleanup : Program ω ε χ Unit} {g : ω → ω}
    {result : Result ε χ α} {w w' : ω} (hbody : body w = (result, w')) (hresult : result.NoFault)
    (hcleanup : ∀ w, cleanup w = (.value (), g w)) :
    onExit body cleanup w = (result, g w') := by
  unfold onExit
  rw [hbody]
  cases result with
  | value a => simp [hcleanup]
  | unexpected e => simp [hcleanup]
  | fault f => exact absurd rfl (hresult f)

/-- An attempt that succeeds hands on the value. -/
theorem attempt_of_value {x : Program ω ε χ α} {w w' : ω} {a : α}
    (h : x w = (.value a, w')) : attempt x w = (.value (.ok a), w') := by
  simp [attempt, h]

/-- An attempt that fails hands on the error, and the program goes on in the world where it
failed. -/
theorem attempt_of_unexpected {x : Program ω ε χ α} {w w' : ω} {e : ε}
    (h : x w = (.unexpected e, w')) : attempt x w = (.value (.error e), w') := by
  simp [attempt, h]

end Program

end Checked
