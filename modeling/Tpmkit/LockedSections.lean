import Mathlib

/-!
# Locked sections

A library for threads that run operations on a shared memory under locks.  An
operation takes its locks together, runs in small steps that other threads come
between, and gives them back at its end.  A lock guards the part of the memory
that its `region` gives, which may change hands: the region depends on what the
memory holds.

When the operations stay within the regions of their locks (`Discipline.Lawful`),
any interleaving is as good as running the operations one after another, in the
order in which they took their locks: `Discipline.consistent_of_reaches`.
-/

namespace LockedSections

/-- Code that works on a state in small steps, and looks at the state between them. -/
inductive Code (S : Type) where
  | done
  | act (f : S → S) (rest : S → Code S)

/-- All of the code at once. -/
def Code.run {S : Type} : Code S → S → S
  | .done, s => s
  | .act f rest, s => (rest (f s)).run (f s)

/-- The first steps of the code: what is left of it, and the state. -/
def Code.steps {S : Type} : Nat → Code S → S → Code S × S
  | 0, code, s => (code, s)
  | _ + 1, .done, s => (.done, s)
  | n + 1, .act f rest, s => (rest (f s)).steps n (f s)

/-- A step for each element of a list, and then more code. -/
def Code.forEach {S α : Type} (xs : List α) (f : α → S → S) (rest : Code S) : Code S :=
  xs.foldr (fun x code => .act (f x) fun _ => code) rest

/-- A loop is the fold of its body. -/
theorem Code.run_forEach {S α : Type} (xs : List α) (f : α → S → S) (rest : Code S) (s : S) :
    (Code.forEach xs f rest).run s = rest.run (xs.foldl (fun s x => f x s) s) := by
  induction xs generalizing s with
  | nil => rfl
  | cons x xs ih => exact ih (f x s)

variable {Loc : Type} {V : Loc → Type}

/-! ## Footprints -/

/-- Two states agree on some locations. -/
def AgreeOn (F : Set Loc) (s s' : ∀ l, V l) : Prop := ∀ l ∈ F, s l = s' l

/-- Agreement does not depend on the order. -/
theorem AgreeOn.symm {F : Set Loc} {s s' : ∀ l, V l} (h : AgreeOn F s s') : AgreeOn F s' s :=
  fun l hl => (h l hl).symm

/-- Nor on what stands in between. -/
theorem AgreeOn.trans {F : Set Loc} {s s' s'' : ∀ l, V l} (h : AgreeOn F s s')
    (h' : AgreeOn F s' s'') : AgreeOn F s s'' :=
  fun l hl => (h l hl).trans (h' l hl)

/-- Agreement on more is agreement on less. -/
theorem AgreeOn.mono {F F' : Set Loc} {s s' : ∀ l, V l} (h : AgreeOn F s s') (hF : F' ⊆ F) :
    AgreeOn F' s s' :=
  fun l hl => h l (hF hl)

/-- From this state, and from any that agrees with it on the footprint, the code
changes nothing else and depends on nothing else. -/
inductive Safe (F : Set Loc) : Code (∀ l, V l) → (∀ l, V l) → Prop
  | done (s : ∀ l, V l) : Safe F .done s
  | act {f : (∀ l, V l) → ∀ l, V l} {rest : (∀ l, V l) → Code (∀ l, V l)} {s : ∀ l, V l}
      (hframe : ∀ s', AgreeOn F s s' → ∀ l, l ∉ F → f s' l = s' l)
      (hlocal : ∀ s', AgreeOn F s s' → AgreeOn F (f s) (f s') ∧ rest (f s') = rest (f s))
      (hrest : Safe F (rest (f s)) (f s)) : Safe F (.act f rest) s

section Footprints

variable {F : Set Loc} {code : Code (∀ l, V l)} {s s' : ∀ l, V l}

/-- Whether code is safe depends on what it may touch only. -/
theorem Safe.congr (h : Safe F code s) (hagree : AgreeOn F s s') : Safe F code s' := by
  induction h generalizing s' with
  | done s => exact .done s'
  | act hframe hlocal hrest ih =>
      obtain ⟨hagree', hsame⟩ := hlocal s' hagree
      refine .act (fun s'' h => hframe s'' (hagree.trans h)) (fun s'' h => ?_) ?_
      · obtain ⟨hagree'', hsame'⟩ := hlocal s'' (hagree.trans h)
        exact ⟨hagree'.symm.trans hagree'', hsame'.trans hsame.symm⟩
      · rw [hsame]
        exact ih hagree'

/-- Safe code leaves everything else alone. -/
theorem Safe.run_frame (h : Safe F code s) {l : Loc} (hl : l ∉ F) : code.run s l = s l := by
  induction h with
  | done s => rfl
  | @act f rest s hframe hlocal hrest ih => exact ih.trans (hframe s (fun _ _ => rfl) l hl)

/-- What it does depends on what it may touch only. -/
theorem Safe.run_local (h : Safe F code s) (hagree : AgreeOn F s s') :
    AgreeOn F (code.run s) (code.run s') := by
  induction h generalizing s' with
  | done s => exact hagree
  | act hframe hlocal hrest ih =>
      obtain ⟨hagree', hsame⟩ := hlocal s' hagree
      rw [Code.run, Code.run, hsame]
      exact ih hagree'

/-- A step that stays within the footprint from every state. -/
theorem Safe.act_of {f : (∀ l, V l) → ∀ l, V l} {rest : (∀ l, V l) → Code (∀ l, V l)}
    (hframe : ∀ s l, l ∉ F → f s l = s l)
    (hlocal : ∀ s s', AgreeOn F s s' → AgreeOn F (f s) (f s'))
    (hsame : ∀ s', AgreeOn F (f s) s' → rest s' = rest (f s))
    (hrest : Safe F (rest (f s)) (f s)) : Safe F (.act f rest) s :=
  .act (fun s' _ => hframe s')
    (fun s' hagree => ⟨hlocal s s' hagree, hsame (f s') (hlocal s s' hagree)⟩) hrest

/-- The steps of a list stay within the footprint, and so does what follows. -/
theorem Safe.forEach {α : Type} {f : α → (∀ l, V l) → ∀ l, V l}
    (hframe : ∀ x s l, l ∉ F → f x s l = s l)
    (hlocal : ∀ x s s', AgreeOn F s s' → AgreeOn F (f x s) (f x s')) (xs : List α)
    (hrest : Safe F code (xs.foldl (fun s x => f x s) s)) : Safe F (Code.forEach xs f code) s := by
  induction xs generalizing s with
  | nil => exact hrest
  | cons x xs ih =>
      exact .act (fun s' _ l hl => hframe x s' l hl)
        (fun s' hagree => ⟨hlocal x s s' hagree, rfl⟩) (ih hrest)

/-- All code stays within everything. -/
theorem Safe.univ (code : Code (∀ l, V l)) (s : ∀ l, V l) : Safe Set.univ code s := by
  induction code generalizing s with
  | done => exact .done s
  | act f rest ih =>
      refine .act (fun s' _ l hl => absurd (Set.mem_univ l) hl) (fun s' hagree => ?_) (ih (f s) (f s))
      obtain rfl : s = s' := funext fun l => hagree l (Set.mem_univ l)
      exact ⟨fun _ _ => rfl, rfl⟩

end Footprints

/-- Each step of the code takes what a location holds to something related. -/
inductive Grows (l : Loc) (r : V l → V l → Prop) : Code (∀ l, V l) → Prop
  | done : Grows l r .done
  | act {f : (∀ l, V l) → ∀ l, V l} {rest : (∀ l, V l) → Code (∀ l, V l)}
      (hstep : ∀ s, r (s l) (f s l)) (hrest : ∀ s, Grows l r (rest s)) : Grows l r (.act f rest)

/-- What is left of such code is such code. -/
theorem Grows.rest {l : Loc} {r : V l → V l → Prop} {f : (∀ l, V l) → ∀ l, V l}
    {rest : (∀ l, V l) → Code (∀ l, V l)} (h : Grows l r (.act f rest)) (s : ∀ l, V l) :
    r (s l) (f s l) ∧ Grows l r (rest s) := by
  cases h with
  | act hstep hrest => exact ⟨hstep s, hrest s⟩

/-- Small steps that let a location grow let it grow as a whole. -/
theorem Grows.run {l : Loc} {r : V l → V l → Prop} {code : Code (∀ l, V l)}
    (h : Grows l r code) (hrefl : ∀ x, r x x) (htrans : ∀ x y z, r x y → r y z → r x z)
    (s : ∀ l, V l) : r (s l) (code.run s l) := by
  induction h generalizing s with
  | done => exact hrefl _
  | act hstep hrest ih => exact htrans _ _ _ (hstep s) (ih _ _)

/-- So do the steps of a loop. -/
theorem Grows.forEach {α : Type} {l : Loc} {r : V l → V l → Prop} {code : Code (∀ l, V l)}
    {f : α → (∀ l, V l) → ∀ l, V l} (hstep : ∀ x s, r (s l) (f x s l)) (h : Grows l r code)
    (xs : List α) : Grows l r (Code.forEach xs f code) := by
  induction xs with
  | nil => exact h
  | cons x xs ih => exact .act (hstep x) fun _ => ih

/-! ## Operations under locks -/

/-- The code and the locks of each operation, what each lock guards, and how what a
location holds may change. -/
structure Discipline (ι Op : Type) (V : Loc → Type) where
  code : Op → Code (∀ l, V l)
  locks : Op → Set ι
  region : ι → (∀ l, V l) → Set Loc
  grown : ∀ l, V l → V l → Prop

/-- What a thread is to do, and what is left of the operation that it is at. -/
structure Thread (Op : Type) (V : Loc → Type) where
  todo : List Op
  current : Option (Op × Code (∀ l, V l))

/-- The memory, the threads, and the operations that took their locks, in order. -/
structure System (θ Op : Type) (V : Loc → Type) where
  memory : ∀ l, V l
  threads : θ → Thread Op V
  order : List (θ × Op)

namespace Discipline

variable {ι θ Op : Type} (D : Discipline ι Op V)

/-- What the locks of an operation guard. -/
def regions (op : Op) (s : ∀ l, V l) : Set Loc := {l | ∃ i ∈ D.locks op, l ∈ D.region i s}

/-- No two locks guard the same location. -/
def Separate (s : ∀ l, V l) : Prop := ∀ i j, i ≠ j → Disjoint (D.region i s) (D.region j s)

/-- The operations keep to what their locks guard, and hand on only that. -/
structure Lawful : Prop where
  framed : ∀ i s s', AgreeOn (D.region i s) s s' → D.region i s' = D.region i s
  safe : ∀ op s, D.Separate s → Safe (D.regions op s) (D.code op) s
  kept : ∀ op s, D.Separate s → ∀ i ∈ D.locks op,
    D.region i ((D.code op).run s) ⊆ D.regions op s
  separate : ∀ op s, D.Separate s → D.Separate ((D.code op).run s)
  grown_refl : ∀ l x, D.grown l x x
  grown_trans : ∀ l x y z, D.grown l x y → D.grown l y z → D.grown l x z
  grows : ∀ op l, Grows l (D.grown l) (D.code op)

/-- Operations that run one after another. -/
def serial (s : ∀ l, V l) (order : List (θ × Op)) : ∀ l, V l :=
  order.foldl (fun s x => (D.code x.2).run s) s

/-- Two orders of operations, one after the other. -/
theorem serial_append (s : ∀ l, V l) (order order' : List (θ × Op)) :
    D.serial s (order ++ order') = D.serial (D.serial s order) order' :=
  List.foldl_append

/-- Nothing has begun yet. -/
def initial (s : ∀ l, V l) (programs : θ → List Op) : System θ Op V :=
  ⟨s, fun t => ⟨programs t, none⟩, []⟩

variable [DecidableEq θ]

/-- One step of one thread: it takes the locks of its next operation when nobody
holds one of them, takes a step of its operation, or gives the locks back. -/
inductive Step : System θ Op V → System θ Op V → Prop
  | start {w : System θ Op V} {t : θ} {op : Op} {rest : List Op}
      (hidle : w.threads t = ⟨op :: rest, none⟩)
      (hfree : ∀ t' op' code, (w.threads t').current = some (op', code) →
        Disjoint (D.locks op) (D.locks op')) :
      Step w ⟨w.memory, Function.update w.threads t ⟨rest, some (op, D.code op)⟩,
        w.order ++ [(t, op)]⟩
  | act {w : System θ Op V} {t : θ} {op : Op} {f : (∀ l, V l) → ∀ l, V l}
      {rest : (∀ l, V l) → Code (∀ l, V l)}
      (hcurrent : (w.threads t).current = some (op, .act f rest)) :
      Step w ⟨f w.memory, Function.update w.threads t
        ⟨(w.threads t).todo, some (op, rest (f w.memory))⟩, w.order⟩
  | finish {w : System θ Op V} {t : θ} {op : Op}
      (hcurrent : (w.threads t).current = some (op, .done)) :
      Step w ⟨w.memory, Function.update w.threads t ⟨(w.threads t).todo, none⟩, w.order⟩

/-- Steps of the threads, in any order. -/
def Reaches : System θ Op V → System θ Op V → Prop := Relation.ReflTransGen D.Step

variable {D} in
/-- A thread takes some steps of its operation, and the others none. -/
theorem reaches_steps {w : System θ Op V} {t : θ} {todo : List Op} {op : Op}
    {code : Code (∀ l, V l)} (hthread : w.threads t = ⟨todo, some (op, code)⟩) (n : Nat) :
    D.Reaches w ⟨(code.steps n w.memory).2,
      Function.update w.threads t ⟨todo, some (op, (code.steps n w.memory).1)⟩, w.order⟩ := by
  induction n generalizing w code with
  | zero =>
      rw [Code.steps, ← hthread, Function.update_eq_self]
      exact .refl
  | succ n ih =>
      cases code with
      | done =>
          rw [Code.steps, ← hthread, Function.update_eq_self]
          exact .refl
      | act f rest =>
          have hstep : D.Step w ⟨f w.memory, Function.update w.threads t
              ⟨todo, some (op, rest (f w.memory))⟩, w.order⟩ := by
            have hact := Step.act (D := D) (congrArg Thread.current hthread)
            rwa [hthread] at hact
          refine .head hstep ?_
          have hlater := ih (w := ⟨f w.memory, Function.update w.threads t
            ⟨todo, some (op, rest (f w.memory))⟩, w.order⟩) (Function.update_self ..)
          simp only [Function.update_idem] at hlater
          exact hlater

variable {D} in
/-- A thread ends its operation, while the others wait. -/
theorem reaches_run {w : System θ Op V} {t : θ} {todo : List Op} {op : Op}
    {code : Code (∀ l, V l)} (hthread : w.threads t = ⟨todo, some (op, code)⟩) :
    D.Reaches w ⟨code.run w.memory, Function.update w.threads t ⟨todo, none⟩, w.order⟩ := by
  induction code generalizing w with
  | done =>
      have hfinish := Step.finish (D := D) (congrArg Thread.current hthread)
      rw [hthread] at hfinish
      exact .single hfinish
  | act f rest ih =>
      have hact := Step.act (D := D) (congrArg Thread.current hthread)
      rw [hthread] at hact
      have hlater := ih (f w.memory) (w := ⟨f w.memory, Function.update w.threads t
        ⟨todo, some (op, rest (f w.memory))⟩, w.order⟩) (Function.update_self ..)
      rw [Function.update_idem] at hlater
      exact .head hact hlater

variable {D} in
/-- A thread performs its next operation while no other is under way. -/
theorem reaches_next {w : System θ Op V} {t : θ} {op : Op} {rest : List Op}
    (hthread : w.threads t = ⟨op :: rest, none⟩) (hidle : ∀ t', (w.threads t').current = none) :
    D.Reaches w ⟨(D.code op).run w.memory, Function.update w.threads t ⟨rest, none⟩,
      w.order ++ [(t, op)]⟩ := by
  have hstart : D.Step w ⟨w.memory, Function.update w.threads t ⟨rest, some (op, D.code op)⟩,
      w.order ++ [(t, op)]⟩ :=
    .start hthread fun t' op' code hcurrent => by simp [hidle t'] at hcurrent
  have hlater := reaches_run (D := D) (w := ⟨w.memory, Function.update w.threads t
    ⟨rest, some (op, D.code op)⟩, w.order ++ [(t, op)]⟩) (Function.update_self ..)
  rw [Function.update_idem] at hlater
  exact .head hstart hlater

omit [DecidableEq θ] in
/-- One lock for everything. -/
def oneLock (code : Op → Code (∀ l, V l)) : Discipline Unit Op V :=
  ⟨code, fun _ => Set.univ, fun _ _ => Set.univ, fun _ _ _ => True⟩

omit [DecidableEq θ] in
/-- Under a single lock there is nothing to keep apart. -/
theorem oneLock_separate (code : Op → Code (∀ l, V l)) (s : ∀ l, V l) :
    (oneLock code).Separate s :=
  fun i j hne => absurd (Subsingleton.elim i j) hne

omit [DecidableEq θ] in
/-- Under a single lock every code is lawful. -/
theorem oneLock_lawful (code : Op → Code (∀ l, V l)) : (oneLock code).Lawful where
  framed _ _ _ _ := rfl
  safe op s _ := by
    have hall : (oneLock code).regions op s = Set.univ :=
      Set.eq_univ_of_forall fun l => ⟨(), Set.mem_univ _, Set.mem_univ _⟩
    rw [hall]
    exact .univ _ s
  kept op s _ i hi l _ := ⟨i, hi, Set.mem_univ l⟩
  separate op s _ := oneLock_separate code _
  grown_refl _ _ := trivial
  grown_trans _ _ _ _ _ _ := trivial
  grows op l := by
    have hall : ∀ code : Code (∀ l, V l), Grows l (fun _ _ => True) code := by
      intro code
      induction code with
      | done => exact .done
      | act f rest ih => exact .act (fun _ => trivial) ih
    exact hall _

/-! ## The invariant -/

/-- A thread is at an operation. -/
def Running (w : System θ Op V) (t : θ) (op : Op) (code : Code (∀ l, V l)) : Prop :=
  (w.threads t).current = some (op, code)

/-- The memory of a system beside a serial one: each running operation owns a
footprint, on which its remaining code makes up the difference. -/
structure Owned (w : System θ Op V) (s : ∀ l, V l) (F : θ → Set Loc) : Prop where
  separate : D.Separate s
  safe : ∀ t op code, Running w t op code → Safe (F t) code w.memory
  agree : ∀ t op code, Running w t op code → AgreeOn (F t) (code.run w.memory) s
  guarded : ∀ t op code, Running w t op code → ∀ i ∈ D.locks op, D.region i s ⊆ F t
  apart : ∀ t t' op op' code code', t ≠ t' → Running w t op code → Running w t' op' code' →
    Disjoint (F t) (F t')
  exclusive : ∀ t t' op op' code code', t ≠ t' → Running w t op code →
    Running w t' op' code' → Disjoint (D.locks op) (D.locks op')
  unheld : ∀ i, (∀ t op code, Running w t op code → i ∉ D.locks op) →
    ∀ t op code, Running w t op code → Disjoint (D.region i s) (F t)
  same : ∀ l, (∀ t op code, Running w t op code → l ∉ F t) → w.memory l = s l

variable {D} {w w' : System θ Op V} {s : ∀ l, V l} {F : θ → Set Loc}

/-- Who is at which operation after one thread changed. -/
theorem running_update {t : θ} {thread : Thread Op V} {memory : ∀ l, V l}
    {order : List (θ × Op)} {t' : θ} {op : Op} {code : Code (∀ l, V l)} :
    Running ⟨memory, Function.update w.threads t thread, order⟩ t' op code ↔
      (t' = t ∧ thread.current = some (op, code)) ∨ (t' ≠ t ∧ Running w t' op code) := by
  unfold Running
  by_cases ht : t' = t
  · subst ht
    simp
  · simp [ht]

omit [DecidableEq θ] in
/-- While nobody holds the locks of an operation, the memory is as the serial one
on what they guard. -/
theorem Owned.agree_regions (h : D.Owned w s F) {op : Op}
    (hfree : ∀ t op' code, Running w t op' code → Disjoint (D.locks op) (D.locks op')) :
    AgreeOn (D.regions op s) s w.memory := by
  intro l hl
  obtain ⟨i, hi, hregion⟩ := hl
  refine (h.same l fun t op' code hrunning => ?_).symm
  have hunheld := h.unheld i (fun t op' code hrunning =>
    Set.disjoint_left.mp (hfree t op' code hrunning) hi) t op' code hrunning
  exact Set.disjoint_left.mp hunheld hregion

omit [DecidableEq θ] in
/-- What the locks of an operation guard is nobody's footprint while they are free. -/
theorem Owned.regions_disjoint (h : D.Owned w s F) {op : Op}
    (hfree : ∀ t op' code, Running w t op' code → Disjoint (D.locks op) (D.locks op'))
    {t : θ} {op' : Op} {code : Code (∀ l, V l)} (hrunning : Running w t op' code) :
    Disjoint (D.regions op s) (F t) := by
  refine Set.disjoint_left.mpr fun l hl => ?_
  obtain ⟨i, hi, hregion⟩ := hl
  have hunheld := h.unheld i (fun t op' code hrunning =>
    Set.disjoint_left.mp (hfree t op' code hrunning) hi) t op' code hrunning
  exact Set.disjoint_left.mp hunheld hregion

/-- Running an operation moves no region but those of its locks. -/
theorem Lawful.region_eq (hlaw : D.Lawful) (hsep : D.Separate s) {op : Op} {i : ι}
    (hi : i ∉ D.locks op) : D.region i ((D.code op).run s) = D.region i s := by
  refine hlaw.framed i s _ fun l hl => ?_
  refine ((hlaw.safe op s hsep).run_frame fun hregions => ?_).symm
  obtain ⟨j, hj, hregion⟩ := hregions
  exact Set.disjoint_left.mp (hsep i j fun hij => hi (hij ▸ hj)) hl hregion

/-- An operation that takes its locks: the serial memory is after all of it. -/
theorem Owned.start (hlaw : D.Lawful) (h : D.Owned w s F) {t : θ} {op : Op} {rest : List Op}
    {order : List (θ × Op)} (hidle : (w.threads t).current = none)
    (hfree : ∀ t op' code, Running w t op' code → Disjoint (D.locks op) (D.locks op')) :
    D.Owned ⟨w.memory, Function.update w.threads t ⟨rest, some (op, D.code op)⟩, order⟩
      ((D.code op).run s) (Function.update F t (D.regions op s)) := by
  have hagree := h.agree_regions hfree
  have hsafe : Safe (D.regions op s) (D.code op) s := hlaw.safe op s h.separate
  have hcases : ∀ {t' op' code'}, Running (⟨w.memory,
      Function.update w.threads t ⟨rest, some (op, D.code op)⟩, order⟩ : System θ Op V) t' op' code' →
      (t' = t ∧ op' = op ∧ code' = D.code op) ∨ (t' ≠ t ∧ Running w t' op' code') := by
    intro t' op' code' hrunning
    rcases running_update.mp hrunning with ⟨ht, hnew⟩ | hold
    · obtain ⟨rfl, rfl⟩ := Prod.mk.inj (Option.some.inj hnew)
      exact Or.inl ⟨ht, rfl, rfl⟩
    · exact Or.inr hold
  -- on other footprints the serial memory is as before
  have hother : ∀ {t' op' code'}, Running w t' op' code' →
      AgreeOn (F t') s ((D.code op).run s) := by
    intro t' op' code' hrunning l hl
    exact (hsafe.run_frame
      (Set.disjoint_right.mp (h.regions_disjoint hfree hrunning) hl)).symm
  constructor
  · exact hlaw.separate op s h.separate
  · intro t' op' code' hrunning
    rcases hcases hrunning with ⟨rfl, rfl, rfl⟩ | ⟨hne, hold⟩
    · rw [Function.update_self]
      exact hsafe.congr hagree
    · rw [Function.update_of_ne hne]
      exact h.safe t' op' code' hold
  · intro t' op' code' hrunning
    rcases hcases hrunning with ⟨rfl, rfl, rfl⟩ | ⟨hne, hold⟩
    · rw [Function.update_self]
      exact (hsafe.run_local hagree).symm
    · rw [Function.update_of_ne hne]
      exact (h.agree t' op' code' hold).trans (hother hold)
  · intro t' op' code' hrunning i hi
    rcases hcases hrunning with ⟨rfl, rfl, rfl⟩ | ⟨hne, hold⟩
    · rw [Function.update_self]
      exact hlaw.kept op' s h.separate i hi
    · rw [Function.update_of_ne hne,
        hlaw.region_eq h.separate (Set.disjoint_right.mp (hfree t' op' code' hold) hi)]
      exact h.guarded t' op' code' hold i hi
  · intro t₁ t₂ op₁ op₂ code₁ code₂ hne hfirst hsecond
    rcases hcases hfirst with ⟨rfl, rfl, rfl⟩ | ⟨hne₁, hold₁⟩
    · rcases hcases hsecond with ⟨rfl, _, _⟩ | ⟨hne₂, hold₂⟩
      · exact absurd rfl hne
      · rw [Function.update_self, Function.update_of_ne hne₂]
        exact h.regions_disjoint hfree hold₂
    · rcases hcases hsecond with ⟨rfl, rfl, rfl⟩ | ⟨hne₂, hold₂⟩
      · rw [Function.update_self, Function.update_of_ne hne₁]
        exact (h.regions_disjoint hfree hold₁).symm
      · rw [Function.update_of_ne hne₁, Function.update_of_ne hne₂]
        exact h.apart t₁ t₂ op₁ op₂ code₁ code₂ hne hold₁ hold₂
  · intro t₁ t₂ op₁ op₂ code₁ code₂ hne hfirst hsecond
    rcases hcases hfirst with ⟨rfl, rfl, rfl⟩ | ⟨hne₁, hold₁⟩
    · rcases hcases hsecond with ⟨rfl, _, _⟩ | ⟨hne₂, hold₂⟩
      · exact absurd rfl hne
      · exact hfree t₂ op₂ code₂ hold₂
    · rcases hcases hsecond with ⟨rfl, rfl, rfl⟩ | ⟨hne₂, hold₂⟩
      · exact (hfree t₁ op₁ code₁ hold₁).symm
      · exact h.exclusive t₁ t₂ op₁ op₂ code₁ code₂ hne hold₁ hold₂
  · intro i hunheld t' op' code' hrunning
    have hi : i ∉ D.locks op := hunheld t op (D.code op) (running_update.mpr (Or.inl ⟨rfl, rfl⟩))
    rw [hlaw.region_eq h.separate hi]
    rcases hcases hrunning with ⟨rfl, rfl, rfl⟩ | ⟨hne, hold⟩
    · rw [Function.update_self]
      refine Set.disjoint_right.mpr fun l hl => ?_
      obtain ⟨j, hj, hregion⟩ := hl
      exact Set.disjoint_left.mp (h.separate j i fun hji => hi (hji ▸ hj)) hregion
    · rw [Function.update_of_ne hne]
      refine h.unheld i (fun t'' op'' code'' hold'' => ?_) t' op' code' hold
      by_cases ht : t'' = t
      · subst ht
        rw [Running, hidle] at hold''
        cases hold''
      · exact hunheld t'' op'' code'' (running_update.mpr (Or.inr ⟨ht, hold''⟩))
  · intro l hl
    have hself : l ∉ D.regions op s := by
      have hnew := hl t op (D.code op) (running_update.mpr (Or.inl ⟨rfl, rfl⟩))
      rwa [Function.update_self] at hnew
    rw [hsafe.run_frame hself]
    refine h.same l fun t' op' code' hold => ?_
    by_cases ht : t' = t
    · subst ht
      rw [Running, hidle] at hold
      cases hold
    · have hnew := hl t' op' code' (running_update.mpr (Or.inr ⟨ht, hold⟩))
      rwa [Function.update_of_ne ht] at hnew

/-- A step of an operation stays within its footprint. -/
theorem Owned.act (h : D.Owned w s F) {t : θ} {op : Op} {f : (∀ l, V l) → ∀ l, V l}
    {rest : (∀ l, V l) → Code (∀ l, V l)} (hcurrent : Running w t op (.act f rest)) :
    D.Owned ⟨f w.memory, Function.update w.threads t
      ⟨(w.threads t).todo, some (op, rest (f w.memory))⟩, w.order⟩ s F := by
  obtain ⟨hframe, hrest⟩ : (∀ l, l ∉ F t → f w.memory l = w.memory l) ∧
      Safe (F t) (rest (f w.memory)) (f w.memory) := by
    cases h.safe t op _ hcurrent with
    | act hframe hlocal hrest => exact ⟨hframe w.memory fun _ _ => rfl, hrest⟩
  have hcases : ∀ {t' op' code'}, Running (⟨f w.memory, Function.update w.threads t
      ⟨(w.threads t).todo, some (op, rest (f w.memory))⟩, w.order⟩ : System θ Op V) t' op' code' →
      (t' = t ∧ op' = op ∧ code' = rest (f w.memory)) ∨ (t' ≠ t ∧ Running w t' op' code') := by
    intro t' op' code' hrunning
    rcases running_update.mp hrunning with ⟨ht, hnew⟩ | hold
    · obtain ⟨rfl, rfl⟩ := Prod.mk.inj (Option.some.inj hnew)
      exact Or.inl ⟨ht, rfl, rfl⟩
    · exact Or.inr hold
  have hbefore : ∀ {t' op' code'}, Running (⟨f w.memory, Function.update w.threads t
      ⟨(w.threads t).todo, some (op, rest (f w.memory))⟩, w.order⟩ : System θ Op V) t' op' code' →
      ∃ code, Running w t' op' code := by
    intro t' op' code' hrunning
    rcases hcases hrunning with ⟨rfl, rfl, _⟩ | ⟨_, hold⟩
    · exact ⟨_, hcurrent⟩
    · exact ⟨code', hold⟩
  have hafter : ∀ {t' op' code'}, Running w t' op' code' → ∃ code, Running (⟨f w.memory,
      Function.update w.threads t ⟨(w.threads t).todo, some (op, rest (f w.memory))⟩,
      w.order⟩ : System θ Op V) t' op' code := by
    intro t' op' code' hold
    by_cases ht : t' = t
    · subst ht
      obtain ⟨rfl, _⟩ := Prod.mk.inj (Option.some.inj (hold.symm.trans hcurrent))
      exact ⟨_, running_update.mpr (Or.inl ⟨rfl, rfl⟩)⟩
    · exact ⟨code', running_update.mpr (Or.inr ⟨ht, hold⟩)⟩
  have hother : ∀ {t' op' code'}, t' ≠ t → Running w t' op' code' →
      AgreeOn (F t') w.memory (f w.memory) := by
    intro t' op' code' hne hold l hl
    exact (hframe l (Set.disjoint_left.mp
      (h.apart t' t op' op code' _ hne hold hcurrent) hl)).symm
  constructor
  · exact h.separate
  · intro t' op' code' hrunning
    rcases hcases hrunning with ⟨rfl, rfl, rfl⟩ | ⟨hne, hold⟩
    · exact hrest
    · exact (h.safe t' op' code' hold).congr (hother hne hold)
  · intro t' op' code' hrunning
    rcases hcases hrunning with ⟨rfl, rfl, rfl⟩ | ⟨hne, hold⟩
    · exact h.agree t' op' _ hcurrent
    · have hsame := (h.safe t' op' code' hold).run_local (hother hne hold)
      exact hsame.symm.trans (h.agree t' op' code' hold)
  · intro t' op' code' hrunning
    obtain ⟨code, hold⟩ := hbefore hrunning
    exact h.guarded t' op' code hold
  · intro t₁ t₂ op₁ op₂ code₁ code₂ hne hfirst hsecond
    obtain ⟨code, hold₁⟩ := hbefore hfirst
    obtain ⟨code', hold₂⟩ := hbefore hsecond
    exact h.apart t₁ t₂ op₁ op₂ code code' hne hold₁ hold₂
  · intro t₁ t₂ op₁ op₂ code₁ code₂ hne hfirst hsecond
    obtain ⟨code, hold₁⟩ := hbefore hfirst
    obtain ⟨code', hold₂⟩ := hbefore hsecond
    exact h.exclusive t₁ t₂ op₁ op₂ code code' hne hold₁ hold₂
  · intro i hunheld t' op' code' hrunning
    obtain ⟨code, hold⟩ := hbefore hrunning
    refine h.unheld i (fun t'' op'' code'' hold'' => ?_) t' op' code hold
    obtain ⟨later, hnew⟩ := hafter hold''
    exact hunheld t'' op'' later hnew
  · intro l hl
    obtain ⟨code, hnew⟩ := hafter hcurrent
    refine (hframe l (hl t op code hnew)).trans (h.same l fun t' op' code' hold => ?_)
    obtain ⟨code'', hnew'⟩ := hafter hold
    exact hl t' op' code'' hnew'

/-- An operation that is done gives its locks back, and its footprint with them. -/
theorem Owned.finish (h : D.Owned w s F) {t : θ} {op : Op} (hcurrent : Running w t op .done) :
    D.Owned ⟨w.memory, Function.update w.threads t ⟨(w.threads t).todo, none⟩, w.order⟩ s F := by
  have hbefore : ∀ {t' op' code'}, Running (⟨w.memory, Function.update w.threads t
      ⟨(w.threads t).todo, none⟩, w.order⟩ : System θ Op V) t' op' code' →
      t' ≠ t ∧ Running w t' op' code' := by
    intro t' op' code' hrunning
    rcases running_update.mp hrunning with ⟨_, hnew⟩ | hold
    · cases hnew
    · exact hold
  constructor
  · exact h.separate
  · exact fun t' op' code' hrunning => h.safe t' op' code' (hbefore hrunning).2
  · exact fun t' op' code' hrunning => h.agree t' op' code' (hbefore hrunning).2
  · exact fun t' op' code' hrunning => h.guarded t' op' code' (hbefore hrunning).2
  · exact fun t₁ t₂ op₁ op₂ code₁ code₂ hne hfirst hsecond =>
      h.apart t₁ t₂ op₁ op₂ code₁ code₂ hne (hbefore hfirst).2 (hbefore hsecond).2
  · exact fun t₁ t₂ op₁ op₂ code₁ code₂ hne hfirst hsecond =>
      h.exclusive t₁ t₂ op₁ op₂ code₁ code₂ hne (hbefore hfirst).2 (hbefore hsecond).2
  · intro i hunheld t' op' code' hrunning
    obtain ⟨hne, hold⟩ := hbefore hrunning
    by_cases hi : i ∈ D.locks op
    · -- what this lock guards was the footprint that is given back
      exact (h.apart t' t op' op code' .done hne hold hcurrent).symm.mono_left
        (h.guarded t op .done hcurrent i hi)
    · refine h.unheld i (fun t'' op'' code'' hold'' => ?_) t' op' code' hold
      by_cases ht : t'' = t
      · subst ht
        obtain ⟨rfl, _⟩ := Prod.mk.inj (Option.some.inj (hold''.symm.trans hcurrent))
        exact hi
      · exact hunheld t'' op'' code'' (running_update.mpr (Or.inr ⟨ht, hold''⟩))
  · intro l hl
    by_cases hmem : l ∈ F t
    · exact h.agree t op .done hcurrent l hmem
    · refine h.same l fun t' op' code' hold => ?_
      by_cases ht : t' = t
      · exact ht ▸ hmem
      · exact hl t' op' code' (running_update.mpr (Or.inr ⟨ht, hold⟩))

/-! ## Runs -/

section Runs

variable (D)

/-- What an operation under way did since it took its locks: what its footprint holds
grew, and what it holds at the end no later operation changes. -/
structure Begun (s : ∀ l, V l) (w : System θ Op V) (F : θ → Set Loc) (t : θ) (op : Op)
    (code : Code (∀ l, V l)) : Prop where
  grows : ∀ l, Grows l (D.grown l) code
  since : ∀ l ∈ F t, ∃ before after, w.order = before ++ (t, op) :: after ∧
    D.grown l (D.serial s before l) (w.memory l) ∧
    D.serial s (before ++ [(t, op)]) l = D.serial s w.order l

/-- A system beside the serial run of its operations in the order of their locks. -/
structure Consistent (s : ∀ l, V l) (programs : θ → List Op) (w : System θ Op V) : Prop where
  owned : ∃ F, D.Owned w (D.serial s w.order) F ∧
    ∀ t op code, Running w t op code → D.Begun s w F t op code
  programs : ∀ t, (w.order.filterMap fun x => if x.1 = t then some x.2 else none) ++
    (w.threads t).todo = programs t

variable {D} {programs : θ → List Op}

/-- **The step lemma.** A small step keeps the account of what was done and what is under way:
an unlock puts the operation at the end of the order, and everything else stays inside of its
locks. -/
theorem Consistent.step (hlaw : D.Lawful) (h : D.Consistent s programs w) (hstep : D.Step w w') :
    D.Consistent s programs w' := by
  obtain ⟨⟨F, howned, hbegun⟩, hprograms⟩ := h
  cases hstep with
  | @start t op rest hidle hfree =>
      have hagree := howned.agree_regions hfree
      refine ⟨⟨Function.update F t (D.regions op (D.serial s w.order)), ?_, ?_⟩, fun t' => ?_⟩
      · rw [D.serial_append]
        exact howned.start hlaw (by rw [hidle]) hfree
      · intro t' op' code' hrunning
        rcases running_update.mp hrunning with ⟨rfl, hnew⟩ | ⟨hne, hold⟩
        · obtain ⟨rfl, rfl⟩ := Prod.mk.inj (Option.some.inj hnew)
          refine ⟨hlaw.grows op, fun l hl => ⟨w.order, [], rfl, ?_, rfl⟩⟩
          rw [Function.update_self] at hl
          rw [← hagree l hl]
          exact hlaw.grown_refl l _
        · obtain ⟨hgrows, hsince⟩ := hbegun t' op' code' hold
          refine ⟨hgrows, fun l hl => ?_⟩
          rw [Function.update_of_ne hne] at hl
          obtain ⟨before, after, horder, hgrown, hlast⟩ := hsince l hl
          refine ⟨before, after ++ [(t, op)], by simp [horder], hgrown, hlast.trans ?_⟩
          rw [D.serial_append]
          exact ((hlaw.safe op _ howned.separate).run_frame
            (Set.disjoint_right.mp (howned.regions_disjoint hfree hold) hl)).symm
      · rw [List.filterMap_append, ← hprograms t']
        by_cases ht : t' = t
        · subst ht
          simp [hidle]
        · simp [ht, Ne.symm ht]
  | @act t op f rest hcurrent =>
      refine ⟨⟨F, howned.act hcurrent, ?_⟩, fun t' => ?_⟩
      · intro t' op' code' hrunning
        rcases running_update.mp hrunning with ⟨rfl, hnew⟩ | ⟨hne, hold⟩
        · obtain ⟨rfl, rfl⟩ := Prod.mk.inj (Option.some.inj hnew)
          obtain ⟨hgrows, hsince⟩ := hbegun t' op _ hcurrent
          refine ⟨fun l => ((hgrows l).rest _).2, fun l hl => ?_⟩
          obtain ⟨before, after, horder, hgrown, hlast⟩ := hsince l hl
          exact ⟨before, after, horder,
            hlaw.grown_trans l _ _ _ hgrown ((hgrows l).rest _).1, hlast⟩
        · obtain ⟨hgrows, hsince⟩ := hbegun t' op' code' hold
          refine ⟨hgrows, fun l hl => ?_⟩
          obtain ⟨before, after, horder, hgrown, hlast⟩ := hsince l hl
          have hsame : f w.memory l = w.memory l := by
            cases howned.safe t op _ hcurrent with
            | act hframe _ _ =>
                exact hframe w.memory (fun _ _ => rfl) l (Set.disjoint_left.mp
                  (howned.apart t' t op' op code' _ hne hold hcurrent) hl)
          rw [← hsame] at hgrown
          exact ⟨before, after, horder, hgrown, hlast⟩
      · rw [← hprograms t']
        by_cases ht : t' = t
        · simp [ht]
        · simp [ht]
  | @finish t op hcurrent =>
      refine ⟨⟨F, howned.finish hcurrent, ?_⟩, fun t' => ?_⟩
      · intro t' op' code' hrunning
        rcases running_update.mp hrunning with ⟨_, hnew⟩ | ⟨_, hold⟩
        · cases hnew
        · obtain ⟨hgrows, hsince⟩ := hbegun t' op' code' hold
          exact ⟨hgrows, hsince⟩
      · rw [← hprograms t']
        by_cases ht : t' = t
        · simp [ht]
        · simp [ht]

/-- **Any interleaving is serial.**  The operations that took their locks are, thread by
thread, the first ones of its program, and the memory is the serial one but for what the
operations under way have still to do to their own footprints. -/
theorem consistent_of_reaches (hlaw : D.Lawful) (hsep : D.Separate s)
    (hreach : D.Reaches (initial s programs) w) : D.Consistent s programs w := by
  induction hreach with
  | refl =>
      refine ⟨⟨fun _ => ∅, ⟨hsep, ?_, ?_, ?_, ?_, ?_, ?_, fun l _ => rfl⟩, ?_⟩, fun t => rfl⟩
      all_goals simp [Running, initial]
  | tail _ hstep ih => exact ih.step hlaw hstep

/-- When no operation is under way the memory is the serial one. -/
theorem Consistent.memory_eq (h : D.Consistent s programs w)
    (hidle : ∀ t, (w.threads t).current = none) : w.memory = D.serial s w.order := by
  obtain ⟨⟨F, howned, _⟩, _⟩ := h
  funext l
  refine howned.same l fun t op code hrunning => ?_
  rw [Running, hidle t] at hrunning
  cases hrunning

/-- A location holds what the serial memory holds, unless an operation that works on it is
under way: then it holds something between what was there before that operation and what
is there after it. -/
theorem Consistent.memory_between (hlaw : D.Lawful) (h : D.Consistent s programs w) (l : Loc) :
    w.memory l = D.serial s w.order l ∨ ∃ t op before after,
      (w.threads t).current.map Prod.fst = some op ∧ w.order = before ++ (t, op) :: after ∧
      D.grown l (D.serial s before l) (w.memory l) ∧
      D.grown l (w.memory l) (D.serial s (before ++ [(t, op)]) l) ∧
      D.serial s (before ++ [(t, op)]) l = D.serial s w.order l := by
  obtain ⟨⟨F, howned, hbegun⟩, _⟩ := h
  by_cases hl : ∃ t op code, Running w t op code ∧ l ∈ F t
  · obtain ⟨t, op, code, hrunning, hmem⟩ := hl
    obtain ⟨hgrows, hsince⟩ := hbegun t op code hrunning
    obtain ⟨before, after, horder, hgrown, hlast⟩ := hsince l hmem
    refine Or.inr ⟨t, op, before, after, by rw [hrunning]; rfl, horder, hgrown, ?_, hlast⟩
    rw [hlast, ← howned.agree t op code hrunning l hmem]
    exact (hgrows l).run (hlaw.grown_refl l) (hlaw.grown_trans l) w.memory
  · refine Or.inl (howned.same l fun t op code hrunning hmem => ?_)
    exact hl ⟨t, op, code, hrunning, hmem⟩

/-- Two operations under way hold no lock in common. -/
theorem Consistent.exclusive (h : D.Consistent s programs w) {t t' : θ} {op op' : Op}
    {code code' : Code (∀ l, V l)} (hne : t ≠ t') (hrunning : Running w t op code)
    (hrunning' : Running w t' op' code') : Disjoint (D.locks op) (D.locks op') := by
  obtain ⟨⟨F, howned, _⟩, _⟩ := h
  exact howned.exclusive t t' op op' code code' hne hrunning hrunning'

/-- **No deadlock.**  As long as a thread has something to do, some thread can take a
step. -/
theorem exists_step (w : System θ Op V)
    (hunfinished : ∃ t, (w.threads t).todo ≠ [] ∨ (w.threads t).current ≠ none) :
    ∃ w', D.Step w w' := by
  by_cases hrunning : ∃ t, (w.threads t).current ≠ none
  · obtain ⟨t, ht⟩ := hrunning
    rcases hcurrent : (w.threads t).current with _ | ⟨op, code⟩
    · exact absurd hcurrent ht
    · cases code with
      | done => exact ⟨_, .finish hcurrent⟩
      | act f rest => exact ⟨_, .act hcurrent⟩
  · -- nobody holds a lock
    push Not at hrunning
    obtain ⟨t, htodo | hcurrent⟩ := hunfinished
    swap
    · exact absurd (hrunning t) hcurrent
    obtain ⟨op, rest, htodo⟩ := List.exists_cons_of_ne_nil htodo
    have hidle : w.threads t = ⟨op :: rest, none⟩ := by rw [← htodo, ← hrunning t]
    refine ⟨_, .start hidle fun t' op' code hother => ?_⟩
    rw [hrunning t'] at hother
    cases hother

end Runs

end Discipline

end LockedSections
