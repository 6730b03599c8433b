import Mathlib.Data.List.Basic
import Mathlib.Tactic.Common

/-!
# Ledgers of what is lent

A library for watching who gives back what was lent.  A `Ledger` is kept beside
a system: it writes down what is lent and what is returned, and notices when
something is returned that is not out, and when a new round begins while
something still is.

`Ledger.Settled.takeBackAll` is the rule for one round: when all that is out comes back,
in whatever order, the ledger is settled again.
-/

namespace LendingLedger

variable {κ : Type}

/-- What was lent and what was returned so far, what is out, and whether the
rules were ever broken. -/
structure Ledger (κ : Type) where
  lent : List κ
  returned : List κ
  out : List κ
  misused : Bool
deriving DecidableEq, Repr

namespace Ledger

/-- The ledger of someone who never lent anything. -/
def new : Ledger κ := ⟨[], [], [], false⟩

/-- A round begins; nothing may be out. -/
def beginRound (l : Ledger κ) : Ledger κ :=
  { l with misused := l.misused || !l.out.isEmpty }

/-- Objects are lent, one after the other. -/
def lend (xs : List κ) (l : Ledger κ) : Ledger κ :=
  { l with lent := l.lent ++ xs, out := l.out ++ xs }

variable [DecidableEq κ]

/-- Something comes back; it must be out. -/
def takeBack (x : κ) (l : Ledger κ) : Ledger κ :=
  { l with
    returned := l.returned ++ [x]
    out := l.out.erase x
    misused := l.misused || !(l.out.contains x) }

/-- Several things come back, one after the other. -/
def takeBackAll (xs : List κ) (l : Ledger κ) : Ledger κ := xs.foldl (fun l x => l.takeBack x) l

omit [DecidableEq κ] in
/-- Lending nothing changes nothing. -/
@[simp] theorem lend_nil (l : Ledger κ) : l.lend [] = l := by
  simp [lend]

@[simp] theorem takeBackAll_nil (l : Ledger κ) : l.takeBackAll [] = l := rfl

@[simp] theorem takeBackAll_cons (x : κ) (xs : List κ) (l : Ledger κ) :
    l.takeBackAll (x :: xs) = (l.takeBack x).takeBackAll xs := rfl

/-- What comes back is written down. -/
@[simp] theorem returned_takeBackAll (xs : List κ) (l : Ledger κ) :
    (l.takeBackAll xs).returned = l.returned ++ xs := by
  induction xs generalizing l with
  | nil => simp
  | cons x xs ih => simp [ih, takeBack]

/-- What is taken back was lent all the same. -/
@[simp] theorem lent_takeBackAll (xs : List κ) (l : Ledger κ) :
    (l.takeBackAll xs).lent = l.lent := by
  induction xs generalizing l with
  | nil => rfl
  | cons x xs ih => exact ih (l.takeBack x)

/-- When exactly what is out comes back, no rule is broken and nothing stays out. -/
theorem takeBackAll_of_perm {xs : List κ} {l : Ledger κ} (h : l.out.Perm xs) :
    (l.takeBackAll xs).out = [] ∧ (l.takeBackAll xs).misused = l.misused := by
  induction xs generalizing l with
  | nil => exact ⟨h.eq_nil, rfl⟩
  | cons x xs ih =>
      have hmem : x ∈ l.out := h.mem_iff.mpr List.mem_cons_self
      have hrest : (l.takeBack x).out.Perm xs := by
        simpa [takeBack] using h.erase x
      obtain ⟨hout, hmisused⟩ := ih hrest
      refine ⟨hout, hmisused.trans ?_⟩
      simp [takeBack, hmem]

end Ledger

/-- Nothing is out, all that was lent came back, and no rule was broken. -/
structure Ledger.Settled (l : Ledger κ) : Prop where
  out_eq : l.out = []
  balanced : l.returned.Perm l.lent
  not_misused : l.misused = false

/-- A new ledger is settled. -/
theorem Ledger.settled_new : (Ledger.new : Ledger κ).Settled := ⟨rfl, .nil, rfl⟩

/-- A round may begin. -/
theorem Ledger.Settled.beginRound_eq {l : Ledger κ} (h : l.Settled) : l.beginRound = l := by
  cases l with
  | mk lent returned out misused =>
      obtain rfl : out = [] := h.out_eq
      simp [Ledger.beginRound]

/-- **One round.**  What was lent from a settled ledger comes back, in any order. -/
theorem Ledger.Settled.takeBackAll [DecidableEq κ] {l : Ledger κ} (h : l.Settled)
    {xs ys : List κ} (hperm : ys.Perm xs) : ((l.lend xs).takeBackAll ys).Settled := by
  have hout : (l.lend xs).out.Perm ys := by
    simpa [Ledger.lend, h.out_eq] using hperm.symm
  obtain ⟨hnone, hmisused⟩ := Ledger.takeBackAll_of_perm hout
  refine ⟨hnone, ?_, hmisused.trans h.not_misused⟩
  rw [Ledger.returned_takeBackAll, Ledger.lent_takeBackAll]
  exact h.balanced.append hperm

end LendingLedger
