import Mathlib.Data.List.Induction
import Mathlib.Tactic.Common

/-!
# Registers that are only extended

A library for the registers of a measured system.  Nothing writes a register:
an extension folds a digest into what it holds, and a reset takes it back to
its initial value.  So a register holds the fold of its history, the digests
since its last reset (`run_eq_history`), and without a reset a log of the
measurements can be replayed (`run_eq_replay`).

`chain_eq_cases` is the reason to keep such registers: two histories that lead
to one value are the same, unless two of their extensions have one value.
-/

namespace ExtendRegisters

variable {α ι δ : Type}

/-- What is done to the registers; a measurement brings a digest for each of
some banks. -/
inductive Action (α ι δ : Type) where
  | measure (index : ι) (digests : List (α × δ))
  | reset (index : ι)

/-- A measurement, as it is logged. -/
abbrev Entry (α ι δ : Type) : Type := ι × List (α × δ)

/-- How the registers of a bank are extended, and what they are reset to. -/
structure Rule (α ι δ : Type) where
  extend : α → δ → δ → δ
  initial : α → ι → δ

/-- The digests that a register took since its last reset, if it had one. -/
structure History (δ : Type) where
  wasReset : Bool
  digests : List δ

variable [DecidableEq α] [DecidableEq ι]

/-- The digests for one bank, in order. -/
def digestsOf (a : α) (digests : List (α × δ)) : List δ :=
  (digests.filter fun d => d.1 = a).map Prod.snd

/-- The digests that some entries bring to one register, in order. -/
def loggedDigests (a : α) (i : ι) (log : List (Entry α ι δ)) : List δ :=
  (log.filter fun entry => entry.1 = i).flatMap fun entry => digestsOf a entry.2

/-- The measurements among some actions. -/
def logOf (actions : List (Action α ι δ)) : List (Entry α ι δ) :=
  actions.filterMap fun
    | .measure index digests => some (index, digests)
    | .reset _ => none

/-- A history goes on with an action. -/
def History.absorb (a : α) (i : ι) (h : History δ) : Action α ι δ → History δ
  | .measure index digests =>
      if index = i then ⟨h.wasReset, h.digests ++ digestsOf a digests⟩ else h
  | .reset index => if index = i then ⟨true, []⟩ else h

/-- The history of one register. -/
def history (a : α) (i : ι) (actions : List (Action α ι δ)) : History δ :=
  actions.foldl (History.absorb a i) ⟨false, []⟩

/-! ## Digests and logs -/

omit [DecidableEq ι] in
/-- A bank finds its digests in two lists one after the other. -/
@[simp] theorem digestsOf_append (a : α) (digests digests' : List (α × δ)) :
    digestsOf a (digests ++ digests') = digestsOf a digests ++ digestsOf a digests' := by
  simp [digestsOf]

@[simp] theorem loggedDigests_nil (a : α) (i : ι) :
    loggedDigests a i ([] : List (Entry α ι δ)) = [] := rfl

@[simp] theorem loggedDigests_cons (a : α) (i : ι) (entry : Entry α ι δ)
    (log : List (Entry α ι δ)) :
    loggedDigests a i (entry :: log) =
      (if entry.1 = i then digestsOf a entry.2 else []) ++ loggedDigests a i log := by
  by_cases h : entry.1 = i <;> simp [loggedDigests, h]

/-! ## Runs -/

namespace Rule

variable (rule : Rule α ι δ)

omit [DecidableEq α] [DecidableEq ι] in
/-- What a register holds after it took some digests. -/
def chain (a : α) (digests : List δ) (d : δ) : δ := digests.foldl (rule.extend a) d

/-- The registers after an action. -/
def act (r : α → ι → δ) : Action α ι δ → α → ι → δ
  | .measure index digests, a, i =>
      if index = i then rule.chain a (digestsOf a digests) (r a i) else r a i
  | .reset index, a, i => if index = i then rule.initial a i else r a i

/-- The registers after some actions. -/
def run (actions : List (Action α ι δ)) (r : α → ι → δ) : α → ι → δ := actions.foldl rule.act r

/-- What a log makes of a register. -/
def replay (a : α) (i : ι) (log : List (Entry α ι δ)) (d : δ) : δ :=
  rule.chain a (loggedDigests a i log) d

omit [DecidableEq α] [DecidableEq ι] in
@[simp] theorem chain_nil (a : α) (d : δ) : rule.chain a [] d = d := rfl

omit [DecidableEq α] [DecidableEq ι] in
/-- Digests are folded one after another. -/
@[simp] theorem chain_append (a : α) (digests digests' : List δ) (d : δ) :
    rule.chain a (digests ++ digests') d = rule.chain a digests' (rule.chain a digests d) :=
  List.foldl_append

/-- What the history of a register says it holds. -/
def holds (a : α) (i : ι) (h : History δ) (d : δ) : δ :=
  rule.chain a h.digests (if h.wasReset then rule.initial a i else d)

/-- One action on a register, told by its history. -/
theorem holds_absorb (a : α) (i : ι) (h : History δ) (d : δ) (r : α → ι → δ)
    (action : Action α ι δ) (hr : r a i = rule.holds a i h d) :
    rule.act r action a i = rule.holds a i (h.absorb a i action) d := by
  cases action with
  | measure index digests =>
      by_cases hindex : index = i <;> simp [act, History.absorb, holds, hindex, hr]
  | reset index =>
      by_cases hindex : index = i
      · simp [act, History.absorb, holds, hindex]
      · simpa [act, History.absorb, hindex] using hr

/-- The induction over a run: a register holds what the history so far says. -/
theorem run_holds (a : α) (i : ι) (actions : List (Action α ι δ)) (h : History δ) (d : δ)
    (r : α → ι → δ) (hr : r a i = rule.holds a i h d) :
    rule.run actions r a i = rule.holds a i (actions.foldl (History.absorb a i) h) d := by
  induction actions generalizing h r with
  | nil => exact hr
  | cons action actions ih =>
      apply ih
      exact rule.holds_absorb a i h d r action hr

/-- **A register holds the fold of its history.** -/
theorem run_eq_history (actions : List (Action α ι δ)) (r : α → ι → δ) (a : α) (i : ι) :
    rule.run actions r a i =
      rule.chain a (history a i actions).digests
        (if (history a i actions).wasReset then rule.initial a i else r a i) := by
  apply rule.run_holds
  simp [holds]

/-- Without a reset the history is what was logged. -/
theorem history_of_not_reset {a : α} {i : ι} {actions : List (Action α ι δ)}
    (h : ∀ action ∈ actions, action ≠ .reset i) :
    history a i actions = ⟨false, loggedDigests a i (logOf actions)⟩ := by
  suffices hgoal : ∀ start : History δ, actions.foldl (History.absorb a i) start =
      ⟨start.wasReset, start.digests ++ loggedDigests a i (logOf actions)⟩ by
    simpa [history] using hgoal ⟨false, []⟩
  induction actions with
  | nil => simp [logOf]
  | cons action actions ih =>
      intro start
      have hrest := ih fun x hx => h x (List.mem_cons_of_mem _ hx)
      rw [List.foldl_cons, hrest]
      cases action with
      | measure index digests =>
          by_cases hindex : index = i <;> simp [History.absorb, logOf, hindex]
      | reset index =>
          have hindex : index ≠ i := fun heq =>
            h (.reset index) List.mem_cons_self (congrArg Action.reset heq)
          simp [History.absorb, logOf, hindex]

/-- **Replay.**  A register that was not reset holds what its log makes of its
first value. -/
theorem run_eq_replay {actions : List (Action α ι δ)} {a : α} {i : ι}
    (h : ∀ action ∈ actions, action ≠ .reset i) (r : α → ι → δ) :
    rule.run actions r a i = rule.replay a i (logOf actions) (r a i) := by
  rw [run_eq_history, history_of_not_reset h]
  simp [replay]

/-- A bank has nothing to do with the other ones. -/
theorem act_congr {a : α} {r r' : α → ι → δ} (h : r a = r' a) (action : Action α ι δ) :
    rule.act r action a = rule.act r' action a := by
  funext i
  cases action <;> simp [act, h]

/-- What a bank comes to depends on its own registers only. -/
theorem run_congr {a : α} {r r' : α → ι → δ} (h : r a = r' a) (actions : List (Action α ι δ)) :
    rule.run actions r a = rule.run actions r' a := by
  induction actions generalizing r r' with
  | nil => exact h
  | cons action actions ih =>
      apply ih
      exact rule.act_congr h action

/-- Two runs one after the other. -/
theorem run_append (actions actions' : List (Action α ι δ)) (r : α → ι → δ) :
    rule.run (actions ++ actions') r = rule.run actions' (rule.run actions r) :=
  List.foldl_append

/-! ## Histories that lead to one value -/

omit [DecidableEq α] [DecidableEq ι] in
/-- The extensions that a register goes through while it takes some digests: what
it holds before each of them, and the digest. -/
def taken (a : α) : List δ → δ → List (δ × δ)
  | [], _ => []
  | digest :: digests, d => (d, digest) :: taken a digests (rule.extend a d digest)

omit [DecidableEq α] [DecidableEq ι] in
/-- The last digest is taken onto what the others have come to. -/
theorem taken_concat (a : α) (digests : List δ) (digest d : δ) :
    rule.taken a (digests ++ [digest]) d =
      rule.taken a digests d ++ [(rule.chain a digests d, digest)] := by
  induction digests generalizing d with
  | nil => rfl
  | cons first digests ih => exact congrArg ((d, first) :: ·) (ih (rule.extend a d first))

omit [DecidableEq α] [DecidableEq ι] in
/-- What is taken onto a register is one of the digests. -/
theorem snd_mem_of_mem_taken {a : α} {digests : List δ} {d : δ} {x : δ × δ}
    (h : x ∈ rule.taken a digests d) : x.2 ∈ digests := by
  induction digests generalizing d with
  | nil => cases h
  | cons digest digests ih =>
      rcases List.mem_cons.mp h with rfl | hrest
      · exact List.mem_cons_self
      · exact List.mem_cons_of_mem _ (ih hrest)

omit [DecidableEq α] [DecidableEq ι] in
/-- **The value of a register fixes its history**, unless two of the extensions that
make the two histories have one value, or one of them leads back to the first one. -/
theorem chain_eq_cases (a : α) {digests digests' : List δ} {d : δ}
    (h : rule.chain a digests d = rule.chain a digests' d) :
    digests = digests' ∨
    (∃ x ∈ rule.taken a digests d, ∃ y ∈ rule.taken a digests' d, x ≠ y ∧
      rule.extend a x.1 x.2 = rule.extend a y.1 y.2) ∨
    ∃ x ∈ rule.taken a digests d ++ rule.taken a digests' d, rule.extend a x.1 x.2 = d := by
  induction digests using List.reverseRecOn generalizing digests' with
  | nil =>
      rcases List.eq_nil_or_concat digests' with rfl | ⟨init, last, rfl⟩
      · exact Or.inl rfl
      · refine Or.inr (Or.inr ⟨(rule.chain a init d, last), ?_, ?_⟩)
        · simp [taken_concat]
        · simpa [chain] using h.symm
  | append_singleton digests digest ih =>
      rcases List.eq_nil_or_concat digests' with rfl | ⟨init, last, rfl⟩
      · refine Or.inr (Or.inr ⟨(rule.chain a digests d, digest), ?_, ?_⟩)
        · simp [taken_concat]
        · simpa [chain] using h
      · have hlast : rule.extend a (rule.chain a digests d) digest =
            rule.extend a (rule.chain a init d) last := by simpa [chain] using h
        by_cases hsame : (rule.chain a digests d, digest) = (rule.chain a init d, last)
        · -- the last extensions are the same one, and the histories before them lead to it
          obtain ⟨hchain, rfl⟩ := Prod.mk.injEq .. ▸ hsame
          rcases ih hchain with rfl | ⟨x, hx, y, hy, hcollides⟩ | ⟨x, hx, hreturns⟩
          · exact Or.inl List.concat_eq_append.symm
          · refine Or.inr (Or.inl ⟨x, ?_, y, ?_, hcollides⟩)
            · simp [taken_concat, hx]
            · simp [taken_concat, hy]
          · refine Or.inr (Or.inr ⟨x, ?_, hreturns⟩)
            rcases List.mem_append.mp hx with hx | hx <;> simp [taken_concat, hx]
        · refine Or.inr (Or.inl ⟨_, ?_, _, ?_, hsame, hlast⟩)
          · simp [taken_concat]
          · simp [taken_concat]

end Rule

end ExtendRegisters
