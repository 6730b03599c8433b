import Mathlib.Algebra.Order.Ring.Nat
import Tpmkit.SecretBuffer

/-!
# The life of a secret

Every vector that a secret buffer takes goes through the same steps, whatever
the buffers around it do: its lock attempt, and after its buffer lets it go at
most one unlock, one cleanse and the release of its storage.  `Accounted` is the
invariant that says so of every reachable state.  Which buffers are left is read
off the actions (`standing`), so that a run that destroys them all wipes them all.
-/

namespace Tpmkit.SecretBuffer

open UniqueOwnership

/-! ## One implementation object -/

namespace HeapImpl

/-- The lock attempt, unless there was nothing to lock. -/
def attempts (id : Nat) (o : HeapImpl) : List Event :=
  if o.given.bytes = [] then [] else [.lockAttempt id o.given.range o.granted]

/-- The unlock, if the attempt was granted. -/
def unlocks (id : Nat) (o : HeapImpl) : List Event :=
  if o.granted then [.unlock id o.given.range] else []

/-- The cleanse of the whole vector, unless it was empty. -/
def wipes (id : Nat) (o : HeapImpl) : List Event :=
  if o.given.bytes = [] then [] else [.cleanse id o.given.range]

/-- Everything that is seen of the vector up to a stage. -/
def history (id : Nat) (o : HeapImpl) : List Event :=
  match o.stage with
  | .live | .atUnlock => o.attempts id
  | .atCleanse => o.attempts id ++ o.unlocks id
  | .atClear | .atRelease => o.attempts id ++ o.unlocks id ++ o.wipes id
  | .released => o.attempts id ++ o.unlocks id ++ o.wipes id ++ [.release id]

/-- What is stored at a stage. -/
def StageOk (o : HeapImpl) : Prop :=
  match o.stage with
  | .live => o.impl = ⟨o.given, o.granted⟩
  | .atUnlock => o.given.bytes ≠ [] ∧ o.impl = ⟨o.given, o.granted⟩
  | .atCleanse => o.given.bytes ≠ [] ∧ o.impl = ⟨o.given, false⟩
  | .atClear =>
      o.given.bytes ≠ [] ∧
        o.impl = ⟨⟨o.given.address, List.replicate o.given.bytes.length 0⟩, false⟩
  | .atRelease | .released => o.impl = ⟨⟨o.given.address, []⟩, false⟩

/-- The invariant of an object. -/
structure Ok (o : HeapImpl) : Prop where
  granted_nonempty : o.granted = true → o.given.bytes ≠ []
  stageOk : o.StageOk

/-- A new vector is well kept and live, and its history is what its constructor did. -/
theorem construct_spec (id : Nat) (data : ByteVector) (granted : Bool) :
    (construct id data granted).1.Ok ∧ (construct id data granted).1.stage = .live ∧
      (construct id data granted).1.history id = (construct id data granted).2 := by
  unfold construct
  split
  next hempty =>
    have hbytes : data.bytes = [] := List.length_eq_zero_iff.mp hempty
    exact ⟨⟨fun h => absurd h (by simp), rfl⟩, rfl, by simp [history, attempts, hbytes]⟩
  next hsize =>
    have hbytes : data.bytes ≠ [] := fun h => hsize (by simp [h])
    exact ⟨⟨fun _ => hbytes, rfl⟩, rfl, by simp [history, attempts, hbytes]⟩

/-- Entering the destructor shows nothing. -/
theorem startDelete_spec {o : HeapImpl} (h : o.Ok) (hlive : o.stage = .live) (id : Nat) :
    o.startDelete.Ok ∧ o.startDelete.stage ≠ .live ∧ o.startDelete.history id = o.history id := by
  have himpl : o.impl = ⟨o.given, o.granted⟩ := by
    have hstage := h.stageOk
    simpa only [StageOk, hlive] using hstage
  by_cases hempty : o.given.bytes = []
  · have hgranted : o.granted = false :=
      Bool.eq_false_iff.mpr fun hg => h.granted_nonempty hg hempty
    have hdata : o.given = ⟨o.given.address, []⟩ := by
      rw [← hempty]
    refine ⟨⟨h.granted_nonempty, ?_⟩, ?_, ?_⟩
    · simp only [StageOk, startDelete, himpl, hempty, if_true, hgranted, ← hdata]
    · simp [startDelete, himpl, hempty]
    · simp [history, startDelete, himpl, hempty, hlive, attempts, unlocks, wipes, hgranted]
  · refine ⟨⟨h.granted_nonempty, ?_⟩, ?_, ?_⟩
    · simp [StageOk, startDelete, himpl, hempty]
    · simp [startDelete, himpl, hempty]
    · simp [history, startDelete, himpl, hempty, hlive, attempts]

/-- A statement of the destructor shows the next part of the history. -/
theorem advance_spec {o o' : HeapImpl} {id : Nat} {events : List Event} (h : o.Ok)
    (hadvance : o.advance id = some (o', events)) :
    o'.Ok ∧ o.stage ≠ .live ∧ o'.stage ≠ .live ∧ o'.history id = o.history id ++ events ∧
      ∀ event ∈ events, event.id = id := by
  have hstageOk := h.stageOk
  rcases o with ⟨given, granted, impl, stage⟩
  cases stage with
  | live => cases hadvance
  | atUnlock =>
      simp only [StageOk] at hstageOk
      obtain ⟨hbytes, rfl⟩ := hstageOk
      cases granted with
      | false =>
          simp only [advance, Bool.false_eq_true, if_false, Option.some.injEq,
            Prod.mk.injEq] at hadvance
          obtain ⟨rfl, rfl⟩ := hadvance
          exact ⟨⟨h.granted_nonempty, hbytes, rfl⟩, nofun, nofun,
            by simp [history, attempts, unlocks], by simp⟩
      | true =>
          simp only [advance, if_true, Option.some.injEq, Prod.mk.injEq] at hadvance
          obtain ⟨rfl, rfl⟩ := hadvance
          exact ⟨⟨h.granted_nonempty, hbytes, rfl⟩, nofun, nofun,
            by simp [history, attempts, unlocks], by simp [Event.id]⟩
  | atCleanse =>
      simp only [StageOk] at hstageOk
      obtain ⟨hbytes, rfl⟩ := hstageOk
      simp only [advance, Option.some.injEq, Prod.mk.injEq] at hadvance
      obtain ⟨rfl, rfl⟩ := hadvance
      exact ⟨⟨h.granted_nonempty, hbytes, rfl⟩, nofun, nofun,
        by simp [history, attempts, unlocks, wipes, hbytes], by simp [Event.id]⟩
  | atClear =>
      simp only [StageOk] at hstageOk
      obtain ⟨_, rfl⟩ := hstageOk
      simp only [advance, Option.some.injEq, Prod.mk.injEq] at hadvance
      obtain ⟨rfl, rfl⟩ := hadvance
      exact ⟨⟨h.granted_nonempty, rfl⟩, nofun, nofun,
        by simp [history, attempts, unlocks, wipes], by simp⟩
  | atRelease =>
      simp only [advance, Option.some.injEq, Prod.mk.injEq] at hadvance
      obtain ⟨rfl, rfl⟩ := hadvance
      exact ⟨⟨h.granted_nonempty, hstageOk⟩, nofun, nofun,
        by simp [history, attempts, unlocks, wipes], by simp [Event.id]⟩
  | released => cases hadvance

end HeapImpl

/-! ## The state -/

section Invariant

variable {κ : Type} {pageSize : Nat} {s : State κ}

/-- What holds of the `impl` with the number `id`, and of all that was seen of
its vector. -/
def State.ObjectOk (s : State κ) (id : Nat) : Prop :=
  match s.heap[id]? with
  | none => s.seen id = []
  | some o => o.Ok ∧ s.seen id = o.history id ∧ (id ∈ s.buffers.disposed ↔ o.stage ≠ .live)

/-- **The invariant.**  An `impl` is owned by one buffer or being deleted, every
vector has the history of its stage, and the pages are what the calls left. -/
structure Accounted (pageSize : Nat) (s : State κ) : Prop where
  balanced : s.buffers.Balanced
  acquired : s.buffers.acquired = List.range s.heap.length
  pages : s.pages = s.trace.foldl (Event.apply pageSize) fun _ => false
  object : ∀ id, s.ObjectOk id

/-- Where no vector was made nothing was seen. -/
theorem State.objectOk_none {id : Nat} (hheap : s.heap[id]? = none) :
    s.ObjectOk id ↔ s.seen id = [] := by
  simp [ObjectOk, hheap]

/-- Of a vector its own history was seen, and it is disposed of unless it is live. -/
theorem State.objectOk_some {id : Nat} {o : HeapImpl} (hheap : s.heap[id]? = some o) :
    s.ObjectOk id ↔
      o.Ok ∧ s.seen id = o.history id ∧ (id ∈ s.buffers.disposed ↔ o.stage ≠ .live) := by
  simp [ObjectOk, hheap]

/-- An object keeps its account when nothing of it is touched. -/
theorem State.ObjectOk.of_untouched {s' : State κ} {id : Nat} (h : s.ObjectOk id)
    (hheap : s'.heap[id]? = s.heap[id]?) (hseen : s'.seen id = s.seen id)
    (hdisposed : id ∈ s'.buffers.disposed ↔ id ∈ s.buffers.disposed) : s'.ObjectOk id := by
  unfold ObjectOk at h ⊢
  rw [hheap, hseen, hdisposed]
  exact h

@[simp] theorem State.see_heap (events : List Event) : (s.see pageSize events).heap = s.heap := rfl

@[simp] theorem State.see_buffers (events : List Event) :
    (s.see pageSize events).buffers = s.buffers := rfl

/-- Seeing events adds those of the vector to what was seen of it. -/
theorem State.seen_see (events : List Event) (id : Nat) :
    (s.see pageSize events).seen id = s.seen id ++ events.filter fun event => event.id = id := by
  simp [seen, see]

/-- Events of one object are all that it sees, and nothing to the others. -/
theorem State.seen_see_self {events : List Event} {id : Nat}
    (hevents : ∀ event ∈ events, event.id = id) :
    (s.see pageSize events).seen id = s.seen id ++ events := by
  rw [seen_see, List.filter_eq_self.mpr fun event hmem => by simpa using hevents event hmem]

/-- Events of one vector are not seen of another. -/
theorem State.seen_see_other {events : List Event} {id id' : Nat}
    (hevents : ∀ event ∈ events, event.id = id) (hne : id' ≠ id) :
    (s.see pageSize events).seen id' = s.seen id' := by
  have hnone : (events.filter fun event => event.id = id') = [] := by
    refine List.filter_eq_nil_iff.mpr fun event hmem => ?_
    have hid := hevents event hmem
    simpa [hid] using hne.symm
  rw [seen_see, hnone, List.append_nil]

/-- The locked pages stay those that the trace leaves locked. -/
theorem State.pages_see {events : List Event}
    (h : s.pages = s.trace.foldl (Event.apply pageSize) fun _ => false) :
    (s.see pageSize events).pages =
      (s.see pageSize events).trace.foldl (Event.apply pageSize) fun _ => false := by
  simp only [see, List.foldl_append, ← h]

/-- The objects that were handed out are those on the heap. -/
theorem Accounted.mem_acquired_iff (h : Accounted pageSize s) {id : Nat} :
    id ∈ s.buffers.acquired ↔ id < s.heap.length := by
  rw [h.acquired, List.mem_range]

/-- Only what was made is disposed of. -/
theorem Accounted.lt_of_disposed (h : Accounted pageSize s) {id : Nat}
    (hid : id ∈ s.buffers.disposed) : id < s.heap.length :=
  h.mem_acquired_iff.mp ((h.balanced.accounted id).mpr (Or.inr hid))

/-- An `impl` that a buffer owns is on the heap and in use. -/
theorem Accounted.live_of_owns (h : Accounted pageSize s) {k : κ} {id : Nat}
    (howns : s.buffers.Owns k id) :
    ∃ o, s.heap[id]? = some o ∧ o.stage = .live ∧ o.Ok ∧ s.seen id = o.history id := by
  have hlt : id < s.heap.length :=
    h.mem_acquired_iff.mp ((h.balanced.accounted id).mpr (Or.inl ⟨k, howns⟩))
  have hheap : s.heap[id]? = some s.heap[id] := List.getElem?_eq_getElem hlt
  obtain ⟨hok, hseen, hdisposed⟩ := (State.objectOk_some hheap).mp (h.object id)
  have hlive : s.heap[id].stage = .live := by
    by_contra hne
    exact h.balanced.not_disposed k id howns (hdisposed.mpr hne)
  exact ⟨_, hheap, hlive, hok, hseen⟩

/-! ## One step -/

/-- Letting go of a pointer, also of a null pointer, starts at most one deletion. -/
theorem Accounted.delete (h : Accounted pageSize s) {buffers : Ledger κ Nat} {dead : Option Nat}
    (hbalanced : buffers.Balanced) (hacquired : buffers.acquired = s.buffers.acquired)
    (hdisposed : buffers.disposed = s.buffers.disposed ++ dead.toList)
    (hdead : ∀ id, dead = some id → ∃ k, s.buffers.Owns k id) :
    Accounted pageSize (State.delete dead { s with buffers := buffers }) := by
  cases dead with
  | none =>
      have hsame : buffers.disposed = s.buffers.disposed := by simpa using hdisposed
      exact ⟨hbalanced, hacquired.trans h.acquired, h.pages, fun id =>
        (h.object id).of_untouched rfl rfl (by rw [State.delete, hsame])⟩
  | some dead =>
      obtain ⟨k, howns⟩ := hdead dead rfl
      obtain ⟨o, hheap, hlive, hok, hseen⟩ := h.live_of_owns howns
      obtain ⟨hok', hstage', hhistory⟩ := HeapImpl.startDelete_spec hok hlive dead
      refine ⟨hbalanced, ?_, h.pages, fun id => ?_⟩
      · simp [State.delete, hacquired, h.acquired]
      by_cases hid : id = dead
      · subst hid
        have hheap' : (s.heap.modify id HeapImpl.startDelete)[id]? = some o.startDelete := by
          simp [hheap]
        refine (State.objectOk_some hheap').mpr ⟨hok', hseen.trans hhistory.symm, ?_⟩
        simp [State.delete, hdisposed, hstage']
      · refine (h.object id).of_untouched ?_ rfl ?_
        · simp [State.delete, Ne.symm hid]
        · simp [State.delete, hdisposed, hid]

variable [DecidableEq κ]

/-- An empty buffer owns nothing, so there is nothing to account for. -/
theorem Accounted.defaultConstruct (h : Accounted pageSize s) {k : κ}
    (hfree : s.buffers.cells k = none) : Accounted pageSize (s.defaultConstruct k) where
  balanced := h.balanced.createEmpty hfree
  acquired := h.acquired
  pages := h.pages
  object id := (h.object id).of_untouched rfl rfl Iff.rfl

/-- A construction keeps the account: its vector is new, and its events are the beginning of its
history. -/
theorem Accounted.construct (h : Accounted pageSize s) {k : κ}
    (hfree : s.buffers.cells k = none) (data : ByteVector) (granted : Bool) :
    Accounted pageSize (s.construct pageSize k data granted) := by
  obtain ⟨hok, hlive, hhistory⟩ := HeapImpl.construct_spec s.heap.length data granted
  have hevents : ∀ event ∈ (HeapImpl.construct s.heap.length data granted).2,
      event.id = s.heap.length := by
    intro event hmem
    unfold HeapImpl.construct at hmem
    split at hmem <;> simp_all [Event.id]
  have hfresh : s.heap.length ∉ s.buffers.acquired := fun hmem =>
    absurd (h.mem_acquired_iff.mp hmem) (by omega)
  refine ⟨h.balanced.create hfree hfresh, ?_, State.pages_see h.pages, fun id => ?_⟩
  · simp [State.construct, Ledger.create, h.acquired, List.range_succ]
  have hold : s.ObjectOk id := h.object id
  by_cases hid : id = s.heap.length
  · subst hid
    have hseen : s.seen s.heap.length = [] := (State.objectOk_none (by simp)).mp hold
    refine (State.objectOk_some (by simp [State.construct])).mpr ⟨hok, ?_, ?_⟩
    · refine (State.seen_see_self hevents).trans ?_
      rw [hhistory]
      exact congrArg (· ++ _) hseen
    · refine iff_of_false (fun hmem => ?_) (by simp [hlive])
      exact absurd (h.lt_of_disposed hmem) (by omega)
  · refine hold.of_untouched ?_ (State.seen_see_other hevents hid) Iff.rfl
    have hheap : (s.construct pageSize k data granted).heap =
        s.heap ++ [(HeapImpl.construct s.heap.length data granted).1] := rfl
    rw [hheap]
    rcases Nat.lt_or_ge id s.heap.length with hlt | hge
    · exact List.getElem?_append_left hlt
    · have hlength : s.heap.length + 1 ≤ id := by omega
      rw [List.getElem?_eq_none (by simpa using hlength), List.getElem?_eq_none hge]

/-- A move construction keeps the account; no vector is touched. -/
theorem Accounted.moveConstruct (h : Accounted pageSize s) {target source : κ}
    (htarget : s.buffers.cells target = none) (hsource : s.buffers.cells source ≠ none) :
    Accounted pageSize (s.moveConstruct target source) := by
  have hbalanced : (s.buffers.moveConstruct target source).Balanced := by
    rw [Ledger.moveConstruct_eq_moveAssign htarget hsource]
    exact h.balanced.moveAssign target source
  have hdisposed : (s.buffers.moveConstruct target source).disposed =
      s.buffers.disposed ++ (none : Option Nat).toList := by
    simp [Ledger.moveConstruct]
  exact h.delete hbalanced rfl hdisposed fun id hid => by cases hid

/-- A move assignment keeps the account; the vector that it deletes starts on its destructor. -/
theorem Accounted.moveAssign (h : Accounted pageSize s) (target source : κ) :
    Accounted pageSize (s.moveAssign target source) :=
  h.delete (h.balanced.moveAssign target source) rfl rfl fun _ hid =>
    ⟨target, (Ledger.held_released_eq_some_iff.mp hid).2⟩

/-- A destruction keeps the account in the same way. -/
theorem Accounted.destroy (h : Accounted pageSize s) (k : κ) :
    Accounted pageSize (s.destroy k) :=
  h.delete (h.balanced.destroy k) rfl rfl fun _ hid => ⟨k, Ledger.held_eq_some_iff.mp hid⟩

omit [DecidableEq κ] in
/-- A statement of a destructor keeps the account: its event is the next one of the vector's
history. -/
theorem Accounted.advance (h : Accounted pageSize s) {id : Nat} {s' : State κ}
    (hadvance : s.advance pageSize id = some s') : Accounted pageSize s' := by
  obtain ⟨o, hheap, hadvance⟩ := Option.bind_eq_some_iff.mp hadvance
  obtain ⟨⟨o', events⟩, hnext, hs'⟩ := Option.bind_eq_some_iff.mp hadvance
  obtain rfl := Option.some.inj hs'
  obtain ⟨hok, hseen, hdisposed⟩ := (State.objectOk_some hheap).mp (h.object id)
  obtain ⟨hok', hstage, hstage', hhistory, hevents⟩ := HeapImpl.advance_spec hok hnext
  refine ⟨h.balanced, ?_, State.pages_see h.pages, fun id' => ?_⟩
  · simp [h.acquired]
  by_cases hid : id' = id
  · subst hid
    have hlt : id' < s.heap.length := (List.getElem?_eq_some_iff.mp hheap).1
    refine (State.objectOk_some (by simp [hlt])).mpr ⟨hok', ?_, ?_⟩
    · refine (State.seen_see_self hevents).trans ?_
      rw [hhistory]
      exact congrArg (· ++ _) hseen
    · exact hdisposed.trans (iff_of_true hstage hstage')
  · refine (h.object id').of_untouched ?_ (State.seen_see_other hevents hid) Iff.rfl
    simp [Ne.symm hid]

/-- What each step does, where it is allowed. -/
theorem step_cases {action : Action κ} {s' : State κ}
    (hstep : SecretBuffer.step pageSize s action = some s') :
    match action with
    | .defaultConstruct k => s.buffers.cells k = none ∧ s' = s.defaultConstruct k
    | .construct k data granted =>
        s.buffers.cells k = none ∧ s' = s.construct pageSize k data granted
    | .moveConstruct target source =>
        s.buffers.cells target = none ∧ s.buffers.cells source ≠ none ∧
          s' = s.moveConstruct target source
    | .moveAssign target source =>
        s.buffers.cells target ≠ none ∧ s.buffers.cells source ≠ none ∧
          s' = s.moveAssign target source
    | .destroy k => s.buffers.cells k ≠ none ∧ s' = s.destroy k
    | .advance id => s.advance pageSize id = some s' := by
  cases action <;>
    simp only [SecretBuffer.step, Option.ite_none_right_eq_some, Option.some.injEq,
      Bool.and_eq_true, Option.isNone_iff_eq_none, ← Option.ne_none_iff_isSome,
      and_assoc, @eq_comm _ _ s'] at hstep ⊢ <;>
    exact hstep

/-- Every step keeps the account. -/
theorem Accounted.step (h : Accounted pageSize s) {action : Action κ} {s' : State κ}
    (hstep : SecretBuffer.step pageSize s action = some s') : Accounted pageSize s' := by
  have heffect := step_cases hstep
  cases action with
  | defaultConstruct k =>
      obtain ⟨hfree, rfl⟩ := heffect
      exact h.defaultConstruct hfree
  | construct k data granted =>
      obtain ⟨hfree, rfl⟩ := heffect
      exact h.construct hfree data granted
  | moveConstruct target source =>
      obtain ⟨htarget, hsource, rfl⟩ := heffect
      exact h.moveConstruct htarget hsource
  | moveAssign target source =>
      obtain ⟨_, _, rfl⟩ := heffect
      exact h.moveAssign target source
  | destroy k =>
      obtain ⟨_, rfl⟩ := heffect
      exact h.destroy k
  | advance id => exact h.advance heffect

omit [DecidableEq κ] in
/-- Before the first action there is nothing to account for. -/
theorem accounted_initial : Accounted pageSize (State.initial : State κ) where
  balanced := Ledger.balanced_empty
  acquired := rfl
  pages := rfl
  object _ := (State.objectOk_none rfl).mpr rfl

/-- **Every reachable state is accounted for.** -/
theorem Accounted.run (h : Accounted pageSize s) {actions : List (Action κ)} {s' : State κ}
    (hrun : SecretBuffer.run pageSize s actions = some s') : Accounted pageSize s' := by
  induction actions generalizing s with
  | nil =>
      obtain rfl := Option.some.inj hrun
      exact h
  | cons action actions ih =>
      obtain ⟨next, hstep, hrest⟩ := Option.bind_eq_some_iff.mp hrun
      exact ih (h.step hstep) hrest

end Invariant

/-! ## Vectors handed in and buffers moved from -/

section Actions

variable {κ : Type}

/-- The vector that a construction takes, and whether it gets locked; for an empty one
no attempt is made. -/
def Action.handed : Action κ → Option (ByteVector × Bool)
  | .construct _ data granted => some (data, granted && !data.bytes.isEmpty)
  | _ => none

/-- The vectors handed in, in order. -/
def handedIn (actions : List (Action κ)) : List (ByteVector × Bool) :=
  actions.filterMap Action.handed

/-- Whether a buffer stands after the action. -/
def Action.leaves [DecidableEq κ] (k : κ) (before : Bool) : Action κ → Bool
  | .defaultConstruct k' => before || k' = k
  | .construct k' _ _ => before || k' = k
  | .moveConstruct target _ => before || target = k
  | .moveAssign _ _ => before
  | .destroy k' => before && k' ≠ k
  | .advance _ => before

/-- The buffers that were constructed and not destroyed since. -/
def standing [DecidableEq κ] (actions : List (Action κ)) (k : κ) : Bool :=
  actions.foldl (Action.leaves k) false

/-- The action is about the buffer. -/
def Action.Names (k : κ) : Action κ → Prop
  | .defaultConstruct k' => k' = k
  | .construct k' _ _ => k' = k
  | .moveConstruct target source => target = k ∨ source = k
  | .moveAssign target source => target = k ∨ source = k
  | .destroy k' => k' = k
  | .advance _ => False

/-- The action moves from the buffer to another one. -/
def Action.MovesFrom (k : κ) : Action κ → Prop
  | .moveConstruct target source => source = k ∧ target ≠ k
  | .moveAssign target source => source = k ∧ target ≠ k
  | _ => False

variable {pageSize : Nat} {s s' : State κ}

/-- A deletion starts a destructor and leaves the buffers alone. -/
@[simp] theorem State.delete_buffers (dead : Option Nat) :
    (State.delete dead s).buffers = s.buffers := by
  cases dead <;> rfl

/-- What an object keeps of its construction. -/
def HeapImpl.account (o : HeapImpl) : ByteVector × Bool := (o.given, o.granted)

/-- A new vector keeps what it was handed and whether it was locked; an empty one is never
locked. -/
theorem HeapImpl.construct_account (id : Nat) (data : ByteVector) (granted : Bool) :
    (construct id data granted).1.account = (data, granted && !data.bytes.isEmpty) := by
  unfold construct
  split
  next hempty => simp [account, List.length_eq_zero_iff.mp hempty]
  next hsize =>
    have hbytes : data.bytes ≠ [] := fun h => hsize (by simp [h])
    simp [account, hbytes]

/-- The destructor does not change that. -/
theorem HeapImpl.advance_account {o o' : HeapImpl} {id : Nat} {events : List Event}
    (h : o.advance id = some (o', events)) : o'.account = o.account := by
  unfold advance at h
  split at h
  next => cases h
  next =>
    split at h <;> · cases h; rfl
  all_goals cases h
  all_goals rfl

/-- Nor does its start. -/
@[simp] theorem State.map_account_delete (dead : Option Nat) :
    (State.delete dead s).heap.map HeapImpl.account = s.heap.map HeapImpl.account := by
  cases dead with
  | none => rfl
  | some dead =>
      refine List.ext_getElem? fun id => ?_
      simp only [State.delete, List.getElem?_map, List.getElem?_modify]
      by_cases hid : dead = id <;>
        cases s.heap[id]? <;> simp [hid, HeapImpl.startDelete, HeapImpl.account]

/-- A statement of a destructor changes no buffer and no account. -/
theorem State.advance_spec {id : Nat} (h : s.advance pageSize id = some s') :
    s'.buffers = s.buffers ∧ s'.heap.map HeapImpl.account = s.heap.map HeapImpl.account := by
  obtain ⟨o, hheap, h⟩ := Option.bind_eq_some_iff.mp h
  obtain ⟨⟨o', events⟩, hnext, hs'⟩ := Option.bind_eq_some_iff.mp h
  obtain rfl := Option.some.inj hs'
  refine ⟨rfl, ?_⟩
  refine List.ext_getElem? fun id' => ?_
  simp only [State.see_heap, List.getElem?_map, List.getElem?_set]
  by_cases hid : id = id'
  · subst hid
    obtain ⟨hlt, hget⟩ := List.getElem?_eq_some_iff.mp hheap
    simp [hlt, hget, HeapImpl.advance_account hnext]
  · simp [hid]

variable [DecidableEq κ]

/-- A construction adds the vector it takes; no other step adds one. -/
theorem map_account_step {action : Action κ} (hstep : step pageSize s action = some s') :
    s'.heap.map HeapImpl.account = s.heap.map HeapImpl.account ++ action.handed.toList := by
  cases action with
  | defaultConstruct k =>
      obtain ⟨_, rfl⟩ := step_cases hstep
      simp [State.defaultConstruct, Action.handed]
  | construct k data granted =>
      obtain ⟨_, rfl⟩ := step_cases hstep
      simp [State.construct, Action.handed, HeapImpl.construct_account]
  | moveConstruct target source =>
      obtain ⟨_, _, rfl⟩ := step_cases hstep
      simp [State.moveConstruct, Action.handed]
  | moveAssign target source =>
      obtain ⟨_, _, rfl⟩ := step_cases hstep
      simp [State.moveAssign, Action.handed]
  | destroy k =>
      obtain ⟨_, rfl⟩ := step_cases hstep
      simp [State.destroy, Action.handed]
  | advance id => simp [(State.advance_spec hstep).2, Action.handed]

/-- The objects on the heap are those of the vectors handed in. -/
theorem map_account_run {actions : List (Action κ)} (hrun : run pageSize s actions = some s') :
    s'.heap.map HeapImpl.account = s.heap.map HeapImpl.account ++ handedIn actions := by
  induction actions generalizing s with
  | nil =>
      obtain rfl := Option.some.inj hrun
      simp [handedIn]
  | cons action actions ih =>
      obtain ⟨next, hstep, hrest⟩ := Option.bind_eq_some_iff.mp hrun
      rw [ih hrest, map_account_step hstep, List.append_assoc]
      cases h : action.handed <;> simp [handedIn, h]

/-- The vector handed in by the `id`-th construction of a run is on the heap, as it was handed
in. -/
theorem heap_of_handed {actions : List (Action κ)} (hrun : run pageSize .initial actions = some s)
    {id : Nat} {data : ByteVector} {locked : Bool}
    (hdata : (handedIn actions)[id]? = some (data, locked)) :
    ∃ o, s.heap[id]? = some o ∧ o.given = data ∧ o.granted = locked := by
  have haccount := map_account_run hrun
  rw [State.initial, List.map_nil, List.nil_append] at haccount
  rw [← haccount, List.getElem?_map] at hdata
  obtain ⟨o, hheap, haccount⟩ := Option.map_eq_some_iff.mp hdata
  exact ⟨o, hheap, Prod.mk.inj haccount⟩

/-- A move leaves its target and its source standing, and the others as they were. -/
theorem isSome_moved {cells : κ → Option (Option Nat)} {target source : κ}
    (hsource : cells source ≠ none) (k : κ) :
    (Ledger.moved cells target source k).isSome = ((cells k).isSome || target = k) := by
  have hsome : (cells source).isSome = true := Option.isSome_iff_ne_none.mpr hsource
  by_cases htarget : k = target
  · simp [Ledger.moved, htarget]
  · by_cases heq : k = source
    · subst heq
      simp [Ledger.moved, htarget, hsome]
    · simp [Ledger.moved, htarget, heq, Ne.symm htarget]

/-- A step leaves the buffers standing that its action says. -/
theorem isSome_cells_step {action : Action κ} (hstep : step pageSize s action = some s') (k : κ) :
    (s'.buffers.cells k).isSome = action.leaves k (s.buffers.cells k).isSome := by
  cases action with
  | defaultConstruct k' =>
      obtain ⟨_, rfl⟩ := step_cases hstep
      simp only [State.defaultConstruct, Ledger.createEmpty, Action.leaves, Function.update_apply]
      by_cases hk : k = k' <;> simp [hk, eq_comm]
  | construct k' data granted =>
      obtain ⟨_, rfl⟩ := step_cases hstep
      simp only [State.construct, State.see_buffers, Ledger.create, Action.leaves,
        Function.update_apply]
      by_cases hk : k = k' <;> simp [hk, eq_comm]
  | moveConstruct target source =>
      obtain ⟨_, hsource, rfl⟩ := step_cases hstep
      exact isSome_moved hsource k
  | moveAssign target source =>
      obtain ⟨htarget, hsource, rfl⟩ := step_cases hstep
      have hmoved : (Ledger.moved s.buffers.cells target source k).isSome =
          ((s.buffers.cells k).isSome || target = k) := isSome_moved hsource k
      have hstands : target = k → (s.buffers.cells k).isSome = true := by
        rintro rfl
        exact Option.isSome_iff_ne_none.mpr htarget
      simpa [State.moveAssign, Ledger.moveAssign, Action.leaves, hmoved] using hstands
  | destroy k' =>
      obtain ⟨_, rfl⟩ := step_cases hstep
      simp only [State.destroy, State.delete_buffers, Ledger.destroy, Action.leaves,
        Function.update_apply]
      by_cases hk : k = k' <;> simp [hk, eq_comm]
  | advance id =>
      rw [(State.advance_spec hstep).1]
      rfl

/-- **The buffers that are left** are those that the actions say. -/
theorem isSome_cells_run {actions : List (Action κ)} (hrun : run pageSize s actions = some s')
    (k : κ) :
    (s'.buffers.cells k).isSome = actions.foldl (Action.leaves k) (s.buffers.cells k).isSome := by
  induction actions generalizing s with
  | nil =>
      obtain rfl := Option.some.inj hrun
      rfl
  | cons action actions ih =>
      obtain ⟨next, hstep, hrest⟩ := Option.bind_eq_some_iff.mp hrun
      rw [ih hrest, List.foldl_cons, isSome_cells_step hstep k]


/-- A step leaves alone what the buffers it is not about point to. -/
theorem cells_step {action : Action κ} (hstep : step pageSize s action = some s') {k : κ}
    (hnames : ¬action.Names k) : s'.buffers.cells k = s.buffers.cells k := by
  cases action with
  | defaultConstruct k' =>
      obtain ⟨_, rfl⟩ := step_cases hstep
      exact Function.update_of_ne (Ne.symm hnames) ..
  | construct k' data granted =>
      obtain ⟨_, rfl⟩ := step_cases hstep
      exact Function.update_of_ne (Ne.symm hnames) ..
  | moveConstruct target source =>
      obtain ⟨_, _, rfl⟩ := step_cases hstep
      obtain ⟨htarget, hsource⟩ := not_or.mp hnames
      simp [State.moveConstruct, Ledger.moveConstruct, Ledger.moved,
        Ne.symm htarget, Ne.symm hsource]
  | moveAssign target source =>
      obtain ⟨_, _, rfl⟩ := step_cases hstep
      obtain ⟨htarget, hsource⟩ := not_or.mp hnames
      simp [State.moveAssign, Ledger.moveAssign, Ledger.moved,
        Ne.symm htarget, Ne.symm hsource]
  | destroy k' =>
      obtain ⟨_, rfl⟩ := step_cases hstep
      rw [State.destroy, State.delete_buffers]
      exact Function.update_of_ne (Ne.symm hnames) ..
  | advance id => rw [(State.advance_spec hstep).1]

/-- A buffer that a run does not name stays as it is. -/
theorem cells_run {actions : List (Action κ)} (hrun : run pageSize s actions = some s') {k : κ}
    (hnames : ∀ action ∈ actions, ¬action.Names k) :
    s'.buffers.cells k = s.buffers.cells k := by
  induction actions generalizing s with
  | nil =>
      obtain rfl := Option.some.inj hrun
      rfl
  | cons action actions ih =>
      obtain ⟨next, hstep, hrest⟩ := Option.bind_eq_some_iff.mp hrun
      rw [ih hrest fun a ha => hnames a (List.mem_cons_of_mem _ ha)]
      exact cells_step hstep (hnames action List.mem_cons_self)

/-- A move leaves a null pointer behind. -/
theorem cells_of_movesFrom {action : Action κ} (hstep : step pageSize s action = some s') {k : κ}
    (hmoves : action.MovesFrom k) : s'.buffers.cells k = some none := by
  cases action with
  | moveConstruct target source =>
      obtain ⟨_, _, rfl⟩ := step_cases hstep
      obtain ⟨rfl, htarget⟩ := hmoves
      simp [State.moveConstruct, Ledger.moveConstruct, Ledger.moved,
        Ne.symm htarget]
  | moveAssign target source =>
      obtain ⟨_, _, rfl⟩ := step_cases hstep
      obtain ⟨rfl, htarget⟩ := hmoves
      simp [State.moveAssign, Ledger.moveAssign, Ledger.moved,
        Ne.symm htarget]
  | defaultConstruct k' => exact hmoves.elim
  | construct k' data granted => exact hmoves.elim
  | destroy k' => exact hmoves.elim
  | advance id => exact hmoves.elim

end Actions

/-! ## Deletions come to their end -/

section Deletions

variable {κ : Type} {pageSize : Nat} {s s' : State κ}

/-- The statements that a destructor still has in front of it. -/
def HeapImpl.remaining (o : HeapImpl) : Nat :=
  match o.stage with
  | .live | .released => 0
  | .atUnlock => 4
  | .atCleanse => 3
  | .atClear => 2
  | .atRelease => 1

/-- Each statement leaves fewer to do. -/
theorem HeapImpl.advance_remaining {o o' : HeapImpl} {id : Nat} {events : List Event}
    (h : o.advance id = some (o', events)) : o'.remaining < o.remaining := by
  rcases o with ⟨given, granted, impl, stage⟩
  cases stage with
  | live => cases h
  | atUnlock =>
      simp only [advance] at h
      split at h <;> · cases h; simp [remaining]
  | released => cases h
  | _ =>
      cases h
      simp [remaining]

/-- The statements that all destructors together still have in front of them. -/
def State.remaining (s : State κ) : Nat := (s.heap.map HeapImpl.remaining).sum

/-- Each statement leaves fewer to do in the heap as a whole, which is why the destructors
come to their end. -/
theorem State.advance_remaining {id : Nat} (h : s.advance pageSize id = some s') :
    s'.remaining < s.remaining := by
  obtain ⟨o, hheap, h⟩ := Option.bind_eq_some_iff.mp h
  obtain ⟨⟨o', events⟩, hnext, hs'⟩ := Option.bind_eq_some_iff.mp h
  obtain rfl := Option.some.inj hs'
  obtain ⟨hlt, rfl⟩ := List.getElem?_eq_some_iff.mp hheap
  have hless := HeapImpl.advance_remaining hnext
  have hsplit : s.heap.take id ++ s.heap[id] :: s.heap.drop (id + 1) = s.heap := by
    rw [← List.drop_eq_getElem_cons hlt, List.take_append_drop]
  have hbefore := congrArg (fun heap => (heap.map HeapImpl.remaining).sum) hsplit
  rw [remaining, remaining, see_heap, List.set_eq_take_append_cons_drop, if_pos hlt]
  simp only [List.map_append, List.map_cons, List.sum_append, List.sum_cons] at hbefore ⊢
  omega

variable [DecidableEq κ]

/-- **Deletions come to their end.**  The destructors that are under way can all be run
to their last statement. -/
theorem deletions_end (s : State κ) :
    ∃ (ids : List Nat) (s' : State κ), run pageSize s (ids.map Action.advance) = some s' ∧
      ∀ id, s'.advance pageSize id = none := by
  induction hremaining : s.remaining using Nat.strong_induction_on generalizing s with
  | _ n ih =>
      by_cases hdone : ∀ id, s.advance pageSize id = none
      · exact ⟨[], s, rfl, hdone⟩
      · push Not at hdone
        obtain ⟨id, hid⟩ := hdone
        obtain ⟨next, hnext⟩ := Option.ne_none_iff_exists'.mp hid
        obtain ⟨ids, s', hrun, hend⟩ :=
          ih next.remaining (hremaining ▸ State.advance_remaining hnext) next rfl
        refine ⟨id :: ids, s', ?_, hend⟩
        rw [List.map_cons, run, List.foldlM_cons, step, hnext]
        exact hrun

end Deletions

/-! ## Wiped exactly once -/

section Wiping

variable {κ : Type} {pageSize : Nat} {s : State κ}

/-- The buffer has an empty view, size zero and is empty. -/
def State.ReportsEmpty (s : State κ) (k : κ) : Prop :=
  view (s.implOf k) = [] ∧ size (s.implOf k) = 0 ∧ empty (s.implOf k) = true

/-- The buffer has exactly these bytes. -/
def State.Reports (s : State κ) (k : κ) (bytes : List UInt8) : Prop :=
  view (s.implOf k) = bytes ∧ size (s.implOf k) = bytes.length ∧
    (empty (s.implOf k) = true ↔ bytes = [])

/-- All that happens to a vector until its storage is released; `locked` says whether
it got locked. -/
def fullHistory (id : Nat) (data : ByteVector) (locked : Bool) : List Event :=
  if data.bytes = [] then [.release id]
  else
    .lockAttempt id data.range locked ::
      (if locked then [.unlock id data.range] else []) ++ [.cleanse id data.range, .release id]

/-- A buffer without a vector reports that it is empty. -/
theorem reportsEmpty_of_null {k : κ} (h : s.buffers.cells k = some none) : s.ReportsEmpty k := by
  have himpl : s.implOf k = none := by
    simp [State.implOf, Ledger.held, h]
  exact ⟨by rw [himpl]; rfl, by rw [himpl]; rfl, by rw [himpl]; rfl⟩

/-- A buffer that owns a vector reports the contents that it was handed: no destructor has run
over a vector with an owner. -/
theorem Accounted.reports (h : Accounted pageSize s) {k : κ} {id : Nat}
    (howns : s.buffers.Owns k id) {o : HeapImpl} (hheap : s.heap[id]? = some o) :
    s.Reports k o.given.bytes := by
  obtain ⟨o', hheap', hlive, hok, _⟩ := h.live_of_owns howns
  obtain rfl : o' = o := Option.some.inj (hheap'.symm.trans hheap)
  have hstored : o'.impl = ⟨o'.given, o'.granted⟩ := by
    have hstage := hok.stageOk
    simpa only [HeapImpl.StageOk, hlive] using hstage
  have himpl : s.implOf k = some ⟨o'.given, o'.granted⟩ := by
    simp [State.implOf, Ledger.held_eq_some_iff.mpr howns, hheap, hstored]
  refine ⟨?_, ?_, ?_⟩
  · rw [himpl]
    by_cases hbytes : o'.given.bytes = [] <;> simp [view, hbytes]
  · rw [himpl]
    rfl
  · rw [himpl]
    simp [empty]

/-- An object whose storage was released has its whole history behind it. -/
theorem HeapImpl.Ok.history_released {o : HeapImpl} (h : o.Ok) (hstage : o.stage = .released)
    (id : Nat) : o.history id = fullHistory id o.given o.granted := by
  by_cases hempty : o.given.bytes = []
  · have hgranted : o.granted = false :=
      Bool.eq_false_iff.mpr fun hg => h.granted_nonempty hg hempty
    simp [HeapImpl.history, HeapImpl.attempts, HeapImpl.unlocks, HeapImpl.wipes, fullHistory,
      hstage, hempty, hgranted]
  · simp [HeapImpl.history, HeapImpl.attempts, HeapImpl.unlocks, HeapImpl.wipes, fullHistory,
      hstage, hempty]

/-- Only the last stage shows the release of the storage. -/
theorem HeapImpl.released_of_mem_history {o : HeapImpl} {id : Nat}
    (h : .release id ∈ o.history id) : o.stage = .released := by
  rcases o with ⟨given, granted, impl, stage⟩
  cases stage
  case released => rfl
  all_goals
    simp only [HeapImpl.history, HeapImpl.attempts, HeapImpl.unlocks, HeapImpl.wipes,
      List.mem_append] at h
    grind

/-- A vector that was locked and not cleansed was not unlocked either, outside
the window between the two. -/
theorem HeapImpl.not_unlocked {o : HeapImpl} {id : Nat} {range : MemoryRange}
    (hlocked : .lockAttempt id range true ∈ o.history id)
    (hsecret : .cleanse id range ∉ o.history id) (hstage : o.stage ≠ .atCleanse)
    (unlocked : MemoryRange) : .unlock id unlocked ∉ o.history id := by
  rcases o with ⟨given, granted, impl, stage⟩
  have hattempt : given.bytes ≠ [] ∧ range = given.range := by
    cases stage <;>
      simp only [HeapImpl.history, HeapImpl.attempts, HeapImpl.unlocks, HeapImpl.wipes,
        List.mem_append] at hlocked <;>
      grind
  obtain ⟨hbytes, rfl⟩ := hattempt
  cases stage
  case live => simp [HeapImpl.history, HeapImpl.attempts, hbytes]
  case atUnlock => simp [HeapImpl.history, HeapImpl.attempts, hbytes]
  case atCleanse => exact absurd rfl hstage
  all_goals
    exact absurd (by simp [HeapImpl.history, HeapImpl.wipes, hbytes]) hsecret

/-- What was seen of an event's vector is what the trace has of it. -/
theorem State.mem_seen_iff {event : Event} : event ∈ s.seen event.id ↔ event ∈ s.trace := by
  simp [seen]

/-- A destructor that cannot go on has not begun, or is through. -/
theorem HeapImpl.of_advance_eq_none {o : HeapImpl} {id : Nat} (h : o.advance id = none) :
    o.stage = .live ∨ o.stage = .released := by
  rcases o with ⟨given, granted, impl, stage⟩
  cases stage with
  | live => exact Or.inl rfl
  | atUnlock =>
      simp only [advance] at h
      split at h <;> cases h
  | released => exact Or.inr rfl
  | _ => cases h

/-- A vector that no buffer owns is released, once its destructor cannot go on. -/
theorem Accounted.released_of_unowned (h : Accounted pageSize s) {id : Nat} {o : HeapImpl}
    (hheap : s.heap[id]? = some o) (hunowned : ∀ k, ¬s.buffers.Owns k id)
    (hadvance : s.advance pageSize id = none) : o.stage = .released := by
  obtain ⟨_, _, hdisposed⟩ := (State.objectOk_some hheap).mp (h.object id)
  have hacquired : id ∈ s.buffers.acquired :=
    h.mem_acquired_iff.mpr (List.getElem?_eq_some_iff.mp hheap).1
  have hdeleted : id ∈ s.buffers.disposed := by
    rcases (h.balanced.accounted id).mp hacquired with ⟨k, hk⟩ | hdeleted
    · exact absurd hk (hunowned k)
    · exact hdeleted
  have hstuck : o.advance id = none := by
    cases hnext : o.advance id with
    | none => rfl
    | some next => simp [State.advance, hheap, hnext] at hadvance
  exact (HeapImpl.of_advance_eq_none hstuck).resolve_left (hdisposed.mp hdeleted)

variable [DecidableEq κ]

/-- **Every secret is wiped exactly once.**  In every state of every run, a
vector that was handed in has at most one owner, which reports exactly its
bytes; a buffer that was moved from, and not used since, reports empty.  The
buffers that stand are those that were constructed and not destroyed since.  A
vector whose storage was released has exactly its full history behind it, and
so has every vector that no buffer owns any more once its destructor is through;
so once the actions have destroyed every buffer they constructed, and all
destructors are through, every vector was wiped.  And the destructors that are
under way can always be run to their end. -/
theorem secrets_wiped_once {actions : List (Action κ)}
    (hrun : run pageSize .initial actions = some s) :
    (∀ id k k', s.buffers.Owns k id → s.buffers.Owns k' id → k = k') ∧
    (∀ id data locked, (handedIn actions)[id]? = some (data, locked) →
      ∀ k, s.buffers.Owns k id → s.Reports k data.bytes) ∧
    (∀ before action after k, actions = before ++ action :: after → action.MovesFrom k →
      (∀ later ∈ after, ¬later.Names k) → s.ReportsEmpty k) ∧
    (∀ k, (s.buffers.cells k).isSome = standing actions k) ∧
    (∀ id data locked, (handedIn actions)[id]? = some (data, locked) → .release id ∈ s.trace →
      s.seen id = fullHistory id data locked) ∧
    (∀ id data locked, (handedIn actions)[id]? = some (data, locked) →
      (∀ k, ¬s.buffers.Owns k id) → s.advance pageSize id = none →
      s.seen id = fullHistory id data locked) ∧
    ((∀ k, standing actions k = false) → (∀ id, s.advance pageSize id = none) →
      ∀ id data locked, (handedIn actions)[id]? = some (data, locked) →
        s.seen id = fullHistory id data locked) ∧
    ∃ (ids : List Nat) (s' : State κ), run pageSize s (ids.map Action.advance) = some s' ∧
      ∀ id, s'.advance pageSize id = none := by
  have h : Accounted pageSize s := Accounted.run accounted_initial hrun
  have hreleased : ∀ id o, s.heap[id]? = some o → o.stage = .released →
      s.seen id = fullHistory id o.given o.granted := by
    intro id o hheap hstage
    obtain ⟨hok, hseen, _⟩ := (State.objectOk_some hheap).mp (h.object id)
    rw [hseen, hok.history_released hstage]
  have hstanding : ∀ k, (s.buffers.cells k).isSome = standing actions k := isSome_cells_run hrun
  have hunowned : ∀ id data locked, (handedIn actions)[id]? = some (data, locked) →
      (∀ k, ¬s.buffers.Owns k id) → s.advance pageSize id = none →
      s.seen id = fullHistory id data locked := by
    intro id data locked hdata hnone hadvance
    obtain ⟨o, hheap, rfl, rfl⟩ := heap_of_handed hrun hdata
    exact hreleased id o hheap (h.released_of_unowned hheap hnone hadvance)
  refine ⟨fun id k k' hk hk' => h.balanced.unique_owner k k' id hk hk', ?_, ?_, hstanding, ?_,
    hunowned, ?_, deletions_end s⟩
  · intro id data locked hdata k howns
    obtain ⟨o, hheap, rfl, _⟩ := heap_of_handed hrun hdata
    exact h.reports howns hheap
  · intro before action after k hactions hmoves hlater
    subst hactions
    rw [run, List.foldlM_append] at hrun
    obtain ⟨middle, _, hrest⟩ := Option.bind_eq_some_iff.mp hrun
    obtain ⟨next, hstep, hrest⟩ := Option.bind_eq_some_iff.mp hrest
    exact reportsEmpty_of_null ((cells_run hrest hlater).trans (cells_of_movesFrom hstep hmoves))
  · intro id data locked hdata hrelease
    obtain ⟨o, hheap, rfl, rfl⟩ := heap_of_handed hrun hdata
    obtain ⟨_, hseen, _⟩ := (State.objectOk_some hheap).mp (h.object id)
    have hmem : Event.release id ∈ o.history id := hseen ▸ State.mem_seen_iff.mpr hrelease
    exact hreleased id o hheap (HeapImpl.released_of_mem_history hmem)
  · intro hgone hdone id data locked hdata
    refine hunowned id data locked hdata (fun k howns => ?_) (hdone id)
    have hstands := hstanding k
    rw [howns, hgone k] at hstands
    cases hstands

/-- A buffer takes over the secret of another one and is then assigned to itself; both
are destroyed, and the destructors run to their ends. -/
def overwriting : List (Action Bool) :=
  [.construct false ⟨4096, [1, 2]⟩ true, .construct true ⟨4160, [3]⟩ false,
    .moveAssign false true, .advance 0, .advance 0, .moveAssign false false, .destroy true,
    .destroy false, .advance 1, .advance 0, .advance 0, .advance 1, .advance 1, .advance 1]

omit [DecidableEq κ] in
/-- In the middle the one buffer has the secret and the other none; in the end both
secrets are wiped, the locked one after its unlock. -/
theorem secrets_wiped_once_overwriting :
    (∃ s : State Bool, run 4096 .initial (overwriting.take 6) = some s ∧ s.ReportsEmpty true ∧
      s.Reports false [3]) ∧
    ∃ s : State Bool, run 4096 .initial overwriting = some s ∧
      s.seen 0 = [.lockAttempt 0 ⟨4096, 2⟩ true, .unlock 0 ⟨4096, 2⟩, .cleanse 0 ⟨4096, 2⟩,
        .release 0] ∧
      s.seen 1 = [.lockAttempt 1 ⟨4160, 1⟩ false, .cleanse 1 ⟨4160, 1⟩, .release 1] := by
  constructor
  · have hrun : run 4096 .initial (overwriting.take 6) = some _ := rfl
    obtain ⟨_, hreports, hmoved, _⟩ := secrets_wiped_once hrun
    refine ⟨_, hrun, ?_, hreports 1 ⟨4160, [3]⟩ false rfl false rfl⟩
    exact hmoved [_, _] (.moveAssign false true) _ true rfl ⟨rfl, by decide⟩
      (by simp [Action.Names])
  · have hrun : run 4096 .initial overwriting = some _ := rfl
    obtain ⟨_, _, _, _, _, _, hgone, _⟩ := secrets_wiped_once hrun
    have hwiped := hgone (by decide) fun
      | 0 => rfl
      | 1 => rfl
      | _ + 2 => rfl
    exact ⟨_, hrun, hwiped 0 ⟨4096, [1, 2]⟩ true rfl, hwiped 1 ⟨4160, [3]⟩ false rfl⟩

end Wiping

/-! ## Locked until unlocked -/

section Locking

variable {κ : Type} {pageSize : Nat} {s : State κ}

/-- Every byte of a vector that was locked and not cleansed yet lies on a locked page. -/
def PinnedUntilWiped (pageSize : Nat) (s : State κ) : Prop :=
  ∀ id range, .lockAttempt id range true ∈ s.trace → .cleanse id range ∉ s.trace →
    ∀ offset < range.size, s.pages ((range.address + offset) / pageSize) = true

/-- The pages that are locked are those that the calls of the trace left locked. -/
theorem pages_iff_mem_lockedAfter (pages : Nat → Bool) (locked : Set Nat) (events : List Event)
    (h : ∀ page, pages page = true ↔ page ∈ locked) (page : Nat) :
    events.foldl (Event.apply pageSize) pages page = true ↔
      page ∈ PageLocks.lockedAfter (fun event => {page | event.locks pageSize page = true})
        (fun event => {page | event.unlocks pageSize page = true}) locked events := by
  induction events generalizing pages locked with
  | nil => exact h page
  | cons event events ih =>
      refine ih _ _ fun page => ?_
      rw [PageLocks.mem_apply_iff, ← h page]
      simp [Event.apply]

variable [DecidableEq κ]

/-- **Locked until unlocked.**  In every state of every run, each byte of a
vector that was locked and not cleansed yet lies on a locked page, unless its
own `clear()` stands between the unlock and the cleanse, or the `clear()` of
another buffer has unlocked the page since, and no lock of the page was granted
after the last unlock of it. -/
theorem locked_until_unlocked {actions : List (Action κ)}
    (hrun : run pageSize .initial actions = some s) {id : Nat} {range : MemoryRange}
    (hlocked : .lockAttempt id range true ∈ s.trace) (hsecret : .cleanse id range ∉ s.trace)
    {offset : Nat} (hoffset : offset < range.size) :
    s.pages ((range.address + offset) / pageSize) = true ∨
    (∃ o, s.heap[id]? = some o ∧ o.stage = .atCleanse) ∨
    (∃ before after other unlocked, s.trace = before ++ .lockAttempt id range true :: after ∧
      other ≠ id ∧ .unlock other unlocked ∈ after ∧
      unlocked.touches pageSize ((range.address + offset) / pageSize) = true) ∧
    ∀ before lock after, s.trace = before ++ lock :: after →
      lock.locks pageSize ((range.address + offset) / pageSize) = true →
      ∃ later ∈ after, later.unlocks pageSize ((range.address + offset) / pageSize) = true := by
  have h : Accounted pageSize s := Accounted.run accounted_initial hrun
  have hseen : Event.lockAttempt id range true ∈ s.seen id := State.mem_seen_iff.mpr hlocked
  have hunwiped : Event.cleanse id range ∉ s.seen id := fun hmem =>
    hsecret (State.mem_seen_iff.mp hmem)
  rcases hheap : s.heap[id]? with _ | o
  · rw [(State.objectOk_none hheap).mp (h.object id)] at hseen
    cases hseen
  obtain ⟨_, hhistory, _⟩ := (State.objectOk_some hheap).mp (h.object id)
  by_cases hpage : s.pages ((range.address + offset) / pageSize) = true
  · exact Or.inl hpage
  by_cases hstage : o.stage = .atCleanse
  · exact Or.inr (Or.inl ⟨o, rfl, hstage⟩)
  refine Or.inr (Or.inr ?_)
  -- a page is unlocked exactly when every lock of it was undone
  have hundone : ∀ before lock after, s.trace = before ++ lock :: after →
      lock.locks pageSize ((range.address + offset) / pageSize) = true →
      ∃ later ∈ after, later.unlocks pageSize ((range.address + offset) / pageSize) = true := by
    intro before lock after htrace hlocks
    rw [h.pages, pages_iff_mem_lockedAfter _ ∅ _ (by simp), PageLocks.mem_lockedAfter_iff] at hpage
    by_contra hkept
    exact hpage ⟨before, lock, after, htrace, hlocks, fun later hmem hunlocks =>
      hkept ⟨later, hmem, hunlocks⟩⟩
  refine ⟨?_, hundone⟩
  -- outside the window the own `clear()` has unlocked nothing
  have hkept : ∀ unlocked, Event.unlock id unlocked ∉ s.trace := by
    intro unlocked hmem
    rw [hhistory] at hseen hunwiped
    exact HeapImpl.not_unlocked hseen hunwiped hstage unlocked
      (hhistory ▸ State.mem_seen_iff.mpr hmem)
  obtain ⟨before, after, htrace⟩ := List.mem_iff_append.mp hlocked
  obtain ⟨event, hmem, hunlocks⟩ :=
    hundone before _ after htrace (MemoryRange.touches_of_lt hoffset)
  cases event with
  | unlock other unlocked =>
      refine ⟨before, after, other, unlocked, htrace, ?_, hmem, hunlocks⟩
      intro hsame
      subst hsame
      exact hkept unlocked (by simp [htrace, hmem])
  | lockAttempt => cases hunlocks
  | cleanse => cases hunlocks
  | release => cases hunlocks

omit [DecidableEq κ] in
/-- Two secrets on one page, both in use. -/
def neighbours : List (Action Bool) :=
  [.construct false ⟨4096, [1, 2]⟩ true, .construct true ⟨4160, [3]⟩ true]

omit [DecidableEq κ] in
/-- Two neighbours on one page: the one that stays is still locked. -/
theorem locked_until_unlocked_neighbours : ∃ s : State Bool,
    run 4096 .initial neighbours = some s ∧ s.pages ((4096 + 1) / 4096) = true := by
  have hrun : run 4096 .initial neighbours = some _ := rfl
  have hlocked : Event.lockAttempt 0 ⟨4096, 2⟩ true ∈
      [Event.lockAttempt 0 ⟨4096, 2⟩ true, .lockAttempt 1 ⟨4160, 1⟩ true] := by decide
  have hoffset : 1 < (⟨4096, 2⟩ : MemoryRange).size := by decide
  refine ⟨_, hrun, ?_⟩
  rcases locked_until_unlocked hrun hlocked (by decide) hoffset with
    hpage | ⟨o, hheap, hstage⟩ | ⟨⟨before, after, other, unlocked, htrace, _, hmem, _⟩, _⟩
  · exact hpage
  · obtain rfl := Option.some.inj hheap
    cases hstage
  · have htrace : [Event.lockAttempt 0 ⟨4096, 2⟩ true, .lockAttempt 1 ⟨4160, 1⟩ true] = _ := htrace
    have hunlock : Event.unlock other unlocked ∈
        before ++ Event.lockAttempt 0 ⟨4096, 2⟩ true :: after :=
      List.mem_append_right before (List.mem_cons_of_mem _ hmem)
    rw [← htrace] at hunlock
    simp at hunlock

/-- Two secrets on one page: when one of them is wiped, the page of the other
one, still in use, is unlocked.  And a secret on its own is not locked any more
when it is cleansed. -/
theorem pinnedUntilWiped_fails :
    (∃ s : State Bool, run 4096 .initial (neighbours ++ [.destroy true, .advance 1]) = some s ∧
      s.buffers.Owns false 0 ∧ ¬PinnedUntilWiped 4096 s) ∧
    (∃ s : State Bool, run 4096 .initial [.construct false ⟨4096, [1, 2]⟩ true,
      .destroy false, .advance 0] = some s ∧ ¬PinnedUntilWiped 4096 s) := by
  refine ⟨⟨_, rfl, rfl, fun h => ?_⟩, ⟨_, rfl, fun h => ?_⟩⟩
  · exact absurd (h 0 ⟨4096, 2⟩ (by decide) (by decide) 0 (by decide)) (by decide)
  · exact absurd (h 0 ⟨4096, 2⟩ (by decide) (by decide) 0 (by decide)) (by decide)

end Locking

end Tpmkit.SecretBuffer
