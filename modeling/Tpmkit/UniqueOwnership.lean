import Mathlib.Data.List.Nodup
import Mathlib.Data.List.Pairwise
import Mathlib.Logic.Function.Basic
import Mathlib.Logic.Relation

/-!
# Unique ownership

A library for programs whose objects own resources the way a `unique_ptr` does.
An object holds one resource or nothing; a move empties its source; assigning
over an object, and destroying it, dispose of what it held.

A `Ledger` records the objects, the resources acquired so far and those disposed
of, in order.  `Balanced` is the invariant of a ledger: a resource that was
acquired has one owner, or was disposed of once, and never both.
`Balanced.of_run` is the rule for whole runs.
-/

namespace UniqueOwnership

variable {κ ρ : Type*}

/-- Objects stored under names in `κ`, and the resources in `ρ` they hold. -/
structure Ledger (κ ρ : Type*) where
  cells : κ → Option (Option ρ)
  acquired : List ρ
  disposed : List ρ

namespace Ledger

/-- No objects and no resources. -/
def empty : Ledger κ ρ := ⟨fun _ => none, [], []⟩

/-- What the object `k` holds. -/
def held (cells : κ → Option (Option ρ)) (k : κ) : Option ρ := (cells k).join

/-- The object `k` holds the resource `r`. -/
def Owns (l : Ledger κ ρ) (k : κ) (r : ρ) : Prop := l.cells k = some (some r)

/-- **The balance of a ledger.** -/
structure Balanced (l : Ledger κ ρ) : Prop where
  acquired_nodup : l.acquired.Nodup
  disposed_nodup : l.disposed.Nodup
  unique_owner : ∀ k k' r, l.Owns k r → l.Owns k' r → k = k'
  not_disposed : ∀ k r, l.Owns k r → r ∉ l.disposed
  accounted : ∀ r, r ∈ l.acquired ↔ (∃ k, l.Owns k r) ∨ r ∈ l.disposed

/-! ## What balance says -/

/-- A resource that was acquired has one owner or was disposed of, never both. -/
theorem Balanced.owned_or_disposed {l : Ledger κ ρ} (h : l.Balanced) {r : ρ}
    (hr : r ∈ l.acquired) :
    ((∃! k, l.Owns k r) ∧ r ∉ l.disposed) ∨ ((∀ k, ¬l.Owns k r) ∧ r ∈ l.disposed) := by
  by_cases hdisposed : r ∈ l.disposed
  · exact Or.inr ⟨fun k hk => h.not_disposed k r hk hdisposed, hdisposed⟩
  · obtain ⟨k, hk⟩ := ((h.accounted r).mp hr).resolve_right hdisposed
    exact Or.inl ⟨⟨k, hk, fun k' hk' => h.unique_owner k' k r hk' hk⟩, hdisposed⟩

/-- Once nothing is owned, everything that was acquired was disposed of once. -/
theorem Balanced.disposed_perm {l : Ledger κ ρ} (h : l.Balanced)
    (hnone : ∀ k r, ¬l.Owns k r) : l.disposed.Perm l.acquired := by
  refine (List.perm_ext_iff_of_nodup h.disposed_nodup h.acquired_nodup).mpr fun r => ?_
  rw [h.accounted]
  exact ⟨Or.inr, fun hr => hr.resolve_left fun ⟨k, hk⟩ => hnone k r hk⟩

/-! ## Handles inside resources -/

section Handles

variable {β : Type*}

/-- Two resources of a list without repeated handles share none. -/
theorem eq_of_handle_eq {rs : List ρ} {handle : ρ → Option β} (h : (rs.filterMap handle).Nodup)
    {r r' : ρ} (hr : r ∈ rs) (hr' : r' ∈ rs) {b : β} (hb : handle r = some b)
    (hb' : handle r' = some b) : r = r' := by
  have hpairwise : rs.Pairwise fun r r' => ∀ b, handle r = some b → handle r' ≠ some b := by
    refine (List.pairwise_filterMap.mp h).imp fun hne b hb hb' => ?_
    exact hne b hb b hb' rfl
  have hsymm : Std.Symm fun r r' : ρ => ∀ b, handle r = some b → handle r' ≠ some b :=
    ⟨fun r r' hne b hb hb' => hne b hb' hb⟩
  by_contra hne
  exact hpairwise.forall hr hr' hne b hb hb'

/-- **The handles of a balanced ledger.**  A handle that one acquired resource
carries is held by one object and was not disposed of, or was disposed of once
and is held by none. -/
theorem Balanced.handle_owned_or_disposed [BEq β] [LawfulBEq β] {l : Ledger κ ρ}
    (h : l.Balanced) (handle : ρ → Option β) (hnodup : (l.acquired.filterMap handle).Nodup)
    {b : β} (hb : b ∈ l.acquired.filterMap handle) :
    ((∃! k, ∃ r, l.Owns k r ∧ handle r = some b) ∧ (l.disposed.filterMap handle).count b = 0) ∨
    ((∀ k r, l.Owns k r → handle r ≠ some b) ∧ (l.disposed.filterMap handle).count b = 1) := by
  have hsubset : ∀ r ∈ l.disposed, r ∈ l.acquired := fun r hr => (h.accounted r).mpr (Or.inr hr)
  have howned : ∀ k r, l.Owns k r → r ∈ l.acquired := fun k r hk =>
    (h.accounted r).mpr (Or.inl ⟨k, hk⟩)
  obtain ⟨r, hr, hrb⟩ := List.mem_filterMap.mp hb
  have honly : ∀ r' ∈ l.acquired, handle r' = some b → r' = r := fun r' hr' hrb' =>
    eq_of_handle_eq hnodup hr' hr hrb' hrb
  rcases h.owned_or_disposed hr with ⟨⟨k, hk, hunique⟩, hlive⟩ | ⟨hnone, hdisposed⟩
  · refine Or.inl ⟨⟨k, ⟨r, hk, hrb⟩, fun k' ⟨r', hk', hrb'⟩ => ?_⟩, List.count_eq_zero.mpr ?_⟩
    · obtain rfl := honly r' (howned k' r' hk') hrb'
      exact hunique k' hk'
    · intro hmem
      obtain ⟨r', hr', hrb'⟩ := List.mem_filterMap.mp hmem
      exact hlive (honly r' (hsubset r' hr') hrb' ▸ hr')
  · refine Or.inr ⟨fun k r' hk' hrb' => ?_, List.count_eq_one_of_mem ?_ ?_⟩
    · obtain rfl := honly r' (howned k r' hk') hrb'
      exact hnone k hk'
    · rw [List.Nodup, List.pairwise_filterMap]
      refine h.disposed_nodup.imp_of_mem fun {r₁ r₂} hr₁ hr₂ hne b₁ hb₁ b₂ hb₂ heq => ?_
      exact hne (eq_of_handle_eq hnodup (hsubset _ hr₁) (hsubset _ hr₂) hb₁ (heq ▸ hb₂))
    · exact List.mem_filterMap.mpr ⟨r, hdisposed, hrb⟩

end Handles

/-! ## Operations -/

section Operations

variable [DecidableEq κ] (l : Ledger κ ρ)

/-- A new object holds a new resource. -/
def create (k : κ) (r : ρ) : Ledger κ ρ :=
  { l with cells := Function.update l.cells k (some (some r)), acquired := l.acquired ++ [r] }

/-- A new object holds nothing. -/
def createEmpty (k : κ) : Ledger κ ρ :=
  { l with cells := Function.update l.cells k (some none) }

/-- The source is released, and the target stores what it held. -/
def moved (cells : κ → Option (Option ρ)) (target source : κ) : κ → Option (Option ρ) :=
  Function.update (Function.update cells source (some none)) target (some (held cells source))

/-- A new object takes what the source holds. -/
def moveConstruct (target source : κ) : Ledger κ ρ :=
  { l with cells := moved l.cells target source }

/-- An object takes what the source holds; what it held itself after the release
of the source is disposed of. -/
def moveAssign (target source : κ) : Ledger κ ρ :=
  { l with
    cells := moved l.cells target source,
    disposed :=
      l.disposed ++ (held (Function.update l.cells source (some none)) target).toList }

/-- The object goes, and what it held is disposed of. -/
def destroy (k : κ) : Ledger κ ρ :=
  { l with
    cells := Function.update l.cells k none,
    disposed := l.disposed ++ (held l.cells k).toList }

/-- One operation, where the language allows it. -/
inductive Step : Ledger κ ρ → Ledger κ ρ → Prop
  | create {l : Ledger κ ρ} {k : κ} {r : ρ} (hfree : l.cells k = none)
      (hfresh : r ∉ l.acquired) : Step l (l.create k r)
  | moveConstruct {l : Ledger κ ρ} {target source : κ} (htarget : l.cells target = none)
      (hsource : l.cells source ≠ none) : Step l (l.moveConstruct target source)
  | moveAssign {l : Ledger κ ρ} {target source : κ} (htarget : l.cells target ≠ none)
      (hsource : l.cells source ≠ none) : Step l (l.moveAssign target source)
  | destroy {l : Ledger κ ρ} {k : κ} (hobject : l.cells k ≠ none) : Step l (l.destroy k)

end Operations

/-! ## Ownership after an operation -/

/-- What a cell holds is what stands in it. -/
theorem held_eq_some_iff {cells : κ → Option (Option ρ)} {k : κ} {r : ρ} :
    held cells k = some r ↔ cells k = some (some r) :=
  Option.join_eq_some_iff

section Owners

variable [DecidableEq κ] {l : Ledger κ ρ}

/-- A creation makes one owner and leaves the others. -/
theorem owns_create {k k' : κ} {r r' : ρ} (hfree : l.cells k = none) :
    (l.create k r).Owns k' r' ↔ (k' = k ∧ r' = r) ∨ l.Owns k' r' := by
  simp only [Owns, create, Function.update_apply]
  grind

/-- An empty object owns nothing. -/
theorem owns_createEmpty {k k' : κ} {r : ρ} (hfree : l.cells k = none) :
    (l.createEmpty k).Owns k' r ↔ l.Owns k' r := by
  simp only [Owns, createEmpty, Function.update_apply]
  grind

/-- After an assignment the target owns what the source did, and the source nothing; on
self-assignment nothing changes. -/
theorem owns_moveAssign {target source k : κ} {r : ρ} :
    (l.moveAssign target source).Owns k r ↔
      (k = target ∧ l.Owns source r) ∨ (k ≠ target ∧ k ≠ source ∧ l.Owns k r) := by
  simp only [Owns, moveAssign, moved, Function.update_apply, ← held_eq_some_iff]
  by_cases htarget : k = target
  · simp [htarget, held]
  · by_cases hsource : k = source
    · subst hsource
      simp [htarget, held]
    · simp [htarget, hsource, held]

/-- What a released source leaves in the target to dispose of. -/
theorem held_released_eq_some_iff {target source : κ} {r : ρ} :
    held (Function.update l.cells source (some none)) target = some r ↔
      target ≠ source ∧ l.Owns target r := by
  rw [held_eq_some_iff, Function.update_apply, Owns]
  by_cases h : target = source <;> simp [h]

/-- After a destruction the object owns nothing. -/
theorem owns_destroy {k k' : κ} {r : ρ} :
    (l.destroy k).Owns k' r ↔ k' ≠ k ∧ l.Owns k' r := by
  simp only [Owns, destroy, Function.update_apply]
  by_cases h : k' = k <;> simp [h]

/-- Over a free cell there is nothing to dispose of. -/
theorem moveConstruct_eq_moveAssign {target source : κ} (htarget : l.cells target = none)
    (hsource : l.cells source ≠ none) :
    l.moveConstruct target source = l.moveAssign target source := by
  have hne : target ≠ source := fun h => hsource (h ▸ htarget)
  simp [moveConstruct, moveAssign, held, Function.update_of_ne hne, htarget]

end Owners

/-! ## Balance along a run -/

/-- Before the first operation nothing is owned and nothing disposed of. -/
theorem balanced_empty : (empty : Ledger κ ρ).Balanced := by
  constructor <;> simp [empty, Owns]

/-- **The transfer rule.**  Balance is kept when every owner afterwards took its
resource from one owner before, and every resource before is still owned, or was
disposed of. -/
theorem Balanced.of_transfer {l l' : Ledger κ ρ} (h : l.Balanced) {dead : Option ρ}
    (origin : κ → κ) (hacquired : l'.acquired = l.acquired)
    (hdisposed : l'.disposed = l.disposed ++ dead.toList)
    (horigin : ∀ k r, l'.Owns k r → l.Owns (origin k) r)
    (hinjective : ∀ k k' r, l'.Owns k r → l'.Owns k' r → origin k = origin k' → k = k')
    (hdead : ∀ r, dead = some r → (∃ k, l.Owns k r) ∧ ∀ k, ¬l'.Owns k r)
    (hkept : ∀ k r, l.Owns k r → (∃ k', l'.Owns k' r) ∨ dead = some r) : l'.Balanced where
  acquired_nodup := hacquired ▸ h.acquired_nodup
  disposed_nodup := by
    rw [hdisposed]
    refine h.disposed_nodup.append (by cases dead <;> simp) fun r hr hmem => ?_
    obtain ⟨⟨k, hk⟩, _⟩ := hdead r (by simpa using hmem)
    exact h.not_disposed k r hk hr
  unique_owner k k' r hk hk' :=
    hinjective k k' r hk hk' (h.unique_owner _ _ r (horigin k r hk) (horigin k' r hk'))
  not_disposed k r hk hmem := by
    rw [hdisposed, List.mem_append, Option.mem_toList] at hmem
    rcases hmem with hmem | hmem
    · exact h.not_disposed _ r (horigin k r hk) hmem
    · exact (hdead r hmem).2 k hk
  accounted r := by
    rw [hacquired, h.accounted, hdisposed, List.mem_append, Option.mem_toList]
    constructor
    · rintro (⟨k, hk⟩ | hr)
      · exact (hkept k r hk).imp_right Or.inr
      · exact Or.inr (Or.inl hr)
    · rintro (⟨k, hk⟩ | hr | hr)
      · exact Or.inl ⟨_, horigin k r hk⟩
      · exact Or.inr hr
      · exact Or.inl (hdead r hr).1

variable [DecidableEq κ] {l l' : Ledger κ ρ}

/-- A creation of something new keeps the balance. -/
theorem Balanced.create (h : l.Balanced) {k : κ} {r : ρ} (hfree : l.cells k = none)
    (hfresh : r ∉ l.acquired) : (l.create k r).Balanced where
  acquired_nodup := h.acquired_nodup.append (List.nodup_singleton r) (by simpa using hfresh)
  disposed_nodup := h.disposed_nodup
  unique_owner k₁ k₂ r' h₁ h₂ := by
    have hunowned : ∀ k', ¬l.Owns k' r := fun k' hk' =>
      hfresh ((h.accounted r).mpr (Or.inl ⟨k', hk'⟩))
    rw [owns_create hfree] at h₁ h₂
    rcases h₁ with ⟨rfl, rfl⟩ | h₁ <;> rcases h₂ with ⟨rfl, hr⟩ | h₂
    · rfl
    · exact absurd h₂ (hunowned k₂)
    · exact absurd (hr ▸ h₁) (hunowned k₁)
    · exact h.unique_owner k₁ k₂ r' h₁ h₂
  not_disposed k' r' hk' := by
    rw [owns_create hfree] at hk'
    rcases hk' with ⟨rfl, rfl⟩ | hk'
    · exact fun hmem => hfresh ((h.accounted r').mpr (Or.inr hmem))
    · exact h.not_disposed k' r' hk'
  accounted r' := by
    have hcases : (∃ k', (l.create k r).Owns k' r') ↔ r' = r ∨ ∃ k', l.Owns k' r' := by
      simp only [owns_create hfree, exists_or, exists_and_right, exists_eq, true_and]
    have hacquired : r' ∈ (l.create k r).acquired ↔ r' ∈ l.acquired ∨ r' = r := by
      simp [Ledger.create]
    rw [hcases, hacquired, h.accounted]
    exact ⟨fun hr => by tauto, fun hr => by simpa [Ledger.create] using by tauto⟩

/-- So does an object that owns nothing. -/
theorem Balanced.createEmpty (h : l.Balanced) {k : κ} (hfree : l.cells k = none) :
    (l.createEmpty k).Balanced where
  acquired_nodup := h.acquired_nodup
  disposed_nodup := h.disposed_nodup
  unique_owner k₁ k₂ r h₁ h₂ :=
    h.unique_owner k₁ k₂ r ((owns_createEmpty hfree).mp h₁) ((owns_createEmpty hfree).mp h₂)
  not_disposed k' r hk' := h.not_disposed k' r ((owns_createEmpty hfree).mp hk')
  accounted r := by
    simp only [owns_createEmpty hfree]
    exact h.accounted r

/-- Also over itself: the release comes first. -/
theorem Balanced.moveAssign (h : l.Balanced) (target source : κ) :
    (l.moveAssign target source).Balanced := by
  refine h.of_transfer (fun k => if k = target then source else k) rfl rfl ?_ ?_ ?_ ?_
  · intro k r
    rw [owns_moveAssign]
    rintro (⟨rfl, hr⟩ | ⟨hk, _, hr⟩)
    · simpa using hr
    · simpa [hk] using hr
  · intro k k' r
    rw [owns_moveAssign, owns_moveAssign]
    rintro (⟨rfl, _⟩ | ⟨hk, hks, _⟩) (⟨rfl, _⟩ | ⟨hk', hks', _⟩) heq <;> grind
  · intro r hr
    obtain ⟨hne, hr⟩ := held_released_eq_some_iff.mp hr
    refine ⟨⟨target, hr⟩, fun k hk => ?_⟩
    rcases owns_moveAssign.mp hk with ⟨_, hk⟩ | ⟨hk, _, hkr⟩
    · exact hne (h.unique_owner _ _ r hr hk)
    · exact hk (h.unique_owner _ _ r hkr hr)
  · intro k r hk
    by_cases hsource : k = source
    · exact Or.inl ⟨target, owns_moveAssign.mpr (Or.inl ⟨rfl, hsource ▸ hk⟩)⟩
    by_cases htarget : k = target
    · exact Or.inr (held_released_eq_some_iff.mpr ⟨htarget ▸ hsource, htarget ▸ hk⟩)
    · exact Or.inl ⟨k, owns_moveAssign.mpr (Or.inr ⟨htarget, hsource, hk⟩)⟩

/-- So does a destruction; what the object owned is disposed of, once. -/
theorem Balanced.destroy (h : l.Balanced) (k : κ) : (l.destroy k).Balanced := by
  refine h.of_transfer id rfl rfl (fun k' r hk' => (owns_destroy.mp hk').2)
    (fun k₁ k₂ r _ _ heq => heq) ?_ ?_
  · intro r hr
    have hr : l.Owns k r := held_eq_some_iff.mp hr
    refine ⟨⟨k, hr⟩, fun k' hk' => ?_⟩
    obtain ⟨hne, hk'⟩ := owns_destroy.mp hk'
    exact hne (h.unique_owner _ _ r hk' hr)
  · intro k' r hk'
    by_cases heq : k' = k
    · exact Or.inr (held_eq_some_iff.mpr (heq ▸ hk'))
    · exact Or.inl ⟨k', owns_destroy.mpr ⟨heq, hk'⟩⟩

/-- One operation keeps the balance. -/
theorem Step.balanced (hstep : Step l l') (h : l.Balanced) : l'.Balanced := by
  cases hstep with
  | create hfree hfresh => exact h.create hfree hfresh
  | moveConstruct htarget hsource =>
      rw [moveConstruct_eq_moveAssign htarget hsource]
      exact h.moveAssign _ _
  | moveAssign _ _ => exact h.moveAssign _ _
  | destroy _ => exact h.destroy _

/-- **The run rule.**  Every ledger that operations reach from the empty one is
balanced. -/
theorem Balanced.of_run (hrun : Relation.ReflTransGen Step empty l) : l.Balanced := by
  induction hrun with
  | refl => exact balanced_empty
  | tail _ hstep ih => exact hstep.balanced ih

end Ledger

end UniqueOwnership
