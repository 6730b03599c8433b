import Mathlib.Data.List.Nodup
import Mathlib.Logic.Equiv.Basic
import Tpmkit.ResourceSessions

/-!
# Sessions of owned resources

A library for sessions whose resources have owners.  An owner holds a base, with
the resource that was opened over it if there is one; a base that nobody holds
yet is spare.  `Holdings.Sound` says that the resources that are open are those
that owners hold.

Opening, using, ending and passing on what is held keeps this: `Sound.opens`,
`Sound.uses`, `Sound.disposes`, `Sound.passes`.
-/

namespace ResourceSessions

variable {κ τ ρ : Type}

/-- What owners hold, the spare bases, and the steps so far. -/
structure Holdings (κ τ ρ : Type) where
  held : κ → Option (τ × Option ρ)
  spare : List τ
  steps : List (Step τ ρ)

namespace Holdings

/-- An owner holds a base without a resource, or with one. -/
def Holds (h : Holdings κ τ ρ) (owner : κ) (base : τ) (r : Option ρ) : Prop :=
  h.held owner = some (base, r)

/-- A base that is neither spare nor held, and over which nothing was opened. -/
structure Unused (h : Holdings κ τ ρ) (base : τ) : Prop where
  unspared : base ∉ h.spare
  unheld : ∀ owner r, ¬h.Holds owner base r
  unopened : ∀ r, (base, r) ∉ openings h.steps

/-- **What is open is held.**  Each resource that is open is held, over its base,
by one owner. -/
structure Sound (h : Holdings κ τ ρ) : Prop where
  unique : ∀ owner owner' base r r', h.Holds owner base r → h.Holds owner' base r' →
    owner = owner'
  opened : ∀ owner base r, h.Holds owner base (some r) →
    (base, r) ∈ openings h.steps ∧ r ∉ closings h.steps
  owned : ∀ base r, (base, r) ∈ openings h.steps → r ∉ closings h.steps →
    ∃ owner, h.Holds owner base (some r)
  based : ∀ base base' r, (base, r) ∈ openings h.steps → (base', r) ∈ openings h.steps →
    base = base'
  closed : ∀ r ∈ closings h.steps, ∃ base, (base, r) ∈ openings h.steps
  spare_nodup : h.spare.Nodup
  spare_unheld : ∀ base ∈ h.spare, ∀ owner r, ¬h.Holds owner base r
  spare_unopened : ∀ base ∈ h.spare, ∀ r, (base, r) ∉ openings h.steps

/-- Nobody holds anything. -/
def empty : Holdings κ τ ρ := ⟨fun _ => none, [], []⟩

/-- Before the first step nobody holds anything. -/
theorem sound_empty : (empty : Holdings κ τ ρ).Sound := by
  constructor <;> simp [empty, Holds]

variable {h : Holdings κ τ ρ}

/-! ## Who holds what is open -/

/-- A resource is open exactly while somebody holds it. -/
theorem Sound.live_iff (hs : h.Sound) {r : ρ} :
    Live h.steps r ↔ ∃ owner base, h.Holds owner base (some r) := by
  constructor
  · intro hlive
    obtain ⟨⟨base, hopened⟩, hunclosed⟩ := hlive
    obtain ⟨owner, hholds⟩ := hs.owned base r hopened hunclosed
    exact ⟨owner, base, hholds⟩
  · intro hheld
    obtain ⟨owner, base, hholds⟩ := hheld
    obtain ⟨hopened, hunclosed⟩ := hs.opened owner base r hholds
    exact ⟨⟨base, hopened⟩, hunclosed⟩

/-- No two owners hold one resource. -/
theorem Sound.owner_unique (hs : h.Sound) {owner owner' : κ} {base base' : τ} {r : ρ}
    (howner : h.Holds owner base (some r)) (howner' : h.Holds owner' base' (some r)) :
    owner = owner' := by
  have hopened := (hs.opened owner base r howner).1
  have hopened' := (hs.opened owner' base' r howner').1
  obtain rfl := hs.based base base' r hopened hopened'
  exact hs.unique owner owner' base _ _ howner howner'

/-- What is open over a base that somebody holds is held with it. -/
theorem Sound.only_open (hs : h.Sound) {owner : κ} {base : τ} {r : Option ρ} {r' : ρ}
    (hholds : h.Holds owner base r) (hopened : (base, r') ∈ openings h.steps)
    (hunclosed : r' ∉ closings h.steps) : r = some r' := by
  obtain ⟨owner', hholds'⟩ := hs.owned base r' hopened hunclosed
  obtain rfl := hs.unique owner owner' base _ _ hholds hholds'
  have hsame : (base, r) = (base, some r') :=
    Option.some.inj ((Eq.symm hholds).trans hholds')
  exact congrArg Prod.snd hsame

/-! ## Uses -/

/-- Uses change no opening and no closing. -/
theorem Sound.uses (hs : h.Sound) (n : Nat) (r : ρ) :
    Sound { h with steps := h.steps ++ List.replicate n (.used r) } where
  unique := hs.unique
  opened owner base r' hholds := by simpa using hs.opened owner base r' hholds
  owned base r' hopened hunclosed :=
    hs.owned base r' (by simpa using hopened) (by simpa using hunclosed)
  based base base' r' hopened hopened' :=
    hs.based base base' r' (by simpa using hopened) (by simpa using hopened')
  closed r' hclosed := by simpa using hs.closed r' (by simpa using hclosed)
  spare_nodup := hs.spare_nodup
  spare_unheld := hs.spare_unheld
  spare_unopened base hmem r' := by simpa using hs.spare_unopened base hmem r'

/-! ## Spare bases -/

/-- A new base becomes a spare one. -/
theorem Sound.spares (hs : h.Sound) {base : τ} (hbase : h.Unused base) :
    Sound { h with spare := base :: h.spare } where
  unique := hs.unique
  opened := hs.opened
  owned := hs.owned
  based := hs.based
  closed := hs.closed
  spare_nodup := List.nodup_cons.mpr ⟨hbase.unspared, hs.spare_nodup⟩
  spare_unheld base' hmem := by
    rcases List.mem_cons.mp hmem with rfl | hmem
    · exact hbase.unheld
    · exact hs.spare_unheld base' hmem
  spare_unopened base' hmem := by
    rcases List.mem_cons.mp hmem with rfl | hmem
    · exact hbase.unopened
    · exact hs.spare_unopened base' hmem

/-- A spare base that is given away is unused. -/
theorem Sound.gives [DecidableEq τ] (hs : h.Sound) {base : τ} (hbase : base ∈ h.spare) :
    Sound { h with spare := h.spare.erase base } ∧
      Unused { h with spare := h.spare.erase base } base := by
  constructor
  · exact
      { unique := hs.unique
        opened := hs.opened
        owned := hs.owned
        based := hs.based
        closed := hs.closed
        spare_nodup := hs.spare_nodup.erase base
        spare_unheld := fun base' hmem => hs.spare_unheld base' (List.mem_of_mem_erase hmem)
        spare_unopened := fun base' hmem => hs.spare_unopened base' (List.mem_of_mem_erase hmem) }
  · exact ⟨hs.spare_nodup.not_mem_erase, hs.spare_unheld base hbase, hs.spare_unopened base hbase⟩

section Owners

variable [DecidableEq κ]

/-! ## Opening -/

/-- An owner gets a base, and the resource that is opened over it. -/
def take (h : Holdings κ τ ρ) (owner : κ) (base : τ) (r : Option ρ) (uses : Nat) :
    Holdings κ τ ρ :=
  ⟨Function.update h.held owner (some (base, r)), h.spare,
    h.steps ++ startSession base r uses⟩

/-- After a taking the owner holds what was taken, and the others what they held. -/
theorem holds_take {owner owner' : κ} {base base' : τ} {r r' : Option ρ} {uses : Nat} :
    (h.take owner base r uses).Holds owner' base' r' ↔
      (owner' = owner ∧ base' = base ∧ r' = r) ∨ (owner' ≠ owner ∧ h.Holds owner' base' r') := by
  unfold Holds take
  by_cases howner : owner' = owner
  · subst howner
    simp [eq_comm]
  · simp [howner]

/-- A taking opens the session, if there is one. -/
theorem mem_openings_take {owner : κ} {base base' : τ} {r : Option ρ} {r' : ρ} {uses : Nat} :
    (base', r') ∈ openings (h.take owner base r uses).steps ↔
      (base', r') ∈ openings h.steps ∨ (base' = base ∧ r = some r') := by
  cases r <;> simp [take, eq_comm]

/-- It closes none. -/
theorem closings_take (owner : κ) (base : τ) (r : Option ρ) (uses : Nat) :
    closings (h.take owner base r uses).steps = closings h.steps := by
  simp [take]

/-- Over an unused base a new resource is opened, for an owner that held nothing. -/
theorem Sound.opens (hs : h.Sound) {owner : κ} {base : τ} {r : Option ρ} {uses : Nat}
    (howner : h.held owner = none) (hbase : h.Unused base)
    (hnew : ∀ r', r = some r' → ∀ base', (base', r') ∉ openings h.steps) :
    (h.take owner base r uses).Sound := by
  have hunclosed : ∀ r', r = some r' → r' ∉ closings h.steps := by
    intro r' hr hclosed
    obtain ⟨base', hopened⟩ := hs.closed r' hclosed
    exact hnew r' hr base' hopened
  constructor
  · intro owner₁ owner₂ base' r₁ r₂ hfirst hsecond
    rcases holds_take.mp hfirst with ⟨rfl, rfl, _⟩ | ⟨_, hother⟩
    · rcases holds_take.mp hsecond with ⟨rfl, _, _⟩ | ⟨_, hother⟩
      · rfl
      · exact absurd hother (hbase.unheld _ _)
    · rcases holds_take.mp hsecond with ⟨_, rfl, _⟩ | ⟨_, hother'⟩
      · exact absurd hother (hbase.unheld _ _)
      · exact hs.unique _ _ _ _ _ hother hother'
  · intro owner' base' r' hholds
    rw [mem_openings_take, closings_take]
    rcases holds_take.mp hholds with ⟨rfl, rfl, hr⟩ | ⟨_, hholds⟩
    · exact ⟨Or.inr ⟨rfl, hr.symm⟩, hunclosed r' hr.symm⟩
    · exact ⟨Or.inl (hs.opened _ _ _ hholds).1, (hs.opened _ _ _ hholds).2⟩
  · intro base' r' hopened hopen
    rw [closings_take] at hopen
    rcases mem_openings_take.mp hopened with hopened | ⟨rfl, hr⟩
    · obtain ⟨owner', hholds⟩ := hs.owned base' r' hopened hopen
      have hne : owner' ≠ owner := by
        rintro rfl
        rw [Holds, howner] at hholds
        cases hholds
      exact ⟨owner', holds_take.mpr (Or.inr ⟨hne, hholds⟩)⟩
    · exact ⟨owner, holds_take.mpr (Or.inl ⟨rfl, rfl, hr.symm⟩)⟩
  · intro base₁ base₂ r' hfirst hsecond
    rcases mem_openings_take.mp hfirst with hbefore | ⟨rfl, hr⟩
    · rcases mem_openings_take.mp hsecond with hbefore' | ⟨_, hr⟩
      · exact hs.based _ _ _ hbefore hbefore'
      · exact absurd hbefore (hnew r' hr base₁)
    · rcases mem_openings_take.mp hsecond with hbefore | ⟨rfl, _⟩
      · exact absurd hbefore (hnew r' hr base₂)
      · rfl
  · intro r' hclosed
    rw [closings_take] at hclosed
    obtain ⟨base', hopened⟩ := hs.closed r' hclosed
    exact ⟨base', mem_openings_take.mpr (Or.inl hopened)⟩
  · exact hs.spare_nodup
  · intro base' hmem owner' r' hholds
    rcases holds_take.mp hholds with ⟨_, rfl, _⟩ | ⟨_, hholds⟩
    · exact hbase.unspared hmem
    · exact hs.spare_unheld base' hmem owner' r' hholds
  · intro base' hmem r' hopened
    rcases mem_openings_take.mp hopened with hopened | ⟨rfl, _⟩
    · exact hs.spare_unopened base' hmem r' hopened
    · exact hbase.unspared hmem

omit [DecidableEq κ] in
/-- These steps are in order. -/
theorem Sound.disciplined_opens (hs : h.Sound) {base : τ} {r : Option ρ} (uses : Nat)
    (hnew : ∀ r', r = some r' → ∀ base', (base', r') ∉ openings h.steps) :
    Disciplined h.steps (startSession base r uses) := by
  refine disciplined_startSession uses fun r' hr => ⟨hnew r' hr, fun hclosed => ?_⟩
  obtain ⟨base', hopened⟩ := hs.closed r' hclosed
  exact hnew r' hr base' hopened

/-! ## Ending -/

/-- The end of the session of what an owner holds. -/
def ending (h : Holdings κ τ ρ) (owner : κ) : List (Step τ ρ) :=
  (h.held owner).toList.flatMap fun x => endSession x.1 x.2

/-- An owner ends the session of what it holds. -/
def dispose (h : Holdings κ τ ρ) (owner : κ) : Holdings κ τ ρ :=
  ⟨Function.update h.held owner none, h.spare, h.steps ++ h.ending owner⟩

omit [DecidableEq κ] in
/-- An ending opens nothing. -/
@[simp] theorem openings_ending (owner : κ) : openings (h.ending owner) = [] := by
  unfold ending
  cases h.held owner <;> simp

omit [DecidableEq κ] in
/-- It closes the session of the owner, if there is one. -/
theorem mem_closings_ending {owner : κ} {r : ρ} :
    r ∈ closings (h.ending owner) ↔ ∃ base, h.Holds owner base (some r) := by
  unfold ending Holds
  rcases h.held owner with _ | ⟨base, _ | r'⟩ <;> simp [eq_comm]

/-- After a disposal the owner holds nothing. -/
theorem holds_dispose {owner owner' : κ} {base : τ} {r : Option ρ} :
    (h.dispose owner).Holds owner' base r ↔ owner' ≠ owner ∧ h.Holds owner' base r := by
  unfold Holds dispose
  by_cases howner : owner' = owner
  · simp [howner]
  · simp [howner]

/-- A disposal opens nothing. -/
theorem openings_dispose (owner : κ) : openings (h.dispose owner).steps = openings h.steps := by
  simp [dispose]

/-- It closes the session of the owner. -/
theorem mem_closings_dispose {owner : κ} {r : ρ} :
    r ∈ closings (h.dispose owner).steps ↔
      r ∈ closings h.steps ∨ ∃ base, h.Holds owner base (some r) := by
  rw [dispose, closings_append, List.mem_append, mem_closings_ending]

/-- Ending a session leaves the others as they were. -/
theorem Sound.disposes (hs : h.Sound) (owner : κ) : (h.dispose owner).Sound := by
  constructor
  · intro owner₁ owner₂ base r₁ r₂ hfirst hsecond
    exact hs.unique _ _ _ _ _ (holds_dispose.mp hfirst).2 (holds_dispose.mp hsecond).2
  · intro owner' base r hholds
    obtain ⟨hne, hholds⟩ := holds_dispose.mp hholds
    obtain ⟨hopened, hunclosed⟩ := hs.opened owner' base r hholds
    refine ⟨by rwa [openings_dispose], fun hclosed => ?_⟩
    rcases mem_closings_dispose.mp hclosed with hclosed | ⟨base', hother⟩
    · exact hunclosed hclosed
    · exact hne (hs.owner_unique hholds hother)
  · intro base r hopened hunclosed
    rw [openings_dispose] at hopened
    rw [mem_closings_dispose, not_or] at hunclosed
    obtain ⟨owner', hholds⟩ := hs.owned base r hopened hunclosed.1
    refine ⟨owner', holds_dispose.mpr ⟨?_, hholds⟩⟩
    rintro rfl
    exact hunclosed.2 ⟨base, hholds⟩
  · intro base base' r hopened hopened'
    rw [openings_dispose] at hopened hopened'
    exact hs.based base base' r hopened hopened'
  · intro r hclosed
    rw [openings_dispose]
    rcases mem_closings_dispose.mp hclosed with hclosed | ⟨base, hholds⟩
    · exact hs.closed r hclosed
    · exact ⟨base, (hs.opened owner base r hholds).1⟩
  · exact hs.spare_nodup
  · intro base hmem owner' r hholds
    exact hs.spare_unheld base hmem owner' r (holds_dispose.mp hholds).2
  · intro base hmem r
    rw [openings_dispose]
    exact hs.spare_unopened base hmem r

omit [DecidableEq κ] in
/-- These steps are in order. -/
theorem Sound.disciplined_disposes (hs : h.Sound) (owner : κ) :
    Disciplined h.steps (h.ending owner) := by
  unfold ending
  cases hheld : h.held owner with
  | none => trivial
  | some x =>
      obtain ⟨base, r⟩ := x
      have hholds : h.Holds owner base r := hheld
      rw [Option.toList_some, List.flatMap_singleton]
      refine disciplined_endSession (fun r' hr => ?_) fun r' => hs.only_open hholds
      subst hr
      exact hs.live_iff.mpr ⟨owner, base, hholds⟩

/-- Ending what was just begun leaves everybody with what they held. -/
theorem dispose_take {owner : κ} {base : τ} {r : Option ρ} {uses : Nat}
    (howner : h.held owner = none) :
    (h.take owner base r uses).dispose owner =
      { h with steps := h.steps ++ (startSession base r uses ++ endSession base r) } := by
  have hheld : Function.update (Function.update h.held owner (some (base, r))) owner none =
      h.held := by
    rw [Function.update_idem, ← howner, Function.update_eq_self]
  simp [dispose, ending, take, hheld]

omit [DecidableEq κ] in
/-- Owners that exchange what they hold. -/
theorem Sound.permutes (hs : h.Sound) (π : Equiv.Perm κ) :
    Sound { h with held := h.held ∘ π } where
  unique _ _ _ _ _ hfirst hsecond := π.injective (hs.unique _ _ _ _ _ hfirst hsecond)
  opened _ _ _ hholds := hs.opened _ _ _ hholds
  owned base r hopened hunclosed := by
    obtain ⟨owner, hholds⟩ := hs.owned base r hopened hunclosed
    refine ⟨π.symm owner, ?_⟩
    simpa [Holds] using hholds
  based := hs.based
  closed := hs.closed
  spare_nodup := hs.spare_nodup
  spare_unheld base hmem owner := hs.spare_unheld base hmem (π owner)
  spare_unopened := hs.spare_unopened

/-- An owner takes over what another one holds. -/
def pass (h : Holdings κ τ ρ) (target source : κ) : Holdings κ τ ρ :=
  { h with held := Function.update (Function.update h.held source none) target (h.held source) }

@[simp] theorem pass_steps (target source : κ) : (h.pass target source).steps = h.steps := rfl

/-- Passing the holding on to a free owner keeps everything in order. -/
theorem Sound.passes (hs : h.Sound) (source : κ) {target : κ} (htarget : h.held target = none) :
    (h.pass target source).Sound := by
  have hswap : Function.update (Function.update h.held source none) target (h.held source) =
      h.held ∘ Equiv.swap target source := by
    funext owner
    by_cases howner : owner = target
    · simp [howner]
    by_cases hsource : owner = source
    · subst hsource
      simp [howner, htarget]
    · simp [howner, hsource, Equiv.swap_apply_of_ne_of_ne howner hsource]
  rw [pass, hswap]
  exact hs.permutes (Equiv.swap target source)

end Owners

end Holdings

end ResourceSessions
