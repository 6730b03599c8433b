import Tpmkit.CheckedProgram

/-!
# Series of calls

A library for the runs of an object: calls one after another, each starting in
the world that the call before it reached, however that call ended.

Three rules lift facts about one call to a whole series.  `series_invariant`
carries an invariant of the world, `series_view` adds up what a view of the
world gains, and `series_related` compares two series whose calls and
observations are related one by one.

A loop whose calls depend on what the calls before them returned is a `foldlM`.
`foldlM_invariant` is its rule when it returns a value, and `foldlM_of_total` when
its body always does.
-/

namespace Checked.Program

variable {ω ω' ε χ α α' κ κ' β γ γ' : Type}

/-- A function of the value changes nothing else of a run. -/
@[simp] theorem map_apply (g : α → β) (x : Program ω ε χ α) (w : ω) :
    (g <$> x) w = (g <$> (x w).1, (x w).2) := by
  change resume (fun a => pure (g a)) (x w) = _
  rcases x w with ⟨result, w'⟩
  cases result <;> rfl

/-- The value of a run that succeeds is mapped. -/
theorem map_of_value (g : α → β) {x : Program ω ε χ α} {a : α} {w w' : ω}
    (h : x w = (.value a, w')) : (g <$> x) w = (.value (g a), w') := by
  rw [map_apply, h, Result.map_value]

/-- Pure code in front of pure code is pure code. -/
theorem lift_bind_bind (x : Result ε χ α) (f : α → Result ε χ β) (g : β → Program ω ε χ γ) :
    (lift (x >>= f) >>= g) = (lift x >>= fun a => lift (f a) >>= g) := by
  cases x <;> rfl

/-- A step that only returns a value can be left out. -/
theorem lift_pure_bind (a : α) (g : α → Program ω ε χ β) : (lift (pure a) >>= g) = g a := rfl

/-- A function of the value goes past a first step. -/
theorem map_lift_bind (g : β → γ) (x : Result ε χ α) (f : α → Program ω ε χ β) :
    (g <$> (lift x >>= f)) = (lift x >>= fun a => g <$> f a) := by
  cases x <;> rfl

/-- Two programs behind the same pure code may assume its value. -/
theorem lift_bind_congr {x : Result ε χ α} {f g : α → Program ω ε χ β}
    (h : ∀ a, x = .value a → f a = g a) : (lift x >>= f) = (lift x >>= g) := by
  cases x with
  | value a => exact h a rfl
  | unexpected e => rfl
  | fault f => rfl

/-- Make the calls one after another. -/
def series (call : κ → Program ω ε χ α) : List κ → ω → List (Result ε χ α) × ω
  | [], w => ([], w)
  | op :: ops, w =>
      ((call op w).1 :: (series call ops (call op w).2).1, (series call ops (call op w).2).2)

/-- What is observed of each call in the world it starts from. -/
def along (call : κ → Program ω ε χ α) (observe : κ → ω → γ) : List κ → ω → List γ
  | [], _ => []
  | op :: ops, w => observe op w :: along call observe ops (call op w).2

variable {call : κ → Program ω ε χ α} {call' : κ' → Program ω' ε χ α'}

@[simp] theorem series_nil (w : ω) : series call [] w = ([], w) := rfl

@[simp] theorem series_cons (op : κ) (ops : List κ) (w : ω) :
    series call (op :: ops) w =
      ((call op w).1 :: (series call ops (call op w).2).1,
        (series call ops (call op w).2).2) := rfl

/-- **The invariant rule.** -/
theorem series_invariant {Inv : ω → Prop} {Post : Result ε χ α → Prop} {ops : List κ}
    (hcall : ∀ op ∈ ops, ∀ w, Inv w → Inv (call op w).2 ∧ Post (call op w).1) {w : ω}
    (hw : Inv w) : Inv (series call ops w).2 ∧ ∀ result ∈ (series call ops w).1, Post result := by
  induction ops generalizing w with
  | nil => exact ⟨hw, fun result hmem => nomatch hmem⟩
  | cons op ops ih =>
      obtain ⟨hnext, hpost⟩ := hcall op List.mem_cons_self w hw
      obtain ⟨hlast, hrest⟩ := ih (fun o ho => hcall o (List.mem_cons_of_mem _ ho)) hnext
      refine ⟨hlast, fun result hmem => ?_⟩
      rcases List.mem_cons.mp hmem with rfl | hmem
      · exact hpost
      · exact hrest result hmem

/-- **The view rule.**  A view that gains a known part with each call gains the
parts of all calls, in order. -/
theorem series_view {view : ω → List β} {gain : κ → Result ε χ α → List β}
    (hcall : ∀ op w, view (call op w).2 = view w ++ gain op (call op w).1) (ops : List κ) (w : ω) :
    view (series call ops w).2 =
      view w ++ ((ops.zip (series call ops w).1).flatMap fun entry => gain entry.1 entry.2) := by
  induction ops generalizing w with
  | nil => simp
  | cons op ops ih =>
      calc view (series call (op :: ops) w).2
          = view (call op w).2 ++ ((ops.zip (series call ops (call op w).2).1).flatMap
              fun entry => gain entry.1 entry.2) := ih (call op w).2
        _ = _ := by rw [hcall, List.append_assoc]; rfl

/-- **The two-run rule.**  Related calls with related observations keep two
worlds related. -/
theorem series_related {Rel : ω → ω' → Prop} {Op : κ → κ' → Prop} {Obs : γ → γ' → Prop}
    {Post : Result ε χ α → Result ε χ α' → Prop} {observe : κ → ω → γ} {observe' : κ' → ω' → γ'}
    (hcall : ∀ op op' w w', Op op op' → Rel w w' → Obs (observe op w) (observe' op' w') →
      Rel (call op w).2 (call' op' w').2 ∧ Post (call op w).1 (call' op' w').1)
    {ops : List κ} {ops' : List κ'} (hops : List.Forall₂ Op ops ops') {w : ω} {w' : ω'}
    (hw : Rel w w')
    (hobs : List.Forall₂ Obs (along call observe ops w) (along call' observe' ops' w')) :
    Rel (series call ops w).2 (series call' ops' w').2 ∧
      List.Forall₂ Post (series call ops w).1 (series call' ops' w').1 := by
  induction hops generalizing w w' with
  | nil => exact ⟨hw, .nil⟩
  | cons hop _ ih =>
      obtain ⟨hfirst, hrest⟩ := List.forall₂_cons.mp hobs
      obtain ⟨hnext, hpost⟩ := hcall _ _ w w' hop hw hfirst
      obtain ⟨hlast, hposts⟩ := ih hnext hrest
      exact ⟨hlast, .cons hpost hposts⟩

/-- **The simulation rule.**  Calls that keep two worlds related and return the
same results make the same series. -/
theorem series_simulates {Rel : ω → ω' → Prop} {twin : κ → Program ω' ε χ α}
    (hcall : ∀ op w w', Rel w w' →
      Rel (call op w).2 (twin op w').2 ∧ (twin op w').1 = (call op w).1)
    (ops : List κ) {w : ω} {w' : ω'} (hw : Rel w w') :
    Rel (series call ops w).2 (series twin ops w').2 ∧
      (series twin ops w').1 = (series call ops w).1 := by
  induction ops generalizing w w' with
  | nil => exact ⟨hw, rfl⟩
  | cons op ops ih =>
      obtain ⟨hnext, hresult⟩ := hcall op w w' hw
      obtain ⟨hlast, hresults⟩ := ih hnext
      exact ⟨hlast, congrArg₂ List.cons hresult hresults⟩

/-! ## Loops -/

/-- A sequence succeeds when its parts do, one after the other. -/
theorem bind_eq_value {x : Program ω ε χ α} {next : α → Program ω ε χ β} {b : β} {w w' : ω} :
    (x >>= next) w = (.value b, w') ↔
      ∃ a w₁, x w = (.value a, w₁) ∧ next a w₁ = (.value b, w') := by
  rw [bind_apply]
  rcases x w with ⟨result, w₁⟩
  cases result <;> simp

/-- A run whose result is known ends in the world that it ends in. -/
theorem eq_of_fst_eq {x : Program ω ε χ α} {w : ω} {result : Result ε χ α}
    (h : (x w).1 = result) : x w = (result, (x w).2) :=
  Prod.ext h rfl

section Loops

variable {body : β → α → Program ω ε χ β} (Inv : List α → β → ω → Prop)

/-- What each pass keeps holds at the end of a loop that returns a value. -/
theorem foldlM_invariant
    (hbody : ∀ past x b w b' w', Inv past b w → body b x w = (.value b', w') →
      Inv (past ++ [x]) b' w')
    {xs past : List α} {b b' : β} {w w' : ω} (h : Inv past b w)
    (hrun : xs.foldlM body b w = (.value b', w')) : Inv (past ++ xs) b' w' := by
  induction xs generalizing past b w with
  | nil =>
      obtain ⟨hvalue, rfl⟩ := Prod.mk.inj hrun
      obtain rfl := Result.value.inj hvalue
      rwa [List.append_nil]
  | cons x xs ih =>
      rw [List.foldlM_cons, bind_eq_value] at hrun
      obtain ⟨b₁, w₁, hfirst, hrest⟩ := hrun
      have hlast := ih (hbody past x b w b₁ w₁ h hfirst) hrest
      rwa [List.append_assoc] at hlast

/-- A loop whose passes always return a value returns one. -/
theorem foldlM_of_total {xs : List α}
    (hbody : ∀ x ∈ xs, ∀ past b w, Inv past b w →
      ∃ b' w', body b x w = (.value b', w') ∧ Inv (past ++ [x]) b' w')
    {past : List α} {b : β} {w : ω} (h : Inv past b w) :
    ∃ b' w', xs.foldlM body b w = (.value b', w') ∧ Inv (past ++ xs) b' w' := by
  induction xs generalizing past b w with
  | nil => exact ⟨b, w, rfl, by rwa [List.append_nil]⟩
  | cons x xs ih =>
      obtain ⟨b₁, w₁, hfirst, hinv⟩ := hbody x List.mem_cons_self past b w h
      obtain ⟨b', w', hrest, hlast⟩ := ih (fun y hy => hbody y (List.mem_cons_of_mem x hy)) hinv
      refine ⟨b', w', ?_, by rwa [List.append_assoc] at hlast⟩
      rw [List.foldlM_cons, bind_eq_value]
      exact ⟨b₁, w₁, hfirst, hrest⟩

end Loops

/-- A loop seen through a function of its state. -/
theorem map_foldlM {view : β → β'} {body : β → α → Program ω ε χ β}
    {body' : β' → α → Program ω ε χ β'}
    (hbody : ∀ b x w, (view <$> body b x) w = body' (view b) x w) (xs : List α) (b : β) (w : ω) :
    (view <$> xs.foldlM body b) w = xs.foldlM body' (view b) w := by
  induction xs generalizing b w with
  | nil => rfl
  | cons x xs ih =>
      have hfirst := hbody b x w
      rw [map_apply] at hfirst
      rw [List.foldlM_cons, List.foldlM_cons, map_apply, bind_apply, bind_apply, ← hfirst]
      rcases body b x w with ⟨result, w'⟩
      cases result with
      | value b' => exact (map_apply ..).symm.trans (ih b' w')
      | unexpected e => rfl
      | fault f => rfl

/-- A call faults when what is made of its value does. -/
theorem noFault_of_map {g : α → β} {x : Program ω ε χ α} {w : ω} (h : ((g <$> x) w).1.NoFault) :
    (x w).1.NoFault := by
  intro f hfault
  rw [map_apply, hfault] at h
  exact h f rfl

/-- Calls one after another do not fault when none of them does. -/
theorem noFault_bind {x : Program ω ε χ α} {next : α → Program ω ε χ β} {w : ω}
    (hx : (x w).1.NoFault) (hnext : ∀ a w₁, x w = (.value a, w₁) → (next a w₁).1.NoFault) :
    ((x >>= next) w).1.NoFault := by
  rw [bind_apply]
  rcases hrun : x w with ⟨result, w₁⟩
  cases result with
  | value a => exact hnext a w₁ hrun
  | unexpected e => exact Result.noFault_unexpected e
  | fault f => exact absurd (congrArg Prod.fst hrun) (hx f)

/-- A loop whose body never faults does not fault. -/
theorem foldlM_noFault {body : β → α → Program ω ε χ β} {xs : List α}
    (hbody : ∀ x ∈ xs, ∀ b w, (body b x w).1.NoFault) (b : β) (w : ω) :
    (xs.foldlM body b w).1.NoFault := by
  induction xs generalizing b w with
  | nil => exact Result.noFault_value b
  | cons x xs ih =>
      rw [List.foldlM_cons]
      exact noFault_bind (hbody x List.mem_cons_self b w) fun b' w' _ =>
        ih (fun y hy => hbody y (List.mem_cons_of_mem x hy)) b' w'

end Checked.Program
