import Tpmkit.ContextSessions

/-!
# Clients of the library

Runs of a client that creates contexts, successfully or not, moves and destroys
them, asks them for PCR providers, and calls the providers it was given, in any
order.  A provider borrows the ESYS context of the implementation it came from:
it is not told when the context is finalized.

`sessions_disciplined_iff` gives the exact condition under which no call reaches
a context outside of its session, and `provider_valid_until` the steps that end
the validity of a provider.  Both rest on `Client.Sound`: the contexts that are
open are those that objects hold.
-/

namespace Tpmkit

open Checked ByteStrings Pcr ResourceSessions

variable {σ : Type} {build : BuildOptions}

/-! ## Runs -/

/-- Store the context that a creation returns; a creation that fails stores none. -/
def LifecycleState.tryConstruct (s : LifecycleState σ) (slot : Nat)
    (creation : Adapter σ (TpmContext σ)) : Option (LifecycleState σ) :=
  match s.objects slot, creation s.world with
  | none, (.value context, w) =>
    some { s with
      world := w
      objects := Function.update s.objects slot (some context)
      created := s.created ++ context.impl.toList }
  | none, (.unexpected _, w) => some { s with world := w }
  | _, _ => none

/-- The `tpm_context` objects of a client, and the providers it was given. -/
structure Client (σ : Type) where
  contexts : LifecycleState σ
  providers : List (EsysPcrProvider σ)

/-- What a client does. -/
inductive ClientOp (build : BuildOptions) where
  | manage (op : LifecycleOp)
  | call (provider : Nat) (op : ProviderOp build)

namespace Client

/-- A client that has nothing yet. -/
def initial (backend : σ) (nextHandle : Nat) : Client σ :=
  ⟨.initial backend nextHandle, []⟩

/-- The world. -/
def world (c : Client σ) : World σ := c.contexts.world

/-- The session steps seen so far. -/
def steps (c : Client σ) : List SessionStep := sessionSteps c.world.trace

/-- One step, where the language allows it. -/
def step (tctiApi : TctiLoaderApi σ) (api : EsysApi σ) (linked : LinkedApi σ) (c : Client σ) :
    ClientOp build → Option (Client σ)
  | .manage (.createFromConfig slot config) =>
    (c.contexts.tryConstruct slot (createContextFromConfig config tctiApi api linked)).map
      fun s => { c with contexts := s }
  | .manage (.createFromOwned slot tcti deleter startup log) =>
    if tcti ∈ c.contexts.clientTctis then
      (LifecycleState.tryConstruct
        { c.contexts with clientTctis := c.contexts.clientTctis.erase tcti } slot
        (createContextFromOwnedTcti ⟨some tcti, some deleter⟩ startup log api linked)).map
          fun s => { c with contexts := s }
    else
      none
  | .manage (.createPcrProvider slot observer) =>
    (c.contexts.objects slot).map fun context =>
      match context.createPcrProvider observer c.world with
      | (.value provider, w) =>
        ⟨{ c.contexts with world := w }, c.providers ++ [provider]⟩
      | (_, w) => { c with contexts := { c.contexts with world := w } }
  | .manage op => (c.contexts.step tctiApi api linked op).map fun s => { c with contexts := s }
  | .call k op =>
    c.providers[k]?.map fun provider =>
      { c with contexts := { c.contexts with world := (provider.perform op c.world).2 } }

/-- Several steps. -/
def run (tctiApi : TctiLoaderApi σ) (api : EsysApi σ) (linked : LinkedApi σ) (c : Client σ)
    (ops : List (ClientOp build)) : Option (Client σ) :=
  ops.foldlM (step tctiApi api linked) c

/-- A call that sends something is made on a context that an object still owns. -/
def BorrowsOwned (c : Client σ) : ClientOp build → Prop
  | .manage _ => True
  | .call k op => ∀ provider, c.providers[k]? = some provider → op.Admitted provider.esys →
      ∃ slot e, provider.esys = some e ∧ c.contexts.OwnsEsys slot e

/-- The step destroys the context, or assigns another one over its owner. -/
def EndsSession (c : Client σ) (e : EsysContext) : ClientOp build → Prop
  | .manage (.destroy slot) => c.contexts.OwnsEsys slot e
  | .manage (.moveAssign target source) => target ≠ source ∧ c.contexts.OwnsEsys target e
  | _ => False

/-- Each call of a run is made on a context that an object still owns. -/
def BorrowsThroughout (tctiApi : TctiLoaderApi σ) (api : EsysApi σ) (linked : LinkedApi σ) :
    Client σ → List (ClientOp build) → Prop
  | _, [] => True
  | c, op :: ops => c.BorrowsOwned op ∧
      ∀ c', c.step tctiApi api linked op = some c' → BorrowsThroughout tctiApi api linked c' ops

end Client

/-- The digest values that an operation is called with were built by their
constructor. -/
def ClientOp.Stored : ClientOp build → Prop
  | .manage _ => True
  | .call _ op => op.Stored

/-! ## Handles -/

/-- No handle is still to come. -/
structure HandlesBelow (n : Nat) (h : Holdings Nat TctiContext EsysContext) : Prop where
  spare : ∀ tcti ∈ h.spare, tcti.id < n
  held : ∀ slot tcti esys, h.Holds slot tcti esys → tcti.id < n
  opened : ∀ tcti e, (tcti, e) ∈ ResourceSessions.openings h.steps → tcti.id < n ∧ e.id < n

namespace HandlesBelow

variable {n n' : Nat} {h : Holdings Nat TctiContext EsysContext}

/-- Where nothing is held every number is free. -/
theorem empty (n : Nat) : HandlesBelow n .empty := by
  constructor <;> simp [Holdings.empty, Holdings.Holds]

/-- Numbers that were free stay above those in use. -/
theorem mono (hb : HandlesBelow n h) (hle : n ≤ n') : HandlesBelow n' h where
  spare tcti hmem := (hb.spare tcti hmem).trans_le hle
  held slot tcti esys hholds := (hb.held slot tcti esys hholds).trans_le hle
  opened tcti e hopened :=
    ⟨(hb.opened tcti e hopened).1.trans_le hle, (hb.opened tcti e hopened).2.trans_le hle⟩

/-- A handle that is still to come is not used yet. -/
theorem unused (hb : HandlesBelow n h) : h.Unused ⟨n⟩ where
  unspared hmem := Nat.lt_irrefl _ (hb.spare _ hmem)
  unheld slot esys hholds := Nat.lt_irrefl _ (hb.held slot _ esys hholds)
  unopened e hopened := Nat.lt_irrefl _ (hb.opened _ e hopened).1

/-- A taking of lower numbers keeps the others free. -/
theorem take (hb : HandlesBelow n h) {slot : Nat} {tcti : TctiContext} {esys : Option EsysContext}
    {uses : Nat} (htcti : tcti.id < n) (hesys : ∀ e, esys = some e → e.id < n) :
    HandlesBelow n (h.take slot tcti esys uses) where
  spare := hb.spare
  held slot' tcti' esys' hholds := by
    rcases Holdings.holds_take.mp hholds with ⟨_, rfl, _⟩ | ⟨_, hholds⟩
    · exact htcti
    · exact hb.held slot' tcti' esys' hholds
  opened tcti' e hopened := by
    rcases Holdings.mem_openings_take.mp hopened with hopened | ⟨rfl, he⟩
    · exact hb.opened tcti' e hopened
    · exact ⟨htcti, hesys e he⟩

/-- A disposal frees numbers and takes none. -/
theorem dispose (hb : HandlesBelow n h) (slot : Nat) : HandlesBelow n (h.dispose slot) where
  spare := hb.spare
  held slot' tcti esys hholds := hb.held slot' tcti esys (Holdings.holds_dispose.mp hholds).2
  opened tcti e hopened := hb.opened tcti e (by rwa [Holdings.openings_dispose] at hopened)

/-- Passing a holding on takes no number. -/
theorem pass (hb : HandlesBelow n h) (target source : Nat) :
    HandlesBelow n (h.pass target source) where
  spare := hb.spare
  held slot tcti esys hholds := by
    simp only [Holdings.Holds, Holdings.pass, Function.update_apply] at hholds
    split at hholds
    · exact hb.held source tcti esys hholds
    · split at hholds
      · cases hholds
      · exact hb.held slot tcti esys hholds
  opened := hb.opened

end HandlesBelow

/-! ## The invariant -/

namespace Client

/-- What the objects of a client hold. -/
def holdings (c : Client σ) : Holdings Nat TctiContext EsysContext :=
  ⟨fun slot => (c.contexts.objects slot).bind TpmContext.holding, c.contexts.clientTctis, c.steps⟩

/-- **The invariant of a client's runs.**  What is open is what the objects hold,
and each provider was given a context that was opened. -/
structure Sound (api : EsysApi σ) (c : Client σ) : Prop where
  complete : ∀ slot impl, c.contexts.objects slot = some ⟨some impl⟩ → impl.Complete api
  owned : c.holdings.Sound
  below : HandlesBelow c.world.nextHandle c.holdings
  borrowed : ∀ provider ∈ c.providers, ∃ tcti e, provider.esys = some e ∧
    (tcti, e) ∈ ResourceSessions.openings c.steps

/-- Before the first operation there is nothing to account for. -/
theorem sound_initial (api : EsysApi σ) (b : σ) (n : Nat) : (initial b n).Sound api where
  complete _ _ hobject := nomatch hobject
  owned := Holdings.sound_empty
  below := HandlesBelow.empty n
  borrowed _ hmem := nomatch hmem

variable {api : EsysApi σ} {c c' : Client σ}

/-- What a slot holds are the contexts of its object. -/
theorem holds_iff {slot : Nat} {tcti : TctiContext} {esys : Option EsysContext} :
    c.holdings.Holds slot tcti esys ↔ ∃ impl, c.contexts.objects slot = some ⟨some impl⟩ ∧
      impl.tcti.handle = some tcti ∧ impl.esys = esys := by
  change (c.contexts.objects slot).bind TpmContext.holding = some (tcti, esys) ↔ _
  rcases c.contexts.objects slot with _ | ⟨_ | impl⟩
  · simp
  · simp [TpmContext.holding]
  · simp [TpmContext.holding]

/-- An object owns a context exactly when it holds it over some TCTI context. -/
theorem Sound.ownsEsys_iff (h : c.Sound api) {slot : Nat} {e : EsysContext} :
    c.contexts.OwnsEsys slot e ↔ ∃ tcti, c.holdings.Holds slot tcti (some e) := by
  constructor
  · intro howns
    obtain ⟨impl, hobject, hesys⟩ := howns
    obtain ⟨_, tcti, deleter, htcti⟩ := h.complete slot impl hobject
    exact ⟨tcti, holds_iff.mpr ⟨impl, hobject, by rw [htcti], hesys⟩⟩
  · intro hheld
    obtain ⟨tcti, hholds⟩ := hheld
    obtain ⟨impl, hobject, _, hesys⟩ := holds_iff.mp hholds
    exact ⟨impl, hobject, hesys⟩

/-- A context is open exactly while an object owns it. -/
theorem Sound.live_iff (h : c.Sound api) {e : EsysContext} :
    Live c.steps e ↔ ∃ slot, c.contexts.OwnsEsys slot e := by
  simp only [h.ownsEsys_iff]
  exact h.owned.live_iff

/-- No ESYS context has two owners. -/
theorem Sound.owner_unique (h : c.Sound api) {slot slot' : Nat} {e : EsysContext}
    (hslot : c.contexts.OwnsEsys slot e) (hslot' : c.contexts.OwnsEsys slot' e) : slot = slot' := by
  obtain ⟨tcti, hholds⟩ := h.ownsEsys_iff.mp hslot
  obtain ⟨tcti', hholds'⟩ := h.ownsEsys_iff.mp hslot'
  exact h.owned.owner_unique hholds hholds'

/-! ## Steps -/

/-- What a step does: it keeps the invariant, its session steps are in order or
not, and it ends the sessions of some contexts. -/
structure Advances (api : EsysApi σ) (c c' : Client σ) (inOrder : Prop)
    (ends : EsysContext → Prop) : Prop where
  sound : c'.Sound api
  added : ∃ added, c'.steps = c.steps ++ added ∧ (Disciplined c.steps added ↔ inOrder) ∧
    ∀ e, Live c.steps e → (e ∈ closings added ↔ ends e)

/-- A step that shows nothing of the contexts. -/
theorem Advances.quiet (h : c'.Sound api) (hsteps : c'.steps = c.steps) :
    Advances api c c' True fun _ => False :=
  ⟨h, [], by simp [hsteps], by simp, by simp⟩

/-- New TCTI contexts are the client's own. -/
theorem Sound.acquireTcti (h : c.Sound api) :
    Sound api { c with contexts := { c.contexts with
      world := c.world.acquired
      clientTctis := ⟨c.world.nextHandle⟩ :: c.contexts.clientTctis } } where
  complete := h.complete
  owned := h.owned.spares h.below.unused
  below :=
    { spare := fun tcti hmem => by
        rcases List.mem_cons.mp hmem with rfl | hmem
        · exact Nat.lt_succ_self _
        · exact (h.below.spare tcti hmem).trans (Nat.lt_succ_self _)
      held := (h.below.mono (Nat.le_succ _)).held
      opened := (h.below.mono (Nat.le_succ _)).opened }
  borrowed := h.borrowed

/-- A TCTI context that the client gives away is unused. -/
theorem Sound.give (h : c.Sound api) {tcti : TctiContext} (hmem : tcti ∈ c.contexts.clientTctis) :
    let given : Client σ := { c with contexts := { c.contexts with
      clientTctis := c.contexts.clientTctis.erase tcti } }
    given.Sound api ∧ given.holdings.Unused tcti := by
  obtain ⟨hgiven, hunused⟩ := h.owned.gives hmem
  refine ⟨⟨h.complete, hgiven, ⟨fun tcti' hmem' => ?_, h.below.held, h.below.opened⟩, h.borrowed⟩,
    hunused⟩
  exact h.below.spare tcti' (List.mem_of_mem_erase hmem')

/-- A provider is given the context of an object. -/
theorem Sound.provide (h : c.Sound api) {slot : Nat} {context : TpmContext σ}
    (hobject : c.contexts.objects slot = some context) {observer : Option Observer}
    {provider : EsysPcrProvider σ} {w : World σ}
    (hprovider : context.createPcrProvider observer c.world = (.value provider, w)) :
    Sound api { c with providers := c.providers ++ [provider] } := by
  refine ⟨h.complete, h.owned, h.below, fun provider' hmem => ?_⟩
  rcases List.mem_append.mp hmem with hmem | hmem
  · exact h.borrowed provider' hmem
  obtain rfl := List.mem_singleton.mp hmem
  obtain ⟨_ | impl⟩ := context
  · cases hprovider
  obtain ⟨_, tcti, deleter, htcti⟩ := h.complete slot impl hobject
  cases hesys : impl.esys with
  | none => simp [TpmContext.createPcrProvider, hesys] at hprovider
  | some e =>
      have hholds : c.holdings.Holds slot tcti (some e) :=
        holds_iff.mpr ⟨impl, hobject, by rw [htcti], hesys⟩
      simp only [TpmContext.createPcrProvider, hesys, reduceCtorEq, if_false, Program.pure_apply,
        Prod.mk.injEq, Result.value.injEq] at hprovider
      obtain ⟨rfl, _⟩ := hprovider
      exact ⟨tcti, e, rfl, (h.owned.opened slot tcti e hholds).1⟩

/-- What the objects hold after one of them was replaced. -/
theorem holding_update (objects : Nat → Option (TpmContext σ)) (slot : Nat)
    (object : Option (TpmContext σ)) :
    (fun slot' => (Function.update objects slot object slot').bind TpmContext.holding) =
      Function.update (fun slot' => (objects slot').bind TpmContext.holding) slot
        (object.bind TpmContext.holding) := by
  funext slot'
  by_cases hslot : slot' = slot
  · simp [hslot]
  · simp [hslot]

/-- Implementations stay complete when an object is replaced by a complete one. -/
theorem complete_update {objects : Nat → Option (TpmContext σ)}
    (h : ∀ slot impl, objects slot = some ⟨some impl⟩ → impl.Complete api) (slot : Nat)
    (object : Option (TpmContext σ))
    (hobject : ∀ impl, object = some ⟨some impl⟩ → impl.Complete api) :
    ∀ slot' impl, Function.update objects slot object slot' = some ⟨some impl⟩ →
      impl.Complete api := by
  intro slot' impl hslot
  rw [Function.update_apply] at hslot
  split at hslot
  · exact hobject impl hslot
  · exact h slot' impl hslot

/-- The two ways in which an attempt to construct an object goes on. -/
theorem tryConstruct_cases {s s' : LifecycleState σ} {slot : Nat}
    {creation : Adapter σ (TpmContext σ)} (h : s.tryConstruct slot creation = some s') :
    s.objects slot = none ∧
      ((∃ context w, creation s.world = (.value context, w) ∧
          s' = { s with
            world := w
            objects := Function.update s.objects slot (some context)
            created := s.created ++ context.impl.toList }) ∨
        ∃ e w, creation s.world = (.unexpected e, w) ∧ s' = { s with world := w }) := by
  unfold LifecycleState.tryConstruct at h
  split at h
  · next context w hfree hrun =>
      exact ⟨hfree, Or.inl ⟨context, w, hrun, (Option.some.inj h).symm⟩⟩
  · next e w hfree hrun => exact ⟨hfree, Or.inr ⟨e, w, hrun, (Option.some.inj h).symm⟩⟩
  · cases h

/-- The invariant is kept when the objects hold what they should. -/
theorem Sound.of_holdings (h : c.Sound api) (held : Holdings Nat TctiContext EsysContext)
    (hobjects : (fun slot => (c'.contexts.objects slot).bind TpmContext.holding) = held.held)
    (hspare : c'.contexts.clientTctis = held.spare) (hsteps : c'.steps = held.steps)
    (hcomplete : ∀ slot impl, c'.contexts.objects slot = some ⟨some impl⟩ → impl.Complete api)
    (howned : held.Sound) (hbelow : HandlesBelow c'.world.nextHandle held)
    (hproviders : c'.providers = c.providers)
    (hopened : ∀ x ∈ ResourceSessions.openings c.steps,
      x ∈ ResourceSessions.openings held.steps) : c'.Sound api := by
  have hheld : c'.holdings = held := by
    rw [holdings, hobjects, hspare, hsteps]
  refine ⟨hcomplete, hheld ▸ howned, hheld ▸ hbelow, fun provider hmem => ?_⟩
  obtain ⟨tcti, e, hesys, hbefore⟩ := h.borrowed provider (hproviders ▸ hmem)
  exact ⟨tcti, e, hesys, hsteps ▸ hopened _ hbefore⟩

/-- A creation over an unused TCTI context: when it succeeds the new object holds
what it opened, and when it fails it is as if an object had held that for a while. -/
theorem Sound.create (h : c.Sound api) (w : World σ) {tcti : TctiContext} {deleter : TctiDeleter}
    {log : Logger} {slot : Nat} {creation : Adapter σ (TpmContext σ)} {s : LifecycleState σ}
    (hunused : c.holdings.Unused tcti) (htrace : w.trace = c.world.trace)
    (hle : c.world.nextHandle ≤ w.nextHandle) (hlt : tcti.id < w.nextHandle)
    (hsession : SessionOf w tcti deleter log api (creation c.world))
    (hcreate : c.contexts.tryConstruct slot creation = some s) :
    Advances api c { c with contexts := s } True fun _ => False := by
  obtain ⟨obtained, esys, uses, w', b, events, hobtained, hesys, hends⟩ := hsession
  have hbounds : ∀ e, esys = some e → c.world.nextHandle ≤ e.id ∧ e.id < w'.nextHandle := by
    rintro e rfl
    obtain rfl : obtained = some e := by simpa [eq_comm] using hesys
    exact ⟨hle.trans hobtained.id_bounds.1, hobtained.id_bounds.2⟩
  have hnew : ∀ e, esys = some e → ∀ base, (base, e) ∉ ResourceSessions.openings c.steps :=
    fun e he base hopened =>
      absurd (h.below.opened base e hopened).2 (Nat.not_lt.mpr (hbounds e he).1)
  obtain ⟨hfree, hresult⟩ := tryConstruct_cases hcreate
  have hunheld : c.holdings.held slot = none := by simp [holdings, hfree]
  let taken := c.holdings.take slot tcti esys uses
  have htaken : taken.Sound := h.owned.opens hunheld hunused hnew
  have hbelow : HandlesBelow w'.nextHandle taken :=
    (h.below.mono (hle.trans hobtained.nextHandle_le)).take
      (hlt.trans_le hobtained.nextHandle_le) fun e he => (hbounds e he).2
  have hstart : Disciplined c.steps (startSession tcti esys uses) :=
    h.owned.disciplined_opens uses hnew
  have hafter : sessionSteps (w'.after b events).trace = c.steps ++ sessionSteps events := by
    rw [World.after_trace, hobtained.trace_eq, htrace, sessionSteps_append]
    rfl
  have hopened : ∀ added, ∀ x ∈ ResourceSessions.openings c.steps,
      x ∈ ResourceSessions.openings (c.steps ++ added) := fun added x hmem => by simp [hmem]
  rcases hends with ⟨hrun, hevents⟩ | ⟨e, hrun, hevents⟩
  · -- the new object holds what was opened
    rcases hresult with ⟨context, w'', hvalue, rfl⟩ | ⟨e, w'', hvalue, rfl⟩
    swap
    · cases hrun.symm.trans hvalue
    obtain ⟨hcontext, rfl⟩ := Prod.mk.inj (hrun.symm.trans hvalue)
    obtain rfl := Result.value.inj hcontext
    rw [hevents] at hafter
    have hcomplete := complete_update h.complete slot
      (some ⟨some ⟨⟨some tcti, some deleter⟩, esys, log, api⟩⟩) fun impl himpl => by
        cases himpl
        exact ⟨rfl, tcti, deleter, rfl⟩
    exact ⟨h.of_holdings taken (holding_update ..) rfl hafter hcomplete htaken hbelow rfl
        (hopened _),
      startSession tcti esys uses, hafter, iff_of_true hstart trivial, by simp⟩
  · -- what was opened is closed again
    rcases hresult with ⟨context, w'', hvalue, rfl⟩ | ⟨e, w'', hvalue, rfl⟩
    · cases hrun.symm.trans hvalue
    obtain ⟨_, rfl⟩ := Prod.mk.inj (hrun.symm.trans hvalue)
    rw [hevents] at hafter
    have hheld : taken.held slot = some (tcti, esys) := by simp [taken, Holdings.take]
    have hend : Disciplined taken.steps (endSession tcti esys) := by
      simpa [Holdings.ending, hheld] using htaken.disciplined_disposes slot
    have hdisposed := htaken.disposes slot
    have hbelow' := hbelow.dispose slot
    rw [Holdings.dispose_take hunheld] at hdisposed hbelow'
    refine ⟨h.of_holdings { c.holdings with
        steps := c.steps ++ (startSession tcti esys uses ++ endSession tcti esys) } rfl rfl hafter
        h.complete hdisposed hbelow' rfl (hopened _),
      startSession tcti esys uses ++ endSession tcti esys, hafter, ?_, ?_⟩
    · exact iff_of_true (disciplined_append.mpr ⟨hstart, hend⟩) trivial
    · intro e hlive
      obtain ⟨⟨base, hbefore⟩, _⟩ := hlive
      simp only [closings_append, closings_startSession, closings_endSession, List.nil_append,
        Option.mem_toList, iff_false]
      intro he
      exact hnew e he base hbefore

/-- A creation that fails before it opens anything. -/
theorem Sound.quietly_fails (h : c.Sound api) {slot : Nat} {creation : Adapter σ (TpmContext σ)}
    {s : LifecycleState σ} {e : Error} {b : σ} {events : List Event}
    (hquiet : sessionSteps events = [])
    (hrun : creation c.world = (.unexpected e, c.world.after b events))
    (hcreate : c.contexts.tryConstruct slot creation = some s) :
    Advances api c { c with contexts := s } True fun _ => False := by
  have hsteps : sessionSteps (c.world.after b events).trace = c.steps := by
    rw [World.after_trace, sessionSteps_append, hquiet, List.append_nil]
    rfl
  rcases (tryConstruct_cases hcreate).2 with ⟨context, w, hvalue, rfl⟩ | ⟨e', w, hvalue, rfl⟩
  · cases hrun.symm.trans hvalue
  · obtain ⟨_, rfl⟩ := Prod.mk.inj (hrun.symm.trans hvalue)
    exact Advances.quiet (h.of_holdings c.holdings rfl rfl hsteps h.complete h.owned h.below rfl
      fun x hmem => hmem) hsteps

/-- The deletion of what a pointer held, as the invariant sees it. -/
theorem destroy_world (hfinalize : api.finalize.isSome) (context : TpmContext σ)
    (hcomplete : ∀ impl, context.impl = some impl → impl.Complete api) (linked : LinkedApi σ)
    (w : World σ) :
    (context.destroy linked w).2.nextHandle = w.nextHandle ∧
      sessionSteps (context.destroy linked w).2.trace = sessionSteps w.trace ++
        context.holding.toList.flatMap fun x => endSession x.1 x.2 := by
  obtain ⟨b, events, hrun, hevents⟩ := TpmContext.destroy_session hfinalize hcomplete linked w
  simp [hrun, hevents]

/-- A destruction ends the session of what the object held. -/
theorem Sound.destroy (h : c.Sound api) (hfinalize : api.finalize.isSome) {linked : LinkedApi σ}
    {slot : Nat} {s : LifecycleState σ} (hstep : c.contexts.destroy linked slot = some s) :
    Advances api c { c with contexts := s } True (c.contexts.OwnsEsys slot) := by
  unfold LifecycleState.destroy at hstep
  split at hstep
  swap
  · cases hstep
  next context hobject =>
    obtain rfl := Option.some.inj hstep
    obtain ⟨hnext, hsteps⟩ := destroy_world hfinalize context
      (fun impl himpl => h.complete slot impl (by simp [hobject, ← himpl])) linked c.world
    have hending : c.holdings.ending slot =
        context.holding.toList.flatMap fun x => endSession x.1 x.2 := by
      simp [Holdings.ending, holdings, hobject]
    rw [← hending] at hsteps
    refine ⟨h.of_holdings (c.holdings.dispose slot) (holding_update ..) rfl hsteps
        (complete_update h.complete slot none fun impl himpl => absurd himpl (by simp))
        (h.owned.disposes slot) ((h.below.dispose slot).mono hnext.ge) rfl ?_,
      c.holdings.ending slot, hsteps, iff_of_true (h.owned.disciplined_disposes slot) trivial, ?_⟩
    · rw [Holdings.openings_dispose]
      exact fun x hmem => hmem
    · intro e _
      rw [Holdings.mem_closings_ending, h.ownsEsys_iff]

/-- A move into a new object passes on what the source held. -/
theorem Sound.moveConstruct (h : c.Sound api) {target source : Nat} {s : LifecycleState σ}
    (hstep : c.contexts.moveConstruct target source = some s) :
    Advances api c { c with contexts := s } True fun _ => False := by
  unfold LifecycleState.moveConstruct at hstep
  split at hstep
  swap
  · cases hstep
  next context htarget hsource =>
    obtain rfl := Option.some.inj hstep
    have hunheld : c.holdings.held target = none := by simp [holdings, htarget]
    refine Advances.quiet (h.of_holdings (c.holdings.pass target source) ?_ rfl rfl ?_
      (h.owned.passes source hunheld) (h.below.pass target source) rfl fun x hmem => hmem) rfl
    · rw [holding_update, holding_update]
      simp [holdings, Holdings.pass, hsource]
    · refine complete_update (complete_update h.complete source _ fun impl himpl => ?_) target _
        fun impl himpl => h.complete source impl (hsource.trans himpl)
      simp at himpl

/-- A move assignment ends the session of what the target held, unless it is the
source. -/
theorem Sound.moveAssign (h : c.Sound api) (hfinalize : api.finalize.isSome)
    {linked : LinkedApi σ} {target source : Nat} {s : LifecycleState σ}
    (hstep : c.contexts.moveAssign linked target source = some s) :
    Advances api c { c with contexts := s } True
      fun e => target ≠ source ∧ c.contexts.OwnsEsys target e := by
  unfold LifecycleState.moveAssign at hstep
  split at hstep
  swap
  · cases hstep
  next old context htarget hsource =>
    obtain rfl := Option.some.inj hstep
    by_cases hself : target = source
    · -- the pointer goes back to where it was, and nothing is deleted
      subst hself
      have hobjects : Function.update (Function.update c.contexts.objects target (some ⟨none⟩))
          target (some context) = c.contexts.objects := by
        rw [Function.update_idem, ← hsource, Function.update_eq_self]
      have hquiet : Advances api c c True fun e => target ≠ target ∧ c.contexts.OwnsEsys target e :=
        ⟨h, [], (List.append_nil _).symm, by simp, by simp⟩
      simpa [hobjects, TpmContext.destroy] using hquiet
    · have hprevious : (⟨(Function.update c.contexts.objects source (some ⟨none⟩) target).bind
          TpmContext.impl⟩ : TpmContext σ) = old := by
        rw [Function.update_of_ne hself, htarget]
        rfl
      simp only [hprevious]
      obtain ⟨hnext, hsteps⟩ := destroy_world hfinalize old
        (fun impl himpl => h.complete target impl (by simp [htarget, ← himpl])) linked c.world
      have hending : c.holdings.ending target =
          old.holding.toList.flatMap fun x => endSession x.1 x.2 := by
        simp [Holdings.ending, holdings, htarget]
      rw [← hending] at hsteps
      have hunheld : (c.holdings.dispose target).held target = none := by
        simp [Holdings.dispose]
      refine ⟨h.of_holdings ((c.holdings.dispose target).pass target source) ?_ rfl hsteps ?_
          ((h.owned.disposes target).passes source hunheld)
          (((h.below.dispose target).pass target source).mono hnext.ge) rfl ?_,
        c.holdings.ending target, hsteps,
        iff_of_true (h.owned.disciplined_disposes target) trivial, ?_⟩
      · rw [holding_update, holding_update]
        simp [holdings, Holdings.pass, Holdings.dispose, hsource, Ne.symm hself,
          Function.update_comm hself]
      · refine complete_update (complete_update h.complete source _ fun impl himpl => ?_) target _
          fun impl himpl => h.complete source impl (hsource.trans himpl)
        simp at himpl
      · intro x hmem
        rw [Holdings.pass_steps, Holdings.openings_dispose]
        exact hmem
      · intro e _
        rw [Holdings.mem_closings_ending, h.ownsEsys_iff]
        exact (and_iff_right hself).symm

/-- A call uses the context of its provider, whoever owns it. -/
theorem Sound.call (h : c.Sound api) {k : Nat} {op : ProviderOp build} (hop : op.Stored)
    {provider : EsysPcrProvider σ} (hprovider : c.providers[k]? = some provider) :
    Advances api c
      { c with contexts := { c.contexts with world := (provider.perform op c.world).2 } }
      (c.BorrowsOwned (.call k op)) fun _ => False := by
  obtain ⟨tcti, e, hesys, _⟩ := h.borrowed provider (List.mem_of_getElem? hprovider)
  have howned : c.BorrowsOwned (.call k op) ↔ (op.Admitted provider.esys → Live c.steps e) := by
    rw [h.live_iff]
    simp only [BorrowsOwned, hprovider, Option.some.injEq, forall_eq', hesys]
    simp
  rcases perform_session provider hop c.world with
    ⟨hadmitted, b, events, uses, hworld, huses, hevents⟩ | ⟨hrefused, hworld⟩
  · have hadded : sessionSteps events = List.replicate uses (.used e) := by
      simpa [hesys] using hevents
    have hsteps : sessionSteps (provider.perform op c.world).2.trace =
        c.steps ++ List.replicate uses (.used e) := by
      rw [hworld, World.after_trace, sessionSteps_append, hadded]
      rfl
    have hnext : (provider.perform op c.world).2.nextHandle = c.world.nextHandle := by
      rw [hworld, World.after_nextHandle]
    refine ⟨h.of_holdings { c.holdings with steps := c.steps ++ List.replicate uses (.used e) }
        rfl rfl hsteps h.complete (h.owned.uses uses e) ⟨?_, ?_, ?_⟩ rfl fun x hmem => ?_,
      List.replicate uses (.used e), hsteps, ?_, by simp⟩
    · exact fun tcti hmem => hnext ▸ h.below.spare tcti hmem
    · exact fun slot tcti esys hholds => hnext ▸ h.below.held slot tcti esys hholds
    · intro tcti e' hopened
      have hbefore := h.below.opened tcti e' (by simpa [holdings] using hopened)
      exact hnext ▸ hbefore
    · simpa using hmem
    · rw [disciplined_uses, howned]
      exact ⟨fun hlive _ => hlive huses, fun hlive _ => hlive hadmitted⟩
  · rw [hworld]
    exact ⟨h, [], by simp [Client.world, steps], by simp [howned, hrefused], by simp⟩

/-- **One step.** -/
theorem Sound.step (h : c.Sound api) (hfinalize : api.finalize.isSome)
    {tctiApi : TctiLoaderApi σ} {linked : LinkedApi σ} {op : ClientOp build} (hop : op.Stored)
    (hstep : c.step tctiApi api linked op = some c') :
    Advances api c c' (c.BorrowsOwned op) fun e => c.EndsSession e op := by
  cases op with
  | call k op =>
      obtain ⟨provider, hprovider, rfl⟩ := Option.map_eq_some_iff.mp hstep
      exact h.call hop hprovider
  | manage op =>
      cases op with
      | acquireTcti =>
          obtain rfl := Option.some.inj hstep
          exact Advances.quiet h.acquireTcti rfl
      | createFromConfig slot config =>
          obtain ⟨s, hs, rfl⟩ := Option.map_eq_some_iff.mp hstep
          rcases createContextFromConfig_session hfinalize config tctiApi linked c.world with
            ⟨e, b, events, hquiet, hrun⟩ | hsession
          · exact h.quietly_fails hquiet hrun hs
          · exact h.create c.world.acquired h.below.unused rfl (Nat.le_succ _) (Nat.lt_succ_self _)
              hsession hs
      | createFromOwned slot tcti deleter startup log =>
          simp only [Client.step] at hstep
          split at hstep
          swap
          · cases hstep
          next hmem =>
            obtain ⟨s, hs, rfl⟩ := Option.map_eq_some_iff.mp hstep
            obtain ⟨hgiven, hunused⟩ := h.give hmem
            have hcreated := hgiven.create c.world hunused rfl (Nat.le_refl _)
              (h.below.spare tcti hmem)
              (createContextFromOwnedTcti_session hfinalize tcti deleter startup log linked
                c.world) hs
            exact ⟨hcreated.sound, hcreated.added⟩
      | moveConstruct target source =>
          obtain ⟨s, hs, rfl⟩ := Option.map_eq_some_iff.mp hstep
          exact h.moveConstruct hs
      | moveAssign target source =>
          obtain ⟨s, hs, rfl⟩ := Option.map_eq_some_iff.mp hstep
          exact h.moveAssign hfinalize hs
      | createPcrProvider slot observer =>
          obtain ⟨context, hobject, hc'⟩ := Option.map_eq_some_iff.mp hstep
          have hworld := context.createPcrProvider_world observer c.world
          rcases hrun : context.createPcrProvider observer c.world with ⟨result, w⟩
          obtain rfl : w = c.world := by simpa [hrun] using hworld
          rw [hrun] at hc'
          cases result with
          | value provider =>
              subst hc'
              exact Advances.quiet (h.provide hobject hrun) rfl
          | unexpected e =>
              subst hc'
              exact Advances.quiet h rfl
          | fault f =>
              subst hc'
              exact Advances.quiet h rfl
      | destroy slot =>
          obtain ⟨s, hs, rfl⟩ := Option.map_eq_some_iff.mp hstep
          exact h.destroy hfinalize hs

/-- **Whole runs.**  The invariant is kept, and the session steps of the run are in
order exactly when each call was made on a context that an object still owned. -/
theorem Sound.run (hfinalize : api.finalize.isSome) {tctiApi : TctiLoaderApi σ}
    {linked : LinkedApi σ} {ops : List (ClientOp build)} (h : c.Sound api)
    (hstored : ∀ op ∈ ops, op.Stored) (hrun : c.run tctiApi api linked ops = some c') :
    c'.Sound api ∧ ∃ added, c'.steps = c.steps ++ added ∧
      (Disciplined c.steps added ↔ c.BorrowsThroughout tctiApi api linked ops) := by
  induction ops generalizing c with
  | nil =>
      obtain rfl := Option.some.inj hrun
      exact ⟨h, [], (List.append_nil _).symm, by simp [BorrowsThroughout]⟩
  | cons op ops ih =>
      simp only [Client.run, List.foldlM_cons] at hrun
      obtain ⟨next, hnext, hrest⟩ := Option.bind_eq_some_iff.mp hrun
      obtain ⟨hop, hops⟩ := List.forall_mem_cons.mp hstored
      obtain ⟨hsound, first, hfirst, hinOrder, _⟩ := h.step hfinalize hop hnext
      obtain ⟨hsound', later, hlater, hinOrder'⟩ := ih hsound hops hrest
      refine ⟨hsound', first ++ later, by rw [hlater, hfirst, List.append_assoc], ?_⟩
      rw [disciplined_append, hinOrder, ← hfirst, hinOrder', BorrowsThroughout, hnext]
      simp

end Client

section Results

variable (tctiApi : TctiLoaderApi σ) (api : EsysApi σ) (linked : LinkedApi σ) (b : σ) (n : Nat)

/-- **Sessions are in order exactly under live borrows.**  Over a table that has a
`finalize` entry: every ESYS context of a run is opened once, used only until it is
closed, and closed before its TCTI context is released, exactly when each call that
passes its checks is made through a provider whose context an object still owns. -/
theorem sessions_disciplined_iff (ops : List (ClientOp build)) (c : Client σ)
    (hfinalize : api.finalize.isSome) (hstored : ∀ op ∈ ops, op.Stored)
    (hrun : (Client.initial b n).run tctiApi api linked ops = some c) :
    (Disciplined [] c.steps ↔
        (Client.initial b n).BorrowsThroughout tctiApi api linked ops) ∧
      ((Client.initial b n).BorrowsThroughout tctiApi api linked ops →
        ∀ e, Reached e c.steps) := by
  obtain ⟨_, added, hsteps, hinOrder⟩ := (Client.sound_initial api b n).run hfinalize hstored hrun
  have hall : c.steps = added := hsteps
  have hiff : Disciplined [] c.steps ↔
      (Client.initial b n).BorrowsThroughout tctiApi api linked ops := hall ▸ hinOrder
  exact ⟨hiff, fun hborrows => session_of_disciplined (hiff.mpr hborrows)⟩

/-- A provider is used before and after another object is assigned over the one it
came from. -/
def orphanedRun : List (ClientOp ⟨false⟩) :=
  [.manage .acquireTcti, .manage (.createFromOwned 0 ⟨0⟩ (.client 5) .clear none),
   .manage (.createPcrProvider 0 none),
   .manage (.createFromConfig 1 ⟨ascii "swtpm:x", .skip, none⟩),
   .call 0 (.reset ⟨10, by decide⟩), .manage (.moveAssign 0 1), .call 0 (.reset ⟨10, by decide⟩)]

/-- The run has no digest values at all. -/
theorem orphanedRun_stored : ∀ op ∈ orphanedRun, op.Stored := by
  simp [orphanedRun, ClientOp.Stored, ProviderOp.Stored]

/-- Its sessions: the first is used once more after it was closed. -/
theorem orphanedRun_steps :
    ((Client.initial () 0).run .obliging .inert .obliging orphanedRun).map Client.steps =
      some [.opened ⟨0⟩ ⟨1⟩, .used ⟨1⟩, .opened ⟨2⟩ ⟨3⟩, .used ⟨1⟩, .closed ⟨1⟩,
        .released ⟨0⟩, .used ⟨1⟩] := by
  rfl

/-- So neither side of the equivalence holds of it. -/
theorem sessions_disciplined_iff_orphaned :
    ∃ c, (Client.initial () 0).run .obliging .inert .obliging orphanedRun = some c ∧
      ¬Disciplined [] c.steps ∧
      ¬(Client.initial () 0).BorrowsThroughout .obliging .inert .obliging orphanedRun := by
  obtain ⟨c, hrun, hsteps⟩ := Option.map_eq_some_iff.mp orphanedRun_steps
  have hinOrder : ¬Disciplined [] c.steps := by
    rw [hsteps]
    simp [Disciplined, Allowed, Live]
  have h := sessions_disciplined_iff .obliging .inert .obliging () 0 orphanedRun c rfl
    orphanedRun_stored hrun
  exact ⟨c, hrun, hinOrder, h.1.not.mp hinOrder⟩

/-- **When a provider is valid.**  In every client that a run reaches, the contexts
that are open are those that exactly one object owns, so that none is left once
the objects are gone; and a step ends the session of an open context exactly when
it destroys the context's owner or assigns another object over it. -/
theorem provider_valid_until (ops : List (ClientOp build)) (c : Client σ)
    (hfinalize : api.finalize.isSome) (hstored : ∀ op ∈ ops, op.Stored)
    (hrun : (Client.initial b n).run tctiApi api linked ops = some c) :
    (∀ e, Live c.steps e ↔ ∃! slot, c.contexts.OwnsEsys slot e) ∧
      (∀ provider ∈ c.providers, ∃ tcti e, provider.esys = some e ∧
        (tcti, e) ∈ ResourceSessions.openings c.steps) ∧
      ∀ (op : ClientOp build) c', op.Stored → c.step tctiApi api linked op = some c' →
        ∀ e, Live c.steps e → (¬Live c'.steps e ↔ c.EndsSession e op) := by
  obtain ⟨hsound, _⟩ := (Client.sound_initial api b n).run hfinalize hstored hrun
  refine ⟨fun e => ?_, hsound.borrowed, fun op c' hop hstep e hlive => ?_⟩
  · rw [hsound.live_iff]
    constructor
    · intro howned
      obtain ⟨slot, howns⟩ := howned
      exact ⟨slot, howns, fun slot' howns' => hsound.owner_unique howns' howns⟩
    · exact ExistsUnique.exists
  · obtain ⟨_, added, hadded, _, hends⟩ := hsound.step hfinalize hop hstep
    obtain ⟨⟨tcti, hopened⟩, hunclosed⟩ := hlive
    rw [← hends e ⟨⟨tcti, hopened⟩, hunclosed⟩]
    simp only [Live, hadded, ResourceSessions.openings_append, closings_append, List.mem_append]
    constructor
    · intro hdead
      by_contra hnot
      exact hdead ⟨⟨tcti, Or.inl hopened⟩, not_or.mpr ⟨hunclosed, hnot⟩⟩
    · exact fun hclosed hlive' => hlive'.2 (Or.inr hclosed)

/-- What the client has before the assignment: the open contexts, and the one that
the target owns. -/
theorem orphanedRun_assigned :
    ((Client.initial () 0).run .obliging .inert .obliging (orphanedRun.take 5)).map (fun c =>
        (c.steps, (c.contexts.objects 0).bind fun context => context.impl.bind Impl.esys,
          (c.step .obliging .inert .obliging
            (.manage (.moveAssign 0 1) : ClientOp ⟨false⟩)).isSome)) =
      some ([.opened ⟨0⟩ ⟨1⟩, .used ⟨1⟩, .opened ⟨2⟩ ⟨3⟩, .used ⟨1⟩], some ⟨1⟩, true) := by
  rfl

/-- The assignment ends the session that the provider holds. -/
theorem provider_valid_until_orphaned :
    ∃ c c', (Client.initial () 0).run .obliging .inert .obliging (orphanedRun.take 5) = some c ∧
      c.step .obliging .inert .obliging (.manage (.moveAssign 0 1) : ClientOp ⟨false⟩) = some c' ∧
      Live c.steps ⟨1⟩ ∧ ¬Live c'.steps ⟨1⟩ := by
  obtain ⟨c, hrun, hc⟩ := Option.map_eq_some_iff.mp orphanedRun_assigned
  simp only [Prod.mk.injEq, Option.bind_eq_some_iff] at hc
  obtain ⟨hsteps, ⟨⟨_⟩, hobject, impl, rfl, hesys⟩, hstep⟩ := hc
  obtain ⟨c', hc'⟩ := Option.isSome_iff_exists.mp hstep
  have hlive : Live c.steps ⟨1⟩ := by
    rw [hsteps]
    simp [Live]
  have h := provider_valid_until .obliging .inert .obliging () 0 (orphanedRun.take 5) c rfl
    (fun op hmem => orphanedRun_stored op (List.mem_of_mem_take hmem)) hrun
  refine ⟨c, c', hrun, hc', hlive, ?_⟩
  exact (h.2.2 (.manage (.moveAssign 0 1)) c' trivial hc' ⟨1⟩ hlive).mpr
    ⟨by decide, impl, hobject, hesys⟩

end Results

end Tpmkit
