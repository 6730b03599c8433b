import Tpmkit.ContextRuns
import Tpmkit.UniqueOwnership

/-!
# The lifecycle of TPM contexts

Runs that create contexts, move them, ask them for PCR providers and destroy
them, in any order.  Each step is written as the language performs it on the
`tpm_context` objects of the run; `Mirrors` connects these objects to a ledger
of uniquely owned resources, whose resources are the implementation objects.
-/

namespace Tpmkit

open Checked ByteStrings Pcr UniqueOwnership

variable {σ : Type}

/-! ## Runs -/

/-- The world, the `tpm_context` objects by where they are stored, the TCTI
contexts that the client owns itself, and the implementations created so far. -/
structure LifecycleState (σ : Type) where
  world : World σ
  objects : Nat → Option (TpmContext σ)
  clientTctis : List TctiContext
  created : List (Impl σ)

/-- No objects, and nothing seen yet. -/
def LifecycleState.initial (backend : σ) (nextHandle : Nat) : LifecycleState σ :=
  ⟨⟨backend, nextHandle, []⟩, fun _ => none, [], []⟩

/-- What a client does with `tpm_context` objects. -/
inductive LifecycleOp where
  | acquireTcti
  | createFromConfig (slot : Nat) (config : TpmContextConfig)
  | createFromOwned (slot : Nat) (tcti : TctiContext) (deleter : TctiDeleter)
      (startup : StartupMode) (log : Option Logger)
  | moveConstruct (target source : Nat)
  | moveAssign (target source : Nat)
  | createPcrProvider (slot : Nat) (observer : Option Observer)
  | destroy (slot : Nat)

namespace LifecycleState

variable (s : LifecycleState σ)

/-- Store the context that a successful creation returns. -/
def construct (slot : Nat) (creation : Adapter σ (TpmContext σ)) : Option (LifecycleState σ) :=
  match s.objects slot, creation s.world with
  | none, (.value context, w) =>
    some { s with
      world := w
      objects := Function.update s.objects slot (some context)
      created := s.created ++ context.impl.toList }
  | _, _ => none

/-- `tpm_context(tpm_context&&)`. -/
def moveConstruct (target source : Nat) : Option (LifecycleState σ) :=
  match s.objects target, s.objects source with
  | none, some context =>
    some { s with
      objects :=
        Function.update (Function.update s.objects source (some ⟨none⟩)) target (some context) }
  | _, _ => none

/-- `operator=(tpm_context&&)`: the source is released, the target stores the
pointer, and the one it stored before is deleted.  A destructor that faulted
would leave the world without the events it did not reach. -/
def moveAssign (linked : LinkedApi σ) (target source : Nat) : Option (LifecycleState σ) :=
  match s.objects target, s.objects source with
  | some _, some context =>
    let released := Function.update s.objects source (some ⟨none⟩)
    let previous : TpmContext σ := ⟨(released target).bind TpmContext.impl⟩
    some { s with
      world := (previous.destroy linked s.world).2
      objects := Function.update released target (some context) }
  | _, _ => none

/-- `~tpm_context`. -/
def destroy (linked : LinkedApi σ) (slot : Nat) : Option (LifecycleState σ) :=
  match s.objects slot with
  | some context =>
    some { s with
      world := (context.destroy linked s.world).2
      objects := Function.update s.objects slot none }
  | none => none

/-- One step, where the language allows it and a creation succeeds. -/
def step (tctiApi : TctiLoaderApi σ) (api : EsysApi σ) (linked : LinkedApi σ)
    (s : LifecycleState σ) : LifecycleOp → Option (LifecycleState σ)
  | .acquireTcti =>
    some { s with
      world := s.world.acquired
      clientTctis := ⟨s.world.nextHandle⟩ :: s.clientTctis }
  | .createFromConfig slot config =>
    s.construct slot (createContextFromConfig config tctiApi api linked)
  | .createFromOwned slot tcti deleter startup log =>
    if tcti ∈ s.clientTctis then
      { s with clientTctis := s.clientTctis.erase tcti }.construct slot
        (createContextFromOwnedTcti ⟨some tcti, some deleter⟩ startup log api linked)
    else
      none
  | .moveConstruct target source => s.moveConstruct target source
  | .moveAssign target source => s.moveAssign linked target source
  | .createPcrProvider slot observer =>
    (s.objects slot).map fun context =>
      { s with world := (context.createPcrProvider observer s.world).2 }
  | .destroy slot => s.destroy linked slot

/-- Several steps. -/
def run (tctiApi : TctiLoaderApi σ) (api : EsysApi σ) (linked : LinkedApi σ)
    (s : LifecycleState σ) (ops : List LifecycleOp) : Option (LifecycleState σ) :=
  ops.foldlM (step tctiApi api linked) s

end LifecycleState

/-! ## What a trace shows -/

/-- The events that close a context. -/
def isTeardown : Event → Bool
  | .esysFinalize _ => true
  | .tctiDelete _ _ => true
  | .log _ entry => entry = finalizedRecord
  | _ => false

/-- The closing events among some events, in order. -/
def teardowns (events : List Event) : List Event := events.filter isTeardown

/-- The TCTI and ESYS context of each successful initialization. -/
def openings (events : List Event) : List (TctiContext × EsysContext) :=
  events.filterMap fun
    | .esysInitialize (some tcti) rc (some esys) =>
        if rc = tss2RcSuccess then some (tcti, esys) else none
    | _ => none

/-- The ESYS contexts that were finalized, in order. -/
def finalizedEsys (events : List Event) : List EsysContext :=
  events.filterMap fun
    | .esysFinalize esys => some esys
    | _ => none

/-- The TCTI contexts that went to a finalizer, in order. -/
def deletedTctis (events : List Event) : List TctiContext :=
  events.filterMap fun
    | .tctiDelete _ tcti => some tcti
    | _ => none

/-- The loggers that got the record of a closed context, in order. -/
def finalizedLogs (events : List Event) : List Logger :=
  events.filterMap fun
    | .log log entry => if entry = finalizedRecord then some log else none
    | _ => none

@[simp] theorem teardowns_nil : teardowns [] = [] := rfl

@[simp] theorem openings_nil : openings [] = [] := rfl

/-- The teardowns of two parts are those of the one and then those of the other. -/
@[simp] theorem teardowns_append (events events' : List Event) :
    teardowns (events ++ events') = teardowns events ++ teardowns events' :=
  List.filter_append ..

/-- So are the openings. -/
@[simp] theorem openings_append (events events' : List Event) :
    openings (events ++ events') = openings events ++ openings events' :=
  List.filterMap_append ..

/-- Nothing outside of the lifecycle is a teardown. -/
theorem teardowns_lifecycle (events : List Event) :
    teardowns (lifecycle events) = teardowns events := by
  simp only [teardowns, lifecycle, List.filter_filter]
  refine List.filter_congr fun event _ => ?_
  cases event <;> simp [isTeardown, isLifecycleEvent]

/-- Nor an opening. -/
theorem openings_lifecycle (events : List Event) :
    openings (lifecycle events) = openings events := by
  simp only [openings, lifecycle, List.filterMap_filter]
  refine List.filterMap_congr fun event _ => ?_
  cases event <;> simp [isLifecycleEvent]

/-! ## Implementations -/

namespace Impl

/-- An implementation over a function table, with a TCTI context and its finalizer. -/
def Complete (api : EsysApi σ) (impl : Impl σ) : Prop :=
  impl.api = api ∧ ∃ tcti deleter, impl.tcti = ⟨some tcti, some deleter⟩

/-- What closing an implementation shows. -/
def teardown (impl : Impl σ) : List Event :=
  .log impl.log finalizedRecord :: impl.esys.toList.map .esysFinalize ++
    match impl.tcti with
    | ⟨some tcti, some deleter⟩ => [.tctiDelete deleter tcti]
    | _ => []

/-- Tearing an implementation object down is nothing but teardowns. -/
@[simp] theorem teardowns_teardown (impl : Impl σ) : teardowns impl.teardown = impl.teardown := by
  obtain ⟨⟨_ | tcti, _ | deleter⟩, _ | esys, log, api⟩ := impl <;> rfl

/-- It opens nothing. -/
@[simp] theorem openings_teardown (impl : Impl σ) : openings impl.teardown = [] := by
  obtain ⟨⟨_ | tcti, _ | deleter⟩, _ | esys, log, api⟩ := impl <;> rfl

/-- The TCTI and ESYS context of an implementation. -/
def opening (impl : Impl σ) : Option (TctiContext × EsysContext) :=
  impl.tcti.handle.bind fun tcti => impl.esys.map (tcti, ·)

end Impl

/-- Deleting what a pointer held shows the teardown of what it pointed to. -/
theorem TpmContext.destroy_cases {api : EsysApi σ} (hfinalize : api.finalize.isSome)
    {context : TpmContext σ} (hcomplete : ∀ impl, context.impl = some impl → impl.Complete api)
    (linked : LinkedApi σ) (w : World σ) :
    ∃ b events, context.destroy linked w = (.value (), w.after b events) ∧
      lifecycle events = context.impl.toList.flatMap Impl.teardown := by
  obtain ⟨none | impl⟩ := context
  · exact ⟨w.backend, [], by simp [TpmContext.destroy], rfl⟩
  obtain ⟨rfl, tcti, deleter, htcti⟩ := hcomplete impl rfl
  obtain ⟨b, events, hrun, hevents⟩ := Impl.destroy_cases htcti linked w
  refine ⟨b, events, hrun, ?_⟩
  rw [hevents, EsysApi.destroyEvents_of_finalize hfinalize]
  simp [Impl.teardown, htcti]

/-- Asking for a PCR provider changes nothing. -/
theorem TpmContext.createPcrProvider_world (context : TpmContext σ) (observer : Option Observer)
    (w : World σ) : (context.createPcrProvider observer w).2 = w := by
  obtain ⟨_ | ⟨tcti, _ | esys, log, api⟩⟩ := context <;> rfl

/-! ## Invariants -/

namespace LifecycleState

/-- Every TCTI context of the run: the client's own, and those of implementations. -/
def acquiredTctis (s : LifecycleState σ) : List TctiContext :=
  s.clientTctis ++ s.created.filterMap (·.tcti.handle)

/-- Every ESYS context of the run. -/
def acquiredEsys (s : LifecycleState σ) : List EsysContext := s.created.filterMap (·.esys)

/-- No handle is used twice, and none is still to come. -/
structure FreshHandles (api : EsysApi σ) (s : LifecycleState σ) : Prop where
  tctis_nodup : s.acquiredTctis.Nodup
  tctis_lt : ∀ t ∈ s.acquiredTctis, t.id < s.world.nextHandle
  esys_nodup : s.acquiredEsys.Nodup
  esys_lt : ∀ e ∈ s.acquiredEsys, e.id < s.world.nextHandle
  complete : ∀ impl ∈ s.created, impl.Complete api

/-- The objects of a run are those of a ledger of implementations, and its trace
shows their openings and the teardown of each implementation disposed of. -/
structure Mirrors (s : LifecycleState σ) (l : Ledger Nat (Impl σ)) : Prop where
  cells : ∀ slot, l.cells slot = (s.objects slot).map TpmContext.impl
  acquired : l.acquired = s.created
  teardowns : teardowns s.world.trace = l.disposed.flatMap Impl.teardown
  openings : openings s.world.trace = s.created.filterMap Impl.opening

/-- **The invariant of lifecycle runs.** -/
structure Sound (api : EsysApi σ) (s : LifecycleState σ) : Prop where
  fresh : s.FreshHandles api
  mirrored : ∃ l, Relation.ReflTransGen Ledger.Step Ledger.empty l ∧ s.Mirrors l

/-- Before the first operation there is nothing to account for. -/
theorem sound_initial (api : EsysApi σ) (b : σ) (n : Nat) : (initial b n).Sound api where
  fresh := by constructor <;> simp [acquiredTctis, acquiredEsys, initial]
  mirrored := ⟨Ledger.empty, .refl, fun _ => rfl, rfl, rfl, rfl⟩

variable {api : EsysApi σ} {s s' : LifecycleState σ} {l : Ledger Nat (Impl σ)}

/-! ## Creation -/

/-- A creation that the run gets past returned a context, into an empty slot. -/
theorem construct_cases {slot : Nat} {creation : Adapter σ (TpmContext σ)}
    (h : s.construct slot creation = some s') :
    ∃ context w, s.objects slot = none ∧ creation s.world = (.value context, w) ∧
      s' = { s with
        world := w
        objects := Function.update s.objects slot (some context)
        created := s.created ++ context.impl.toList } := by
  unfold construct at h
  split at h
  · next context w hfree hrun => exact ⟨context, w, hfree, hrun, (Option.some.inj h).symm⟩
  · cases h

/-- A new object accounts for one TCTI context more. -/
theorem acquiredTctis_construct (s : LifecycleState σ) (w : World σ)
    (objects : Nat → Option (TpmContext σ)) {impl : Impl σ} {tcti : TctiContext}
    (htcti : impl.tcti.handle = some tcti) :
    (acquiredTctis ⟨w, objects, s.clientTctis, s.created ++ [impl]⟩).Perm
      (tcti :: s.acquiredTctis) := by
  have hlast : [impl].filterMap (·.tcti.handle) = [tcti] := by simp [htcti]
  unfold acquiredTctis
  rw [List.filterMap_append, hlast, ← List.append_assoc]
  exact List.perm_append_singleton tcti _

/-- And for its ESYS context, if it has one. -/
theorem acquiredEsys_construct (s : LifecycleState σ) (w : World σ)
    (objects : Nat → Option (TpmContext σ)) (impl : Impl σ) :
    acquiredEsys ⟨w, objects, s.clientTctis, s.created ++ [impl]⟩ =
      s.acquiredEsys ++ impl.esys.toList := by
  have hlast : [impl].filterMap (·.esys) = impl.esys.toList := by
    cases h : impl.esys <;> simp [h]
  unfold acquiredEsys
  rw [List.filterMap_append, hlast]

/-- A new implementation over an unused TCTI context brings no handle twice. -/
theorem FreshHandles.construct (h : s.FreshHandles api) {base w : World σ} {impl : Impl σ}
    (hbase : s.world.nextHandle ≤ base.nextHandle) (hobtained : Obtained base w impl.esys)
    (hcomplete : impl.Complete api) {tcti : TctiContext} (htcti : impl.tcti.handle = some tcti)
    (hunused : tcti ∉ s.acquiredTctis) (hlt : tcti.id < base.nextHandle) (b : σ)
    (events : List Event) (objects : Nat → Option (TpmContext σ)) :
    FreshHandles api ⟨w.after b events, objects, s.clientTctis, s.created ++ [impl]⟩ := by
  have hnext : base.nextHandle ≤ w.nextHandle := hobtained.nextHandle_le
  have hperm := acquiredTctis_construct s (w.after b events) objects htcti
  have hcontexts := acquiredEsys_construct s (w.after b events) objects impl
  have hnew : ∀ e ∈ impl.esys.toList, base.nextHandle ≤ e.id ∧ e.id < w.nextHandle := by
    intro e he
    rw [Option.mem_toList.mp he] at hobtained
    exact hobtained.id_bounds
  constructor
  · exact hperm.nodup_iff.mpr (List.nodup_cons.mpr ⟨hunused, h.tctis_nodup⟩)
  · intro t ht
    rcases List.mem_cons.mp (hperm.mem_iff.mp ht) with rfl | ht
    · exact Nat.lt_of_lt_of_le hlt hnext
    · have hold := h.tctis_lt t ht
      exact Nat.lt_of_lt_of_le hold (hbase.trans hnext)
  · rw [hcontexts]
    refine h.esys_nodup.append (by cases impl.esys <;> simp) ?_
    intro e hold hmem
    have hge := (hnew e hmem).1
    have hlt := h.esys_lt e hold
    omega
  · intro e he
    rw [hcontexts] at he
    rcases List.mem_append.mp he with hold | hmem
    · exact Nat.lt_of_lt_of_le (h.esys_lt e hold) (hbase.trans hnext)
    · exact (hnew e hmem).2
  · intro impl' himpl
    rcases List.mem_append.mp himpl with hold | hlast
    · exact h.complete impl' hold
    · rw [List.mem_singleton.mp hlast]
      exact hcomplete

/-- A new implementation is a new resource of the ledger. -/
theorem Mirrors.construct (h : s.Mirrors l) {slot : Nat} {w : World σ}
    (htrace : w.trace = s.world.trace) {tcti : TctiContext} {esys : Option EsysContext}
    {events : List Event}
    (hevents : lifecycle events = [.esysInitialize (some tcti) tss2RcSuccess esys])
    (deleter : TctiDeleter) (log : Logger) (b : σ) :
    Mirrors ⟨w.after b events,
        Function.update s.objects slot (some ⟨some ⟨⟨some tcti, some deleter⟩, esys, log, api⟩⟩),
        s.clientTctis, s.created ++ [⟨⟨some tcti, some deleter⟩, esys, log, api⟩]⟩
      (l.create slot ⟨⟨some tcti, some deleter⟩, esys, log, api⟩) where
  cells slot' := by
    simp only [Ledger.create, Function.update_apply]
    split
    · rfl
    · exact h.cells slot'
  acquired := by simp [Ledger.create, h.acquired]
  teardowns := by
    have hnone : Tpmkit.teardowns events = [] := by
      rw [← teardowns_lifecycle, hevents]
      rfl
    simp [htrace, hnone, h.teardowns, Ledger.create]
  openings := by
    have hone : Tpmkit.openings events = (esys.map (tcti, ·)).toList := by
      rw [← openings_lifecycle, hevents]
      cases esys <;> rfl
    simp only [World.after_trace, htrace, openings_append, h.openings, hone,
      List.filterMap_append]
    cases esys <;> rfl

/-- A creation keeps the invariant: its handles are new, and the object that it returns owns
both. -/
theorem Sound.construct (h : s.Sound api) {slot : Nat} {creation : Adapter σ (TpmContext σ)}
    (hstep : s.construct slot creation = some s') {base : World σ}
    (hbase : base = s.world ∨ base = s.world.acquired) {tcti : TctiContext}
    {deleter : TctiDeleter} {log : Logger}
    (hends : ∀ context w, creation s.world = (.value context, w) →
      EndsCreation base tcti deleter log api (.value context, w))
    (hunused : tcti ∉ s.acquiredTctis) (hlt : tcti.id < base.nextHandle) : s'.Sound api := by
  obtain ⟨context, w, hfree, hrun, rfl⟩ := construct_cases hstep
  obtain ⟨esys, w'', b, events, hobtained, rfl, rfl, hevents⟩ := (hends context w hrun).of_value
  obtain ⟨l, hreach, hl⟩ := h.mirrored
  have hnext : s.world.nextHandle ≤ base.nextHandle := by
    rcases hbase with rfl | rfl <;> simp
  have htrace : w''.trace = s.world.trace := by
    rcases hobtained with ⟨_, rfl⟩ | ⟨_, rfl⟩ <;> rcases hbase with rfl | rfl <;> rfl
  have hcomplete : Impl.Complete api ⟨⟨some tcti, some deleter⟩, esys, log, api⟩ :=
    ⟨rfl, tcti, deleter, rfl⟩
  refine ⟨h.fresh.construct hnext hobtained hcomplete rfl hunused hlt b events _, _,
    hreach.tail (.create ?_ ?_), hl.construct htrace hevents deleter log b⟩
  · rw [hl.cells, hfree]
    rfl
  · intro hmem
    rw [hl.acquired] at hmem
    exact hunused (List.mem_append_right _ (List.mem_filterMap.mpr ⟨_, hmem, rfl⟩))

/-! ## Moves and destruction -/

/-- A cell of the ledger holds what its object owns. -/
theorem Mirrors.held (h : s.Mirrors l) {slot : Nat} {context : TpmContext σ}
    (hobject : s.objects slot = some context) : Ledger.held l.cells slot = context.impl := by
  simp [Ledger.held, h.cells, hobject]

/-- A move in the ledger is the move of the objects. -/
theorem Mirrors.moved (h : s.Mirrors l) {source : Nat} {context : TpmContext σ}
    (hsource : s.objects source = some context) (target slot : Nat) :
    Ledger.moved l.cells target source slot =
      (Function.update (Function.update s.objects source (some ⟨none⟩)) target (some context)
        slot).map TpmContext.impl := by
  simp only [Ledger.moved, Function.update_apply, h.held hsource, h.cells]
  split
  · rfl
  · split <;> rfl

/-- What the target of a move assignment holds once the source is released. -/
theorem Mirrors.held_released (h : s.Mirrors l) (target source : Nat) :
    Ledger.held (Function.update l.cells source (some none)) target =
      (Function.update s.objects source (some ⟨none⟩) target).bind TpmContext.impl := by
  simp only [Ledger.held, Function.update_apply, h.cells]
  split
  · rfl
  · cases s.objects target <;> simp

/-- A move construction keeps the invariant; nothing is torn down. -/
theorem Sound.moveConstruct (h : s.Sound api) {target source : Nat}
    (hstep : s.moveConstruct target source = some s') : s'.Sound api := by
  unfold LifecycleState.moveConstruct at hstep
  split at hstep
  swap
  · cases hstep
  next context htarget hsource =>
    obtain rfl := Option.some.inj hstep
    obtain ⟨⟨hnodup, hlt, hesysNodup, hesysLt, hcomplete⟩, l, hreach, hl⟩ := h
    refine ⟨⟨hnodup, hlt, hesysNodup, hesysLt, hcomplete⟩, l.moveConstruct target source,
      hreach.tail (.moveConstruct ?_ ?_),
      ⟨hl.moved hsource target, hl.acquired, hl.teardowns, hl.openings⟩⟩
    · simp [hl.cells, htarget]
    · simp [hl.cells, hsource]

/-- Deleting what a pointer held is a disposal of the ledger. -/
theorem Sound.dispose (hfinalize : api.finalize.isSome) (h : s.FreshHandles api)
    {l' : Ledger Nat (Impl σ)} (hreach : Relation.ReflTransGen Ledger.Step Ledger.empty l)
    (hl : s.Mirrors l) (hstep : Ledger.Step l l') (hacquired : l'.acquired = l.acquired)
    {previous : TpmContext σ} (hdisposed : l'.disposed = l.disposed ++ previous.impl.toList)
    {objects : Nat → Option (TpmContext σ)}
    (hcells : ∀ slot, l'.cells slot = (objects slot).map TpmContext.impl)
    (linked : LinkedApi σ) :
    Sound api { s with world := (previous.destroy linked s.world).2, objects := objects } := by
  have hbalanced := Ledger.Balanced.of_run (hreach.tail hstep)
  have hcomplete : ∀ impl, previous.impl = some impl → impl.Complete api := fun impl himpl => by
    refine h.complete impl (hl.acquired ▸ hacquired ▸ (hbalanced.accounted impl).mpr (Or.inr ?_))
    simp [hdisposed, himpl]
  obtain ⟨b, events, hrun, hevents⟩ :=
    TpmContext.destroy_cases hfinalize hcomplete linked s.world
  have hteardowns : Tpmkit.teardowns events = previous.impl.toList.flatMap Impl.teardown := by
    rw [← teardowns_lifecycle, hevents]
    cases previous.impl <;> simp
  have hopenings : Tpmkit.openings events = [] := by
    rw [← openings_lifecycle, hevents]
    cases previous.impl <;> simp
  rw [hrun]
  exact ⟨⟨h.tctis_nodup, h.tctis_lt, h.esys_nodup, h.esys_lt, h.complete⟩, l', hreach.tail hstep,
    hcells, hacquired.trans hl.acquired, by simp [hteardowns, hl.teardowns, hdisposed],
    by simp [hopenings, hl.openings]⟩

/-- So does a move assignment; what the target owned is torn down, and nothing on
self-assignment. -/
theorem Sound.moveAssign (hfinalize : api.finalize.isSome) (h : s.Sound api)
    {linked : LinkedApi σ} {target source : Nat}
    (hstep : s.moveAssign linked target source = some s') : s'.Sound api := by
  unfold LifecycleState.moveAssign at hstep
  split at hstep
  swap
  · cases hstep
  next replaced context htarget hsource =>
    obtain rfl := Option.some.inj hstep
    obtain ⟨l, hreach, hl⟩ := h.mirrored
    have hassign : Ledger.Step l (l.moveAssign target source) :=
      .moveAssign (by simp [hl.cells, htarget]) (by simp [hl.cells, hsource])
    refine Sound.dispose hfinalize h.fresh hreach hl hassign rfl ?_ (hl.moved hsource target)
      linked
    rw [Ledger.moveAssign, hl.held_released]

/-- So does a destruction; what the object owned is torn down. -/
theorem Sound.destroy (hfinalize : api.finalize.isSome) (h : s.Sound api)
    {linked : LinkedApi σ} {slot : Nat} (hstep : s.destroy linked slot = some s') :
    s'.Sound api := by
  unfold LifecycleState.destroy at hstep
  split at hstep
  swap
  · cases hstep
  next context hobject =>
    obtain rfl := Option.some.inj hstep
    obtain ⟨l, hreach, hl⟩ := h.mirrored
    refine Sound.dispose hfinalize h.fresh hreach hl (.destroy (k := slot) ?_) rfl ?_ ?_ linked
    · simp [hl.cells, hobject]
    · rw [Ledger.destroy, hl.held hobject]
    · intro slot'
      simp only [Ledger.destroy, Function.update_apply]
      split
      · rfl
      · exact hl.cells slot'

/-! ## Steps and runs -/

/-- The next handle is not in use yet. -/
theorem FreshHandles.not_mem_next (h : s.FreshHandles api) :
    ⟨s.world.nextHandle⟩ ∉ s.acquiredTctis := fun hmem =>
  absurd (h.tctis_lt _ hmem) (Nat.lt_irrefl _)

/-- A client that acquires a TCTI context of its own keeps the invariant. -/
theorem Sound.acquireTcti (h : s.Sound api) :
    Sound api { s with
      world := s.world.acquired
      clientTctis := ⟨s.world.nextHandle⟩ :: s.clientTctis } := by
  obtain ⟨hfresh, l, hreach, hl⟩ := h
  refine ⟨⟨List.nodup_cons.mpr ⟨hfresh.not_mem_next, hfresh.tctis_nodup⟩, ?_, hfresh.esys_nodup,
    ?_, hfresh.complete⟩, l, hreach, hl.cells, hl.acquired, hl.teardowns, hl.openings⟩
  · intro t ht
    rcases List.mem_cons.mp ht with rfl | ht
    · exact Nat.lt_succ_self _
    · exact Nat.lt_succ_of_lt (hfresh.tctis_lt t ht)
  · exact fun e he => Nat.lt_succ_of_lt (hfresh.esys_lt e he)

/-- A TCTI context that the client gives away is used nowhere else. -/
theorem Sound.giveTcti (h : s.Sound api) {tcti : TctiContext} (hmem : tcti ∈ s.clientTctis) :
    Sound api { s with clientTctis := s.clientTctis.erase tcti } ∧
      tcti ∉ acquiredTctis { s with clientTctis := s.clientTctis.erase tcti } := by
  obtain ⟨hfresh, l, hreach, hl⟩ := h
  have hperm : s.acquiredTctis.Perm
      (tcti :: acquiredTctis { s with clientTctis := s.clientTctis.erase tcti }) :=
    (List.perm_cons_erase hmem).append_right _
  obtain ⟨hunused, hnodup⟩ := List.nodup_cons.mp (hperm.nodup_iff.mp hfresh.tctis_nodup)
  exact ⟨⟨⟨hnodup, fun t ht => hfresh.tctis_lt t (hperm.mem_iff.mpr (List.mem_cons_of_mem _ ht)),
    hfresh.esys_nodup, hfresh.esys_lt, hfresh.complete⟩, l, hreach, hl.cells, hl.acquired,
    hl.teardowns, hl.openings⟩, hunused⟩

/-- **One step keeps the invariant.** -/
theorem Sound.step (hfinalize : api.finalize.isSome) (h : s.Sound api)
    {tctiApi : TctiLoaderApi σ} {linked : LinkedApi σ} {op : LifecycleOp}
    (hstep : step tctiApi api linked s op = some s') : s'.Sound api := by
  cases op with
  | acquireTcti =>
      obtain rfl := Option.some.inj hstep
      exact h.acquireTcti
  | createFromConfig slot config =>
      exact h.construct hstep (Or.inr rfl)
        (fun context w hrun => createContextFromConfig_value hrun) h.fresh.not_mem_next
        (Nat.lt_succ_self _)
  | createFromOwned slot tcti deleter startup log =>
      simp only [LifecycleState.step] at hstep
      split at hstep
      · next hmem =>
          obtain ⟨hgiven, hunused⟩ := h.giveTcti hmem
          exact hgiven.construct hstep (Or.inl rfl)
            (fun context w hrun => createContextFromOwnedTcti_value hrun) hunused
            (h.fresh.tctis_lt tcti (List.mem_append_left _ hmem))
      · cases hstep
  | moveConstruct target source => exact h.moveConstruct hstep
  | moveAssign target source => exact h.moveAssign hfinalize hstep
  | createPcrProvider slot observer =>
      obtain ⟨context, _, rfl⟩ := Option.map_eq_some_iff.mp hstep
      rw [TpmContext.createPcrProvider_world]
      exact h
  | destroy slot => exact h.destroy hfinalize hstep

/-- **Whole runs keep the invariant.** -/
theorem Sound.run (hfinalize : api.finalize.isSome) {tctiApi : TctiLoaderApi σ}
    {linked : LinkedApi σ} {ops : List LifecycleOp} (h : s.Sound api)
    (hrun : run tctiApi api linked s ops = some s') : s'.Sound api := by
  induction ops generalizing s with
  | nil =>
      obtain rfl := Option.some.inj hrun
      exact h
  | cons op ops ih =>
      simp only [LifecycleState.run, List.foldlM_cons] at hrun
      obtain ⟨next, hnext, hrest⟩ := Option.bind_eq_some_iff.mp hrun
      exact ih (h.step hfinalize hnext) hrest

/-! ## Ownership and teardown -/

/-- Who can own a TCTI context: the client, or a `tpm_context` object. -/
inductive TctiOwner where
  | client
  | object (slot : Nat)

/-- The object in a slot owns an ESYS context. -/
def OwnsEsys (s : LifecycleState σ) (slot : Nat) (esys : EsysContext) : Prop :=
  ∃ impl, s.objects slot = some ⟨some impl⟩ ∧ impl.esys = some esys

/-- An owner owns a TCTI context. -/
def OwnsTcti (s : LifecycleState σ) : TctiOwner → TctiContext → Prop
  | .client, tcti => tcti ∈ s.clientTctis
  | .object slot, tcti => ∃ impl, s.objects slot = some ⟨some impl⟩ ∧ impl.tcti.handle = some tcti

/-- Every handle acquired so far has one owner and was not finalized, or was
finalized once and has none. -/
structure OwnedUntilFinalized (s : LifecycleState σ) : Prop where
  esys : ∀ tcti esys, (tcti, esys) ∈ openings s.world.trace →
    ((∃! slot, s.OwnsEsys slot esys) ∧ (finalizedEsys s.world.trace).count esys = 0) ∨
    ((∀ slot, ¬s.OwnsEsys slot esys) ∧ (finalizedEsys s.world.trace).count esys = 1)
  tcti : ∀ tcti ∈ s.acquiredTctis,
    ((∃! owner, s.OwnsTcti owner tcti) ∧ (deletedTctis s.world.trace).count tcti = 0) ∨
    ((∀ owner, ¬s.OwnsTcti owner tcti) ∧ (deletedTctis s.world.trace).count tcti = 1)

/-- Every handle of every context was finalized once, an ESYS context before the
TCTI context it was initialized on, and one record was logged for each context. -/
structure AllFinalized (s : LifecycleState σ) : Prop where
  esys_once : ∀ tcti esys, (tcti, esys) ∈ openings s.world.trace →
    (finalizedEsys s.world.trace).count esys = 1
  tcti_once : ∀ impl ∈ s.created, ∀ tcti, impl.tcti.handle = some tcti →
    (deletedTctis s.world.trace).count tcti = 1
  esys_first : ∀ tcti esys, (tcti, esys) ∈ openings s.world.trace →
    ∃ deleter, [.esysFinalize esys, .tctiDelete deleter tcti].Sublist s.world.trace
  records : (finalizedLogs s.world.trace).Perm (s.created.map (·.log))

/-- A move from one object to another leaves an object behind that refuses to
create PCR providers. -/
def MovedFromRefuses (tctiApi : TctiLoaderApi σ) (api : EsysApi σ) (linked : LinkedApi σ)
    (s : LifecycleState σ) : Prop :=
  ∀ op target source s', op = .moveConstruct target source ∨
      (op = .moveAssign target source ∧ target ≠ source) →
    step tctiApi api linked s op = some s' →
    ∃ context, s'.objects source = some context ∧ ∀ observer w,
      context.createPcrProvider observer w =
        (.unexpected ⟨.resourceError, "TPM context does not contain a usable backend"⟩, w)

/-- Owning in the ledger is owning among the objects. -/
theorem Mirrors.owns_iff (h : s.Mirrors l) {slot : Nat} {impl : Impl σ} :
    l.Owns slot impl ↔ s.objects slot = some ⟨some impl⟩ := by
  rw [Ledger.Owns, h.cells]
  rcases s.objects slot with _ | ⟨_ | impl'⟩ <;> simp

/-- A view of the closing events of a trace lists what it shows of the
implementations disposed of. -/
theorem Mirrors.filterMap_trace {β : Type} (h : s.Mirrors l) {f : Event → Option β}
    (hf : ∀ event, isTeardown event = false → f event = none) {g : Impl σ → Option β}
    (hg : ∀ impl ∈ l.disposed, impl.teardown.filterMap f = (g impl).toList) :
    s.world.trace.filterMap f = l.disposed.filterMap g := by
  have hview : s.world.trace.filterMap f = (Tpmkit.teardowns s.world.trace).filterMap f := by
    rw [Tpmkit.teardowns, List.filterMap_filter]
    refine List.filterMap_congr fun event _ => ?_
    cases hevent : isTeardown event with
    | false => simp [hf event hevent]
    | true => simp
  rw [hview, h.teardowns, List.filterMap_flatMap, List.filterMap_eq_flatMap_toList]
  exact List.flatMap_congr hg

/-- The ESYS contexts finalized are those of the implementation objects disposed of, in this
order. -/
theorem Mirrors.finalizedEsys (h : s.Mirrors l) :
    Tpmkit.finalizedEsys s.world.trace = l.disposed.filterMap (·.esys) := by
  refine h.filterMap_trace (fun event hevent => ?_) fun impl _ => ?_
  · cases event <;> simp_all [isTeardown]
  · obtain ⟨⟨_ | tcti, _ | deleter⟩, _ | esys, log, api⟩ := impl <;> rfl

/-- So are the loggers that were told. -/
theorem Mirrors.finalizedLogs (h : s.Mirrors l) :
    Tpmkit.finalizedLogs s.world.trace = l.disposed.map (·.log) := by
  rw [← List.filterMap_eq_map]
  refine h.filterMap_trace (fun event hevent => ?_) fun impl _ => ?_
  · cases event <;> simp_all [isTeardown]
  · obtain ⟨⟨_ | tcti, _ | deleter⟩, _ | esys, log, api⟩ := impl <;> rfl

/-- So are the TCTI contexts, provided that each object disposed of was complete. -/
theorem Mirrors.deletedTctis (h : s.Mirrors l) (hcomplete : ∀ impl ∈ l.disposed, impl.Complete api) :
    Tpmkit.deletedTctis s.world.trace = l.disposed.filterMap (·.tcti.handle) := by
  refine h.filterMap_trace (fun event hevent => ?_) fun impl himpl => ?_
  · cases event <;> simp_all [isTeardown]
  · obtain ⟨_, tcti, deleter, htcti⟩ := hcomplete impl himpl
    obtain ⟨_, _ | esys, log, api⟩ := impl <;> cases htcti <;> rfl

/-- An ESYS context that was initialized belongs to an implementation. -/
theorem Mirrors.mem_openings (h : s.Mirrors l) {tcti : TctiContext} {esys : EsysContext} :
    (tcti, esys) ∈ Tpmkit.openings s.world.trace ↔
      ∃ impl ∈ s.created, impl.tcti.handle = some tcti ∧ impl.esys = some esys := by
  rw [h.openings, List.mem_filterMap]
  refine exists_congr fun impl => and_congr_right fun _ => ?_
  simp [Impl.opening, Option.bind_eq_some_iff]

/-- The implementations that objects hold, and those disposed of, were created. -/
theorem Mirrors.mem_created (h : s.Mirrors l) (hbalanced : l.Balanced) {impl : Impl σ} :
    impl ∈ s.created ↔ (∃ slot, s.objects slot = some ⟨some impl⟩) ∨ impl ∈ l.disposed := by
  rw [← h.acquired, hbalanced.accounted]
  simp only [h.owns_iff]

/-- What was disposed of was complete. -/
theorem Mirrors.disposed_complete (h : s.Mirrors l) (hbalanced : l.Balanced)
    (hfresh : s.FreshHandles api) : ∀ impl ∈ l.disposed, impl.Complete api := by
  intro impl himpl
  exact hfresh.complete impl ((h.mem_created hbalanced).mpr (Or.inr himpl))

/-- An ESYS context has one owner and is not finalized, or none and is finalized once. -/
theorem Sound.esys_owned (h : s.Sound api) {tcti : TctiContext} {esys : EsysContext}
    (hopened : (tcti, esys) ∈ openings s.world.trace) :
    ((∃! slot, s.OwnsEsys slot esys) ∧ (finalizedEsys s.world.trace).count esys = 0) ∨
    ((∀ slot, ¬s.OwnsEsys slot esys) ∧ (finalizedEsys s.world.trace).count esys = 1) := by
  obtain ⟨hfresh, l, hreach, hl⟩ := h
  obtain ⟨impl, himpl, _, hesys⟩ := hl.mem_openings.mp hopened
  have howned := (Ledger.Balanced.of_run hreach).handle_owned_or_disposed (·.esys)
    (hl.acquired ▸ hfresh.esys_nodup)
    (List.mem_filterMap.mpr ⟨impl, hl.acquired ▸ himpl, hesys⟩)
  simpa only [hl.owns_iff, hl.finalizedEsys, OwnsEsys, not_exists, not_and] using howned

/-- The client's own TCTI contexts are its alone, and go to no finalizer. -/
theorem Sound.client_tcti_owned (h : s.Sound api) {tcti : TctiContext}
    (htcti : tcti ∈ s.clientTctis) :
    (∃! owner, s.OwnsTcti owner tcti) ∧ (deletedTctis s.world.trace).count tcti = 0 := by
  obtain ⟨hfresh, l, hreach, hl⟩ := h
  have hbalanced := Ledger.Balanced.of_run hreach
  have hcomplete := hl.disposed_complete hbalanced hfresh
  have hunused : ∀ impl ∈ s.created, impl.tcti.handle ≠ some tcti := fun impl himpl heq =>
    (List.nodup_append.mp hfresh.tctis_nodup).2.2 tcti htcti tcti
      (List.mem_filterMap.mpr ⟨impl, himpl, heq⟩) rfl
  refine ⟨⟨.client, htcti, fun owner howner => ?_⟩, ?_⟩
  · cases owner with
    | client => rfl
    | object slot =>
        obtain ⟨impl, hobject, hhandle⟩ := howner
        exact absurd hhandle (hunused impl ((hl.mem_created hbalanced).mpr (Or.inl ⟨slot, hobject⟩)))
  · rw [hl.deletedTctis hcomplete, List.count_eq_zero]
    intro hmem
    obtain ⟨impl, himpl, hhandle⟩ := List.mem_filterMap.mp hmem
    exact hunused impl ((hl.mem_created hbalanced).mpr (Or.inr himpl)) hhandle

/-- The TCTI context of an implementation is held by one object, or went to its
finalizer once. -/
theorem Sound.impl_tcti_owned (h : s.Sound api) {impl : Impl σ} (himpl : impl ∈ s.created)
    {tcti : TctiContext} (htcti : impl.tcti.handle = some tcti) :
    ((∃! owner, s.OwnsTcti owner tcti) ∧ (deletedTctis s.world.trace).count tcti = 0) ∨
    ((∀ owner, ¬s.OwnsTcti owner tcti) ∧ (deletedTctis s.world.trace).count tcti = 1) := by
  obtain ⟨hfresh, l, hreach, hl⟩ := h
  have hbalanced := Ledger.Balanced.of_run hreach
  have hcomplete := hl.disposed_complete hbalanced hfresh
  obtain ⟨_, hnodup, hdisjoint⟩ := List.nodup_append.mp hfresh.tctis_nodup
  have hmem : tcti ∈ s.created.filterMap (·.tcti.handle) :=
    List.mem_filterMap.mpr ⟨impl, himpl, htcti⟩
  have hnotClient : ¬s.OwnsTcti .client tcti := fun hclient => hdisjoint tcti hclient tcti hmem rfl
  rw [hl.deletedTctis hcomplete]
  rcases hbalanced.handle_owned_or_disposed (·.tcti.handle) (hl.acquired ▸ hnodup)
    (hl.acquired ▸ hmem) with ⟨⟨slot, ⟨impl', howns, hhandle⟩, hunique⟩, hcount⟩ | ⟨hnone, hcount⟩
  · refine Or.inl ⟨⟨.object slot, ⟨impl', hl.owns_iff.mp howns, hhandle⟩, fun owner howner => ?_⟩,
      hcount⟩
    cases owner with
    | client => exact absurd howner hnotClient
    | object slot' =>
        obtain ⟨other, hobject, hother⟩ := howner
        exact congrArg _ (hunique slot' ⟨other, hl.owns_iff.mpr hobject, hother⟩)
  · refine Or.inr ⟨fun owner howner => ?_, hcount⟩
    cases owner with
    | client => exact hnotClient howner
    | object slot =>
        obtain ⟨other, hobject, hother⟩ := howner
        exact hnone slot other (hl.owns_iff.mpr hobject) hother

/-- The invariant says what is to be shown of every handle. -/
theorem Sound.ownedUntilFinalized (h : s.Sound api) : s.OwnedUntilFinalized where
  esys _ _ hopened := h.esys_owned hopened
  tcti tcti htcti := by
    rcases List.mem_append.mp htcti with hclient | hcreated
    · exact Or.inl (h.client_tcti_owned hclient)
    · obtain ⟨impl, himpl, hhandle⟩ := List.mem_filterMap.mp hcreated
      exact h.impl_tcti_owned himpl hhandle

/-- **Teardown.**  Once every object is gone, everything was finalized in order. -/
theorem Sound.allFinalized (h : s.Sound api) (hdestroyed : ∀ slot, s.objects slot = none) :
    s.AllFinalized := by
  obtain ⟨hfresh, l, hreach, hl⟩ := h
  have hbalanced := Ledger.Balanced.of_run hreach
  have hperm : l.disposed.Perm s.created := hl.acquired ▸
    hbalanced.disposed_perm fun slot impl howns => by
      simp [hl.owns_iff, hdestroyed] at howns
  have hcomplete := hl.disposed_complete hbalanced hfresh
  constructor
  · intro tcti esys hopened
    obtain ⟨impl, himpl, _, hesys⟩ := hl.mem_openings.mp hopened
    rw [hl.finalizedEsys, (hperm.filterMap _).count_eq]
    exact List.count_eq_one_of_mem hfresh.esys_nodup (List.mem_filterMap.mpr ⟨impl, himpl, hesys⟩)
  · intro impl himpl tcti htcti
    rw [hl.deletedTctis hcomplete, (hperm.filterMap _).count_eq]
    exact List.count_eq_one_of_mem (List.nodup_append.mp hfresh.tctis_nodup).2.1
      (List.mem_filterMap.mpr ⟨impl, himpl, htcti⟩)
  · intro tcti esys hopened
    obtain ⟨impl, himpl, htcti, hesys⟩ := hl.mem_openings.mp hopened
    obtain ⟨_, tcti', deleter, hunique⟩ := hfresh.complete impl himpl
    obtain rfl : tcti' = tcti := by simpa [hunique] using htcti
    have hclosed : [.esysFinalize esys, .tctiDelete deleter tcti'].Sublist impl.teardown := by
      simp [Impl.teardown, hesys, hunique]
    have hdisposed : impl.teardown.Sublist (teardowns s.world.trace) := by
      rw [hl.teardowns, List.flatMap_def]
      exact List.sublist_flatten_of_mem (List.mem_map_of_mem (hperm.mem_iff.mpr himpl))
    exact ⟨deleter, (hclosed.trans hdisposed).trans List.filter_sublist⟩
  · rw [hl.finalizedLogs]
    exact hperm.map _

/-- An object without an implementation creates no provider, and every move leaves such a
source. -/
theorem movedFromRefuses (tctiApi : TctiLoaderApi σ) (api : EsysApi σ) (linked : LinkedApi σ)
    (s : LifecycleState σ) : s.MovedFromRefuses tctiApi api linked := by
  intro op target source s' hop hstep
  suffices hempty : s'.objects source = some ⟨none⟩ from ⟨⟨none⟩, hempty, fun _ _ => rfl⟩
  rcases hop with rfl | ⟨rfl, hne⟩
  · simp only [step, LifecycleState.moveConstruct] at hstep
    split at hstep
    · next context htarget hsource =>
        have hne : source ≠ target := fun h => by simp [h, htarget] at hsource
        obtain rfl := Option.some.inj hstep
        simp [Function.update_of_ne hne]
    · cases hstep
  · simp only [step, LifecycleState.moveAssign] at hstep
    split at hstep
    · obtain rfl := Option.some.inj hstep
      simp [Function.update_of_ne hne.symm]
    · cases hstep

end LifecycleState

/-- A context is moved into a new object, which is assigned over another one; that one is
assigned to itself before all three objects go. -/
def reassignedRun : List LifecycleOp :=
  [.acquireTcti, .createFromOwned 0 ⟨0⟩ (.client 5) .clear none,
   .createFromConfig 1 ⟨ascii "swtpm:x", .skip, some (.client 3)⟩, .moveConstruct 2 1,
   .createPcrProvider 2 none, .moveAssign 0 2, .moveAssign 0 0, .createPcrProvider 1 none,
   .destroy 1, .destroy 2, .destroy 0]

end Tpmkit
