import Tpmkit.CallSeries
import Tpmkit.LendingLedger
import Tpmkit.ProviderExchange

/-!
# Response buffers

ESYS allocates the structures that `pcr_event` and `pcr_read` answer with, and the
provider gives each of them back to `Esys_Free`.  To watch it do so, any function
table can be metered: the metered table answers what the table answers, and keeps a
ledger of the structures beside the state of the backend.

A provider cannot tell a metered table from the table (`perform_projects`), and
after every run of operations the ledger is settled: each structure was freed once,
none was freed that was not out, and no command was sent while one was.
-/

namespace Tpmkit

open Checked LendingLedger Pcr

variable {σ τ : Type} {build : BuildOptions}

/-! ## Backends that look alike -/

/-- A backend with more to its state: seen through `view`, it answers and changes like
the other one. -/
structure EsysApi.Projects (view : τ → σ) (richer : EsysApi τ) (api : EsysApi σ) : Prop where
  respond_eq : ∀ request b, api.respond request (view b) =
    ((richer.respond request b).1, view (richer.respond request b).2)
  free_eq : ∀ buffer b, api.free buffer (view b) = view (richer.free buffer b)
  decodeError_eq : api.decodeError = richer.decodeError

/-- The world with less of its backend. -/
def World.project (view : τ → σ) (w : World τ) : World σ := ⟨view w.backend, w.nextHandle, w.trace⟩

/-- The provider over another table. -/
def EsysPcrProvider.over (provider : EsysPcrProvider σ) (api : EsysApi τ) : EsysPcrProvider τ :=
  ⟨api, provider.esys, provider.log, provider.observer⟩

namespace EsysApi.Projects

variable {view : τ → σ} {richer : EsysApi τ} {api : EsysApi σ}

/-- A richer backend frees as the plain one does. -/
theorem freed_eq {ρ : Type} (h : Projects view richer api) (buffer : ResponseBuffer)
    (pointer : Option ρ) (b : τ) :
    api.freed buffer pointer (view b) = view (richer.freed buffer pointer b) := by
  cases pointer with
  | none => rfl
  | some t => exact h.free_eq buffer b

/-- It disposes of responses as the plain one does. -/
theorem dispose_eq (h : Projects view richer api) (response : Response) (b : τ) :
    api.dispose response (view b) = view (richer.dispose response b) := by
  cases response with
  | event answer => exact h.freed_eq ..
  | read answer => simp only [EsysApi.dispose, h.freed_eq]
  | allocate answer => rfl
  | status rc => rfl

/-- The same calls are answered in the same way. -/
theorem exchange_eq (h : Projects view richer api) (call : Call) (rest : List Call) (b : τ) :
    (api.exchange call rest (view b)).earlier = (richer.exchange call rest b).earlier ∧
      (api.exchange call rest (view b)).last = (richer.exchange call rest b).last ∧
      (api.exchange call rest (view b)).backend = view (richer.exchange call rest b).backend := by
  induction rest generalizing call b with
  | nil => simp [EsysApi.exchange, h.respond_eq]
  | cons next rest ih =>
      obtain ⟨hearlier, hlast, hbackend⟩ := ih next (richer.respond call.request b).2
      by_cases hrc : (richer.respond call.request b).1.rc = tss2RcSuccess
      · simp [EsysApi.exchange, h.respond_eq, hrc, hearlier, hlast, hbackend]
      · simp [EsysApi.exchange, h.respond_eq, hrc]

/-- **A provider sees no more than the view.** -/
theorem perform_projects (provider : EsysPcrProvider σ) {richer : EsysApi τ}
    (h : Projects view richer provider.api) (op : ProviderOp build) (w : World τ) :
    provider.perform op (w.project view) =
      (((provider.over richer).perform op w).1,
        ((provider.over richer).perform op w).2.project view) := by
  have hprepare : (provider.over richer).prepare op = provider.prepare op := by
    cases op <;> rfl
  rw [EsysPcrProvider.perform_eq, EsysPcrProvider.perform_eq, hprepare]
  rcases provider.prepare op with prepared | e | f
  · obtain ⟨hearlier, hlast, hbackend⟩ := h.exchange_eq prepared.1 prepared.2 w.backend
    have hannounce : ∀ last, provider.announce op last = (provider.over richer).announce op last := by
      intro last
      simp only [EsysPcrProvider.announce, EsysPcrProvider.tssErrorEvents, h.decodeError_eq]
      rfl
    simp only [Program.bind_apply, Program.lift_apply, Program.resume_value,
      EsysPcrProvider.carryOut, World.project, World.after, Exchange.calls, hearlier, hlast, hbackend,
      h.dispose_eq, hannounce]
    rfl
  · rfl
  · rfl

end EsysApi.Projects

/-! ## Metered backends -/

/-- The structures that a response holds, in the order of its out parameters. -/
def Response.buffers : Response → List ResponseBuffer
  | .event answer => answer.digests.toList.map fun _ => .eventDigests
  | .read answer =>
      (answer.pcrSelectionOut.toList.map fun _ => .readSelection) ++
        answer.pcrValues.toList.map fun _ => .readValues
  | _ => []

/-- The same structures, in the order in which they are freed. -/
def Response.freed : Response → List ResponseBuffer
  | .event answer => answer.digests.toList.map fun _ => .eventDigests
  | .read answer =>
      (answer.pcrValues.toList.map fun _ => .readValues) ++
        answer.pcrSelectionOut.toList.map fun _ => .readSelection
  | _ => []

/-- What is freed of a response is what it brought, each buffer once. -/
theorem Response.freed_perm (response : Response) : response.freed.Perm response.buffers := by
  cases response with
  | read answer => exact List.perm_append_comm
  | event answer => exact .refl _
  | allocate answer => exact .refl _
  | status rc => exact .refl _

/-- A backend beside the ledger of its structures. -/
abbrev Metered (σ : Type) : Type := σ × Ledger ResponseBuffer

/-- A call of a metered table: a round begins, and what the answer holds is lent. -/
def meter {ρ : Type} (answer : σ → ρ × σ) (buffers : ρ → List ResponseBuffer) (b : Metered σ) :
    ρ × Metered σ :=
  ((answer b.1).1, (answer b.1).2, b.2.beginRound.lend (buffers (answer b.1).1))

/-- The table, metered. -/
def EsysApi.metered (api : EsysApi σ) : EsysApi (Metered σ) where
  esysInitialize tcti version := meter (api.esysInitialize tcti version) fun _ => []
  finalize := api.finalize.map fun finalize context b => (finalize context b.1, b.2)
  free buffer b := (api.free buffer b.1, b.2.takeBack buffer)
  pcrAllocate esys auth h₁ h₂ h₃ allocation :=
    meter (api.pcrAllocate esys auth h₁ h₂ h₃ allocation) fun _ => []
  pcrEvent esys pcr h₁ h₂ h₃ eventData :=
    meter (api.pcrEvent esys pcr h₁ h₂ h₃ eventData) fun answer => (Response.event answer).buffers
  pcrExtend esys pcr h₁ h₂ h₃ digests :=
    meter (api.pcrExtend esys pcr h₁ h₂ h₃ digests) fun _ => []
  pcrRead esys h₁ h₂ h₃ selection :=
    meter (api.pcrRead esys h₁ h₂ h₃ selection) fun answer => (Response.read answer).buffers
  pcrReset esys pcr h₁ h₂ h₃ := meter (api.pcrReset esys pcr h₁ h₂ h₃) fun _ => []
  pcrSetAuthPolicy esys auth h₁ h₂ h₃ policy alg pcr :=
    meter (api.pcrSetAuthPolicy esys auth h₁ h₂ h₃ policy alg pcr) fun _ => []
  pcrSetAuthValue esys pcr h₁ h₂ h₃ auth :=
    meter (api.pcrSetAuthValue esys pcr h₁ h₂ h₃ auth) fun _ => []
  startup esys startupType := meter (api.startup esys startupType) fun _ => []
  trSetAuth esys handle auth := meter (api.trSetAuth esys handle auth) fun _ => []
  decodeError := api.decodeError

namespace EsysApi

variable (api : EsysApi σ)

/-- A metered table answers like the table, and lends what the answer holds. -/
theorem respond_metered (request : EsysRequest) (b : Metered σ) :
    api.metered.respond request b = ((api.respond request b.1).1, (api.respond request b.1).2,
      b.2.beginRound.lend (api.respond request b.1).1.buffers) := by
  cases request <;> rfl

/-- Without its ledger the metered backend is the plain one. -/
theorem projects_metered : Projects Prod.fst api.metered api where
  respond_eq request b := by rw [respond_metered]
  free_eq _ _ := rfl
  decodeError_eq := rfl

/-- Freeing through a pointer takes the buffer back; a null pointer frees nothing. -/
theorem freed_metered {ρ : Type} (buffer : ResponseBuffer) (pointer : Option ρ) (b : Metered σ) :
    (api.metered.freed buffer pointer b).2 =
      b.2.takeBackAll (pointer.toList.map fun _ => buffer) := by
  cases pointer <;> rfl

/-- The structures of a response are freed, whatever its code. -/
theorem dispose_metered (response : Response) (b : Metered σ) :
    (api.metered.dispose response b).2 = b.2.takeBackAll response.freed := by
  cases response with
  | event answer => exact api.freed_metered ..
  | read answer =>
      simp only [dispose, freed_metered, Response.freed, Ledger.takeBackAll, List.foldl_append]
  | allocate answer => rfl
  | status rc => rfl

end EsysApi

/-! ## Operations on a metered backend -/

/-- The requests that are answered with a structure. -/
def EsysRequest.lends : EsysRequest → Bool
  | .pcrEvent .. => true
  | .pcrRead .. => true
  | _ => false

/-- Requests that are answered with a code alone bring no buffer. -/
theorem EsysApi.buffers_respond (api : EsysApi σ) {request : EsysRequest}
    (h : request.lends = false) (b : σ) : (api.respond request b).1.buffers = [] := by
  cases request with
  | pcrEvent => cases h
  | pcrRead => cases h
  | _ => rfl

/-- An operation makes one call, or calls that are answered without a structure. -/
theorem EsysPcrProvider.lends_of_prepare {provider : EsysPcrProvider σ} {op : ProviderOp build}
    {prepared : Call × List Call} (h : provider.prepare op = .value prepared) :
    prepared.2 = [] ∨ ∀ call ∈ prepared.1 :: prepared.2, call.request.lends = false := by
  cases op with
  | setAuthValue index auth =>
      obtain ⟨_, _, h⟩ := Result.bind_eq_value.mp h
      obtain ⟨_, _, h⟩ := Result.bind_eq_value.mp h
      obtain ⟨_, _, h⟩ := Result.bind_eq_value.mp h
      obtain ⟨_, _, h⟩ := Result.bind_eq_value.mp h
      cases h
      exact Or.inr (by simp [EsysRequest.lends])
  | read selection =>
      obtain ⟨_, _, h⟩ := Result.bind_eq_value.mp h
      obtain ⟨_, _, h⟩ := Result.bind_eq_value.mp h
      cases h
      exact Or.inl rfl
  | reset index =>
      obtain ⟨_, _, h⟩ := Result.bind_eq_value.mp h
      cases h
      exact Or.inl rfl
  | _ =>
      obtain ⟨_, _, h⟩ := Result.bind_eq_value.mp h
      obtain ⟨_, _, h⟩ := Result.bind_eq_value.mp h
      obtain ⟨_, _, h⟩ := Result.bind_eq_value.mp h
      cases h
      exact Or.inl rfl

/-- Of the calls of an operation, only the last one leaves structures out. -/
theorem EsysApi.exchange_metered (api : EsysApi σ) {call : Call} {rest : List Call}
    (h : rest = [] ∨ ∀ c ∈ call :: rest, c.request.lends = false) {b : Metered σ}
    (hb : b.2.Settled) :
    (api.metered.exchange call rest b).backend.2 =
      b.2.lend (api.metered.exchange call rest b).last.2.buffers := by
  induction rest generalizing call b with
  | nil => simp [exchange, respond_metered, hb.beginRound_eq]
  | cons next rest ih =>
      have hnone : ∀ c ∈ call :: next :: rest, c.request.lends = false :=
        h.resolve_left (List.cons_ne_nil next rest)
      have hcall : (api.respond call.request b.1).1.buffers = [] :=
        api.buffers_respond (hnone call List.mem_cons_self) b.1
      have hafter : (api.metered.respond call.request b).2.2 = b.2 := by
        rw [respond_metered, hcall, Ledger.lend_nil, hb.beginRound_eq]
      have hsettled : (api.metered.respond call.request b).2.2.Settled := hafter.symm ▸ hb
      have hlater := ih (Or.inr fun c hc => hnone c (List.mem_cons_of_mem _ hc)) hsettled
      rw [hafter] at hlater
      by_cases hrc : (api.metered.respond call.request b).1.rc = tss2RcSuccess
      · simpa [exchange, hrc] using hlater
      · have hbuffers : (api.metered.respond call.request b).1.buffers = [] := by
          rw [respond_metered, hcall]
        simp [exchange, hrc, hafter, hbuffers]

/-- The structures that are freed among some events, in order. -/
def freedBuffers (events : List Event) : List ResponseBuffer :=
  events.filterMap fun
    | .esysFree buffer => some buffer
    | _ => none

/-- The buffers freed in two parts are those of the one and then those of the other. -/
theorem freedBuffers_append (events events' : List Event) :
    freedBuffers (events ++ events') = freedBuffers events ++ freedBuffers events' :=
  List.filterMap_append

/-- Of a response exactly its buffers are freed. -/
theorem freedBuffers_freeEvents (response : Response) :
    freedBuffers response.freeEvents = response.freed := by
  have hpointer : ∀ {ρ : Type} (buffer : ResponseBuffer) (pointer : Option ρ),
      freedBuffers (EsysApi.freeEvents buffer pointer) = pointer.toList.map fun _ => buffer := by
    intro ρ buffer pointer
    cases pointer <;> rfl
  cases response with
  | event answer => exact hpointer ..
  | read answer =>
      rw [Response.freeEvents, freedBuffers_append, hpointer, hpointer]
      rfl
  | allocate answer => rfl
  | status rc => rfl

/-- A call frees nothing itself. -/
theorem freedBuffers_calls (calls : List AnsweredCall) :
    freedBuffers (calls.map AnsweredCall.event) = [] := by
  refine List.filterMap_eq_nil_iff.mpr fun e he => ?_
  obtain ⟨request, rc, rfl⟩ := AnsweredCall.exists_of_mem_events he
  rfl

/-- Nothing is freed while the logger and the observer are told. -/
theorem freedBuffers_announce (provider : EsysPcrProvider σ) (op : ProviderOp build)
    (last : AnsweredCall) : freedBuffers (provider.announce op last) = [] := by
  by_cases hrc : last.2.rc = tss2RcSuccess
  · rw [provider.announce_success op hrc]
    rcases EsysPcrProvider.conclude op last.2 with value | e | f
    · cases op <;> cases value <;> cases hobserver : provider.observer <;>
        simp [EsysPcrProvider.completedEvents, EsysPcrProvider.notifyEvents, freedBuffers,
          Logger.events, hobserver]
    · rfl
    · rfl
  · rw [provider.announce_failure op hrc]
    exact filterMap_failureEvents (fun _ _ => rfl) ..

/-- **An operation settles its account**, and what it frees is seen. -/
theorem perform_metered (provider : EsysPcrProvider σ) (op : ProviderOp build)
    {w : World (Metered σ)} (hw : w.backend.2.Settled) :
    let after := ((provider.over provider.api.metered).perform op w).2
    after.backend.2.Settled ∧ ∃ freed, freedBuffers after.trace = freedBuffers w.trace ++ freed ∧
      after.backend.2.returned = w.backend.2.returned ++ freed := by
  intro after
  rcases (provider.over provider.api.metered).perform_cases op with
    ⟨prepared, hprepare, hperform⟩ | ⟨_, hperform⟩
  · have hexchange := provider.api.exchange_metered
      (EsysPcrProvider.lends_of_prepare hprepare) hw
    obtain ⟨x, hx⟩ : ∃ x, provider.api.metered.exchange prepared.1 prepared.2 w.backend = x :=
      ⟨_, rfl⟩
    rw [hx] at hexchange
    have hworld : after = w.after (provider.api.metered.dispose x.last.2 x.backend)
        (x.calls.map AnsweredCall.event ++
          (provider.over provider.api.metered).announce op x.last ++ x.last.2.freeEvents) := by
      simp only [after, hperform, ← hx]
      rfl
    have hledger : after.backend.2 =
        (w.backend.2.lend x.last.2.buffers).takeBackAll x.last.2.freed := by
      rw [hworld, World.after_backend, EsysApi.dispose_metered, hexchange]
    refine ⟨hledger ▸ hw.takeBackAll x.last.2.freed_perm, x.last.2.freed, ?_, ?_⟩
    · rw [hworld, World.after_trace, freedBuffers_append, freedBuffers_append, freedBuffers_append,
        freedBuffers_calls, freedBuffers_announce, freedBuffers_freeEvents]
      rfl
    · rw [hledger, Ledger.returned_takeBackAll]
      rfl
  · have hafter : after = w := congrArg Prod.snd (hperform w)
    exact ⟨hafter ▸ hw, [], by rw [hafter, List.append_nil], by rw [hafter, List.append_nil]⟩

/-! ## Whole runs -/

/-- A metered run since `w` beside the run: the ledger is settled, and what came back is
what was freed. -/
structure Meters (w : World σ) (metered : World (Metered σ)) (plain : World σ) : Prop where
  view_eq : metered.project Prod.fst = plain
  settled : metered.backend.2.Settled
  freed_eq : freedBuffers metered.trace = freedBuffers w.trace ++ metered.backend.2.returned

/-- **Every response structure is freed once.**  Over any backend, whatever codes,
structures and null pointers it answers with: a run over the metered backend is the run,
and when it ends the ledger is settled, with what was freed in the run as what came back. -/
theorem response_buffers_freed_once (provider : EsysPcrProvider σ) (ops : List (ProviderOp build))
    (w : World σ) :
    let run := Program.series provider.perform ops w
    let meteredRun := Program.series (provider.over provider.api.metered).perform ops
      ⟨(w.backend, Ledger.new), w.nextHandle, w.trace⟩
    meteredRun.1 = run.1 ∧ meteredRun.2.project Prod.fst = run.2 ∧
      meteredRun.2.backend.2.Settled ∧
      freedBuffers run.2.trace = freedBuffers w.trace ++ meteredRun.2.backend.2.returned := by
  intro run meteredRun
  have hstep : ∀ (op : ProviderOp build) (w₁ : World (Metered σ)) (w₂ : World σ),
      Meters w w₁ w₂ →
        Meters w ((provider.over provider.api.metered).perform op w₁).2 (provider.perform op w₂).2 ∧
          (provider.perform op w₂).1 = ((provider.over provider.api.metered).perform op w₁).1 := by
    intro op w₁ w₂ hmeters
    have hperform := EsysApi.Projects.perform_projects provider provider.api.projects_metered op w₁
    rw [hmeters.view_eq] at hperform
    obtain ⟨hsettled, freed, htrace, hreturned⟩ := perform_metered provider op hmeters.settled
    refine ⟨⟨by rw [hperform], hsettled, ?_⟩, by rw [hperform]⟩
    rw [htrace, hmeters.freed_eq, hreturned, List.append_assoc]
  have hstart : Meters w ⟨(w.backend, Ledger.new), w.nextHandle, w.trace⟩ w :=
    ⟨rfl, Ledger.settled_new, (List.append_nil _).symm⟩
  obtain ⟨hmeters, hresults⟩ := Program.series_simulates hstep ops hstart
  have htrace : run.2.trace = meteredRun.2.trace := congrArg World.trace hmeters.view_eq.symm
  exact ⟨hresults.symm, hmeters.view_eq, hmeters.settled, htrace ▸ hmeters.freed_eq⟩

end Tpmkit
