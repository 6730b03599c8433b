import Tpmkit.CallSeries
import Tpmkit.ProviderRuns

/-!
# Operations as exchanges

An abstract description of the seven operations of the PCR provider.  An
operation prepares its requests from its arguments, exchanges them with the
backend until one is answered with a code other than success, draws its result
from the responses, and tells the logger and the observer about it.

`perform_eq` connects the description with the operations: each of them, for
all arguments, every provider and every world, is its exchange.  What a run of
the provider depends on can then be read off pure functions.
-/

namespace Tpmkit

open Checked ByteStrings Pcr

/-! ## Requests and responses -/

/-- What the backend answers to a request. -/
inductive Response where
  | allocate (answer : AllocateAnswer)
  | event (answer : EventAnswer)
  | read (answer : ReadAnswer)
  | status (rc : TssRc)

namespace Response

/-- The return code of a response. -/
def rc : Response → TssRc
  | allocate answer => answer.rc
  | event answer => answer.rc
  | read answer => answer.rc
  | status rc => rc

/-- The buffers of a response that are freed, in order. -/
def freeEvents : Response → List Event
  | event answer => EsysApi.freeEvents .eventDigests answer.digests
  | read answer =>
      EsysApi.freeEvents .readValues answer.pcrValues ++
        EsysApi.freeEvents .readSelection answer.pcrSelectionOut
  | _ => []

/-- Freeing them shows nothing else. -/
theorem exists_of_mem_freeEvents {response : Response} {e : Event}
    (he : e ∈ response.freeEvents) : ∃ buffer, e = .esysFree buffer := by
  cases response with
  | event answer => exact ⟨_, EsysApi.eq_of_mem_freeEvents he⟩
  | read answer =>
      rcases List.mem_append.mp he with hvalues | hselection
      · exact ⟨_, EsysApi.eq_of_mem_freeEvents hvalues⟩
      · exact ⟨_, EsysApi.eq_of_mem_freeEvents hselection⟩
  | allocate answer => cases he
  | status rc => cases he

/-- Freeing a response logs nothing. -/
theorem records_freeEvents (response : Response) : records response.freeEvents = [] := by
  refine List.filterMap_eq_nil_iff.mpr fun e he => ?_
  obtain ⟨buffer, rfl⟩ := exists_of_mem_freeEvents he
  rfl

end Response

namespace EsysApi

variable {σ : Type} (api : EsysApi σ)

/-- The entry of the table that a request is a call of. -/
def respond : EsysRequest → σ → Response × σ
  | .pcrAllocate esys authHandle shandle1 shandle2 shandle3 allocation, b =>
      let run := api.pcrAllocate esys authHandle shandle1 shandle2 shandle3 allocation b
      (.allocate run.1, run.2)
  | .pcrEvent esys pcrHandle shandle1 shandle2 shandle3 eventData, b =>
      let run := api.pcrEvent esys pcrHandle shandle1 shandle2 shandle3 eventData b
      (.event run.1, run.2)
  | .pcrExtend esys pcrHandle shandle1 shandle2 shandle3 digests, b =>
      let run := api.pcrExtend esys pcrHandle shandle1 shandle2 shandle3 digests b
      (.status run.1, run.2)
  | .pcrRead esys shandle1 shandle2 shandle3 pcrSelectionIn, b =>
      let run := api.pcrRead esys shandle1 shandle2 shandle3 pcrSelectionIn b
      (.read run.1, run.2)
  | .pcrReset esys pcrHandle shandle1 shandle2 shandle3, b =>
      let run := api.pcrReset esys pcrHandle shandle1 shandle2 shandle3 b
      (.status run.1, run.2)
  | .pcrSetAuthPolicy esys authHandle shandle1 shandle2 shandle3 authPolicy hashAlg pcrNum, b =>
      let run := api.pcrSetAuthPolicy esys authHandle shandle1 shandle2 shandle3 authPolicy
        hashAlg pcrNum b
      (.status run.1, run.2)
  | .pcrSetAuthValue esys pcrHandle shandle1 shandle2 shandle3 auth, b =>
      let run := api.pcrSetAuthValue esys pcrHandle shandle1 shandle2 shandle3 auth b
      (.status run.1, run.2)
  | .startup esys startupType, b =>
      let run := api.startup esys startupType b
      (.status run.1, run.2)
  | .trSetAuth esys handle authValue, b =>
      let run := api.trSetAuth esys handle authValue b
      (.status run.1, run.2)

/-- The backend after the buffers of a response were freed. -/
def dispose : Response → σ → σ
  | .event answer, b => api.freed .eventDigests answer.digests b
  | .read answer, b =>
      api.freed .readSelection answer.pcrSelectionOut (api.freed .readValues answer.pcrValues b)
  | _, b => b

end EsysApi

/-- A request, with the name under which its failure is logged. -/
structure Call where
  request : EsysRequest
  operation : ByteString

/-- A call and what was answered. -/
abbrev AnsweredCall : Type := Call × Response

/-- What is seen of an answered call. -/
def AnsweredCall.event (answered : AnsweredCall) : Event :=
  .esys answered.1.request answered.2.rc

/-- The events of an exchange are calls. -/
theorem AnsweredCall.exists_of_mem_events {calls : List AnsweredCall} {e : Event}
    (he : e ∈ calls.map AnsweredCall.event) : ∃ request rc, e = .esys request rc := by
  obtain ⟨answered, _, rfl⟩ := List.mem_map.mp he
  exact ⟨answered.1.request, answered.2.rc, rfl⟩

/-- Nothing is logged by the calls themselves. -/
theorem AnsweredCall.records_events (calls : List AnsweredCall) :
    records (calls.map AnsweredCall.event) = [] := by
  refine List.filterMap_eq_nil_iff.mpr fun e he => ?_
  obtain ⟨request, rc, rfl⟩ := exists_of_mem_events he
  rfl

/-- The calls that were answered, the last one apart, and the backend after them. -/
structure Exchange (σ : Type) where
  earlier : List AnsweredCall
  last : AnsweredCall
  backend : σ

namespace Exchange

variable {σ : Type}

/-- The answered calls, in order. -/
def calls (x : Exchange σ) : List AnsweredCall := x.earlier ++ [x.last]

end Exchange

/-- Make the calls in order until one fails. -/
def EsysApi.exchange {σ : Type} (api : EsysApi σ) : Call → List Call → σ → Exchange σ
  | call, [], b =>
      let answered := api.respond call.request b
      ⟨[], (call, answered.1), answered.2⟩
  | call, next :: rest, b =>
      let answered := api.respond call.request b
      if answered.1.rc ≠ tss2RcSuccess then ⟨[], (call, answered.1), answered.2⟩
      else
        let later := api.exchange next rest answered.2
        { later with earlier := (call, answered.1) :: later.earlier }

/-! ## Operations -/

/-- The operations of the provider, with their arguments. -/
inductive ProviderOp (build : BuildOptions) where
  | allocate (banks : List (Bank build))
  | event (index : Index) (eventData : List UInt8)
  | extend (index : Index) (digests : List DigestValue)
  | read (selection : Selection build)
  | reset (index : Index)
  | setAuthPolicy (index : Index) (policyAlg : HashAlgorithm) (policyDigest : List UInt8)
  | setAuthValue (index : Index) (auth : List UInt8)

/-- What the operations return. -/
inductive ProviderValue (build : BuildOptions) where
  | allocated (result : AllocateResult)
  | measured (result : EventResult)
  | valuesRead (result : ReadResult build)
  | completed

variable {σ : Type} {build : BuildOptions}

namespace EsysPcrProvider

variable (provider : EsysPcrProvider σ)

/-- Call an operation. -/
def perform : ProviderOp build → Adapter σ (ProviderValue build)
  | .allocate banks => .allocated <$> provider.allocate build banks
  | .event index eventData => .measured <$> provider.event build index eventData
  | .extend index digests => (fun _ => .completed) <$> provider.extend build index digests
  | .read selection => .valuesRead <$> provider.read build selection
  | .reset index => (fun _ => .completed) <$> provider.reset index
  | .setAuthPolicy index policyAlg policyDigest =>
      (fun _ => .completed) <$> provider.setAuthPolicy build index policyAlg policyDigest
  | .setAuthValue index auth => (fun _ => .completed) <$> provider.setAuthValue index auth

/-- The checks of an operation and the calls it goes on to make. -/
def prepare : ProviderOp build → Outcome (Call × List Call)
  | .allocate banks => do
      ensureEsysAvailable provider.esys
      ensureBankCount banks
      let allocation ← toTpmAllocation build banks
      return (⟨.pcrAllocate provider.esys esysTrRhPlatform esysTrPassword esysTrNone esysTrNone
        allocation, ascii "pcr_allocate"⟩, [])
  | .event index eventData => do
      ensureEsysAvailable provider.esys
      ensureEventSize eventData
      let tpmEvent ← toTpmEvent eventData
      return (⟨.pcrEvent provider.esys (pcrHandle index) esysTrPassword esysTrNone esysTrNone
        tpmEvent, ascii "pcr_event"⟩, [])
  | .extend index digests => do
      ensureEsysAvailable provider.esys
      ensureDigestCount digests
      let tpmDigests ← toTpmDigestValues build digests
      return (⟨.pcrExtend provider.esys (pcrHandle index) esysTrPassword esysTrNone esysTrNone
        tpmDigests, ascii "pcr_extend"⟩, [])
  | .read selection => do
      ensureEsysAvailable provider.esys
      let tpmSelection ← toTpmSelection build selection
      return (⟨.pcrRead provider.esys esysTrNone esysTrNone esysTrNone tpmSelection,
        ascii "pcr_read"⟩, [])
  | .reset index => do
      ensureEsysAvailable provider.esys
      return (⟨.pcrReset provider.esys (pcrHandle index) esysTrPassword esysTrNone esysTrNone,
        ascii "pcr_reset"⟩, [])
  | .setAuthPolicy index policyAlg policyDigest => do
      ensureEsysAvailable provider.esys
      ensurePolicyDigestSize build policyAlg policyDigest
      let authPolicy ← toTpmSizedDigest policyDigest
      return (⟨.pcrSetAuthPolicy provider.esys esysTrRhPlatform esysTrPassword esysTrNone
        esysTrNone authPolicy (algorithmToTpm build policyAlg)
        (tpm2HrPcr + index.value.toUInt32), ascii "pcr_set_auth_policy"⟩, [])
  | .setAuthValue index auth => do
      ensureEsysAvailable provider.esys
      ensureSizedBufferFits auth.length "PCR auth value is too large"
      ensureSecureAuthValueTransport auth
      let tpmAuth ← toTpmSizedDigest auth
      return (⟨.trSetAuth provider.esys (pcrHandle index) .zeroed,
          ascii "pcr_set_auth_value_set_current_auth"⟩,
        [⟨.pcrSetAuthValue provider.esys (pcrHandle index) esysTrPassword esysTrNone esysTrNone
            tpmAuth, ascii "pcr_set_auth_value"⟩,
          ⟨.trSetAuth provider.esys (pcrHandle index) .zeroed,
            ascii "pcr_set_auth_value_update_current_auth"⟩])

/-- The result that an operation draws from the last response; the backend
answers every request in kind. -/
def conclude : ProviderOp build → Response → Outcome (ProviderValue build)
  | .allocate _, .allocate answer => .allocated <$> allocateResult answer
  | .event _ _, .event answer => .measured <$> eventResult build answer
  | .read selection, .read answer => .valuesRead <$> readResult build selection answer
  | _, response => (fun _ => .completed) <$> statusResult response.rc

/-- What the logger and the observer are told of an operation that drew this
value from its responses. -/
def completedEvents : ProviderOp build → ProviderValue build → List Event
  | .allocate banks, .allocated result =>
      provider.log.events (logAllocateCompleted result.allocationSuccess banks.length)
  | .event index eventData, .measured result =>
      provider.log.events (logEventCompleted index eventData.length result.digests.length) ++
        provider.notifyEvents fun observer => .onEvent observer index eventData result
  | .extend index digests, _ =>
      provider.log.events (logExtendCompleted index digests.length) ++
        provider.notifyEvents fun observer => .onExtend observer index digests
  | .read _, .valuesRead result =>
      provider.log.events (logReadCompleted result.actualSelection result.values.length)
  | .reset index, _ => provider.log.events (logResetCompleted index)
  | .setAuthPolicy index policyAlg _, _ => provider.log.events (logAuthPolicySet index policyAlg)
  | .setAuthValue index _, _ => provider.log.events (logAuthValueSet index)
  | _, _ => []

/-- What they are told of an operation that did not fail in the backend. -/
def resultEvents (op : ProviderOp build) : Outcome (ProviderValue build) → List Event
  | .value value => provider.completedEvents op value
  | _ => []

/-- What the logger and the observer are told about an operation. -/
def announce (op : ProviderOp build) (last : AnsweredCall) : List Event :=
  if last.2.rc ≠ tss2RcSuccess then provider.tssErrorEvents last.2.rc last.1.operation
  else provider.resultEvents op (conclude op last.2)

@[simp] theorem resultEvents_value (op : ProviderOp build) (value : ProviderValue build) :
    provider.resultEvents op (.value value) = provider.completedEvents op value := rfl

@[simp] theorem resultEvents_unexpected (op : ProviderOp build) (e : Error) :
    provider.resultEvents op (.unexpected e) = [] := rfl

@[simp] theorem resultEvents_fault (op : ProviderOp build) (f : Fault TpmkitException) :
    provider.resultEvents op (.fault f) = [] := rfl

/-- Nothing is announced of a result that is no value. -/
theorem resultEvents_of_ne_value (op : ProviderOp build) {result : Outcome (ProviderValue build)}
    (h : ∀ value, result ≠ .value value) : provider.resultEvents op result = [] := by
  cases result with
  | value value => exact absurd rfl (h value)
  | unexpected e => rfl
  | fault f => rfl

/-- After a success the result is announced. -/
theorem announce_success (op : ProviderOp build) {last : AnsweredCall}
    (h : last.2.rc = tss2RcSuccess) :
    provider.announce op last = provider.resultEvents op (conclude op last.2) :=
  if_neg (not_not.mpr h)

/-- After a failure the error of the last call is. -/
theorem announce_failure (op : ProviderOp build) {last : AnsweredCall}
    (h : last.2.rc ≠ tss2RcSuccess) :
    provider.announce op last = provider.tssErrorEvents last.2.rc last.1.operation :=
  if_pos h

/-- An operation once it is prepared. -/
def carryOut (op : ProviderOp build) (prepared : Call × List Call) :
    Adapter σ (ProviderValue build) := fun w =>
  let x := provider.api.exchange prepared.1 prepared.2 w.backend
  (conclude op x.last.2, w.after (provider.api.dispose x.last.2 x.backend)
    (x.calls.map AnsweredCall.event ++ provider.announce op x.last ++ x.last.2.freeEvents))

/-! ## Every operation is its exchange -/

/-- An operation of one call: the call, what it announces, and the response freed. -/
theorem carryOut_single (op : ProviderOp build) (call : Call) (w : World σ) :
    provider.carryOut op (call, []) w =
      (conclude op (provider.api.respond call.request w.backend).1,
        w.after (provider.api.dispose (provider.api.respond call.request w.backend).1
            (provider.api.respond call.request w.backend).2)
          (AnsweredCall.event (call, (provider.api.respond call.request w.backend).1) ::
            (provider.announce op (call, (provider.api.respond call.request w.backend).1) ++
              (provider.api.respond call.request w.backend).1.freeEvents))) := rfl

/-- An operation that returns the status of its one call. -/
theorem carryOut_status (op : ProviderOp build) (request : EsysRequest) (operation : ByteString)
    (answer : σ → TssRc × σ) (completed : Adapter σ Unit)
    (hrespond : ∀ b, provider.api.respond request b = (.status (answer b).1, (answer b).2))
    (hconclude : ∀ rc, conclude op (.status rc) = (fun _ => .completed) <$> statusResult rc)
    (hcompleted : ∀ w, completed w =
      (.value (), w.after w.backend (provider.completedEvents op .completed))) :
    ((fun _ => .completed) <$> (callBackend answer (fun rc => .esys request rc) >>= fun rc =>
      if rc ≠ tss2RcSuccess then provider.returnTssError rc operation else completed)) =
    provider.carryOut op (⟨request, operation⟩, []) := by
  funext w
  rw [carryOut_single, hrespond, hconclude]
  by_cases hrc : (answer w.backend).1 = tss2RcSuccess <;>
    simp [hrc, hcompleted, hconclude, announce, statusResult, Response.rc, Response.freeEvents,
      EsysApi.dispose, AnsweredCall.event]

/-- What an event announces, in the words of its own function. -/
theorem announce_event (index : Index) (eventData : List UInt8) (request : EsysRequest)
    (answer : EventAnswer) :
    provider.announce (.event index eventData : ProviderOp build)
        (⟨request, ascii "pcr_event"⟩, .event answer) =
      provider.completeEventEvents build index eventData answer := by
  by_cases hrc : answer.rc = tss2RcSuccess
  · have hlast : (Response.event answer).rc = tss2RcSuccess := hrc
    rw [announce_success _ _ hlast, conclude, completeEventEvents]
    cases eventResult build answer <;> simp [completedEvents, statusEvents, hrc]
  · simp [announce, completeEventEvents, eventResult, statusEvents, Response.rc, hrc]

/-- What a read announces, in the words of its own function. -/
theorem announce_read (selection : Selection build) (request : EsysRequest)
    (answer : ReadAnswer) :
    provider.announce (.read selection) (⟨request, ascii "pcr_read"⟩, .read answer) =
      provider.completeReadEvents build selection answer := by
  by_cases hrc : answer.rc = tss2RcSuccess
  · have hlast : (Response.read answer).rc = tss2RcSuccess := hrc
    rw [announce_success _ _ hlast, conclude, completeReadEvents]
    cases readResult build selection answer <;> simp [completedEvents, statusEvents, hrc]
  · simp [announce, completeReadEvents, readResult, statusEvents, Response.rc, hrc]

/-- The three calls of `set_auth_value`. -/
theorem carryOut_setAuthValue (index : Index) (tpmAuth : Tpm2bDigest) :
    ((fun _ => .completed) <$> do
      let setAuthRc ← provider.api.callTrSetAuth provider.esys (pcrHandle index) .zeroed
      if setAuthRc ≠ tss2RcSuccess then
        provider.returnTssError setAuthRc (ascii "pcr_set_auth_value_set_current_auth")
      else
        let rc ← provider.api.callPcrSetAuthValue provider.esys (pcrHandle index) esysTrPassword
          esysTrNone esysTrNone tpmAuth
        if rc ≠ tss2RcSuccess then
          provider.returnTssError rc (ascii "pcr_set_auth_value")
        else
          let updateAuthRc ← provider.api.callTrSetAuth provider.esys (pcrHandle index) .zeroed
          if updateAuthRc ≠ tss2RcSuccess then
            provider.returnTssError updateAuthRc (ascii "pcr_set_auth_value_update_current_auth")
          else
            emit provider.log (logAuthValueSet index)) =
    provider.carryOut (.setAuthValue index [] : ProviderOp build)
      (⟨.trSetAuth provider.esys (pcrHandle index) .zeroed,
          ascii "pcr_set_auth_value_set_current_auth"⟩,
        [⟨.pcrSetAuthValue provider.esys (pcrHandle index) esysTrPassword esysTrNone esysTrNone
            tpmAuth, ascii "pcr_set_auth_value"⟩,
          ⟨.trSetAuth provider.esys (pcrHandle index) .zeroed,
            ascii "pcr_set_auth_value_update_current_auth"⟩]) := by
  funext w
  rcases hcurrent : provider.api.trSetAuth provider.esys (pcrHandle index) .zeroed w.backend with
    ⟨currentRc, b₁⟩
  rcases hset : provider.api.pcrSetAuthValue provider.esys (pcrHandle index) esysTrPassword
    esysTrNone esysTrNone tpmAuth b₁ with ⟨rc, b₂⟩
  rcases hupdate : provider.api.trSetAuth provider.esys (pcrHandle index) .zeroed b₂ with
    ⟨updateRc, b₃⟩
  by_cases hrc₁ : currentRc = tss2RcSuccess
  swap
  · simp [EsysApi.callTrSetAuth, carryOut, EsysApi.exchange, EsysApi.respond, Exchange.calls,
      hcurrent, hrc₁, Response.rc, conclude, statusResult, announce, EsysApi.dispose,
      Response.freeEvents, AnsweredCall.event]
  by_cases hrc₂ : rc = tss2RcSuccess
  swap
  · simp [EsysApi.callTrSetAuth, EsysApi.callPcrSetAuthValue, carryOut, EsysApi.exchange,
      EsysApi.respond, Exchange.calls, hcurrent, hset, hrc₁, hrc₂, Response.rc, conclude,
      statusResult, announce, EsysApi.dispose, Response.freeEvents, AnsweredCall.event]
  by_cases hrc₃ : updateRc = tss2RcSuccess <;>
    simp [EsysApi.callTrSetAuth, EsysApi.callPcrSetAuthValue, carryOut, EsysApi.exchange,
      EsysApi.respond, Exchange.calls, hcurrent, hset, hupdate, hrc₁, hrc₂, hrc₃, Response.rc,
      conclude, statusResult, announce, EsysApi.dispose, Response.freeEvents, AnsweredCall.event,
      completedEvents]

/-- **Every operation is its exchange.** -/
theorem perform_eq (op : ProviderOp build) :
    provider.perform op = (.lift (provider.prepare op) >>= provider.carryOut op) := by
  cases op with
  | allocate banks =>
      simp only [perform, allocate, prepare, Program.lift_bind_bind, Program.map_lift_bind,
        Program.lift_pure_bind]
      refine Program.lift_bind_congr fun _ _ => Program.lift_bind_congr fun _ _ =>
        Program.lift_bind_congr fun allocation _ => funext fun w => ?_
      rw [carryOut_single]
      rcases hanswer : provider.api.pcrAllocate provider.esys esysTrRhPlatform esysTrPassword
        esysTrNone esysTrNone allocation w.backend with ⟨answer, b⟩
      by_cases hrc : answer.rc = tss2RcSuccess <;>
        simp [EsysApi.callPcrAllocate, EsysApi.respond, hanswer, hrc, announce, conclude,
          allocateResult, completedEvents, Response.rc, Response.freeEvents, EsysApi.dispose,
          AnsweredCall.event]
  | event index eventData =>
      simp only [perform, event, prepare, Program.lift_bind_bind, Program.map_lift_bind,
        Program.lift_pure_bind]
      refine Program.lift_bind_congr fun _ _ => Program.lift_bind_congr fun _ _ =>
        Program.lift_bind_congr fun tpmEvent _ => funext fun w => ?_
      rw [carryOut_single]
      rcases hanswer : provider.api.pcrEvent provider.esys (pcrHandle index) esysTrPassword
        esysTrNone esysTrNone tpmEvent w.backend with ⟨answer, b⟩
      obtain ⟨hcomplete, hnofault⟩ := provider.completeEvent_spec _ index eventData answer
      simp only [Program.map_apply, Program.bind_apply, EsysApi.callPcrEvent, callBackend_apply,
        hanswer, Program.resume_value]
      rw [Program.onExit_apply (hcomplete) hnofault (provider.api.freeBuffer_apply _ _)]
      simp [EsysApi.respond, hanswer, announce_event, conclude, Response.rc, Response.freeEvents,
        EsysApi.dispose, AnsweredCall.event]
  | extend index digests =>
      simp only [perform, extend, prepare, Program.lift_bind_bind, Program.map_lift_bind,
        Program.lift_pure_bind]
      exact Program.lift_bind_congr fun _ _ => Program.lift_bind_congr fun _ _ =>
        Program.lift_bind_congr fun tpmDigests _ =>
          provider.carryOut_status (.extend index digests) _ _ _ _ (fun _ => rfl) (fun _ => rfl)
            fun w => by simp [completedEvents]
  | read selection =>
      simp only [perform, read, prepare, Program.lift_bind_bind, Program.map_lift_bind,
        Program.lift_pure_bind]
      refine Program.lift_bind_congr fun _ _ => Program.lift_bind_congr fun tpmSelection _ =>
        funext fun w => ?_
      rw [carryOut_single]
      rcases hanswer : provider.api.pcrRead provider.esys esysTrNone esysTrNone esysTrNone
        tpmSelection w.backend with ⟨answer, b⟩
      obtain ⟨hcomplete, hnofault⟩ := provider.completeRead_spec _ selection answer
      have hinner := Program.onExit_apply hcomplete hnofault
        (provider.api.freeBuffer_apply .readValues answer.pcrValues)
      simp only [Program.map_apply, Program.bind_apply, EsysApi.callPcrRead, callBackend_apply,
        hanswer, Program.resume_value]
      rw [Program.onExit_apply hinner hnofault (provider.api.freeBuffer_apply _ _)]
      simp [EsysApi.respond, hanswer, announce_read, conclude, Response.rc, Response.freeEvents,
        EsysApi.dispose, AnsweredCall.event]
  | reset index =>
      simp only [perform, reset, prepare, Program.lift_bind_bind, Program.map_lift_bind,
        Program.lift_pure_bind]
      exact Program.lift_bind_congr fun _ _ =>
        provider.carryOut_status (.reset index) _ _ _ _ (fun _ => rfl) (fun _ => rfl) fun _ => rfl
  | setAuthPolicy index policyAlg policyDigest =>
      simp only [perform, setAuthPolicy, prepare, Program.lift_bind_bind, Program.map_lift_bind,
        Program.lift_pure_bind]
      exact Program.lift_bind_congr fun _ _ => Program.lift_bind_congr fun _ _ =>
        Program.lift_bind_congr fun _ _ =>
          provider.carryOut_status (.setAuthPolicy index policyAlg policyDigest) _ _ _ _
            (fun _ => rfl) (fun _ => rfl) fun _ => rfl
  | setAuthValue index auth =>
      simp only [perform, setAuthValue, prepare, Program.lift_bind_bind, Program.map_lift_bind,
        Program.lift_pure_bind]
      refine Program.lift_bind_congr fun _ _ => Program.lift_bind_congr fun _ _ =>
        Program.lift_bind_congr fun _ htransport => ?_
      -- what passes the transport check is empty, so it is encoded without a failure
      obtain rfl : auth = [] := by
        rcases ensureSecureAuthValueTransport_decides auth with ⟨hempty, _⟩ | ⟨_, e, he⟩
        · exact hempty
        · rw [he] at htransport
          cases htransport
      have hencoded : toTpmSizedDigest [] = .value (encodedSizedDigest []) :=
        toTpmSizedDigest_of_length (Nat.zero_le 64)
      simp only [hencoded]
      exact provider.carryOut_setAuthValue index (encodedSizedDigest [])

/-- The two ways of an operation: it makes its exchange, or it stops before its
first call and leaves the world as it was. -/
theorem perform_cases (op : ProviderOp build) :
    (∃ prepared, provider.prepare op = .value prepared ∧
      provider.perform op = provider.carryOut op prepared) ∨
    ((∀ prepared, provider.prepare op ≠ .value prepared) ∧ ∀ w,
      provider.perform op w = ((fun _ => .completed) <$> provider.prepare op, w)) := by
  rw [perform_eq]
  rcases provider.prepare op with prepared | e | f
  · exact Or.inl ⟨prepared, rfl, rfl⟩
  · exact Or.inr ⟨by simp, fun _ => rfl⟩
  · exact Or.inr ⟨by simp, fun _ => rfl⟩

/-- An operation that is stopped by its checks returns no value. -/
theorem stopped_ne_value {x : Outcome (Call × List Call)} (h : ∀ prepared, x ≠ .value prepared)
    (value : ProviderValue build) : (fun _ => ProviderValue.completed) <$> x ≠ .value value := by
  cases x with
  | value prepared => exact absurd rfl (h prepared)
  | unexpected e => simp
  | fault f => simp

/-! ## What an exchange leaves behind -/

/-- A code other than success is returned translated, whatever the operation. -/
theorem conclude_of_ne_success (op : ProviderOp build) {response : Response}
    (h : response.rc ≠ tss2RcSuccess) :
    conclude op response = .unexpected (translatedError response.rc) := by
  cases response <;> cases op <;>
    simp [conclude, allocateResult, eventResult, readResult, statusResult, Response.rc] at h ⊢ <;>
    simp [h]

/-- A provider to read the specifications with; no result depends on one. -/
private def silentProvider : EsysPcrProvider Unit := ⟨.inert, none, .noop, none⟩

/-- However an event is answered, its result is a value or an error. -/
theorem noFault_eventResult (answer : EventAnswer) : (eventResult build answer).NoFault :=
  (silentProvider.completeEvent_spec ⟨(), 0, []⟩ 0 [] answer).2

/-- So is the result of a read. -/
theorem noFault_readResult (selection : Selection build) (answer : ReadAnswer) :
    (readResult build selection answer).NoFault :=
  (silentProvider.completeRead_spec ⟨(), 0, []⟩ selection answer).2

/-- No response makes an operation fault. -/
theorem noFault_conclude (op : ProviderOp build) (response : Response) :
    (conclude op response).NoFault := by
  unfold conclude
  split
  · exact (noFault_allocateResult _).map _
  · exact (noFault_eventResult _).map _
  · exact (noFault_readResult _ _).map _
  · exact (noFault_statusResult _).map _

end EsysPcrProvider

/-- The answered calls are the first ones of those prepared. -/
theorem EsysApi.exchange_prefix (api : EsysApi σ) (call : Call) (rest : List Call) (b : σ) :
    (api.exchange call rest b).calls.map Prod.fst <+: call :: rest := by
  induction rest generalizing call b with
  | nil => exact List.prefix_rfl
  | cons next rest ih =>
      unfold EsysApi.exchange
      by_cases hrc : (api.respond call.request b).1.rc = tss2RcSuccess
      · simpa [hrc, Exchange.calls] using ih next (api.respond call.request b).2
      · simp [hrc, Exchange.calls]

/-- Every call of an exchange but the last one succeeded. -/
theorem EsysApi.rc_of_mem_earlier {api : EsysApi σ} {call : Call} {rest : List Call} {b : σ} :
    ∀ answered ∈ (api.exchange call rest b).earlier, answered.2.rc = tss2RcSuccess := by
  induction rest generalizing call b with
  | nil => exact fun answered h => nomatch h
  | cons next rest ih =>
      intro answered h
      unfold EsysApi.exchange at h
      by_cases hrc : (api.respond call.request b).1.rc = tss2RcSuccess
      · simp only [hrc, ne_eq, not_true_eq_false, if_false] at h
        rcases List.mem_cons.mp h with rfl | h
        · exact hrc
        · exact ih answered h
      · simp [hrc] at h

end Tpmkit
