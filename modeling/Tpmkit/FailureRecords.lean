import Tpmkit.CreationProtocol
import Tpmkit.ProviderExchange

/-!
# What the log says of a failure

A failing call of the backend is logged where its return code is translated,
while the error that an operation returns is chosen where the operation ends.
The log agrees with the caller when an operation that fails in its last call
logs one failure, under the category that it returns, and every other operation
logs none.

`failures_reported` says which operations agree with their logs: all of them, but
for a creation whose lookup of the TCTI module fails with a code that does not
translate to an input error.
-/

namespace Tpmkit

open Checked ByteStrings Pcr

variable {σ α : Type}

/-! ## Agreement of a result with the log -/

/-- The failure records among some events, in order. -/
def failures (events : List Event) : List LogRecord := (records events).filter LogRecord.isFailure

/-- The return code that a call was answered with. -/
def Event.returnCode : Event → Option TssRc
  | .esys _ rc => some rc
  | .esysInitialize _ rc _ => some rc
  | .getInfo _ rc => some rc
  | .tctiInit _ _ rc => some rc
  | _ => none

/-- The last call was answered with a return code other than success. -/
def EndsInFailedCall (events : List Event) : Prop :=
  ∃ rc, (answeredCalls events).getLast?.bind Event.returnCode = some rc ∧ rc ≠ tss2RcSuccess

/-- The log tells of this error: with one failure record if the last call failed and
with none otherwise, and under the category of the error. -/
structure TellsOf (e : Error) (events : List Event) : Prop where
  atMostOne : (failures events).length ≤ 1
  caused : failures events ≠ [] ↔ EndsInFailedCall events
  category : ∀ entry ∈ failures events,
    entry.field Events.Fields.errorCategory = some (categoryName e.category)

/-- The log agrees with a result; only a returned error is a failure. -/
def LogAgrees (result : Outcome α) (events : List Event) : Prop :=
  match result with
  | .unexpected e => TellsOf e events
  | _ => failures events = []

/-- The failures of two parts are those of the one and then those of the other. -/
theorem failures_append (events events' : List Event) :
    failures (events ++ events') = failures events ++ failures events' := by
  rw [failures, records_append, List.filter_append]
  rfl

/-- A part whose last call succeeded does not end in a failed one. -/
theorem not_endsInFailedCall_of_success {events : List Event}
    (h : (answeredCalls events).getLast?.bind Event.returnCode = some tss2RcSuccess) :
    ¬EndsInFailedCall events := by
  intro hends
  obtain ⟨rc, hlast, hrc⟩ := hends
  rw [h] at hlast
  exact hrc (Option.some.inj hlast).symm

/-- Nothing is to be told of an error that no call led to. -/
theorem TellsOf.silent {e : Error} {events : List Event} (hnone : failures events = [])
    (hlast : ¬EndsInFailedCall events) : TellsOf e events := by
  refine ⟨?_, ?_, ?_⟩
  · rw [hnone]
    exact Nat.zero_le 1
  · exact iff_of_false (not_not.mpr hnone) hlast
  · intro entry hmem
    rw [hnone] at hmem
    cases hmem

/-- The events hold neither an answered call nor a failure record. -/
structure Uneventful (events : List Event) : Prop where
  calls : answeredCalls events = []
  failures : failures events = []

/-- A part in which nothing is called and nothing logged is uneventful. -/
theorem Uneventful.of_quiet {events : List Event} (h : Quiet events []) : Uneventful events :=
  ⟨h.calls, by rw [Tpmkit.failures, h.records]; rfl⟩

/-- So is a record of a success. -/
theorem Uneventful.success (log : Logger) (event : EventDescriptor) (fields : List LogField) :
    Uneventful (log.events (successRecord event fields)) := by
  refine ⟨rfl, ?_⟩
  rw [Tpmkit.failures, records_logger_events, List.filter_singleton, isFailure_successRecord]
  rfl

/-- Two uneventful parts make one. -/
theorem Uneventful.append {events events' : List Event} (h : Uneventful events)
    (h' : Uneventful events') : Uneventful (events ++ events') :=
  ⟨by rw [answeredCalls_append, h.calls, h'.calls]; rfl,
    by rw [failures_append, h.failures, h'.failures]; rfl⟩

/-- The record of the failed call tells of an error exactly when the code translates to
the category of the error. -/
theorem tellsOf_iff_category {e : Error} {events : List Event} {rc : TssRc}
    {operation : ByteString} {errorEvent : EventDescriptor} {decoder : Option TssErrorDecoder}
    (hrecord : failures events = [failedCallRecord rc operation errorEvent decoder])
    (hlast : EndsInFailedCall events) :
    TellsOf e events ↔ (translatedError rc).category = e.category := by
  have hcategory := failedCallRecord_errorCategory rc operation errorEvent decoder
  constructor
  · intro h
    have htold := h.category _ (by rw [hrecord]; exact List.mem_singleton_self _)
    exact categoryName_injective (Option.some.inj (hcategory.symm.trans htold))
  · intro h
    refine ⟨by rw [hrecord]; exact Nat.le_refl 1, iff_of_true (by simp [hrecord]) hlast, ?_⟩
    intro entry hmem
    rw [hrecord] at hmem
    obtain rfl := List.mem_singleton.mp hmem
    rw [hcategory, h]

/-! ## Creation -/

/-- Apart from the lookup of a module, the error is the translation of its cause. -/
theorem CreationAnswer.category_of_cause {answer : CreationAnswer} {failure : CreationFailure}
    {rc : TssRc} {operation : ByteString} (h : answer.failure = some failure)
    (hinfo : ∀ code, answer ≠ .info code) (hcause : failure.cause = some (rc, operation)) :
    (translatedError rc).category = failure.error.category := by
  rcases CreationAnswer.failure_cases h with
    ⟨code, hlookup, _⟩ | ⟨_, _, _, _, _, rfl⟩ | ⟨_, hnone, _⟩
  · exact absurd hlookup (hinfo code)
  · cases hcause
    rfl
  · rw [hnone] at hcause
    cases hcause

section Steps

variable {terms : CreationTerms} {steps : List CreationStep} {failure : CreationFailure}
  {events : List Event}

/-- The failure records of a procedure are those of the step that fails. -/
theorem failures_of_follows (h : terms.Follows steps events) :
    failures events =
      (Attempts.failing CreationStep.succeeded steps).toList.flatMap fun step =>
        terms.told step.2 := by
  rw [failures, h.records, terms.flatMap_told, List.filter_append,
    List.filter_eq_self.mpr fun entry => isFailure_of_mem_failing,
    List.filter_eq_nil_iff.mpr ?_, List.nil_append]
  intro entry hentry
  rw [LogRecord.isFailure_of_isSuccess (isSuccess_of_mem_takeWhile hentry)]
  exact Bool.false_ne_true

/-- A procedure that succeeds logs no failure. -/
theorem CreationTerms.Succeeds.failures_eq (h : terms.Succeeds steps events) :
    failures events = [] := by
  rw [failures_of_follows h.follows, Attempts.failing_eq_none_iff.mpr h.all]
  rfl

/-- What is logged of a procedure that fails tells of its error exactly when the cause
translates to the category of the error. -/
theorem CreationTerms.FailsWith.tellsOf_iff (h : terms.FailsWith steps failure events)
    (hcodes : ∀ step ∈ steps, step.1.returnCode = step.2.returnCode) :
    TellsOf failure.error events ↔ ∀ rc operation, failure.cause = some (rc, operation) →
      (translatedError rc).category = failure.error.category := by
  obtain ⟨failed, hfailing, hfailure⟩ := h.failing
  have hmem : failed ∈ steps := List.mem_of_find?_eq_some hfailing
  have hlast : (answeredCalls events).getLast?.bind Event.returnCode = failed.2.returnCode := by
    rw [h.follows.calls, List.getLast?_map, Attempts.getLast?_made_of_failing hfailing]
    exact hcodes failed hmem
  have hfailures : failures events = terms.failureRecords failed.2 failure := by
    rw [failures_of_follows h.follows, hfailing, Option.toList_some, List.flatMap_singleton,
      CreationTerms.told, hfailure]
  rcases CreationAnswer.failure_cases hfailure with
    ⟨rc, hinfo, hrc, rfl⟩ | ⟨rc, operation, _, hcode, hrc, rfl⟩ | ⟨hsuccess, hcause, _⟩
  · rw [tellsOf_iff_category hfailures ⟨rc, by rw [hlast, hinfo]; rfl, hrc⟩]
    simp
  · rw [tellsOf_iff_category hfailures ⟨rc, hlast.trans hcode, hrc⟩]
    simp [CreationFailure.translated]
  · rw [CreationTerms.failureRecords, hcause] at hfailures
    refine iff_of_true (.silent hfailures ?_) ?_
    · intro hends
      obtain ⟨rc, hcode, hrc⟩ := hends
      exact hrc (hsuccess rc (hlast.symm.trans hcode))
    · intro rc operation h
      rw [hcause] at h
      cases h

end Steps

/-! ### The steps of a creation -/

/-- The steps that open a context are the initialization and, unless it is skipped, the startup.
-/
theorem mem_openSteps {tcti : Option TctiContext} {mode : StartupMode} {api : EsysApi σ}
    {handle : Nat} {b : σ} {step : CreationStep} (h : step ∈ openSteps tcti mode api handle b) :
    (∃ answer esys, step = (.esysInitialize tcti answer.rc esys, .esys answer)) ∨
      ∃ esys rc, step = (.esys (.startup esys (startupType mode)) rc, .startup rc) := by
  unfold openSteps at h
  rcases List.mem_cons.mp h with rfl | h
  · exact Or.inl ⟨_, _, rfl⟩
  · split at h
    · cases h
    · exact Or.inr ⟨_, _, List.mem_singleton.mp h⟩

/-- Their events show the codes that were answered. -/
theorem returnCode_openSteps (tcti : Option TctiContext) (mode : StartupMode) (api : EsysApi σ)
    (handle : Nat) (b : σ) :
    ∀ step ∈ openSteps tcti mode api handle b, step.1.returnCode = step.2.returnCode := by
  intro step hmem
  rcases mem_openSteps hmem with ⟨_, _, rfl⟩ | ⟨_, _, rfl⟩ <;> rfl

/-- Opening a context looks up no module. -/
theorem openSteps_ne_info {tcti : Option TctiContext} {mode : StartupMode} {api : EsysApi σ}
    {handle : Nat} {b : σ} {step : CreationStep} (h : step ∈ openSteps tcti mode api handle b)
    (rc : TssRc) : step.2 ≠ .info rc := by
  rcases mem_openSteps h with ⟨_, _, rfl⟩ | ⟨_, _, rfl⟩ <;> simp

/-- So do those of a whole creation. -/
theorem returnCode_creationSteps (config : TpmContextConfig) (tctiApi : TctiLoaderApi σ)
    (api : EsysApi σ) (linked : LinkedApi σ) (w : World σ) :
    ∀ step ∈ creationSteps config tctiApi api linked w,
      step.1.returnCode = step.2.returnCode := by
  intro step hmem
  rcases List.mem_append.mp hmem with hload | hopen
  · simp only [loadSteps, List.mem_cons, List.not_mem_nil, or_false] at hload
    rcases hload with rfl | rfl | rfl | rfl <;> rfl
  · exact returnCode_openSteps _ _ _ _ _ step hopen

/-- What the lookup of the TCTI module is answered with. -/
def lookupCode (config : TpmContextConfig) (tctiApi : TctiLoaderApi σ) (w : World σ) : TssRc :=
  (tctiApi.getInfo (cStr (tctiName config.tcti)) w.backend).1

/-- No other step looks up a module. -/
theorem lookupCode_of_mem {config : TpmContextConfig} {tctiApi : TctiLoaderApi σ}
    {api : EsysApi σ} {linked : LinkedApi σ} {w : World σ} {step : CreationStep} {rc : TssRc}
    (hmem : step ∈ creationSteps config tctiApi api linked w) (hinfo : step.2 = .info rc) :
    lookupCode config tctiApi w = rc := by
  rcases List.mem_append.mp hmem with hload | hopen
  · simp only [loadSteps, List.mem_cons, List.not_mem_nil, or_false] at hload
    rcases hload with rfl | rfl | rfl | rfl <;> cases hinfo
    rfl
  · exact absurd hinfo (openSteps_ne_info hopen rc)

/-- A lookup that fails is where the creation ends. -/
theorem failing_of_lookup {config : TpmContextConfig} {tctiApi : TctiLoaderApi σ}
    (api : EsysApi σ) (linked : LinkedApi σ) {w : World σ}
    (h : lookupCode config tctiApi w ≠ tss2RcSuccess) :
    ∃ step, Attempts.failing CreationStep.succeeded (creationSteps config tctiApi api linked w) =
        some step ∧
      step.2.failure = some ⟨⟨.inputError, "Unknown TCTI name"⟩,
        some (lookupCode config tctiApi w, ascii "tcti_init")⟩ := by
  have hfailure : (CreationAnswer.info (lookupCode config tctiApi w)).failure = _ := if_pos h
  refine ⟨(.getInfo (cStr (tctiName config.tcti)) (lookupCode config tctiApi w),
    .info (lookupCode config tctiApi w)), ?_, hfailure⟩
  refine List.find?_cons_of_pos ?_
  rw [CreationStep.succeeded_of_some hfailure]
  rfl

/-! ### The two creations -/

/-- Whether the log agrees with a result depends on the failures and the calls only. -/
theorem logAgrees_congr {result : Outcome α} {events events' : List Event}
    (hfailures : failures events = failures events')
    (hcalls : answeredCalls events = answeredCalls events') :
    LogAgrees result events ↔ LogAgrees result events' := by
  have hends : EndsInFailedCall events ↔ EndsInFailedCall events' := by
    rw [EndsInFailedCall, hcalls]
    rfl
  cases result with
  | unexpected e =>
      constructor
      · intro htells
        obtain ⟨hone, hcaused, hcategory⟩ := htells
        exact ⟨hfailures ▸ hone, hfailures ▸ hcaused.trans hends, hfailures ▸ hcategory⟩
      · intro htells
        obtain ⟨hone, hcaused, hcategory⟩ := htells
        exact ⟨hfailures ▸ hone, hfailures ▸ hcaused.trans hends.symm, hfailures ▸ hcategory⟩
  | _ => exact iff_of_eq (congrArg (· = []) hfailures)

/-- Uneventful events do not matter to the agreement. -/
theorem logAgrees_append {result : Outcome α} {first events : List Event}
    (hfirst : Uneventful first) : LogAgrees result (first ++ events) ↔ LogAgrees result events :=
  logAgrees_congr (by rw [failures_append, hfirst.failures, List.nil_append])
    (by rw [answeredCalls_append, hfirst.calls, List.nil_append])

/-- Whatever an operation returns without a failed call, it needs no failure record. -/
theorem logAgrees_silent (result : Outcome α) {events : List Event}
    (hnone : failures events = []) (hlast : ¬EndsInFailedCall events) :
    LogAgrees result events := by
  cases result with
  | unexpected e => exact .silent hnone hlast
  | _ => exact hnone

/-- An uneventful part agrees with every result. -/
theorem logAgrees_uneventful (result : Outcome α) {events : List Event}
    (h : Uneventful events) : LogAgrees result events := by
  refine logAgrees_silent result h.failures ?_
  intro hends
  obtain ⟨rc, hlast, _⟩ := hends
  rw [h.calls] at hlast
  cases hlast

/-- A creation from a configuration agrees with its log exactly when the module is found
or the code of the lookup translates to an input error. -/
theorem createContextFromConfig_logAgrees (config : TpmContextConfig) (tctiApi : TctiLoaderApi σ)
    (api : EsysApi σ) (linked : LinkedApi σ) (w : World σ) :
    let run := createContextFromConfig config tctiApi api linked w
    LogAgrees run.1 (w.eventsSince run.2) ↔
      (config.Valid → lookupCode config tctiApi w ≠ tss2RcSuccess →
        (translatedError (lookupCode config tctiApi w)).category = .inputError) := by
  intro run
  by_cases hvalid : config.Valid
  swap
  · obtain ⟨e, _, hrun⟩ := createContextFromConfig_of_not_valid tctiApi api linked w hvalid
    rw [show run = _ from hrun, World.eventsSince_self]
    exact iff_of_true (logAgrees_uneventful _ (.of_quiet .nil)) fun h => absurd h hvalid
  rw [imp_iff_right hvalid]
  have hfirst : Uneventful (configuringEvents (effectiveLogger config.log) config.tcti) :=
    .success ..
  rcases createContextFromConfig_follows tctiApi api linked w hvalid with
    ⟨esys, events, hsucceeds, hvalue, htrace⟩ | ⟨failure, events, hfails, herror, htrace⟩
  · rw [World.eventsSince_of_trace htrace, logAgrees_append hfirst,
      show run.1 = _ from hvalue]
    refine iff_of_true hsucceeds.failures_eq fun hlookup => ?_
    obtain ⟨step, hfailing, _⟩ := failing_of_lookup api linked hlookup
    rw [Attempts.failing_eq_none_iff.mpr hsucceeds.all] at hfailing
    cases hfailing
  · rw [World.eventsSince_of_trace htrace, logAgrees_append hfirst,
      show run.1 = _ from herror]
    refine (hfails.tellsOf_iff (returnCode_creationSteps config tctiApi api linked w)).trans ?_
    obtain ⟨failed, hfailing, hfailure⟩ := hfails.failing
    constructor
    · intro h hlookup
      obtain ⟨step, hfirst, hcause⟩ := failing_of_lookup api linked hlookup
      obtain rfl : failed = step := Option.some.inj (hfailing.symm.trans hfirst)
      obtain rfl := Option.some.inj (hfailure.symm.trans hcause)
      exact h _ _ rfl
    · intro h rc operation hcause
      by_cases hlookup : lookupCode config tctiApi w = tss2RcSuccess
      · refine CreationAnswer.category_of_cause hfailure (fun code hinfo => ?_) hcause
        have hcode := lookupCode_of_mem (List.mem_of_find?_eq_some hfailing) hinfo
        rw [hinfo, ← hcode, hlookup] at hfailure
        cases hfailure
      · obtain ⟨step, hfirst, hcause'⟩ := failing_of_lookup api linked hlookup
        obtain rfl : failed = step := Option.some.inj (hfailing.symm.trans hfirst)
        obtain rfl := Option.some.inj (hfailure.symm.trans hcause')
        cases hcause
        exact h hlookup

/-- Without a finalizer nothing is done: the context is refused, or its destruction
calls a null pointer. -/
theorem createContextFromOwnedTcti_without_deleter (handle : Option TctiContext)
    (startup : StartupMode) (log : Option Logger) (api : EsysApi σ) (linked : LinkedApi σ)
    (w : World σ) :
    (createContextFromOwnedTcti ⟨handle, none⟩ startup log api linked w).2 = w := by
  cases hstartup : isValidStartupMode startup <;> cases handle <;>
    simp [createContextFromOwnedTcti, hstartup, UniqueTcti.destroy, UniqueTcti.released]

/-- A creation from an owned TCTI context agrees with its log. -/
theorem createContextFromOwnedTcti_logAgrees (tcti : UniqueTcti) (startup : StartupMode)
    (log : Option Logger) (api : EsysApi σ) (linked : LinkedApi σ) (w : World σ) :
    let run := createContextFromOwnedTcti tcti startup log api linked w
    LogAgrees run.1 (w.eventsSince run.2) := by
  intro run
  obtain ⟨handle, _ | deleter⟩ := tcti
  · have hworld : run.2 = w :=
      createContextFromOwnedTcti_without_deleter handle startup log api linked w
    rw [hworld, World.eventsSince_self]
    exact logAgrees_uneventful _ (.of_quiet .nil)
  by_cases hvalid : isValidStartupMode startup = true ∧ handle.isSome = true
  swap
  · obtain ⟨e, events, _, herror, htrace, hquiet⟩ :=
      createContextFromOwnedTcti_of_not_valid log api linked w handle deleter hvalid
    rw [World.eventsSince_of_trace htrace, show run.1 = _ from herror]
    exact logAgrees_uneventful _ (.of_quiet hquiet)
  obtain ⟨context, rfl⟩ := Option.isSome_iff_exists.mp hvalid.2
  have hfirst : Uneventful (ownedEvents (effectiveLogger log)) :=
    Uneventful.append (.success ..) (.success ..)
  rcases createContextFromOwnedTcti_follows log api linked w hvalid.1 context deleter
      ⟨[], startup, none, api.decodeError⟩ rfl rfl with
    ⟨created, events, hsucceeds, hvalue, htrace⟩ | ⟨failure, events, hfails, herror, htrace⟩
  · rw [World.eventsSince_of_trace htrace, logAgrees_append hfirst,
      show run.1 = _ from hvalue]
    exact hsucceeds.failures_eq
  · rw [World.eventsSince_of_trace htrace, logAgrees_append hfirst,
      show run.1 = _ from herror]
    refine (hfails.tellsOf_iff
      (returnCode_openSteps (some context) startup api w.nextHandle w.backend)).mpr ?_
    intro rc operation hcause
    obtain ⟨failed, hfailing, hfailure⟩ := hfails.failing
    have hmem := List.mem_of_find?_eq_some hfailing
    exact CreationAnswer.category_of_cause hfailure (openSteps_ne_info hmem) hcause

/-! ## The operations of the provider -/

variable {build : BuildOptions}

namespace EsysPcrProvider

variable (provider : EsysPcrProvider σ)

/-- Calling an observer is uneventful. -/
theorem uneventful_notifyEvents (event : Observer → Event)
    (hcall : ∀ observer, (event observer).isAnswered = false)
    (hrecord : ∀ observer, records [event observer] = []) :
    Uneventful (provider.notifyEvents event) := by
  unfold notifyEvents
  cases provider.observer with
  | none => exact .of_quiet .nil
  | some observer =>
      exact .of_quiet ⟨List.filter_cons_of_neg (by simp [hcall]), hrecord observer⟩

/-- What is told of an operation that completes is no failure. -/
theorem uneventful_completedEvents (op : ProviderOp build) (value : ProviderValue build) :
    Uneventful (provider.completedEvents op value) := by
  cases op with
  | allocate banks =>
      cases value with
      | allocated result => exact .success ..
      | _ => exact .of_quiet .nil
  | event index eventData =>
      cases value with
      | measured result =>
          exact .append (.success ..)
            (provider.uneventful_notifyEvents _ (fun _ => rfl) fun _ => rfl)
      | _ => exact .of_quiet .nil
  | extend index digests =>
      exact .append (.success ..) (provider.uneventful_notifyEvents _ (fun _ => rfl) fun _ => rfl)
  | read selection =>
      cases value with
      | valuesRead result => exact .success ..
      | _ => exact .of_quiet .nil
  | reset index => exact .success ..
  | setAuthPolicy index policyAlg policyDigest => exact .success ..
  | setAuthValue index auth => exact .success ..

/-- So is freeing a response. -/
theorem uneventful_freeEvents (response : Response) : Uneventful response.freeEvents := by
  refine .of_quiet ⟨List.filter_eq_nil_iff.mpr fun e he => ?_, response.records_freeEvents⟩
  obtain ⟨buffer, rfl⟩ := Response.exists_of_mem_freeEvents he
  exact Bool.false_ne_true

/-- The answered calls of an exchange are its own. -/
theorem answeredCalls_calls (calls : List AnsweredCall) :
    answeredCalls (calls.map AnsweredCall.event) = calls.map AnsweredCall.event := by
  refine List.filter_eq_self.mpr fun e he => ?_
  obtain ⟨request, rc, rfl⟩ := AnsweredCall.exists_of_mem_events he
  rfl

/-- Calls are no records. -/
theorem failures_calls (calls : List AnsweredCall) :
    failures (calls.map AnsweredCall.event) = [] := by
  rw [failures, AnsweredCall.records_events]
  rfl

/-- An exchange agrees with its log. -/
theorem carryOut_logAgrees (op : ProviderOp build) (prepared : Call × List Call) (w : World σ) :
    let run := provider.carryOut op prepared w
    LogAgrees run.1 (w.eventsSince run.2) := by
  intro run
  let x := provider.api.exchange prepared.1 prepared.2 w.backend
  have hevents : w.eventsSince run.2 =
      x.calls.map AnsweredCall.event ++ provider.announce op x.last ++ x.last.2.freeEvents :=
    World.eventsSince_of_trace rfl
  have hfree := uneventful_freeEvents x.last.2
  -- only the calls count among the events, and the last one comes last
  have hends : answeredCalls (provider.announce op x.last) = [] →
      (answeredCalls (w.eventsSince run.2)).getLast?.bind Event.returnCode = some x.last.2.rc := by
    intro hannounce
    rw [hevents, answeredCalls_append, answeredCalls_append, hannounce, hfree.calls,
      answeredCalls_calls, List.append_nil, List.append_nil, Exchange.calls, List.map_append]
    exact congrArg (Option.bind · Event.returnCode) List.getLast?_concat
  have hfailures : failures (w.eventsSince run.2) = failures (provider.announce op x.last) := by
    rw [hevents, failures_append, failures_append, failures_calls, hfree.failures, List.nil_append,
      List.append_nil]
  by_cases hrc : x.last.2.rc = tss2RcSuccess
  · have hannounce : Uneventful (provider.announce op x.last) := by
      rw [provider.announce_success op hrc]
      cases conclude op x.last.2 with
      | value value => exact provider.uneventful_completedEvents op value
      | _ => exact .of_quiet .nil
    rw [hannounce.failures] at hfailures
    exact logAgrees_silent run.1 hfailures
      (not_endsInFailedCall_of_success (by rw [hends hannounce.calls, hrc]))
  · have hannounce : Quiet (provider.announce op x.last) [failedCallRecord x.last.2.rc
        x.last.1.operation Events.pcrTssError provider.api.decodeError] := by
      rw [provider.announce_failure op hrc]
      exact .failureEvents ..
    have hresult : run.1 = .unexpected (translatedError x.last.2.rc) :=
      conclude_of_ne_success op hrc
    have hrecord : failures (w.eventsSince run.2) = [failedCallRecord x.last.2.rc
        x.last.1.operation Events.pcrTssError provider.api.decodeError] := by
      rw [hfailures, failures, hannounce.records]
      exact List.filter_cons_of_pos (isFailure_failureRecord ..)
    rw [hresult]
    exact (tellsOf_iff_category hrecord ⟨_, hends hannounce.calls, hrc⟩).mpr rfl

/-- **Every operation of the provider agrees with its log.** -/
theorem perform_logAgrees (op : ProviderOp build) (w : World σ) :
    let run := provider.perform op w
    LogAgrees run.1 (w.eventsSince run.2) := by
  intro run
  rcases provider.perform_cases op with ⟨prepared, _, hperform⟩ | ⟨_, hperform⟩
  · rw [show run = provider.carryOut op prepared w from congrFun hperform w]
    exact provider.carryOut_logAgrees op prepared w
  · rw [show run = _ from hperform w, World.eventsSince_self]
    exact logAgrees_uneventful _ (.of_quiet .nil)

end EsysPcrProvider

/-- **When the log agrees with the caller.**  A creation from a configuration agrees with
its log exactly when it does not come to a lookup that fails with a code whose
translation is not an input error.  A creation from an owned TCTI context and the
operations of the provider always agree with their logs. -/
theorem failures_reported (build : BuildOptions) :
    (∀ (tcti : ByteString) (startup : StartupMode) (log : Logger) (tctiApi : TctiLoaderApi σ)
      (api : EsysApi σ) (linked : LinkedApi σ) (w : World σ),
      let config : TpmContextConfig := ⟨tcti, startup, some log⟩
      let run := createContextFromConfig config tctiApi api linked w
      LogAgrees run.1 (w.eventsSince run.2) ↔
        (config.Valid → lookupCode config tctiApi w ≠ tss2RcSuccess →
          (translatedError (lookupCode config tctiApi w)).category = .inputError)) ∧
    (∀ (tcti : UniqueTcti) (startup : StartupMode) (log : Logger) (api : EsysApi σ)
      (linked : LinkedApi σ) (w : World σ),
      let run := createContextFromOwnedTcti tcti startup (some log) api linked w
      LogAgrees run.1 (w.eventsSince run.2)) ∧
    ∀ (provider : EsysPcrProvider σ) (op : ProviderOp build) (w : World σ),
      let run := provider.perform op w
      LogAgrees run.1 (w.eventsSince run.2) :=
  ⟨fun tcti startup log => createContextFromConfig_logAgrees ⟨tcti, startup, some log⟩,
    fun tcti startup log => createContextFromOwnedTcti_logAgrees tcti startup (some log),
    fun provider op w => provider.perform_logAgrees op w⟩

/-- A loader that finds no module. -/
def TctiLoaderApi.empty : TctiLoaderApi Unit :=
  { TctiLoaderApi.obliging with getInfo := fun _ b => (0xa0015, b) }

/-- An unknown module is returned as an input error and logged as a backend error. -/
theorem unknown_module_contradicts_log :
    let run := createContextFromConfig ⟨ascii "absent:config", .clear, some (.client 0)⟩ .empty
      .inert .obliging (⟨(), 0, []⟩ : World Unit)
    let events := World.eventsSince ⟨(), 0, []⟩ run.2
    run.1 = .unexpected ⟨.inputError, "Unknown TCTI name"⟩ ∧
      (failures events).map (LogRecord.field · Events.Fields.errorCategory) =
        [some Events.Values.backendError] ∧
      ¬LogAgrees run.1 events := by
  intro run events
  have hlogged : (failures events).map (LogRecord.field · Events.Fields.errorCategory) =
      [some Events.Values.backendError] := by decide
  have herror : run.1 = .unexpected ⟨.inputError, "Unknown TCTI name"⟩ := rfl
  have hvalid : (⟨ascii "absent:config", .clear, some (.client 0)⟩ : TpmContextConfig).Valid :=
    ⟨by decide, by decide, ascii "absent", ascii "config", by decide, by decide, by decide⟩
  refine ⟨herror, hlogged, fun h => ?_⟩
  have hcategory := (createContextFromConfig_logAgrees _ .empty .inert .obliging _).mp h hvalid
    (by decide)
  exact absurd hcategory (by decide)

end Tpmkit
