import Tpmkit.Attempts
import Tpmkit.ContextRuns

/-!
# Creation step by step

An abstract description of how a context is created.  A creation makes its
calls in a fixed order until one of them fails; each call that succeeds may
announce records, and the one that fails gives the error that is returned.

`createContextFromConfig_follows` connects the description with the code, for
all configurations, every backend and every world.  What the protocol promises
and what the logs reveal can then be read off the answers of the calls.
-/

namespace Tpmkit

open Checked ByteStrings

variable {σ : Type}

/-! ## The protocol -/

/-- What the backend answers to one call of a creation. -/
inductive CreationAnswer where
  | info (rc : TssRc)
  | size (answer : TctiInitAnswer)
  | storage (provided : Bool)
  | init (rc : TssRc)
  | esys (answer : InitializeAnswer)
  | startup (rc : TssRc)

/-- Why a creation fails: the error it returns, and the return code behind it with
the name of the call, if there is one. -/
structure CreationFailure where
  error : Error
  cause : Option (TssRc × ByteString)

/-- A call, with what it answered. -/
abbrev CreationStep : Type := Event × CreationAnswer

/-- A return code that is translated. -/
def CreationFailure.translated (rc : TssRc) (operation : ByteString) : CreationFailure :=
  ⟨translatedError rc, some (rc, operation)⟩

/-- The failure that an answer leads to. -/
def CreationAnswer.failure : CreationAnswer → Option CreationFailure
  | .info rc =>
      if rc ≠ tss2RcSuccess then
        some ⟨⟨.inputError, "Unknown TCTI name"⟩, some (rc, ascii "tcti_init")⟩
      else none
  | .size answer =>
      if answer.rc ≠ tss2RcSuccess then some (.translated answer.rc (ascii "tcti_init"))
      else if answer.size = 0 then
        some ⟨⟨.backendError, "TCTI loader returned invalid context size"⟩, none⟩
      else none
  | .storage provided =>
      if provided then none
      else some ⟨⟨.resourceError, "TCTI loader context allocation failed"⟩, none⟩
  | .init rc =>
      if rc ≠ tss2RcSuccess then some (.translated rc (ascii "tcti_init")) else none
  | .esys answer =>
      if answer.rc ≠ tss2RcSuccess then some (.translated answer.rc (ascii "esys_initialize"))
      else none
  | .startup rc =>
      if rc ≠ tss2RcSuccess ∧ !isStartupAlreadyInitialized rc then
        some (.translated rc (ascii "esys_startup"))
      else none

/-- The return code in an answer. -/
def CreationAnswer.returnCode : CreationAnswer → Option TssRc
  | .info rc => some rc
  | .size answer => some answer.rc
  | .storage _ => none
  | .init rc => some rc
  | .esys answer => some answer.rc
  | .startup rc => some rc

/-- The three kinds of failure: the module is not found, a call fails with a code that
is translated, or a call that succeeds does not give what is needed. -/
theorem CreationAnswer.failure_cases {answer : CreationAnswer} {failure : CreationFailure}
    (h : answer.failure = some failure) :
    (∃ rc, answer = .info rc ∧ rc ≠ tss2RcSuccess ∧
      failure = ⟨⟨.inputError, "Unknown TCTI name"⟩, some (rc, ascii "tcti_init")⟩) ∨
    (∃ rc operation, (∀ code, answer ≠ .info code) ∧ answer.returnCode = some rc ∧
      rc ≠ tss2RcSuccess ∧ failure = .translated rc operation) ∨
    ((∀ rc, answer.returnCode = some rc → rc = tss2RcSuccess) ∧ failure.cause = none ∧
      (failure.error.category = .backendError ∨ failure.error.category = .resourceError)) := by
  cases answer with
  | info rc =>
      simp only [CreationAnswer.failure, Option.ite_none_right_eq_some, Option.some.injEq] at h
      exact Or.inl ⟨rc, rfl, h.1, h.2.symm⟩
  | size answer =>
      by_cases hrc : answer.rc = tss2RcSuccess
      · simp only [CreationAnswer.failure, hrc, ne_eq, not_true_eq_false, if_false,
          Option.ite_none_right_eq_some, Option.some.injEq] at h
        obtain ⟨_, rfl⟩ := h
        exact Or.inr (Or.inr ⟨fun rc hcode => (Option.some.inj hcode).symm.trans hrc, rfl,
          Or.inl rfl⟩)
      · simp only [CreationAnswer.failure, ne_eq, hrc, not_false_eq_true, if_true,
          Option.some.injEq] at h
        exact Or.inr (Or.inl ⟨answer.rc, _, by simp, rfl, hrc, h.symm⟩)
  | storage provided =>
      cases provided <;>
        simp only [CreationAnswer.failure, Bool.false_eq_true, if_false, if_true, reduceCtorEq,
          Option.some.injEq] at h
      subst h
      exact Or.inr (Or.inr ⟨by simp [returnCode], rfl, Or.inr rfl⟩)
  | init rc =>
      simp only [CreationAnswer.failure, Option.ite_none_right_eq_some, Option.some.injEq] at h
      exact Or.inr (Or.inl ⟨rc, _, by simp, rfl, h.1, h.2.symm⟩)
  | esys answer =>
      simp only [CreationAnswer.failure, Option.ite_none_right_eq_some, Option.some.injEq] at h
      exact Or.inr (Or.inl ⟨answer.rc, _, by simp, rfl, h.1, h.2.symm⟩)
  | startup rc =>
      simp only [CreationAnswer.failure, Option.ite_none_right_eq_some, Option.some.injEq] at h
      exact Or.inr (Or.inl ⟨rc, _, by simp, rfl, h.1.1, h.2.symm⟩)

/-- A call that succeeds is answered with success; a startup may also be answered with
the code of a TPM that was started before. -/
theorem CreationAnswer.returnCode_of_none {answer : CreationAnswer} {rc : TssRc}
    (h : answer.failure = none) (hcode : answer.returnCode = some rc) :
    rc = tss2RcSuccess ∨ rc = tpm2RcInitialize := by
  by_contra hfailed
  obtain ⟨hsuccess, hinitialize⟩ := not_or.mp hfailed
  cases answer <;> simp only [returnCode, Option.some.injEq, reduceCtorEq] at hcode <;>
    subst hcode <;> simp [failure, hsuccess, hinitialize, isStartupAlreadyInitialized] at h

/-- The creation goes on after the answer. -/
def CreationAnswer.succeeded (answer : CreationAnswer) : Bool := answer.failure.isNone

/-- `Esys_Initialize` succeeds by its return code alone, whatever pointer it left. -/
theorem CreationAnswer.succeeded_esys {answer : InitializeAnswer} :
    (CreationAnswer.esys answer).succeeded = true ↔ answer.rc = tss2RcSuccess := by
  simp [CreationAnswer.succeeded, CreationAnswer.failure]

/-- A TPM that was started before counts as started. -/
theorem CreationAnswer.succeeded_startup {rc : TssRc} :
    (CreationAnswer.startup rc).succeeded = true ↔
      rc = tss2RcSuccess ∨ rc = tpm2RcInitialize := by
  simp [CreationAnswer.succeeded, CreationAnswer.failure, isStartupAlreadyInitialized,
    or_iff_not_imp_left]

/-- The creation goes on after the step. -/
def CreationStep.succeeded (step : CreationStep) : Bool := step.2.succeeded

/-- The calls of `load_tcti` with the answers they get, and the backend after them. -/
def loadSteps (config : ByteString) (tctiApi : TctiLoaderApi σ) (linked : LinkedApi σ)
    (context : TctiContext) (b : σ) : List CreationStep × σ :=
  let info := tctiApi.getInfo (cStr (tctiName config)) b
  let size := tctiApi.init none 0 none (tctiApi.freeInfo info.2)
  let storage := linked.calloc size.1.size size.2
  let init := tctiApi.init (some context) size.1.size (some (cStr config)) storage.2
  ([(.getInfo (cStr (tctiName config)) info.1, .info info.1),
    (.tctiInit none none size.1.rc, .size size.1),
    (.calloc size.1.size storage.1, .storage storage.1),
    (.tctiInit (some context) (some (cStr config)) init.1.rc, .init init.1.rc)], init.2)

/-- The calls that open a context over a TCTI context; `handle` numbers the next
handle. -/
def openSteps (tcti : Option TctiContext) (mode : StartupMode) (api : EsysApi σ) (handle : Nat)
    (b : σ) : List CreationStep :=
  let answer := api.esysInitialize tcti tss2AbiVersionCurrent b
  let esys : Option EsysContext := if answer.1.context then some ⟨handle⟩ else none
  (.esysInitialize tcti answer.1.rc esys, .esys answer.1) ::
    if mode = .skip then []
    else
      let startup := api.startup esys (startupType mode) answer.2
      [(.esys (.startup esys (startupType mode)) startup.1, .startup startup.1)]

/-- The calls of a creation from a configuration, in order. -/
def creationSteps (config : TpmContextConfig) (tctiApi : TctiLoaderApi σ) (api : EsysApi σ)
    (linked : LinkedApi σ) (w : World σ) : List CreationStep :=
  let load := loadSteps config.tcti tctiApi linked ⟨w.nextHandle⟩ w.backend
  load.1 ++ openSteps (some ⟨w.nextHandle⟩) config.startup api (w.nextHandle + 1) load.2

/-- The answers that some steps receive, up to the first failure. -/
def answersReceived (steps : List CreationStep) : List CreationAnswer :=
  (Attempts.made CreationStep.succeeded steps).map Prod.snd

/-- The answers that the calls of a creation receive. -/
def receivedAnswers (config : TpmContextConfig) (tctiApi : TctiLoaderApi σ) (api : EsysApi σ)
    (linked : LinkedApi σ) (w : World σ) : List CreationAnswer :=
  answersReceived (creationSteps config tctiApi api linked w)

/-- What the records of a creation depend on apart from the answers. -/
structure CreationTerms where
  name : ByteString
  mode : StartupMode
  loaderDecoder : Option TssErrorDecoder
  esysDecoder : Option TssErrorDecoder

namespace CreationTerms

/-- The records that a successful call announces. -/
def announced (terms : CreationTerms) : CreationAnswer → List LogRecord
  | .init _ => [tctiRecord Events.tctiConfigured (ascii "string") terms.name]
  | .esys answer =>
      esysInitializedRecord answer.abiVersion :: startupInvokedRecord terms.mode ::
        if terms.mode = .skip then [startupCompletedRecord terms.mode (ascii "skipped")] else []
  | .startup rc => [startupCompletedRecord terms.mode (startupResultField rc)]
  | _ => []

/-- The decoder that the error of an answer is described with. -/
def decoder (terms : CreationTerms) : CreationAnswer → Option TssErrorDecoder
  | .esys _ => terms.esysDecoder
  | .startup _ => terms.esysDecoder
  | _ => terms.loaderDecoder

/-- The records of a call that fails. -/
def failureRecords (terms : CreationTerms) (answer : CreationAnswer)
    (failure : CreationFailure) : List LogRecord :=
  failure.cause.toList.map fun cause =>
    failedCallRecord cause.1 cause.2 Events.tssError (terms.decoder answer)

/-- The records that a call leads to. -/
def told (terms : CreationTerms) (answer : CreationAnswer) : List LogRecord :=
  match answer.failure with
  | none => terms.announced answer
  | some failure => terms.failureRecords answer failure

end CreationTerms

/-! ## What is seen of a creation -/

/-- The event is a call that is answered. -/
def Event.isAnswered : Event → Bool
  | .getInfo .. => true
  | .tctiInit .. => true
  | .calloc .. => true
  | .esysInitialize .. => true
  | .esys .. => true
  | _ => false

/-- The answered calls among some events, in order. -/
def answeredCalls (events : List Event) : List Event := events.filter Event.isAnswered

@[simp] theorem answeredCalls_nil : answeredCalls [] = [] := rfl

/-- The calls of two parts are those of the one and then those of the other. -/
@[simp] theorem answeredCalls_append (events events' : List Event) :
    answeredCalls (events ++ events') = answeredCalls events ++ answeredCalls events' :=
  List.filter_append ..

/-- An event counts if it is a call with an answer. -/
theorem answeredCalls_cons (event : Event) (events : List Event) :
    answeredCalls (event :: events) =
      (if event.isAnswered then [event] else []) ++ answeredCalls events := by
  unfold answeredCalls
  cases h : event.isAnswered <;> simp [h]

/-- The events hold these records and no answered call. -/
structure Quiet (events : List Event) (logged : List LogRecord) : Prop where
  calls : answeredCalls events = []
  records : records events = logged

/-- Where nothing happens nothing is called and nothing logged. -/
theorem Quiet.nil : Quiet [] [] := ⟨rfl, rfl⟩

/-- A record is no call. -/
theorem Quiet.log (log : Logger) (entry : LogRecord) : Quiet (log.events entry) [entry] :=
  ⟨rfl, rfl⟩

/-- Two parts without a call make one. -/
theorem Quiet.append {events events' : List Event} {logged logged' : List LogRecord}
    (h : Quiet events logged) (h' : Quiet events' logged') :
    Quiet (events ++ events') (logged ++ logged') :=
  ⟨by rw [answeredCalls_append, h.calls, h'.calls]; rfl,
    by rw [records_append, h.records, h'.records]⟩

/-- Reporting a failure logs its record. -/
theorem Quiet.failureEvents (log : Logger) (rc : TssRc) (operation : ByteString)
    (errorEvent : EventDescriptor) (decoder : Option TssErrorDecoder) :
    Quiet (failureEvents (some log) rc operation errorEvent decoder)
      [failedCallRecord rc operation errorEvent decoder] := by
  rw [failureEvents_some]
  exact .log ..

/-- Finalizers run on the way out of a creation; they count as no call of it. -/
theorem Quiet.deleterEvents (linked : LinkedApi σ) (deleter : TctiDeleter)
    (context : TctiContext) (b : σ) : Quiet (deleterEvents linked deleter context b) [] := by
  cases deleter with
  | releaseFailedTctiInit =>
      unfold Tpmkit.deleterEvents
      cases (linked.tctiLdrFinalize context b).1 <;> exact ⟨rfl, rfl⟩
  | _ => exact ⟨rfl, rfl⟩

/-- Nor does the end of an ESYS context. -/
theorem Quiet.destroyEvents (api : EsysApi σ) (esys : Option EsysContext) :
    Quiet (api.destroyEvents esys) [] := by
  unfold EsysApi.destroyEvents
  split <;> exact ⟨rfl, rfl⟩

/-- The events are those of a procedure with these steps: its calls up to the first
failure, and the records they lead to. -/
structure CreationTerms.Follows (terms : CreationTerms) (steps : List CreationStep)
    (events : List Event) : Prop where
  calls : answeredCalls events = (Attempts.made CreationStep.succeeded steps).map Prod.fst
  records : records events =
    (Attempts.made CreationStep.succeeded steps).flatMap fun step => terms.told step.2

/-- All steps succeed, with these events. -/
structure CreationTerms.Succeeds (terms : CreationTerms) (steps : List CreationStep)
    (events : List Event) : Prop where
  follows : terms.Follows steps events
  all : ∀ step ∈ steps, step.succeeded = true

/-- A step fails, with this failure and after these events. -/
structure CreationTerms.FailsWith (terms : CreationTerms) (steps : List CreationStep)
    (failure : CreationFailure) (events : List Event) : Prop where
  follows : terms.Follows steps events
  failing : ∃ step, Attempts.failing CreationStep.succeeded steps = some step ∧
    step.2.failure = some failure

section Rules

variable {terms : CreationTerms} {steps later : List CreationStep} {step : CreationStep}
  {failure : CreationFailure} {events events' : List Event}

/-- A step without a failure succeeded. -/
theorem CreationStep.succeeded_of_none (h : step.2.failure = none) : step.succeeded = true := by
  simp [CreationStep.succeeded, CreationAnswer.succeeded, h]

/-- A step with a failure did not. -/
theorem CreationStep.succeeded_of_some (h : step.2.failure = some failure) :
    step.succeeded = false := by
  simp [CreationStep.succeeded, CreationAnswer.succeeded, h]

/-- Events that hold neither a call nor a record change nothing. -/
theorem CreationTerms.Follows.quiet (h : terms.Follows steps events) (hquiet : Quiet events' []) :
    terms.Follows steps (events ++ events') :=
  ⟨by rw [answeredCalls_append, hquiet.calls, h.calls, List.append_nil],
    by rw [records_append, hquiet.records, h.records, List.append_nil]⟩

/-- A step that succeeds, in front of others. -/
theorem CreationTerms.Follows.cons (hcall : step.1.isAnswered = true)
    (hrecord : Tpmkit.records [step.1] = []) (hstep : step.2.failure = none)
    (hquiet : Quiet events' (terms.announced step.2)) (h : terms.Follows steps events) :
    terms.Follows (step :: steps) (step.1 :: (events' ++ events)) := by
  have hmade := Attempts.made_cons_of_ok (CreationStep.succeeded_of_none hstep) steps
  have htold : terms.told step.2 = terms.announced step.2 := by rw [told, hstep]
  constructor
  · rw [answeredCalls_cons, answeredCalls_append, hquiet.calls, h.calls, if_pos hcall, hmade]
    rfl
  · rw [← List.singleton_append, records_append, hrecord, records_append, hquiet.records,
      h.records, hmade, List.flatMap_cons, htold, List.nil_append]

/-- Steps after those that succeeded. -/
theorem CreationTerms.Follows.append (h : terms.Follows steps events)
    (hall : ∀ step ∈ steps, step.succeeded = true) (h' : terms.Follows later events') :
    terms.Follows (steps ++ later) (events ++ events') := by
  have hmade : Attempts.made CreationStep.succeeded steps = steps := Attempts.made_of_all hall
  constructor
  · rw [answeredCalls_append, h.calls, h'.calls, Attempts.made_append_of_all hall, hmade,
      List.map_append]
  · rw [records_append, h.records, h'.records, Attempts.made_append_of_all hall, hmade,
      List.flatMap_append]

namespace CreationTerms.Succeeds

/-- Nothing to do succeeds with nothing to see. -/
theorem nil : terms.Succeeds [] [] := ⟨⟨rfl, rfl⟩, fun _ hmem => absurd hmem List.not_mem_nil⟩

/-- A first step that succeeds: its call, and then what it announces. -/
theorem cons (hcall : step.1.isAnswered = true) (hrecord : records [step.1] = [])
    (hstep : step.2.failure = none) (hquiet : Quiet events' (terms.announced step.2))
    (h : terms.Succeeds steps events) :
    terms.Succeeds (step :: steps) (step.1 :: (events' ++ events)) :=
  ⟨.cons hcall hrecord hstep hquiet h.follows,
    List.forall_mem_cons.mpr ⟨CreationStep.succeeded_of_none hstep, h.all⟩⟩

/-- Two parts that succeed, one after the other. -/
theorem append (h : terms.Succeeds steps events) (h' : terms.Succeeds later events') :
    terms.Succeeds (steps ++ later) (events ++ events') :=
  ⟨h.follows.append h.all h'.follows, List.forall_mem_append.mpr ⟨h.all, h'.all⟩⟩

/-- A part that succeeds before one that fails. -/
theorem fails (h : terms.Succeeds steps events) (h' : terms.FailsWith later failure events') :
    terms.FailsWith (steps ++ later) failure (events ++ events') := by
  obtain ⟨hfollows, failed, hfailing, hfailure⟩ := h'
  exact ⟨h.follows.append h.all hfollows, failed,
    by rw [Attempts.failing_append_of_all h.all, hfailing], hfailure⟩

end CreationTerms.Succeeds

namespace CreationTerms.FailsWith

/-- A step that fails ends the procedure. -/
theorem stop (hcall : step.1.isAnswered = true) (hrecord : records [step.1] = [])
    (hstep : step.2.failure = some failure)
    (hquiet : Quiet events' (terms.failureRecords step.2 failure)) :
    terms.FailsWith (step :: steps) failure (step.1 :: events') := by
  have hfailed := CreationStep.succeeded_of_some hstep
  have hmade := Attempts.made_cons_of_not hfailed steps
  have htold : terms.told step.2 = terms.failureRecords step.2 failure := by rw [told, hstep]
  refine ⟨⟨?_, ?_⟩, step, by simp [Attempts.failing, hfailed], hstep⟩
  · rw [answeredCalls_cons, hquiet.calls, if_pos hcall, hmade]
    rfl
  · rw [← List.singleton_append, records_append, hrecord, hquiet.records, hmade]
    simp [htold]

/-- A first step that succeeds before the failure. -/
theorem cons (hcall : step.1.isAnswered = true) (hrecord : records [step.1] = [])
    (hstep : step.2.failure = none) (hquiet : Quiet events' (terms.announced step.2))
    (h : terms.FailsWith steps failure events) :
    terms.FailsWith (step :: steps) failure (step.1 :: (events' ++ events)) := by
  obtain ⟨hfollows, failed, hfailing, hfailure⟩ := h
  have hsucceeded := CreationStep.succeeded_of_none hstep
  exact ⟨.cons hcall hrecord hstep hquiet hfollows, failed,
    by simpa [Attempts.failing, hsucceeded] using hfailing, hfailure⟩

/-- What is undone after the failure is not seen. -/
theorem quiet (h : terms.FailsWith steps failure events) (hquiet : Quiet events' []) :
    terms.FailsWith steps failure (events ++ events') :=
  ⟨h.follows.quiet hquiet, h.failing⟩

/-- A procedure that failed does not go on. -/
theorem cut (h : terms.FailsWith steps failure events) :
    terms.FailsWith (steps ++ later) failure events := by
  obtain ⟨hfollows, failed, hfailing, hfailure⟩ := h
  have hmade := Attempts.made_append_of_failing hfailing later
  exact ⟨⟨by rw [hfollows.calls, hmade], by rw [hfollows.records, hmade]⟩, failed,
    Attempts.failing_append_of_failing hfailing later, hfailure⟩

end CreationTerms.FailsWith

end Rules

/-! ## The two readings of a configuration -/

/-- The redacted name of a configuration that the loader accepts: its name if it
is a known one. -/
theorem sanitizedTctiName_of_valid {config : ByteString} (h : ValidConfig config) :
    sanitizedTctiName config =
      if isKnownTctiName (tctiName config) then tctiName config else ascii "<custom>" := by
  obtain ⟨name, args, hname, hcolon, rfl⟩ := h.shape
  have hfind : findColon (name ++ colon :: args) = some name.length := by
    rw [findColon, List.findIdx?_eq_some_iff_getElem]
    refine ⟨by simp, by simp, fun j hj => ?_⟩
    have hne : name[j] ≠ colon := fun heq => hcolon (heq ▸ List.getElem_mem hj)
    simp [List.getElem_append_left hj, hne]
  have hlength : name.length ≠ 0 := fun hzero => hname (List.length_eq_zero_iff.mp hzero)
  simp [sanitizedTctiName, tctiName, h.trimmed, hfind, hname]

/-- A valid configuration has a name to log. -/
theorem sanitizedTctiName_ne_nil {config : ByteString} (h : ValidConfig config) :
    sanitizedTctiName config ≠ [] := by
  rw [sanitizedTctiName_of_valid h]
  split
  · next hknown =>
      intro hempty
      rw [hempty] at hknown
      exact absurd hknown (by decide)
  · decide

/-- A configuration that the loader refuses has no redacted name either. -/
theorem sanitizedTctiName_of_not_valid {config : ByteString} (h : ¬ValidConfig config) :
    sanitizedTctiName config = [] := by
  cases hfind : findColon (trim config) with
  | none => simp [sanitizedTctiName, hfind]
  | some position =>
      -- with a name in front of a colon, the loader refuses for the space alone
      by_cases hlength : (trim config).length = config.length
      swap
      · simp [sanitizedTctiName, hfind, hlength]
      have htrim := trim_eq_of_length hlength
      rw [htrim] at hfind
      have hposition : position = 0 := by
        by_contra hne
        refine h ⟨htrim, hasNameArgsShape_iff.mp ?_⟩
        simp [hasNameArgsShape, hfind, Nat.pos_of_ne_zero hne]
      simp [sanitizedTctiName, htrim, hfind, hposition]

/-! ## The phases -/

section Load

variable {config : ByteString} (h : ValidConfig config) (log : Logger) (tctiApi : TctiLoaderApi σ)
  (linked : LinkedApi σ) (w : World σ)

/-- The storage for a TCTI context is obtained step by step. -/
theorem allocateTctiLoaderContext_follows (terms : CreationTerms)
    (hdecoder : terms.loaderDecoder = tctiApi.decodeError) {query : TctiInitAnswer}
    {storage : Bool} {b b' : σ} (hquery : tctiApi.init none 0 none w.backend = (query, b))
    (hcalloc : linked.calloc query.size b = (storage, b')) :
    let steps : List CreationStep :=
      [(.tctiInit none none query.rc, .size query), (.calloc query.size storage, .storage storage)]
    (∃ events, terms.Succeeds steps events ∧
      allocateTctiLoaderContext (some log) tctiApi linked w =
        (.value ⟨⟨some ⟨w.nextHandle⟩, some .releaseFailedTctiInit⟩, query.size⟩,
          w.acquired.after b' events)) ∨
    ∃ failure b'' events, terms.FailsWith steps failure events ∧
      allocateTctiLoaderContext (some log) tctiApi linked w =
        (.unexpected failure.error, w.after b'' events) := by
  intro steps
  by_cases hrc : query.rc = tss2RcSuccess
  swap
  · have hfailure : (CreationAnswer.size query).failure =
        some (.translated query.rc (ascii "tcti_init")) := by
      simp [CreationAnswer.failure, hrc]
    refine Or.inr ⟨_, b, _, .stop rfl rfl hfailure
      (.failureEvents log query.rc (ascii "tcti_init") Events.tssError terms.loaderDecoder), ?_⟩
    simp [allocateTctiLoaderContext, CreationFailure.translated, hquery, hrc, hdecoder]
  by_cases hsize : query.size = 0
  · have hfailure : (CreationAnswer.size query).failure =
        some ⟨⟨.backendError, "TCTI loader returned invalid context size"⟩, none⟩ := by
      simp [CreationAnswer.failure, hrc, hsize]
    refine Or.inr ⟨_, b, _, .stop rfl rfl hfailure .nil, ?_⟩
    simp [allocateTctiLoaderContext, hquery, hrc, hsize]
  have hsucceeded : (CreationAnswer.size query).failure = none := by
    simp [CreationAnswer.failure, hrc, hsize]
  cases storage with
  | false =>
      refine Or.inr ⟨_, b', _, .cons rfl rfl hsucceeded .nil (.stop rfl rfl rfl .nil), ?_⟩
      simp [allocateTctiLoaderContext, hquery, hcalloc, hrc, hsize]
  | true =>
      refine Or.inl ⟨_, .cons rfl rfl hsucceeded .nil (.cons rfl rfl rfl .nil .nil), ?_⟩
      simp [allocateTctiLoaderContext, hquery, hcalloc, hrc, hsize]

/-- What is logged first. -/
def configuringEvents (log : Logger) (config : ByteString) : List Event :=
  log.events (tctiRecord Events.tctiConfiguring (ascii "string") (sanitizedTctiName config))

include h

/-- `resolve_tcti` announces the load, and afterwards that it is done. -/
theorem resolveTcti_of_valid :
    resolveTcti config log tctiApi linked w =
      (loadTcti config (some log) tctiApi linked >>= fun loaded => do
        emit log (tctiRecord Events.tctiConfigured (ascii "string") (sanitizedTctiName config))
        return loaded) (w.after w.backend (configuringEvents log config)) := by
  have hname : (sanitizedTctiName config).isEmpty = false := by
    simpa using sanitizedTctiName_ne_nil h
  simp [resolveTcti, hname, configuringEvents]

/-- A load that fails fails the resolution, and `tcti_configured` is not announced. -/
theorem resolveTcti_of_unexpected {e : Error} {w' : World σ}
    (hload : loadTcti config (some log) tctiApi linked
      (w.after w.backend (configuringEvents log config)) = (.unexpected e, w')) :
    resolveTcti config log tctiApi linked w = (.unexpected e, w') := by
  rw [resolveTcti_of_valid h, Program.bind_apply, hload]
  rfl

/-- A creation loads its TCTI context step by step. -/
theorem resolveTcti_follows (terms : CreationTerms) (hname : terms.name = sanitizedTctiName config)
    (hdecoder : terms.loaderDecoder = tctiApi.decodeError) :
    let load := loadSteps config tctiApi linked ⟨w.nextHandle⟩ w.backend
    (∃ events, terms.Succeeds load.1 events ∧ resolveTcti config log tctiApi linked w =
      (.value ⟨some ⟨w.nextHandle⟩, some .finalizeLoadedTcti⟩,
        w.acquired.after load.2 (configuringEvents log config ++ events))) ∨
    ∃ failure events w', terms.FailsWith load.1 failure events ∧
      resolveTcti config log tctiApi linked w = (.unexpected failure.error, w') ∧
      w'.trace = w.trace ++ (configuringEvents log config ++ events) := by
  intro load
  let w₀ := w.after w.backend (configuringEvents log config)
  obtain ⟨infoRc, b₁, hinfo⟩ : ∃ rc b, tctiApi.getInfo (cStr (tctiName config)) w.backend =
    (rc, b) := ⟨_, _, rfl⟩
  obtain ⟨query, b₂, hquery⟩ : ∃ query b, tctiApi.init none 0 none (tctiApi.freeInfo b₁) =
    (query, b) := ⟨_, _, rfl⟩
  obtain ⟨storage, b₃, hcalloc⟩ : ∃ storage b, linked.calloc query.size b₂ = (storage, b) :=
    ⟨_, _, rfl⟩
  obtain ⟨answer, b₄, hinit⟩ : ∃ answer b, tctiApi.init (some ⟨w.nextHandle⟩) query.size
    (some (cStr config)) b₃ = (answer, b) := ⟨_, _, rfl⟩
  have hsteps : load = ((.getInfo (cStr (tctiName config)) infoRc, .info infoRc) ::
      ([(.tctiInit none none query.rc, .size query),
        (.calloc query.size storage, .storage storage)] ++
      [(.tctiInit (some ⟨w.nextHandle⟩) (some (cStr config)) answer.rc, .init answer.rc)]), b₄) := by
    simp only [load, loadSteps, hinfo, hquery, hcalloc, hinit]
    rfl
  rw [hsteps]
  have hinfo₀ : tctiApi.getInfo (cStr (tctiName config)) w₀.backend = (infoRc, b₁) := hinfo
  have hfree : Quiet [.freeInfo] [] := ⟨rfl, rfl⟩
  by_cases hknown : infoRc = tss2RcSuccess
  swap
  · have hrun := resolveTcti_of_unexpected h log tctiApi linked w
      (loadTcti_unknown h (some log) tctiApi linked hinfo₀ hknown)
    have hfailure : (CreationAnswer.info infoRc).failure =
        some ⟨⟨.inputError, "Unknown TCTI name"⟩, some (infoRc, ascii "tcti_init")⟩ := by
      simp [CreationAnswer.failure, hknown]
    refine Or.inr ⟨_, _, _, .stop rfl rfl hfailure (hfree.append (.failureEvents log infoRc
      (ascii "tcti_init") Events.tssError terms.loaderDecoder)), hrun, ?_⟩
    simp [hdecoder]
  subst hknown
  let w₁ := w₀.after (tctiApi.freeInfo b₁)
    [.getInfo (cStr (tctiName config)) tss2RcSuccess, .freeInfo]
  have hquery₁ : tctiApi.init none 0 none w₁.backend = (query, b₂) := hquery
  rcases allocateTctiLoaderContext_follows log tctiApi linked w₁ terms hdecoder hquery₁ hcalloc with
    ⟨events, hsucceeds, hpending⟩ | ⟨failure, b'', events, hfails, hpending⟩
  swap
  · have hrun := resolveTcti_of_unexpected h log tctiApi linked w
      (loadTcti_unallocated h (some log) tctiApi linked hinfo₀ hpending)
    refine Or.inr ⟨failure, _, _, .cons rfl rfl rfl hfree hfails.cut, hrun, ?_⟩
    simp [w₁, w₀]
  by_cases hloaded : answer.rc = tss2RcSuccess
  · have hload := loadTcti_initialized h (some log) tctiApi linked hinfo₀ hpending hinit hloaded
    have hsucceeded : (CreationAnswer.init answer.rc).failure = none := by
      simp [CreationAnswer.failure, hloaded]
    refine Or.inl ⟨_, .cons rfl rfl rfl hfree (hsucceeds.append
      (.cons rfl rfl hsucceeded (.log log _) .nil)), ?_⟩
    rw [resolveTcti_of_valid h, Program.bind_apply, hload]
    simp [w₁, w₀, hloaded, hname]
  · have hrun := resolveTcti_of_unexpected h log tctiApi linked w
      (loadTcti_not_initialized h (some log) tctiApi linked hinfo₀ hpending hinit hloaded)
    have hfailure : (CreationAnswer.init answer.rc).failure =
        some (.translated answer.rc (ascii "tcti_init")) := by
      simp [CreationAnswer.failure, hloaded]
    refine Or.inr ⟨_, _, _, .cons rfl rfl rfl hfree (hsucceeds.fails (.stop rfl rfl hfailure
      ((Quiet.failureEvents log answer.rc (ascii "tcti_init") Events.tssError
        terms.loaderDecoder).append
          (.deleterEvents linked .releaseFailedTctiInit ⟨w.nextHandle⟩ b₄)))), hrun, ?_⟩
    simp [w₁, w₀, hdecoder]

end Load

section Open

variable (context : TctiContext) (deleter : TctiDeleter) (mode : StartupMode) (log : Logger)
  (api : EsysApi σ) (linked : LinkedApi σ) (w : World σ)

/-- A context over a TCTI context is opened step by step. -/
theorem createFromResolvedTcti_follows (terms : CreationTerms) (hmode : terms.mode = mode)
    (hdecoder : terms.esysDecoder = api.decodeError) :
    let steps := openSteps (some context) mode api w.nextHandle w.backend
    let run := createFromResolvedTcti ⟨some context, some deleter⟩ mode log api linked w
    (∃ esys events, terms.Succeeds steps events ∧
      run.1 = .value ⟨some ⟨⟨some context, some deleter⟩, esys, log, api⟩⟩ ∧
      run.2.trace = w.trace ++ events) ∨
    ∃ failure events, terms.FailsWith steps failure events ∧
      run.1 = .unexpected failure.error ∧ run.2.trace = w.trace ++ events := by
  intro steps run
  obtain ⟨answer, b, hanswer⟩ : ∃ answer b, api.esysInitialize (some context)
    tss2AbiVersionCurrent w.backend = (answer, b) := ⟨_, _, rfl⟩
  obtain ⟨esys, hesys⟩ : ∃ esys : Option EsysContext,
    (if answer.context then some ⟨w.nextHandle⟩ else none) = esys := ⟨_, rfl⟩
  obtain ⟨rc, b', hstartup⟩ : ∃ rc b', api.startup esys (startupType mode) b = (rc, b') :=
    ⟨_, _, rfl⟩
  have hsteps : steps = (.esysInitialize (some context) answer.rc esys, .esys answer) ::
      if mode = .skip then []
      else [(.esys (.startup esys (startupType mode)) rc, .startup rc)] := by
    simp only [steps, openSteps, hanswer, hesys, hstartup]
  rw [hsteps]
  obtain ⟨w₁, hobtained, hruns⟩ := initializeEsys_run log hanswer hesys
  have htrace := hobtained.trace_eq
  rcases hruns with ⟨hrc, hopen⟩ | ⟨hrc, hopen⟩
  swap
  · have hfailure : (CreationAnswer.esys answer).failure =
        some (.translated answer.rc (ascii "esys_initialize")) := by
      simp [CreationAnswer.failure, hrc]
    have hrun : run = _ := createFromResolvedTcti_not_initialized hopen
    refine Or.inr ⟨_, _, .stop rfl rfl hfailure ((Quiet.failureEvents log answer.rc
      (ascii "esys_initialize") Events.tssError terms.esysDecoder).append
        (.deleterEvents linked deleter context b)), by rw [hrun]; rfl, ?_⟩
    simp [hrun, htrace, hdecoder]
  have hopened : (CreationAnswer.esys answer).failure = none := by
    simp [CreationAnswer.failure, hrc]
  by_cases hskip : mode = .skip
  · subst hskip
    have hannounced : terms.announced (.esys answer) =
        [esysInitializedRecord answer.abiVersion] ++ ([startupInvokedRecord .skip] ++
          [startupCompletedRecord .skip (ascii "skipped")]) := by
      simp [CreationTerms.announced, hmode]
    have hrun : run = _ := createFromResolvedTcti_started hopen (startTpm_skip esys log api _)
    rw [if_pos rfl]
    refine Or.inl ⟨esys, _, .cons rfl rfl hopened (hannounced ▸ (Quiet.log log _).append
      ((Quiet.log log _).append (.log log _))) .nil, by rw [hrun], ?_⟩
    simp [hrun, htrace]
  have hannounced : terms.announced (.esys answer) =
      [esysInitializedRecord answer.abiVersion] ++ [startupInvokedRecord mode] := by
    simp [CreationTerms.announced, hmode, hskip]
  have hquiet : Quiet (log.events (esysInitializedRecord answer.abiVersion) ++
      log.events (startupInvokedRecord mode)) (terms.announced (.esys answer)) :=
    hannounced ▸ (Quiet.log log _).append (.log log _)
  rw [if_neg hskip]
  have hstartup₁ : api.startup esys (startupType mode) (w₁.after b
      (.esysInitialize (some context) answer.rc esys ::
        log.events (esysInitializedRecord answer.abiVersion))).backend = (rc, b') := hstartup
  rcases startTpm_run log hskip hstartup₁ with ⟨hfails, hstart⟩ | ⟨hstarted, hstart⟩
  · have hfailure : (CreationAnswer.startup rc).failure =
        some (.translated rc (ascii "esys_startup")) := by
      simp [CreationAnswer.failure, hfails]
    have hrun : run = _ := createFromResolvedTcti_not_started hopen hstart
    refine Or.inr ⟨_, _, .cons rfl rfl hopened hquiet (.stop rfl rfl hfailure
      ((Quiet.failureEvents log rc (ascii "esys_startup") Events.tssError
        terms.esysDecoder).append ((Quiet.destroyEvents api esys).append
          (.deleterEvents linked deleter context (api.destroyedState esys b'))))),
      by rw [hrun]; rfl, ?_⟩
    simp [hrun, htrace, hdecoder]
  · have hsucceeded : (CreationAnswer.startup rc).failure = none := by
      simp [CreationAnswer.failure, hstarted]
    have hcompleted : Quiet (log.events (startupCompletedRecord mode (startupResultField rc)))
        (terms.announced (.startup rc)) := hmode ▸ .log log _
    have hrun : run = _ := createFromResolvedTcti_started hopen hstart
    refine Or.inl ⟨esys, _, .cons rfl rfl hopened hquiet
      (.cons rfl rfl hsucceeded hcompleted .nil), by rw [hrun], ?_⟩
    simp [hrun, htrace]

end Open

/-! ## A creation from a configuration -/

/-- The configuration passes both validations. -/
structure TpmContextConfig.Valid (config : TpmContextConfig) : Prop where
  startup : isValidStartupMode config.startup = true
  tcti : ValidConfig config.tcti

/-- The terms of a creation. -/
def CreationTerms.ofConfig (config : TpmContextConfig) (tctiApi : TctiLoaderApi σ)
    (api : EsysApi σ) : CreationTerms :=
  ⟨sanitizedTctiName config.tcti, config.startup, tctiApi.decodeError, api.decodeError⟩

section Creation

variable {config : TpmContextConfig} (tctiApi : TctiLoaderApi σ) (api : EsysApi σ)
  (linked : LinkedApi σ) (w : World σ)

/-- **A creation follows its steps.**  It announces the load, makes its calls up to
the first failure, and returns a context or the error of that failure. -/
theorem createContextFromConfig_follows (h : config.Valid) :
    let terms := CreationTerms.ofConfig config tctiApi api
    let steps := creationSteps config tctiApi api linked w
    let run := createContextFromConfig config tctiApi api linked w
    let log := effectiveLogger config.log
    (∃ esys events, terms.Succeeds steps events ∧ run.1 = .value
        ⟨some ⟨⟨some ⟨w.nextHandle⟩, some .finalizeLoadedTcti⟩, esys, log, api⟩⟩ ∧
      run.2.trace = w.trace ++ (configuringEvents log config.tcti ++ events)) ∨
    ∃ failure events, terms.FailsWith steps failure events ∧ run.1 = .unexpected failure.error ∧
      run.2.trace = w.trace ++ (configuringEvents log config.tcti ++ events) := by
  intro terms steps run log
  rcases resolveTcti_follows h.tcti log tctiApi linked w terms rfl rfl with
    ⟨loaded, hloaded, hresolve⟩ | ⟨failure, events, w', hfails, hresolve, htrace⟩
  swap
  · have hrun : run = (.unexpected failure.error, w') := by
      simp [run, createContextFromConfig, validateStartup, h.startup, hresolve, log]
    exact Or.inr ⟨failure, events, hfails.cut, by rw [hrun], by rw [hrun, htrace]⟩
  let load := loadSteps config.tcti tctiApi linked ⟨w.nextHandle⟩ w.backend
  let w₁ := w.acquired.after load.2 (configuringEvents log config.tcti ++ loaded)
  have hrun : run = createFromResolvedTcti ⟨some ⟨w.nextHandle⟩, some .finalizeLoadedTcti⟩
      config.startup log api linked w₁ := by
    simp [run, createContextFromConfig, validateStartup, h.startup, hresolve,
      createFromResolvedTcti_onExit, log, w₁, load]
  have htrace : w₁.trace = w.trace ++ (configuringEvents log config.tcti ++ loaded) := rfl
  rcases createFromResolvedTcti_follows ⟨w.nextHandle⟩ .finalizeLoadedTcti config.startup log api
      linked w₁ terms rfl rfl with
    ⟨esys, events, hopened, hvalue, hworld⟩ | ⟨failure, events, hfails, herror, hworld⟩
  · refine Or.inl ⟨esys, loaded ++ events, hloaded.append hopened, by rw [hrun, hvalue], ?_⟩
    rw [hrun, hworld, htrace]
    simp
  · refine Or.inr ⟨failure, loaded ++ events, hloaded.fails hfails, by rw [hrun, herror], ?_⟩
    rw [hrun, hworld, htrace]
    simp

/-- What is seen of a creation, and when it succeeds, from its steps. -/
theorem createContextFromConfig_seen (h : config.Valid) :
    let terms := CreationTerms.ofConfig config tctiApi api
    let steps := creationSteps config tctiApi api linked w
    let run := createContextFromConfig config tctiApi api linked w
    answeredCalls (w.eventsSince run.2) =
        (Attempts.made CreationStep.succeeded steps).map Prod.fst ∧
      records (w.eventsSince run.2) =
        tctiRecord Events.tctiConfiguring (ascii "string") terms.name ::
          (Attempts.made CreationStep.succeeded steps).flatMap (fun step => terms.told step.2) ∧
      ((∃ context, run.1 = .value context) ↔ ∀ step ∈ steps, step.succeeded = true) := by
  intro terms steps run
  have hseen : ∀ events, terms.Follows steps events → run.2.trace = w.trace ++
      (configuringEvents (effectiveLogger config.log) config.tcti ++ events) →
      answeredCalls (w.eventsSince run.2) =
          (Attempts.made CreationStep.succeeded steps).map Prod.fst ∧
        records (w.eventsSince run.2) =
          tctiRecord Events.tctiConfiguring (ascii "string") terms.name ::
            (Attempts.made CreationStep.succeeded steps).flatMap fun step => terms.told step.2 := by
    intro events hfollows htrace
    rw [World.eventsSince_of_trace htrace, answeredCalls_append, records_append, hfollows.calls,
      hfollows.records]
    exact ⟨rfl, rfl⟩
  rcases createContextFromConfig_follows tctiApi api linked w h with
    ⟨esys, events, hsucceeds, hvalue, htrace⟩ | ⟨failure, events, hfails, herror, htrace⟩
  · obtain ⟨hcalls, hrecords⟩ := hseen events hsucceeds.follows htrace
    exact ⟨hcalls, hrecords, fun _ => hsucceeds.all, fun _ => ⟨_, hvalue⟩⟩
  · obtain ⟨hcalls, hrecords⟩ := hseen events hfails.follows htrace
    obtain ⟨step, hfailing, _⟩ := hfails.failing
    refine ⟨hcalls, hrecords, fun ⟨context, hvalue⟩ => ?_, fun hall => ?_⟩
    · rw [show run.1 = _ from herror] at hvalue
      cases hvalue
    · rw [Attempts.failing_eq_none_iff.mpr hall] at hfailing
      cases hfailing

/-- There is one error for every configuration that is not valid. -/
theorem validateConfig_error {text : ByteString} {e : Error}
    (h : validateConfig text = .unexpected e) :
    e = ⟨.inputError, "TCTI configuration must use name:args format"⟩ := by
  unfold validateConfig at h
  simp only [fail] at h
  split at h
  · cases h
    rfl
  · split at h
    · cases h
      rfl
    · split at h <;> cases h
      rfl

/-- The startup mode is looked at first. -/
theorem createContextFromConfig_of_bad_startup (h : isValidStartupMode config.startup = false) :
    createContextFromConfig config tctiApi api linked w =
      (.unexpected ⟨.inputError, "TPM startup mode is invalid"⟩, w) := by
  simp [createContextFromConfig, validateStartup, h, fail]

/-- A configuration that is not valid is refused before anything happens. -/
theorem createContextFromConfig_of_bad_tcti (hstartup : isValidStartupMode config.startup = true)
    (h : ¬ValidConfig config.tcti) :
    createContextFromConfig config tctiApi api linked w =
      (.unexpected ⟨.inputError, "TCTI configuration must use name:args format"⟩, w) := by
  rcases validateConfig_cases config.tcti with ⟨hvalid, _⟩ | ⟨_, e, he⟩
  · exact absurd hvalid h
  · rw [← validateConfig_error he]
    simp [createContextFromConfig, validateStartup, hstartup, resolveTcti,
      sanitizedTctiName_of_not_valid h, loadTcti, he]

/-- A creation that is refused changes nothing. -/
theorem createContextFromConfig_of_not_valid (h : ¬config.Valid) :
    ∃ e, e.category = .inputError ∧
      createContextFromConfig config tctiApi api linked w = (.unexpected e, w) := by
  cases hstartup : isValidStartupMode config.startup with
  | false => exact ⟨_, rfl, createContextFromConfig_of_bad_startup tctiApi api linked w hstartup⟩
  | true =>
      have htcti : ¬ValidConfig config.tcti := fun htcti => h ⟨hstartup, htcti⟩
      exact ⟨_, rfl, createContextFromConfig_of_bad_tcti tctiApi api linked w hstartup htcti⟩

end Creation

/-! ## A creation from an owned TCTI context -/

/-- What is logged first. -/
def ownedEvents (log : Logger) : List Event :=
  log.events (tctiRecord Events.tctiConfiguring (ascii "owned_handle") (ascii "<owned>")) ++
    log.events (tctiRecord Events.tctiConfigured (ascii "owned_handle") (ascii "<owned>"))

section Owned

variable {startup : StartupMode} (log : Option Logger) (api : EsysApi σ) (linked : LinkedApi σ)
  (w : World σ)

/-- A creation from an owned TCTI context follows the steps that open it. -/
theorem createContextFromOwnedTcti_follows (hstartup : isValidStartupMode startup = true)
    (context : TctiContext) (deleter : TctiDeleter) (terms : CreationTerms)
    (hmode : terms.mode = startup) (hdecoder : terms.esysDecoder = api.decodeError) :
    let steps := openSteps (some context) startup api w.nextHandle w.backend
    let run := createContextFromOwnedTcti ⟨some context, some deleter⟩ startup log api linked w
    (∃ created events, terms.Succeeds steps events ∧ run.1 = .value created ∧
      run.2.trace = w.trace ++ (ownedEvents (effectiveLogger log) ++ events)) ∨
    ∃ failure events, terms.FailsWith steps failure events ∧ run.1 = .unexpected failure.error ∧
      run.2.trace = w.trace ++ (ownedEvents (effectiveLogger log) ++ events) := by
  intro steps run
  let w₁ := w.after w.backend (ownedEvents (effectiveLogger log))
  have hrun : run = createFromResolvedTcti ⟨some context, some deleter⟩ startup
      (effectiveLogger log) api linked w₁ := by
    simp [run, createContextFromOwnedTcti, hstartup, createFromResolvedTcti_onExit, w₁,
      ownedEvents]
  rcases createFromResolvedTcti_follows context deleter startup (effectiveLogger log) api linked w₁
      terms hmode hdecoder with
    ⟨esys, events, hopened, hvalue, htrace⟩ | ⟨failure, events, hfails, herror, htrace⟩
  · exact Or.inl ⟨_, events, hopened, by rw [hrun, hvalue], by rw [hrun, htrace]; simp [w₁]⟩
  · exact Or.inr ⟨failure, events, hfails, by rw [hrun, herror], by rw [hrun, htrace]; simp [w₁]⟩

/-- One that is refused makes no call and logs nothing. -/
theorem createContextFromOwnedTcti_of_not_valid (tcti : Option TctiContext) (deleter : TctiDeleter)
    (h : ¬(isValidStartupMode startup = true ∧ tcti.isSome = true)) :
    let run := createContextFromOwnedTcti ⟨tcti, some deleter⟩ startup log api linked w
    ∃ e events, e.category = .inputError ∧ run.1 = .unexpected e ∧
      run.2.trace = w.trace ++ events ∧ Quiet events [] := by
  intro run
  cases hstartup : isValidStartupMode startup with
  | false =>
      cases tcti with
      | none =>
          refine ⟨⟨.inputError, "TPM startup mode is invalid"⟩, [], rfl, ?_, ?_, .nil⟩ <;>
            simp [run, createContextFromOwnedTcti, hstartup]
      | some context =>
          refine ⟨⟨.inputError, "TPM startup mode is invalid"⟩, _, rfl, ?_, ?_,
            .deleterEvents linked deleter context w.backend⟩ <;>
            simp [run, createContextFromOwnedTcti, hstartup, UniqueTcti.destroy_apply]
  | true =>
      cases tcti with
      | none =>
          refine ⟨⟨.inputError, "TCTI owned handle must not be null"⟩, [], rfl, ?_, ?_, .nil⟩ <;>
            simp [run, createContextFromOwnedTcti, hstartup]
      | some context => exact absurd ⟨hstartup, rfl⟩ h

end Owned

end Tpmkit
