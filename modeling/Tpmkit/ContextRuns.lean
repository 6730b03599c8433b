import Tpmkit.TpmContext

/-!
# Runs of the context calls

What each call of `tpm_context.cpp` does to the world, seen through the events
that open or close a context: an ESYS context is initialized or finalized, a
TCTI context goes to its finalizer, or the record of a closed context is logged.
-/

namespace Tpmkit

open Checked ByteStrings Pcr

variable {σ : Type}

/-! ## Lifecycle events -/

/-- The events that open or close a context. -/
def isLifecycleEvent : Event → Bool
  | .esysInitialize _ _ _ => true
  | .esysFinalize _ => true
  | .tctiDelete _ _ => true
  | .log _ entry => entry = finalizedRecord
  | _ => false

/-- The lifecycle events among some events, in order. -/
def lifecycle (events : List Event) : List Event := events.filter isLifecycleEvent

@[simp] theorem lifecycle_nil : lifecycle [] = [] := rfl

/-- What two parts say of the lifecycle is what the one says and then the other. -/
@[simp] theorem lifecycle_append (events events' : List Event) :
    lifecycle (events ++ events') = lifecycle events ++ lifecycle events' :=
  List.filter_append ..

/-- An event of the lifecycle is kept. -/
theorem lifecycle_cons_of_pos {event : Event} (h : isLifecycleEvent event = true)
    (events : List Event) : lifecycle (event :: events) = event :: lifecycle events :=
  List.filter_cons_of_pos h

/-- Any other event is left out. -/
theorem lifecycle_cons_of_neg {event : Event} (h : isLifecycleEvent event = false)
    (events : List Event) : lifecycle (event :: events) = lifecycle events :=
  List.filter_cons_of_neg (by simp [h])

@[simp] theorem lifecycle_esys (request : EsysRequest) (rc : TssRc) (events : List Event) :
    lifecycle (.esys request rc :: events) = lifecycle events := rfl

/-- A success record of another event is not the record of a closed context. -/
theorem lifecycle_success {event : EventDescriptor} (h : event.message ≠ Events.finalized.message)
    (log : Logger) (fields : List LogField) :
    lifecycle (log.events (successRecord event fields)) = [] := by
  have hne : successRecord event fields ≠ finalizedRecord := fun heq =>
    h (congrArg LogRecord.message heq)
  exact lifecycle_cons_of_neg (by simp [isLifecycleEvent, hne]) []

@[simp] theorem lifecycle_tctiConfiguring (log : Logger) (kind name : ByteString) :
    lifecycle (log.events (tctiRecord Events.tctiConfiguring kind name)) = [] :=
  lifecycle_success (by decide) ..

@[simp] theorem lifecycle_tctiConfigured (log : Logger) (kind name : ByteString) :
    lifecycle (log.events (tctiRecord Events.tctiConfigured kind name)) = [] :=
  lifecycle_success (by decide) ..

@[simp] theorem lifecycle_esysInitialized (log : Logger) (version : AbiVersion) :
    lifecycle (log.events (esysInitializedRecord version)) = [] :=
  lifecycle_success (by decide) ..

@[simp] theorem lifecycle_startupInvoked (log : Logger) (mode : StartupMode) :
    lifecycle (log.events (startupInvokedRecord mode)) = [] :=
  lifecycle_success (by decide) ..

@[simp] theorem lifecycle_startupCompleted (log : Logger) (mode : StartupMode)
    (result : ByteString) :
    lifecycle (log.events (startupCompletedRecord mode result)) = [] :=
  lifecycle_success (by decide) ..

/-- Of the records that a context logs only that of its end belongs to its lifecycle. -/
@[simp] theorem lifecycle_finalized (log : Logger) :
    lifecycle (log.events finalizedRecord) = [.log log finalizedRecord] :=
  lifecycle_cons_of_pos (by simp [isLifecycleEvent]) []

/-- Reporting a failure does not belong to the lifecycle. -/
@[simp] theorem lifecycle_failureEvents (log : Option Logger) (rc : TssRc)
    (operation : ByteString) (errorEvent : EventDescriptor) (decoder : Option TssErrorDecoder) :
    lifecycle (failureEvents log rc operation errorEvent decoder) = [] := by
  unfold failureEvents
  split
  · next description _ =>
      have hne : tssErrorRecord rc (rcLayer rc) (translatedError rc).category operation
          errorEvent description ≠ finalizedRecord := fun heq =>
        nomatch congrArg LogRecord.level heq
      exact lifecycle_cons_of_neg (by simp [isLifecycleEvent, hne]) []
  · rfl

/-- A finalizer is one event, whichever of the two it is. -/
@[simp] theorem lifecycle_deleterEvents (linked : LinkedApi σ) (deleter : TctiDeleter)
    (context : TctiContext) (b : σ) :
    lifecycle (deleterEvents linked deleter context b) = [.tctiDelete deleter context] := by
  cases deleter with
  | releaseFailedTctiInit =>
      unfold deleterEvents
      cases (linked.tctiLdrFinalize context b).1 <;> rfl
  | _ => rfl

/-! ## Destructors -/

/-- The backend after the destructor of a `unique_ptr` to an ESYS context. -/
def EsysApi.destroyedState (api : EsysApi σ) (esys : Option EsysContext) (b : σ) : σ :=
  match esys, api.finalize with
  | some context, some finalize => finalize context b
  | _, _ => b

/-- What that destructor makes visible. -/
def EsysApi.destroyEvents (api : EsysApi σ) (esys : Option EsysContext) : List Event :=
  match esys, api.finalize with
  | some context, some _ => [.esysFinalize context]
  | _, _ => []

@[simp] theorem EsysApi.destroyedState_none (api : EsysApi σ) (b : σ) :
    api.destroyedState none b = b := rfl

@[simp] theorem EsysApi.destroyEvents_none (api : EsysApi σ) : api.destroyEvents none = [] := rfl

/-- Destroying an ESYS context: one call if there is one, and none on a null pointer. -/
@[simp] theorem EsysApi.destroyEsys_apply (api : EsysApi σ) (esys : Option EsysContext)
    (w : World σ) :
    api.destroyEsys esys w =
      (.value (), w.after (api.destroyedState esys w.backend) (api.destroyEvents esys)) := by
  cases esys with
  | none => simp [EsysApi.destroyEsys, EsysApi.destroyedState, EsysApi.destroyEvents]
  | some context =>
      cases h : api.finalize <;>
        simp [EsysApi.destroyEsys, EsysApi.destroyedState, EsysApi.destroyEvents, h]

/-- That call belongs to the lifecycle. -/
@[simp] theorem lifecycle_destroyEvents (api : EsysApi σ) (esys : Option EsysContext) :
    lifecycle (api.destroyEvents esys) = api.destroyEvents esys := by
  unfold EsysApi.destroyEvents
  split <;> rfl

/-- With an entry for it in the table, an ESYS context is finalized once. -/
theorem EsysApi.destroyEvents_of_finalize {api : EsysApi σ} (h : api.finalize.isSome)
    (esys : Option EsysContext) :
    api.destroyEvents esys = esys.toList.map Event.esysFinalize := by
  obtain ⟨finalize, hfinalize⟩ := Option.isSome_iff_exists.mp h
  cases esys <;> simp [EsysApi.destroyEvents, hfinalize]

/-! ## The steps of a creation -/

/-- What a call that may return a handle does to the number of handles. -/
def Obtained (w w' : World σ) (esys : Option EsysContext) : Prop :=
  (esys = none ∧ w' = w) ∨ (esys = some ⟨w.nextHandle⟩ ∧ w' = w.acquired)

/-- Numbering a handle is no event. -/
theorem Obtained.eventsSince {w w' : World σ} {esys : Option EsysContext}
    (h : Obtained w w' esys) (b : σ) (events : List Event) :
    w.eventsSince (w'.after b events) = events := by
  rcases h with ⟨_, rfl⟩ | ⟨_, rfl⟩ <;> simp

/-- Handles are numbered upwards. -/
theorem Obtained.nextHandle_le {w w' : World σ} {esys : Option EsysContext}
    (h : Obtained w w' esys) : w.nextHandle ≤ w'.nextHandle := by
  rcases h with ⟨_, rfl⟩ | ⟨_, rfl⟩
  · exact Nat.le_refl _
  · exact Nat.le_succ _

/-- A handle that was returned is new, and later ones are newer. -/
theorem Obtained.id_bounds {w w' : World σ} {esys : EsysContext} (h : Obtained w w' (some esys)) :
    w.nextHandle ≤ esys.id ∧ esys.id < w'.nextHandle := by
  rcases h with ⟨hnone, _⟩ | ⟨hsome, rfl⟩
  · cases hnone
  · obtain rfl := Option.some.inj hsome
    exact ⟨Nat.le_refl _, Nat.lt_succ_self _⟩

/-- Numbering a handle leaves the trace alone. -/
theorem Obtained.trace_eq {w w' : World σ} {esys : Option EsysContext} (h : Obtained w w' esys) :
    w'.trace = w.trace := by
  rcases h with ⟨_, rfl⟩ | ⟨_, rfl⟩ <;> rfl

section Runs

variable {tcti : Option TctiContext} {log : Logger} {api : EsysApi σ} {w : World σ}

/-- `Esys_Initialize` is called once, and what it returns is numbered if it is no null pointer. -/
theorem callInitialize_run {answer : InitializeAnswer} {esys : Option EsysContext} {b : σ}
    (hanswer : api.esysInitialize tcti tss2AbiVersionCurrent w.backend = (answer, b))
    (hesys : (if answer.context then some ⟨w.nextHandle⟩ else none) = esys) :
    ∃ w', Obtained w w' esys ∧ api.callInitialize tcti w =
      (.value (answer, esys), w'.after b [.esysInitialize tcti answer.rc esys]) := by
  subst hesys
  cases hcontext : answer.context with
  | false =>
      exact ⟨w, Or.inl ⟨rfl, rfl⟩, by simp [EsysApi.callInitialize, hanswer, hcontext]⟩
  | true =>
      exact ⟨w.acquired, Or.inr ⟨rfl, rfl⟩, by simp [EsysApi.callInitialize, hanswer, hcontext]⟩

/-- `initialize_esys` returns what the backend opened, or translates its return code. -/
theorem initializeEsys_run {answer : InitializeAnswer} {esys : Option EsysContext} {b : σ}
    (log : Logger)
    (hanswer : api.esysInitialize tcti tss2AbiVersionCurrent w.backend = (answer, b))
    (hesys : (if answer.context then some ⟨w.nextHandle⟩ else none) = esys) :
    ∃ w', Obtained w w' esys ∧
      ((answer.rc = tss2RcSuccess ∧ initializeEsys tcti log api w =
          (.value esys, w'.after b (.esysInitialize tcti answer.rc esys ::
            log.events (esysInitializedRecord answer.abiVersion)))) ∨
        (answer.rc ≠ tss2RcSuccess ∧ initializeEsys tcti log api w =
          (.unexpected (translatedError answer.rc),
            w'.after b (.esysInitialize tcti answer.rc esys :: failureEvents (some log) answer.rc
              (ascii "esys_initialize") Events.tssError api.decodeError)))) := by
  obtain ⟨w', hobtained, hcall⟩ := callInitialize_run hanswer hesys
  refine ⟨w', hobtained, ?_⟩
  by_cases hrc : answer.rc = tss2RcSuccess
  · exact Or.inl ⟨hrc, by simp [initializeEsys, hcall, hrc]⟩
  · exact Or.inr ⟨hrc, by simp [initializeEsys, hcall, hrc]⟩

/-- `start_tpm` in mode `skip` makes no call. -/
theorem startTpm_skip (esys : Option EsysContext) (log : Logger) (api : EsysApi σ)
    (w : World σ) :
    startTpm esys .skip log api w = (.value (), w.after w.backend
      (log.events (startupInvokedRecord .skip) ++
        log.events (startupCompletedRecord .skip (ascii "skipped")))) := by
  simp [startTpm]

/-- In the other modes it accepts a TPM that was started before. -/
theorem startTpm_run {esys : Option EsysContext} {mode : StartupMode} {rc : TssRc} {b : σ}
    (log : Logger) (hskip : mode ≠ .skip)
    (hstartup : api.startup esys (startupType mode) w.backend = (rc, b)) :
    ((rc ≠ tss2RcSuccess ∧ isStartupAlreadyInitialized rc = false) ∧
      startTpm esys mode log api w = (.unexpected (translatedError rc),
        w.after b (log.events (startupInvokedRecord mode) ++
          .esys (.startup esys (startupType mode)) rc :: failureEvents (some log) rc
            (ascii "esys_startup") Events.tssError api.decodeError))) ∨
    (¬(rc ≠ tss2RcSuccess ∧ isStartupAlreadyInitialized rc = false) ∧
      startTpm esys mode log api w = (.value (), w.after b
        (log.events (startupInvokedRecord mode) ++ .esys (.startup esys (startupType mode)) rc ::
          log.events (startupCompletedRecord mode (startupResultField rc))))) := by
  by_cases hfails : rc ≠ tss2RcSuccess ∧ isStartupAlreadyInitialized rc = false
  · exact Or.inl ⟨hfails, by simp [startTpm, hskip, EsysApi.callStartup, hstartup, hfails]⟩
  · refine Or.inr ⟨hfails, ?_⟩
    simp [startTpm, hskip, EsysApi.callStartup, hstartup, hfails]

end Runs

/-- What `initialize_esys` opens. -/
theorem initializeEsys_cases (tcti : Option TctiContext) (log : Logger) (api : EsysApi σ)
    (w : World σ) :
    ∃ rc esys w' b events, Obtained w w' esys ∧
      lifecycle events = [.esysInitialize tcti rc esys] ∧
      ((rc = tss2RcSuccess ∧
          initializeEsys tcti log api w = (.value esys, w'.after b events)) ∨
        (rc ≠ tss2RcSuccess ∧
          ∃ e, initializeEsys tcti log api w = (.unexpected e, w'.after b events))) := by
  obtain ⟨answer, b, hanswer⟩ :
      ∃ answer b, api.esysInitialize tcti tss2AbiVersionCurrent w.backend = (answer, b) :=
    ⟨_, _, rfl⟩
  obtain ⟨w', hobtained, hruns⟩ := initializeEsys_run log hanswer rfl
  rcases hruns with ⟨hrc, hrun⟩ | ⟨hrc, hrun⟩
  · refine ⟨answer.rc, _, w', b, _, hobtained, ?_, Or.inl ⟨hrc, hrun⟩⟩
    rw [lifecycle_cons_of_pos rfl, lifecycle_esysInitialized]
  · refine ⟨answer.rc, _, w', b, _, hobtained, ?_, Or.inr ⟨hrc, _, hrun⟩⟩
    rw [lifecycle_cons_of_pos rfl, lifecycle_failureEvents]

/-- `start_tpm` opens and closes nothing. -/
theorem startTpm_cases (esys : Option EsysContext) (mode : StartupMode) (log : Logger)
    (api : EsysApi σ) (w : World σ) :
    ∃ b events, lifecycle events = [] ∧
      (startTpm esys mode log api w = (.value (), w.after b events) ∨
        ∃ e, startTpm esys mode log api w = (.unexpected e, w.after b events)) := by
  by_cases hskip : mode = .skip
  · subst hskip
    exact ⟨_, _, by simp, Or.inl (startTpm_skip esys log api w)⟩
  obtain ⟨rc, b, hstartup⟩ : ∃ rc b, api.startup esys (startupType mode) w.backend = (rc, b) :=
    ⟨_, _, rfl⟩
  rcases startTpm_run log hskip hstartup with ⟨_, hrun⟩ | ⟨_, hrun⟩
  · exact ⟨b, _, by simp, Or.inr ⟨_, hrun⟩⟩
  · exact ⟨b, _, by simp, Or.inl hrun⟩

/-- How a creation over a TCTI context ends: with a context that holds it, or with
an error after everything opened on the way was closed. -/
def EndsCreation (w : World σ) (context : TctiContext) (deleter : TctiDeleter) (log : Logger)
    (api : EsysApi σ) (run : Result Error TpmkitException (TpmContext σ) × World σ) : Prop :=
  ∃ rc esys w' b events, Obtained w w' esys ∧
    ((rc = tss2RcSuccess ∧
        run = (.value ⟨some ⟨⟨some context, some deleter⟩, esys, log, api⟩⟩, w'.after b events) ∧
        lifecycle events = [.esysInitialize (some context) rc esys]) ∨
      (∃ e, run = (.unexpected e, w'.after b events) ∧
        lifecycle events = .esysInitialize (some context) rc esys ::
          (if rc = tss2RcSuccess then api.destroyEvents esys else []) ++
          [.tctiDelete deleter context]))

/-- No creation throws. -/
theorem EndsCreation.noFault {w : World σ} {context : TctiContext} {deleter : TctiDeleter}
    {log : Logger} {api : EsysApi σ} {run : Result Error TpmkitException (TpmContext σ) × World σ}
    (h : EndsCreation w context deleter log api run) : run.1.NoFault := by
  obtain ⟨rc, esys, w', b, events, _, ⟨_, rfl, _⟩ | ⟨e, rfl, _⟩⟩ := h <;> simp

/-- What a creation that succeeded has made and traced. -/
theorem EndsCreation.of_value {w w' : World σ} {context : TctiContext} {deleter : TctiDeleter}
    {log : Logger} {api : EsysApi σ} {created : TpmContext σ}
    (h : EndsCreation w context deleter log api (.value created, w')) :
    ∃ esys w'' b events, Obtained w w'' esys ∧ w' = w''.after b events ∧
      created = ⟨some ⟨⟨some context, some deleter⟩, esys, log, api⟩⟩ ∧
      lifecycle events = [.esysInitialize (some context) tss2RcSuccess esys] := by
  obtain ⟨rc, esys, w'', b, events, hobtained, ⟨rfl, hrun, hevents⟩ | ⟨e, hrun, _⟩⟩ := h
  · obtain ⟨hvalue, rfl⟩ := Prod.mk.inj hrun
    exact ⟨esys, w'', b, events, hobtained, rfl, Result.value.inj hvalue, hevents⟩
  · cases (Prod.mk.inj hrun).1

/-- Events before a creation that open and close nothing belong to it. -/
theorem EndsCreation.of_after {w : World σ} {b₀ : σ} {events₀ : List Event}
    (hquiet : lifecycle events₀ = []) {context : TctiContext} {deleter : TctiDeleter}
    {log : Logger} {api : EsysApi σ} {run : Result Error TpmkitException (TpmContext σ) × World σ}
    (h : EndsCreation (w.after b₀ events₀) context deleter log api run) :
    EndsCreation w context deleter log api run := by
  obtain ⟨rc, esys, w', b, events, hobtained, hends⟩ := h
  obtain ⟨w'', hobtained', hworld⟩ : ∃ w'', Obtained w w'' esys ∧
      w'.after b events = w''.after b (events₀ ++ events) := by
    rcases hobtained with ⟨rfl, rfl⟩ | ⟨rfl, rfl⟩
    · exact ⟨w, Or.inl ⟨rfl, rfl⟩, by simp⟩
    · exact ⟨w.acquired, Or.inr ⟨rfl, rfl⟩, by simp⟩
  rw [hworld] at hends
  refine ⟨rc, esys, w'', b, events₀ ++ events, hobtained', ?_⟩
  simpa [hquiet] using hends

section Outcomes

variable {context : TctiContext} {deleter : TctiDeleter} {startup : StartupMode} {log : Logger}
  {api : EsysApi σ} {linked : LinkedApi σ} {w w' w'' : World σ} {esys : Option EsysContext}
  {e : Error}

/-- Without an ESYS context the TCTI context is released. -/
theorem createFromResolvedTcti_not_initialized
    (hopen : initializeEsys (some context) log api w = (.unexpected e, w')) :
    createFromResolvedTcti ⟨some context, some deleter⟩ startup log api linked w =
      (.unexpected e, w'.after (deletedState linked deleter context w'.backend)
        (deleterEvents linked deleter context w'.backend)) := by
  simp [createFromResolvedTcti, Program.attempt_of_unexpected hopen,
    UniqueTcti.destroy_apply]

/-- A TPM that does not start: both contexts are released. -/
theorem createFromResolvedTcti_not_started
    (hopen : initializeEsys (some context) log api w = (.value esys, w'))
    (hstart : startTpm esys startup log api w' = (.unexpected e, w'')) :
    createFromResolvedTcti ⟨some context, some deleter⟩ startup log api linked w =
      (.unexpected e, w''.after
        (deletedState linked deleter context (api.destroyedState esys w''.backend))
        (api.destroyEvents esys ++
          deleterEvents linked deleter context (api.destroyedState esys w''.backend))) := by
  simp [createFromResolvedTcti, Program.attempt_of_value hopen,
    Program.attempt_of_unexpected hstart, UniqueTcti.destroy_apply]

/-- With both steps through, the object takes over the TCTI context and the ESYS context. -/
theorem createFromResolvedTcti_started
    (hopen : initializeEsys (some context) log api w = (.value esys, w'))
    (hstart : startTpm esys startup log api w' = (.value (), w'')) :
    createFromResolvedTcti ⟨some context, some deleter⟩ startup log api linked w =
      (.value ⟨some ⟨⟨some context, some deleter⟩, esys, log, api⟩⟩, w'') := by
  simp [createFromResolvedTcti, Program.attempt_of_value hopen,
    Program.attempt_of_value hstart]

end Outcomes

/-- However the two steps end, everything is in the object or finalized in the right order. -/
theorem createFromResolvedTcti_ends (context : TctiContext) (deleter : TctiDeleter)
    (startup : StartupMode) (log : Logger) (api : EsysApi σ) (linked : LinkedApi σ)
    (w : World σ) :
    EndsCreation w context deleter log api
      (createFromResolvedTcti ⟨some context, some deleter⟩ startup log api linked w) := by
  obtain ⟨rc, esys, w', b, opened, hobtained, hopened, ⟨hrc, hrun⟩ | ⟨hrc, e, hrun⟩⟩ :=
    initializeEsys_cases (some context) log api w
  swap
  · rw [createFromResolvedTcti_not_initialized hrun]
    exact ⟨rc, esys, w', deletedState linked deleter context b,
      opened ++ deleterEvents linked deleter context b, hobtained,
      Or.inr ⟨e, by simp, by simp [hopened, hrc]⟩⟩
  obtain ⟨b', started, hstarted, hstart | ⟨e, hstart⟩⟩ :=
    startTpm_cases esys startup log api (w'.after b opened)
  · rw [createFromResolvedTcti_started hrun hstart]
    exact ⟨rc, esys, w', b', opened ++ started, hobtained,
      Or.inl ⟨hrc, by simp, by simp [hopened, hstarted]⟩⟩
  · rw [createFromResolvedTcti_not_started hrun hstart]
    exact ⟨rc, esys, w', deletedState linked deleter context (api.destroyedState esys b'),
      opened ++ started ++ (api.destroyEvents esys ++
        deleterEvents linked deleter context (api.destroyedState esys b')), hobtained,
      Or.inr ⟨e, by simp, by simp [hopened, hstarted, hrc]⟩⟩

/-! ## The two ways to create a context -/

/-- The caller's shell of the TCTI context changes nothing on the way out. -/
theorem createFromResolvedTcti_onExit (context : TctiContext) (deleter : TctiDeleter)
    (startup : StartupMode) (log : Logger) (api : EsysApi σ) (linked : LinkedApi σ)
    (w : World σ) :
    Program.onExit (createFromResolvedTcti ⟨some context, some deleter⟩ startup log api linked)
        (UniqueTcti.destroy linked (UniqueTcti.released ⟨some context, some deleter⟩)) w =
      createFromResolvedTcti ⟨some context, some deleter⟩ startup log api linked w :=
  Program.onExit_apply rfl (createFromResolvedTcti_ends ..).noFault
    (UniqueTcti.destroy_released linked _)

/-- An owned TCTI context that passes the checks goes to the factory. -/
theorem createContextFromOwnedTcti_ends (context : TctiContext) (deleter : TctiDeleter)
    {startup : StartupMode} (hstartup : isValidStartupMode startup = true) (log : Option Logger)
    (api : EsysApi σ) (linked : LinkedApi σ) (w : World σ) :
    EndsCreation w context deleter (effectiveLogger log) api
      (createContextFromOwnedTcti ⟨some context, some deleter⟩ startup log api linked w) := by
  have hrun : createContextFromOwnedTcti ⟨some context, some deleter⟩ startup log api linked w =
      createFromResolvedTcti ⟨some context, some deleter⟩ startup (effectiveLogger log) api linked
        (w.after w.backend
          ((effectiveLogger log).events
              (tctiRecord Events.tctiConfiguring (ascii "owned_handle") (ascii "<owned>")) ++
            (effectiveLogger log).events
              (tctiRecord Events.tctiConfigured (ascii "owned_handle") (ascii "<owned>")))) := by
    simp [createContextFromOwnedTcti, hstartup, createFromResolvedTcti_onExit]
  rw [hrun]
  exact (createFromResolvedTcti_ends ..).of_after (by simp)

/-- A context from an owned TCTI context holds it. -/
theorem createContextFromOwnedTcti_value {context : TctiContext} {deleter : TctiDeleter}
    {startup : StartupMode} {log : Option Logger} {api : EsysApi σ} {linked : LinkedApi σ}
    {w w' : World σ} {created : TpmContext σ}
    (h : createContextFromOwnedTcti ⟨some context, some deleter⟩ startup log api linked w =
      (.value created, w')) :
    EndsCreation w context deleter (effectiveLogger log) api (.value created, w') := by
  cases hstartup : isValidStartupMode startup with
  | false => simp [createContextFromOwnedTcti, hstartup, UniqueTcti.destroy_apply] at h
  | true => exact h ▸ createContextFromOwnedTcti_ends context deleter hstartup log api linked w

/-- Loading either hands over a context with the finalizer of the loader or ends with an error;
it never throws. -/
theorem loadTcti_loads (config : ByteString) (log : Option Logger) (tctiApi : TctiLoaderApi σ)
    (linked : LinkedApi σ) (w : World σ) :
    (∃ b events, lifecycle events = [] ∧ loadTcti config log tctiApi linked w =
      (.value ⟨some ⟨w.nextHandle⟩, some .finalizeLoadedTcti⟩, w.acquired.after b events)) ∨
    ∃ e w', loadTcti config log tctiApi linked w = (.unexpected e, w') := by
  by_cases hvalid : ValidConfig config
  · rcases loadTcti_cases hvalid log tctiApi linked w with
      ⟨_, size, b, hload⟩ | ⟨_, e, size, b, rc, events, hload, _⟩ | ⟨_, e, b, rc, events, hload, _⟩
    · exact Or.inl ⟨b, _, rfl, hload⟩
    · exact Or.inr ⟨e, _, hload⟩
    · exact Or.inr ⟨e, _, hload⟩
  · obtain ⟨e, hload⟩ := loadTcti_of_not_valid hvalid log tctiApi linked w
    exact Or.inr ⟨e, w, hload⟩

/-- `resolve_tcti` returns a TCTI context of the loader, or an error. -/
theorem resolveTcti_cases (config : ByteString) (log : Logger) (tctiApi : TctiLoaderApi σ)
    (linked : LinkedApi σ) (w : World σ) :
    (∃ b events, lifecycle events = [] ∧ resolveTcti config log tctiApi linked w =
      (.value ⟨some ⟨w.nextHandle⟩, some .finalizeLoadedTcti⟩, w.acquired.after b events)) ∨
    ∃ e w', resolveTcti config log tctiApi linked w = (.unexpected e, w') := by
  let name := sanitizedTctiName config
  let announced := if name.isEmpty then []
    else log.events (tctiRecord Events.tctiConfiguring (ascii "string") name)
  have hannounced : lifecycle announced = [] := by
    unfold announced
    split <;> simp
  have hresolve : resolveTcti config log tctiApi linked w =
      (loadTcti config (some log) tctiApi linked >>= fun loaded => do
        emit log (tctiRecord Events.tctiConfigured (ascii "string") name)
        return loaded) (w.after w.backend announced) := by
    cases hname : name.isEmpty <;> simp [resolveTcti, announced, name, hname]
  rcases loadTcti_loads config (some log) tctiApi linked (w.after w.backend announced) with
    ⟨b, loaded, hloaded, hload⟩ | ⟨e, w', hload⟩
  · refine Or.inl ⟨b, announced ++ loaded ++
      log.events (tctiRecord Events.tctiConfigured (ascii "string") name),
      by simp [hannounced, hloaded], ?_⟩
    rw [hresolve, Program.bind_apply, hload]
    simp
  · exact Or.inr ⟨e, w', by rw [hresolve, Program.bind_apply, hload]; rfl⟩

/-- A context from a configuration holds the TCTI context that was loaded for it. -/
theorem createContextFromConfig_value {config : TpmContextConfig} {tctiApi : TctiLoaderApi σ}
    {api : EsysApi σ} {linked : LinkedApi σ} {w w' : World σ} {context : TpmContext σ}
    (h : createContextFromConfig config tctiApi api linked w = (.value context, w')) :
    EndsCreation w.acquired ⟨w.nextHandle⟩ .finalizeLoadedTcti (effectiveLogger config.log) api
      (.value context, w') := by
  cases hstartup : isValidStartupMode config.startup with
  | false => simp [createContextFromConfig, validateStartup, hstartup, fail] at h
  | true =>
      rcases resolveTcti_cases config.tcti (effectiveLogger config.log) tctiApi linked w with
        ⟨b, events, hevents, hresolve⟩ | ⟨e, w'', hresolve⟩
      · have hrun : createContextFromConfig config tctiApi api linked w =
            createFromResolvedTcti ⟨some ⟨w.nextHandle⟩, some .finalizeLoadedTcti⟩
              config.startup (effectiveLogger config.log) api linked
              (w.acquired.after b events) := by
          simp [createContextFromConfig, validateStartup, hstartup, hresolve,
            createFromResolvedTcti_onExit]
        rw [← h, hrun]
        exact (createFromResolvedTcti_ends ..).of_after hevents
      · simp [createContextFromConfig, validateStartup, hstartup, hresolve] at h

/-! ## Destruction -/

/-- A context that holds a TCTI context closes what it holds: the record, the ESYS
context, the TCTI context. -/
theorem Impl.destroy_cases {impl : Impl σ} {context : TctiContext} {deleter : TctiDeleter}
    (htcti : impl.tcti = ⟨some context, some deleter⟩) (linked : LinkedApi σ) (w : World σ) :
    ∃ b events, impl.destroy linked w = (.value (), w.after b events) ∧
      lifecycle events = .log impl.log finalizedRecord ::
        impl.api.destroyEvents impl.esys ++ [.tctiDelete deleter context] := by
  let b := impl.api.destroyedState impl.esys w.backend
  exact ⟨deletedState linked deleter context b,
    impl.log.events finalizedRecord ++ impl.api.destroyEvents impl.esys ++
      deleterEvents linked deleter context b,
    by simp [Impl.destroy, htcti, UniqueTcti.destroy_apply, b], by simp⟩

end Tpmkit
