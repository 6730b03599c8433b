import Tpmkit.ContextLifecycle
import Tpmkit.PreparedRequests
import Tpmkit.OwnedSessions

/-!
# Sessions with ESYS contexts

What a trace shows of ESYS contexts: `Esys_Initialize` opens one over a TCTI
context, each command uses one, `Esys_Finalize` closes it, and a finalizer
releases a TCTI context.  This file gives the part of a session that each call
of the library contributes: a creation opens a session and, when it fails,
closes it again; a destruction closes one; an operation of a provider uses the
context that the provider was given.
-/

namespace Tpmkit

open Checked ByteStrings Pcr ResourceSessions

variable {σ : Type} {build : BuildOptions}

/-- A step of a session with an ESYS context over a TCTI context. -/
abbrev SessionStep : Type := Step TctiContext EsysContext

/-- What an event is to the sessions. -/
def Event.sessionSteps : Event → List SessionStep
  | .esysInitialize (some tcti) rc (some context) =>
      if rc = tss2RcSuccess then [.opened tcti context] else []
  | .esys request _ => request.esys.toList.map .used
  | .esysFinalize context => [.closed context]
  | .tctiDelete _ tcti => [.released tcti]
  | _ => []

/-- What some events are to the sessions. -/
def sessionSteps (events : List Event) : List SessionStep := events.flatMap Event.sessionSteps

@[simp] theorem sessionSteps_nil : sessionSteps [] = [] := rfl

/-- The steps of two parts are those of the one and then those of the other. -/
@[simp] theorem sessionSteps_append (events events' : List Event) :
    sessionSteps (events ++ events') = sessionSteps events ++ sessionSteps events' :=
  List.flatMap_append

@[simp] theorem sessionSteps_cons (event : Event) (events : List Event) :
    sessionSteps (event :: events) = event.sessionSteps ++ sessionSteps events := rfl

@[simp] theorem sessionSteps_logger_events (log : Logger) (entry : LogRecord) :
    sessionSteps (log.events entry) = [] := rfl

/-- Logging a failure is no step of a session. -/
@[simp] theorem sessionSteps_failureEvents (log : Option Logger) (rc : TssRc)
    (operation : ByteString) (errorEvent : EventDescriptor) (decoder : Option TssErrorDecoder) :
    sessionSteps (failureEvents log rc operation errorEvent decoder) = [] := by
  unfold failureEvents
  split
  · rfl
  · rfl

/-- A finalizer releases its TCTI context, whichever of the two it is. -/
@[simp] theorem sessionSteps_deleterEvents (linked : LinkedApi σ) (deleter : TctiDeleter)
    (context : TctiContext) (b : σ) :
    sessionSteps (deleterEvents linked deleter context b) = [.released context] := by
  cases deleter with
  | releaseFailedTctiInit =>
      unfold deleterEvents
      cases (linked.tctiLdrFinalize context b).1 <;> rfl
  | _ => rfl

/-- Destroying an ESYS context closes its session. -/
theorem sessionSteps_destroyEvents {api : EsysApi σ} (h : api.finalize.isSome)
    (esys : Option EsysContext) :
    sessionSteps (api.destroyEvents esys) = esys.toList.map .closed := by
  rw [EsysApi.destroyEvents_of_finalize h]
  cases esys <;> rfl

/-! ## Creation -/

/-- How a creation over a TCTI context went: the session goes on with the context
that was created, or it is over. -/
def SessionOf (w : World σ) (context : TctiContext) (deleter : TctiDeleter) (log : Logger)
    (api : EsysApi σ) (run : Result Error TpmkitException (TpmContext σ) × World σ) : Prop :=
  ∃ obtained esys uses w' b events, Obtained w w' obtained ∧ (esys = none ∨ esys = obtained) ∧
    ((run = (.value ⟨some ⟨⟨some context, some deleter⟩, esys, log, api⟩⟩, w'.after b events) ∧
        sessionSteps events = startSession context esys uses) ∨
      (∃ e, run = (.unexpected e, w'.after b events) ∧
        sessionSteps events = startSession context esys uses ++ endSession context esys))

/-- `start_tpm` uses the context once, or not at all. -/
theorem startTpm_uses (esys : Option EsysContext) (mode : StartupMode) (log : Logger)
    (api : EsysApi σ) (w : World σ) :
    ∃ uses b events, sessionSteps events = esys.toList.flatMap
        (fun e => List.replicate uses (.used e)) ∧
      (startTpm esys mode log api w = (.value (), w.after b events) ∨
        ∃ e, startTpm esys mode log api w = (.unexpected e, w.after b events)) := by
  by_cases hskip : mode = .skip
  · subst hskip
    refine ⟨0, _, _, ?_, Or.inl (startTpm_skip esys log api w)⟩
    cases esys <;> rfl
  rcases hstartup : api.startup esys (startupType mode) w.backend with ⟨rc, b⟩
  rcases startTpm_run log hskip hstartup with ⟨_, hrun⟩ | ⟨_, hrun⟩
  · refine ⟨1, b, _, ?_, Or.inr ⟨_, hrun⟩⟩
    cases esys <;> simp [Event.sessionSteps, EsysRequest.esys]
  · refine ⟨1, b, _, ?_, Or.inl hrun⟩
    cases esys <;> simp [Event.sessionSteps, EsysRequest.esys]

/-- The creation over a resolved TCTI context makes one session of it: kept by the object on
success, over and released on failure. -/
theorem createFromResolvedTcti_session {api : EsysApi σ} (hfinalize : api.finalize.isSome)
    (context : TctiContext) (deleter : TctiDeleter) (startup : StartupMode) (log : Logger)
    (linked : LinkedApi σ) (w : World σ) :
    SessionOf w context deleter log api
      (createFromResolvedTcti ⟨some context, some deleter⟩ startup log api linked w) := by
  rcases hanswer : api.esysInitialize (some context) tss2AbiVersionCurrent w.backend with
    ⟨answer, b⟩
  obtain ⟨esys, hesys⟩ : ∃ esys, (if answer.context then
    some (⟨w.nextHandle⟩ : EsysContext) else none) = esys := ⟨_, rfl⟩
  obtain ⟨w', hobtained, ⟨hrc, hrun⟩ | ⟨hrc, hrun⟩⟩ := initializeEsys_run log hanswer hesys
  · obtain ⟨uses, b', events, hevents, hstart⟩ :=
      startTpm_uses esys startup log api (w'.after b (.esysInitialize (some context) answer.rc esys
        :: log.events (esysInitializedRecord answer.abiVersion)))
    have hopen : sessionSteps ((.esysInitialize (some context) answer.rc esys ::
        log.events (esysInitializedRecord answer.abiVersion)) ++ events) =
          startSession context esys uses := by
      cases esys with
      | none => simpa [Event.sessionSteps, startSession] using hevents
      | some e => simpa [Event.sessionSteps, startSession, hrc] using hevents
    rcases hstart with hstart | ⟨e, hstart⟩
    · rw [createFromResolvedTcti_started hrun hstart, World.after_after]
      exact ⟨esys, esys, uses, w', b', _, hobtained, Or.inr rfl, Or.inl ⟨rfl, hopen⟩⟩
    · rw [createFromResolvedTcti_not_started hrun hstart, World.after_after, World.after_after]
      refine ⟨esys, esys, uses, w', _, _, hobtained, Or.inr rfl, Or.inr ⟨e, rfl, ?_⟩⟩
      rw [← List.append_assoc, sessionSteps_append, hopen, sessionSteps_append,
        sessionSteps_destroyEvents hfinalize, sessionSteps_deleterEvents]
      rfl
  · -- the handle of a failed initialization is nobody's
    rw [createFromResolvedTcti_not_initialized hrun, World.after_after]
    refine ⟨esys, none, 0, w', _, _, hobtained, Or.inl rfl, Or.inr ⟨_, rfl, ?_⟩⟩
    cases esys <;> simp [Event.sessionSteps, endSession, hrc]

/-- Events before a creation that touch no session belong to it. -/
theorem SessionOf.of_after {w : World σ} {b₀ : σ} {events₀ : List Event}
    (hquiet : sessionSteps events₀ = []) {context : TctiContext} {deleter : TctiDeleter}
    {log : Logger} {api : EsysApi σ} {run : Result Error TpmkitException (TpmContext σ) × World σ}
    (h : SessionOf (w.after b₀ events₀) context deleter log api run) :
    SessionOf w context deleter log api run := by
  obtain ⟨obtained, esys, uses, w', b, events, hobtained, hesys, hends⟩ := h
  obtain ⟨w'', hobtained', hworld⟩ : ∃ w'', Obtained w w'' obtained ∧
      w'.after b events = w''.after b (events₀ ++ events) := by
    rcases hobtained with ⟨rfl, rfl⟩ | ⟨rfl, rfl⟩
    · exact ⟨w, Or.inl ⟨rfl, rfl⟩, by simp⟩
    · exact ⟨w.acquired, Or.inr ⟨rfl, rfl⟩, by simp⟩
  rw [hworld] at hends
  refine ⟨obtained, esys, uses, w'', b, events₀ ++ events, hobtained', hesys, ?_⟩
  simpa [hquiet] using hends

/-- So does the creation over a context that the client owned, once it is taken over. -/
theorem createContextFromOwnedTcti_session {api : EsysApi σ} (hfinalize : api.finalize.isSome)
    (context : TctiContext) (deleter : TctiDeleter) (startup : StartupMode)
    (log : Option Logger) (linked : LinkedApi σ) (w : World σ) :
    SessionOf w context deleter (effectiveLogger log) api
      (createContextFromOwnedTcti ⟨some context, some deleter⟩ startup log api linked w) := by
  cases hstartup : isValidStartupMode startup with
  | false =>
      have hrun : createContextFromOwnedTcti ⟨some context, some deleter⟩ startup log api linked w =
          (.unexpected ⟨.inputError, "TPM startup mode is invalid"⟩,
            w.after (deletedState linked deleter context w.backend)
              (deleterEvents linked deleter context w.backend)) := by
        simp [createContextFromOwnedTcti, hstartup, UniqueTcti.destroy_apply]
      exact ⟨none, none, 0, w, _, _, Or.inl ⟨rfl, rfl⟩, Or.inl rfl,
        Or.inr ⟨_, hrun, sessionSteps_deleterEvents linked deleter context w.backend⟩⟩
  | true =>
      have hrun : createContextFromOwnedTcti ⟨some context, some deleter⟩ startup log api linked w =
          createFromResolvedTcti ⟨some context, some deleter⟩ startup (effectiveLogger log) api
            linked (w.after w.backend
              ((effectiveLogger log).events
                  (tctiRecord Events.tctiConfiguring (ascii "owned_handle") (ascii "<owned>")) ++
                (effectiveLogger log).events
                  (tctiRecord Events.tctiConfigured (ascii "owned_handle") (ascii "<owned>")))) := by
        simp [createContextFromOwnedTcti, hstartup, createFromResolvedTcti_onExit]
      rw [hrun]
      exact (createFromResolvedTcti_session hfinalize ..).of_after (by simp)

/-! ## Loading -/

/-- A size query touches no session. -/
theorem allocateTctiLoaderContext_quiet (log : Option Logger) (api : TctiLoaderApi σ)
    (linked : LinkedApi σ) (w : World σ) :
    ∃ b events, sessionSteps events = [] ∧
      ((∃ size, allocateTctiLoaderContext log api linked w =
          (.value ⟨⟨some ⟨w.nextHandle⟩, some .releaseFailedTctiInit⟩, size⟩,
            w.acquired.after b events)) ∨
        ∃ e, allocateTctiLoaderContext log api linked w = (.unexpected e, w.after b events)) := by
  rcases hquery : api.init none 0 none w.backend with ⟨query, b⟩
  rcases hcalloc : linked.calloc query.size b with ⟨storage, b'⟩
  by_cases hrc : query.rc = tss2RcSuccess
  swap
  · exact ⟨b, .tctiInit none none query.rc :: failureEvents log query.rc (ascii "tcti_init")
      Events.tssError api.decodeError, by simp [Event.sessionSteps],
      Or.inr ⟨translatedError query.rc, by simp [allocateTctiLoaderContext, hquery, hrc]⟩⟩
  by_cases hsize : query.size = 0
  · exact ⟨b, [.tctiInit none none query.rc], rfl,
      Or.inr ⟨⟨.backendError, "TCTI loader returned invalid context size"⟩,
        by simp [allocateTctiLoaderContext, hquery, hrc, hsize]⟩⟩
  cases storage with
  | false =>
      exact ⟨b', [.tctiInit none none query.rc, .calloc query.size false], rfl,
        Or.inr ⟨⟨.resourceError, "TCTI loader context allocation failed"⟩,
          by simp [allocateTctiLoaderContext, hquery, hcalloc, hrc, hsize]⟩⟩
  | true =>
      exact ⟨b', [.tctiInit none none query.rc, .calloc query.size true], rfl,
        Or.inl ⟨query.size, by simp [allocateTctiLoaderContext, hquery, hcalloc, hrc, hsize]⟩⟩

/-- How the loading of a TCTI context went: it returns a new one, or leaves
nothing behind. -/
def Loads (w : World σ) (run : Result Error TpmkitException UniqueTcti × World σ) : Prop :=
  (∃ b events, sessionSteps events = [] ∧
    run = (.value ⟨some ⟨w.nextHandle⟩, some .finalizeLoadedTcti⟩, w.acquired.after b events)) ∨
  (∃ e b events, sessionSteps events = [] ∧ run = (.unexpected e, w.after b events)) ∨
  ∃ e b events, sessionSteps events = [.released ⟨w.nextHandle⟩] ∧
    run = (.unexpected e, w.acquired.after b events)

/-- Loading a TCTI context opens no session; on failure it is released if it was loaded. -/
theorem loadTcti_session (config : ByteString) (log : Option Logger) (api : TctiLoaderApi σ)
    (linked : LinkedApi σ) (w : World σ) : Loads w (loadTcti config log api linked w) := by
  by_cases hvalid : ValidConfig config
  swap
  · obtain ⟨e, hrun⟩ := loadTcti_of_not_valid hvalid log api linked w
    exact Or.inr (Or.inl ⟨e, w.backend, [], rfl, by rw [hrun, World.after_nil]⟩)
  rcases hinfo : api.getInfo (cStr (tctiName config)) w.backend with ⟨infoRc, b⟩
  by_cases hknown : infoRc = tss2RcSuccess
  swap
  · rw [loadTcti_unknown hvalid log api linked hinfo hknown]
    exact Or.inr (Or.inl ⟨_, _, _, by simp [Event.sessionSteps], rfl⟩)
  subst hknown
  obtain ⟨b', events, hevents, ⟨size, hpending⟩ | ⟨e, hpending⟩⟩ :=
    allocateTctiLoaderContext_quiet log api linked (w.after (api.freeInfo b)
      [.getInfo (cStr (tctiName config)) tss2RcSuccess, .freeInfo])
  swap
  · rw [loadTcti_unallocated hvalid log api linked hinfo hpending, World.after_after]
    exact Or.inr (Or.inl ⟨e, b', _, by simp [Event.sessionSteps, hevents], rfl⟩)
  rw [World.acquired_after, World.after_after] at hpending
  rcases hinit : api.init (some ⟨w.nextHandle⟩) size (some (cStr config)) b' with ⟨answer, b''⟩
  by_cases hrc : answer.rc = tss2RcSuccess
  · rw [loadTcti_initialized hvalid log api linked hinfo hpending hinit hrc, World.after_after]
    exact Or.inl ⟨b'', _, by simp [Event.sessionSteps, hevents], rfl⟩
  · rw [loadTcti_not_initialized hvalid log api linked hinfo hpending hinit hrc, World.after_after]
    exact Or.inr (Or.inr ⟨_, _, _, by simp [Event.sessionSteps, hevents], rfl⟩)

/-- So does resolving one from a configuration. -/
theorem resolveTcti_session (config : ByteString) (log : Logger) (tctiApi : TctiLoaderApi σ)
    (linked : LinkedApi σ) (w : World σ) : Loads w (resolveTcti config log tctiApi linked w) := by
  let name := sanitizedTctiName config
  let announced := if name.isEmpty then []
    else log.events (tctiRecord Events.tctiConfiguring (ascii "string") name)
  have hannounced : sessionSteps announced = [] := by
    unfold announced
    split <;> simp
  have hresolve : resolveTcti config log tctiApi linked w =
      (loadTcti config (some log) tctiApi linked >>= fun loaded => do
        emit log (tctiRecord Events.tctiConfigured (ascii "string") name)
        return loaded) (w.after w.backend announced) := by
    cases hname : name.isEmpty <;> simp [resolveTcti, announced, name, hname]
  rw [hresolve, Program.bind_apply]
  rcases loadTcti_session config (some log) tctiApi linked (w.after w.backend announced) with
    ⟨b, events, hevents, hload⟩ | ⟨e, b, events, hevents, hload⟩ | ⟨e, b, events, hevents, hload⟩
  · rw [hload]
    refine Or.inl ⟨b, announced ++ events ++
      log.events (tctiRecord Events.tctiConfigured (ascii "string") name), ?_, by simp⟩
    simp [hannounced, hevents]
  · rw [hload]
    exact Or.inr (Or.inl ⟨e, b, announced ++ events, by simp [hannounced, hevents], by simp⟩)
  · rw [hload]
    exact Or.inr (Or.inr ⟨e, b, announced ++ events, by simp [hannounced, hevents], by simp⟩)

/-- A creation from a configuration: it makes no session, or one over a new TCTI
context. -/
theorem createContextFromConfig_session {api : EsysApi σ} (hfinalize : api.finalize.isSome)
    (config : TpmContextConfig) (tctiApi : TctiLoaderApi σ) (linked : LinkedApi σ) (w : World σ) :
    (∃ e b events, sessionSteps events = [] ∧
      createContextFromConfig config tctiApi api linked w = (.unexpected e, w.after b events)) ∨
    SessionOf w.acquired ⟨w.nextHandle⟩ .finalizeLoadedTcti (effectiveLogger config.log) api
      (createContextFromConfig config tctiApi api linked w) := by
  cases hstartup : isValidStartupMode config.startup with
  | false =>
      exact Or.inl ⟨⟨.inputError, "TPM startup mode is invalid"⟩, w.backend, [], rfl,
        by simp [createContextFromConfig, validateStartup, hstartup, fail]⟩
  | true =>
      have hrun : createContextFromConfig config tctiApi api linked w =
          (resolveTcti config.tcti (effectiveLogger config.log) tctiApi linked >>= fun tcti =>
            Program.onExit (createFromResolvedTcti tcti config.startup
              (effectiveLogger config.log) api linked) (tcti.released.destroy linked)) w := by
        simp [createContextFromConfig, validateStartup, hstartup]
      rw [hrun, Program.bind_apply]
      rcases resolveTcti_session config.tcti (effectiveLogger config.log) tctiApi linked w with
        ⟨b, events, hevents, hload⟩ | ⟨e, b, events, hevents, hload⟩ |
          ⟨e, b, events, hevents, hload⟩
      · rw [hload]
        simp only [Program.resume_value, createFromResolvedTcti_onExit]
        exact Or.inr ((createFromResolvedTcti_session hfinalize ..).of_after hevents)
      · rw [hload]
        exact Or.inl ⟨e, b, events, hevents, rfl⟩
      · rw [hload]
        exact Or.inr ⟨none, none, 0, w.acquired, b, events, Or.inl ⟨rfl, rfl⟩, Or.inl rfl,
          Or.inr ⟨e, rfl, hevents⟩⟩

/-! ## Destruction -/

/-- The TCTI context that an object holds, and the ESYS context over it. -/
def TpmContext.holding (context : TpmContext σ) : Option (TctiContext × Option EsysContext) :=
  context.impl.bind fun impl => impl.tcti.handle.map (·, impl.esys)

@[simp] theorem TpmContext.holding_none : (⟨none⟩ : TpmContext σ).holding = none := rfl

/-- The deletion of what a pointer held closes its session. -/
theorem TpmContext.destroy_session {api : EsysApi σ} (hfinalize : api.finalize.isSome)
    {context : TpmContext σ} (hcomplete : ∀ impl, context.impl = some impl → impl.Complete api)
    (linked : LinkedApi σ) (w : World σ) :
    ∃ b events, context.destroy linked w = (.value (), w.after b events) ∧
      sessionSteps events = context.holding.toList.flatMap fun x => endSession x.1 x.2 := by
  obtain ⟨none | impl⟩ := context
  · exact ⟨w.backend, [], by simp [TpmContext.destroy], rfl⟩
  obtain ⟨rfl, tcti, deleter, htcti⟩ := hcomplete impl rfl
  let b := impl.api.destroyedState impl.esys w.backend
  refine ⟨deletedState linked deleter tcti b,
    impl.log.events finalizedRecord ++ impl.api.destroyEvents impl.esys ++
      deleterEvents linked deleter tcti b, ?_, ?_⟩
  · simp [TpmContext.destroy, Impl.destroy, htcti, UniqueTcti.destroy_apply, b]
  · simp [sessionSteps_destroyEvents hfinalize, TpmContext.holding, htcti, endSession]

/-! ## Operations of a provider -/

/-- The answered calls use the context that they were made on. -/
theorem sessionSteps_calls {esys : Option EsysContext} {calls : List AnsweredCall}
    (h : ∀ answered ∈ calls, answered.1.request.esys = esys) :
    sessionSteps (calls.map AnsweredCall.event) =
      esys.toList.flatMap fun e => List.replicate calls.length (.used e) := by
  induction calls with
  | nil => cases esys <;> rfl
  | cons answered calls ih =>
      obtain ⟨hfirst, hrest⟩ := List.forall_mem_cons.mp h
      rw [List.map_cons, sessionSteps_cons, ih hrest, AnsweredCall.event, Event.sessionSteps,
        hfirst]
      cases esys <;> rfl

/-- What the logger and the observer are told touches no session. -/
theorem sessionSteps_announce (provider : EsysPcrProvider σ) (op : ProviderOp build)
    (last : AnsweredCall) : sessionSteps (provider.announce op last) = [] := by
  by_cases hrc : last.2.rc = tss2RcSuccess
  swap
  · rw [provider.announce_failure op hrc]
    exact sessionSteps_failureEvents ..
  rw [provider.announce_success op hrc]
  rcases EsysPcrProvider.conclude op last.2 with value | e | f
  · cases op <;> cases value <;> cases hobserver : provider.observer <;>
      simp [EsysPcrProvider.completedEvents, EsysPcrProvider.notifyEvents, Event.sessionSteps,
        hobserver]
  · rfl
  · rfl

/-- Freeing a response is no step of a session. -/
theorem sessionSteps_freeEvents (response : Response) : sessionSteps response.freeEvents = [] := by
  refine List.flatMap_eq_nil_iff.mpr fun e he => ?_
  obtain ⟨buffer, rfl⟩ := Response.exists_of_mem_freeEvents he
  rfl

/-- An operation that passes its checks uses the context of its provider, and any
other leaves the world as it was. -/
theorem perform_session (provider : EsysPcrProvider σ) {op : ProviderOp build} (hop : op.Stored)
    (w : World σ) :
    (op.Admitted provider.esys ∧ ∃ b events uses, (provider.perform op w).2 = w.after b events ∧
      uses ≠ 0 ∧ sessionSteps events =
        provider.esys.toList.flatMap fun e => List.replicate uses (.used e)) ∨
    (¬op.Admitted provider.esys ∧ (provider.perform op w).2 = w) := by
  rcases prepare_exact provider hop with ⟨hadmitted, call, rest, hprepare, _⟩ | ⟨hrefused, e, he⟩
  · refine Or.inl ⟨hadmitted, ?_⟩
    rw [EsysPcrProvider.perform_eq, hprepare]
    let x := provider.api.exchange call rest w.backend
    have hcalls : ∀ answered ∈ x.calls, answered.1.request.esys = provider.esys := by
      intro answered hmem
      have hprefix := provider.api.exchange_prefix call rest w.backend
      have hcall := hprefix.subset (List.mem_map_of_mem hmem)
      exact (of_prepare_eq_value hprepare answered.1 hcall).1
    refine ⟨_, _, x.calls.length, rfl, by simp [Exchange.calls], ?_⟩
    rw [sessionSteps_append, sessionSteps_append, sessionSteps_announce, sessionSteps_freeEvents,
      List.append_nil, List.append_nil]
    exact sessionSteps_calls hcalls
  · refine Or.inr ⟨hrefused, ?_⟩
    rw [EsysPcrProvider.perform_eq, he]
    rfl

end Tpmkit
