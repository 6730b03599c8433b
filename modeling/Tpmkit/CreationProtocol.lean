import Tpmkit.ContextCreation

/-!
# The protocol of a creation

The calls that a creation makes, when it succeeds, and the success records that
it logs on the way, for all configurations and every backend.
-/

namespace Tpmkit

open Checked ByteStrings

variable {σ : Type}

/-- The success records among some events, in order. -/
def successRecords (events : List Event) : List LogRecord :=
  (records events).filter LogRecord.isSuccess

/-- The success records of a creation, each with whether its step succeeds. -/
def creationMilestones (config : TpmContextConfig) (tctiApi : TctiLoaderApi σ) (api : EsysApi σ)
    (linked : LinkedApi σ) (w : World σ) : List (LogRecord × Bool) :=
  let name := sanitizedTctiName config.tcti
  let load := loadSteps config.tcti tctiApi linked ⟨w.nextHandle⟩ w.backend
  let opened := api.esysInitialize (some ⟨w.nextHandle⟩) tss2AbiVersionCurrent load.2
  let esys : Option EsysContext := if opened.1.context then some ⟨w.nextHandle + 1⟩ else none
  let startup := (api.startup esys (startupType config.startup) opened.2).1
  let result : ByteString :=
    if config.startup = .skip then ascii "skipped"
    else if startup = tss2RcSuccess then ascii "ok"
    else ascii "already_initialized"
  [(tctiRecord Events.tctiConfiguring (ascii "string") name, true),
    (tctiRecord Events.tctiConfigured (ascii "string") name, load.1.all CreationStep.succeeded),
    (esysInitializedRecord opened.1.abiVersion, opened.1.rc = tss2RcSuccess),
    (startupInvokedRecord config.startup, true),
    (startupCompletedRecord config.startup result,
      config.startup = .skip ∨ startup = tss2RcSuccess ∨ startup = tpm2RcInitialize)]

/-! ## Success records -/

theorem isSuccess_of_mem_announced {terms : CreationTerms} {answer : CreationAnswer}
    {entry : LogRecord} (h : entry ∈ terms.announced answer) : entry.isSuccess = true := by
  cases answer with
  | init rc =>
      obtain rfl := List.mem_singleton.mp h
      exact isSuccess_successRecord ..
  | esys answer =>
      rcases List.mem_cons.mp h with rfl | h
      · exact isSuccess_successRecord ..
      rcases List.mem_cons.mp h with rfl | h
      · exact isSuccess_successRecord ..
      split at h
      · obtain rfl := List.mem_singleton.mp h
        exact isSuccess_successRecord ..
      · cases h
  | startup rc =>
      obtain rfl := List.mem_singleton.mp h
      exact isSuccess_successRecord ..
  | info rc => cases h
  | size answer => cases h
  | storage provided => cases h

/-- What is told of a step that fails are failures. -/
theorem isFailure_of_mem_told {terms : CreationTerms} {step : CreationStep} {entry : LogRecord}
    (hfailed : step.succeeded = false) (h : entry ∈ terms.told step.2) :
    entry.isFailure = true := by
  cases hfailure : step.2.failure with
  | none =>
      rw [CreationStep.succeeded_of_none hfailure] at hfailed
      cases hfailed
  | some failure =>
      rw [CreationTerms.told, hfailure] at h
      obtain ⟨cause, _, rfl⟩ := List.mem_map.mp h
      exact isFailure_failureRecord ..

/-- The steps that are made tell what those that succeed announce, and then what is told
of the one that fails. -/
theorem CreationTerms.flatMap_told (terms : CreationTerms) (steps : List CreationStep) :
    ((Attempts.made CreationStep.succeeded steps).flatMap fun step => terms.told step.2) =
      ((steps.takeWhile CreationStep.succeeded).flatMap fun step => terms.announced step.2) ++
        (Attempts.failing CreationStep.succeeded steps).toList.flatMap fun step =>
          terms.told step.2 := by
  have hannounced : ((steps.takeWhile CreationStep.succeeded).flatMap fun step =>
      terms.told step.2) =
        (steps.takeWhile CreationStep.succeeded).flatMap fun step => terms.announced step.2 := by
    refine List.flatMap_congr fun step hmem => ?_
    have hsucceeded : step.succeeded = true := List.mem_takeWhile_imp hmem
    rw [CreationTerms.told, Option.isNone_iff_eq_none.mp hsucceeded]
  rw [Attempts.made_eq, List.flatMap_append, hannounced]

theorem isSuccess_of_mem_takeWhile {terms : CreationTerms} {steps : List CreationStep}
    {entry : LogRecord}
    (h : entry ∈ (steps.takeWhile CreationStep.succeeded).flatMap fun step =>
      terms.announced step.2) : entry.isSuccess = true := by
  obtain ⟨step, _, hentry⟩ := List.mem_flatMap.mp h
  exact isSuccess_of_mem_announced hentry

theorem isFailure_of_mem_failing {terms : CreationTerms} {steps : List CreationStep}
    {entry : LogRecord}
    (h : entry ∈ (Attempts.failing CreationStep.succeeded steps).toList.flatMap fun step =>
      terms.told step.2) : entry.isFailure = true := by
  obtain ⟨step, hfailing, hentry⟩ := List.mem_flatMap.mp h
  have hfailed : step.succeeded = false := by
    simpa using List.find?_some (Option.mem_toList.mp hfailing)
  exact isFailure_of_mem_told hfailed hentry

/-- The steps before the failing one announce the success records. -/
theorem filter_isSuccess_told (terms : CreationTerms) (steps : List CreationStep) :
    ((Attempts.made CreationStep.succeeded steps).flatMap fun step =>
        terms.told step.2).filter LogRecord.isSuccess =
      (steps.takeWhile CreationStep.succeeded).flatMap fun step => terms.announced step.2 := by
  rw [terms.flatMap_told, List.filter_append,
    List.filter_eq_self.mpr fun entry => isSuccess_of_mem_takeWhile,
    List.filter_eq_nil_iff.mpr ?_, List.append_nil]
  intro entry hentry hsuccess
  have hfailure := isFailure_of_mem_failing hentry
  rw [LogRecord.isFailure_of_isSuccess hsuccess] at hfailure
  cases hfailure

/-- Of the steps that load a TCTI context only the last one announces a record. -/
theorem flatMap_announced_load (terms : CreationTerms) (config : ByteString)
    (tctiApi : TctiLoaderApi σ) (linked : LinkedApi σ) (context : TctiContext) (b : σ)
    (later : List CreationStep) :
    (((loadSteps config tctiApi linked context b).1 ++ later).takeWhile
        CreationStep.succeeded).flatMap (fun step => terms.announced step.2) =
      if (loadSteps config tctiApi linked context b).1.all CreationStep.succeeded then
        tctiRecord Events.tctiConfigured (ascii "string") terms.name ::
          (later.takeWhile CreationStep.succeeded).flatMap fun step => terms.announced step.2
      else [] := by
  simp only [loadSteps, List.cons_append, List.nil_append, List.takeWhile_cons, List.all_cons,
    List.all_nil, Bool.and_true]
  repeat' split
  all_goals simp_all [CreationTerms.announced]

/-- The steps that open a context announce what they open. -/
theorem flatMap_announced_open (terms : CreationTerms) (tcti : Option TctiContext)
    (api : EsysApi σ) (handle : Nat) (b : σ) :
    let opened := api.esysInitialize tcti tss2AbiVersionCurrent b
    let esys : Option EsysContext := if opened.1.context then some ⟨handle⟩ else none
    let startup := (api.startup esys (startupType terms.mode) opened.2).1
    ((openSteps tcti terms.mode api handle b).takeWhile CreationStep.succeeded).flatMap
        (fun step => terms.announced step.2) =
      if opened.1.rc = tss2RcSuccess then
        esysInitializedRecord opened.1.abiVersion :: startupInvokedRecord terms.mode ::
          if terms.mode = .skip then [startupCompletedRecord terms.mode (ascii "skipped")]
          else if startup = tss2RcSuccess then [startupCompletedRecord terms.mode (ascii "ok")]
          else if startup = tpm2RcInitialize then
            [startupCompletedRecord terms.mode (ascii "already_initialized")]
          else []
      else [] := by
  intro opened esys startup
  have hsteps : openSteps tcti terms.mode api handle b =
      (.esysInitialize tcti opened.1.rc esys, .esys opened.1) ::
        if terms.mode = .skip then []
        else [(.esys (.startup esys (startupType terms.mode)) startup, .startup startup)] := rfl
  rw [hsteps]
  by_cases hrc : opened.1.rc = tss2RcSuccess
  swap
  · simp [CreationStep.succeeded, CreationAnswer.succeeded, CreationAnswer.failure, hrc]
  by_cases hskip : terms.mode = .skip
  · simp [CreationStep.succeeded, CreationAnswer.succeeded, CreationAnswer.failure,
      CreationTerms.announced, hrc, hskip]
  by_cases hstarted : startup = tss2RcSuccess
  · have hfresh : isStartupAlreadyInitialized tss2RcSuccess = false := by decide
    simp [CreationStep.succeeded, CreationAnswer.succeeded, CreationAnswer.failure,
      CreationTerms.announced, startupResultField, hrc, hskip, hstarted, hfresh]
  by_cases halready : startup = tpm2RcInitialize
  · have hne : tpm2RcInitialize ≠ tss2RcSuccess := by decide
    simp [CreationStep.succeeded, CreationAnswer.succeeded, CreationAnswer.failure,
      CreationTerms.announced, startupResultField, isStartupAlreadyInitialized, hrc, hskip,
      halready, hne]
  · simp [CreationStep.succeeded, CreationAnswer.succeeded, CreationAnswer.failure,
      CreationTerms.announced, isStartupAlreadyInitialized, hrc, hskip,
      hstarted, halready]

/-- The records that are announced are the milestones up to the point of failure. -/
theorem announced_eq_milestones (config : TpmContextConfig) (tctiApi : TctiLoaderApi σ)
    (api : EsysApi σ) (linked : LinkedApi σ) (w : World σ) :
    tctiRecord Events.tctiConfiguring (ascii "string") (sanitizedTctiName config.tcti) ::
        ((creationSteps config tctiApi api linked w).takeWhile CreationStep.succeeded).flatMap
          (fun step => (CreationTerms.ofConfig config tctiApi api).announced step.2) =
      ((creationMilestones config tctiApi api linked w).takeWhile Prod.snd).map Prod.fst := by
  let terms := CreationTerms.ofConfig config tctiApi api
  have hsteps : creationSteps config tctiApi api linked w =
      (loadSteps config.tcti tctiApi linked ⟨w.nextHandle⟩ w.backend).1 ++
        openSteps (some ⟨w.nextHandle⟩) terms.mode api (w.nextHandle + 1)
          (loadSteps config.tcti tctiApi linked ⟨w.nextHandle⟩ w.backend).2 := rfl
  have hname : terms.name = sanitizedTctiName config.tcti := rfl
  have hmode : terms.mode = config.startup := rfl
  rw [hsteps, flatMap_announced_load terms, flatMap_announced_open terms, hname, hmode]
  unfold creationMilestones
  cases hload : (loadSteps config.tcti tctiApi linked ⟨w.nextHandle⟩ w.backend).1.all
    CreationStep.succeeded with
  | false =>
      simp only [List.takeWhile_cons, hload]
      rfl
  | true =>
      simp only [if_true, List.takeWhile_cons, List.map_cons]
      split_ifs <;> simp_all

/-- The steps that open a context succeed when the last two milestones are reached. -/
theorem openSteps_succeed_iff (tcti : Option TctiContext) (mode : StartupMode) (api : EsysApi σ)
    (handle : Nat) (b : σ) :
    let opened := api.esysInitialize tcti tss2AbiVersionCurrent b
    let esys : Option EsysContext := if opened.1.context then some ⟨handle⟩ else none
    let startup := (api.startup esys (startupType mode) opened.2).1
    (∀ step ∈ openSteps tcti mode api handle b, step.succeeded = true) ↔
      opened.1.rc = tss2RcSuccess ∧
        (mode = .skip ∨ startup = tss2RcSuccess ∨ startup = tpm2RcInitialize) := by
  intro opened esys startup
  have hsteps : openSteps tcti mode api handle b =
      (.esysInitialize tcti opened.1.rc esys, .esys opened.1) ::
        if mode = .skip then []
        else [(.esys (.startup esys (startupType mode)) startup, .startup startup)] := rfl
  rw [hsteps]
  by_cases hskip : mode = .skip
  · rw [if_pos hskip, List.forall_mem_singleton]
    exact CreationAnswer.succeeded_esys.trans (by simp [hskip])
  · rw [if_neg hskip, List.forall_mem_cons, List.forall_mem_singleton]
    exact and_congr CreationAnswer.succeeded_esys
      (CreationAnswer.succeeded_startup.trans (by simp [hskip]))

/-! ## The protocol -/

/-- A Startup command of a creation has the type that matches the mode; mode `skip` has
none. -/
theorem startup_of_mem_creationSteps {config : TpmContextConfig} (hvalid : config.Valid)
    (tctiApi : TctiLoaderApi σ) (api : EsysApi σ) (linked : LinkedApi σ) (w : World σ)
    {context : Option EsysContext} {type : UInt16} {rc : TssRc}
    (h : .esys (.startup context type) rc ∈
      (creationSteps config tctiApi api linked w).map Prod.fst) :
    config.startup = .clear ∧ type = tpm2SuClear ∨ config.startup = .state ∧ type = tpm2SuState := by
  obtain ⟨step, hstep, hcall⟩ := List.mem_map.mp h
  rcases List.mem_append.mp hstep with hload | hopen
  · -- the calls that load a TCTI context go to the loader
    simp only [loadSteps, List.mem_cons, List.not_mem_nil, or_false] at hload
    rcases hload with rfl | rfl | rfl | rfl <;> cases hcall
  rcases List.mem_cons.mp hopen with rfl | hstartup
  · cases hcall
  split at hstartup
  · cases hstartup
  next hskip =>
    obtain rfl := List.mem_singleton.mp hstartup
    cases hcall
    have hmodes : (config.startup = .clear ∨ config.startup = .state) ∨ config.startup = .skip := by
      simpa [isValidStartupMode] using hvalid.startup
    rcases hmodes with (hmode | hmode) | hmode
    · exact .inl ⟨hmode, by rw [hmode]; rfl⟩
    · exact .inr ⟨hmode, by rw [hmode]; rfl⟩
    · exact absurd hmode hskip

/-- A success record of this event is among the events. -/
def Announces (events : List Event) (descriptor : EventDescriptor) : Prop :=
  ∃ fields, successRecord descriptor fields ∈ successRecords events

/-- A milestone is announced when it is reached and so are those before it. -/
theorem announced_cut (kind name result : ByteString) (version : AbiVersion) (mode : StartupMode)
    (loaded opened started : Bool) :
    let announced := ([(tctiRecord Events.tctiConfiguring kind name, true),
      (tctiRecord Events.tctiConfigured kind name, loaded),
      (esysInitializedRecord version, opened), (startupInvokedRecord mode, true),
      (startupCompletedRecord mode result, started)].takeWhile Prod.snd).map Prod.fst
    ((∃ fields, successRecord Events.tctiConfigured fields ∈ announced) ↔ loaded = true) ∧
    ((∃ fields, successRecord Events.esysInitialized fields ∈ announced) ↔
      loaded = true ∧ opened = true) ∧
    ((∃ fields, successRecord Events.startupCompleted fields ∈ announced) ↔
      loaded = true ∧ opened = true ∧ started = true) := by
  cases loaded <;> cases opened <;> cases started <;>
    simp +decide [tctiRecord, esysInitializedRecord, startupInvokedRecord, startupCompletedRecord,
      successRecord_eq_iff]

end Tpmkit
