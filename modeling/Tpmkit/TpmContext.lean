import Tpmkit.EsysPcrProvider
import Tpmkit.TctiLoader

/-!
# The TPM context

`tpm_context.cpp` and `impl.h`: the two ways to create a context, its
destruction, and the PCR provider it hands out.  Destructors are written where
the language runs them, so each early return shows what it releases; a shell
that was moved from is destroyed too, to no effect.
-/

namespace Tpmkit

open Checked ByteStrings Pcr

variable {σ : Type}

/-! ## Configuration -/

/-- `tpm_context_config::startup_mode`; an enumeration over `int` can hold any `int`. -/
structure StartupMode where
  value : Int32
deriving DecidableEq, Repr

namespace StartupMode

def clear : StartupMode := ⟨0⟩
def state : StartupMode := ⟨1⟩
def skip : StartupMode := ⟨2⟩

end StartupMode

/-- `tpm_context_config`: the TCTI as `name:args`, the startup mode and an optional logger. -/
structure TpmContextConfig where
  tcti : ByteString
  startup : StartupMode
  log : Option Logger

/-- `is_known_tcti_name`: the names that may be logged as they are. -/
def isKnownTctiName (name : ByteString) : Bool :=
  name == ascii "device" || name == ascii "mssim" || name == ascii "swtpm" ||
    name == ascii "tabrmd"

/-- `sanitized_tcti_name`: what is logged of a configuration, which is its name if that is a
known one and `<custom>` otherwise; empty for a malformed configuration. -/
def sanitizedTctiName (config : ByteString) : ByteString :=
  let trimmed := trim config
  match findColon trimmed with
  | none => []
  | some position =>
    if trimmed.isEmpty || trimmed.length ≠ config.length || position = 0 then
      []
    else if isKnownTctiName (trimmed.take position) then
      trimmed.take position
    else
      ascii "<custom>"

/-- `effective_logger`: the logger of the configuration, or the one that drops every record. -/
def effectiveLogger (log : Option Logger) : Logger := log.getD .noop

/-- `startup_mode_name`, with the name for a value outside of the enumeration. -/
def startupModeName (mode : StartupMode) : ByteString :=
  if mode = .clear then ascii "clear"
  else if mode = .state then ascii "state"
  else if mode = .skip then ascii "skip"
  else ascii "unknown"

/-- `is_valid_startup_mode`: the value is one of the enumerators. -/
def isValidStartupMode (mode : StartupMode) : Bool :=
  mode = .clear || mode = .state || mode = .skip

/-- `validate_config` of `tpm_context.cpp`; the TCTI string is looked at later, when it is
loaded. -/
def validateStartup (config : TpmContextConfig) : Outcome Unit :=
  if !isValidStartupMode config.startup then
    fail .inputError "TPM startup mode is invalid"
  else
    return ()

def tpm2SuClear : UInt16 := 0
def tpm2SuState : UInt16 := 1

/-- `startup_type`: the argument of `Esys_Startup`; mode `skip` never gets this far. -/
def startupType (mode : StartupMode) : UInt16 :=
  if mode = .state then tpm2SuState else tpm2SuClear

/-- `TSS2_ABI_VERSION_CURRENT`. -/
def tss2AbiVersionCurrent : AbiVersion := ⟨1, 2, 1, 108⟩

/-- `abi_version_string`: the four numbers of a version with dots between them. -/
def abiVersionString (version : AbiVersion) : ByteString :=
  decimal version.tssCreator.toNat ++ ascii "." ++ decimal version.tssFamily.toNat ++
    ascii "." ++ decimal version.tssLevel.toNat ++ ascii "." ++
    decimal version.tssVersion.toNat

/-- `is_startup_already_initialized`: the TPM was started before, which counts as a success. -/
def isStartupAlreadyInitialized (rc : TssRc) : Bool := rc = tpm2RcInitialize

/-- `startup_result_field`: the record tells the two successes apart. -/
def startupResultField (rc : TssRc) : ByteString :=
  if isStartupAlreadyInitialized rc then ascii "already_initialized" else ascii "ok"

/-! ## Log records -/

/-- The record of `log_tcti_event`. -/
def tctiRecord (event : EventDescriptor) (kind name : ByteString) : LogRecord :=
  successRecord event [⟨Events.Fields.tctiKind, kind⟩, ⟨Events.Fields.tctiName, name⟩]

/-- The record of a successful `initialize_esys`. -/
def esysInitializedRecord (version : AbiVersion) : LogRecord :=
  successRecord Events.esysInitialized [⟨Events.Fields.abiVersion, abiVersionString version⟩]

/-- The record at the start of `start_tpm`. -/
def startupInvokedRecord (mode : StartupMode) : LogRecord :=
  successRecord Events.startupInvoked [⟨Events.Fields.startupMode, startupModeName mode⟩]

/-- The record at the end of a successful `start_tpm`. -/
def startupCompletedRecord (mode : StartupMode) (result : ByteString) : LogRecord :=
  successRecord Events.startupCompleted
    [⟨Events.Fields.startupMode, startupModeName mode⟩, ⟨Events.Fields.result, result⟩]

/-- The record of `~impl`. -/
def finalizedRecord : LogRecord := successRecord Events.finalized []

/-! ## The implementation object -/

/-- A `unique_ptr` after `release()` or after it was moved from: the stored
finalizer stays. -/
def UniqueTcti.released (tcti : UniqueTcti) : UniqueTcti := ⟨none, tcti.deleter⟩

@[simp] theorem UniqueTcti.destroy_null (linked : LinkedApi σ) (deleter : Option TctiDeleter)
    (w : World σ) : UniqueTcti.destroy linked ⟨none, deleter⟩ w = (.value (), w) := rfl

@[simp] theorem UniqueTcti.destroy_released (linked : LinkedApi σ) (tcti : UniqueTcti)
    (w : World σ) : tcti.released.destroy linked w = (.value (), w) := rfl

/-- `tpm_context::impl`: it owns the TCTI context and the ESYS context over it, and keeps the
logger and the table that it was made with. -/
structure Impl (σ : Type) where
  tcti : UniqueTcti
  esys : Option EsysContext
  log : Logger
  api : EsysApi σ

/-- `tpm_context`: a pointer to its implementation, null once moved from. -/
structure TpmContext (σ : Type) where
  impl : Option (Impl σ)

/-- The destructor of a `unique_ptr` to an ESYS context, with
`esys_context_deleter` as its deleter. -/
def EsysApi.destroyEsys (api : EsysApi σ) (esys : Option EsysContext) : Adapter σ Unit :=
  match esys, api.finalize with
  | some context, some finalize =>
    .update fun w => w.after (finalize context w.backend) [.esysFinalize context]
  | _, _ => return ()

/-- `~impl`, and after it the members, the last declared first. -/
def Impl.destroy (linked : LinkedApi σ) (impl : Impl σ) : Adapter σ Unit := do
  emit impl.log finalizedRecord
  impl.api.destroyEsys impl.esys
  impl.tcti.destroy linked

/-- `~tpm_context`: a moved-from object has nothing to destroy. -/
def TpmContext.destroy (linked : LinkedApi σ) (context : TpmContext σ) : Adapter σ Unit :=
  match context.impl with
  | none => return ()
  | some impl => impl.destroy linked

/-! ## Creation -/

/-- The call of `api.initialize`, with the pointer it wrote. -/
def EsysApi.callInitialize (api : EsysApi σ) (tcti : Option TctiContext) :
    Adapter σ (InitializeAnswer × Option EsysContext) := do
  let answer ← askBackend (api.esysInitialize tcti tss2AbiVersionCurrent)
  if answer.context then
    let id ← acquireHandle
    record (.esysInitialize tcti answer.rc (some ⟨id⟩))
    return (answer, some ⟨id⟩)
  else
    record (.esysInitialize tcti answer.rc none)
    return (answer, none)

/-- `initialize_esys`: a failing code is translated, whatever was written to the pointer; a
success is recorded with the version of the ABI. -/
def initializeEsys (tcti : Option TctiContext) (log : Logger) (api : EsysApi σ) :
    Adapter σ (Option EsysContext) := do
  let (answer, esys) ← api.callInitialize tcti
  if answer.rc ≠ tss2RcSuccess then
    returnTranslated answer.rc (ascii "esys_initialize") (some log) Events.tssError
      api.decodeError
  else
    emit log (esysInitializedRecord answer.abiVersion)
    return esys

/-- `start_tpm`: mode `skip` sends nothing; otherwise one Startup is sent, and a TPM that was
started before is as good as one that starts. -/
def startTpm (esys : Option EsysContext) (mode : StartupMode) (log : Logger) (api : EsysApi σ) :
    Adapter σ Unit := do
  emit log (startupInvokedRecord mode)
  if mode = .skip then
    emit log (startupCompletedRecord mode (ascii "skipped"))
  else
    let rc ← api.callStartup esys (startupType mode)
    if rc ≠ tss2RcSuccess ∧ !isStartupAlreadyInitialized rc then
      returnTranslated rc (ascii "esys_startup") (some log) Events.tssError api.decodeError
    else
      emit log (startupCompletedRecord mode (startupResultField rc))

/-- `tpm_context_factory::create_from_resolved_tcti`.  The local `esys` goes
before the parameter `tcti`. -/
def createFromResolvedTcti (tcti : UniqueTcti) (startup : StartupMode) (log : Logger)
    (api : EsysApi σ) (linked : LinkedApi σ) : Adapter σ (TpmContext σ) := do
  match ← (initializeEsys tcti.handle log api).attempt with
  | .error e =>
    tcti.destroy linked
    .returnError e
  | .ok esys =>
    match ← (startTpm esys startup log api).attempt with
    | .error e =>
      api.destroyEsys esys
      tcti.destroy linked
      .returnError e
    | .ok () =>
      -- both were moved into the implementation
      api.destroyEsys none
      tcti.released.destroy linked
      return ⟨some ⟨tcti, esys, log, api⟩⟩

/-- `resolve_tcti`: the load, between the records `tcti_configuring` and `tcti_configured`. -/
def resolveTcti (config : ByteString) (log : Logger) (tctiApi : TctiLoaderApi σ)
    (linked : LinkedApi σ) : Adapter σ UniqueTcti := do
  let name := sanitizedTctiName config
  if !name.isEmpty then
    emit log (tctiRecord Events.tctiConfiguring (ascii "string") name)
  let loaded ← loadTcti config (some log) tctiApi linked
  emit log (tctiRecord Events.tctiConfigured (ascii "string") name)
  return loaded

/-- `create_context_from_config`: validate, resolve the TCTI, and open a context over it. -/
def createContextFromConfig (config : TpmContextConfig) (tctiApi : TctiLoaderApi σ)
    (api : EsysApi σ) (linked : LinkedApi σ) : Adapter σ (TpmContext σ) := do
  .lift (validateStartup config)
  let log := effectiveLogger config.log
  let tcti ← resolveTcti config.tcti log tctiApi linked
  Program.onExit (createFromResolvedTcti tcti config.startup log api linked)
    (tcti.released.destroy linked)

/-- `create_context_from_owned_tcti`: the parameter is destroyed on each return. -/
def createContextFromOwnedTcti (tcti : UniqueTcti) (startup : StartupMode)
    (log : Option Logger) (api : EsysApi σ) (linked : LinkedApi σ) :
    Adapter σ (TpmContext σ) := do
  if !isValidStartupMode startup then
    tcti.destroy linked
    .returnError ⟨.inputError, "TPM startup mode is invalid"⟩
  else if tcti.handle = none then
    tcti.destroy linked
    .returnError ⟨.inputError, "TCTI owned handle must not be null"⟩
  else if tcti.deleter = none then
    tcti.released.destroy linked
    .returnError ⟨.inputError, "TCTI owned handle deleter must not be null"⟩
  else
    let log := effectiveLogger log
    emit log (tctiRecord Events.tctiConfiguring (ascii "owned_handle") (ascii "<owned>"))
    emit log (tctiRecord Events.tctiConfigured (ascii "owned_handle") (ascii "<owned>"))
    Program.onExit (createFromResolvedTcti tcti startup log api linked)
      (tcti.released.destroy linked)

/-- `tpm_context::create_pcr_provider`: the provider gets the ESYS context by pointer; a
moved-from object refuses. -/
def TpmContext.createPcrProvider (context : TpmContext σ) (observer : Option Observer) :
    Adapter σ (EsysPcrProvider σ) :=
  match context.impl with
  | none => .returnError ⟨.resourceError, "TPM context does not contain a usable backend"⟩
  | some impl =>
    if impl.esys = none then
      .returnError ⟨.resourceError, "TPM context does not contain a usable backend"⟩
    else
      return ⟨impl.api, impl.esys, impl.log, observer⟩

end Tpmkit
