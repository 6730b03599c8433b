import Tpmkit.ByteStrings
import Tpmkit.PcrValues

/-!
# Log records

The structured records that the adapter sends to its logger: the event
descriptors and field names of `log_events.h`, the record layout of
`log_record.h`, and one function for each record of `pcr_logging.cpp`.
-/

namespace Tpmkit

open ByteStrings Pcr

/-- `log_level`. -/
inductive LogLevel where
  | trace
  | debug
  | info
  | warn
  | error
deriving DecidableEq, Repr

/-- `log_field`. -/
structure LogField where
  key : ByteString
  value : ByteString
deriving DecidableEq, Repr

/-- The arguments of one call of `logger::log`. -/
structure LogRecord where
  level : LogLevel
  message : ByteString
  fields : List LogField
deriving DecidableEq, Repr

/-- `events::event_descriptor`. -/
structure EventDescriptor where
  name : ByteString
  message : ByteString
deriving DecidableEq, Repr

namespace Events

def esysInitialized : EventDescriptor :=
  ⟨ascii "tpm.context.esys_initialized", ascii "ESYS context initialized"⟩

def finalized : EventDescriptor :=
  ⟨ascii "tpm.context.finalized", ascii "TPM context finalized"⟩

def pcrAllocateCompleted : EventDescriptor :=
  ⟨ascii "tpm.pcr.allocate_completed", ascii "PCR allocation completed"⟩

def pcrAuthPolicySet : EventDescriptor :=
  ⟨ascii "tpm.pcr.auth_policy_set", ascii "PCR authorization policy set"⟩

def pcrAuthValueSet : EventDescriptor :=
  ⟨ascii "tpm.pcr.auth_value_set", ascii "PCR authorization value set"⟩

def pcrEventCompleted : EventDescriptor :=
  ⟨ascii "tpm.pcr.event_completed", ascii "PCR event completed"⟩

def pcrExtendCompleted : EventDescriptor :=
  ⟨ascii "tpm.pcr.extend_completed", ascii "PCR extend completed"⟩

def pcrReadCompleted : EventDescriptor :=
  ⟨ascii "tpm.pcr.read_completed", ascii "PCR read completed"⟩

def pcrResetCompleted : EventDescriptor :=
  ⟨ascii "tpm.pcr.reset_completed", ascii "PCR reset completed"⟩

def pcrTssError : EventDescriptor :=
  ⟨ascii "tpm.pcr.tss_error", ascii "TPM backend call failed"⟩

def startupCompleted : EventDescriptor :=
  ⟨ascii "tpm.context.startup_completed", ascii "TPM startup completed"⟩

def startupInvoked : EventDescriptor :=
  ⟨ascii "tpm.context.startup_invoked", ascii "TPM startup invoked"⟩

def tctiConfigured : EventDescriptor :=
  ⟨ascii "tpm.context.tcti_configured", ascii "TCTI configured"⟩

def tctiConfiguring : EventDescriptor :=
  ⟨ascii "tpm.context.tcti_configuring", ascii "TCTI configuring"⟩

def tssError : EventDescriptor :=
  ⟨ascii "tpm.context.tss_error", ascii "TPM backend call failed"⟩

/-- The component that every record of the library names. -/
def componentTpm2Esys : ByteString := ascii "tpm2_esys"

end Events

namespace Events.Fields

def abiVersion : ByteString := ascii "abi_version"
def allocationSuccess : ByteString := ascii "allocation_success"
def bank : ByteString := ascii "bank"
def bankCount : ByteString := ascii "bank_count"
def component : ByteString := ascii "component"
def backendErrorDescription : ByteString := ascii "backend_error_description"
def errorCategory : ByteString := ascii "error_category"
def errorCode : ByteString := ascii "error_code"
def event : ByteString := ascii "event"
def eventSize : ByteString := ascii "event_size"
def operation : ByteString := ascii "operation"
def outcome : ByteString := ascii "outcome"
def policyAlgorithm : ByteString := ascii "policy_algorithm"
def pcrCount : ByteString := ascii "pcr_count"
def pcrIndex : ByteString := ascii "pcr_index"
def result : ByteString := ascii "result"
def startupMode : ByteString := ascii "startup_mode"
def tctiKind : ByteString := ascii "tcti_kind"
def tctiName : ByteString := ascii "tcti_name"
def tssLayer : ByteString := ascii "tss_layer"

end Events.Fields

namespace Events.Values

def backendError : ByteString := ascii "backend_error"
def failure : ByteString := ascii "failure"
def inputError : ByteString := ascii "input_error"
def resourceError : ByteString := ascii "resource_error"
def securityFailure : ByteString := ascii "security_failure"
def success : ByteString := ascii "success"

end Events.Values

/-! ## Record layout -/

/-- `emit_outcome_record`: three leading fields, then those of the call site. -/
def outcomeRecord (level : LogLevel) (event : EventDescriptor) (outcome : ByteString)
    (fields : List LogField) : LogRecord :=
  ⟨level, event.message,
    ⟨Events.Fields.event, event.name⟩ ::
    ⟨Events.Fields.component, Events.componentTpm2Esys⟩ ::
    ⟨Events.Fields.outcome, outcome⟩ :: fields⟩

/-- `emit_failure_record`. -/
def failureRecord (event : EventDescriptor) (fields : List LogField) : LogRecord :=
  outcomeRecord .error event Events.Values.failure fields

/-- `emit_success_record`. -/
def successRecord (event : EventDescriptor) (fields : List LogField) : LogRecord :=
  outcomeRecord .info event Events.Values.success fields

/-- A success record shows its event and its further fields. -/
theorem successRecord_eq_iff {event event' : EventDescriptor} {fields fields' : List LogField} :
    successRecord event fields = successRecord event' fields' ↔
      event = event' ∧ fields = fields' := by
  constructor
  · intro h
    have hmessage : event.message = event'.message := congrArg LogRecord.message h
    have hfields := List.cons.inj (congrArg LogRecord.fields h)
    have hname : event.name = event'.name := congrArg LogField.value hfields.1
    have hrest := (List.cons.inj (List.cons.inj hfields.2).2).2
    exact ⟨congrArg₂ EventDescriptor.mk hname hmessage, hrest⟩
  · rintro ⟨rfl, rfl⟩
    rfl

/-- The value of the first field with this key. -/
def LogRecord.field (entry : LogRecord) (key : ByteString) : Option ByteString :=
  (entry.fields.find? fun f => f.key = key).map LogField.value

/-- `outcome=success`. -/
def LogRecord.isSuccess (entry : LogRecord) : Bool :=
  entry.field Events.Fields.outcome = some Events.Values.success

/-- `outcome=failure`. -/
def LogRecord.isFailure (entry : LogRecord) : Bool :=
  entry.field Events.Fields.outcome = some Events.Values.failure

/-- The outcome is the third field. -/
theorem outcomeRecord_outcome (level : LogLevel) (event : EventDescriptor) (outcome : ByteString)
    (fields : List LogField) :
    (outcomeRecord level event outcome fields).field Events.Fields.outcome = some outcome := by
  have hevent : Events.Fields.event ≠ Events.Fields.outcome := by decide
  have hcomponent : Events.Fields.component ≠ Events.Fields.outcome := by decide
  simp [LogRecord.field, outcomeRecord, hevent, hcomponent]

/-- The two kinds of records are told apart by the field `outcome`. -/
@[simp] theorem isSuccess_successRecord (event : EventDescriptor) (fields : List LogField) :
    (successRecord event fields).isSuccess = true := by
  simp [LogRecord.isSuccess, successRecord, outcomeRecord_outcome]

/-- A record of a success is none of a failure. -/
@[simp] theorem isFailure_successRecord (event : EventDescriptor) (fields : List LogField) :
    (successRecord event fields).isFailure = false := by
  have hvalue : Events.Values.success ≠ Events.Values.failure := by decide
  simp [LogRecord.isFailure, successRecord, outcomeRecord_outcome, hvalue]

/-- A record of a failure is none of a success. -/
@[simp] theorem isSuccess_failureRecord (event : EventDescriptor) (fields : List LogField) :
    (failureRecord event fields).isSuccess = false := by
  have hvalue : Events.Values.failure ≠ Events.Values.success := by decide
  simp [LogRecord.isSuccess, failureRecord, outcomeRecord_outcome, hvalue]

/-- A record of a failure says so in its field `outcome`. -/
@[simp] theorem isFailure_failureRecord (event : EventDescriptor) (fields : List LogField) :
    (failureRecord event fields).isFailure = true := by
  simp [LogRecord.isFailure, failureRecord, outcomeRecord_outcome]

/-- No record reports both outcomes. -/
theorem LogRecord.isFailure_of_isSuccess {entry : LogRecord} (h : entry.isSuccess = true) :
    entry.isFailure = false := by
  have hvalue : Events.Values.success ≠ Events.Values.failure := by decide
  simp only [isSuccess, isFailure, decide_eq_true_eq, decide_eq_false_iff_not] at h ⊢
  rw [h]
  simp [hvalue]

/-! ## PCR records -/

/-- `log_allocate_completed`. -/
def logAllocateCompleted (allocationSuccess : Bool) (bankCount : Nat) : LogRecord :=
  successRecord Events.pcrAllocateCompleted
    [⟨Events.Fields.allocationSuccess, if allocationSuccess then ascii "true" else ascii "false"⟩,
     ⟨Events.Fields.bankCount, decimal bankCount⟩]

/-- `log_auth_policy_set`. -/
def logAuthPolicySet (index : Index) (algorithm : HashAlgorithm) : LogRecord :=
  successRecord Events.pcrAuthPolicySet
    [⟨Events.Fields.pcrIndex, decimal index.value.toNat⟩,
     ⟨Events.Fields.policyAlgorithm, ascii (hashAlgorithmName algorithm)⟩]

/-- `log_auth_value_set`. -/
def logAuthValueSet (index : Index) : LogRecord :=
  successRecord Events.pcrAuthValueSet [⟨Events.Fields.pcrIndex, decimal index.value.toNat⟩]

/-- `log_event_completed`. -/
def logEventCompleted (index : Index) (eventSize bankCount : Nat) : LogRecord :=
  successRecord Events.pcrEventCompleted
    [⟨Events.Fields.bankCount, decimal bankCount⟩,
     ⟨Events.Fields.eventSize, decimal eventSize⟩,
     ⟨Events.Fields.pcrIndex, decimal index.value.toNat⟩]

/-- `log_extend_completed`. -/
def logExtendCompleted (index : Index) (bankCount : Nat) : LogRecord :=
  successRecord Events.pcrExtendCompleted
    [⟨Events.Fields.bankCount, decimal bankCount⟩,
     ⟨Events.Fields.pcrIndex, decimal index.value.toNat⟩]

/-- `log_read_completed`. -/
def logReadCompleted {build : BuildOptions} (selection : Selection build) (valueCount : Nat) :
    LogRecord :=
  successRecord Events.pcrReadCompleted
    [⟨Events.Fields.bank, ascii (hashAlgorithmName selection.algorithm)⟩,
     ⟨Events.Fields.pcrCount, decimal valueCount⟩]

/-- `log_reset_completed`. -/
def logResetCompleted (index : Index) : LogRecord :=
  successRecord Events.pcrResetCompleted [⟨Events.Fields.pcrIndex, decimal index.value.toNat⟩]

end Tpmkit
