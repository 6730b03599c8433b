import Tpmkit.CheckedProgram
import Tpmkit.LogRecords
import Tpmkit.TssTypes

/-!
# Translation of TSS return codes

`error_translation.cpp` maps a return code to one of the four error categories
through a table keyed by software layer and base code, after removing the
parameter, handle or session number of a format-one TPM code.  The record it
logs quotes the backend's own description of the code, read from a C string of
any length and sanitized.
-/

namespace Tpmkit

open Checked ByteStrings

/-! ## Constants of the TSS headers -/

def tss2TpmRcLayer : TssRc := 0
def tss2EsapiRcLayer : TssRc := (7 : UInt32) <<< 16
def tss2SysRcLayer : TssRc := (8 : UInt32) <<< 16
def tss2MuRcLayer : TssRc := (9 : UInt32) <<< 16
def tss2TctiRcLayer : TssRc := (10 : UInt32) <<< 16
def tss2RcLayerMask : TssRc := (0xff : UInt32) <<< 16

def tpm2RcFmt1 : TssRc := 0x080
def tpm2RcHash : TssRc := 0x083
def tpm2RcValue : TssRc := 0x084
def tpm2RcHandle : TssRc := 0x08b
def tpm2RcRange : TssRc := 0x08d
def tpm2RcAuthFail : TssRc := 0x08e
def tpm2RcSize : TssRc := 0x095
def tpm2RcPolicyFail : TssRc := 0x09d
def tpm2RcBadAuth : TssRc := 0x0a2
def tpm2RcInitialize : TssRc := 0x100
def tpm2RcMemory : TssRc := 0x904
def tpm2RcLocality : TssRc := 0x907
def tpm2RcLockout : TssRc := 0x921

def tss2BaseRcGeneralFailure : TssRc := 1
def tss2BaseRcNotImplemented : TssRc := 2
def tss2BaseRcBadContext : TssRc := 3
def tss2BaseRcAbiMismatch : TssRc := 4
def tss2BaseRcBadReference : TssRc := 5
def tss2BaseRcInsufficientBuffer : TssRc := 6
def tss2BaseRcBadSequence : TssRc := 7
def tss2BaseRcNoConnection : TssRc := 8
def tss2BaseRcTryAgain : TssRc := 9
def tss2BaseRcIoError : TssRc := 10
def tss2BaseRcBadValue : TssRc := 11
def tss2BaseRcNotPermitted : TssRc := 12
def tss2BaseRcInvalidSessions : TssRc := 13
def tss2BaseRcNoDecryptParam : TssRc := 14
def tss2BaseRcNoEncryptParam : TssRc := 15
def tss2BaseRcBadSize : TssRc := 16
def tss2BaseRcMalformedResponse : TssRc := 17
def tss2BaseRcInsufficientContext : TssRc := 18
def tss2BaseRcInsufficientResponse : TssRc := 19
def tss2BaseRcIncompatibleTcti : TssRc := 20
def tss2BaseRcNotSupported : TssRc := 21
def tss2BaseRcBadTctiStructure : TssRc := 22
def tss2BaseRcMemory : TssRc := 23
def tss2BaseRcBadTr : TssRc := 24
def tss2BaseRcMultipleDecryptSessions : TssRc := 25
def tss2BaseRcMultipleEncryptSessions : TssRc := 26
def tss2BaseRcRspAuthFailed : TssRc := 27
def tss2BaseRcCallbackNull : TssRc := 54

/-! ## The table -/

/-- The four errors of the library's own table; each backend code is translated to one of them. -/
def inputError : Error := ⟨.inputError, "input rejected by TPM"⟩
def securityError : Error := ⟨.securityFailure, "TPM verification failed"⟩
def resourceError : Error := ⟨.resourceError, "TPM operation cannot be completed"⟩
def backendError : Error := ⟨.backendError, "TPM backend reported an error"⟩

/-- `mapping_entry`. -/
structure MappingEntry where
  layer : TssRc
  base : TssRc
  error : Error
deriving DecidableEq, Repr

/-- `documented_mappings`. -/
def documentedMappings : List MappingEntry :=
  [⟨tss2TpmRcLayer, tpm2RcAuthFail, securityError⟩,
   ⟨tss2TpmRcLayer, tpm2RcBadAuth, securityError⟩,
   ⟨tss2TpmRcLayer, tpm2RcHash, inputError⟩,
   ⟨tss2TpmRcLayer, tpm2RcHandle, inputError⟩,
   ⟨tss2TpmRcLayer, tpm2RcLocality, resourceError⟩,
   ⟨tss2TpmRcLayer, tpm2RcLockout, securityError⟩,
   ⟨tss2TpmRcLayer, tpm2RcMemory, resourceError⟩,
   ⟨tss2TpmRcLayer, tpm2RcPolicyFail, securityError⟩,
   ⟨tss2TpmRcLayer, tpm2RcRange, inputError⟩,
   ⟨tss2TpmRcLayer, tpm2RcSize, inputError⟩,
   ⟨tss2TpmRcLayer, tpm2RcValue, inputError⟩,
   ⟨tss2EsapiRcLayer, tss2BaseRcGeneralFailure, backendError⟩,
   ⟨tss2EsapiRcLayer, tss2BaseRcNotImplemented, backendError⟩,
   ⟨tss2EsapiRcLayer, tss2BaseRcAbiMismatch, backendError⟩,
   ⟨tss2EsapiRcLayer, tss2BaseRcBadReference, inputError⟩,
   ⟨tss2EsapiRcLayer, tss2BaseRcInsufficientBuffer, inputError⟩,
   ⟨tss2EsapiRcLayer, tss2BaseRcBadSequence, backendError⟩,
   ⟨tss2EsapiRcLayer, tss2BaseRcInvalidSessions, inputError⟩,
   ⟨tss2EsapiRcLayer, tss2BaseRcTryAgain, resourceError⟩,
   ⟨tss2EsapiRcLayer, tss2BaseRcIoError, resourceError⟩,
   ⟨tss2EsapiRcLayer, tss2BaseRcBadValue, inputError⟩,
   ⟨tss2EsapiRcLayer, tss2BaseRcNoDecryptParam, inputError⟩,
   ⟨tss2EsapiRcLayer, tss2BaseRcNoEncryptParam, inputError⟩,
   ⟨tss2EsapiRcLayer, tss2BaseRcBadSize, inputError⟩,
   ⟨tss2EsapiRcLayer, tss2BaseRcMalformedResponse, backendError⟩,
   ⟨tss2EsapiRcLayer, tss2BaseRcInsufficientContext, backendError⟩,
   ⟨tss2EsapiRcLayer, tss2BaseRcInsufficientResponse, backendError⟩,
   ⟨tss2EsapiRcLayer, tss2BaseRcIncompatibleTcti, resourceError⟩,
   ⟨tss2EsapiRcLayer, tss2BaseRcBadTctiStructure, backendError⟩,
   ⟨tss2EsapiRcLayer, tss2BaseRcMemory, resourceError⟩,
   ⟨tss2EsapiRcLayer, tss2BaseRcBadTr, inputError⟩,
   ⟨tss2EsapiRcLayer, tss2BaseRcMultipleDecryptSessions, inputError⟩,
   ⟨tss2EsapiRcLayer, tss2BaseRcMultipleEncryptSessions, inputError⟩,
   ⟨tss2EsapiRcLayer, tss2BaseRcNotSupported, backendError⟩,
   ⟨tss2EsapiRcLayer, tss2BaseRcRspAuthFailed, securityError⟩,
   ⟨tss2EsapiRcLayer, tss2BaseRcCallbackNull, backendError⟩,
   ⟨tss2TctiRcLayer, tss2BaseRcGeneralFailure, backendError⟩,
   ⟨tss2TctiRcLayer, tss2BaseRcNotImplemented, backendError⟩,
   ⟨tss2TctiRcLayer, tss2BaseRcBadContext, backendError⟩,
   ⟨tss2TctiRcLayer, tss2BaseRcAbiMismatch, backendError⟩,
   ⟨tss2TctiRcLayer, tss2BaseRcBadReference, inputError⟩,
   ⟨tss2TctiRcLayer, tss2BaseRcInsufficientBuffer, inputError⟩,
   ⟨tss2TctiRcLayer, tss2BaseRcBadSequence, backendError⟩,
   ⟨tss2TctiRcLayer, tss2BaseRcNoConnection, resourceError⟩,
   ⟨tss2TctiRcLayer, tss2BaseRcTryAgain, resourceError⟩,
   ⟨tss2TctiRcLayer, tss2BaseRcIoError, resourceError⟩,
   ⟨tss2TctiRcLayer, tss2BaseRcBadValue, inputError⟩,
   ⟨tss2TctiRcLayer, tss2BaseRcNotPermitted, backendError⟩,
   ⟨tss2TctiRcLayer, tss2BaseRcMalformedResponse, backendError⟩,
   ⟨tss2TctiRcLayer, tss2BaseRcNotSupported, backendError⟩]

/-- `rc_layer`. -/
def rcLayer (rc : TssRc) : TssRc := rc &&& tss2RcLayerMask

/-- `normalize_tpm_base`. -/
def normalizeTpmBase (base : TssRc) : TssRc :=
  if base &&& tpm2RcFmt1 = 0 then base else base &&& (tpm2RcFmt1 ||| 0x3f)

/-- `rc_base`. -/
def rcBase (rc layer : TssRc) : TssRc :=
  let base := rc &&& 0xffff
  if layer = tss2TpmRcLayer then normalizeTpmBase base else base

/-- `layer_name`. -/
def layerName (layer : TssRc) : ByteString :=
  if layer = tss2TpmRcLayer then ascii "tpm"
  else if layer = tss2TctiRcLayer then ascii "tcti"
  else if layer = tss2EsapiRcLayer then ascii "esapi"
  else if layer = tss2SysRcLayer then ascii "sys"
  else if layer = tss2MuRcLayer then ascii "mu"
  else ascii "unknown"

/-- `category_name`. -/
def categoryName : ErrorCategory → ByteString
  | .inputError => Events.Values.inputError
  | .securityFailure => Events.Values.securityFailure
  | .resourceError => Events.Values.resourceError
  | .backendError => Events.Values.backendError

/-- The names of the categories are distinct, so a record tells which one it reports. -/
theorem categoryName_injective {c c' : ErrorCategory} (h : categoryName c = categoryName c') :
    c = c' := by
  revert h
  cases c <;> cases c' <;> decide

/-- `translate_layer_base`: the first matching entry decides. -/
def translateLayerBase (layer base : TssRc) : Error :=
  match documentedMappings.find? fun entry => entry.layer == layer && entry.base == base with
  | some entry => entry.error
  | none => backendError

/-- The error that `translate_tss_rc` returns for a code other than success. -/
def translatedError (rc : TssRc) : Error :=
  translateLayerBase (rcLayer rc) (rcBase rc (rcLayer rc))

/-! ## The failure record -/

/-- One lower-case hexadecimal digit. -/
def hexDigit (n : Nat) : UInt8 :=
  if n < 10 then UInt8.ofNat (n + 48) else UInt8.ofNat (n + 87)

/-- `format_hex`: the conversion `0x%08x`. -/
def formatHex (rc : TssRc) : ByteString :=
  ascii "0x" ++ (List.range 8).map fun i => hexDigit (rc.toNat / 16 ^ (7 - i) % 16)

/-- What is logged where the decoder gives no text. -/
def unavailableBackendErrorDescription : ByteString := ascii "unavailable"

/-- `max_backend_error_description_size`: of a longer text only this many bytes are looked at. -/
def maxBackendErrorDescriptionSize : Nat := 128

/-- `is_printable_ascii`. -/
def isPrintableAscii (byte : UInt8) : Bool := byte ≥ 0x20 && byte < 0x7f

/-- The loop of `sanitized_backend_error_description` from position `index` on.
Each pass reads a byte before it compares the position with the limit. -/
def sanitizeFrom (index : Nat) : List UInt8 → Outcome ByteString
  | [] => .fault .outOfBounds
  | byte :: rest =>
      if byte ≠ 0 ∧ index < maxBackendErrorDescriptionSize then do
        let description ← sanitizeFrom (index + 1) rest
        return (if isPrintableAscii byte then byte else 0x5f) :: description
      else return []

/-- `sanitized_backend_error_description`. -/
def sanitizedBackendErrorDescription : Option CString → Outcome ByteString
  | none => return unavailableBackendErrorDescription
  | some decoded => do
      let first ← spanAt decoded.memory 0
      if first = 0 then
        return unavailableBackendErrorDescription
      else
        let description ← sanitizeFrom 0 decoded.memory
        return if description.isEmpty then unavailableBackendErrorDescription else description

/-- `tss_error_decoder`. -/
abbrev TssErrorDecoder : Type := TssRc → Option CString

/-- `decode_backend_error_description`. -/
def decodeBackendErrorDescription (rc : TssRc) : Option TssErrorDecoder → Outcome ByteString
  | none => return unavailableBackendErrorDescription
  | some decoder => sanitizedBackendErrorDescription (decoder rc)

/-- The record that `log_tss_error` emits. -/
def tssErrorRecord (rc layer : TssRc) (category : ErrorCategory) (operation : ByteString)
    (errorEvent : EventDescriptor) (description : ByteString) : LogRecord :=
  failureRecord errorEvent
    [⟨Events.Fields.errorCategory, categoryName category⟩,
     ⟨Events.Fields.errorCode, formatHex rc⟩,
     ⟨Events.Fields.backendErrorDescription, description⟩,
     ⟨Events.Fields.operation, operation⟩,
     ⟨Events.Fields.tssLayer, layerName layer⟩]

/-! ## A terminated description is always read -/

/-- A terminated string is read up to its terminator at most, so the loop stays in its memory. -/
theorem sanitizeFrom_value {memory : List UInt8} (h : (0 : UInt8) ∈ memory) (index : Nat) :
    ∃ description, sanitizeFrom index memory = .value description := by
  induction memory generalizing index with
  | nil => cases h
  | cons byte rest ih =>
      by_cases hcontinue : byte ≠ 0 ∧ index < maxBackendErrorDescriptionSize
      · have hrest : (0 : UInt8) ∈ rest :=
          (List.mem_cons.mp h).resolve_left fun hzero => hcontinue.1 hzero.symm
        obtain ⟨description, hdescription⟩ := ih hrest (index + 1)
        exact ⟨_, by rw [sanitizeFrom, if_pos hcontinue, hdescription]; rfl⟩
      · exact ⟨[], by rw [sanitizeFrom, if_neg hcontinue]; rfl⟩

/-- Whatever the decoder returns is sanitized without a fault. -/
theorem sanitizedBackendErrorDescription_value (decoded : Option CString) :
    ∃ description, sanitizedBackendErrorDescription decoded = .value description := by
  cases decoded with
  | none => exact ⟨_, rfl⟩
  | some decoded =>
      have hlength : 0 < decoded.memory.length := List.length_pos_of_mem decoded.terminated
      obtain ⟨description, hdescription⟩ := sanitizeFrom_value decoded.terminated 0
      by_cases hfirst : decoded.memory[0] = 0
      · exact ⟨unavailableBackendErrorDescription,
          by simp [sanitizedBackendErrorDescription, hlength, hfirst]⟩
      · exact ⟨if description.isEmpty then unavailableBackendErrorDescription else description,
          by simp [sanitizedBackendErrorDescription, hlength, hfirst, hdescription]⟩

/-- Reading the description of a code never leaves the memory of the string. -/
theorem decodeBackendErrorDescription_value (rc : TssRc) (decoder : Option TssErrorDecoder) :
    ∃ description, decodeBackendErrorDescription rc decoder = .value description := by
  cases decoder with
  | none => exact ⟨_, rfl⟩
  | some decoder => exact sanitizedBackendErrorDescription_value (decoder rc)

/-- The description that a record quotes. -/
def backendErrorDescription (rc : TssRc) (decoder : Option TssErrorDecoder) : ByteString :=
  match decodeBackendErrorDescription rc decoder with
  | .value description => description
  | _ => unavailableBackendErrorDescription

/-- The loop over the decoder's memory computes the description that the records are stated
with. -/
theorem decodeBackendErrorDescription_eq (rc : TssRc) (decoder : Option TssErrorDecoder) :
    decodeBackendErrorDescription rc decoder = .value (backendErrorDescription rc decoder) := by
  obtain ⟨description, hdescription⟩ := decodeBackendErrorDescription_value rc decoder
  rw [backendErrorDescription, hdescription]

end Tpmkit
