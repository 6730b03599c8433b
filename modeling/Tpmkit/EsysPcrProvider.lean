import Tpmkit.EsysWorld
import Tpmkit.PcrValidation

/-!
# The ESYS PCR provider

The seven operations of `esys_pcr_provider.cpp`, each a program over the world
of its function table, its logger and its observer.  The response structures
that ESYS allocates are freed on every way out of the scope that holds them.
-/

namespace Tpmkit

open Checked ByteStrings Pcr

/-- `esys_pcr_provider`: it borrows the ESYS context of the object that made it, and shares its
logger and its table of functions. -/
structure EsysPcrProvider (σ : Type) where
  api : EsysApi σ
  esys : Option EsysContext
  log : Logger
  observer : Option Observer

namespace EsysPcrProvider

variable {σ α : Type} (build : BuildOptions) (provider : EsysPcrProvider σ)

/-- Translate, log and return the code of a failed call. -/
def returnTssError (rc : TssRc) (operation : ByteString) : Adapter σ α :=
  returnTranslated rc operation (some provider.log) Events.pcrTssError provider.api.decodeError

/-- Call the observer, if there is one. -/
def notify (event : Observer → Event) : Adapter σ Unit :=
  match provider.observer with
  | none => return ()
  | some observer => record (event observer)

/-! ## The operations -/

/-- `esys_pcr_provider::allocate`: the checks, one `Esys_PCR_Allocate`, and a record of what the
TPM decided. -/
def allocate (banks : List (Bank build)) : Adapter σ AllocateResult := do
  .lift (ensureEsysAvailable provider.esys)
  .lift (ensureBankCount banks)
  let allocation ← .lift (toTpmAllocation build banks)
  let answer ← provider.api.callPcrAllocate provider.esys esysTrRhPlatform esysTrPassword
    esysTrNone esysTrNone allocation
  if answer.rc ≠ tss2RcSuccess then
    provider.returnTssError answer.rc (ascii "pcr_allocate")
  else
    let result : AllocateResult := ⟨answer.allocationSuccess ≠ 0, answer.maxPcr,
      answer.sizeNeeded, answer.sizeAvailable⟩
    emit provider.log (logAllocateCompleted result.allocationSuccess banks.length)
    return result

/-- `esys_pcr_provider::event`, after the backend has answered.  By now the TPM has measured the
event, and the digests of its answer can still be missing or refused. -/
def completeEvent (index : Index) (eventData : List UInt8) (answer : EventAnswer) :
    Adapter σ EventResult :=
  if answer.rc ≠ tss2RcSuccess then
    provider.returnTssError answer.rc (ascii "pcr_event")
  else
    match answer.digests with
    | none => .returnError ⟨.backendError, "TPM returned no PCR event digests"⟩
    | some digests => do
        let domainDigests ← .lift (toDomainDigests build digests)
        let result : EventResult := ⟨domainDigests⟩
        emit provider.log (logEventCompleted index eventData.length result.digests.length)
        provider.notify fun observer => .onEvent observer index eventData result
        return result

/-- `esys_pcr_provider::event`: the checks, one `Esys_PCR_Event`, and what follows its answer;
the digests of the answer are freed on every path. -/
def event (index : Index) (eventData : List UInt8) : Adapter σ EventResult := do
  .lift (ensureEsysAvailable provider.esys)
  .lift (ensureEventSize eventData)
  let tpmEvent ← .lift (toTpmEvent eventData)
  let answer ← provider.api.callPcrEvent provider.esys (pcrHandle index) esysTrPassword
    esysTrNone esysTrNone tpmEvent
  Program.onExit (provider.completeEvent build index eventData answer)
    (provider.api.freeBuffer .eventDigests answer.digests)

/-- `esys_pcr_provider::extend`: the checks, one `Esys_PCR_Extend`, and after a success the
observer is called with the caller's digests. -/
def extend (index : Index) (digests : List DigestValue) : Adapter σ Unit := do
  .lift (ensureEsysAvailable provider.esys)
  .lift (ensureDigestCount digests)
  let tpmDigests ← .lift (toTpmDigestValues build digests)
  let rc ← provider.api.callPcrExtend provider.esys (pcrHandle index) esysTrPassword
    esysTrNone esysTrNone tpmDigests
  if rc ≠ tss2RcSuccess then
    provider.returnTssError rc (ascii "pcr_extend")
  else
    emit provider.log (logExtendCompleted index digests.length)
    provider.notify fun observer => .onExtend observer index digests

/-- `esys_pcr_provider::read`, after the backend has answered: the selection and the values are
both parsed from the answer. -/
def completeRead (selection : Selection build) (answer : ReadAnswer) :
    Adapter σ (ReadResult build) :=
  if answer.rc ≠ tss2RcSuccess then
    provider.returnTssError answer.rc (ascii "pcr_read")
  else
    match answer.pcrSelectionOut, answer.pcrValues with
    | some actualSelection, some values => do
        let domainSelection ← .lift (toDomainSelection build actualSelection selection.algorithm)
        let domainValues ← .lift (toDomainReadValues build values domainSelection)
        let result : ReadResult build := ⟨domainSelection, answer.pcrUpdateCounter, domainValues⟩
        emit provider.log (logReadCompleted result.actualSelection result.values.length)
        return result
    | _, _ => .returnError ⟨.backendError, "TPM returned incomplete PCR read response"⟩

/-- `esys_pcr_provider::read`; the values are freed before the selection. -/
def read (selection : Selection build) : Adapter σ (ReadResult build) := do
  .lift (ensureEsysAvailable provider.esys)
  let tpmSelection ← .lift (toTpmSelection build selection)
  let answer ← provider.api.callPcrRead provider.esys esysTrNone esysTrNone esysTrNone tpmSelection
  Program.onExit
    (Program.onExit (provider.completeRead build selection answer)
      (provider.api.freeBuffer .readValues answer.pcrValues))
    (provider.api.freeBuffer .readSelection answer.pcrSelectionOut)

/-- `esys_pcr_provider::reset`: one `Esys_PCR_Reset`, whose code decides. -/
def reset (index : Index) : Adapter σ Unit := do
  .lift (ensureEsysAvailable provider.esys)
  let rc ← provider.api.callPcrReset provider.esys (pcrHandle index) esysTrPassword esysTrNone
    esysTrNone
  if rc ≠ tss2RcSuccess then
    provider.returnTssError rc (ascii "pcr_reset")
  else
    emit provider.log (logResetCompleted index)

/-- `esys_pcr_provider::set_auth_policy`: the digest must have the size of its algorithm; the
PCR is named by its number and not by a handle. -/
def setAuthPolicy (index : Index) (policyAlg : HashAlgorithm) (policyDigest : List UInt8) :
    Adapter σ Unit := do
  .lift (ensureEsysAvailable provider.esys)
  .lift (ensurePolicyDigestSize build policyAlg policyDigest)
  let authPolicy ← .lift (toTpmSizedDigest policyDigest)
  let rc ← provider.api.callPcrSetAuthPolicy provider.esys esysTrRhPlatform esysTrPassword
    esysTrNone esysTrNone authPolicy (algorithmToTpm build policyAlg)
    (tpm2HrPcr + index.value.toUInt32)
  if rc ≠ tss2RcSuccess then
    provider.returnTssError rc (ascii "pcr_set_auth_policy")
  else
    emit provider.log (logAuthPolicySet index policyAlg)

/-- `esys_pcr_provider::set_auth_value`; `auth` is the view of the secret buffer.  Only the
empty value is sent.  Before it the handle is told the empty value that is taken to be in force,
and after it the new one. -/
def setAuthValue (index : Index) (auth : List UInt8) : Adapter σ Unit := do
  .lift (ensureEsysAvailable provider.esys)
  .lift (ensureSizedBufferFits auth.length "PCR auth value is too large")
  .lift (ensureSecureAuthValueTransport auth)
  let setAuthRc ← provider.api.callTrSetAuth provider.esys (pcrHandle index) Tpm2bDigest.zeroed
  if setAuthRc ≠ tss2RcSuccess then
    provider.returnTssError setAuthRc (ascii "pcr_set_auth_value_set_current_auth")
  else
    let tpmAuth ← .lift (toTpmSizedDigest auth)
    let rc ← provider.api.callPcrSetAuthValue provider.esys (pcrHandle index) esysTrPassword
      esysTrNone esysTrNone tpmAuth
    if rc ≠ tss2RcSuccess then
      provider.returnTssError rc (ascii "pcr_set_auth_value")
    else
      let updateAuthRc ← provider.api.callTrSetAuth provider.esys (pcrHandle index)
        Tpm2bDigest.zeroed
      if updateAuthRc ≠ tss2RcSuccess then
        provider.returnTssError updateAuthRc (ascii "pcr_set_auth_value_update_current_auth")
      else
        emit provider.log (logAuthValueSet index)

end EsysPcrProvider

end Tpmkit
