import Tpmkit.EsysPcrProvider
import Tpmkit.RequestEncoding

/-!
# Runs of the PCR provider

One run lemma for each operation.  It gives the whole effect of an operation
that passes its checks: the result as a function of the backend's answer, the
state the backend reached, and every event in order, the backend call first.
The `rejected` lemmas say that an operation that fails a check leaves the world
as it was.
-/

namespace Tpmkit

open Checked ByteStrings Pcr

namespace EsysPcrProvider

variable {σ α : Type} (build : BuildOptions) (provider : EsysPcrProvider σ)

/-! ## Results and events as functions of the answers -/

/-- What a failed call makes visible. -/
def tssErrorEvents (rc : TssRc) (operation : ByteString) : List Event :=
  failureEvents (some provider.log) rc operation Events.pcrTssError provider.api.decodeError

/-- What the observer sees, if there is one. -/
def notifyEvents (event : Observer → Event) : List Event :=
  match provider.observer with
  | none => []
  | some observer => [event observer]

/-- The result of an operation that returns nothing but its status. -/
def statusResult (rc : TssRc) : Outcome Unit :=
  if rc ≠ tss2RcSuccess then .unexpected (translatedError rc) else .value ()

/-- What an operation makes visible after its last backend call. -/
def statusEvents (rc : TssRc) (operation : ByteString) (completed : List Event) : List Event :=
  if rc ≠ tss2RcSuccess then provider.tssErrorEvents rc operation else completed

/-- What an answered allocation comes to. -/
def allocateResult (answer : AllocateAnswer) : Outcome AllocateResult :=
  if answer.rc ≠ tss2RcSuccess then .unexpected (translatedError answer.rc)
  else .value ⟨answer.allocationSuccess ≠ 0, answer.maxPcr, answer.sizeNeeded,
    answer.sizeAvailable⟩

/-- What an answered event comes to: the error of its code, or the digests that the answer
parses to. -/
def eventResult (answer : EventAnswer) : Outcome EventResult :=
  if answer.rc ≠ tss2RcSuccess then .unexpected (translatedError answer.rc)
  else
    match answer.digests with
    | none => fail .backendError "TPM returned no PCR event digests"
    | some digests => EventResult.mk <$> toDomainDigests build digests

/-- A return code alone never makes the provider throw. -/
theorem noFault_statusResult (rc : TssRc) : (statusResult rc).NoFault := by
  unfold statusResult
  split <;> simp

/-- Nor does the answer to an allocation. -/
theorem noFault_allocateResult (answer : AllocateAnswer) : (allocateResult answer).NoFault := by
  unfold allocateResult
  split <;> simp

/-- What `event` makes visible while it handles an answer. -/
def completeEventEvents (index : Index) (eventData : List UInt8) (answer : EventAnswer) :
    List Event :=
  match eventResult build answer with
  | .value result =>
      provider.log.events (logEventCompleted index eventData.length result.digests.length) ++
        provider.notifyEvents fun observer => .onEvent observer index eventData result
  | _ => provider.statusEvents answer.rc (ascii "pcr_event") []

/-- What an answered read comes to: the error of its code, or the selection and the values that
the answer parses to. -/
def readResult (selection : Selection build) (answer : ReadAnswer) : Outcome (ReadResult build) :=
  if answer.rc ≠ tss2RcSuccess then .unexpected (translatedError answer.rc)
  else
    match answer.pcrSelectionOut, answer.pcrValues with
    | some actualSelection, some values => do
        let domainSelection ← toDomainSelection build actualSelection selection.algorithm
        let domainValues ← toDomainReadValues build values domainSelection
        return ⟨domainSelection, answer.pcrUpdateCounter, domainValues⟩
    | _, _ => fail .backendError "TPM returned incomplete PCR read response"

/-- What `read` makes visible while it handles an answer. -/
def completeReadEvents (selection : Selection build) (answer : ReadAnswer) : List Event :=
  match readResult build selection answer with
  | .value result =>
      provider.log.events (logReadCompleted result.actualSelection result.values.length)
  | _ => provider.statusEvents answer.rc (ascii "pcr_read") []

/-! ## Runs of the operations -/

variable {build provider} (w : World σ)

/-- Logging an error sends nothing. -/
@[simp] theorem requests_tssErrorEvents (rc : TssRc) (operation : ByteString) :
    requests (provider.tssErrorEvents rc operation) = [] :=
  requests_failureEvents ..

/-- The events after a return code send nothing if those of a success send nothing. -/
theorem requests_statusEvents (rc : TssRc) (operation : ByteString)
    (completed : List Event) (h : requests completed = []) :
    requests (provider.statusEvents rc operation completed) = [] := by
  unfold statusEvents
  split <;> simp [h]

/-- Calling an observer sends nothing. -/
theorem requests_notifyEvents (event : Observer → Event)
    (h : ∀ observer, requests [event observer] = []) :
    requests (provider.notifyEvents event) = [] := by
  unfold notifyEvents
  split <;> simp [h]

/-- What follows the answer to an event sends nothing. -/
@[simp] theorem requests_completeEventEvents (index : Index) (eventData : List UInt8)
    (answer : EventAnswer) :
    requests (provider.completeEventEvents build index eventData answer) = [] := by
  unfold completeEventEvents
  split
  · rw [requests_append, requests_logger_events, List.nil_append]
    exact requests_notifyEvents _ fun _ => rfl
  · exact requests_statusEvents _ _ _ rfl

/-- What follows the answer to a read sends nothing. -/
@[simp] theorem requests_completeReadEvents (selection : Selection build) (answer : ReadAnswer) :
    requests (provider.completeReadEvents build selection answer) = [] := by
  unfold completeReadEvents
  split
  · simp
  · exact requests_statusEvents _ _ _ rfl

/-- A failing code is logged and returned as its translation. -/
@[simp] theorem returnTssError_of_ne_success {rc : TssRc} (h : rc ≠ tss2RcSuccess)
    (operation : ByteString) :
    (provider.returnTssError rc operation : Adapter σ α) w =
      (.unexpected (translatedError rc), w.after w.backend (provider.tssErrorEvents rc operation)) :=
  returnTranslated_of_ne_success h operation (some provider.log) Events.pcrTssError
    provider.api.decodeError w

/-- Calling the observer changes no backend and always goes through. -/
@[simp] theorem notify_apply (event : Observer → Event) :
    provider.notify event w = (.value (), w.after w.backend (provider.notifyEvents event)) := by
  unfold notify notifyEvents
  cases provider.observer <;> simp

/-- Distinct algorithms bound the length of the list that carries them. -/
theorem length_le_of_map_nodup {τ : Type} {xs : List τ} {algorithm : τ → HashAlgorithm}
    (henabled : ∀ x ∈ xs, (algorithm x).Enabled build) (hdistinct : (xs.map algorithm).Nodup) :
    xs.length ≤ 16 := by
  have hall : ∀ a ∈ xs.map algorithm, a.Enabled build := by
    intro a ha
    obtain ⟨x, hx, rfl⟩ := List.mem_map.mp ha
    exact henabled x hx
  have hle := length_le_of_distinct hall hdistinct
  rw [List.length_map] at hle
  omega

/-! ### Allocating -/

/-- An allocation without a context, of no bank or of a bank twice, is refused before anything
is sent. -/
theorem allocate_rejected {banks : List (Bank build)}
    (h : ¬(provider.esys.isSome = true ∧ banks ≠ [] ∧ (banks.map Bank.algorithm).Nodup)) :
    (provider.allocate build banks).Rejects w :=
  Program.guard_rejects (ensureEsysAvailable_decides provider.esys) fun hesys =>
    Program.guard_rejects (ensureBankCount_decides banks) fun hbanks => absurd ⟨hesys, hbanks⟩ h

/-- An allocation that passes its checks: one request, its record, and what the answer comes to.
-/
theorem allocate_run {banks : List (Bank build)} {answer : AllocateAnswer} {b : σ}
    (hesys : provider.esys.isSome = true)
    (hbanks : banks ≠ [] ∧ (banks.map Bank.algorithm).Nodup)
    (hanswer : provider.api.pcrAllocate provider.esys esysTrRhPlatform esysTrPassword esysTrNone
      esysTrNone (encodedAllocation build banks) w.backend = (answer, b)) :
    provider.allocate build banks w = (allocateResult answer, w.after b
      (.esys (.pcrAllocate provider.esys esysTrRhPlatform esysTrPassword esysTrNone esysTrNone
        (encodedAllocation build banks)) answer.rc ::
        provider.statusEvents answer.rc (ascii "pcr_allocate") (provider.log.events
          (logAllocateCompleted (answer.allocationSuccess ≠ 0) banks.length)))) := by
  have hlength : banks.length ≤ 16 := length_le_of_map_nodup (fun bank _ => bank.enabled) hbanks.2
  unfold allocate
  rw [Program.guard_holds (ensureEsysAvailable_decides _) hesys,
    Program.guard_holds (ensureBankCount_decides _) hbanks]
  by_cases hrc : answer.rc = tss2RcSuccess <;>
    simp [toTpmAllocation_of_length hlength, EsysApi.callPcrAllocate, allocateResult,
      statusEvents, hanswer, hrc]

/-! ### Events -/

/-- An event without a context or with more than 1024 bytes is refused before anything is sent. -/
theorem event_rejected {index : Index} {eventData : List UInt8}
    (h : ¬(provider.esys.isSome = true ∧ eventData.length ≤ 1024)) :
    (provider.event build index eventData).Rejects w :=
  Program.guard_rejects (ensureEsysAvailable_decides provider.esys) fun hesys =>
    Program.guard_rejects (ensureEventSize_decides eventData) fun hsize => absurd ⟨hesys, hsize⟩ h

variable (provider) in
/-- What `event` does with an answer; no answer makes it fault. -/
theorem completeEvent_spec (index : Index) (eventData : List UInt8) (answer : EventAnswer) :
    provider.completeEvent build index eventData answer w = (eventResult build answer,
      w.after w.backend (provider.completeEventEvents build index eventData answer)) ∧
    (eventResult build answer).NoFault := by
  by_cases hrc : answer.rc = tss2RcSuccess
  · rcases hdigests : answer.digests with _ | t
    · simp [completeEvent, completeEventEvents, eventResult, statusEvents, hrc, hdigests, fail]
    · rcases toDomainDigests_exact build t with ⟨_, hrun⟩ | ⟨_, e, hrun⟩ <;>
        simp [completeEvent, completeEventEvents, eventResult, statusEvents, hrc, hdigests, hrun]
  · simp [completeEvent, completeEventEvents, eventResult, statusEvents, hrc]

/-- An event that passes its checks: one request, its records and the observer's call, and the
digests of the answer freed at the end, on every path. -/
theorem event_run {index : Index} {eventData : List UInt8} {answer : EventAnswer} {b : σ}
    (hesys : provider.esys.isSome = true) (hsize : eventData.length ≤ 1024)
    (hanswer : provider.api.pcrEvent provider.esys (pcrHandle index) esysTrPassword esysTrNone
      esysTrNone (encodedEvent eventData) w.backend = (answer, b)) :
    provider.event build index eventData w = (eventResult build answer,
      w.after (provider.api.freed .eventDigests answer.digests b)
      (.esys (.pcrEvent provider.esys (pcrHandle index) esysTrPassword esysTrNone esysTrNone
        (encodedEvent eventData)) answer.rc ::
        (provider.completeEventEvents build index eventData answer ++
          EsysApi.freeEvents .eventDigests answer.digests))) := by
  unfold event
  rw [Program.guard_holds (ensureEsysAvailable_decides _) hesys,
    Program.guard_holds (ensureEventSize_decides _) hsize]
  simp only [toTpmEvent_of_length hsize, EsysApi.callPcrEvent, Program.bind_apply,
    Program.lift_apply, Program.resume_value, callBackend_apply, hanswer]
  obtain ⟨hcomplete, hnofault⟩ := provider.completeEvent_spec _ index eventData answer
  rw [Program.onExit_apply hcomplete hnofault (provider.api.freeBuffer_apply _ _)]
  simp

/-! ### Extending -/

/-- An extend without a context, of no digest or of an algorithm twice, is refused before
anything is sent. -/
theorem extend_rejected {index : Index} {digests : List DigestValue}
    (hdigests : ∀ d ∈ digests, d.Stored build)
    (h : ¬(provider.esys.isSome = true ∧ digests ≠ [] ∧
      (digests.map DigestValue.algorithm).Nodup)) :
    (provider.extend build index digests).Rejects w :=
  Program.guard_rejects (ensureEsysAvailable_decides provider.esys) fun hesys =>
    Program.guard_rejects (ensureDigestCount_decides hdigests) fun hcount =>
      absurd ⟨hesys, hcount⟩ h

/-- An extend that passes its checks: one request, and after a success the record and the
observer's call with the caller's digests. -/
theorem extend_run {index : Index} {digests : List DigestValue} {rc : TssRc} {b : σ}
    (hdigests : ∀ d ∈ digests, d.Stored build) (hesys : provider.esys.isSome = true)
    (hcount : digests ≠ [] ∧ (digests.map DigestValue.algorithm).Nodup)
    (hanswer : provider.api.pcrExtend provider.esys (pcrHandle index) esysTrPassword esysTrNone
      esysTrNone (encodedDigests build digests) w.backend = (rc, b)) :
    provider.extend build index digests w = (statusResult rc, w.after b
      (.esys (.pcrExtend provider.esys (pcrHandle index) esysTrPassword esysTrNone esysTrNone
        (encodedDigests build digests)) rc ::
        provider.statusEvents rc (ascii "pcr_extend")
          (provider.log.events (logExtendCompleted index digests.length) ++
            provider.notifyEvents fun observer => .onExtend observer index digests))) := by
  have hlength : digests.length ≤ 16 :=
    length_le_of_map_nodup (fun d hd => (hdigests d hd).enabled) hcount.2
  unfold extend
  rw [Program.guard_holds (ensureEsysAvailable_decides _) hesys,
    Program.guard_holds (ensureDigestCount_decides hdigests) hcount]
  by_cases hrc : rc = tss2RcSuccess <;>
    simp [toTpmDigestValues_of_stored hlength hdigests, EsysApi.callPcrExtend, statusResult,
      statusEvents, hanswer, hrc]

/-! ### Reading -/

/-- A read without a context is refused before anything is sent. -/
theorem read_rejected {selection : Selection build} (h : ¬provider.esys.isSome = true) :
    (provider.read build selection).Rejects w :=
  Program.guard_rejects (ensureEsysAvailable_decides provider.esys) fun hesys => absurd hesys h

variable (provider) in
/-- What `read` does with an answer; no answer makes it fault. -/
theorem completeRead_spec (selection : Selection build) (answer : ReadAnswer) :
    provider.completeRead build selection answer w = (readResult build selection answer,
      w.after w.backend (provider.completeReadEvents build selection answer)) ∧
    (readResult build selection answer).NoFault := by
  by_cases hrc : answer.rc = tss2RcSuccess
  · rcases hselection : answer.pcrSelectionOut with _ | t
    · simp [completeRead, completeReadEvents, readResult, statusEvents, hrc, hselection, fail]
    rcases hvalues : answer.pcrValues with _ | values
    · simp [completeRead, completeReadEvents, readResult, statusEvents, hrc, hselection, hvalues,
        fail]
    rcases toDomainSelection_cases t selection.enabled with ⟨decoded, hdecoded⟩ | ⟨e, hrefused⟩
    · rcases toDomainReadValues_exact values decoded with ⟨_, hrun⟩ | ⟨_, e, hrun⟩ <;>
        simp [completeRead, completeReadEvents, readResult, statusEvents, hrc, hselection,
          hvalues, hdecoded, hrun]
    · simp [completeRead, completeReadEvents, readResult, statusEvents, hrc, hselection,
        hvalues, hrefused]
  · simp [completeRead, completeReadEvents, readResult, statusEvents, hrc]

/-- A read with a context: one request, what the answer comes to, and both buffers of the answer
freed in the reverse order of their declarations. -/
theorem read_run {selection : Selection build} {t : TpmlPcrSelection} {answer : ReadAnswer} {b : σ}
    (ht : toTpmSelection build selection = .value t) (hesys : provider.esys.isSome = true)
    (hanswer : provider.api.pcrRead provider.esys esysTrNone esysTrNone esysTrNone t w.backend =
      (answer, b)) :
    provider.read build selection w = (readResult build selection answer,
      w.after
        (provider.api.freed .readSelection answer.pcrSelectionOut
          (provider.api.freed .readValues answer.pcrValues b))
        (.esys (.pcrRead provider.esys esysTrNone esysTrNone esysTrNone t) answer.rc ::
          (provider.completeReadEvents build selection answer ++
            EsysApi.freeEvents .readValues answer.pcrValues ++
            EsysApi.freeEvents .readSelection answer.pcrSelectionOut))) := by
  unfold read
  rw [Program.guard_holds (ensureEsysAvailable_decides _) hesys]
  simp only [ht, EsysApi.callPcrRead, Program.bind_apply, Program.lift_apply,
    Program.resume_value, callBackend_apply, hanswer]
  obtain ⟨hcomplete, hnofault⟩ := provider.completeRead_spec _ selection answer
  have hinner := Program.onExit_apply hcomplete hnofault
    (provider.api.freeBuffer_apply .readValues answer.pcrValues)
  rw [Program.onExit_apply hinner hnofault (provider.api.freeBuffer_apply _ _)]
  simp

/-! ### Resetting -/

/-- A reset without a context is refused before anything is sent. -/
theorem reset_rejected {index : Index} (h : ¬provider.esys.isSome = true) :
    (provider.reset index).Rejects w :=
  Program.guard_rejects (ensureEsysAvailable_decides provider.esys) fun hesys => absurd hesys h

/-- A reset with a context: one request and its record. -/
theorem reset_run {index : Index} {rc : TssRc} {b : σ} (hesys : provider.esys.isSome = true)
    (hanswer : provider.api.pcrReset provider.esys (pcrHandle index) esysTrPassword esysTrNone
      esysTrNone w.backend = (rc, b)) :
    provider.reset index w = (statusResult rc, w.after b
      (.esys (.pcrReset provider.esys (pcrHandle index) esysTrPassword esysTrNone esysTrNone) rc ::
        provider.statusEvents rc (ascii "pcr_reset")
          (provider.log.events (logResetCompleted index)))) := by
  unfold reset
  rw [Program.guard_holds (ensureEsysAvailable_decides _) hesys]
  by_cases hrc : rc = tss2RcSuccess <;>
    simp [EsysApi.callPcrReset, statusResult, statusEvents, hanswer, hrc]

/-! ### Authorization policies -/

/-- A policy without a context, of an algorithm that is not in the build or with a digest of
another size, is refused before anything is sent. -/
theorem setAuthPolicy_rejected {index : Index} {policyAlg : HashAlgorithm}
    {policyDigest : List UInt8}
    (h : ¬(provider.esys.isSome = true ∧ policyAlg.Enabled build ∧
      policyDigest.length = policyAlg.size)) :
    (provider.setAuthPolicy build index policyAlg policyDigest).Rejects w :=
  Program.guard_rejects (ensureEsysAvailable_decides provider.esys) fun hesys =>
    Program.guard_rejects (ensurePolicyDigestSize_decides policyAlg policyDigest) fun hpolicy =>
      absurd ⟨hesys, hpolicy⟩ h

/-- A policy that passes its checks: one request, which names the PCR by number, and its record.
-/
theorem setAuthPolicy_run {index : Index} {policyAlg : HashAlgorithm} {policyDigest : List UInt8}
    {rc : TssRc} {b : σ} (hesys : provider.esys.isSome = true)
    (hpolicy : policyAlg.Enabled build ∧ policyDigest.length = policyAlg.size)
    (hanswer : provider.api.pcrSetAuthPolicy provider.esys esysTrRhPlatform esysTrPassword
      esysTrNone esysTrNone (encodedSizedDigest policyDigest) (algorithmToTpm build policyAlg)
      (tpm2HrPcr + index.value.toUInt32) w.backend = (rc, b)) :
    provider.setAuthPolicy build index policyAlg policyDigest w = (statusResult rc, w.after b
      (.esys (.pcrSetAuthPolicy provider.esys esysTrRhPlatform esysTrPassword esysTrNone esysTrNone
        (encodedSizedDigest policyDigest) (algorithmToTpm build policyAlg)
        (tpm2HrPcr + index.value.toUInt32)) rc ::
        provider.statusEvents rc (ascii "pcr_set_auth_policy")
          (provider.log.events (logAuthPolicySet index policyAlg)))) := by
  have hlength : policyDigest.length ≤ 64 := hpolicy.2 ▸ policyAlg.size_le
  unfold setAuthPolicy
  rw [Program.guard_holds (ensureEsysAvailable_decides _) hesys,
    Program.guard_holds (ensurePolicyDigestSize_decides _ _) hpolicy]
  by_cases hrc : rc = tss2RcSuccess <;>
    simp [toTpmSizedDigest_of_length hlength, EsysApi.callPcrSetAuthPolicy, statusResult,
      statusEvents, hanswer, hrc]

/-! ### Authorization values -/

/-- An authorization value that is not empty, or one without a context, is refused before
anything is sent. -/
theorem setAuthValue_rejected {index : Index} {auth : List UInt8}
    (h : ¬(provider.esys.isSome = true ∧ auth = [])) :
    (provider.setAuthValue index auth).Rejects w :=
  Program.guard_rejects (ensureEsysAvailable_decides provider.esys) fun hesys =>
    Program.guard_rejects (ensureSizedBufferFits_decides auth.length _) fun _ =>
      Program.guard_rejects (ensureSecureAuthValueTransport_decides auth) fun hempty =>
        absurd ⟨hesys, hempty⟩ h

/-- The three calls of `set_auth_value`; each is made only when the calls
before it were answered with success. -/
theorem setAuthValue_run {index : Index} {currentRc rc updateRc : TssRc} {b₁ b₂ b₃ : σ}
    (hesys : provider.esys.isSome = true)
    (hcurrent : provider.api.trSetAuth provider.esys (pcrHandle index) .zeroed w.backend =
      (currentRc, b₁))
    (hset : provider.api.pcrSetAuthValue provider.esys (pcrHandle index) esysTrPassword esysTrNone
      esysTrNone (encodedSizedDigest []) b₁ = (rc, b₂))
    (hupdate : provider.api.trSetAuth provider.esys (pcrHandle index) .zeroed b₂ =
      (updateRc, b₃)) :
    provider.setAuthValue index [] w =
      if currentRc ≠ tss2RcSuccess then
        (.unexpected (translatedError currentRc), w.after b₁
          (.esys (.trSetAuth provider.esys (pcrHandle index) .zeroed) currentRc ::
            provider.tssErrorEvents currentRc (ascii "pcr_set_auth_value_set_current_auth")))
      else if rc ≠ tss2RcSuccess then
        (.unexpected (translatedError rc), w.after b₂
          (.esys (.trSetAuth provider.esys (pcrHandle index) .zeroed) currentRc ::
            .esys (.pcrSetAuthValue provider.esys (pcrHandle index) esysTrPassword esysTrNone
              esysTrNone (encodedSizedDigest [])) rc ::
            provider.tssErrorEvents rc (ascii "pcr_set_auth_value")))
      else
        (statusResult updateRc, w.after b₃
          (.esys (.trSetAuth provider.esys (pcrHandle index) .zeroed) currentRc ::
            .esys (.pcrSetAuthValue provider.esys (pcrHandle index) esysTrPassword esysTrNone
              esysTrNone (encodedSizedDigest [])) rc ::
            .esys (.trSetAuth provider.esys (pcrHandle index) .zeroed) updateRc ::
            provider.statusEvents updateRc (ascii "pcr_set_auth_value_update_current_auth")
              (provider.log.events (logAuthValueSet index)))) := by
  have hlength : ([] : List UInt8).length ≤ 64 := by simp
  unfold setAuthValue
  rw [Program.guard_holds (ensureEsysAvailable_decides _) hesys,
    Program.guard_holds (ensureSizedBufferFits_decides _ _) hlength,
    Program.guard_holds (ensureSecureAuthValueTransport_decides _) rfl]
  by_cases hrc₁ : currentRc = tss2RcSuccess
  swap
  · simp [EsysApi.callTrSetAuth, hcurrent, hrc₁]
  by_cases hrc₂ : rc = tss2RcSuccess
  swap
  · simp [EsysApi.callTrSetAuth, EsysApi.callPcrSetAuthValue, toTpmSizedDigest_of_length hlength,
      hcurrent, hset, hrc₁, hrc₂]
  by_cases hrc₃ : updateRc = tss2RcSuccess <;>
    simp [EsysApi.callTrSetAuth, EsysApi.callPcrSetAuthValue, toTpmSizedDigest_of_length hlength,
      statusResult, statusEvents, hcurrent, hset, hupdate, hrc₁, hrc₂, hrc₃]

end EsysPcrProvider

end Tpmkit
