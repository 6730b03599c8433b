import Tpmkit.ContextCreation
import Tpmkit.ProviderRuns

/-!
# The documented error categories

The headers of context creation and of `provider::read` promise three of the
four error categories.  All operations share one translation table, and that
table answers five of its keys with the fourth category, `security_failure`.

`documented_categories` says on which answers of the backend an operation keeps
to the promise: on those that carry none of the five.
-/

namespace Tpmkit

open Checked ByteStrings Pcr

variable {σ : Type}

/-! ## The codes of a security failure -/

/-- The category is one of those that creation and reading document. -/
def Error.Documented (e : Error) : Prop :=
  e.category ∈ [ErrorCategory.inputError, .resourceError, .backendError]

instance (e : Error) : Decidable e.Documented :=
  inferInstanceAs (Decidable (e.category ∈ [ErrorCategory.inputError, .resourceError, .backendError]))

/-- The layer and base codes for failed authorizations. -/
def securityCodes : List (TssRc × TssRc) :=
  [(tss2TpmRcLayer, tpm2RcAuthFail), (tss2TpmRcLayer, tpm2RcBadAuth),
   (tss2TpmRcLayer, tpm2RcLockout), (tss2TpmRcLayer, tpm2RcPolicyFail),
   (tss2EsapiRcLayer, tss2BaseRcRspAuthFailed)]

/-- The return code reports a failed authorization. -/
def IsSecurityCode (rc : TssRc) : Prop := (rcLayer rc, rcBase rc (rcLayer rc)) ∈ securityCodes

instance (rc : TssRc) : Decidable (IsSecurityCode rc) :=
  inferInstanceAs (Decidable ((rcLayer rc, rcBase rc (rcLayer rc)) ∈ securityCodes))

/-- Errors about an input are among those that the headers list. -/
theorem Error.Documented.of_inputError {e : Error} (h : e.category = .inputError) :
    e.Documented := by
  rw [Error.Documented, h]
  decide

/-- So are errors of the backend. -/
theorem Error.Documented.of_backendError {e : Error} (h : e.category = .backendError) :
    e.Documented := by
  rw [Error.Documented, h]
  decide

/-- The entries of the table with the fourth category are those of the five keys. -/
theorem documentedMappings_security :
    ∀ entry ∈ documentedMappings, ¬entry.error.Documented →
      (entry.layer, entry.base) ∈ securityCodes := by
  decide

/-- Of the table of translations only the security codes lead out of the list. -/
theorem translateLayerBase_documented {layer base : TssRc} (h : (layer, base) ∉ securityCodes) :
    (translateLayerBase layer base).Documented := by
  unfold translateLayerBase
  split
  · rename_i entry hfound
    have hkey : entry.layer = layer ∧ entry.base = base := by
      simpa using List.find?_some hfound
    by_contra hsecurity
    have hmem := documentedMappings_security entry (List.mem_of_find?_eq_some hfound) hsecurity
    rw [hkey.1, hkey.2] at hmem
    exact h hmem
  · exact Error.Documented.of_backendError rfl

/-- The lookup of each of the five keys finds its own entry. -/
theorem translateLayerBase_security :
    ∀ key ∈ securityCodes, translateLayerBase key.1 key.2 = securityError := by
  simp only [securityCodes, List.forall_mem_cons]
  exact ⟨rfl, rfl, rfl, rfl, rfl, fun _ h => absurd h List.not_mem_nil⟩

/-- The headers do not list a security failure. -/
theorem securityError_not_documented : ¬securityError.Documented := by decide

/-- A translated error is documented exactly for the codes that report no failed
authorization. -/
theorem translatedError_documented (rc : TssRc) :
    (translatedError rc).Documented ↔ ¬IsSecurityCode rc := by
  constructor
  · intro hdocumented hsecurity
    rw [translatedError, translateLayerBase_security _ hsecurity] at hdocumented
    exact securityError_not_documented hdocumented
  · intro h
    exact translateLayerBase_documented h

/-! ## Creation -/

/-- The return code whose translation a failed call returns. -/
def CreationAnswer.translatedCode : CreationAnswer → Option TssRc
  | .info _ => none
  | answer => answer.returnCode

/-- The answer reports a failed authorization, and its code is translated. -/
def CreationAnswer.Insecure (answer : CreationAnswer) : Prop :=
  ∃ rc, answer.translatedCode = some rc ∧ IsSecurityCode rc

/-- Success is no security code. -/
theorem not_isSecurityCode_success : ¬IsSecurityCode tss2RcSuccess := by decide

/-- Nor is the code of a TPM that was started before. -/
theorem not_isSecurityCode_initialize : ¬IsSecurityCode tpm2RcInitialize := by decide

/-- Every answer of a creation but that of `get_info` has its code translated. -/
theorem CreationAnswer.translatedCode_of_ne_info {answer : CreationAnswer}
    (h : ∀ code, answer ≠ .info code) : answer.translatedCode = answer.returnCode := by
  cases answer with
  | info rc => exact absurd rfl (h rc)
  | _ => rfl

/-- A code that is translated was returned. -/
theorem CreationAnswer.returnCode_of_translatedCode {answer : CreationAnswer} {rc : TssRc}
    (h : answer.translatedCode = some rc) : answer.returnCode = some rc := by
  cases answer with
  | info code => cases h
  | _ => exact h

/-- Only a failed call reports a failed authorization. -/
theorem CreationAnswer.not_insecure_of_none {answer : CreationAnswer}
    (h : answer.failure = none) : ¬answer.Insecure := by
  intro hinsecure
  obtain ⟨rc, hcode, hsecurity⟩ := hinsecure
  rcases returnCode_of_none h (returnCode_of_translatedCode hcode) with rfl | rfl
  · exact not_isSecurityCode_success hsecurity
  · exact not_isSecurityCode_initialize hsecurity

/-- The error of a failed call is documented unless the call reports a failed
authorization. -/
theorem CreationAnswer.documented_iff {answer : CreationAnswer} {failure : CreationFailure}
    (h : answer.failure = some failure) : failure.error.Documented ↔ ¬answer.Insecure := by
  rcases failure_cases h with
    ⟨rc, rfl, _, rfl⟩ | ⟨rc, operation, hinfo, hcode, _, rfl⟩ | ⟨hsuccess, _, hcategory⟩
  · refine iff_of_true (.of_inputError rfl) ?_
    intro hinsecure
    obtain ⟨_, hcode, _⟩ := hinsecure
    cases hcode
  · have htranslated : answer.translatedCode = some rc := by
      rw [translatedCode_of_ne_info hinfo, hcode]
    rw [CreationFailure.translated, translatedError_documented, Insecure, htranslated]
    simp
  · refine iff_of_true ?_ ?_
    · rcases hcategory with h | h <;> rw [Error.Documented, h] <;> decide
    · intro hinsecure
      obtain ⟨rc, hcode, hsecurity⟩ := hinsecure
      rw [hsuccess rc (returnCode_of_translatedCode hcode)] at hsecurity
      exact not_isSecurityCode_success hsecurity

/-- A procedure returns a documented error exactly when no call that it makes reports
a failed authorization. -/
theorem documented_of_follows {terms : CreationTerms} {steps : List CreationStep} {α : Type}
    {outcome : Outcome α}
    (h : (∃ value events, terms.Succeeds steps events ∧ outcome = .value value) ∨
      ∃ failure events, terms.FailsWith steps failure events ∧
        outcome = .unexpected failure.error) :
    outcome.FailsWithin Error.Documented ↔
      ∀ answer ∈ answersReceived steps, ¬answer.Insecure := by
  simp only [answersReceived, List.forall_mem_map]
  rcases h with ⟨value, events, hsucceeds, rfl⟩ | ⟨failure, events, hfails, rfl⟩
  · refine iff_of_true (Result.failsWithin_value value) ?_
    intro step hmem
    have hstep := hsucceeds.all step ((Attempts.made_prefix steps).subset hmem)
    exact CreationAnswer.not_insecure_of_none (Option.isNone_iff_eq_none.mp hstep)
  obtain ⟨failed, hfailing, hfailure⟩ := hfails.failing
  have hdocumented := CreationAnswer.documented_iff hfailure
  constructor
  · intro hwithin step hmem hinsecure
    cases hstep : step.2.failure with
    | none => exact CreationAnswer.not_insecure_of_none hstep hinsecure
    | some _ =>
        have hlast := Attempts.failing_of_mem_made hmem (CreationStep.succeeded_of_some hstep)
        obtain rfl : failed = step := Option.some.inj (hfailing.symm.trans hlast)
        exact hdocumented.mp (hwithin failure.error rfl) hinsecure
  · intro hsecure
    have hmem := Attempts.mem_made_of_failing hfailing
    exact Result.failsWithin_unexpected (hdocumented.mpr (hsecure failed hmem))

/-! ## Reading -/

section Parsers

variable {build : BuildOptions}

/-- The errors of a response parser. -/
abbrev IsBackendError (e : Error) : Prop := e.category = .backendError

/-- An identifier that is not known is an error of the backend. -/
theorem algorithmFromTpm_fails (algorithm : TpmiAlgHash) :
    (algorithmFromTpm build algorithm).FailsWithin IsBackendError := by
  rcases @algorithmFromTpm_cases build algorithm with ⟨a, hrun⟩ | ⟨message, _, hrun⟩
  · rw [hrun]
    exact Result.failsWithin_value a
  · rw [hrun]
    exact Result.failsWithin_unexpected rfl

/-- A size that cannot be told is a thrown exception and not a returned error. -/
theorem digestSize_fails (algorithm : HashAlgorithm) :
    (digestSize build algorithm).FailsWithin IsBackendError := by
  cases algorithm with
  | sha1 => exact .ite (Result.failsWithin_value _) (Result.failsWithin_fault _)
  | unlisted _ => exact Result.failsWithin_fault _
  | _ => exact Result.failsWithin_value _

/-- So is a digest of another size. -/
theorem validateDigestSize_fails (algorithm : HashAlgorithm) (message : String) :
    (validateDigestSize build algorithm message).FailsWithin IsBackendError := by
  unfold validateDigestSize
  split
  · exact Result.failsWithin_fault _
  · exact digestSize_fails algorithm

/-- So is whatever fails when a digest value is made of an answer. -/
theorem digestValue_make_fails (algorithm : HashAlgorithm) (digest : List UInt8) :
    (DigestValue.make build algorithm digest).FailsWithin IsBackendError :=
  (validateDigestSize_fails algorithm _).bind fun _ =>
    .ite (Result.failsWithin_fault _) (Result.failsWithin_value _)

/-- A selection throws where it cannot be made, which is no error at all. -/
theorem selection_make_fails (algorithm : HashAlgorithm) (indices : Finset Index) :
    (Selection.make build algorithm indices).FailsWithin IsBackendError := by
  unfold Selection.make
  split
  · exact Result.failsWithin_value _
  · rename_i e herror
    exact Result.failsWithin_unexpected (validateDigestSize_fails algorithm _ e herror)
  · exact Result.failsWithin_fault _

/-- An index throws where it cannot be made. -/
theorem index_make_fails (value : UInt32) : (Index.make value).FailsWithin IsBackendError := by
  unfold Index.make
  split
  · exact Result.failsWithin_fault _
  · exact Result.failsWithin_value _

/-- A null pointer throws, and else the errors are those of the digest value. -/
theorem makeDigestValue_fails (algorithm : HashAlgorithm) (data : Option MemberPointer)
    (size : Nat) : (makeDigestValue build algorithm data size).FailsWithin IsBackendError := by
  refine .ite (Result.failsWithin_unexpected rfl) ?_
  refine (digestSize_fails algorithm).bind fun expected => ?_
  refine .ite (Result.failsWithin_unexpected rfl) ?_
  cases data with
  | none => exact digestValue_make_fails algorithm []
  | some member =>
      exact (failsWithin_readPrefix _ _ _).bind fun bytes => digestValue_make_fails algorithm bytes

/-- The values of a read fail with errors of the backend only. -/
theorem toDomainReadValues_fails (values : TpmlDigest) (selection : Selection build) :
    (toDomainReadValues build values selection).FailsWithin IsBackendError := by
  refine .ite (Result.failsWithin_unexpected rfl) (.ite (Result.failsWithin_unexpected rfl) ?_)
  refine failsWithin_forIndex (fun index result => ?_) _ _ _
  refine (failsWithin_readAt _ _).bind fun digest => ?_
  refine (makeDigestValue_fails _ _ _).bind fun value => ?_
  exact (failsWithin_spanAt _ _).bind fun selected => Result.failsWithin_value _

/-- One bit of a selection fails with errors of the backend only. -/
theorem collectSelectedBit_fails (selection : TpmsPcrSelection) (byteIndex bit : Nat)
    (indices : Finset Index) :
    (collectSelectedBit selection byteIndex bit indices).FailsWithin IsBackendError := by
  refine (failsWithin_readAt _ _).bind fun byte => ?_
  refine .ite (Result.failsWithin_value _) (.ite (Result.failsWithin_unexpected rfl) ?_)
  exact (index_make_fails _).bind fun index => Result.failsWithin_value _

/-- The selection of a read fails with errors of the backend only. -/
theorem toDomainSelection_fails (selection : TpmlPcrSelection) (fallback : HashAlgorithm) :
    (toDomainSelection build selection fallback).FailsWithin IsBackendError := by
  refine .ite (selection_make_fails fallback ∅) (.ite (Result.failsWithin_unexpected rfl) ?_)
  refine (failsWithin_readAt _ _).bind fun tpmSelection => ?_
  refine (algorithmFromTpm_fails _).bind fun algorithm => ?_
  refine .ite (Result.failsWithin_unexpected rfl) ?_
  refine Result.FailsWithin.bind ?_ fun indices => selection_make_fails algorithm indices
  refine failsWithin_forIndex (fun byteIndex indices => ?_) _ _ _
  exact failsWithin_forIndex (collectSelectedBit_fails tpmSelection byteIndex) _ _ _

end Parsers

section Reading

variable {build : BuildOptions} (provider : EsysPcrProvider σ) (selection : Selection build)

/-- An answer to a read leads to a documented error unless it reports a failed
authorization. -/
theorem readResult_documented (answer : ReadAnswer) :
    (EsysPcrProvider.readResult build selection answer).FailsWithin Error.Documented ↔
      ¬IsSecurityCode answer.rc := by
  unfold EsysPcrProvider.readResult
  by_cases hrc : answer.rc = tss2RcSuccess
  · refine iff_of_true ?_ (hrc ▸ not_isSecurityCode_success)
    rw [if_neg (not_not.mpr hrc)]
    refine Result.FailsWithin.mono ?_ fun e he => Error.Documented.of_backendError he
    split
    · refine (toDomainSelection_fails _ _).bind fun domainSelection => ?_
      exact (toDomainReadValues_fails _ _).bind fun values => Result.failsWithin_value _
    · exact Result.failsWithin_unexpected rfl
  · rw [if_pos hrc]
    constructor
    · intro hwithin
      exact (translatedError_documented answer.rc).mp (hwithin _ rfl)
    · intro hsecure
      exact Result.failsWithin_unexpected ((translatedError_documented answer.rc).mpr hsecure)

/-- A read returns a documented error unless the backend answers its request with a
failed authorization. -/
theorem read_documented (w : World σ) :
    (provider.read build selection w).1.FailsWithin Error.Documented ↔
      (provider.esys.isSome = true → ∀ t, toTpmSelection build selection = .value t →
        ¬IsSecurityCode
          (provider.api.pcrRead provider.esys esysTrNone esysTrNone esysTrNone t w.backend).1.rc) := by
  cases hesys : provider.esys with
  | none =>
      have hrun : provider.read build selection w =
          (.unexpected ⟨.resourceError, "ESYS PCR provider has no TPM context"⟩, w) := by
        simp [EsysPcrProvider.read, ensureEsysAvailable, hesys, fail]
      rw [hrun]
      refine iff_of_true (Result.failsWithin_unexpected (by decide)) ?_
      intro h
      cases h
  | some esys =>
      obtain ⟨t, ht, _⟩ := toTpmSelection_encodes selection
      have hrun := EsysPcrProvider.read_run w ht (by rw [hesys]; rfl) rfl
      rw [hrun, hesys]
      constructor
      · intro hwithin _ t' ht'
        obtain rfl : t = t' := Result.value.inj (ht.symm.trans ht')
        exact (readResult_documented selection _).mp hwithin
      · intro hsecure
        exact (readResult_documented selection _).mpr (hsecure rfl t ht)

end Reading

/-! ## The three operations -/

/-- A creation from a configuration returns a documented error exactly when no code
that it translates reports a failed authorization. -/
theorem createContextFromConfig_documented (config : TpmContextConfig) (tctiApi : TctiLoaderApi σ)
    (api : EsysApi σ) (linked : LinkedApi σ) (w : World σ) :
    (createContextFromConfig config tctiApi api linked w).1.FailsWithin Error.Documented ↔
      (config.Valid → ∀ answer ∈ receivedAnswers config tctiApi api linked w,
        ¬answer.Insecure) := by
  let terms := CreationTerms.ofConfig config tctiApi api
  let steps := creationSteps config tctiApi api linked w
  let run := (createContextFromConfig config tctiApi api linked w).1
  by_cases hvalid : config.Valid
  · have hends : (∃ value events, terms.Succeeds steps events ∧ run = .value value) ∨
        ∃ failure events, terms.FailsWith steps failure events ∧
          run = .unexpected failure.error := by
      rcases createContextFromConfig_follows tctiApi api linked w hvalid with
        ⟨esys, events, hsucceeds, hvalue, _⟩ | ⟨failure, events, hfails, herror, _⟩
      · exact Or.inl ⟨_, events, hsucceeds, hvalue⟩
      · exact Or.inr ⟨failure, events, hfails, herror⟩
    exact (documented_of_follows hends).trans (imp_iff_right hvalid).symm
  · obtain ⟨e, hcategory, hrun⟩ := createContextFromConfig_of_not_valid tctiApi api linked w hvalid
    rw [hrun]
    exact iff_of_true (Result.failsWithin_unexpected (.of_inputError hcategory))
      fun h => absurd h hvalid

/-- The same of a creation from an owned TCTI context. -/
theorem createContextFromOwnedTcti_documented (tcti : Option TctiContext) (deleter : TctiDeleter)
    (startup : StartupMode) (log : Option Logger) (api : EsysApi σ) (linked : LinkedApi σ)
    (w : World σ) :
    (createContextFromOwnedTcti ⟨tcti, some deleter⟩ startup log api linked w).1.FailsWithin
        Error.Documented ↔
      (isValidStartupMode startup = true ∧ tcti.isSome = true →
        ∀ answer ∈ answersReceived (openSteps tcti startup api w.nextHandle w.backend),
          ¬answer.Insecure) := by
  by_cases hvalid : isValidStartupMode startup = true ∧ tcti.isSome = true
  · obtain ⟨context, rfl⟩ := Option.isSome_iff_exists.mp hvalid.2
    let terms : CreationTerms := ⟨[], startup, none, api.decodeError⟩
    let steps := openSteps (some context) startup api w.nextHandle w.backend
    let run := (createContextFromOwnedTcti ⟨some context, some deleter⟩ startup log api linked w).1
    have hends : (∃ value events, terms.Succeeds steps events ∧ run = .value value) ∨
        ∃ failure events, terms.FailsWith steps failure events ∧
          run = .unexpected failure.error := by
      rcases createContextFromOwnedTcti_follows log api linked w hvalid.1 context deleter terms
          rfl rfl with
        ⟨created, events, hsucceeds, hvalue, _⟩ | ⟨failure, events, hfails, herror, _⟩
      · exact Or.inl ⟨created, events, hsucceeds, hvalue⟩
      · exact Or.inr ⟨failure, events, hfails, herror⟩
    exact (documented_of_follows hends).trans (imp_iff_right hvalid).symm
  · obtain ⟨e, _, hcategory, hrun, _⟩ :=
      createContextFromOwnedTcti_of_not_valid log api linked w tcti deleter hvalid
    rw [hrun]
    exact iff_of_true (Result.failsWithin_unexpected (.of_inputError hcategory))
      fun h => absurd h hvalid

/-- **When the documented categories are kept.**  A failing creation, from a
configuration or from an owned TCTI context with a deleter, and a failing read
return one of the three documented categories exactly when no return code that
they translate reports a failed authorization. -/
theorem documented_categories (build : BuildOptions) :
    (∀ (config : TpmContextConfig) (tctiApi : TctiLoaderApi σ) (api : EsysApi σ)
      (linked : LinkedApi σ) (w : World σ),
      (createContextFromConfig config tctiApi api linked w).1.FailsWithin Error.Documented ↔
        (config.Valid → ∀ answer ∈ receivedAnswers config tctiApi api linked w,
          ¬answer.Insecure)) ∧
    (∀ (tcti : Option TctiContext) (deleter : TctiDeleter) (startup : StartupMode)
      (log : Option Logger) (api : EsysApi σ) (linked : LinkedApi σ) (w : World σ),
      (createContextFromOwnedTcti ⟨tcti, some deleter⟩ startup log api linked w).1.FailsWithin
          Error.Documented ↔
        (isValidStartupMode startup = true ∧ tcti.isSome = true →
          ∀ answer ∈ answersReceived (openSteps tcti startup api w.nextHandle w.backend),
            ¬answer.Insecure)) ∧
    ∀ (provider : EsysPcrProvider σ) (selection : Selection build) (w : World σ),
      (provider.read build selection w).1.FailsWithin Error.Documented ↔
        (provider.esys.isSome = true → ∀ t, toTpmSelection build selection = .value t →
          ¬IsSecurityCode (provider.api.pcrRead provider.esys esysTrNone esysTrNone esysTrNone t
            w.backend).1.rc) :=
  ⟨createContextFromConfig_documented, createContextFromOwnedTcti_documented,
    fun provider selection w => read_documented provider selection w⟩

/-- A backend that answers the startup with the lockout warning, and a read with a
failed authorization of its second handle. -/
def EsysApi.lockedOut : EsysApi Unit :=
  { EsysApi.inert with
    startup := fun _ _ b => (tpm2RcLockout, b)
    pcrRead := fun _ _ _ _ _ b => (⟨0x28e, 0, none, none⟩, b) }

/-- Over such a backend creation and reading fail with the fourth category. -/
theorem undocumented_category_returned :
    (createContextFromConfig ⟨ascii "mssim:host=localhost", .clear, none⟩ .obliging .lockedOut
        .obliging ⟨(), 0, []⟩).1 = .unexpected securityError ∧
      (createContextFromOwnedTcti ⟨some ⟨0⟩, some (.client 0)⟩ .clear none .lockedOut .obliging
        ⟨(), 1, []⟩).1 = .unexpected securityError ∧
      (EsysPcrProvider.read ⟨false⟩ ⟨.lockedOut, some ⟨0⟩, .noop, none⟩
        ⟨.sha256, {0}, trivial⟩ ⟨(), 1, []⟩).1 = .unexpected securityError ∧
      ¬securityError.Documented := by
  refine ⟨rfl, rfl, ?_, securityError_not_documented⟩
  obtain ⟨t, ht, _⟩ := toTpmSelection_encodes (⟨.sha256, {0}, trivial⟩ : Selection ⟨false⟩)
  have hrun := EsysPcrProvider.read_run (⟨(), 1, []⟩ : World Unit) ht
    (show (⟨.lockedOut, some ⟨0⟩, .noop, none⟩ : EsysPcrProvider Unit).esys.isSome = true from rfl)
    rfl
  rw [hrun]
  have htranslated : translatedError 0x28e = securityError := by decide
  exact congrArg Result.unexpected htranslated

end Tpmkit
