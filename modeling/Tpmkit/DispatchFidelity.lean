import Tpmkit.ProviderRuns

/-!
# What the provider sends

The request encoders copy without checks; `pcr_validation.cpp` is what keeps
them inside their arrays.  Together they make each sending operation one of two
things: a rejection that nothing outside has seen, or a dispatch whose
structures are a faithful image of the caller's arguments.
-/

namespace Tpmkit

open Checked Pcr

variable {σ α : Type} {build : BuildOptions}

/-- On valid arguments the operation faults nowhere, the first thing it lets
the world see is a request, and every request it sends is an image of the
arguments; on other arguments it returns an error and the world sees nothing. -/
def ValidatesThenSends (x : Adapter σ α) (w : World σ) (valid : Prop)
    (image : EsysRequest → Prop) : Prop :=
  (valid ∧ (x w).1.NoFault ∧
    (∃ request rc rest, w.eventsSince (x w).2 = .esys request rc :: rest) ∧
    ∀ request rc, (request, rc) ∈ requests (w.eventsSince (x w).2) → image request) ∨
  (¬valid ∧ x.Rejects w)

/-- A rejection sends nothing. -/
theorem requests_of_rejects {x : Adapter σ α} {w : World σ} (h : x.Rejects w) :
    requests (w.eventsSince (x w).2) = [] := by
  obtain ⟨e, hrun⟩ := h
  rw [hrun, World.eventsSince_self, requests_nil]

/-- A call that is refused with an error and sends nothing is what the arguments deserve. -/
theorem ValidatesThenSends.of_rejects {x : Adapter σ α} {w : World σ} {valid : Prop}
    {image : EsysRequest → Prop} (hvalid : ¬valid) (h : x.Rejects w) :
    ValidatesThenSends x w valid image :=
  Or.inr ⟨hvalid, h⟩

/-- An operation whose only request comes first. -/
theorem ValidatesThenSends.of_one {x : Adapter σ α} {w : World σ} {valid : Prop}
    {image : EsysRequest → Prop} {result : Outcome α} {b : σ} {request : EsysRequest} {rc : TssRc}
    {rest : List Event} (hvalid : valid)
    (hrun : x w = (result, w.after b (.esys request rc :: rest))) (hresult : result.NoFault)
    (hrest : requests rest = []) (himage : image request) :
    ValidatesThenSends x w valid image := by
  refine Or.inl ⟨hvalid, by rwa [hrun], ⟨request, rc, rest, by simp [hrun]⟩, ?_⟩
  intro request' rc' hmem
  simp only [hrun, World.eventsSince_after, requests_esys, hrest, List.mem_singleton] at hmem
  exact (Prod.mk.inj hmem).1 ▸ himage

/-- The handle of a PCR is its index. -/
theorem pcrHandle_toNat (index : Index) : (pcrHandle index).toNat = index.val := by
  have hlt : index.val < 32 := index.isLt
  simp [pcrHandle, esysTrPcr0]

/-! ## The images -/

/-- The request is the allocation of these banks, under the platform's authorization. -/
def AllocateImage (esys : Option EsysContext) (banks : List (Bank build)) :
    EsysRequest → Prop
  | .pcrAllocate esys' authHandle shandle1 shandle2 shandle3 allocation =>
      esys' = esys ∧ authHandle = esysTrRhPlatform ∧ shandle1 = esysTrPassword ∧
        shandle2 = esysTrNone ∧ shandle3 = esysTrNone ∧ ImageOfBanks banks allocation
  | _ => False

/-- The request measures this event into this PCR. -/
def EventImage (esys : Option EsysContext) (index : Index) (eventData : List UInt8) :
    EsysRequest → Prop
  | .pcrEvent esys' handle shandle1 shandle2 shandle3 tpmEvent =>
      esys' = esys ∧ handle.toNat = index.val ∧ shandle1 = esysTrPassword ∧
        shandle2 = esysTrNone ∧ shandle3 = esysTrNone ∧
        ImageOfBytes eventData tpmEvent.size tpmEvent.buffer
  | _ => False

/-- The request extends this PCR by these digests. -/
def ExtendImage (esys : Option EsysContext) (index : Index) (digests : List DigestValue) :
    EsysRequest → Prop
  | .pcrExtend esys' handle shandle1 shandle2 shandle3 tpmDigests =>
      esys' = esys ∧ handle.toNat = index.val ∧ shandle1 = esysTrPassword ∧
        shandle2 = esysTrNone ∧ shandle3 = esysTrNone ∧ ImageOfDigests digests tpmDigests
  | _ => False

/-- The request sets this policy for this PCR, under the platform's authorization. -/
def AuthPolicyImage (esys : Option EsysContext) (index : Index) (policyAlg : HashAlgorithm)
    (policyDigest : List UInt8) : EsysRequest → Prop
  | .pcrSetAuthPolicy esys' authHandle shandle1 shandle2 shandle3 authPolicy hashAlg pcrNum =>
      esys' = esys ∧ authHandle = esysTrRhPlatform ∧ shandle1 = esysTrPassword ∧
        shandle2 = esysTrNone ∧ shandle3 = esysTrNone ∧
        ImageOfBytes policyDigest authPolicy.size authPolicy.buffer ∧
        hashAlg = bankId policyAlg ∧ pcrNum.toNat = index.val
  | _ => False

/-- The command carries the value; both session updates carry it as well. -/
def AuthValueImage (esys : Option EsysContext) (index : Index) (auth : List UInt8) :
    EsysRequest → Prop
  | .trSetAuth esys' handle authValue =>
      esys' = esys ∧ handle.toNat = index.val ∧
        ImageOfBytes auth authValue.size authValue.buffer
  | .pcrSetAuthValue esys' handle shandle1 shandle2 shandle3 tpmAuth =>
      esys' = esys ∧ handle.toNat = index.val ∧ shandle1 = esysTrPassword ∧
        shandle2 = esysTrNone ∧ shandle3 = esysTrNone ∧
        ImageOfBytes auth tpmAuth.size tpmAuth.buffer
  | _ => False

/-! ## The operations -/

section Operations

variable (provider : EsysPcrProvider σ) (w : World σ)

/-- An allocation is sent exactly when the banks are some and no two are the same. -/
theorem allocate_validatesThenSends (banks : List (Bank build)) :
    ValidatesThenSends (provider.allocate build banks) w
      (provider.esys.isSome = true ∧ banks ≠ [] ∧ (banks.map Bank.algorithm).Nodup)
      (AllocateImage provider.esys banks) := by
  by_cases hvalid : provider.esys.isSome = true ∧ banks ≠ [] ∧ (banks.map Bank.algorithm).Nodup
  swap
  · exact .of_rejects hvalid (EsysPcrProvider.allocate_rejected w hvalid)
  have hlength : banks.length ≤ 16 :=
    EsysPcrProvider.length_le_of_map_nodup (fun bank _ => bank.enabled) hvalid.2.2
  exact .of_one hvalid (EsysPcrProvider.allocate_run w hvalid.1 hvalid.2 rfl)
    (EsysPcrProvider.noFault_allocateResult _)
    (EsysPcrProvider.requests_statusEvents _ _ _ (requests_logger_events _ _))
    ⟨rfl, rfl, rfl, rfl, rfl, imageOfBanks_encodedAllocation hlength⟩

/-- An event is sent exactly when the data fits into the structure. -/
theorem event_validatesThenSends (index : Index) (eventData : List UInt8) :
    ValidatesThenSends (provider.event build index eventData) w
      (provider.esys.isSome = true ∧ eventData.length ≤ 1024)
      (EventImage provider.esys index eventData) := by
  by_cases hvalid : provider.esys.isSome = true ∧ eventData.length ≤ 1024
  swap
  · exact .of_rejects hvalid (EsysPcrProvider.event_rejected w hvalid)
  exact .of_one hvalid (EsysPcrProvider.event_run w hvalid.1 hvalid.2 rfl)
    (provider.completeEvent_spec w index eventData _).2 (by simp)
    ⟨rfl, pcrHandle_toNat index, rfl, rfl, rfl, imageOfBytes_encodedEvent hvalid.2⟩

/-- An extend is sent exactly when the digests are some and no two are of one algorithm; their
number is then within the structure. -/
theorem extend_validatesThenSends (index : Index) {digests : List DigestValue}
    (hdigests : ∀ d ∈ digests, d.WellFormed build) :
    ValidatesThenSends (provider.extend build index digests) w
      (provider.esys.isSome = true ∧ digests ≠ [] ∧ (digests.map DigestValue.algorithm).Nodup)
      (ExtendImage provider.esys index digests) := by
  have hstored : ∀ d ∈ digests, d.Stored build := fun d hd => (hdigests d hd).stored
  by_cases hvalid : provider.esys.isSome = true ∧ digests ≠ [] ∧
    (digests.map DigestValue.algorithm).Nodup
  swap
  · exact .of_rejects hvalid (EsysPcrProvider.extend_rejected w hstored hvalid)
  have hlength : digests.length ≤ 16 :=
    EsysPcrProvider.length_le_of_map_nodup (fun d hd => (hdigests d hd).enabled) hvalid.2.2
  exact .of_one hvalid (EsysPcrProvider.extend_run w hstored hvalid.1 hvalid.2 rfl)
    (EsysPcrProvider.noFault_statusResult _)
    (EsysPcrProvider.requests_statusEvents _ _ _ (by
      rw [requests_append, requests_logger_events, List.nil_append]
      exact EsysPcrProvider.requests_notifyEvents _ fun _ => rfl))
    ⟨rfl, pcrHandle_toNat index, rfl, rfl, rfl, imageOfDigests_encodedDigests hlength hdigests⟩

/-- A policy is sent exactly when its algorithm is in the build and the digest has its size. -/
theorem setAuthPolicy_validatesThenSends (index : Index) (policyAlg : HashAlgorithm)
    (policyDigest : List UInt8) :
    ValidatesThenSends (provider.setAuthPolicy build index policyAlg policyDigest) w
      (provider.esys.isSome = true ∧ policyAlg.Enabled build ∧
        policyDigest.length = policyAlg.size)
      (AuthPolicyImage provider.esys index policyAlg policyDigest) := by
  by_cases hvalid : provider.esys.isSome = true ∧ policyAlg.Enabled build ∧
    policyDigest.length = policyAlg.size
  swap
  · exact .of_rejects hvalid (EsysPcrProvider.setAuthPolicy_rejected w hvalid)
  have hlength : policyDigest.length ≤ 64 := hvalid.2.2 ▸ policyAlg.size_le
  have hnum : (tpm2HrPcr + index.value.toUInt32).toNat = index.val := pcrHandle_toNat index
  exact .of_one hvalid (EsysPcrProvider.setAuthPolicy_run w hvalid.1 hvalid.2 rfl)
    (EsysPcrProvider.noFault_statusResult _)
    (EsysPcrProvider.requests_statusEvents _ _ _ (requests_logger_events _ _))
    ⟨rfl, rfl, rfl, rfl, rfl, imageOfBytes_encodedSizedDigest hlength,
      algorithmToTpm_eq_bankId hvalid.2.1, hnum⟩

/-- An authorization value is sent exactly when it is empty. -/
theorem setAuthValue_validatesThenSends (index : Index) (auth : List UInt8) :
    ValidatesThenSends (provider.setAuthValue index auth) w
      (provider.esys.isSome = true ∧ auth = []) (AuthValueImage provider.esys index auth) := by
  by_cases hvalid : provider.esys.isSome = true ∧ auth = []
  swap
  · exact .of_rejects hvalid (EsysPcrProvider.setAuthValue_rejected w hvalid)
  obtain ⟨hesys, rfl⟩ := hvalid
  rcases hcurrent : provider.api.trSetAuth provider.esys (pcrHandle index) .zeroed w.backend
    with ⟨currentRc, b₁⟩
  rcases hset : provider.api.pcrSetAuthValue provider.esys (pcrHandle index) esysTrPassword
    esysTrNone esysTrNone (encodedSizedDigest []) b₁ with ⟨rc, b₂⟩
  rcases hupdate : provider.api.trSetAuth provider.esys (pcrHandle index) .zeroed b₂
    with ⟨updateRc, b₃⟩
  have hrun := EsysPcrProvider.setAuthValue_run w hesys hcurrent hset hupdate
  have hsession : AuthValueImage provider.esys index []
      (.trSetAuth provider.esys (pcrHandle index) .zeroed) :=
    ⟨rfl, pcrHandle_toNat index, rfl, fun j hj => by simp [Tpm2bDigest.zeroed]⟩
  have hcommand : AuthValueImage provider.esys index []
      (.pcrSetAuthValue provider.esys (pcrHandle index) esysTrPassword esysTrNone esysTrNone
        (encodedSizedDigest [])) :=
    ⟨rfl, pcrHandle_toNat index, rfl, rfl, rfl, imageOfBytes_encodedSizedDigest (by simp)⟩
  refine Or.inl ⟨⟨hesys, rfl⟩, ?_⟩
  by_cases hrc₁ : currentRc = tss2RcSuccess
  swap
  · simp [hrun, hrc₁, hsession]
  by_cases hrc₂ : rc = tss2RcSuccess
  swap
  · simp [hrun, hrc₁, hrc₂, hsession, hcommand, or_imp, forall_and]
  by_cases hrc₃ : updateRc = tss2RcSuccess <;>
    simp [hrun, hrc₁, hrc₂, hrc₃, hsession, hcommand, or_imp, forall_and,
      EsysPcrProvider.statusEvents, EsysPcrProvider.noFault_statusResult]

end Operations

/-- **Validate, then send exactly the caller's data.**  For each of the five
operations and every argument: either an error before anything was sent, or a
dispatch of a faithful image of the arguments; which of the two is decided by
the context and the arguments alone. -/
theorem provider_validates_then_sends (build : BuildOptions) (provider : EsysPcrProvider σ)
    (w : World σ) :
    (∀ banks : List (Bank build),
      ValidatesThenSends (provider.allocate build banks) w
        (provider.esys.isSome = true ∧ banks ≠ [] ∧ (banks.map Bank.algorithm).Nodup)
        (AllocateImage provider.esys banks)) ∧
    (∀ (index : Index) (eventData : List UInt8),
      ValidatesThenSends (provider.event build index eventData) w
        (provider.esys.isSome = true ∧ eventData.length ≤ 1024)
        (EventImage provider.esys index eventData)) ∧
    (∀ (index : Index) (digests : List DigestValue), (∀ d ∈ digests, d.WellFormed build) →
      ValidatesThenSends (provider.extend build index digests) w
        (provider.esys.isSome = true ∧ digests ≠ [] ∧ (digests.map DigestValue.algorithm).Nodup)
        (ExtendImage provider.esys index digests)) ∧
    (∀ (index : Index) (policyAlg : HashAlgorithm) (policyDigest : List UInt8),
      ValidatesThenSends (provider.setAuthPolicy build index policyAlg policyDigest) w
        (provider.esys.isSome = true ∧ digestSize build policyAlg = .value policyDigest.length)
        (AuthPolicyImage provider.esys index policyAlg policyDigest)) ∧
    (∀ (index : Index) (auth : List UInt8),
      ValidatesThenSends (provider.setAuthValue index auth) w
        (provider.esys.isSome = true ∧ auth = [])
        (AuthValueImage provider.esys index auth)) := by
  refine ⟨allocate_validatesThenSends provider w, event_validatesThenSends provider w,
    fun index digests => extend_validatesThenSends provider w index,
    fun index policyAlg policyDigest => ?_, setAuthValue_validatesThenSends provider w⟩
  have hsize : digestSize build policyAlg = .value policyDigest.length ↔
      policyAlg.Enabled build ∧ policyDigest.length = policyAlg.size := by
    constructor
    · exact enabled_of_digestSize
    · rintro ⟨henabled, hlength⟩
      rw [hlength, digestSize_of_enabled henabled]
  rw [hsize]
  exact setAuthPolicy_validatesThenSends provider w index policyAlg policyDigest

/-- Extending PCR 10 with one SHA-256 digest sends that digest. -/
theorem provider_validates_then_sends_extend :
    ∃ request rc rest, (⟨(), 1, []⟩ : World Unit).eventsSince
      (EsysPcrProvider.extend ⟨false⟩ ⟨EsysApi.inert, some ⟨0⟩, .noop, none⟩ 10
        [⟨.sha256, List.replicate 32 7⟩] ⟨(), 1, []⟩).2 = .esys request rc :: rest ∧
      ExtendImage (some ⟨0⟩) 10 [⟨.sha256, List.replicate 32 7⟩] request := by
  have hdigests : ∀ d ∈ [(⟨.sha256, List.replicate 32 7⟩ : DigestValue)],
      d.WellFormed ⟨false⟩ := by
    intro d hd
    rw [List.mem_singleton.mp hd]
    exact ⟨trivial, rfl⟩
  rcases (provider_validates_then_sends ⟨false⟩ ⟨EsysApi.inert, some ⟨0⟩, .noop, none⟩
      ⟨(), 1, []⟩).2.2.1 10 _ hdigests with
    ⟨_, _, ⟨request, rc, rest, hfirst⟩, himage⟩ | ⟨hinvalid, _⟩
  · refine ⟨request, rc, rest, hfirst, himage request rc ?_⟩
    rw [hfirst]
    simp
  · exact absurd ⟨rfl, by decide, by decide⟩ hinvalid

end Tpmkit
