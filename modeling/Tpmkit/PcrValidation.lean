import Tpmkit.PcrMarshalling

/-!
# Request validation

The checks of `pcr_validation.cpp`.  The request encoders copy without checks
of their own, so each lemma says exactly which arguments pass, and
`length_le_of_distinct` why a list of distinct algorithms fits the fixed arrays.
-/

namespace Tpmkit

open Checked Pcr

variable {build : BuildOptions}

/-! ## The checks -/

/-- The loop of insertions into `std::set<hash_algorithm>`. -/
def insertAlgorithms (duplicateMessage : String) :
    List HashAlgorithm → List HashAlgorithm → Outcome Unit
  | _, [] => return ()
  | seen, a :: rest =>
      if a ∈ seen then fail .inputError duplicateMessage
      else insertAlgorithms duplicateMessage (a :: seen) rest

/-- The body shared by `ensure_bank_count` and `ensure_digest_count`. -/
def ensureDistinctAlgorithms (emptyMessage tooManyMessage duplicateMessage : String)
    (algorithms : List HashAlgorithm) : Outcome Unit :=
  if algorithms = [] then fail .inputError emptyMessage
  else if algorithms.length > tpm2NumPcrBanks then fail .inputError tooManyMessage
  else insertAlgorithms duplicateMessage [] algorithms

/-- `ensure_bank_count`. -/
def ensureBankCount (banks : List (Bank build)) : Outcome Unit :=
  ensureDistinctAlgorithms "PCR allocate requires at least one bank" "too many PCR banks"
    "duplicate PCR bank" (banks.map Bank.algorithm)

/-- `ensure_digest_count`. -/
def ensureDigestCount (digests : List DigestValue) : Outcome Unit :=
  ensureDistinctAlgorithms "PCR extend requires at least one digest" "too many PCR digests"
    "duplicate PCR digest algorithm" (digests.map DigestValue.algorithm)

/-- `ensure_esys_available`. -/
def ensureEsysAvailable {context : Type} (esys : Option context) : Outcome Unit :=
  if esys.isNone then fail .resourceError "ESYS PCR provider has no TPM context"
  else return ()

/-- `ensure_event_size`. -/
def ensureEventSize (eventData : List UInt8) : Outcome Unit :=
  if eventData.length > 1024 then fail .inputError "PCR event data is too large"
  else return ()

/-- `ensure_sized_buffer_fits`. -/
def ensureSizedBufferFits (size : Nat) (message : String) : Outcome Unit :=
  if size > 64 then fail .inputError message
  else return ()

/-- `ensure_policy_digest_size`. -/
def ensurePolicyDigestSize (build : BuildOptions) (algorithm : HashAlgorithm)
    (digest : List UInt8) : Outcome Unit :=
  if !isSupportedAlgorithm build algorithm then
    fail .inputError "unsupported PCR auth policy hash algorithm"
  else do
    let size ← digestSize build algorithm
    if digest.length ≠ size then
      fail .inputError "PCR auth policy digest has wrong size"
    else
      ensureSizedBufferFits digest.length "PCR auth policy digest is too large"

/-- `ensure_secure_auth_value_transport`. -/
def ensureSecureAuthValueTransport (auth : List UInt8) : Outcome Unit :=
  if auth ≠ [] then
    fail .resourceError
      "secure PCR auth value transport is unavailable for non-empty authorization values"
  else return ()

/-! ## What they accept -/

/-- There are only four enabled algorithms, so distinct ones form a short list. -/
theorem length_le_of_distinct {algorithms : List HashAlgorithm}
    (henabled : ∀ a ∈ algorithms, a.Enabled build) (hdistinct : algorithms.Nodup) :
    algorithms.length ≤ 4 := by
  have hsubset : algorithms ⊆ [.sha1, .sha256, .sha384, .sha512] := by
    intro a ha
    have hlisted := henabled a ha
    cases a with
    | unlisted raw => cases hlisted
    | _ => simp
  exact hdistinct.length_le_of_subset hsubset

/-- The loop over the algorithms finds every repetition, within the list or with those seen
before. -/
theorem insertAlgorithms_decides (message : String) (seen algorithms : List HashAlgorithm) :
    (insertAlgorithms message seen algorithms).Decides
      (algorithms.Nodup ∧ ∀ a ∈ algorithms, a ∉ seen) := by
  induction algorithms generalizing seen with
  | nil => exact Or.inl ⟨by simp, rfl⟩
  | cons a rest ih =>
      have hstep : (insertAlgorithms message seen (a :: rest)).Decides
          (¬a ∈ seen ∧ (rest.Nodup ∧ ∀ b ∈ rest, b ∉ a :: seen)) :=
        Result.Decides.ite fun _ => ih (a :: seen)
      have hiff : (¬a ∈ seen ∧ (rest.Nodup ∧ ∀ b ∈ rest, b ∉ a :: seen)) ↔
          ((a :: rest).Nodup ∧ ∀ b ∈ a :: rest, b ∉ seen) := by
        simp only [List.nodup_cons, List.mem_cons, forall_eq_or_imp]
        grind
      rwa [hiff] at hstep

/-- The length check never fires on enabled algorithms that pass the others. -/
theorem ensureDistinctAlgorithms_decides (emptyMessage tooManyMessage duplicateMessage : String)
    {algorithms : List HashAlgorithm} (henabled : ∀ a ∈ algorithms, a.Enabled build) :
    (ensureDistinctAlgorithms emptyMessage tooManyMessage duplicateMessage algorithms).Decides
      (algorithms ≠ [] ∧ algorithms.Nodup) := by
  have hchecks : (ensureDistinctAlgorithms emptyMessage tooManyMessage duplicateMessage
      algorithms).Decides (¬algorithms = [] ∧ ¬algorithms.length > tpm2NumPcrBanks ∧
        (algorithms.Nodup ∧ ∀ a ∈ algorithms, a ∉ [])) :=
    Result.Decides.ite fun _ => Result.Decides.ite fun _ =>
      insertAlgorithms_decides duplicateMessage [] algorithms
  have hiff : (¬algorithms = [] ∧ ¬algorithms.length > tpm2NumPcrBanks ∧
      (algorithms.Nodup ∧ ∀ a ∈ algorithms, a ∉ [])) ↔ (algorithms ≠ [] ∧ algorithms.Nodup) := by
    constructor
    · exact fun h => ⟨h.1, h.2.2.1⟩
    · intro h
      have hlength := length_le_of_distinct henabled h.2
      exact ⟨h.1, by unfold tpm2NumPcrBanks; omega, h.2, by simp⟩
  rwa [hiff] at hchecks

/-- The check of the banks: some, and no two alike. Lists of more than 16 cannot pass, since
there are fewer algorithms. -/
theorem ensureBankCount_decides (banks : List (Bank build)) :
    (ensureBankCount banks).Decides (banks ≠ [] ∧ (banks.map Bank.algorithm).Nodup) := by
  have henabled : ∀ a ∈ banks.map Bank.algorithm, a.Enabled build := by
    intro a ha
    obtain ⟨bank, _, rfl⟩ := List.mem_map.mp ha
    exact bank.enabled
  have hdecides := ensureDistinctAlgorithms_decides "PCR allocate requires at least one bank"
    "too many PCR banks" "duplicate PCR bank" henabled
  rwa [ne_eq, List.map_eq_nil_iff] at hdecides

/-- The check of the digests is the same, on their algorithms. -/
theorem ensureDigestCount_decides {digests : List DigestValue}
    (hdigests : ∀ d ∈ digests, d.Stored build) :
    (ensureDigestCount digests).Decides
      (digests ≠ [] ∧ (digests.map DigestValue.algorithm).Nodup) := by
  have henabled : ∀ a ∈ digests.map DigestValue.algorithm, a.Enabled build := by
    intro a ha
    obtain ⟨d, hd, rfl⟩ := List.mem_map.mp ha
    exact (hdigests d hd).enabled
  have hdecides := ensureDistinctAlgorithms_decides "PCR extend requires at least one digest"
    "too many PCR digests" "duplicate PCR digest algorithm" henabled
  rwa [ne_eq, List.map_eq_nil_iff] at hdecides

/-- The check of the context. -/
theorem ensureEsysAvailable_decides {context : Type} (esys : Option context) :
    (ensureEsysAvailable esys).Decides (esys.isSome = true) := by
  cases esys with
  | none => exact Or.inr ⟨by simp, _, rfl⟩
  | some c => exact Or.inl ⟨rfl, rfl⟩

/-- The check of the size of an event. -/
theorem ensureEventSize_decides (eventData : List UInt8) :
    (ensureEventSize eventData).Decides (eventData.length ≤ 1024) := by
  rw [← Nat.not_lt]
  exact Result.decides_ite ..

/-- The check of the size of a digest. -/
theorem ensureSizedBufferFits_decides (size : Nat) (message : String) :
    (ensureSizedBufferFits size message).Decides (size ≤ 64) := by
  rw [← Nat.not_lt]
  exact Result.decides_ite ..

/-- The check of an authorization value. -/
theorem ensureSecureAuthValueTransport_decides (auth : List UInt8) :
    (ensureSecureAuthValueTransport auth).Decides (auth = []) := by
  rw [← not_not (a := auth = [])]
  exact Result.decides_ite ..

/-- The supported algorithms are those with a digest size, so the size check
neither throws nor leaves anything for the capacity check to reject. -/
theorem ensurePolicyDigestSize_decides (algorithm : HashAlgorithm) (digest : List UInt8) :
    (ensurePolicyDigestSize build algorithm digest).Decides
      (algorithm.Enabled build ∧ digest.length = algorithm.size) := by
  by_cases henabled : algorithm.Enabled build
  · have hsupported := isSupportedAlgorithm_iff.mpr henabled
    have hrun : ensurePolicyDigestSize build algorithm digest =
        if digest.length ≠ algorithm.size then
          fail .inputError "PCR auth policy digest has wrong size"
        else ensureSizedBufferFits digest.length "PCR auth policy digest is too large" := by
      simp [ensurePolicyDigestSize, hsupported, digestSize_of_enabled henabled]
    rw [hrun]
    by_cases hsize : digest.length = algorithm.size
    · exact Or.inl ⟨⟨henabled, hsize⟩, by simp [hsize, ensureSizedBufferFits, algorithm.size_le]⟩
    · exact Or.inr ⟨fun h => hsize h.2, _, if_pos hsize⟩
  · have hsupported : isSupportedAlgorithm build algorithm = false :=
      Bool.eq_false_iff.mpr fun h => henabled (isSupportedAlgorithm_iff.mp h)
    exact Or.inr ⟨fun h => henabled h.1, ⟨.inputError,
      "unsupported PCR auth policy hash algorithm"⟩,
      by simp [ensurePolicyDigestSize, hsupported, fail]⟩

end Tpmkit
