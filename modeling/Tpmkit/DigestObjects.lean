import Tpmkit.DispatchFidelity
import Tpmkit.ValuePool

/-!
# Digest values as objects

`digest_value.h`.  The constructor checks that the digest has the size of its
algorithm; the copies and moves are the ones that the language generates.  A move
takes the bytes and leaves the algorithm, so the object that was moved from is no
digest any more, and `extend`, which does not look at sizes, sends zeros for it.
`digest_sizes_kept_iff` says that moves are the only way to get there.
-/

namespace Tpmkit

open Checked Pcr ValuePool

variable {κ : Type} {build : BuildOptions}

/-- `digest_value`: what its constructor accepts, and that a moved-from
`std::vector` is empty. -/
def digestValueClass (build : BuildOptions) :
    ValueClass (HashAlgorithm × List UInt8) DigestValue where
  construct := fun arguments =>
    match DigestValue.make build arguments.1 arguments.2 with
    | .value d => some d
    | _ => none
  moved := fun d => ⟨d.algorithm, []⟩

/-- `digest().size() == digest_size(algorithm())`. -/
def Pcr.DigestValue.Sized (build : BuildOptions) (d : DigestValue) : Prop :=
  digestSize build d.algorithm = .value d.digest.length

/-- The bytes that the TPM reads for a digest are the bytes of the digest. -/
def EsysRequest.CarriesBytes (digests : List DigestValue) : EsysRequest → Prop
  | .pcrExtend _ _ _ _ _ tpmDigests =>
      ∀ i (_ : i < 16) (_ : i < digests.length),
        tpmDigests.digests[i].digest.toList.take digests[i].algorithm.size = digests[i].digest
  | _ => False

/-- Whatever is extended with objects of the pool is extended with their bytes. -/
def ExtendsOwnBytes (build : BuildOptions) (pool : Pool κ DigestValue) : Prop :=
  ∀ (σ : Type) (provider : EsysPcrProvider σ) (w : World σ) (index : Index)
    (digests : List DigestValue), (∀ d ∈ digests, ∃ k, pool k = some d) →
      ∀ request rc,
        (request, rc) ∈ requests (w.eventsSince (provider.extend build index digests w).2) →
          request.CarriesBytes digests

/-! ## The class -/

/-- The constructor makes well-formed objects only. -/
theorem wellFormed_of_construct {arguments : HashAlgorithm × List UInt8} {d : DigestValue}
    (h : (digestValueClass build).construct arguments = some d) : d.WellFormed build := by
  simp only [digestValueClass] at h
  split at h
  · next hmake =>
      cases h
      exact DigestValue.wellFormed_of_make hmake
  · cases h

/-- What a move leaves behind is stored as before. -/
theorem stored_moved {d : DigestValue} (h : d.Stored build) :
    ((digestValueClass build).moved d).Stored build :=
  ⟨h.enabled, Or.inl rfl⟩

/-- A well-formed object has the size of its algorithm. -/
theorem sized_of_wellFormed {d : DigestValue} (h : d.WellFormed build) : d.Sized build := by
  rw [DigestValue.Sized, digestSize_of_enabled h.enabled, h.length_eq]

/-- An object without bytes has not the size of its algorithm. -/
theorem not_sized_moved {d : DigestValue} (h : d.Stored build) :
    ¬((digestValueClass build).moved d).Sized build := by
  intro hsized
  obtain ⟨_, hlength⟩ := enabled_of_digestSize hsized
  have hpos := HashAlgorithm.size_pos h.enabled
  simp only [digestValueClass, List.length_nil] at hlength
  omega

/-! ## What is sent -/

/-- The bytes of a digest of the right size fill the member of their algorithm. -/
theorem carriesBytes_of_image {esys : Option EsysContext} {index : Index}
    {digests : List DigestValue} (hdigests : ∀ d ∈ digests, d.WellFormed build)
    {request : EsysRequest} (h : ExtendImage esys index digests request) :
    request.CarriesBytes digests := by
  cases request with
  | pcrExtend esys' handle shandle1 shandle2 shandle3 tpmDigests =>
      obtain ⟨_, _, _, _, _, himage⟩ := h
      intro i hentry hi
      have hlength := (hdigests _ (List.getElem_mem hi)).length_eq
      have hfits := digests[i].algorithm.size_le
      apply List.ext_getElem
      · simp only [List.length_take, Vector.length_toList]
        omega
      · intro j hj hj'
        have hbyte := himage.byte_eq i hentry hi j (by omega)
        simpa [hj'] using hbyte
  | _ => cases h

/-- What is sent of a well-formed object are its own bytes. -/
theorem extendsOwnBytes_of_wellFormed {pool : Pool κ DigestValue}
    (h : All (DigestValue.WellFormed build) pool) : ExtendsOwnBytes build pool := by
  intro σ provider w index digests hlive request rc hmem
  have hdigests : ∀ d ∈ digests, d.WellFormed build := by
    intro d hd
    obtain ⟨k, hk⟩ := hlive d hd
    exact h k d hk
  rcases extend_validatesThenSends provider w index hdigests with ⟨_, _, _, himages⟩ | ⟨_, hrejects⟩
  · exact carriesBytes_of_image hdigests (himages request rc hmem)
  · rw [requests_of_rejects hrejects] at hmem
    cases hmem

/-- The request for a single object that was moved from. -/
def emptiedRequest (build : BuildOptions) (a : HashAlgorithm) (index : Index) : EsysRequest :=
  .pcrExtend (some ⟨0⟩) (pcrHandle index) esysTrPassword esysTrNone esysTrNone
    (encodedDigests build [⟨a, []⟩])

/-- It passes the checks and is sent. -/
theorem emptiedRequest_sent (build : BuildOptions) {a : HashAlgorithm} (ha : a.Enabled build) (index : Index) :
    ∃ rc, (emptiedRequest build a index, rc) ∈ requests ((⟨(), 1, []⟩ : World Unit).eventsSince
      (EsysPcrProvider.extend build ⟨EsysApi.inert, some ⟨0⟩, .noop, none⟩ index [⟨a, []⟩]
        ⟨(), 1, []⟩).2) := by
  have hstored : ∀ d ∈ [(⟨a, []⟩ : DigestValue)], d.Stored build := by
    intro d hd
    rw [List.mem_singleton.mp hd]
    exact ⟨ha, Or.inl rfl⟩
  have hrun : EsysPcrProvider.extend build ⟨EsysApi.inert, some ⟨0⟩, .noop, none⟩ index
      [⟨a, []⟩] (⟨(), 1, []⟩ : World Unit) = _ :=
    EsysPcrProvider.extend_run _ hstored rfl ⟨by simp, by simp⟩ rfl
  rw [hrun]
  exact ⟨_, by rw [World.eventsSince_after, requests_esys]; exact List.mem_cons_self⟩

/-- The TPM reads nothing but zeros for a digest without bytes. -/
theorem encodedDigest_zeros (build : BuildOptions) (a : HashAlgorithm) :
    (encodedDigest build ⟨a, []⟩).digest.toList.take a.size = List.replicate a.size 0 := by
  have hfits := a.size_le
  apply List.ext_getElem
  · simp only [List.length_take, Vector.length_toList, List.length_replicate]
    omega
  · intro j hj hj'
    have hbound : j < 64 := by
      simp at hj'
      omega
    simp [encodedDigest, getElem_overlay hbound, TpmtHa.zeroed]

/-- Of a moved-from object zeros are sent, which it does not hold. -/
theorem not_extendsOwnBytes_of_moved {pool : Pool κ DigestValue} {k : κ} {d : DigestValue}
    (h : d.Stored build) (hmoved : pool k = some ((digestValueClass build).moved d)) :
    ¬ExtendsOwnBytes build pool := by
  intro hbytes
  obtain ⟨rc, hsent⟩ := emptiedRequest_sent build h.enabled 0
  have hlive : ∀ d' ∈ [(⟨d.algorithm, []⟩ : DigestValue)], ∃ k, pool k = some d' := by
    intro d' hd'
    rw [List.mem_singleton.mp hd']
    exact ⟨k, hmoved⟩
  have hcarried := hbytes Unit _ _ 0 _ hlive _ rc hsent 0 (by decide) (by simp)
  rw [encodedDigests_getElem (by simp), List.getElem_cons_zero, encodedDigest_zeros] at hcarried
  have hlength := congrArg List.length hcarried
  have hpos := HashAlgorithm.size_pos h.enabled
  simp at hlength
  omega

/-! ## Runs -/

/-- **Only moves break the size invariant.**  In a run over any number of objects,
each object has the size of its algorithm in every state, and `extend` sends the
bytes of its objects in every state, exactly when the run moves none of them. -/
theorem digest_sizes_kept_iff [DecidableEq κ] (build : BuildOptions)
    {ops : List (Op κ (HashAlgorithm × List UInt8))} {last : Pool κ DigestValue}
    (hrun : run (digestValueClass build) (fun _ => none) ops = some last) :
    (Always (digestValueClass build) (All (DigestValue.Sized build)) (fun _ => none) ops ↔
      ∀ op ∈ ops, op.isMove = false) ∧
    (Always (digestValueClass build) (ExtendsOwnBytes build) (fun _ => none) ops ↔
      ∀ op ∈ ops, op.isMove = false) := by
  have hconstruct : ∀ arguments d, (digestValueClass build).construct arguments = some d →
      d.WellFormed build := fun _ _ => wellFormed_of_construct
  have hstored : ∀ d : DigestValue, d.WellFormed build → d.Stored build := fun _ h => h.stored
  have hmoved : ∀ d : DigestValue, d.Stored build →
      ((digestValueClass build).moved d).Stored build := fun _ => stored_moved
  have hempty : All (DigestValue.WellFormed build) (fun _ : κ => none) := by
    intro k d h
    cases h
  constructor
  · apply always_iff_no_move hconstruct hstored hmoved _ _ hempty hrun
    · exact fun pool hall k d hk => sized_of_wellFormed (hall k d hk)
    · exact fun pool k d hd hk hsized => not_sized_moved hd (hsized k _ hk)
  · apply always_iff_no_move hconstruct hstored hmoved _ _ hempty hrun
    · exact fun pool => extendsOwnBytes_of_wellFormed
    · exact fun pool k d => not_extendsOwnBytes_of_moved

/-- A digest that is built, copied and assigned keeps its size. -/
theorem digest_sizes_kept_iff_copied :
    Always (digestValueClass ⟨false⟩) (All (DigestValue.Sized ⟨false⟩)) (fun _ : Nat => none)
      [.construct 0 (.sha256, List.replicate 32 7), .copyConstruct 1 0, .copyAssign 0 1] := by
  obtain ⟨last, hrun⟩ : ∃ last, run (digestValueClass ⟨false⟩) (fun _ : Nat => none)
      [.construct 0 (.sha256, List.replicate 32 7), .copyConstruct 1 0, .copyAssign 0 1] =
        some last := ⟨_, rfl⟩
  exact (digest_sizes_kept_iff ⟨false⟩ hrun).1.mpr (by decide)

/-- A SHA-256 digest that is moved from has no bytes, passes the checks of `extend`, and
is sent as 32 zeros. -/
theorem moved_digest_sent_as_zeros :
    ∃ last tpmDigests entry rc,
      run (digestValueClass ⟨false⟩) (fun _ : Nat => none)
        [.construct 0 (.sha256, List.replicate 32 7), .moveConstruct 1 0] = some last ∧
      last 0 = some ⟨.sha256, []⟩ ∧ ¬DigestValue.Sized ⟨false⟩ ⟨.sha256, []⟩ ∧
      (EsysRequest.pcrExtend (some ⟨0⟩) (pcrHandle 10) esysTrPassword esysTrNone esysTrNone
        tpmDigests, rc) ∈ requests ((⟨(), 1, []⟩ : World Unit).eventsSince
          (EsysPcrProvider.extend ⟨false⟩ ⟨EsysApi.inert, some ⟨0⟩, .noop, none⟩ 10
            [⟨.sha256, []⟩] ⟨(), 1, []⟩).2) ∧
      tpmDigests.count = 1 ∧ tpmDigests.digests.toList.head? = some entry ∧
      entry.hashAlg = tpm2AlgSha256 ∧
      entry.digest.toList.take 32 = List.replicate 32 0 := by
  obtain ⟨rc, hsent⟩ := emptiedRequest_sent ⟨false⟩ (a := .sha256) trivial 10
  refine ⟨_, _, encodedDigest ⟨false⟩ ⟨.sha256, []⟩, rc, rfl, rfl, ?_, hsent, rfl, rfl, rfl,
    encodedDigest_zeros ⟨false⟩ .sha256⟩
  exact not_sized_moved (d := ⟨.sha256, List.replicate 32 7⟩) ⟨trivial, Or.inr rfl⟩

end Tpmkit
