import Tpmkit.DispatchFidelity
import Tpmkit.ObserverFidelity
import Tpmkit.PreparedRequests

/-!
# The digests of an event

An event result is meant to hold one digest for each active bank, so that the
event can be replayed through `extend`.  `to_domain_digests` takes over the
entries of the response one by one and does not look for a bank that is named
twice, although `extend` looks for one in what it is given.  So the result is as
good as the response: `event_digests_replayable_iff` gives the responses on which
it can be replayed.
-/

namespace Tpmkit

open Checked Pcr

variable {σ : Type} {build : BuildOptions}

/-- The identifiers of the used entries that are not skipped. -/
def TpmlDigestValues.keptIds (build : BuildOptions) (t : TpmlDigestValues) : List TpmiAlgHash :=
  t.ids.filter fun id => !shouldSkipDisabledPcrAlgorithm build id

/-- What the backend answers to the event. -/
def eventAnswer (provider : EsysPcrProvider σ) (index : Index) (eventData : List UInt8) (b : σ) :
    EventAnswer :=
  (provider.api.pcrEvent provider.esys (pcrHandle index) esysTrPassword esysTrNone esysTrNone
    (encodedEvent eventData) b).1

/-- The arguments pass the checks and the backend answers with the digest list `t`,
which is accepted. -/
structure MeasuredFrom (build : BuildOptions) (provider : EsysPcrProvider σ) (index : Index)
    (eventData : List UInt8) (b : σ) (t : TpmlDigestValues) : Prop where
  esys : provider.esys.isSome = true
  size : eventData.length ≤ 1024
  rc : (eventAnswer provider index eventData b).rc = tss2RcSuccess
  digests : (eventAnswer provider index eventData b).digests = some t
  accepted : AcceptsDigests build t

/-- Any provider with a context extends with these digests. -/
def Replayable (build : BuildOptions) (σ : Type) (digests : List DigestValue) : Prop :=
  ∀ (provider : EsysPcrProvider σ) (index : Index) (w : World σ), provider.esys.isSome = true →
    ∃ request rc,
      (request, rc) ∈ requests (w.eventsSince (provider.extend build index digests w).2) ∧
        ExtendImage provider.esys index digests request

/-! ## The digests of a response -/

/-- Each entry of an accepted list gives the digest of its identifier, or is skipped. -/
theorem taggedDigests_ids {entries : List TpmtHa}
    (h : ∀ entry ∈ entries,
      EnabledId build entry.hashAlg ∨ DisabledSha1Id build entry.hashAlg) :
    (entries.filterMap (taggedDigest build)).map (fun d => algorithmToTpm build d.algorithm) =
      (entries.map TpmtHa.hashAlg).filter fun id => !shouldSkipDisabledPcrAlgorithm build id := by
  induction entries with
  | nil => rfl
  | cons entry entries ih =>
      obtain ⟨hentry, hentries⟩ := List.forall_mem_cons.mp h
      by_cases hskip : DisabledSha1Id build entry.hashAlg
      · rw [List.filterMap_cons_none (taggedDigest_of_disabled hskip), List.map_cons,
          List.filter_cons_of_neg, ih hentries]
        simp [shouldSkip_iff.mpr hskip]
      · obtain ⟨a, ha, hid⟩ := hentry.resolve_right hskip
        rw [List.filterMap_cons_some (taggedDigest_of_enabled ha hid), List.map_cons,
          List.map_cons, List.filter_cons_of_pos, ih hentries, hid]
        rw [shouldSkip_of_not hskip]
        rfl

/-- The digests of an accepted response, by their identifiers. -/
theorem domainDigests_ids {t : TpmlDigestValues} (h : AcceptsDigests build t) :
    (domainDigests build t t.count.toNat).map (fun d => algorithmToTpm build d.algorithm) =
      t.keptIds build := by
  apply taggedDigests_ids
  intro entry hentry
  obtain ⟨i, hi, rfl⟩ := List.getElem_of_mem hentry
  have hcount := h.1
  simp only [List.length_take, Vector.length_toList] at hi
  have hvalid := h.2 i (by omega) (by omega)
  simpa using hvalid

/-- Enabled algorithms are distinct when their identifiers are. -/
theorem nodup_algorithms_iff {digests : List DigestValue}
    (h : ∀ d ∈ digests, d.algorithm.Enabled build) :
    (digests.map DigestValue.algorithm).Nodup ↔
      (digests.map fun d => algorithmToTpm build d.algorithm).Nodup := by
  have hmap : (digests.map fun d => algorithmToTpm build d.algorithm) =
      (digests.map DigestValue.algorithm).map (algorithmToTpm build) := by
    rw [List.map_map]
    rfl
  rw [hmap]
  constructor
  · intro hnodup
    refine List.Nodup.map_on ?_ hnodup
    intro a ha a' ha' heq
    obtain ⟨d, hd, rfl⟩ := List.mem_map.mp ha
    obtain ⟨d', hd', rfl⟩ := List.mem_map.mp ha'
    have hvalue := algorithmFromTpm_eq_value.mpr ⟨h d hd, rfl⟩
    rw [heq, algorithmFromTpm_eq_value.mpr ⟨h d' hd', rfl⟩] at hvalue
    exact (Result.value.inj hvalue).symm
  · exact List.Nodup.of_map _

theorem nodup_domainDigests_iff {t : TpmlDigestValues} (h : AcceptsDigests build t) :
    ((domainDigests build t t.count.toNat).map DigestValue.algorithm).Nodup ↔
      (t.keptIds build).Nodup := by
  rw [← domainDigests_ids h]
  exact nodup_algorithms_iff fun d hd => (wellFormed_of_mem_domainDigests hd).enabled

theorem domainDigests_ne_nil_iff {t : TpmlDigestValues} (h : AcceptsDigests build t) :
    domainDigests build t t.count.toNat ≠ [] ↔ t.keptIds build ≠ [] := by
  rw [← domainDigests_ids h, ne_eq, ne_eq, List.map_eq_nil_iff]

/-! ## The operations -/

/-- When an event succeeds, and with which digests. -/
theorem event_value_iff (provider : EsysPcrProvider σ) (w : World σ) (index : Index)
    (eventData : List UInt8) (result : EventResult) :
    (provider.event build index eventData w).1 = .value result ↔
      ∃ t, MeasuredFrom build provider index eventData w.backend t ∧
        result = ⟨domainDigests build t t.count.toNat⟩ := by
  by_cases hvalid : provider.esys.isSome = true ∧ eventData.length ≤ 1024
  swap
  · have hrejects : (provider.event build index eventData).Rejects w :=
      EsysPcrProvider.event_rejected w hvalid
    obtain ⟨e, hrun⟩ := hrejects
    rw [hrun]
    refine ⟨fun h => ?_, fun h => ?_⟩
    · cases h
    · obtain ⟨t, hmeasured, _⟩ := h
      exact absurd ⟨hmeasured.esys, hmeasured.size⟩ hvalid
  obtain ⟨hesys, hsize⟩ := hvalid
  rw [EsysPcrProvider.event_run w hesys hsize rfl]
  change EsysPcrProvider.eventResult build (eventAnswer provider index eventData w.backend) = _ ↔ _
  unfold EsysPcrProvider.eventResult
  constructor
  · intro h
    by_cases hrc : (eventAnswer provider index eventData w.backend).rc = tss2RcSuccess
    swap
    · rw [if_pos hrc] at h
      cases h
    rw [if_neg (not_not.mpr hrc)] at h
    split at h
    · cases h
    · next t ht =>
        rcases toDomainDigests_exact build t with ⟨haccepts, hdigests⟩ | ⟨_, e, hrefused⟩
        · rw [hdigests] at h
          cases h
          exact ⟨t, ⟨hesys, hsize, hrc, ht, haccepts⟩, rfl⟩
        · rw [hrefused] at h
          cases h
  · intro h
    obtain ⟨t, hmeasured, rfl⟩ := h
    rcases toDomainDigests_exact build t with ⟨_, hdigests⟩ | ⟨hrefused, _⟩
    · simp [hmeasured.rc, hmeasured.digests, hdigests]
    · exact absurd hmeasured.accepted hrefused

/-- Digests that were decoded are replayed when they pass the checks of `extend`. -/
theorem replayable_iff {digests : List DigestValue} (h : ∀ d ∈ digests, d.WellFormed build)
    (provider : EsysPcrProvider σ) (hesys : provider.esys.isSome = true) (w : World σ) :
    Replayable build σ digests ↔
      digests ≠ [] ∧ (digests.map DigestValue.algorithm).Nodup := by
  constructor
  · intro hreplayable
    obtain ⟨request, rc, hmem, _⟩ := hreplayable provider 0 w hesys
    rcases extend_validatesThenSends provider w 0 h with ⟨hvalid, _⟩ | ⟨_, hrejects⟩
    · exact hvalid.2
    · rw [requests_of_rejects hrejects] at hmem
      cases hmem
  · intro hvalid provider' index w' hesys'
    rcases extend_validatesThenSends provider' w' index h with
      ⟨_, _, ⟨request, rc, rest, hfirst⟩, himages⟩ | ⟨hrefused, _⟩
    · have hmem : (request, rc) ∈
          requests (w'.eventsSince (provider'.extend build index digests w').2) := by
        rw [hfirst, requests_esys]
        exact List.mem_cons_self
      exact ⟨request, rc, hmem, himages request rc hmem⟩
    · exact absurd ⟨hesys', hvalid⟩ hrefused

/-- The observer is handed what `event` returns. -/
theorem returned_of_onEvent (provider : EsysPcrProvider σ) (w : World σ) (index : Index)
    (eventData : List UInt8) {observer : Observer} {index' : Index} {eventData' : List UInt8}
    {result : EventResult}
    (h : Event.onEvent observer index' eventData' result ∈
      w.eventsSince (provider.event build index eventData w).2) :
    (provider.event build index eventData w).1 = .value result := by
  obtain ⟨b, events, hworld, hcallbacks, _⟩ :=
    perform_observed provider (.event index eventData : ProviderOp build) w
  have hperform : provider.perform (.event index eventData : ProviderOp build) w =
      (ProviderValue.measured <$> (provider.event build index eventData w).1,
        (provider.event build index eventData w).2) := by
    rcases hrun : provider.event build index eventData w with ⟨outcome, w'⟩
    cases outcome <;> simp [EsysPcrProvider.perform, hrun]
  rw [hperform] at hworld hcallbacks
  rw [hworld, World.eventsSince_after] at h
  have hmem := List.mem_filter.mpr ⟨h, (rfl : Event.isCallback _ = true)⟩
  rw [hcallbacks] at hmem
  obtain ⟨observer', _, hmeasurement⟩ := List.mem_flatMap.mp hmem
  cases hresult : (provider.event build index eventData w).1 with
  | value value =>
      rw [hresult] at hmeasurement
      obtain ⟨_, _, _, rfl⟩ := Event.onEvent.inj (List.mem_singleton.mp hmeasurement)
      rfl
  | unexpected e =>
      rw [hresult] at hmeasurement
      cases hmeasurement
  | fault f =>
      rw [hresult] at hmeasurement
      cases hmeasurement

/-- **A result repeats a bank when the response does.**  The algorithms of the digests
are distinct exactly when the identifiers of the response are, those of skipped entries
apart.  The event can be replayed through `extend` exactly when there is also an entry
that is not skipped.  The observer is handed what is returned. -/
theorem event_digests_replayable_iff (build : BuildOptions) (provider : EsysPcrProvider σ)
    (w : World σ) (index : Index) (eventData : List UInt8) :
    let run := provider.event build index eventData w
    ((∀ result, run.1 = .value result → (result.digests.map DigestValue.algorithm).Nodup) ↔
      ∀ t, MeasuredFrom build provider index eventData w.backend t → (t.keptIds build).Nodup) ∧
    ((∀ result, run.1 = .value result → Replayable build σ result.digests) ↔
      ∀ t, MeasuredFrom build provider index eventData w.backend t →
        t.keptIds build ≠ [] ∧ (t.keptIds build).Nodup) ∧
    ∀ observer index' eventData' result,
      Event.onEvent observer index' eventData' result ∈ w.eventsSince run.2 →
        run.1 = .value result := by
  intro run
  have hrun : ∀ result, run.1 = .value result ↔ ∃ t,
      MeasuredFrom build provider index eventData w.backend t ∧
        result = ⟨domainDigests build t t.count.toNat⟩ :=
    event_value_iff provider w index eventData
  refine ⟨⟨?_, ?_⟩, ⟨?_, ?_⟩, fun _ _ _ _ => returned_of_onEvent provider w index eventData⟩
  · intro h t hmeasured
    exact (nodup_domainDigests_iff hmeasured.accepted).mp (h _ ((hrun _).mpr ⟨t, hmeasured, rfl⟩))
  · intro h result hresult
    obtain ⟨t, hmeasured, rfl⟩ := (hrun result).mp hresult
    exact (nodup_domainDigests_iff hmeasured.accepted).mpr (h t hmeasured)
  · intro h t hmeasured
    have hreplayable := h _ ((hrun _).mpr ⟨t, hmeasured, rfl⟩)
    obtain ⟨hne, hnodup⟩ := (replayable_iff (fun d => wellFormed_of_mem_domainDigests) provider
      hmeasured.esys w).mp hreplayable
    exact ⟨(domainDigests_ne_nil_iff hmeasured.accepted).mp hne,
      (nodup_domainDigests_iff hmeasured.accepted).mp hnodup⟩
  · intro h result hresult
    obtain ⟨t, hmeasured, rfl⟩ := (hrun result).mp hresult
    obtain ⟨hne, hnodup⟩ := h t hmeasured
    refine (replayable_iff (fun d => wellFormed_of_mem_domainDigests) provider hmeasured.esys
      w).mpr ⟨?_, ?_⟩
    · exact (domainDigests_ne_nil_iff hmeasured.accepted).mpr hne
    · exact (nodup_domainDigests_iff hmeasured.accepted).mpr hnodup

/-! ### A backend that names a bank twice -/

/-- Two digests of the SHA-256 bank. -/
def doubledAnswer : EventAnswer where
  rc := tss2RcSuccess
  digests := some ⟨2, Vector.replicate 16 ⟨tpm2AlgSha256, Vector.replicate 64 0xaa⟩⟩

def doubledApi : EsysApi Unit :=
  { EsysApi.inert with pcrEvent := fun _ _ _ _ _ _ b => (doubledAnswer, b) }

/-- The event succeeds, the observer is handed both digests, and `extend` refuses
them. -/
theorem event_repeats_bank :
    let digest : DigestValue := ⟨.sha256, List.replicate 32 0xaa⟩
    let provider : EsysPcrProvider Unit := ⟨doubledApi, some ⟨0⟩, .noop, some ⟨0⟩⟩
    let w : World Unit := ⟨(), 1, []⟩
    let run := provider.event ⟨false⟩ 7 [1, 2, 3] w
    run.1 = .value ⟨[digest, digest]⟩ ∧
      ¬([digest, digest].map DigestValue.algorithm).Nodup ∧
      Event.onEvent ⟨0⟩ 7 [1, 2, 3] ⟨[digest, digest]⟩ ∈ w.eventsSince run.2 ∧
      (provider.extend ⟨false⟩ 7 [digest, digest] run.2).1 =
        .unexpected ⟨.inputError, "duplicate PCR digest algorithm"⟩ := by
  decide +kernel

end Tpmkit
