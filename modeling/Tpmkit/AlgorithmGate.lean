import Tpmkit.PreparedRequests

/-!
# The legacy SHA-1 gate

Six switches and checks over hash algorithms, compiled differently under the
build option, decide the same set: the algorithms with a digest size, those with
an identifier, and those that a selection, a bank, a digest or a response may
carry.  The consequence for runs of the provider: no operation throws, and
nothing but enabled algorithms goes to the backend or comes back to the caller.
-/

namespace Tpmkit

open Checked Pcr

variable {σ : Type} {build : BuildOptions}

/-! ## One set of algorithms -/

/-- An algorithm is supported when it has a digest size in the build. -/
theorem isSupportedAlgorithm_iff_digestSize {a : HashAlgorithm} :
    isSupportedAlgorithm build a = true ↔ ∃ n, digestSize build a = .value n := by
  rw [isSupportedAlgorithm_iff]
  constructor
  · exact fun henabled => ⟨a.size, digestSize_of_enabled henabled⟩
  · intro hsize
    obtain ⟨n, hn⟩ := hsize
    exact (enabled_of_digestSize hn).1

/-- An identifier that was made from an algorithm of the build is read back as it. -/
theorem algorithmFromTpm_algorithmToTpm {a : HashAlgorithm}
    (h : isSupportedAlgorithm build a = true) :
    algorithmFromTpm build (algorithmToTpm build a) = .value a :=
  algorithmFromTpm_eq_value.mpr ⟨isSupportedAlgorithm_iff.mp h, rfl⟩

/-- An identifier of an enabled algorithm is no error, and SHA-1 only where the
build enables it. -/
theorem EnabledId.gate {id : TpmiAlgHash} (h : EnabledId build id) :
    id ≠ tpm2AlgError ∧ (build.legacySha1PcrEnabled = false → id ≠ tpm2AlgSha1) := by
  obtain ⟨a, ha, rfl⟩ := h
  have hsupported : isSupportedAlgorithm build a = true := isSupportedAlgorithm_iff.mpr ha
  refine ⟨by simpa [isSupportedAlgorithm] using hsupported, fun hbuild hsha1 => ?_⟩
  have hfrom := algorithmFromTpm_algorithmToTpm hsupported
  simp [hsha1, algorithmFromTpm, hbuild, fail] at hfrom

/-! ## Algorithms in results -/

/-- The algorithms that a value names. -/
def ProviderValue.algorithms : ProviderValue build → List HashAlgorithm
  | .measured result => result.digests.map DigestValue.algorithm
  | .valuesRead result =>
      result.actualSelection.algorithm :: result.values.map fun value => value.digest.algorithm
  | _ => []

/-- The digests of an event are all of algorithms of the build, whatever the TPM answered. -/
theorem eventResult_enabled {answer : EventAnswer} {result : EventResult}
    (h : EsysPcrProvider.eventResult build answer = .value result) :
    ∀ d ∈ result.digests, d.algorithm.Enabled build := by
  unfold EsysPcrProvider.eventResult at h
  split at h
  · cases h
  split at h
  · cases h
  next digests _ =>
    rcases toDomainDigests_exact build digests with ⟨_, hrun⟩ | ⟨_, e, hrun⟩
    · rw [hrun, Result.map_value] at h
      cases h
      exact fun d hd => (wellFormed_of_mem_domainDigests hd).enabled
    · rw [hrun, Result.map_unexpected] at h
      cases h

/-- So are the values of a read. -/
theorem readResult_enabled {selection : Selection build} {answer : ReadAnswer}
    {result : ReadResult build}
    (h : EsysPcrProvider.readResult build selection answer = .value result) :
    ∀ value ∈ result.values, value.digest.algorithm.Enabled build := by
  unfold EsysPcrProvider.readResult at h
  split at h
  · cases h
  split at h
  next actualSelection values _ _ =>
    obtain ⟨domainSelection, _, h⟩ := Result.bind_eq_value.mp h
    obtain ⟨domainValues, hvalues, h⟩ := Result.bind_eq_value.mp h
    cases h
    rcases toDomainReadValues_exact values domainSelection with ⟨_, hrun⟩ | ⟨_, e, hrun⟩
    · rw [hrun] at hvalues
      cases hvalues
      exact fun value hvalue => (wellFormed_of_mem_readValues hvalue).2.enabled
    · rw [hrun] at hvalues
      cases hvalues
  next => cases h

/-- Whatever the backend answers, a value names enabled algorithms only. -/
theorem conclude_enabled {op : ProviderOp build} {response : Response}
    {value : ProviderValue build} (h : EsysPcrProvider.conclude op response = .value value) :
    ∀ a ∈ value.algorithms, a.Enabled build := by
  unfold EsysPcrProvider.conclude at h
  split at h
  next banks answer =>
    obtain ⟨_, _, rfl⟩ := Result.map_eq_value.mp h
    exact fun a ha => nomatch ha
  next index eventData answer =>
    obtain ⟨result, hresult, rfl⟩ := Result.map_eq_value.mp h
    intro a ha
    obtain ⟨d, hd, rfl⟩ := List.mem_map.mp ha
    exact eventResult_enabled hresult d hd
  next selection answer =>
    obtain ⟨result, hresult, rfl⟩ := Result.map_eq_value.mp h
    intro a ha
    rcases List.mem_cons.mp ha with rfl | ha
    · exact result.actualSelection.enabled
    · obtain ⟨value, hvalue, rfl⟩ := List.mem_map.mp ha
      exact readResult_enabled hresult value hvalue
  next =>
    obtain ⟨_, _, rfl⟩ := Result.map_eq_value.mp h
    exact fun a ha => nomatch ha

/-! ## Runs of the provider -/

variable (provider : EsysPcrProvider σ)

@[simp] theorem requests_freeEvents_response (response : Response) :
    requests response.freeEvents = [] := by
  cases response <;> simp [Response.freeEvents]

/-- The calls of a prepared operation are its requests, with the codes they were answered with. -/
theorem requests_calls (calls : List AnsweredCall) :
    requests (calls.map AnsweredCall.event) =
      calls.map fun answered => (answered.1.request, answered.2.rc) := by
  induction calls with
  | nil => rfl
  | cons answered calls ih => simp [AnsweredCall.event, ih]

/-- What an operation announces in the end sends nothing. -/
theorem requests_announce (op : ProviderOp build) (last : AnsweredCall) :
    requests (provider.announce op last) = [] := by
  by_cases hrc : last.2.rc = tss2RcSuccess
  · rw [provider.announce_success op hrc]
    rcases EsysPcrProvider.conclude op last.2 with value | e | f
    · cases op <;> cases value <;> cases hobserver : provider.observer <;>
        simp [EsysPcrProvider.completedEvents, EsysPcrProvider.notifyEvents, hobserver]
    · rfl
    · rfl
  · rw [provider.announce_failure op hrc]
    exact EsysPcrProvider.requests_tssErrorEvents ..

/-- Every request carries identifiers of enabled algorithms only. -/
def SendsEnabledIds (build : BuildOptions) (events : List Event) : Prop :=
  ∀ request rc, (request, rc) ∈ requests events → ∀ id ∈ request.ids, EnabledId build id

/-- Two parts that send identifiers of the build make one that does. -/
theorem SendsEnabledIds.append {events events' : List Event}
    (h : SendsEnabledIds build events) (h' : SendsEnabledIds build events') :
    SendsEnabledIds build (events ++ events') := by
  intro request rc hmem
  rw [requests_append, List.mem_append] at hmem
  exact hmem.elim (h request rc) (h' request rc)

/-- The world `w'` was reached from `w` with such requests. -/
def SentEnabledIds (build : BuildOptions) (w w' : World σ) : Prop :=
  ∃ b events, w' = w.after b events ∧ SendsEnabledIds build events

/-- The call returns, and what it returns names enabled algorithms only. -/
def ReturnsEnabled (result : Outcome (ProviderValue build)) : Prop :=
  result.NoFault ∧ ∀ value, result = .value value → ∀ a ∈ value.algorithms, a.Enabled build

/-- One operation sends enabled identifiers and returns enabled algorithms. -/
theorem perform_gate {op : ProviderOp build} (h : op.Stored) (w : World σ) :
    SentEnabledIds build w (provider.perform op w).2 ∧
      ReturnsEnabled (provider.perform op w).1 := by
  rw [provider.perform_eq]
  rcases prepare_exact provider h with ⟨_, call, rest, hprepare, _, hids⟩ | ⟨_, e, hprepare⟩
  · rw [hprepare]
    refine ⟨⟨_, _, rfl, fun request rc hmem => ?_⟩, EsysPcrProvider.noFault_conclude op _,
      fun value hvalue => conclude_enabled hvalue⟩
    rw [requests_append, requests_append, requests_announce, requests_freeEvents_response,
      List.append_nil, List.append_nil, requests_calls] at hmem
    obtain ⟨answered, hanswered, heq⟩ := List.mem_map.mp hmem
    obtain ⟨rfl, rfl⟩ := Prod.mk.inj heq
    have hcall : answered.1 ∈ call :: rest :=
      (provider.api.exchange_prefix call rest w.backend).subset
        (List.mem_map_of_mem hanswered)
    exact hids answered.1 hcall
  · rw [hprepare]
    exact ⟨⟨w.backend, [], by simp, by simp [SendsEnabledIds]⟩, by simp, by simp⟩

/-- Along a whole run no identifier of a disabled algorithm is sent and none is returned. -/
theorem series_gate {ops : List (ProviderOp build)} (h : ∀ op ∈ ops, op.Stored) (w : World σ) :
    SentEnabledIds build w (Program.series provider.perform ops w).2 ∧
      ∀ result ∈ (Program.series provider.perform ops w).1, ReturnsEnabled result := by
  have hcall : ∀ op ∈ ops, ∀ w', SentEnabledIds build w w' →
      SentEnabledIds build w (provider.perform op w').2 ∧
        ReturnsEnabled (provider.perform op w').1 := by
    intro op hop w' hsent
    obtain ⟨b, events, rfl, hevents⟩ := hsent
    obtain ⟨⟨b', events', hworld, hsends⟩, hresult⟩ :=
      perform_gate provider (h op hop) (w.after b events)
    refine ⟨⟨b', events ++ events', ?_, hevents.append hsends⟩, hresult⟩
    rw [hworld, World.after_after]
  have hstart : SentEnabledIds build w w := ⟨w.backend, [], by simp, by simp [SendsEnabledIds]⟩
  exact Program.series_invariant hcall hstart

/-- **The gate holds everywhere.**  The supported algorithms are those with a
digest size, and their identifiers lead back to them.  In every run of
operations on values that the public constructors built, no operation throws, no
request carries the identifier of an error or, in a build without legacy SHA-1,
of SHA-1, and in such a build no result names SHA-1. -/
theorem algorithm_gate (build : BuildOptions) :
    (∀ a, (isSupportedAlgorithm build a = true ↔ ∃ n, digestSize build a = .value n) ∧
      (isSupportedAlgorithm build a = true →
        algorithmFromTpm build (algorithmToTpm build a) = .value a)) ∧
    ∀ (σ : Type) (provider : EsysPcrProvider σ) (ops : List (ProviderOp build)) (w : World σ),
      (∀ op ∈ ops, op.Stored) →
        let run := Program.series provider.perform ops w
        (∀ result ∈ run.1, result.NoFault) ∧
        (∀ request rc, (request, rc) ∈ requests (w.eventsSince run.2) → ∀ id ∈ request.ids,
          id ≠ tpm2AlgError ∧ (build.legacySha1PcrEnabled = false → id ≠ tpm2AlgSha1)) ∧
        (build.legacySha1PcrEnabled = false → ∀ value, .value value ∈ run.1 →
          HashAlgorithm.sha1 ∉ value.algorithms) := by
  refine ⟨fun a => ⟨isSupportedAlgorithm_iff_digestSize, algorithmFromTpm_algorithmToTpm⟩, ?_⟩
  intro σ provider ops w hstored run
  obtain ⟨⟨b, events, hrun, hsends⟩, hresults⟩ := series_gate provider hstored w
  refine ⟨fun result hresult => (hresults result hresult).1, fun request rc hmem id hid => ?_,
    fun hbuild value hvalue hsha1 => ?_⟩
  · rw [hrun, World.eventsSince_after] at hmem
    exact (hsends request rc hmem id hid).gate
  · have henabled := (hresults _ hvalue).2 value rfl _ hsha1
    rw [HashAlgorithm.Enabled, hbuild] at henabled
    cases henabled

end Tpmkit
