import Tpmkit.ProviderRuns

/-!
# Errors and the state of the TPM

A TPM applies a command exactly when it answers it with success.  An error of
a state-changing operation should therefore mean that its PCR command was not
dispatched, or was answered with another code.  Four of the six operations keep
that promise on every run.  `event` breaks it when the digests that came with a
success cannot be returned, `set_auth_value` when the session update after the
command fails; `error_means_unchanged_iff` says that these are the only ways.
-/

namespace Tpmkit

open Checked ByteStrings Pcr

variable {σ α : Type} {build : BuildOptions}

/-! ## The promise -/

/-- The requests that change a PCR, its bank or its authorization in the TPM. -/
def EsysRequest.changesPcr : EsysRequest → Bool
  | .pcrAllocate .. => true
  | .pcrEvent .. => true
  | .pcrExtend .. => true
  | .pcrRead .. => false
  | .pcrReset .. => true
  | .pcrSetAuthPolicy .. => true
  | .pcrSetAuthValue .. => true
  | .startup .. => false
  | .trSetAuth .. => false

/-- No state-changing command among these was applied. -/
def NoneApplied (answered : List (EsysRequest × TssRc)) : Prop :=
  ∀ request rc, (request, rc) ∈ answered → request.changesPcr = true → rc ≠ tss2RcSuccess

/-- Where nothing was sent nothing was applied. -/
@[simp] theorem noneApplied_nil : NoneApplied [] := by
  simp [NoneApplied]

/-- No request was applied when the first was not and none of the others was. -/
@[simp] theorem noneApplied_cons (request : EsysRequest) (rc : TssRc)
    (rest : List (EsysRequest × TssRc)) :
    NoneApplied ((request, rc) :: rest) ↔
      (request.changesPcr = true → rc ≠ tss2RcSuccess) ∧ NoneApplied rest := by
  simp only [NoneApplied, List.mem_cons, Prod.mk.injEq]
  grind

/-- If the call returns an error, it has changed nothing in the TPM. -/
def ErrorMeansUnchanged (x : Adapter σ α) (w : World σ) : Prop :=
  ∀ e, (x w).1 = .unexpected e → NoneApplied (requests (w.eventsSince (x w).2))

/-- The state-changing operations of the provider, with their arguments. -/
inductive PcrCommand (build : BuildOptions) where
  | allocate (banks : List (Bank build))
  | event (index : Index) (eventData : List UInt8)
  | extend (index : Index) (digests : List DigestValue)
  | reset (index : Index)
  | setAuthPolicy (index : Index) (policyAlg : HashAlgorithm) (policyDigest : List UInt8)
  | setAuthValue (index : Index) (auth : List UInt8)

/-- Run an operation for its status only. -/
def discard (x : Adapter σ α) : Adapter σ Unit := do
  let _ ← x
  return ()

/-- The provider carries out a command; what a success returns is of no interest here. -/
def EsysPcrProvider.issue (provider : EsysPcrProvider σ) : PcrCommand build → Adapter σ Unit
  | .allocate banks => discard (provider.allocate build banks)
  | .event index eventData => discard (provider.event build index eventData)
  | .extend index digests => provider.extend build index digests
  | .reset index => provider.reset index
  | .setAuthPolicy index policyAlg policyDigest =>
      provider.setAuthPolicy build index policyAlg policyDigest
  | .setAuthValue index auth => provider.setAuthValue index auth

/-! ## Rules -/

/-- Whether an error means that nothing changed does not depend on what a success returns. -/
theorem errorMeansUnchanged_discard (x : Adapter σ α) (w : World σ) :
    ErrorMeansUnchanged (discard x) w ↔ ErrorMeansUnchanged x w := by
  unfold ErrorMeansUnchanged discard
  rcases h : x w with ⟨result, w'⟩
  cases result <;> simp [h]

/-- Pure code before the rest of an operation sends nothing. -/
theorem ErrorMeansUnchanged.lift_bind {β : Type} (check : Outcome β)
    {rest : β → Adapter σ α} {w : World σ} (hrest : ∀ b, ErrorMeansUnchanged (rest b) w) :
    ErrorMeansUnchanged (.lift check >>= rest) w := by
  intro e he
  cases check with
  | value b =>
      simp only [Program.bind_apply, Program.lift_apply, Program.resume_value] at he ⊢
      exact hrest b e he
  | unexpected e' => simp
  | fault f => simp at he

/-- An operation that ends after one call reports exactly the code of that call. -/
theorem ErrorMeansUnchanged.of_call {ρ : Type} (provider : EsysPcrProvider σ)
    (answer : σ → ρ × σ) (request : EsysRequest) (rc : ρ → TssRc) (operation : ByteString)
    {completed : ρ → Adapter σ α}
    (hcompleted : ∀ r w, ((completed r w).1).Succeeds) (w : World σ) :
    ErrorMeansUnchanged (callBackend answer (fun r => .esys request (rc r)) >>= fun r =>
      if rc r ≠ tss2RcSuccess then provider.returnTssError (rc r) operation else completed r) w := by
  intro e he
  rcases hanswer : answer w.backend with ⟨r, b⟩
  by_cases hrc : rc r = tss2RcSuccess
  · obtain ⟨a, hvalue⟩ := hcompleted r (w.after b [.esys request (rc r)])
    simp only [Program.bind_apply, callBackend_apply, hanswer, Program.resume_value, hrc, ne_eq,
      not_true_eq_false, if_false] at he
    rw [hrc, he] at hvalue
    cases hvalue
  · simp [hanswer, hrc]

/-! ## Operations that keep the promise -/

section Kept

variable (provider : EsysPcrProvider σ) (w : World σ)

/-- An allocation that fails has changed nothing: its one request is its last step that can
fail. -/
theorem allocate_errorMeansUnchanged (banks : List (Bank build)) :
    ErrorMeansUnchanged (provider.allocate build banks) w :=
  .lift_bind _ fun _ => .lift_bind _ fun _ => .lift_bind _ fun _ =>
    .of_call provider _ _ AllocateAnswer.rc _ (fun _ _ => by simp) w

/-- So it is with an extend. -/
theorem extend_errorMeansUnchanged (index : Index) (digests : List DigestValue) :
    ErrorMeansUnchanged (provider.extend build index digests) w :=
  .lift_bind _ fun _ => .lift_bind _ fun _ => .lift_bind _ fun _ =>
    .of_call provider _ _ id _ (fun _ _ => by simp) w

/-- So it is with a reset. -/
theorem reset_errorMeansUnchanged (index : Index) :
    ErrorMeansUnchanged (provider.reset index) w :=
  .lift_bind _ fun _ => .of_call provider _ _ id _ (fun _ _ => by simp) w

/-- So it is with a policy. -/
theorem setAuthPolicy_errorMeansUnchanged (index : Index) (policyAlg : HashAlgorithm)
    (policyDigest : List UInt8) :
    ErrorMeansUnchanged (provider.setAuthPolicy build index policyAlg policyDigest) w :=
  .lift_bind _ fun _ => .lift_bind _ fun _ => .lift_bind _ fun _ =>
    .of_call provider _ _ id _ (fun _ _ => by simp) w

end Kept

/-! ## Operations that break it -/

/-- The event was applied, but its digests are missing or cannot be decoded. -/
def EventDigestsLost (build : BuildOptions) (answer : EventAnswer) : Prop :=
  answer.rc = tss2RcSuccess ∧ ∀ t, answer.digests = some t → ¬AcceptsDigests build t

/-- The new authorization value was applied, but the session was not updated. -/
def SessionUpdateLost (currentRc rc updateRc : TssRc) : Prop :=
  currentRc = tss2RcSuccess ∧ rc = tss2RcSuccess ∧ updateRc ≠ tss2RcSuccess

/-- An event fails after a success exactly when its digests are lost. -/
theorem eventResult_unexpected_iff {answer : EventAnswer} (hrc : answer.rc = tss2RcSuccess) :
    (∃ e, EsysPcrProvider.eventResult build answer = .unexpected e) ↔
      EventDigestsLost build answer := by
  rcases hdigests : answer.digests with _ | t
  · simp [EsysPcrProvider.eventResult, EventDigestsLost, hrc, hdigests, fail]
  · rcases toDomainDigests_exact build t with ⟨haccepts, hrun⟩ | ⟨hrefused, e, hrun⟩
    · simp [EsysPcrProvider.eventResult, EventDigestsLost, hrc, hdigests, hrun, haccepts]
    · simp [EsysPcrProvider.eventResult, EventDigestsLost, hrc, hdigests, hrun, hrefused]

/-- An event can fail after the TPM has measured it: when the answer has no digests or they are
not accepted. -/
theorem event_errorMeansUnchanged_iff (provider : EsysPcrProvider σ) (w : World σ) (index : Index)
    (eventData : List UInt8) :
    ErrorMeansUnchanged (provider.event build index eventData) w ↔
      ¬(provider.esys.isSome = true ∧ eventData.length ≤ 1024 ∧ EventDigestsLost build
        (provider.api.pcrEvent provider.esys (pcrHandle index) esysTrPassword esysTrNone esysTrNone
          (encodedEvent eventData) w.backend).1) := by
  by_cases hchecks : provider.esys.isSome = true ∧ eventData.length ≤ 1024
  swap
  · obtain ⟨e, he⟩ : (provider.event build index eventData).Rejects w :=
      EsysPcrProvider.event_rejected w hchecks
    exact iff_of_true (by simp [ErrorMeansUnchanged, he])
      fun h => hchecks ⟨h.1, h.2.1⟩
  rcases hanswer : provider.api.pcrEvent provider.esys (pcrHandle index) esysTrPassword esysTrNone
    esysTrNone (encodedEvent eventData) w.backend with ⟨answer, b⟩
  have hrun : provider.event build index eventData w = _ :=
    EsysPcrProvider.event_run w hchecks.1 hchecks.2 hanswer
  by_cases hrc : answer.rc = tss2RcSuccess
  · have hkept : ErrorMeansUnchanged (provider.event build index eventData) w ↔
        ¬∃ e, EsysPcrProvider.eventResult build answer = .unexpected e := by
      simp [ErrorMeansUnchanged, hrun, hrc, EsysRequest.changesPcr]
    rw [hkept, eventResult_unexpected_iff hrc]
    simp [hchecks]
  · exact iff_of_true (by simp [ErrorMeansUnchanged, hrun, hrc]) fun h => hrc h.2.2.1

/-- An authorization value can fail after the TPM has set it: when the second update of the
session fails. -/
theorem setAuthValue_errorMeansUnchanged_iff (provider : EsysPcrProvider σ) (w : World σ)
    (index : Index) (auth : List UInt8) {currentRc rc updateRc : TssRc} {b₁ b₂ b₃ : σ}
    (hcurrent : provider.api.trSetAuth provider.esys (pcrHandle index) .zeroed w.backend =
      (currentRc, b₁))
    (hset : provider.api.pcrSetAuthValue provider.esys (pcrHandle index) esysTrPassword esysTrNone
      esysTrNone (encodedSizedDigest []) b₁ = (rc, b₂))
    (hupdate : provider.api.trSetAuth provider.esys (pcrHandle index) .zeroed b₂ =
      (updateRc, b₃)) :
    ErrorMeansUnchanged (provider.setAuthValue index auth) w ↔
      ¬(provider.esys.isSome = true ∧ auth = [] ∧ SessionUpdateLost currentRc rc updateRc) := by
  by_cases hchecks : provider.esys.isSome = true ∧ auth = []
  swap
  · obtain ⟨e, he⟩ : (provider.setAuthValue index auth).Rejects w :=
      EsysPcrProvider.setAuthValue_rejected w hchecks
    exact iff_of_true (by simp [ErrorMeansUnchanged, he])
      fun h => hchecks ⟨h.1, h.2.1⟩
  obtain ⟨hesys, rfl⟩ := hchecks
  have hrun := EsysPcrProvider.setAuthValue_run w hesys hcurrent hset hupdate
  by_cases hrc₁ : currentRc = tss2RcSuccess
  swap
  · simp [ErrorMeansUnchanged, hrun, SessionUpdateLost, hrc₁, EsysRequest.changesPcr]
  by_cases hrc₂ : rc = tss2RcSuccess
  swap
  · simp [ErrorMeansUnchanged, hrun, SessionUpdateLost, hrc₁, hrc₂, EsysRequest.changesPcr]
  by_cases hrc₃ : updateRc = tss2RcSuccess <;>
    simp [ErrorMeansUnchanged, hrun, SessionUpdateLost, hrc₁, hrc₂, hrc₃, hesys,
      EsysPcrProvider.statusResult, EsysRequest.changesPcr]

/-! ## The promise, exactly -/

/-- The operation passes its checks, its command is applied, and what follows fails. -/
def EsysPcrProvider.AppliesThenFails (provider : EsysPcrProvider σ) (w : World σ) :
    PcrCommand build → Prop
  | .event index eventData =>
      provider.esys.isSome = true ∧ eventData.length ≤ 1024 ∧ EventDigestsLost build
        (provider.api.pcrEvent provider.esys (pcrHandle index) esysTrPassword esysTrNone esysTrNone
          (encodedEvent eventData) w.backend).1
  | .setAuthValue index auth =>
      let current := provider.api.trSetAuth provider.esys (pcrHandle index) .zeroed w.backend
      let set := provider.api.pcrSetAuthValue provider.esys (pcrHandle index) esysTrPassword
        esysTrNone esysTrNone (encodedSizedDigest []) current.2
      let update := provider.api.trSetAuth provider.esys (pcrHandle index) .zeroed set.2
      provider.esys.isSome = true ∧ auth = [] ∧ SessionUpdateLost current.1 set.1 update.1
  | _ => False

/-- **When an error means that nothing changed.**  For every operation, every
argument and every backend: exactly when the command is not one that is applied
and then fails. -/
theorem error_means_unchanged_iff (provider : EsysPcrProvider σ) (command : PcrCommand build)
    (w : World σ) :
    ErrorMeansUnchanged (provider.issue command) w ↔ ¬provider.AppliesThenFails w command := by
  cases command with
  | allocate banks =>
      exact iff_of_true ((errorMeansUnchanged_discard _ w).mpr
        (allocate_errorMeansUnchanged provider w banks)) not_false
  | event index eventData =>
      exact (errorMeansUnchanged_discard _ w).trans
        (event_errorMeansUnchanged_iff provider w index eventData)
  | extend index digests =>
      exact iff_of_true (extend_errorMeansUnchanged provider w index digests) not_false
  | reset index => exact iff_of_true (reset_errorMeansUnchanged provider w index) not_false
  | setAuthPolicy index policyAlg policyDigest =>
      exact iff_of_true
        (setAuthPolicy_errorMeansUnchanged provider w index policyAlg policyDigest) not_false
  | setAuthValue index auth =>
      exact setAuthValue_errorMeansUnchanged_iff provider w index auth rfl rfl rfl

/-- An event that the TPM extended into PCR 7 is returned as an error, because no
digests came back with the success. -/
theorem error_means_unchanged_fails :
    ¬ErrorMeansUnchanged
      (EsysPcrProvider.event ⟨false⟩ ⟨EsysApi.inert, some ⟨0⟩, .noop, none⟩ 7 [1, 2, 3])
      (⟨(), 1, []⟩ : World Unit) := by
  rw [event_errorMeansUnchanged_iff]
  exact not_not.mpr ⟨rfl, by decide, rfl, nofun⟩

end Tpmkit
