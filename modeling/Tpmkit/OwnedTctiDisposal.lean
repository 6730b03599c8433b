import Tpmkit.ContextRuns

/-!
# Failed creations from an owned TCTI context

`create_context_from_owned_tcti` consumes the handle it is given, so each error
it returns must have disposed of it: through its finalizer if it has one, and
after the ESYS context that was opened over it.  The startup mode is checked
before the finalizer, and that is where a null one can be called.
-/

namespace Tpmkit

open Checked ByteStrings Pcr

variable {σ : Type}

/-! ## What is disposed of -/

/-- A disposal: an ESYS context is finalized, or a TCTI context goes to a finalizer. -/
def isDisposal : Event → Bool
  | .esysFinalize _ => true
  | .tctiDelete _ _ => true
  | _ => false

/-- The disposals among some events, in order. -/
def disposals (events : List Event) : List Event := events.filter isDisposal

/-- The ESYS contexts that were initialized among some events. -/
def initializedContexts (events : List Event) : List EsysContext :=
  events.filterMap fun
    | .esysInitialize _ rc esys => if rc = tss2RcSuccess then esys else none
    | _ => none

/-- Every disposal is a lifecycle event. -/
theorem disposals_lifecycle (events : List Event) :
    disposals (lifecycle events) = disposals events := by
  simp only [disposals, lifecycle, List.filter_filter]
  refine List.filter_congr fun event _ => ?_
  cases event <;> simp [isDisposal, isLifecycleEvent]

theorem initializedContexts_lifecycle (events : List Event) :
    initializedContexts (lifecycle events) = initializedContexts events := by
  simp only [initializedContexts, lifecycle, List.filterMap_filter]
  refine List.filterMap_congr fun event _ => ?_
  cases event <;> simp [isLifecycleEvent]

/-- The handle went to its finalizer once, after every ESYS context over it had
been finalized once; without a handle or without a finalizer nothing was called. -/
def SafelyDisposed (tcti : UniqueTcti) (events : List Event) : Prop :=
  disposals events =
    match tcti.handle, tcti.deleter with
    | some context, some deleter =>
        (initializedContexts events).map .esysFinalize ++ [.tctiDelete deleter context]
    | _, _ => []

/-- A call that takes `tcti` never calls a null finalizer, and an error it
returns comes after safe disposal. -/
def DisposesSafely (x : Adapter σ (TpmContext σ)) (tcti : UniqueTcti) (w : World σ) : Prop :=
  (x w).1 ≠ .fault .nullCall ∧
    ∀ e, (x w).1 = .unexpected e → SafelyDisposed tcti (w.eventsSince (x w).2)

/-! ## The exits -/

/-- An error that was returned after these events. -/
theorem disposesSafely_of_error {x : Adapter σ (TpmContext σ)} {tcti : UniqueTcti} {w : World σ}
    {e : Error} {b : σ} {events : List Event} (hrun : x w = (.unexpected e, w.after b events))
    (hdisposed : SafelyDisposed tcti events) : DisposesSafely x tcti w := by
  refine ⟨by simp [hrun], fun _ _ => ?_⟩
  rwa [hrun, World.eventsSince_after]

/-- An error that was returned before anything was called. -/
theorem disposesSafely_of_rejects {x : Adapter σ (TpmContext σ)} {tcti : UniqueTcti}
    {w : World σ} (hrun : x.Rejects w) (hnull : tcti.handle = none ∨ tcti.deleter = none) :
    DisposesSafely x tcti w := by
  obtain ⟨e, he⟩ := hrun
  refine ⟨by simp [he], fun _ _ => ?_⟩
  rw [he, World.eventsSince_self]
  obtain ⟨_ | context, _ | deleter⟩ := tcti
  · rfl
  · rfl
  · rfl
  · simp at hnull

theorem safelyDisposed_deleterEvents (linked : LinkedApi σ) (deleter : TctiDeleter)
    (context : TctiContext) (b : σ) :
    SafelyDisposed ⟨some context, some deleter⟩ (deleterEvents linked deleter context b) := by
  unfold SafelyDisposed
  rw [← disposals_lifecycle, ← initializedContexts_lifecycle, lifecycle_deleterEvents]
  rfl

/-- The exits of the factory: an ESYS context that was opened is closed first. -/
theorem EndsCreation.disposesSafely {x : Adapter σ (TpmContext σ)} {w : World σ}
    {context : TctiContext} {deleter : TctiDeleter} {log : Logger} {api : EsysApi σ}
    (hfinalize : api.finalize.isSome) (h : EndsCreation w context deleter log api (x w)) :
    DisposesSafely x ⟨some context, some deleter⟩ w := by
  refine ⟨h.noFault _, fun e he => ?_⟩
  obtain ⟨rc, esys, w', b, events, hobtained, ⟨_, hrun, _⟩ | ⟨_, hrun, hevents⟩⟩ := h
  · rw [hrun] at he
    cases he
  rw [hrun, hobtained.eventsSince]
  unfold SafelyDisposed
  rw [← disposals_lifecycle, ← initializedContexts_lifecycle, hevents,
    EsysApi.destroyEvents_of_finalize hfinalize]
  by_cases hrc : rc = tss2RcSuccess
  · cases esys <;> simp [hrc, disposals, initializedContexts, isDisposal]
  · cases esys <;> simp [hrc, disposals, initializedContexts, isDisposal]

/-- With a startup mode outside the enumeration the parameter is destroyed as it is. -/
theorem disposesSafely_of_invalid_startup {startup : StartupMode}
    (hstartup : isValidStartupMode startup = false) (tcti : UniqueTcti) (log : Option Logger)
    (api : EsysApi σ) (linked : LinkedApi σ) (w : World σ) :
    DisposesSafely (createContextFromOwnedTcti tcti startup log api linked) tcti w ↔
      ¬(tcti.handle.isSome ∧ tcti.deleter = none) := by
  obtain ⟨handle | context, deleter⟩ := tcti
  · exact iff_of_true (disposesSafely_of_rejects
      ⟨⟨.inputError, "TPM startup mode is invalid"⟩,
        by simp [createContextFromOwnedTcti, hstartup]⟩ (Or.inl rfl)) (by simp)
  cases deleter with
  | none =>
      refine iff_of_false (fun h => h.1 ?_) (by simp)
      simp [createContextFromOwnedTcti, hstartup, UniqueTcti.destroy]
  | some deleter =>
      refine iff_of_true (disposesSafely_of_error
        (b := deletedState linked deleter context w.backend)
        (e := ⟨.inputError, "TPM startup mode is invalid"⟩) ?_
        (safelyDisposed_deleterEvents linked deleter context w.backend)) (by simp)
      simp [createContextFromOwnedTcti, hstartup, UniqueTcti.destroy_apply]

/-- Past the startup mode the null checks come before every destructor. -/
theorem disposesSafely_of_valid_startup {startup : StartupMode}
    (hstartup : isValidStartupMode startup = true) (tcti : UniqueTcti) (log : Option Logger)
    {api : EsysApi σ} (hfinalize : api.finalize.isSome) (linked : LinkedApi σ) (w : World σ) :
    DisposesSafely (createContextFromOwnedTcti tcti startup log api linked) tcti w := by
  obtain ⟨handle | context, deleter⟩ := tcti
  · exact disposesSafely_of_rejects
      ⟨⟨.inputError, "TCTI owned handle must not be null"⟩,
        by simp [createContextFromOwnedTcti, hstartup]⟩ (Or.inl rfl)
  cases deleter with
  | none =>
      exact disposesSafely_of_rejects
        ⟨⟨.inputError, "TCTI owned handle deleter must not be null"⟩,
          by simp [createContextFromOwnedTcti, hstartup]⟩ (Or.inr rfl)
  | some deleter =>
      exact (createContextFromOwnedTcti_ends context deleter hstartup log api linked
        w).disposesSafely hfinalize

/-- **Disposal of an owned TCTI context.**  Over a table that has a `finalize`
entry, a creation disposes of the handle safely unless its startup mode is
outside the enumeration and its non-null handle has a null finalizer. -/
theorem owned_tcti_disposed_iff (tcti : UniqueTcti) (startup : StartupMode)
    (log : Option Logger) (api : EsysApi σ) (linked : LinkedApi σ) (w : World σ)
    (hfinalize : api.finalize.isSome) :
    DisposesSafely (createContextFromOwnedTcti tcti startup log api linked) tcti w ↔
      ¬(isValidStartupMode startup = false ∧ tcti.handle.isSome ∧ tcti.deleter = none) := by
  cases hstartup : isValidStartupMode startup with
  | false => simpa using disposesSafely_of_invalid_startup hstartup tcti log api linked w
  | true =>
      exact iff_of_true (disposesSafely_of_valid_startup hstartup tcti log hfinalize linked w)
        (by simp)

/-- A backend that opens an ESYS context and refuses to start the TPM. -/
def EsysApi.refusingStartup : EsysApi σ :=
  { EsysApi.inert with startup := fun _ _ b => (0xa000a, b) }

/-- A refused startup: the ESYS context is finalized, then the handle. -/
theorem owned_tcti_disposed_refused_startup :
    (EsysApi.refusingStartup : EsysApi Unit).finalize.isSome ∧
    (DisposesSafely (createContextFromOwnedTcti ⟨some ⟨0⟩, some (.client 5)⟩ .clear none
        .refusingStartup .obliging) ⟨some ⟨0⟩, some (.client 5)⟩ ⟨(), 1, []⟩ ↔
      ¬(isValidStartupMode .clear = false ∧ (some (⟨0⟩ : TctiContext)).isSome ∧
        some (TctiDeleter.client 5) = none)) ∧
    disposals (createContextFromOwnedTcti ⟨some ⟨0⟩, some (.client 5)⟩ .clear none
        .refusingStartup .obliging ⟨(), 1, []⟩).2.trace =
      [.esysFinalize ⟨1⟩, .tctiDelete (.client 5) ⟨0⟩] :=
  ⟨rfl, owned_tcti_disposed_iff ⟨some ⟨0⟩, some (.client 5)⟩ .clear none .refusingStartup
    .obliging ⟨(), 1, []⟩ rfl, by decide⟩

/-- Startup mode 7 and a handle without a finalizer: the null finalizer is called. -/
theorem owned_tcti_null_finalizer_called :
    ¬∀ (tcti : UniqueTcti) (startup : StartupMode) (log : Option Logger) (api : EsysApi Unit)
      (linked : LinkedApi Unit) (w : World Unit), api.finalize.isSome →
      DisposesSafely (createContextFromOwnedTcti tcti startup log api linked) tcti w := by
  intro h
  exact (h ⟨some ⟨0⟩, none⟩ ⟨7⟩ none .inert .obliging ⟨(), 1, []⟩ rfl).1 rfl

end Tpmkit
