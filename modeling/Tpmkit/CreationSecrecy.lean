import Tpmkit.ContextCreation

/-!
# What a creation reveals of its configuration

The outcome of a creation and its records, up to the destruction of what it
created, are functions of the answers that its calls received.  Of the
configuration they depend on the startup mode and the redacted name alone.
-/

namespace Tpmkit

open Checked ByteStrings

variable {σ σ' : Type}

/-- A creation, and the destruction of what it created. -/
def createThenDestroy (config : TpmContextConfig) (tctiApi : TctiLoaderApi σ) (api : EsysApi σ)
    (linked : LinkedApi σ) : Adapter σ Unit := do
  let context ← createContextFromConfig config tctiApi api linked
  context.destroy linked

/-- The names of the two configurations are logged alike: they are the same known
name, or neither is a known name. -/
def SameLoggedName (config config' : ByteString) : Prop :=
  (tctiName config = tctiName config' ∧ isKnownTctiName (tctiName config) = true) ∨
    (isKnownTctiName (tctiName config) = false ∧ isKnownTctiName (tctiName config') = false)

theorem SameLoggedName.sanitized_eq {config config' : ByteString}
    (h : SameLoggedName config config') (hvalid : ValidConfig config)
    (hvalid' : ValidConfig config') : sanitizedTctiName config = sanitizedTctiName config' := by
  rw [sanitizedTctiName_of_valid hvalid, sanitizedTctiName_of_valid hvalid']
  rcases h with ⟨hname, hknown⟩ | ⟨hcustom, hcustom'⟩
  · rw [← hname]
  · rw [hcustom, hcustom']
    rfl

/-! ## Outcome and records from the answers -/

/-- How a creation with these answers ends. -/
def creationOutcome (answers : List CreationAnswer) : Outcome Unit :=
  match answers.findSome? CreationAnswer.failure with
  | none => .value ()
  | some failure => .unexpected failure.error

/-- What is logged up to the destruction. -/
def creationRecords (terms : CreationTerms) (answers : List CreationAnswer) : List LogRecord :=
  tctiRecord Events.tctiConfiguring (ascii "string") terms.name ::
    (answers.flatMap terms.told ++
      if (answers.findSome? CreationAnswer.failure).isNone then [finalizedRecord] else [])

/-- The destruction of a context logs one record. -/
theorem records_destroy (context : TctiContext) (deleter : TctiDeleter)
    (esys : Option EsysContext) (log : Logger) (api : EsysApi σ) (linked : LinkedApi σ)
    (w : World σ) :
    ∃ events, (TpmContext.destroy linked
        ⟨some ⟨⟨some context, some deleter⟩, esys, log, api⟩⟩ w).2.trace = w.trace ++ events ∧
      records events = [finalizedRecord] := by
  have hquiet := (Quiet.log log finalizedRecord).append ((Quiet.destroyEvents api esys).append
    (.deleterEvents linked deleter context (api.destroyedState esys w.backend)))
  refine ⟨_, ?_, hquiet.records⟩
  simp [TpmContext.destroy, Impl.destroy, UniqueTcti.destroy_apply]

section Creation

variable {config : TpmContextConfig} (tctiApi : TctiLoaderApi σ) (api : EsysApi σ)
  (linked : LinkedApi σ) (w : World σ)

/-- **A creation from its answers.** -/
theorem createThenDestroy_eq (h : config.Valid) :
    let answers := receivedAnswers config tctiApi api linked w
    (fun _ => ()) <$> (createContextFromConfig config tctiApi api linked w).1 =
        creationOutcome answers ∧
      records (w.eventsSince (createThenDestroy config tctiApi api linked w).2) =
        creationRecords (.ofConfig config tctiApi api) answers := by
  intro answers
  let terms := CreationTerms.ofConfig config tctiApi api
  let steps := creationSteps config tctiApi api linked w
  have hreason : answers.findSome? CreationAnswer.failure =
      (Attempts.failing CreationStep.succeeded steps).bind fun step => step.2.failure := by
    have hmade : (Attempts.made CreationStep.succeeded steps).findSome?
        (fun step => step.2.failure) = (Attempts.failing CreationStep.succeeded steps).bind
          fun step => step.2.failure := Attempts.findSome?_made (fun _ => rfl) steps
    rw [← hmade]
    exact List.findSome?_map
  have htold : answers.flatMap terms.told =
      (Attempts.made CreationStep.succeeded steps).flatMap fun step => terms.told step.2 :=
    List.flatMap_map ..
  obtain ⟨result, w', hrun⟩ : ∃ result w',
    createContextFromConfig config tctiApi api linked w = (result, w') := ⟨_, _, rfl⟩
  rcases createContextFromConfig_follows tctiApi api linked w h with
    ⟨esys, events, hsucceeds, hvalue, htrace⟩ | ⟨failure, events, hfails, herror, htrace⟩
  · rw [Attempts.failing_eq_none_iff.mpr hsucceeds.all, Option.bind_none] at hreason
    simp only [hrun] at hvalue htrace ⊢
    subst hvalue
    obtain ⟨closing, hclosed, hfinalized⟩ := records_destroy ⟨w.nextHandle⟩ .finalizeLoadedTcti esys
      (effectiveLogger config.log) api linked w'
    have hlife : (createThenDestroy config tctiApi api linked w).2.trace = w.trace ++
        (configuringEvents (effectiveLogger config.log) config.tcti ++ events ++ closing) := by
      rw [createThenDestroy, Program.bind_apply, hrun, Program.resume_value, hclosed, htrace,
        List.append_assoc]
    refine ⟨by rw [creationOutcome, hreason]; rfl, ?_⟩
    rw [World.eventsSince_of_trace hlife, records_append, records_append, hsucceeds.follows.records,
      hfinalized, creationRecords, hreason, htold]
    rfl
  · obtain ⟨step, hfailing, hfailure⟩ := hfails.failing
    rw [hfailing, Option.bind_some, hfailure] at hreason
    simp only [hrun] at herror htrace ⊢
    subst herror
    have hlife : (createThenDestroy config tctiApi api linked w).2.trace = w.trace ++
        (configuringEvents (effectiveLogger config.log) config.tcti ++ events) := by
      rw [createThenDestroy, Program.bind_apply, hrun, Program.resume_unexpected, htrace]
    refine ⟨by rw [creationOutcome, hreason]; rfl, ?_⟩
    rw [World.eventsSince_of_trace hlife, records_append, hfails.follows.records, creationRecords,
      hreason, htold]
    simp [terms, steps, configuringEvents, CreationTerms.ofConfig]

/-- A configuration that is refused leads to no record. -/
theorem records_of_not_valid (h : ¬config.Valid) :
    records (w.eventsSince (createThenDestroy config tctiApi api linked w).2) = [] := by
  obtain ⟨e, _, hrun⟩ := createContextFromConfig_of_not_valid tctiApi api linked w h
  rw [createThenDestroy, Program.bind_apply, hrun, Program.resume_unexpected,
    World.eventsSince_self, records_nil]

end Creation

/-- **A creation reveals a known module name at most.**  Two creations from valid
configurations that are logged under the same name, with the same startup mode,
end alike and log the same up to the destruction, when their calls receive the
same answers.  A configuration that is not valid leads to no record. -/
theorem creation_reveals_known_name :
    (∀ (config config' : TpmContextConfig) (tctiApi : TctiLoaderApi σ)
      (tctiApi' : TctiLoaderApi σ') (api : EsysApi σ) (api' : EsysApi σ') (linked : LinkedApi σ)
      (linked' : LinkedApi σ') (w : World σ) (w' : World σ'),
      config.Valid → config'.Valid → SameLoggedName config.tcti config'.tcti →
      config.startup = config'.startup → tctiApi.decodeError = tctiApi'.decodeError →
      api.decodeError = api'.decodeError →
      receivedAnswers config tctiApi api linked w =
        receivedAnswers config' tctiApi' api' linked' w' →
      (fun _ => ()) <$> (createContextFromConfig config tctiApi api linked w).1 =
          (fun _ => ()) <$> (createContextFromConfig config' tctiApi' api' linked' w').1 ∧
        records (w.eventsSince (createThenDestroy config tctiApi api linked w).2) =
          records (w'.eventsSince (createThenDestroy config' tctiApi' api' linked' w').2)) ∧
    ∀ (config : TpmContextConfig) (tctiApi : TctiLoaderApi σ) (api : EsysApi σ)
      (linked : LinkedApi σ) (w : World σ), ¬config.Valid →
      records (w.eventsSince (createThenDestroy config tctiApi api linked w).2) = [] := by
  refine ⟨?_, fun config tctiApi api linked w => records_of_not_valid tctiApi api linked w⟩
  intro config config' tctiApi tctiApi' api api' linked linked' w w' hvalid hvalid' hname hmode
    htcti hapi hanswers
  have hterms : CreationTerms.ofConfig config tctiApi api =
      CreationTerms.ofConfig config' tctiApi' api' := by
    rw [CreationTerms.ofConfig, CreationTerms.ofConfig,
      hname.sanitized_eq hvalid.tcti hvalid'.tcti, hmode, htcti, hapi]
  obtain ⟨houtcome, hrecords⟩ := createThenDestroy_eq tctiApi api linked w hvalid
  obtain ⟨houtcome', hrecords'⟩ := createThenDestroy_eq tctiApi' api' linked' w' hvalid'
  exact ⟨by rw [houtcome, houtcome', hanswers], by rw [hrecords, hrecords', hterms, hanswers]⟩

/-- Two configurations with different names that are not known ones. -/
theorem creation_reveals_known_name_custom :
    let config : ByteString → TpmContextConfig := fun tcti => ⟨tcti, .clear, some (.client 0)⟩
    let logged : ByteString → List LogRecord := fun tcti =>
      records (World.eventsSince ⟨(), 0, []⟩
        (createThenDestroy (config tcti) .obliging .inert .obliging ⟨(), 0, []⟩).2)
    logged (ascii "cmd:run a") = logged (ascii "pcap:b") := by
  intro config logged
  have hvalid : (config (ascii "cmd:run a")).Valid :=
    ⟨by decide, by decide, ascii "cmd", ascii "run a", by decide, by decide, by decide⟩
  have hvalid' : (config (ascii "pcap:b")).Valid :=
    ⟨by decide, by decide, ascii "pcap", ascii "b", by decide, by decide, by decide⟩
  exact (creation_reveals_known_name.1 (config (ascii "cmd:run a"))
    (config (ascii "pcap:b")) .obliging .obliging .inert .inert .obliging .obliging
    (⟨(), 0, []⟩ : World Unit) (⟨(), 0, []⟩ : World Unit) hvalid hvalid'
    (Or.inr ⟨by decide, by decide⟩) rfl rfl rfl rfl).2

end Tpmkit
