import Tpmkit.ProviderExchange

/-!
# The observer and the measurements

An observer of the PCR provider is told of a measurement exactly when the
operation that made it returns success, with the index, the data and the very
result that the caller gets.  It is told nothing else, and nothing else of a
run depends on it.

`in_memory_pcr_observer`, the observer that the library ships for tests, keeps
what it is told, so after a run it holds the successful measurements in order.
-/

namespace Tpmkit

open Checked Pcr

variable {σ : Type} {build : BuildOptions}

/-! ## Callbacks -/

/-- The event is a call of the observer. -/
def Event.isCallback : Event → Bool
  | .onExtend .. => true
  | .onEvent .. => true
  | _ => false

/-- The callback that an operation with this result calls for. -/
def measurement (observer : Observer) :
    ProviderOp build → Outcome (ProviderValue build) → List Event
  | .extend index digests, .value _ => [.onExtend observer index digests]
  | .event index eventData, .value (.measured result) =>
      [.onEvent observer index eventData result]
  | _, _ => []

/-- The provider without its observer. -/
def EsysPcrProvider.unobserved (provider : EsysPcrProvider σ) : EsysPcrProvider σ :=
  { provider with observer := none }

/-! ## One operation -/

/-- A failure is reported to the logger alone. -/
theorem isCallback_of_mem_failureEvents {log : Option Logger} {rc : TssRc}
    {operation : ByteStrings.ByteString} {errorEvent : EventDescriptor}
    {decoder : Option TssErrorDecoder} {e : Event}
    (he : e ∈ failureEvents log rc operation errorEvent decoder) : e.isCallback = false := by
  unfold failureEvents at he
  split at he
  · obtain rfl := List.mem_singleton.mp he
    rfl
  · cases he

theorem isCallback_of_mem_freeEvents {response : Response} {e : Event}
    (he : e ∈ response.freeEvents) : e.isCallback = false := by
  obtain ⟨buffer, rfl⟩ := Response.exists_of_mem_freeEvents he
  rfl

theorem isCallback_of_mem_calls {calls : List AnsweredCall} {e : Event}
    (he : e ∈ calls.map AnsweredCall.event) : e.isCallback = false := by
  obtain ⟨request, rc, rfl⟩ := AnsweredCall.exists_of_mem_events he
  rfl

theorem measurement_of_ne_value {op : ProviderOp build} {result : Outcome (ProviderValue build)}
    (h : ∀ value, result ≠ .value value) (observer : Observer) :
    measurement observer op result = [] := by
  cases result with
  | value value => exact absurd rfl (h value)
  | unexpected e => cases op <;> rfl
  | fault f => cases op <;> rfl

variable (provider : EsysPcrProvider σ)

/-- An operation announces exactly the callback that its result calls for. -/
theorem filter_announce (op : ProviderOp build) (last : AnsweredCall) :
    (provider.announce op last).filter Event.isCallback =
      provider.observer.toList.flatMap fun observer =>
        measurement observer op (EsysPcrProvider.conclude op last.2) := by
  by_cases hrc : last.2.rc = tss2RcSuccess
  · rw [provider.announce_success op hrc]
    rcases EsysPcrProvider.conclude op last.2 with value | e | f
    · cases op <;> cases value <;> cases hobserver : provider.observer <;>
        simp [EsysPcrProvider.completedEvents, EsysPcrProvider.notifyEvents, measurement,
          Logger.events, Event.isCallback, hobserver]
    · cases op <;> simp [measurement]
    · cases op <;> simp [measurement]
  · rw [provider.announce_failure op hrc, EsysPcrProvider.conclude_of_ne_success op hrc,
      List.filter_eq_nil_iff.mpr fun e he => by
        simp [isCallback_of_mem_failureEvents he]]
    cases op <;> simp [measurement]

/-- Without its observer the provider announces the rest. -/
theorem announce_unobserved (op : ProviderOp build) (last : AnsweredCall) :
    provider.unobserved.announce op last =
      (provider.announce op last).filter fun e => !e.isCallback := by
  by_cases hrc : last.2.rc = tss2RcSuccess
  · rw [provider.announce_success op hrc, provider.unobserved.announce_success op hrc]
    rcases EsysPcrProvider.conclude op last.2 with value | e | f
    · cases op <;> cases value <;> cases hobserver : provider.observer <;>
        simp [EsysPcrProvider.unobserved, EsysPcrProvider.completedEvents,
          EsysPcrProvider.notifyEvents, Logger.events, Event.isCallback, hobserver]
    · rfl
    · rfl
  · rw [provider.announce_failure op hrc, provider.unobserved.announce_failure op hrc]
    refine (List.filter_eq_self.mpr fun e he => ?_).symm
    simp [isCallback_of_mem_failureEvents he]

theorem prepare_unobserved (op : ProviderOp build) :
    provider.unobserved.prepare op = provider.prepare op := by
  cases op <;> rfl

/-- The events of one operation, the callbacks apart and without them. -/
theorem perform_observed (op : ProviderOp build) (w : World σ) :
    ∃ b events, (provider.perform op w).2 = w.after b events ∧
      events.filter Event.isCallback = (provider.observer.toList.flatMap fun observer =>
        measurement observer op (provider.perform op w).1) ∧
      ∀ w' : World σ, w'.backend = w.backend →
        provider.unobserved.perform op w' = ((provider.perform op w).1,
          w'.after b (events.filter fun e => !e.isCallback)) := by
  rcases provider.perform_cases op with ⟨prepared, hprepare, hperform⟩ | ⟨hstops, hperform⟩
  · have hunobserved : provider.unobserved.perform op = provider.unobserved.carryOut op prepared := by
      rw [EsysPcrProvider.perform_eq, prepare_unobserved, hprepare]
      rfl
    rw [hperform, hunobserved]
    refine ⟨_, _, rfl, ?_, fun w' hbackend => ?_⟩
    · rw [List.filter_append, List.filter_append, filter_announce,
        List.filter_eq_nil_iff.mpr fun e he => by simp [isCallback_of_mem_calls he],
        List.filter_eq_nil_iff.mpr fun e he => by simp [isCallback_of_mem_freeEvents he]]
      simp [EsysPcrProvider.carryOut]
    · rw [List.filter_append, List.filter_append, ← announce_unobserved,
        List.filter_eq_self.mpr fun e he => by simp [isCallback_of_mem_calls he],
        List.filter_eq_self.mpr fun e he => by simp [isCallback_of_mem_freeEvents he]]
      simp only [EsysPcrProvider.carryOut, hbackend]
      rfl
  · have hunobserved : ∀ w', provider.unobserved.perform op w' =
        ((fun _ => .completed) <$> provider.prepare op, w') := by
      intro w'
      rw [EsysPcrProvider.perform_eq, prepare_unobserved]
      cases hprepare : provider.prepare op with
      | value prepared => exact absurd hprepare (hstops prepared)
      | unexpected e => rfl
      | fault f => rfl
    refine ⟨w.backend, [], by rw [hperform, World.after_nil], ?_, fun w' hbackend => ?_⟩
    · rw [hperform]
      simp [measurement_of_ne_value (EsysPcrProvider.stopped_ne_value hstops)]
    · rw [hperform, hunobserved, ← hbackend]
      simp

/-! ## Whole runs -/

/-- The callbacks seen so far. -/
def World.callbacks (w : World σ) : List Event := w.trace.filter Event.isCallback

/-- Both worlds were reached from `w` with the same events, the callbacks apart. -/
def SameButCallbacks (w observed unobserved : World σ) : Prop :=
  ∃ b events, observed = w.after b events ∧
    unobserved = w.after b (events.filter fun e => !e.isCallback)

/-- The callbacks of a run, and the run without them. -/
theorem series_observed (observer : Observer) (hobserver : provider.observer = some observer)
    (ops : List (ProviderOp build)) (w : World σ) :
    SameButCallbacks w (Program.series provider.perform ops w).2
        (Program.series provider.unobserved.perform ops w).2 ∧
      (Program.series provider.unobserved.perform ops w).1 =
        (Program.series provider.perform ops w).1 ∧
      (w.eventsSince (Program.series provider.perform ops w).2).filter Event.isCallback =
        ((ops.zip (Program.series provider.perform ops w).1).flatMap fun entry =>
          measurement observer entry.1 entry.2) := by
  have hgain : ∀ (op : ProviderOp build) (w' : World σ), (provider.perform op w').2.callbacks =
      w'.callbacks ++ measurement observer op (provider.perform op w').1 := by
    intro op w'
    obtain ⟨b, events, hworld, hcallbacks, _⟩ := perform_observed provider op w'
    rw [hworld, World.callbacks, World.after_trace, List.filter_append, hcallbacks]
    simp [hobserver, World.callbacks]
  have hstep : ∀ (op : ProviderOp build) (w₁ w₂ : World σ), SameButCallbacks w w₁ w₂ →
      SameButCallbacks w (provider.perform op w₁).2 (provider.unobserved.perform op w₂).2 ∧
        (provider.unobserved.perform op w₂).1 = (provider.perform op w₁).1 := by
    intro op w₁ w₂ hsame
    obtain ⟨b, events, rfl, rfl⟩ := hsame
    obtain ⟨b', events', hworld, _, htwin⟩ := perform_observed provider op (w.after b events)
    rw [htwin (w.after b (events.filter fun e => !e.isCallback)) rfl]
    refine ⟨⟨b', events ++ events', ?_, ?_⟩, rfl⟩
    · rw [hworld, World.after_after]
    · rw [World.after_after, List.filter_append]
  have hstart : SameButCallbacks w w w := ⟨w.backend, [], by simp, by simp⟩
  obtain ⟨hsame, hresults⟩ := Program.series_simulates hstep ops hstart
  refine ⟨hsame, hresults, ?_⟩
  obtain ⟨b, events, hrun, _⟩ := hsame
  have hview : (Program.series provider.perform ops w).2.callbacks = w.callbacks ++
      ((ops.zip (Program.series provider.perform ops w).1).flatMap fun entry =>
        measurement observer entry.1 entry.2) := Program.series_view hgain ops w
  rw [hrun, World.callbacks, World.after_trace, List.filter_append] at hview
  rw [hrun, World.eventsSince_after]
  exact List.append_cancel_left hview

/-- **The observer sees exactly the successful measurements.**  For every run of
operations, whatever their arguments and the backend: the callbacks are those of
the measurements that returned success, in order, and without the observer the
run is the same but for the callbacks. -/
theorem observer_sees_measurements (api : EsysApi σ) (esys : Option EsysContext) (log : Logger)
    (observer : Observer) (ops : List (ProviderOp build)) (w : World σ) :
    let provider : EsysPcrProvider σ := ⟨api, esys, log, some observer⟩
    let run := Program.series provider.perform ops w
    let unobservedRun := Program.series provider.unobserved.perform ops w
    (w.eventsSince run.2).filter Event.isCallback =
        ((ops.zip run.1).flatMap fun entry => measurement observer entry.1 entry.2) ∧
      unobservedRun.1 = run.1 ∧ unobservedRun.2.backend = run.2.backend ∧
      w.eventsSince unobservedRun.2 = (w.eventsSince run.2).filter fun e => !e.isCallback := by
  intro provider run unobservedRun
  obtain ⟨⟨b, events, hrun, hunobserved⟩, hresults, hcallbacks⟩ :=
    series_observed provider observer rfl ops w
  refine ⟨hcallbacks, hresults, ?_, ?_⟩
  · rw [hunobserved, hrun]
    rfl
  · rw [hunobserved, hrun, World.eventsSince_after, World.eventsSince_after]

/-! ## The in-memory observer -/

/-- `pcr_measurement_operation`. -/
inductive PcrMeasurementOperation where
  | extend
  | event
deriving DecidableEq, Repr

/-- `pcr_measurement_record`. -/
structure PcrMeasurementRecord where
  index : Index
  operation : PcrMeasurementOperation
  digests : List DigestValue
  eventData : List UInt8
deriving DecidableEq, Repr

/-- `in_memory_pcr_observer`. -/
structure InMemoryPcrObserver where
  records : List PcrMeasurementRecord
deriving DecidableEq, Repr

namespace InMemoryPcrObserver

/-- `make_event_record`. -/
def makeEventRecord (index : Index) (eventData : List UInt8) (result : EventResult) :
    PcrMeasurementRecord :=
  ⟨index, .event, result.digests, eventData⟩

/-- `make_extend_record`. -/
def makeExtendRecord (index : Index) (digests : List DigestValue) : PcrMeasurementRecord :=
  ⟨index, .extend, digests, []⟩

/-- `on_event`, when the record can be allocated. -/
def onEvent (o : InMemoryPcrObserver) (index : Index) (eventData : List UInt8)
    (result : EventResult) : InMemoryPcrObserver :=
  ⟨o.records ++ [makeEventRecord index eventData result]⟩

/-- `on_extend`, when the record can be allocated. -/
def onExtend (o : InMemoryPcrObserver) (index : Index) (digests : List DigestValue) :
    InMemoryPcrObserver :=
  ⟨o.records ++ [makeExtendRecord index digests]⟩

/-- `clear`. -/
def clear (_ : InMemoryPcrObserver) : InMemoryPcrObserver := ⟨[]⟩

/-- `count`. -/
def count (o : InMemoryPcrObserver) : Nat := o.records.length

/-- `entries`. -/
def entries (o : InMemoryPcrObserver) : List PcrMeasurementRecord := o.records

/-- `entries_by_index`. -/
def entriesByIndex (o : InMemoryPcrObserver) (index : Index) : List PcrMeasurementRecord :=
  o.records.filter fun entry => entry.index = index

/-- The observer takes a callback; it sees no other event. -/
def receive (o : InMemoryPcrObserver) : Event → InMemoryPcrObserver
  | .onExtend _ index digests => o.onExtend index digests
  | .onEvent _ index eventData result => o.onEvent index eventData result
  | _ => o

/-- The records that an operation with this result calls for. -/
def recordsOf : ProviderOp build → Outcome (ProviderValue build) → List PcrMeasurementRecord
  | .extend index digests, .value _ => [makeExtendRecord index digests]
  | .event index eventData, .value (.measured result) => [makeEventRecord index eventData result]
  | _, _ => []

/-- Only callbacks count. -/
theorem foldl_receive_filter (events : List Event) (o : InMemoryPcrObserver) :
    (events.filter Event.isCallback).foldl receive o = events.foldl receive o := by
  induction events generalizing o with
  | nil => rfl
  | cons event events ih =>
      cases event with
      | onExtend => exact ih _
      | onEvent => exact ih _
      | _ => exact ih o

theorem foldl_receive_measurement (observer : Observer) (op : ProviderOp build)
    (result : Outcome (ProviderValue build)) (o : InMemoryPcrObserver) :
    (measurement observer op result).foldl receive o = ⟨o.records ++ recordsOf op result⟩ := by
  rcases result with value | e | f
  · cases op <;> cases value <;> simp [measurement, recordsOf, receive, onExtend, onEvent]
  · cases op <;> simp [measurement, recordsOf]
  · cases op <;> simp [measurement, recordsOf]

/-- **The measurement log.**  After a run the in-memory observer holds the
records of the measurements that returned success, in order. -/
theorem records_of_run (provider : EsysPcrProvider σ) (observer : Observer)
    (hobserver : provider.observer = some observer) (ops : List (ProviderOp build)) (w : World σ)
    (o : InMemoryPcrObserver) :
    (w.eventsSince (Program.series provider.perform ops w).2).foldl receive o =
      ⟨o.records ++ ((ops.zip (Program.series provider.perform ops w).1).flatMap fun entry =>
        recordsOf entry.1 entry.2)⟩ := by
  obtain ⟨_, _, hcallbacks⟩ := series_observed provider observer hobserver ops w
  rw [← foldl_receive_filter, hcallbacks]
  generalize ops.zip (Program.series provider.perform ops w).1 = entries
  induction entries generalizing o with
  | nil => simp
  | cons entry entries ih =>
      rw [List.flatMap_cons, List.foldl_append, foldl_receive_measurement, ih]
      simp

end InMemoryPcrObserver

end Tpmkit
