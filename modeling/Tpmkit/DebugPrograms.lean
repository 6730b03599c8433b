import Tpmkit.BankScans
import Tpmkit.HexCoding
import Tpmkit.IndexRange

/-!
# Programs about one bank

The other programs of `examples/pcr`, from the provider on.  `extend_debug`, `event_debug`
and `observer_trace` reset PCR 16 and measure into it, the last two under an observer of
their own; `reset_debug` reads it on both sides of a reset; `read_sha256` and
`read_all_sha256` read several registers with one command; `active_banks` scans the banks
with a loop of its own; `auth_value_rejected` counts on an error.

The texts that the programs decode and print are hexadecimal.  A digest given on the
command line is decoded before the context is opened.
-/

namespace Tpmkit.Examples

open Checked ByteStrings Pcr ExtendRegisters AscendingSet

variable {σ : Type} {build : BuildOptions}

/-! ## The observers of the programs -/

/-- `observed_measurement`. -/
structure ObservedMeasurement where
  digestCount : Nat
  eventSize : Nat
  operation : ByteString
deriving DecidableEq, Repr

/-- `tracing_pcr_observer`. -/
structure TracingPcrObserver where
  records : List ObservedMeasurement
deriving DecidableEq, Repr

namespace TracingPcrObserver

/-- `on_event`, when the record can be allocated. -/
def onEvent (o : TracingPcrObserver) (eventData : List UInt8) (result : EventResult) :
    TracingPcrObserver :=
  ⟨o.records ++ [⟨result.digests.length, eventData.length, ascii "event"⟩]⟩

/-- `on_extend`, when the record can be allocated. -/
def onExtend (o : TracingPcrObserver) (digests : List DigestValue) : TracingPcrObserver :=
  ⟨o.records ++ [⟨digests.length, 0, ascii "extend"⟩]⟩

/-- The observer takes a callback; it sees no other event. -/
def receive (o : TracingPcrObserver) : Event → TracingPcrObserver
  | .onExtend _ _ digests => o.onExtend digests
  | .onEvent _ _ eventData result => o.onEvent eventData result
  | _ => o

end TracingPcrObserver

/-- `counting_pcr_observer`. -/
structure CountingPcrObserver where
  eventCount : Nat
  extendCount : Nat
deriving DecidableEq, Repr

namespace CountingPcrObserver

/-- `on_event`. -/
def onEvent (o : CountingPcrObserver) : CountingPcrObserver :=
  { o with eventCount := o.eventCount + 1 }

/-- `on_extend`. -/
def onExtend (o : CountingPcrObserver) : CountingPcrObserver :=
  { o with extendCount := o.extendCount + 1 }

/-- The observer takes a callback; it sees no other event. -/
def receive (o : CountingPcrObserver) : Event → CountingPcrObserver
  | .onExtend .. => o.onExtend
  | .onEvent .. => o.onEvent
  | _ => o

end CountingPcrObserver

/-! ## The programs -/

/-- What a program returns from `main`. -/
inductive ExitStatus where
  | success
  | failure
deriving DecidableEq, Repr

/-- `default_platform_pcr_count`. -/
def defaultPlatformPcrCount : UInt32 := 24

/-- What an observer that was set up in the world `w` has gathered since. -/
def gathered {τ : Type} (receive : τ → Event → τ) (o : τ) (w : World σ) : Adapter σ τ :=
  fun w' => (.value ((w.eventsSince w').foldl receive o), w')

section Programs

variable (build) (provider : EsysPcrProvider σ)

/-- `main` of `extend_debug`, once it has decoded its digest and has its provider. -/
def extendDebug (digestBytes : List UInt8) : Adapter σ (List UInt8) := do
  let size ← .lift (digestSize build .sha256)
  if digestBytes.length ≠ size then
    .returnError ⟨.inputError, "sha256 digest input must be exactly 32 bytes"⟩
  else
    provider.reset Index.debug
    let digest ← .lift (DigestValue.make build .sha256 digestBytes)
    provider.extend build Index.debug [digest]
    readPcrDigest build provider .sha256 Index.debug

/-- `main` of `reset_debug`, once it has its provider. -/
def resetDebug : Adapter σ (List UInt8 × List UInt8) := do
  let before ← readPcrDigest build provider .sha256 Index.debug
  provider.reset Index.debug
  let after ← readPcrDigest build provider .sha256 Index.debug
  return (before, after)

/-- What `event_debug` prints. -/
structure EventReport where
  digests : List (List UInt8)
  current : List (List UInt8)
  observed : CountingPcrObserver
deriving DecidableEq, Repr

/-- `main` of `event_debug`, once it has its provider. -/
def eventDebug (eventText : ByteString) : Adapter σ EventReport := fun start =>
  (do
    provider.reset Index.debug
    let event ← provider.event build Index.debug (makeEventBytes eventText)
    let selection ← .lift (Selection.make build .sha256 {Index.debug})
    let read ← provider.read build selection
    let observed ← gathered CountingPcrObserver.receive ⟨0, 0⟩ start
    return ⟨(event.digests.filter fun d => d.algorithm = .sha256).map DigestValue.digest,
      read.values.map fun v => v.digest.digest, observed⟩ : Adapter σ EventReport) start

/-- `main` of `observer_trace`, once it has decoded its digest and has its provider. -/
def observerTrace (digestBytes : List UInt8) (eventText : ByteString) :
    Adapter σ (List ObservedMeasurement × ExitStatus) := fun start =>
  (do
    provider.reset Index.debug
    let digest ← .lift (DigestValue.make build .sha256 digestBytes)
    provider.extend build Index.debug [digest]
    let _ ← provider.event build Index.debug (makeEventBytes eventText)
    let observer ← gathered TracingPcrObserver.receive ⟨[]⟩ start
    return (observer.records, if observer.records.length = 2 then .success else .failure) :
      Adapter σ (List ObservedMeasurement × ExitStatus)) start

/-- `main` of `read_all_sha256`, once it has its provider. -/
def readAllSha256 : Adapter σ (ReadResult build × ExitStatus) := do
  let indices ← .lift (makeIndexRange 0 defaultPlatformPcrCount)
  let selection ← .lift (Selection.make build .sha256 indices)
  let read ← provider.read build selection
  return (read, if read.values.isEmpty then .failure else .success)

/-- `main` of `read_sha256`, once it has its provider. -/
def readSha256 : Adapter σ (ReadResult build) := do
  let selection ← .lift
    (Selection.make build .sha256 {Index.firmware0, Index.firmware7, Index.debug})
  provider.read build selection

/-- One pass of the loop of `active_banks`: a line for the bank, and its digest when the
bank is active. -/
def reportBank (lines : List (HashAlgorithm × Option (List UInt8))) (algorithm : HashAlgorithm) :
    Adapter σ (List (HashAlgorithm × Option (List UInt8))) := do
  let selection ← .lift (Selection.make build algorithm {Index.debug})
  let read ← (provider.read build selection).attempt
  match read with
  | .error _ => return lines ++ [(algorithm, none)]
  | .ok read =>
      match read.values with
      | [] => return lines ++ [(algorithm, none)]
      | value :: _ => return lines ++ [(algorithm, some value.digest.digest)]

/-- `main` of `active_banks`, once it has its provider. -/
def activeBanks : Adapter σ (List (HashAlgorithm × Option (List UInt8)) × ExitStatus) := do
  let lines ← allHashAlgorithms.foldlM (reportBank build provider) []
  return (lines, if 0 < lines.countP (fun line => line.2.isSome) then .success else .failure)

/-- `main` of `auth_value_rejected`, once it has its provider. -/
def authValueRejected : Adapter σ ExitStatus := do
  let rejected ← (provider.setAuthValue Index.debug (List.replicate 16 0xa5)).attempt
  match rejected with
  | .ok _ => return .failure
  | .error e => if e.category ≠ .resourceError then return .failure else return .success

end Programs

/-! ## What the observers gather -/

/-- What the tracing observer keeps of a record. -/
def observedMeasurement (r : PcrMeasurementRecord) : ObservedMeasurement :=
  ⟨r.digests.length, r.eventData.length,
    match r.operation with
    | .extend => ascii "extend"
    | .event => ascii "event"⟩

/-- The tracing observer beside the in-memory one. -/
def TracingPcrObserver.beside (o : InMemoryPcrObserver) : TracingPcrObserver :=
  ⟨o.records.map observedMeasurement⟩

/-- The counting observer beside the in-memory one. -/
def CountingPcrObserver.beside (o : InMemoryPcrObserver) : CountingPcrObserver :=
  ⟨o.records.countP fun r => r.operation = .event, o.records.countP fun r => r.operation = .extend⟩

theorem TracingPcrObserver.receive_beside (o : InMemoryPcrObserver) (e : Event) :
    (beside o).receive e = beside (o.receive e) := by
  cases e with
  | onExtend =>
      simp [receive, onExtend, beside, InMemoryPcrObserver.receive, InMemoryPcrObserver.onExtend,
        InMemoryPcrObserver.makeExtendRecord, observedMeasurement]
  | onEvent =>
      simp [receive, onEvent, beside, InMemoryPcrObserver.receive, InMemoryPcrObserver.onEvent,
        InMemoryPcrObserver.makeEventRecord, observedMeasurement]
  | _ => rfl

theorem CountingPcrObserver.receive_beside (o : InMemoryPcrObserver) (e : Event) :
    (beside o).receive e = beside (o.receive e) := by
  cases e with
  | onExtend =>
      simp [receive, onExtend, beside, InMemoryPcrObserver.receive, InMemoryPcrObserver.onExtend,
        InMemoryPcrObserver.makeExtendRecord]
  | onEvent =>
      simp [receive, onEvent, beside, InMemoryPcrObserver.receive, InMemoryPcrObserver.onEvent,
        InMemoryPcrObserver.makeEventRecord]
  | _ => rfl

/-- The in-memory observer would have gathered these records since `start`. -/
def Logged (start w : World σ) (records : List PcrMeasurementRecord) : Prop :=
  ∃ b events, w = start.after b events ∧ events.foldl InMemoryPcrObserver.receive ⟨[]⟩ = ⟨records⟩

section Logged

variable {provider : EsysPcrProvider σ} {observer : Observer} {start w w' : World σ}
  {records : List PcrMeasurementRecord}

theorem Logged.refl (w : World σ) : Logged w w [] := ⟨w.backend, [], w.after_nil.symm, rfl⟩

/-- An operation adds the record that its result calls for. -/
theorem Logged.perform (hobserver : provider.observer = some observer)
    (h : Logged start w records) (op : ProviderOp build) {result : Outcome (ProviderValue build)}
    (hrun : provider.perform op w = (result, w')) :
    Logged start w' (records ++ InMemoryPcrObserver.recordsOf op result) := by
  obtain ⟨b, events, rfl, hfold⟩ := h
  obtain ⟨b', events', hworld, hcallbacks, _⟩ := perform_observed provider op (start.after b events)
  rw [hrun] at hworld hcallbacks
  obtain rfl := hworld
  refine ⟨b', events ++ events', World.after_after .., ?_⟩
  rw [List.foldl_append, hfold, ← InMemoryPcrObserver.foldl_receive_filter, hcallbacks, hobserver]
  simp [InMemoryPcrObserver.foldl_receive_measurement]

theorem Logged.traced (h : Logged start w records) :
    (start.eventsSince w).foldl TracingPcrObserver.receive ⟨[]⟩ =
      ⟨records.map observedMeasurement⟩ := by
  obtain ⟨b, events, rfl, hfold⟩ := h
  have hbeside : events.foldl TracingPcrObserver.receive (.beside ⟨[]⟩) =
      .beside (events.foldl InMemoryPcrObserver.receive ⟨[]⟩) :=
    List.foldl_hom TracingPcrObserver.beside TracingPcrObserver.receive_beside
  rw [World.eventsSince_after]
  rw [hfold] at hbeside
  exact hbeside

theorem Logged.counted (h : Logged start w records) :
    (start.eventsSince w).foldl CountingPcrObserver.receive ⟨0, 0⟩ =
      ⟨records.countP fun r => r.operation = .event,
        records.countP fun r => r.operation = .extend⟩ := by
  obtain ⟨b, events, rfl, hfold⟩ := h
  have hbeside : events.foldl CountingPcrObserver.receive (.beside ⟨[]⟩) =
      .beside (events.foldl InMemoryPcrObserver.receive ⟨[]⟩) :=
    List.foldl_hom CountingPcrObserver.beside CountingPcrObserver.receive_beside
  rw [World.eventsSince_after]
  rw [hfold] at hbeside
  exact hbeside

/-- A run adds the records of its operations. -/
theorem Logged.series (hobserver : provider.observer = some observer)
    (h : Logged start w records) (ops : List (ProviderOp build)) :
    Logged start (Program.series provider.perform ops w).2 (records ++
      (ops.zip (Program.series provider.perform ops w).1).flatMap fun entry =>
        InMemoryPcrObserver.recordsOf entry.1 entry.2) := by
  induction ops generalizing w records with
  | nil => simpa [Program.series] using h
  | cons op ops ih =>
      have hfirst : Logged start (provider.perform op w).2
          (records ++ InMemoryPcrObserver.recordsOf op (provider.perform op w).1) :=
        h.perform hobserver op rfl
      have hrest := ih hfirst
      rw [List.append_assoc] at hrest
      exact hrest

/-- A run of `observer_trace` that comes to its end. -/
theorem observerTrace_records (hobserver : provider.observer = some observer)
    {digestBytes : List UInt8} {eventText : ByteString} {lines : List ObservedMeasurement}
    {status : ExitStatus}
    (h : observerTrace build provider digestBytes eventText w = (.value (lines, status), w')) :
    status = .success ∧ ∃ n, lines =
      [⟨1, 0, ascii "extend"⟩, ⟨n, eventText.length, ascii "event"⟩] := by
  obtain ⟨_, w₁, hreset, h⟩ := Program.bind_eq_value.mp h
  obtain ⟨digest, w₂, hdigest, h⟩ := Program.bind_eq_value.mp h
  obtain rfl := (Prod.mk.inj hdigest).2
  obtain ⟨_, w₃, hextend, h⟩ := Program.bind_eq_value.mp h
  obtain ⟨event, w₄, hevent, h⟩ := Program.bind_eq_value.mp h
  obtain ⟨gathered, w₅, hgathered, h⟩ := Program.bind_eq_value.mp h
  have hlogged := (Logged.refl w).perform hobserver (.reset Index.debug : ProviderOp build)
    (Program.map_of_value _ hreset)
  have hlogged := hlogged.perform hobserver (.extend Index.debug [digest] : ProviderOp build)
    (Program.map_of_value _ hextend)
  have hlogged := hlogged.perform hobserver
    (.event Index.debug (makeEventBytes eventText) : ProviderOp build)
    (Program.map_of_value _ hevent)
  have htraced := hlogged.traced
  obtain ⟨hvalue, rfl⟩ := Prod.mk.inj hgathered
  rw [htraced] at hvalue
  obtain rfl := Result.value.inj hvalue
  cases h
  refine ⟨by simp [InMemoryPcrObserver.recordsOf], event.digests.length, ?_⟩
  simp [InMemoryPcrObserver.recordsOf, InMemoryPcrObserver.makeExtendRecord,
    InMemoryPcrObserver.makeEventRecord, observedMeasurement, makeEventBytes_eq]

/-- The digests of one bank. -/
theorem digestsOf_entries (a : HashAlgorithm) (digests : List DigestValue) :
    digestsOf a (digests.map DigestValue.entry) =
      (digests.filter fun d => d.algorithm = a).map DigestValue.digest := by
  rw [digestsOf, List.filter_map, List.map_map]
  rfl

/-- The steps of a run of `event_debug` that comes to its end. -/
structure EventRun (build : BuildOptions) (provider : EsysPcrProvider σ) (eventText : ByteString)
    (w : World σ) (report : EventReport) : Prop where
  counted : ∀ observer, provider.observer = some observer → report.observed = ⟨1, 0⟩
  ran : ∃ w₁ w₂ event read, provider.reset Index.debug w = (.value (), w₁) ∧
    provider.event build Index.debug eventText w₁ = (.value event, w₂) ∧
    (provider.read build ⟨.sha256, {Index.debug}, trivial⟩ w₂).1 = .value read ∧
    report.digests = digestsOf .sha256 (event.digests.map DigestValue.entry) ∧
    report.current = read.values.map fun v => v.digest.digest

theorem eventDebug_run {eventText : ByteString} {report : EventReport}
    (h : eventDebug build provider eventText w = (.value report, w')) :
    EventRun build provider eventText w report := by
  obtain ⟨_, w₁, hreset, h⟩ := Program.bind_eq_value.mp h
  obtain ⟨event, w₂, hevent, h⟩ := Program.bind_eq_value.mp h
  obtain ⟨selection, w₃, hselection, h⟩ := Program.bind_eq_value.mp h
  have henabled : HashAlgorithm.sha256.Enabled build := trivial
  rw [Program.lift_apply, Selection.make_of_enabled henabled] at hselection
  cases hselection
  obtain ⟨read, w₄, hread, h⟩ := Program.bind_eq_value.mp h
  obtain ⟨observed, w₅, hobserved, h⟩ := Program.bind_eq_value.mp h
  cases h
  rw [makeEventBytes_eq] at hevent
  refine ⟨fun observer hobserver => ?_, w₁, w₂, event, read, hreset, hevent,
    congrArg Prod.fst hread, ?_, rfl⟩
  · have hlogged := (Logged.refl w).perform hobserver (.reset Index.debug : ProviderOp build)
      (Program.map_of_value _ hreset)
    have hlogged := hlogged.perform hobserver (.event Index.debug eventText : ProviderOp build)
      (Program.map_of_value _ hevent)
    have hlogged := hlogged.perform hobserver (.read ⟨.sha256, {Index.debug}, henabled⟩)
      (Program.map_of_value _ hread)
    have hcounted := hlogged.counted
    obtain ⟨hvalue, rfl⟩ := Prod.mk.inj hobserved
    rw [hcounted] at hvalue
    obtain rfl := Result.value.inj hvalue
    simp [InMemoryPcrObserver.recordsOf, InMemoryPcrObserver.makeEventRecord]
  · exact (digestsOf_entries .sha256 event.digests).symm

variable (provider) in
/-- **What the observers of the programs gather.**  Over every run of operations the tracing
observer has a line for each measurement that returned success, in order, and the counting
observer has their numbers.  So the test at the end of `observer_trace` never fails: the
program prints one line for its digest and one for its event.  `event_debug` counts one event
and nothing else. -/
theorem observers_agree (hobserver : provider.observer = some observer) (w : World σ) :
    (∀ ops : List (ProviderOp build),
      let run := Program.series provider.perform ops w
      let records := (ops.zip run.1).flatMap fun entry =>
        InMemoryPcrObserver.recordsOf entry.1 entry.2
      (w.eventsSince run.2).foldl TracingPcrObserver.receive ⟨[]⟩ =
          ⟨records.map observedMeasurement⟩ ∧
        (w.eventsSince run.2).foldl CountingPcrObserver.receive ⟨0, 0⟩ =
          ⟨records.countP fun r => r.operation = .event,
            records.countP fun r => r.operation = .extend⟩) ∧
    (∀ digestBytes eventText lines status w',
      observerTrace build provider digestBytes eventText w = (.value (lines, status), w') →
        status = .success ∧ ∃ n, lines =
          [⟨1, 0, ascii "extend"⟩, ⟨n, eventText.length, ascii "event"⟩]) ∧
    ∀ eventText report w', eventDebug build provider eventText w = (.value report, w') →
      report.observed = ⟨1, 0⟩ := by
  refine ⟨fun ops => ?_, fun digestBytes eventText lines status w' h =>
    observerTrace_records hobserver h, fun eventText report w' h =>
      (eventDebug_run h).counted observer hobserver⟩
  have hlogged := (Logged.refl w).series hobserver ops
  rw [List.nil_append] at hlogged
  exact ⟨hlogged.traced, hlogged.counted⟩

theorem observers_agree_two_banks :
    ∃ lines w', observerTrace ⟨false⟩ twoBankProvider (List.replicate 32 9) (ascii "abc")
        twoBankWorld = (.value (lines, .success), w') ∧
      ∃ n, lines = [⟨1, 0, ascii "extend"⟩, ⟨n, 3, ascii "event"⟩] := by
  have hresult : (observerTrace ⟨false⟩ twoBankProvider (List.replicate 32 9) (ascii "abc")
      twoBankWorld).1 =
        .value ([⟨1, 0, ascii "extend"⟩, ⟨1, 3, ascii "event"⟩], .success) := by
    decide +kernel
  have hrun := Program.eq_of_fst_eq hresult
  exact ⟨_, _, hrun, ((observers_agree twoBankProvider rfl twoBankWorld).2.1
    _ _ _ _ _ hrun).2⟩

end Logged

/-! ## What the programs print -/

section Printed

variable {provider : EsysPcrProvider σ} {w w' : World σ}

/-- The steps of a run of `extend_debug` that comes to its end. -/
theorem extendDebug_run {digestBytes current : List UInt8}
    (h : extendDebug build provider digestBytes w = (.value current, w')) :
    digestBytes.length = 32 ∧ ∃ w₁ w₂, provider.reset Index.debug w = (.value (), w₁) ∧
      provider.extend build Index.debug [⟨.sha256, digestBytes⟩] w₁ = (.value (), w₂) ∧
      readPcrDigest build provider .sha256 Index.debug w₂ = (.value current, w') := by
  have henabled : HashAlgorithm.sha256.Enabled build := trivial
  obtain ⟨size, w₀, hsize, h⟩ := Program.bind_eq_value.mp h
  rw [Program.lift_apply, digestSize_of_enabled henabled] at hsize
  cases hsize
  split at h
  · cases h
  next hlength =>
    have hlength := not_not.mp hlength
    obtain ⟨_, w₁, hreset, h⟩ := Program.bind_eq_value.mp h
    obtain ⟨digest, w₂, hdigest, h⟩ := Program.bind_eq_value.mp h
    rw [Program.lift_apply, DigestValue.make_of_length henabled hlength] at hdigest
    cases hdigest
    obtain ⟨_, w₃, hextend, hread⟩ := Program.bind_eq_value.mp h
    exact ⟨hlength, w₁, w₃, hreset, hextend, hread⟩

/-- A text that decodes to a digest has two characters for each of its bytes. -/
theorem length_of_decodeHex {text : StringView} {bytes : List UInt8}
    (h : decodeHex text = .value bytes) : text.chars.length = 2 * bytes.length := by
  rcases decodeHex_cases text with ⟨_, bytes', hvalue, htext⟩ | ⟨_, message, herror⟩
  · rw [h] at hvalue
    obtain rfl := Result.value.inj hvalue
    rw [← length_flatMap_hexText, htext, List.length_map]
  · rw [h] at herror
    cases herror

variable (tpm : MeasuringTpm provider.api)

/-- **What the programs about PCR 16 print.**  On a TPM that measures and has its SHA-256
bank active, a program that comes to its end prints the right values: `extend_debug`, for a
text that decodes to the digest, prints the 64 digits of the hash of the reset value followed
by that digest; `reset_debug` prints what the register held, and its reset value;
`event_debug` prints the hash of the event text, and for every value that it reads the hash
of the reset value followed by it. -/
theorem debug_values_printed
    (hactive : tpm.active .sha256) (w : World σ) :
    (∀ text bytes current w', decodeHex text = .value bytes →
      extendDebug build provider bytes w = (.value current, w') →
        text.chars.length = 64 ∧ current.length = 32 ∧ ∀ maxSize, 64 ≤ maxSize →
          encodeHex maxSize current = .value ((tpm.hash .sha256
            (tpm.initial .sha256 Index.debug ++ bytes)).flatMap hexText)) ∧
    (∀ before after w', resetDebug build provider w = (.value (before, after), w') →
      before = (tpm.registers w.backend).digest .sha256 Index.debug ∧
        after = tpm.initial .sha256 Index.debug) ∧
    ∀ eventText report w', eventDebug build provider eventText w = (.value report, w') →
      report.digests = [tpm.hash .sha256 eventText] ∧
        ∀ value ∈ report.current, value = tpm.hash .sha256
          (tpm.initial .sha256 Index.debug ++ tpm.hash .sha256 eventText) := by
  have henabled : HashAlgorithm.sha256.Enabled build := trivial
  refine ⟨fun text bytes current w' hdecode h => ?_, fun before after w' h => ?_,
    fun eventText report w' h => ?_⟩
  · obtain ⟨hlength, w₁, w₂, hreset, hextend, hread⟩ := extendDebug_run h
    have hregister := (readPcrDigest_register tpm hread).2 hactive
    have hcurrent : current.length = 32 := by
      rw [hregister]
      exact (tpm.registers w₂.backend).length_eq .sha256 Index.debug
    have hwell : ∀ d ∈ [(⟨.sha256, bytes⟩ : DigestValue)], d.WellFormed build := by
      intro d hd
      obtain rfl := List.mem_singleton.mp hd
      exact ⟨henabled, hlength⟩
    have hvalue : current =
        tpm.hash .sha256 (tpm.initial .sha256 Index.debug ++ bytes) := by
      rw [hregister, register_of_extend tpm hextend hwell hactive henabled,
        register_of_reset tpm hreset hactive]
      rfl
    refine ⟨by rw [length_of_decodeHex hdecode, hlength], hcurrent, fun maxSize hmax => ?_⟩
    rw [encodeHex_eq, if_pos ⟨by rw [hcurrent]; decide, by omega⟩, hvalue]
  · obtain ⟨_, w₁, hbefore, h⟩ := Program.bind_eq_value.mp h
    obtain ⟨_, w₂, hreset, h⟩ := Program.bind_eq_value.mp h
    obtain ⟨_, w₃, hafter, h⟩ := Program.bind_eq_value.mp h
    cases h
    refine ⟨(readPcrDigest_register tpm hbefore).2 hactive, ?_⟩
    rw [(readPcrDigest_register tpm hafter).2 hactive, register_of_reset tpm hreset hactive]
  · obtain ⟨w₁, w₂, event, read, hreset, hevent, hread, hdigests, hcurrent⟩ :=
      (eventDebug_run h).ran
    refine ⟨hdigests.trans (tpm.event_digests hactive henabled (congrArg Prod.fst hevent)), ?_⟩
    intro value hvalue
    rw [hcurrent] at hvalue
    obtain ⟨v, hv, rfl⟩ := List.mem_map.mp hvalue
    obtain ⟨hindex, hdigest⟩ := tpm.read_returns_registers hactive hread v hv
    rw [hdigest, Finset.mem_singleton.mp hindex,
      register_of_event tpm hevent hactive henabled, register_of_reset tpm hreset hactive]

/-- Runs of the three programs, one after another, on a TPM with two banks. -/
theorem debug_values_printed_two_banks :
    ∃ current w₁, extendDebug ⟨false⟩ twoBankProvider (List.replicate 32 9) twoBankWorld =
        (.value current, w₁) ∧
      encodeHex 64 current = .value ((foldedHash .sha256
        (zeroRegister .sha256 Index.debug ++ List.replicate 32 9)).flatMap hexText) ∧
    ∃ before after w₂, resetDebug ⟨false⟩ twoBankProvider w₁ = (.value (before, after), w₂) ∧
      before = w₁.backend.digest .sha256 Index.debug ∧
      after = zeroRegister .sha256 Index.debug ∧
    ∃ report w₃, eventDebug ⟨false⟩ twoBankProvider (ascii "abc") w₂ = (.value report, w₃) ∧
      report.digests = [foldedHash .sha256 (ascii "abc")] ∧
      ∀ value ∈ report.current, value = foldedHash .sha256
        (zeroRegister .sha256 Index.debug ++ foldedHash .sha256 (ascii "abc")) := by
  have hextended : (extendDebug ⟨false⟩ twoBankProvider (List.replicate 32 9) twoBankWorld).1 =
      .value (foldedHash .sha256 (List.replicate 32 0 ++ List.replicate 32 9)) := by
    decide +kernel
  have hextend := Program.eq_of_fst_eq hextended
  have hdecode : decodeHex ⟨(List.replicate 32 (9 : UInt8)).flatMap hexText, by decide⟩ =
      .value (List.replicate 32 9) := by
    decide +kernel
  have hdigits := ((debug_values_printed twoBankTpm rfl _).1 _ _ _ _ hdecode hextend).2.2
  refine ⟨_, _, hextend, hdigits 64 (le_refl 64), ?_⟩
  have hreset : (resetDebug ⟨false⟩ twoBankProvider
      (extendDebug ⟨false⟩ twoBankProvider (List.replicate 32 9) twoBankWorld).2).1 =
        .value (foldedHash .sha256 (List.replicate 32 0 ++ List.replicate 32 9),
          List.replicate 32 0) := by
    decide +kernel
  have hreset := Program.eq_of_fst_eq hreset
  obtain ⟨hbefore, hafter⟩ := (debug_values_printed twoBankTpm rfl _).2.1 _ _ _ hreset
  refine ⟨_, _, _, hreset, hbefore, hafter, ?_⟩
  obtain ⟨report, hevent⟩ : ∃ report, (eventDebug ⟨false⟩ twoBankProvider (ascii "abc")
      (resetDebug ⟨false⟩ twoBankProvider (extendDebug ⟨false⟩ twoBankProvider
        (List.replicate 32 9) twoBankWorld).2).2).1 = .value report := ⟨_, rfl⟩
  have hevent := Program.eq_of_fst_eq hevent
  exact ⟨report, _, hevent, (debug_values_printed twoBankTpm rfl _).2.2 _ _ _ hevent⟩

/-! ## Scans that report -/

/-- The banks of the lines that report an active bank. -/
def activeOf (lines : List (HashAlgorithm × Option (List UInt8))) : List HashAlgorithm :=
  lines.filterMap fun line => line.2.map fun _ => line.1

theorem activeOf_eq_nil_iff {lines : List (HashAlgorithm × Option (List UInt8))} :
    activeOf lines = [] ↔ ¬0 < lines.countP fun line => line.2.isSome := by
  simp [activeOf, List.filterMap_eq_nil_iff]

variable (provider) in
/-- A pass of `active_banks` asks as `read_pcr_digest` does. -/
theorem reportBank_eq (lines : List (HashAlgorithm × Option (List UInt8)))
    (algorithm : HashAlgorithm) (w : World σ) :
    reportBank build provider lines algorithm w =
      ((readPcrDigest build provider algorithm Index.debug).attempt >>= fun digest =>
        return lines ++ [(algorithm, digest.toOption)]) w := by
  by_cases henabled : algorithm.Enabled build
  swap
  · have hfirst := readPcrDigest_of_not_enabled provider henabled Index.debug w
    simp [reportBank, makeSelection_of_not_enabled henabled, Program.attempt, hfirst]
  simp only [reportBank, readPcrDigest, Selection.make_of_enabled henabled, Program.attempt,
    Program.bind_apply, Program.lift_apply, Program.resume_value]
  rcases provider.read build ⟨algorithm, {Index.debug}, henabled⟩ w with ⟨result, w₁⟩
  cases result with
  | value read =>
      cases hvalues : read.values with
      | nil => simp [hvalues, Except.toOption]
      | cons value values => simp [hvalues, Except.toOption]
  | unexpected e => simp [Except.toOption]
  | fault f => simp

/-- Seen through its active banks, a pass of `active_banks` is one of the scan. -/
theorem reportBank_scans (lines : List (HashAlgorithm × Option (List UInt8)))
    (algorithm : HashAlgorithm) (w : World σ) :
    (activeOf <$> reportBank build provider lines algorithm) w =
      scanBank build provider (activeOf lines) algorithm w := by
  rw [Program.map_apply, reportBank_eq]
  simp only [scanBank, Program.bind_apply]
  rcases (readPcrDigest build provider algorithm Index.debug).attempt w with ⟨result, w₁⟩
  cases result with
  | value digest => cases digest <;> simp [activeOf, Except.toOption]
  | unexpected e => rfl
  | fault f => rfl

variable (provider) in
/-- An attempt to read a digest is one read. -/
theorem attempt_readPcrDigest {algorithm : HashAlgorithm} (h : algorithm.Enabled build)
    (index : Index) (w : World σ) :
    let after := (provider.perform (.read (⟨algorithm, {index}, h⟩ : Selection build)) w).2
    ∃ answer, (readPcrDigest build provider algorithm index).attempt w = (.value answer, after) ∧
      ∀ digest, answer.toOption = some digest →
        readPcrDigest build provider algorithm index w = (.value digest, after) := by
  intro after
  rcases readPcrDigest_cases provider h index w with ⟨digest, _, hrun, _⟩ | ⟨e, hrun⟩
  · refine ⟨.ok digest, Program.attempt_of_value hrun, fun value hvalue => ?_⟩
    obtain rfl := Option.some.inj hvalue
    exact hrun
  · exact ⟨.error e, Program.attempt_of_unexpected hrun, fun value hvalue => nomatch hvalue⟩

/-- What the lines say, and how far the scan got. -/
structure Reported (build : BuildOptions) (provider : EsysPcrProvider σ) (w : World σ)
    (asked : List HashAlgorithm) (lines : List (HashAlgorithm × Option (List UInt8)))
    (w' : World σ) : Prop where
  asked_eq : lines.map Prod.fst = asked
  readsOnly : ReadsOnly build provider w w'
  register : ∀ tpm : MeasuringTpm provider.api, ∀ a digest, (a, some digest) ∈ lines →
    tpm.active a → digest = (tpm.registers w.backend).digest a Index.debug

theorem Reported.reportBank {asked : List HashAlgorithm}
    {lines lines' : List (HashAlgorithm × Option (List UInt8))} {algorithm : HashAlgorithm}
    {w₁ w₂ : World σ} (h : Reported build provider w asked lines w₁)
    (hpass : Examples.reportBank build provider lines algorithm w₁ = (.value lines', w₂)) :
    Reported build provider w (asked ++ [algorithm]) lines' w₂ := by
  by_cases henabled : algorithm.Enabled build
  swap
  · have hfirst := readPcrDigest_of_not_enabled provider henabled Index.debug w₁
    simp [reportBank_eq, Program.attempt, hfirst] at hpass
  obtain ⟨answer, hanswer, hdigest⟩ :=
    attempt_readPcrDigest provider henabled Index.debug w₁
  rw [reportBank_eq, Program.bind_apply, hanswer] at hpass
  cases hpass
  refine ⟨by rw [List.map_append, h.asked_eq]; rfl, h.readsOnly.read, ?_⟩
  intro tpm a value hmem hactive
  rcases List.mem_append.mp hmem with hmem | hmem
  · exact h.register tpm a value hmem hactive
  · obtain ⟨rfl, hvalue⟩ := Prod.mk.inj (List.mem_singleton.mp hmem)
    have hread := (readPcrDigest_register tpm (hdigest value hvalue.symm)).2 hactive
    rw [hread, registers_of_readsOnly tpm h.readsOnly]

/-- **The two scans agree.**  `active_banks` leads through the same commands to the same
banks, or the same exception, as `active_pcr_algorithms`.  It prints a line for each of the
four banks, with what the register of an active bank holds, and it reports a failure exactly
when `multi_bank_extend_debug` and `allocate_banks` find no bank. -/
theorem active_banks_agree (provider : EsysPcrProvider σ) (w : World σ) :
    activePcrAlgorithms build provider w =
        ((fun report => activeOf report.1) <$> activeBanks build provider) w ∧
      ∀ lines status w', activeBanks build provider w = (.value (lines, status), w') →
        lines.map Prod.fst = allHashAlgorithms ∧
        (∀ tpm : MeasuringTpm provider.api, ∀ a digest, (a, some digest) ∈ lines →
          tpm.active a → digest = (tpm.registers w.backend).digest a Index.debug) ∧
        (status = .failure ↔
          multiBankExtendDebug build provider w = (.value .noActiveBanks, w')) ∧
        ∀ addSha384, status = .failure ↔
          allocateBanks build provider addSha384 w = (.value none, w') := by
  have hscan : ∀ w, (activeOf <$> allHashAlgorithms.foldlM (reportBank build provider) []) w =
      activePcrAlgorithms build provider w :=
    Program.map_foldlM reportBank_scans allHashAlgorithms []
  have hagree : activePcrAlgorithms build provider w =
      ((fun report => activeOf report.1) <$> activeBanks build provider) w := by
    rw [← hscan, Program.map_apply, Program.map_apply, activeBanks, Program.bind_apply]
    rcases allHashAlgorithms.foldlM (reportBank build provider) [] w with ⟨result, w'⟩
    cases result <;> rfl
  refine ⟨hagree, fun lines status w' h => ?_⟩
  have hactive := hagree.trans (Program.map_of_value _ h)
  obtain ⟨lines', w₁, hloop, h⟩ := Program.bind_eq_value.mp h
  cases h
  have hreported : Reported build provider w ([] ++ allHashAlgorithms) lines w' :=
    Program.foldlM_invariant (Reported build provider w)
      (fun _ _ _ _ _ _ hread hpass => hread.reportBank hpass)
      ⟨rfl, .refl, fun _ _ _ hmem => absurd hmem List.not_mem_nil⟩ hloop
  have hstatus : (if 0 < lines.countP fun line => line.2.isSome then ExitStatus.success
      else .failure) = .failure ↔ activeOf lines = [] := by
    rw [activeOf_eq_nil_iff]
    by_cases hsome : 0 < lines.countP fun line => line.2.isSome
    · rw [if_pos hsome]
      exact ⟨fun hstatus => (nomatch hstatus), fun hnone => absurd hsome hnone⟩
    · rw [if_neg hsome]
      exact iff_of_true rfl hsome
  refine ⟨hreported.asked_eq, hreported.register, hstatus.trans ⟨fun hnone => ?_, fun hrun => ?_⟩,
    fun addSha384 => hstatus.trans ⟨fun hnone => ?_, fun hrun => ?_⟩⟩
  · simp [multiBankExtendDebug, hactive, hnone]
  · obtain ⟨active, w₂, hfound, hrun⟩ := Program.bind_eq_value.mp hrun
    obtain rfl : active = activeOf lines := Result.value.inj
      (congrArg Prod.fst (hfound.symm.trans hactive))
    split at hrun
    next hempty => exact List.isEmpty_iff.mp hempty
    next =>
      obtain ⟨_, _, _, hrun⟩ := Program.bind_eq_value.mp hrun
      obtain ⟨_, _, _, hrun⟩ := Program.bind_eq_value.mp hrun
      obtain ⟨_, _, _, hrun⟩ := Program.bind_eq_value.mp hrun
      obtain ⟨_, _, _, hrun⟩ := Program.bind_eq_value.mp hrun
      cases hrun
  · simp [allocateBanks, hactive, hnone]
  · obtain ⟨active, w₂, hfound, hrun⟩ := Program.bind_eq_value.mp hrun
    obtain rfl : active = activeOf lines := Result.value.inj
      (congrArg Prod.fst (hfound.symm.trans hactive))
    split at hrun
    next hempty => exact List.isEmpty_iff.mp hempty
    next =>
      obtain ⟨_, _, _, hrun⟩ := Program.bind_eq_value.mp hrun
      obtain ⟨_, _, _, hrun⟩ := Program.bind_eq_value.mp hrun
      cases hrun

/-! ## Reads of several registers -/

/-- The registers of a platform. -/
def platformIndices : Finset Index := Finset.univ.filter fun index => index.val < 24

theorem makeIndexRange_platform :
    makeIndexRange 0 defaultPlatformPcrCount = .value platformIndices := by
  have hfits : (0 : UInt32).toNat + defaultPlatformPcrCount.toNat ≤ 32 := by decide
  obtain ⟨indices, hloop, hmem⟩ := insertIndexLoop hfits
  have hindices : indices = platformIndices := by
    ext index
    rw [hmem, platformIndices, Finset.mem_filter]
    simp [defaultPlatformPcrCount]
  rw [makeIndexRange, validateIndexRange_of_fits (Or.inr hfits), Result.value_bind, hloop, hindices]

/-- A read returns no more digests than a response holds. -/
theorem length_values_le {selection : Selection build} {result : ReadResult build}
    (h : (provider.read build selection w).1 = .value result) : result.values.length ≤ 8 := by
  by_cases hesys : provider.esys.isSome = true
  swap
  · obtain ⟨e, hrun⟩ : (provider.read build selection).Rejects w :=
      EsysPcrProvider.read_rejected w hesys
    rw [hrun] at h
    cases h
  obtain ⟨t, ht, _⟩ := toTpmSelection_encodes selection
  rcases hanswer : provider.api.pcrRead provider.esys esysTrNone esysTrNone esysTrNone t w.backend
    with ⟨answer, b⟩
  rw [EsysPcrProvider.read_run w ht hesys hanswer] at h
  obtain ⟨_, _, values, _, _, _, haccepts, hvalues⟩ := of_readResult_eq_value h
  obtain ⟨hcount, hcard, _⟩ := haccepts
  rw [hvalues, length_readValues (hcard ▸ hcount), ← hcard]
  exact hcount

/-- **One read is not enough for a platform.**  Whatever the TPM answers, `read_all_sha256`
prints at most eight of the 24 registers that it asks for, and leaves out at least sixteen.
On a TPM that measures, both programs print only registers that they ask for, with what
these hold.  `auth_value_rejected` always meets the error that it counts on, and sends
nothing. -/
theorem read_programs_bounded (provider : EsysPcrProvider σ) (w : World σ) :
    (∀ result status w', readAllSha256 build provider w = (.value (result, status), w') →
      result.values.length ≤ 8 ∧
      16 ≤ (platformIndices.filter fun index => index ∉ result.values.map Value.index).card ∧
      (status = .failure ↔ result.values = []) ∧
      ∀ tpm : MeasuringTpm provider.api, tpm.active .sha256 → ∀ v ∈ result.values,
        v.index ∈ platformIndices ∧
          v.digest = ⟨.sha256, (tpm.registers w.backend).digest .sha256 v.index⟩) ∧
    (∀ result w', readSha256 build provider w = (.value result, w') →
      ∀ tpm : MeasuringTpm provider.api, tpm.active .sha256 → ∀ v ∈ result.values,
        (v.index = Index.firmware0 ∨ v.index = Index.firmware7 ∨ v.index = Index.debug) ∧
          v.digest = ⟨.sha256, (tpm.registers w.backend).digest .sha256 v.index⟩) ∧
    authValueRejected provider w = (.value .success, w) := by
  have henabled : HashAlgorithm.sha256.Enabled build := trivial
  refine ⟨fun result status w' h => ?_, fun result w' h => ?_, ?_⟩
  · obtain ⟨indices, w₁, hindices, h⟩ := Program.bind_eq_value.mp h
    rw [Program.lift_apply, makeIndexRange_platform] at hindices
    cases hindices
    obtain ⟨selection, w₂, hselection, h⟩ := Program.bind_eq_value.mp h
    rw [Program.lift_apply, Selection.make_of_enabled henabled] at hselection
    cases hselection
    obtain ⟨read, w₃, hread, h⟩ := Program.bind_eq_value.mp h
    cases h
    have hread := congrArg Prod.fst hread
    have hlength := length_values_le hread
    refine ⟨hlength, ?_, ?_, fun tpm hactive => tpm.read_returns_registers hactive hread⟩
    · have hcard : platformIndices.card = 24 := by decide +kernel
      have hprinted : (result.values.map Value.index).toFinset.card ≤ 8 :=
        (List.toFinset_card_le _).trans (by rwa [List.length_map])
      have hdiff := Finset.le_card_sdiff (result.values.map Value.index).toFinset platformIndices
      have hsame : platformIndices \ (result.values.map Value.index).toFinset =
          platformIndices.filter fun index => index ∉ result.values.map Value.index := by
        ext index
        simp
      rw [hsame] at hdiff
      omega
    · cases result.values <;> simp
  · obtain ⟨selection, w₁, hselection, hread⟩ := Program.bind_eq_value.mp h
    rw [Program.lift_apply, Selection.make_of_enabled henabled] at hselection
    cases hselection
    intro tpm hactive v hv
    obtain ⟨hindex, hdigest⟩ :=
      tpm.read_returns_registers hactive (congrArg Prod.fst hread) v hv
    exact ⟨by simpa using hindex, hdigest⟩
  · cases hesys : provider.esys with
    | none => simp [authValueRejected, EsysPcrProvider.setAuthValue, ensureEsysAvailable, hesys,
        Program.attempt, fail]
    | some esys => simp [authValueRejected, EsysPcrProvider.setAuthValue, ensureEsysAvailable,
        ensureSizedBufferFits, ensureSecureAuthValueTransport, hesys, Program.attempt, fail]

end Printed

end Tpmkit.Examples
