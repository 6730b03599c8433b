import Tpmkit.ErrorTranslation
import Tpmkit.PcrMarshalling

/-!
# The world of the ESYS adapter

The adapter sees the TPM only through two tables of function pointers,
`esys_api` and `tcti_loader_api`.  A table is modelled over an arbitrary
backend state `σ`: each entry is any function of its arguments and that state,
so a statement about every table covers faulty and hostile backends.

A `World` is the backend state, the number of handles acquired so far and the
trace of everything the adapter did that another party can see: calls with
their arguments and return codes, disposals, log records and observer
callbacks.
-/

namespace Tpmkit

open Checked ByteStrings Pcr

/-! ## Handles and requests -/

/-- An `ESYS_CONTEXT`, numbered in the order of acquisition. -/
structure EsysContext where
  id : Nat
deriving DecidableEq, Repr

/-- A `TSS2_TCTI_CONTEXT`, numbered in the order of acquisition. -/
structure TctiContext where
  id : Nat
deriving DecidableEq, Repr

/-- A `TSS2_TCTI_CONTEXT` finalizer: the two of `tcti_loader.cpp`, or one that
a client stored next to its handle. -/
inductive TctiDeleter where
  | finalizeLoadedTcti
  | releaseFailedTctiInit
  | client (id : Nat)
deriving DecidableEq, Repr

/-- A `pcr::observer`. -/
structure Observer where
  id : Nat
deriving DecidableEq, Repr

/-- A `logger`: the library's own that discards records, or a client's. -/
inductive Logger where
  | noop
  | client (id : Nat)
deriving DecidableEq, Repr

/-- `TSS2_ABI_VERSION`. -/
structure AbiVersion where
  tssCreator : UInt32
  tssFamily : UInt32
  tssLevel : UInt32
  tssVersion : UInt32
deriving DecidableEq, Repr

/-- The calls of `esys_api` that send a command or change a session, with
their arguments. -/
inductive EsysRequest where
  | pcrAllocate (esys : Option EsysContext) (authHandle shandle1 shandle2 shandle3 : EsysTr)
      (allocation : TpmlPcrSelection)
  | pcrEvent (esys : Option EsysContext) (pcrHandle shandle1 shandle2 shandle3 : EsysTr)
      (eventData : Tpm2bEvent)
  | pcrExtend (esys : Option EsysContext) (pcrHandle shandle1 shandle2 shandle3 : EsysTr)
      (digests : TpmlDigestValues)
  | pcrRead (esys : Option EsysContext) (shandle1 shandle2 shandle3 : EsysTr)
      (pcrSelectionIn : TpmlPcrSelection)
  | pcrReset (esys : Option EsysContext) (pcrHandle shandle1 shandle2 shandle3 : EsysTr)
  | pcrSetAuthPolicy (esys : Option EsysContext) (authHandle shandle1 shandle2 shandle3 : EsysTr)
      (authPolicy : Tpm2bDigest) (hashAlg : TpmiAlgHash) (pcrNum : UInt32)
  | pcrSetAuthValue (esys : Option EsysContext) (pcrHandle shandle1 shandle2 shandle3 : EsysTr)
      (auth : Tpm2bDigest)
  | startup (esys : Option EsysContext) (startupType : UInt16)
  | trSetAuth (esys : Option EsysContext) (handle : EsysTr) (authValue : Tpm2bAuth)
deriving DecidableEq, Repr

/-- The response structures that ESYS allocates and the adapter frees. -/
inductive ResponseBuffer where
  | eventDigests
  | readSelection
  | readValues
deriving DecidableEq, Repr

/-- What another party sees of one step of the adapter. -/
inductive Event where
  | esys (request : EsysRequest) (rc : TssRc)
  | esysInitialize (tcti : Option TctiContext) (rc : TssRc) (context : Option EsysContext)
  | esysFinalize (context : EsysContext)
  | esysFree (buffer : ResponseBuffer)
  | getInfo (name : CString) (rc : TssRc)
  | freeInfo
  | tctiInit (context : Option TctiContext) (conf : Option CString) (rc : TssRc)
  | calloc (size : Nat) (storage : Bool)
  | tctiDelete (deleter : TctiDeleter) (context : TctiContext)
  | tctiLdrFinalize (context : TctiContext)
  | freeStorage (context : TctiContext)
  | log (logger : Logger) (record : LogRecord)
  | onExtend (observer : Observer) (index : Index) (digests : List DigestValue)
  | onEvent (observer : Observer) (index : Index) (eventData : List UInt8) (result : EventResult)
deriving DecidableEq, Repr

/-- The requests among some events, in order, with their return codes. -/
def requests (events : List Event) : List (EsysRequest × TssRc) :=
  events.filterMap fun
    | .esys request rc => some (request, rc)
    | _ => none

@[simp] theorem requests_nil : requests [] = [] := rfl

@[simp] theorem requests_esys (request : EsysRequest) (rc : TssRc) (events : List Event) :
    requests (.esys request rc :: events) = (request, rc) :: requests events := rfl

@[simp] theorem requests_onEvent (observer : Observer) (index : Index) (eventData : List UInt8)
    (result : EventResult) (events : List Event) :
    requests (.onEvent observer index eventData result :: events) = requests events := rfl

@[simp] theorem requests_onExtend (observer : Observer) (index : Index)
    (digests : List DigestValue) (events : List Event) :
    requests (.onExtend observer index digests :: events) = requests events := rfl

/-- The requests of two parts are those of the one and then those of the other. -/
@[simp] theorem requests_append (events events' : List Event) :
    requests (events ++ events') = requests events ++ requests events' := by
  simp [requests]

/-- The records among some events, in order. -/
def records (events : List Event) : List LogRecord :=
  events.filterMap fun
    | .log _ entry => some entry
    | _ => none

@[simp] theorem records_nil : records [] = [] := rfl

/-- So are the records. -/
@[simp] theorem records_append (events events' : List Event) :
    records (events ++ events') = records events ++ records events' :=
  List.filterMap_append

@[simp] theorem records_onEvent (observer : Observer) (index : Index) (eventData : List UInt8)
    (result : EventResult) (events : List Event) :
    records (.onEvent observer index eventData result :: events) = records events := rfl

@[simp] theorem records_onExtend (observer : Observer) (index : Index)
    (digests : List DigestValue) (events : List Event) :
    records (.onExtend observer index digests :: events) = records events := rfl

/-! ## The function tables -/

/-- The outputs of `Esys_Initialize`; `context` says whether it is non-null. -/
structure InitializeAnswer where
  rc : TssRc
  context : Bool
  abiVersion : AbiVersion

/-- What `Esys_PCR_Allocate` answers. -/
structure AllocateAnswer where
  rc : TssRc
  allocationSuccess : UInt8
  maxPcr : UInt32
  sizeNeeded : UInt32
  sizeAvailable : UInt32

/-- What `Esys_PCR_Event` answers; a null pointer is `none`. -/
structure EventAnswer where
  rc : TssRc
  digests : Option TpmlDigestValues

/-- What `Esys_PCR_Read` answers; null pointers are `none`. -/
structure ReadAnswer where
  rc : TssRc
  pcrUpdateCounter : UInt32
  pcrSelectionOut : Option TpmlPcrSelection
  pcrValues : Option TpmlDigest

/-- `esys_api`; its first entry is `Esys_Initialize` by default. -/
structure EsysApi (σ : Type) where
  esysInitialize : Option TctiContext → AbiVersion → σ → InitializeAnswer × σ
  finalize : Option (EsysContext → σ → σ)
  free : ResponseBuffer → σ → σ
  pcrAllocate : Option EsysContext → EsysTr → EsysTr → EsysTr → EsysTr → TpmlPcrSelection →
    σ → AllocateAnswer × σ
  pcrEvent : Option EsysContext → EsysTr → EsysTr → EsysTr → EsysTr → Tpm2bEvent →
    σ → EventAnswer × σ
  pcrExtend : Option EsysContext → EsysTr → EsysTr → EsysTr → EsysTr → TpmlDigestValues →
    σ → TssRc × σ
  pcrRead : Option EsysContext → EsysTr → EsysTr → EsysTr → TpmlPcrSelection →
    σ → ReadAnswer × σ
  pcrReset : Option EsysContext → EsysTr → EsysTr → EsysTr → EsysTr → σ → TssRc × σ
  pcrSetAuthPolicy : Option EsysContext → EsysTr → EsysTr → EsysTr → EsysTr → Tpm2bDigest →
    TpmiAlgHash → UInt32 → σ → TssRc × σ
  pcrSetAuthValue : Option EsysContext → EsysTr → EsysTr → EsysTr → EsysTr → Tpm2bDigest →
    σ → TssRc × σ
  startup : Option EsysContext → UInt16 → σ → TssRc × σ
  trSetAuth : Option EsysContext → EsysTr → Tpm2bAuth → σ → TssRc × σ
  decodeError : Option TssErrorDecoder

/-- The outputs of the `init` call of a TCTI: its return code and the context
size it wrote. -/
structure TctiInitAnswer where
  rc : TssRc
  size : Nat

/-- `tcti_loader_api`. -/
structure TctiLoaderApi (σ : Type) where
  getInfo : CString → σ → TssRc × σ
  freeInfo : σ → σ
  init : Option TctiContext → Nat → Option CString → σ → TctiInitAnswer × σ
  decodeError : Option TssErrorDecoder

/-- What the adapter calls without a table: `std::calloc`, which says whether it
returned storage, `Tss2_TctiLdr_Finalize`, which says whether it left the
pointer non-null, `std::free`, and the finalizers of clients. -/
structure LinkedApi (σ : Type) where
  calloc : Nat → σ → Bool × σ
  tctiLdrFinalize : TctiContext → σ → Bool × σ
  free : TctiContext → σ → σ
  clientDelete : Nat → TctiContext → σ → σ

/-! ## The world -/

/-- The state of the backend, the number of the next handle, and the events so far. -/
structure World (σ : Type) where
  backend : σ
  nextHandle : Nat
  trace : List Event

namespace World

variable {σ : Type}

/-- The world after the backend changed and some events were seen. -/
def after (w : World σ) (backend : σ) (events : List Event) : World σ :=
  { w with backend := backend, trace := w.trace ++ events }

@[simp] theorem after_backend (w : World σ) (b : σ) (events : List Event) :
    (w.after b events).backend = b := rfl

@[simp] theorem after_nextHandle (w : World σ) (b : σ) (events : List Event) :
    (w.after b events).nextHandle = w.nextHandle := rfl

@[simp] theorem after_trace (w : World σ) (b : σ) (events : List Event) :
    (w.after b events).trace = w.trace ++ events := rfl

/-- Two further parts of a run make one. -/
@[simp] theorem after_after (w : World σ) (b b' : σ) (events events' : List Event) :
    (w.after b events).after b' events' = w.after b' (events ++ events') := by
  simp [after]

@[simp] theorem after_nil (w : World σ) : w.after w.backend [] = w := by
  simp [after]

/-- The world after a handle was acquired. -/
def acquired (w : World σ) : World σ :=
  { w with nextHandle := w.nextHandle + 1 }

@[simp] theorem acquired_backend (w : World σ) : w.acquired.backend = w.backend := rfl

@[simp] theorem acquired_nextHandle (w : World σ) :
    w.acquired.nextHandle = w.nextHandle + 1 := rfl

@[simp] theorem acquired_trace (w : World σ) : w.acquired.trace = w.trace := rfl

@[simp] theorem acquired_after (w : World σ) (b : σ) (events : List Event) :
    (w.after b events).acquired = w.acquired.after b events := rfl

/-- What was seen between two worlds of one run. -/
def eventsSince (w w' : World σ) : List Event := w'.trace.drop w.trace.length

/-- The events since a world are what was added to its trace. -/
theorem eventsSince_of_trace {w w' : World σ} {events : List Event}
    (h : w'.trace = w.trace ++ events) : w.eventsSince w' = events := by
  rw [eventsSince, h, List.drop_left]

/-- A part of a run is what has happened since its start. -/
@[simp] theorem eventsSince_after (w : World σ) (b : σ) (events : List Event) :
    w.eventsSince (w.after b events) = events := by
  simp [eventsSince]

/-- A handle that was numbered in between is no event. -/
@[simp] theorem eventsSince_acquired_after (w : World σ) (b : σ) (events : List Event) :
    w.eventsSince (w.acquired.after b events) = events := by
  simp [eventsSince]

@[simp] theorem eventsSince_self (w : World σ) : w.eventsSince w = [] := by
  simp [eventsSince]

end World

/-- A call of the adapter. -/
abbrev Adapter (σ : Type) : Type → Type := Program (World σ) Error TpmkitException

section Steps

variable {σ ρ α : Type}

/-- Let the world see an event. -/
def record (event : Event) : Adapter σ Unit :=
  .update fun w => w.after w.backend [event]

/-- Call into the backend; the event is known once the call has returned. -/
def callBackend (answer : σ → ρ × σ) (event : ρ → Event) : Adapter σ ρ := fun w =>
  (.value (answer w.backend).1,
    w.after (answer w.backend).2 [event (answer w.backend).1])

/-- Call into the backend where no other party sees it. -/
def askBackend (answer : σ → ρ × σ) : Adapter σ ρ := fun w =>
  (.value (answer w.backend).1, w.after (answer w.backend).2 [])

/-- A handle that no earlier acquisition returned. -/
def acquireHandle : Adapter σ Nat := fun w => (.value w.nextHandle, w.acquired)

@[simp] theorem acquireHandle_apply (w : World σ) :
    (acquireHandle : Adapter σ Nat) w = (.value w.nextHandle, w.acquired) := rfl

@[simp] theorem askBackend_apply (answer : σ → ρ × σ) (w : World σ) :
    askBackend answer w = (.value (answer w.backend).1, w.after (answer w.backend).2 []) := rfl

@[simp] theorem record_apply (event : Event) (w : World σ) :
    record event w = (.value (), w.after w.backend [event]) := rfl

@[simp] theorem callBackend_apply (answer : σ → ρ × σ) (event : ρ → Event) (w : World σ) :
    callBackend answer event w = (.value (answer w.backend).1,
      w.after (answer w.backend).2 [event (answer w.backend).1]) := rfl

/-! ## Logging and translated errors -/

/-- A record that is handed to a logger, also to the one that discards it. -/
def Logger.events (log : Logger) (entry : LogRecord) : List Event := [.log log entry]

/-- A view of a trace that ignores log records ignores what a logger is handed. -/
theorem filterMap_logger_events {f : Event → Option ρ}
    (hf : ∀ log entry, f (.log log entry) = none) (log : Logger) (entry : LogRecord) :
    (log.events entry).filterMap f = [] := by
  simp [Logger.events, hf]

@[simp] theorem records_logger_events (log : Logger) (entry : LogRecord) :
    records (log.events entry) = [entry] := rfl

@[simp] theorem requests_logger_events (log : Logger) (entry : LogRecord) :
    requests (log.events entry) = [] :=
  filterMap_logger_events (fun _ _ => rfl) log entry

/-- `logger::log`. -/
def emit (log : Logger) (entry : LogRecord) : Adapter σ Unit :=
  .update fun w => w.after w.backend (log.events entry)

@[simp] theorem emit_apply (log : Logger) (entry : LogRecord) (w : World σ) :
    emit log entry w = (.value (), w.after w.backend (log.events entry)) := rfl

/-- `log_tss_error`. -/
def logTssError (log : Option Logger) (rc layer : TssRc) (category : ErrorCategory)
    (operation : ByteString) (errorEvent : EventDescriptor) (decoder : Option TssErrorDecoder) :
    Adapter σ Unit :=
  match log with
  | none => return ()
  | some log => do
      let description ← Program.lift (decodeBackendErrorDescription rc decoder)
      emit log (tssErrorRecord rc layer category operation errorEvent description)

/-- `translate_tss_rc`. -/
def translateTssRc (rc : TssRc) (operation : ByteString) (log : Option Logger)
    (errorEvent : EventDescriptor) (decoder : Option TssErrorDecoder) : Adapter σ Unit :=
  if rc = tss2RcSuccess then
    return ()
  else do
    let mapped := translateLayerBase (rcLayer rc) (rcBase rc (rcLayer rc))
    logTssError log rc (rcLayer rc) mapped.category operation errorEvent decoder
    .returnError mapped

/-- `return unexpected(translated.error())`; reading the error of a result that
holds none is outside the language. -/
def returnTranslated (rc : TssRc) (operation : ByteString) (log : Option Logger)
    (errorEvent : EventDescriptor) (decoder : Option TssErrorDecoder) : Adapter σ α := do
  match ← (translateTssRc rc operation log errorEvent decoder).attempt with
  | .error e => .returnError e
  | .ok () => .lift (.fault .outOfBounds)

/-- What a failed call makes visible before its error is returned. -/
def failureEvents (log : Option Logger) (rc : TssRc) (operation : ByteString)
    (errorEvent : EventDescriptor) (decoder : Option TssErrorDecoder) : List Event :=
  match log, decodeBackendErrorDescription rc decoder with
  | some log, .value description =>
      log.events (tssErrorRecord rc (rcLayer rc) (translatedError rc).category operation
        errorEvent description)
  | _, _ => []

/-- The record of a failed call, with the description that the decoder gives. -/
def failedCallRecord (rc : TssRc) (operation : ByteString) (errorEvent : EventDescriptor)
    (decoder : Option TssErrorDecoder) : LogRecord :=
  tssErrorRecord rc (rcLayer rc) (translatedError rc).category operation errorEvent
    (backendErrorDescription rc decoder)

/-- The record of a failed call has the whole code, in hexadecimal. -/
theorem failedCallRecord_errorCode (rc : TssRc) (operation : ByteString)
    (errorEvent : EventDescriptor) (decoder : Option TssErrorDecoder) :
    (failedCallRecord rc operation errorEvent decoder).field Events.Fields.errorCode =
      some (formatHex rc) := rfl

/-- A failed call is recorded under the category of its translation. -/
theorem failedCallRecord_errorCategory (rc : TssRc) (operation : ByteString)
    (errorEvent : EventDescriptor) (decoder : Option TssErrorDecoder) :
    (failedCallRecord rc operation errorEvent decoder).field Events.Fields.errorCategory =
      some (categoryName (translatedError rc).category) := rfl

/-- A logger is handed one record. -/
theorem failureEvents_some (log : Logger) (rc : TssRc) (operation : ByteString)
    (errorEvent : EventDescriptor) (decoder : Option TssErrorDecoder) :
    failureEvents (some log) rc operation errorEvent decoder =
      log.events (failedCallRecord rc operation errorEvent decoder) := by
  simp only [failureEvents, failedCallRecord, decodeBackendErrorDescription_eq]

/-- A view that overlooks log records sees nothing of a failure's events. -/
theorem filterMap_failureEvents {f : Event → Option ρ}
    (hf : ∀ log entry, f (.log log entry) = none) (log : Option Logger) (rc : TssRc)
    (operation : ByteString) (errorEvent : EventDescriptor) (decoder : Option TssErrorDecoder) :
    (failureEvents log rc operation errorEvent decoder).filterMap f = [] := by
  unfold failureEvents
  split
  · exact filterMap_logger_events hf ..
  · rfl

/-- Reporting a failure sends nothing. -/
@[simp] theorem requests_failureEvents (log : Option Logger) (rc : TssRc)
    (operation : ByteString) (errorEvent : EventDescriptor) (decoder : Option TssErrorDecoder) :
    requests (failureEvents log rc operation errorEvent decoder) = [] :=
  filterMap_failureEvents (fun _ _ => rfl) ..

/-- A code other than success is logged once and returned translated. -/
theorem translateTssRc_of_ne_success {rc : TssRc} (h : rc ≠ tss2RcSuccess)
    (operation : ByteString) (log : Option Logger) (errorEvent : EventDescriptor)
    (decoder : Option TssErrorDecoder) (w : World σ) :
    translateTssRc rc operation log errorEvent decoder w =
      (.unexpected (translatedError rc),
        w.after w.backend (failureEvents log rc operation errorEvent decoder)) := by
  have hdescription := decodeBackendErrorDescription_eq rc decoder
  cases log with
  | none => simp [translateTssRc, h, logTssError, failureEvents, translatedError]
  | some log => simp [translateTssRc, h, logTssError, failureEvents, translatedError, hdescription]

/-- A failing code is logged and returned as its translation; the backend stays as it is. -/
@[simp] theorem returnTranslated_of_ne_success {rc : TssRc} (h : rc ≠ tss2RcSuccess)
    (operation : ByteString) (log : Option Logger) (errorEvent : EventDescriptor)
    (decoder : Option TssErrorDecoder) (w : World σ) :
    (returnTranslated rc operation log errorEvent decoder : Adapter σ α) w =
      (.unexpected (translatedError rc),
        w.after w.backend (failureEvents log rc operation errorEvent decoder)) := by
  have htranslate := translateTssRc_of_ne_success h operation log errorEvent decoder w
  simp [returnTranslated, Program.attempt_of_unexpected htranslate]

end Steps

/-! ## Calls of the function table -/

namespace EsysApi

variable {σ : Type} (api : EsysApi σ)

/-- The calls of the table, each of which leaves its request and the code that it returned in
the trace. -/
def callPcrAllocate (esys : Option EsysContext) (authHandle shandle1 shandle2 shandle3 : EsysTr)
    (allocation : TpmlPcrSelection) : Adapter σ AllocateAnswer :=
  callBackend (api.pcrAllocate esys authHandle shandle1 shandle2 shandle3 allocation)
    fun answer =>
      .esys (.pcrAllocate esys authHandle shandle1 shandle2 shandle3 allocation) answer.rc

def callPcrEvent (esys : Option EsysContext) (pcrHandle shandle1 shandle2 shandle3 : EsysTr)
    (eventData : Tpm2bEvent) : Adapter σ EventAnswer :=
  callBackend (api.pcrEvent esys pcrHandle shandle1 shandle2 shandle3 eventData)
    fun answer => .esys (.pcrEvent esys pcrHandle shandle1 shandle2 shandle3 eventData) answer.rc

def callPcrExtend (esys : Option EsysContext) (pcrHandle shandle1 shandle2 shandle3 : EsysTr)
    (digests : TpmlDigestValues) : Adapter σ TssRc :=
  callBackend (api.pcrExtend esys pcrHandle shandle1 shandle2 shandle3 digests)
    (.esys (.pcrExtend esys pcrHandle shandle1 shandle2 shandle3 digests))

def callPcrRead (esys : Option EsysContext) (shandle1 shandle2 shandle3 : EsysTr)
    (pcrSelectionIn : TpmlPcrSelection) : Adapter σ ReadAnswer :=
  callBackend (api.pcrRead esys shandle1 shandle2 shandle3 pcrSelectionIn)
    fun answer => .esys (.pcrRead esys shandle1 shandle2 shandle3 pcrSelectionIn) answer.rc

def callPcrReset (esys : Option EsysContext) (pcrHandle shandle1 shandle2 shandle3 : EsysTr) :
    Adapter σ TssRc :=
  callBackend (api.pcrReset esys pcrHandle shandle1 shandle2 shandle3)
    (.esys (.pcrReset esys pcrHandle shandle1 shandle2 shandle3))

def callPcrSetAuthPolicy (esys : Option EsysContext)
    (authHandle shandle1 shandle2 shandle3 : EsysTr) (authPolicy : Tpm2bDigest)
    (hashAlg : TpmiAlgHash) (pcrNum : UInt32) : Adapter σ TssRc :=
  callBackend
    (api.pcrSetAuthPolicy esys authHandle shandle1 shandle2 shandle3 authPolicy hashAlg pcrNum)
    (.esys (.pcrSetAuthPolicy esys authHandle shandle1 shandle2 shandle3 authPolicy hashAlg
      pcrNum))

def callPcrSetAuthValue (esys : Option EsysContext)
    (pcrHandle shandle1 shandle2 shandle3 : EsysTr) (auth : Tpm2bDigest) : Adapter σ TssRc :=
  callBackend (api.pcrSetAuthValue esys pcrHandle shandle1 shandle2 shandle3 auth)
    (.esys (.pcrSetAuthValue esys pcrHandle shandle1 shandle2 shandle3 auth))

def callStartup (esys : Option EsysContext) (startupType : UInt16) : Adapter σ TssRc :=
  callBackend (api.startup esys startupType) (.esys (.startup esys startupType))

def callTrSetAuth (esys : Option EsysContext) (handle : EsysTr) (authValue : Tpm2bAuth) :
    Adapter σ TssRc :=
  callBackend (api.trSetAuth esys handle authValue) (.esys (.trSetAuth esys handle authValue))

/-- The destructor of a `unique_ptr` to a response structure. -/
def freeBuffer {τ : Type} (buffer : ResponseBuffer) (pointer : Option τ) : Adapter σ Unit :=
  match pointer with
  | none => return ()
  | some _ => .update fun w => w.after (api.free buffer w.backend) [.esysFree buffer]

/-- The backend state after that destructor. -/
def freed {τ : Type} (buffer : ResponseBuffer) (pointer : Option τ) (backend : σ) : σ :=
  match pointer with
  | none => backend
  | some _ => api.free buffer backend

/-- What that destructor makes visible. -/
def freeEvents {τ : Type} (buffer : ResponseBuffer) (pointer : Option τ) : List Event :=
  match pointer with
  | none => []
  | some _ => [.esysFree buffer]

/-- It shows nothing but the buffer that is freed. -/
theorem eq_of_mem_freeEvents {τ : Type} {buffer : ResponseBuffer} {pointer : Option τ} {e : Event}
    (he : e ∈ freeEvents buffer pointer) : e = .esysFree buffer := by
  cases pointer with
  | none => cases he
  | some t => exact List.mem_singleton.mp he

@[simp] theorem requests_freeEvents {τ : Type} (buffer : ResponseBuffer) (pointer : Option τ) :
    requests (freeEvents buffer pointer) = [] := by
  cases pointer <;> rfl

/-- Freeing a buffer leaves one event if there was a buffer. -/
theorem freeBuffer_apply {τ : Type} (buffer : ResponseBuffer) (pointer : Option τ) (w : World σ) :
    api.freeBuffer buffer pointer w =
      (.value (), w.after (api.freed buffer pointer w.backend) (freeEvents buffer pointer)) := by
  cases pointer with
  | none => simp [freeBuffer, freed, freeEvents]
  | some t => rfl

/-- A table whose calls succeed, return nothing and leave the backend alone. -/
def inert : EsysApi σ where
  esysInitialize _ version b := (⟨tss2RcSuccess, true, version⟩, b)
  finalize := some fun _ b => b
  free _ b := b
  pcrAllocate _ _ _ _ _ _ b := (⟨tss2RcSuccess, 0, 0, 0, 0⟩, b)
  pcrEvent _ _ _ _ _ _ b := (⟨tss2RcSuccess, none⟩, b)
  pcrExtend _ _ _ _ _ _ b := (tss2RcSuccess, b)
  pcrRead _ _ _ _ _ b := (⟨tss2RcSuccess, 0, none, none⟩, b)
  pcrReset _ _ _ _ _ b := (tss2RcSuccess, b)
  pcrSetAuthPolicy _ _ _ _ _ _ _ _ b := (tss2RcSuccess, b)
  pcrSetAuthValue _ _ _ _ _ _ b := (tss2RcSuccess, b)
  startup _ _ b := (tss2RcSuccess, b)
  trSetAuth _ _ _ b := (tss2RcSuccess, b)
  decodeError := none

end EsysApi

end Tpmkit
