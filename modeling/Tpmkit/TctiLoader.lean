import Mathlib.Data.List.DropRight
import Tpmkit.EsysWorld

/-!
# The TCTI loader

`tcti_loader.cpp`: validation of a `name:args` configuration, the calls that
turn it into a TCTI context, and the ownership of the context on the way.  The
loader library reads C strings while the configuration is a counted string;
`load_tcti_sees_config_iff` says when the two are the same.
-/

namespace Tpmkit

open Checked ByteStrings

variable {σ : Type}

/-! ## Validation -/

/-- The byte `:`. -/
def colon : UInt8 := 0x3a

/-- `std::isspace` in the C locale. -/
def isSpace (value : UInt8) : Bool := value == 0x20 || (0x09 ≤ value && value ≤ 0x0d)

/-- `trim`: one loop skips leading space, one drops trailing space from the rest. -/
def trim (value : ByteString) : ByteString := (value.dropWhile isSpace).rdropWhile isSpace

/-- `value.find(':')`. -/
def findColon (value : ByteString) : Option Nat := value.findIdx? (· == colon)

/-- `has_name_args_shape`. -/
def hasNameArgsShape (value : ByteString) : Bool :=
  match findColon value with
  | some position => position > 0
  | none => false

/-- `tcti_name`; `substr` up to `npos` is the whole string. -/
def tctiName (value : ByteString) : ByteString :=
  match findColon value with
  | some position => value.take position
  | none => value

/-- `validate_config`. -/
def validateConfig (config : ByteString) : Outcome ByteString :=
  let trimmed := trim config
  if trimmed.isEmpty then
    fail .inputError "TCTI configuration must use name:args format"
  else if trimmed.length ≠ config.length then
    fail .inputError "TCTI configuration must use name:args format"
  else if !hasNameArgsShape trimmed then
    fail .inputError "TCTI configuration must use name:args format"
  else
    return trimmed

/-! ## Owned TCTI contexts -/

/-- `std::unique_ptr<TSS2_TCTI_CONTEXT, void (*)(TSS2_TCTI_CONTEXT*)>`. -/
structure UniqueTcti where
  handle : Option TctiContext
  deleter : Option TctiDeleter
deriving DecidableEq, Repr

/-- `finalize_loaded_tcti`. -/
def finalizeLoadedTcti (linked : LinkedApi σ) (context : TctiContext) : Adapter σ Unit := do
  let _ ← callBackend (linked.tctiLdrFinalize context) fun _ => .tctiLdrFinalize context
  return ()

/-- `release_failed_tcti_init`, on the non-null pointers it acts on. -/
def releaseFailedTctiInit (linked : LinkedApi σ) (context : TctiContext) : Adapter σ Unit := do
  let kept ← callBackend (linked.tctiLdrFinalize context) fun _ => .tctiLdrFinalize context
  if kept then
    .update fun w => w.after (linked.free context w.backend) [.freeStorage context]
  else
    return ()

/-- A call of a finalizer. -/
def callDeleter (linked : LinkedApi σ) (deleter : TctiDeleter) (context : TctiContext) :
    Adapter σ Unit := do
  record (.tctiDelete deleter context)
  match deleter with
  | .finalizeLoadedTcti => finalizeLoadedTcti linked context
  | .releaseFailedTctiInit => releaseFailedTctiInit linked context
  | .client id => .update fun w => w.after (linked.clientDelete id context w.backend) []

/-- The destructor of a `unique_ptr`: a stored pointer goes to the stored
function, null or not. -/
def UniqueTcti.destroy (linked : LinkedApi σ) (tcti : UniqueTcti) : Adapter σ Unit :=
  match tcti.handle, tcti.deleter with
  | none, _ => return ()
  | some _, none => .lift (.fault .nullCall)
  | some context, some deleter => callDeleter linked deleter context

/-! ## Loading -/

/-- `pending_tcti_context`. -/
structure PendingTctiContext where
  context : UniqueTcti
  size : Nat

/-- `allocate_tcti_loader_context`. -/
def allocateTctiLoaderContext (log : Option Logger) (api : TctiLoaderApi σ)
    (linked : LinkedApi σ) : Adapter σ PendingTctiContext := do
  let answer ← callBackend (api.init none 0 none) fun answer => .tctiInit none none answer.rc
  if answer.rc ≠ tss2RcSuccess then
    returnTranslated answer.rc (ascii "tcti_init") log Events.tssError api.decodeError
  else if answer.size = 0 then
    .returnError ⟨.backendError, "TCTI loader returned invalid context size"⟩
  else
    let storage ← callBackend (linked.calloc answer.size) (.calloc answer.size)
    if !storage then
      .returnError ⟨.resourceError, "TCTI loader context allocation failed"⟩
    else
      let id ← acquireHandle
      return ⟨⟨some ⟨id⟩, some .releaseFailedTctiInit⟩, answer.size⟩

/-- `load_tcti`. -/
def loadTcti (config : ByteString) (log : Option Logger) (api : TctiLoaderApi σ)
    (linked : LinkedApi σ) : Adapter σ UniqueTcti := do
  let validated ← .lift (validateConfig config)
  let name := cStr (tctiName validated)
  let infoRc ← callBackend (api.getInfo name) (.getInfo name)
  Program.update fun w => w.after (api.freeInfo w.backend) [.freeInfo]
  if infoRc ≠ tss2RcSuccess then
    let _ ← (translateTssRc infoRc (ascii "tcti_init") log Events.tssError
      api.decodeError).attempt
    .returnError ⟨.inputError, "Unknown TCTI name"⟩
  else
    let pending ← allocateTctiLoaderContext log api linked
    let answer ← callBackend
      (api.init pending.context.handle pending.size (some (cStr validated)))
      fun answer => .tctiInit pending.context.handle (some (cStr validated)) answer.rc
    if answer.rc ≠ tss2RcSuccess then
      Program.onExit
        (returnTranslated answer.rc (ascii "tcti_init") log Events.tssError api.decodeError)
        (pending.context.destroy linked)
    else
      return ⟨pending.context.handle, some .finalizeLoadedTcti⟩

/-! ## What a finalizer does -/

/-- The backend after a call of a finalizer. -/
def deletedState (linked : LinkedApi σ) (deleter : TctiDeleter) (context : TctiContext) (b : σ) :
    σ :=
  match deleter with
  | .finalizeLoadedTcti => (linked.tctiLdrFinalize context b).2
  | .releaseFailedTctiInit =>
      let finalized := linked.tctiLdrFinalize context b
      if finalized.1 then linked.free context finalized.2 else finalized.2
  | .client id => linked.clientDelete id context b

/-- What a call of a finalizer makes visible. -/
def deleterEvents (linked : LinkedApi σ) (deleter : TctiDeleter) (context : TctiContext) (b : σ) :
    List Event :=
  .tctiDelete deleter context ::
    match deleter with
    | .finalizeLoadedTcti => [.tctiLdrFinalize context]
    | .releaseFailedTctiInit =>
        .tctiLdrFinalize context ::
          if (linked.tctiLdrFinalize context b).1 then [.freeStorage context] else []
    | .client _ => []

/-- A finalizer does its work on the backend and cannot fail. -/
theorem callDeleter_apply (linked : LinkedApi σ) (deleter : TctiDeleter) (context : TctiContext)
    (w : World σ) :
    callDeleter linked deleter context w =
      (.value (), w.after (deletedState linked deleter context w.backend)
        (deleterEvents linked deleter context w.backend)) := by
  cases deleter with
  | releaseFailedTctiInit =>
      rcases h : linked.tctiLdrFinalize context w.backend with ⟨kept, b⟩
      cases kept <;>
        simp [callDeleter, releaseFailedTctiInit, deletedState, deleterEvents, h]
  | _ => simp [callDeleter, finalizeLoadedTcti, deletedState, deleterEvents]

/-- Destroying a `unique_ptr` that holds a context calls its finalizer. -/
theorem UniqueTcti.destroy_apply (linked : LinkedApi σ) (deleter : TctiDeleter)
    (context : TctiContext) (w : World σ) :
    UniqueTcti.destroy linked ⟨some context, some deleter⟩ w =
      (.value (), w.after (deletedState linked deleter context w.backend)
        (deleterEvents linked deleter context w.backend)) :=
  callDeleter_apply linked deleter context w

/-! ## What validation accepts -/

/-- A non-empty name, the first colon, and the arguments. -/
def NameArgsShape (value : ByteString) : Prop :=
  ∃ name args, name ≠ [] ∧ colon ∉ name ∧ value = name ++ colon :: args

/-- No space at either end, and the shape `name:args`. -/
structure ValidConfig (config : ByteString) : Prop where
  trimmed : trim config = config
  shape : NameArgsShape config

/-- A text that loses nothing in trimming is trimmed already. -/
theorem trim_eq_of_length {value : ByteString} (h : (trim value).length = value.length) :
    trim value = value := by
  have hfirst : (value.dropWhile isSpace).length ≤ value.length :=
    (List.dropWhile_suffix isSpace).length_le
  have hlast : (trim value).length ≤ (value.dropWhile isSpace).length :=
    (List.rdropWhile_prefix isSpace _).length_le
  have hleading : value.dropWhile isSpace = value :=
    (List.dropWhile_suffix isSpace).eq_of_length (by omega)
  have hsame : (trim value).length = (value.dropWhile isSpace).length := by omega
  have htrailing : trim value = value.dropWhile isSpace :=
    (List.rdropWhile_prefix isSpace _).eq_of_length hsame
  rw [htrailing, hleading]

/-- The name that is looked up is the text before the first colon. -/
theorem tctiName_eq (value : ByteString) : tctiName value = value.takeWhile (· ≠ colon) := by
  induction value with
  | nil => rfl
  | cons b rest ih =>
      by_cases hb : b = colon
      · simp [tctiName, findColon, List.findIdx?_cons, hb]
      · have htake : (b :: rest).takeWhile (· ≠ colon) = b :: rest.takeWhile (· ≠ colon) :=
          List.takeWhile_cons_of_pos (by simpa using hb)
        have hfind : findColon (b :: rest) = (findColon rest).map (· + 1) := by
          simp [findColon, List.findIdx?_cons, hb]
        rw [htake, ← ih]
        unfold tctiName
        rw [hfind]
        cases findColon rest <;> rfl

/-- The check of the shape is what it is said to be. -/
theorem hasNameArgsShape_iff {value : ByteString} :
    hasNameArgsShape value = true ↔ NameArgsShape value := by
  unfold hasNameArgsShape findColon NameArgsShape
  constructor
  · intro h
    split at h
    · next position hposition =>
        obtain ⟨hlt, hcolon, hbefore⟩ := List.findIdx?_eq_some_iff_getElem.mp hposition
        refine ⟨value.take position, value.drop (position + 1), ?_, ?_, ?_⟩
        · have hpos : 0 < position := by simpa using h
          intro hnil
          rcases List.take_eq_nil_iff.mp hnil with hzero | rfl
          · omega
          · exact absurd hlt (Nat.not_lt_zero _)
        · intro hmem
          obtain ⟨i, hi, heq⟩ := List.getElem_of_mem hmem
          have hbound : i < position := by
            simp at hi
            omega
          have hne := hbefore i hbound
          simp_all
        · have hget : value[position] = colon := by simpa using hcolon
          rw [← hget, List.getElem_cons_drop, List.take_append_drop]
    · cases h
  · rintro ⟨name, args, hname, hcolon, rfl⟩
    have hfind : (name ++ colon :: args).findIdx? (· == colon) = some name.length := by
      rw [List.findIdx?_eq_some_iff_getElem]
      refine ⟨by simp, by simp, fun j hj => ?_⟩
      have hne : name[j] ≠ colon := fun h => hcolon (h ▸ List.getElem_mem hj)
      simp [List.getElem_append_left hj, hne]
    have hlength : 0 < name.length := List.length_pos_of_ne_nil hname
    simp [hfind, hlength]

/-- Validation returns the configuration itself, or an input error. -/
theorem validateConfig_cases (config : ByteString) :
    (ValidConfig config ∧ validateConfig config = .value config) ∨
    (¬ValidConfig config ∧ ∃ e, validateConfig config = .unexpected e) := by
  by_cases hlength : (trim config).length = config.length
  swap
  · refine Or.inr ⟨fun h => hlength (by rw [h.trimmed]), ?_⟩
    unfold validateConfig
    by_cases hempty : (trim config).isEmpty = true
    · exact ⟨_, by simp only [hempty, if_true]; rfl⟩
    · exact ⟨_, by simp only [hempty, hlength, Bool.false_eq_true, if_false, ne_eq,
        not_false_eq_true, if_true]; rfl⟩
  have htrim := trim_eq_of_length hlength
  by_cases hshape : NameArgsShape config
  · have hnonempty : config ≠ [] := by
      obtain ⟨name, args, _, _, rfl⟩ := hshape
      simp
    exact Or.inl ⟨⟨htrim, hshape⟩,
      by simp [validateConfig, htrim, hnonempty, hasNameArgsShape_iff.mpr hshape]⟩
  · have hrefused : hasNameArgsShape config = false :=
      Bool.eq_false_iff.mpr fun h => hshape (hasNameArgsShape_iff.mp h)
    refine Or.inr ⟨fun h => hshape h.shape,
      ⟨.inputError, "TCTI configuration must use name:args format"⟩, ?_⟩
    unfold validateConfig
    rw [htrim]
    by_cases hempty : config.isEmpty = true <;> simp [hempty, hrefused, fail]

/-! ## What the loader library sees -/

/-- A C string handed to the loader library. -/
inductive LoaderString where
  | name (s : CString)
  | conf (s : CString)
deriving DecidableEq, Repr

/-- The strings handed over among some events, in order. -/
def loaderStrings (events : List Event) : List LoaderString :=
  events.filterMap fun
    | .getInfo name _ => some (.name name)
    | .tctiInit _ (some conf) _ => some (.conf conf)
    | _ => none

@[simp] theorem loaderStrings_nil : loaderStrings [] = [] := rfl

/-- The strings of two parts are those of the one and then those of the other. -/
@[simp] theorem loaderStrings_append (events events' : List Event) :
    loaderStrings (events ++ events') = loaderStrings events ++ loaderStrings events' := by
  simp [loaderStrings]

/-- Reporting a failure shows the loader nothing. -/
@[simp] theorem loaderStrings_failureEvents (log : Option Logger) (rc : TssRc)
    (operation : ByteString) (errorEvent : EventDescriptor) (decoder : Option TssErrorDecoder) :
    loaderStrings (failureEvents log rc operation errorEvent decoder) = [] :=
  filterMap_failureEvents (fun _ _ => rfl) ..

/-- Nor does a finalizer. -/
@[simp] theorem loaderStrings_deleterEvents (linked : LinkedApi σ) (deleter : TctiDeleter)
    (context : TctiContext) (b : σ) :
    loaderStrings (deleterEvents linked deleter context b) = [] := by
  cases deleter with
  | releaseFailedTctiInit =>
      cases h : (linked.tctiLdrFinalize context b).1 <;> simp [deleterEvents, loaderStrings, h]
  | _ => simp [deleterEvents, loaderStrings]

/-- The loader library answers so that `init` is called on the configuration:
the name is known, the size query succeeds with a size, and there is storage. -/
def InitReached (api : TctiLoaderApi σ) (linked : LinkedApi σ) (config : ByteString) (b : σ) :
    Prop :=
  let info := api.getInfo (cStr (tctiName config)) b
  let size := api.init none 0 none (api.freeInfo info.2)
  info.1 = tss2RcSuccess ∧ size.1.rc = tss2RcSuccess ∧ size.1.size ≠ 0 ∧
    (linked.calloc size.1.size size.2).1 = true

instance (api : TctiLoaderApi σ) (linked : LinkedApi σ) (config : ByteString) (b : σ) :
    Decidable (InitReached api linked config b) :=
  inferInstanceAs (Decidable (_ ∧ _))

/-- A configuration that is not valid is refused before the loader is called. -/
theorem loadTcti_of_not_valid {config : ByteString} (h : ¬ValidConfig config)
    (log : Option Logger) (api : TctiLoaderApi σ) (linked : LinkedApi σ) :
    ∀ w, (loadTcti config log api linked).Rejects w := by
  intro w
  rcases validateConfig_cases config with ⟨hvalid, _⟩ | ⟨_, e, he⟩
  · exact absurd hvalid h
  · exact ⟨e, by simp [loadTcti, he]⟩

/-- The size query: it returns fresh storage, or an error with nothing to release. -/
theorem allocateTctiLoaderContext_cases (log : Option Logger) (api : TctiLoaderApi σ)
    (linked : LinkedApi σ) {query : TctiInitAnswer} {storage : Bool} {b b' : σ} (w : World σ)
    (hquery : api.init none 0 none w.backend = (query, b))
    (hcalloc : linked.calloc query.size b = (storage, b')) :
    (query.rc = tss2RcSuccess ∧ query.size ≠ 0 ∧ storage = true ∧
      allocateTctiLoaderContext log api linked w =
        (.value ⟨⟨some ⟨w.nextHandle⟩, some .releaseFailedTctiInit⟩, query.size⟩,
          w.acquired.after b' [.tctiInit none none query.rc, .calloc query.size true])) ∨
    (¬(query.rc = tss2RcSuccess ∧ query.size ≠ 0 ∧ storage = true) ∧
      ∃ e b'' events, allocateTctiLoaderContext log api linked w =
        (.unexpected e, w.after b'' (.tctiInit none none query.rc :: events)) ∧
        loaderStrings events = []) := by
  by_cases hrc : query.rc = tss2RcSuccess
  swap
  · exact Or.inr ⟨fun h => hrc h.1, translatedError query.rc, b, _,
      by simp [allocateTctiLoaderContext, hquery, hrc]; rfl, by simp⟩
  by_cases hsize : query.size = 0
  · exact Or.inr ⟨fun h => h.2.1 hsize,
      ⟨.backendError, "TCTI loader returned invalid context size"⟩, b, [],
      by simp [allocateTctiLoaderContext, hquery, hrc, hsize], rfl⟩
  cases storage with
  | false =>
      exact Or.inr ⟨by simp, ⟨.resourceError, "TCTI loader context allocation failed"⟩, b',
        [.calloc query.size false],
        by simp [allocateTctiLoaderContext, hquery, hcalloc, hrc, hsize], rfl⟩
  | true =>
      exact Or.inl ⟨hrc, hsize, rfl,
        by simp [allocateTctiLoaderContext, hquery, hcalloc, hrc, hsize]⟩

/-- A valid one is handed on as it is. -/
theorem validateConfig_of_valid {config : ByteString} (h : ValidConfig config) :
    validateConfig config = .value config := by
  rcases validateConfig_cases config with ⟨_, hvalue⟩ | ⟨hnot, _⟩
  · exact hvalue
  · exact absurd h hnot

section Calls

variable {config : ByteString} (h : ValidConfig config) (log : Option Logger)
  (api : TctiLoaderApi σ) (linked : LinkedApi σ) {w w' : World σ} {b : σ}

include h

/-- A name that the loader library does not know. -/
theorem loadTcti_unknown {rc : TssRc}
    (hinfo : api.getInfo (cStr (tctiName config)) w.backend = (rc, b)) (hrc : rc ≠ tss2RcSuccess) :
    loadTcti config log api linked w =
      (.unexpected ⟨.inputError, "Unknown TCTI name"⟩,
        w.after (api.freeInfo b) (.getInfo (cStr (tctiName config)) rc :: .freeInfo ::
          failureEvents log rc (ascii "tcti_init") Events.tssError api.decodeError)) := by
  have htranslate := fun w' : World σ => Program.attempt_of_unexpected
    (translateTssRc_of_ne_success hrc (ascii "tcti_init") log Events.tssError api.decodeError w')
  simp [loadTcti, validateConfig_of_valid h, hinfo, hrc, htranslate]

variable (hinfo : api.getInfo (cStr (tctiName config)) w.backend = (tss2RcSuccess, b))

include hinfo

/-- A size query that fails. -/
theorem loadTcti_unallocated {e : Error}
    (hpending : allocateTctiLoaderContext log api linked
      (w.after (api.freeInfo b) [.getInfo (cStr (tctiName config)) tss2RcSuccess, .freeInfo]) =
        (.unexpected e, w')) :
    loadTcti config log api linked w = (.unexpected e, w') := by
  simp [loadTcti, validateConfig_of_valid h, hinfo, hpending]

variable {context : TctiContext} {size : Nat} {answer : TctiInitAnswer} {b' : σ}
  (hpending : allocateTctiLoaderContext log api linked
    (w.after (api.freeInfo b) [.getInfo (cStr (tctiName config)) tss2RcSuccess, .freeInfo]) =
      (.value ⟨⟨some context, some .releaseFailedTctiInit⟩, size⟩, w'))
  (hinit : api.init (some context) size (some (cStr config)) w'.backend = (answer, b'))

include hpending hinit

/-- An `init` that succeeds hands the context to the caller. -/
theorem loadTcti_initialized (hrc : answer.rc = tss2RcSuccess) :
    loadTcti config log api linked w =
      (.value ⟨some context, some .finalizeLoadedTcti⟩,
        w'.after b' [.tctiInit (some context) (some (cStr config)) tss2RcSuccess]) := by
  simp [loadTcti, validateConfig_of_valid h, hinfo, hpending, hinit, hrc]

/-- An `init` that fails is logged, and the storage is released. -/
theorem loadTcti_not_initialized (hrc : answer.rc ≠ tss2RcSuccess) :
    loadTcti config log api linked w =
      (.unexpected (translatedError answer.rc),
        w'.after (deletedState linked .releaseFailedTctiInit context b')
          (.tctiInit (some context) (some (cStr config)) answer.rc ::
            (failureEvents log answer.rc (ascii "tcti_init") Events.tssError api.decodeError ++
              deleterEvents linked .releaseFailedTctiInit context b'))) := by
  have hrelease := fun w₁ : World σ => Program.onExit_apply
    (returnTranslated_of_ne_success (α := UniqueTcti) hrc (ascii "tcti_init") log Events.tssError
      api.decodeError w₁) (Result.noFault_unexpected _)
    fun w₂ => UniqueTcti.destroy_apply linked .releaseFailedTctiInit context w₂
  simp [loadTcti, validateConfig_of_valid h, hinfo, hpending, hinit, hrc, hrelease]

end Calls

/-- The calls that a valid configuration leads to: the look-up of its name, and,
once `init` is reached, the configuration itself. -/
theorem loadTcti_cases {config : ByteString} (h : ValidConfig config) (log : Option Logger)
    (api : TctiLoaderApi σ) (linked : LinkedApi σ) (w : World σ) :
    (InitReached api linked config w.backend ∧ ∃ size b,
      loadTcti config log api linked w =
        (.value ⟨some ⟨w.nextHandle⟩, some .finalizeLoadedTcti⟩,
          w.acquired.after b [.getInfo (cStr (tctiName config)) tss2RcSuccess, .freeInfo,
            .tctiInit none none tss2RcSuccess, .calloc size true,
            .tctiInit (some ⟨w.nextHandle⟩) (some (cStr config)) tss2RcSuccess])) ∨
    (InitReached api linked config w.backend ∧ ∃ e size b rc events,
      loadTcti config log api linked w =
        (.unexpected e, w.acquired.after b (.getInfo (cStr (tctiName config)) tss2RcSuccess ::
          .freeInfo :: .tctiInit none none tss2RcSuccess :: .calloc size true ::
          .tctiInit (some ⟨w.nextHandle⟩) (some (cStr config)) rc :: events)) ∧
      loaderStrings events = []) ∨
    (¬InitReached api linked config w.backend ∧ ∃ e b rc events,
      loadTcti config log api linked w =
        (.unexpected e, w.after b (.getInfo (cStr (tctiName config)) rc :: .freeInfo :: events)) ∧
      loaderStrings events = []) := by
  obtain ⟨infoRc, b₁, hinfo⟩ : ∃ rc b, api.getInfo (cStr (tctiName config)) w.backend = (rc, b) :=
    ⟨_, _, rfl⟩
  obtain ⟨query, b₂, hquery⟩ : ∃ query b, api.init none 0 none (api.freeInfo b₁) = (query, b) :=
    ⟨_, _, rfl⟩
  obtain ⟨storage, b₃, hcalloc⟩ : ∃ storage b, linked.calloc query.size b₂ = (storage, b) :=
    ⟨_, _, rfl⟩
  have hreached : InitReached api linked config w.backend ↔
      infoRc = tss2RcSuccess ∧ query.rc = tss2RcSuccess ∧ query.size ≠ 0 ∧ storage = true := by
    simp only [InitReached, hinfo, hquery, hcalloc]
  by_cases hknown : infoRc = tss2RcSuccess
  swap
  · have hrun := loadTcti_unknown h log api linked hinfo hknown
    exact Or.inr (Or.inr ⟨fun hr => hknown (hreached.mp hr).1, _, _, _, _, hrun, by simp⟩)
  subst hknown
  have hlooked : api.init none 0 none (w.after (api.freeInfo b₁)
      [.getInfo (cStr (tctiName config)) tss2RcSuccess, .freeInfo]).backend = (query, b₂) := hquery
  rcases allocateTctiLoaderContext_cases log api linked _ hlooked hcalloc with
    ⟨hrc, hsize, hstorage, hpending⟩ | ⟨hnot, e, b, events, hpending, hevents⟩
  swap
  · have hrun := loadTcti_unallocated h log api linked hinfo hpending
    refine Or.inr (Or.inr ⟨fun hr => hnot (hreached.mp hr).2, e, b, tss2RcSuccess,
      .tctiInit none none query.rc :: events, ?_, hevents⟩)
    simpa using hrun
  have hr : InitReached api linked config w.backend := hreached.mpr ⟨rfl, hrc, hsize, hstorage⟩
  obtain ⟨answer, b₄, hinit⟩ :
      ∃ answer b, api.init (some ⟨w.nextHandle⟩) query.size (some (cStr config)) b₃ =
        (answer, b) := ⟨_, _, rfl⟩
  by_cases hloaded : answer.rc = tss2RcSuccess
  · have hrun := loadTcti_initialized h log api linked hinfo hpending hinit hloaded
    exact Or.inl ⟨hr, query.size, b₄, by simpa [hrc] using hrun⟩
  · have hrun := loadTcti_not_initialized h log api linked hinfo hpending hinit hloaded
    refine Or.inr (Or.inl ⟨hr, translatedError answer.rc, query.size,
      deletedState linked .releaseFailedTctiInit ⟨w.nextHandle⟩ b₄, answer.rc,
      failureEvents log answer.rc (ascii "tcti_init") Events.tssError api.decodeError ++
        deleterEvents linked .releaseFailedTctiInit ⟨w.nextHandle⟩ b₄, ?_, by simp⟩)
    simpa [hrc] using hrun

/-! ## The two notions of string -/

/-- What the loader library must see: for a name, a non-empty string, the text of
the configuration before its first colon; for a configuration, all of it, and so
a name and arguments. -/
def SeesConfig (config : ByteString) : LoaderString → Prop
  | .name s => s.contents ≠ [] ∧ s.contents = config.takeWhile (· ≠ colon)
  | .conf s => s.contents = config ∧ NameArgsShape s.contents

/-- The strings of one run: none without a valid configuration. -/
theorem loadTcti_strings (config : ByteString) (log : Option Logger) (api : TctiLoaderApi σ)
    (linked : LinkedApi σ) (w : World σ) :
    (¬ValidConfig config ∧ loaderStrings (w.eventsSince (loadTcti config log api linked w).2) = []) ∨
    (ValidConfig config ∧ loaderStrings (w.eventsSince (loadTcti config log api linked w).2) =
      .name (cStr (tctiName config)) ::
        if InitReached api linked config w.backend then [.conf (cStr config)] else []) := by
  by_cases h : ValidConfig config
  swap
  · obtain ⟨e, hrun⟩ := loadTcti_of_not_valid h log api linked w
    exact Or.inl ⟨h, by rw [hrun, World.eventsSince_self, loaderStrings_nil]⟩
  refine Or.inr ⟨h, ?_⟩
  rcases loadTcti_cases h log api linked w with
    ⟨hreached, size, b, hrun⟩ | ⟨hreached, e, size, b, rc, events, hrun, hevents⟩ |
      ⟨hreached, e, b, rc, events, hrun, hevents⟩
  · rw [hrun, World.eventsSince_acquired_after, if_pos hreached]
    rfl
  · rw [hrun, World.eventsSince_acquired_after, if_pos hreached]
    simpa [loaderStrings] using hevents
  · rw [hrun, World.eventsSince_after, if_neg hreached]
    simpa [loaderStrings] using hevents

/-- The loader sees the whole name unless a NUL cuts it off. -/
theorem seesConfig_name_iff {config : ByteString} (h : ValidConfig config) :
    SeesConfig config (.name (cStr (tctiName config))) ↔ (0 : UInt8) ∉ tctiName config := by
  have hname : tctiName config ≠ [] := by
    obtain ⟨name, args, hne, hcolon, rfl⟩ := h.shape
    have hall : ∀ b ∈ name, (b ≠ colon : Bool) := fun b hb => by
      simpa using fun heq : b = colon => hcolon (heq ▸ hb)
    rw [tctiName_eq, List.takeWhile_append_of_pos hall]
    simp [hne]
  rw [SeesConfig, ← tctiName_eq, contents_cStr_eq_iff, and_iff_right_iff_imp]
  intro hzero
  rwa [contents_cStr_eq_iff.mpr hzero]

/-- It sees the whole configuration unless a NUL cuts it off. -/
theorem seesConfig_conf_iff {config : ByteString} (h : ValidConfig config) :
    SeesConfig config (.conf (cStr config)) ↔ (0 : UInt8) ∉ config := by
  rw [SeesConfig, contents_cStr_eq_iff, and_iff_left_iff_imp]
  intro hzero
  rw [contents_cStr_eq_iff.mpr hzero]
  exact h.shape

/-- **What the loader library sees.**  Every string that `load_tcti` hands over is
the text it validated, exactly when the configuration is refused, or its name
holds no NUL and neither does all of it once `init` is reached. -/
theorem load_tcti_sees_config_iff (config : ByteString) (log : Option Logger)
    (api : TctiLoaderApi σ) (linked : LinkedApi σ) (w : World σ) :
    (∀ s ∈ loaderStrings (w.eventsSince (loadTcti config log api linked w).2),
      SeesConfig config s) ↔
    (ValidConfig config → (0 : UInt8) ∉ tctiName config ∧
      (InitReached api linked config w.backend → (0 : UInt8) ∉ config)) := by
  rcases loadTcti_strings config log api linked w with ⟨hrefused, hnone⟩ | ⟨hvalid, hstrings⟩
  · simp [hnone, hrefused]
  rw [hstrings, List.forall_mem_cons, seesConfig_name_iff hvalid]
  by_cases hreached : InitReached api linked config w.backend
  · simp [hreached, hvalid, seesConfig_conf_iff hvalid]
  · simp [hreached, hvalid]

/-- A loader library that knows every name and whose `init` succeeds. -/
def TctiLoaderApi.obliging : TctiLoaderApi σ where
  getInfo _ b := (tss2RcSuccess, b)
  freeInfo b := b
  init _ _ _ b := (⟨tss2RcSuccess, 1⟩, b)
  decodeError := none

/-- Linked functions that provide storage and leave nothing behind. -/
def LinkedApi.obliging : LinkedApi σ where
  calloc _ b := (true, b)
  tctiLdrFinalize _ b := (false, b)
  free _ b := b
  clientDelete _ _ b := b

/-- The configuration `\0:x` passes validation, and the empty name is looked up. -/
theorem load_tcti_looks_up_empty_name :
    ¬∀ (config : ByteString) (log : Option Logger) (api : TctiLoaderApi Unit)
      (linked : LinkedApi Unit) (w : World Unit),
      ∀ s ∈ loaderStrings (w.eventsSince (loadTcti config log api linked w).2),
        SeesConfig config s := by
  intro h
  have hsees := h [0, colon, 0x78] none .obliging .obliging ⟨(), 0, []⟩
    (.name (cStr [0])) (by decide)
  exact hsees.1 rfl

end Tpmkit
