import Tpmkit.ContextCreation
import Tpmkit.Trimming

/-!
# The fake context and the language of TCTI strings

`fake_tpm_context.cpp`, a test substitute that validates a configuration as the
real context does and stores it.  The loader, the log redaction and the fake each
have their own reading of a TCTI string.  `IsTctiString` is the language that
they are meant to accept, and `tctiStrings_agree` says that all three accept it
and that the fake refuses a configuration exactly when the real context does so
on its own, with the same error.
-/

namespace Tpmkit.Testing

open Checked ByteStrings

variable {σ : Type}

/-! ## The fake -/

/-- `trim`. -/
def trim (value : ByteString) : ByteString := Trimming.trimmed isSpace value

/-- `has_name_args_shape`. -/
def hasNameArgsShape (value : ByteString) : Bool :=
  (findColon value).any fun position => 0 < position

/-- `is_valid_string_config`. -/
def isValidStringConfig (config : ByteString) : Bool :=
  let trimmed := trim config
  !trimmed.isEmpty && trimmed.length == config.length && hasNameArgsShape trimmed

/-- `is_valid_startup_mode`. -/
def isValidStartupMode (mode : StartupMode) : Bool :=
  mode = .clear || mode = .state || mode = .skip

/-- `validate`. -/
def validate (config : TpmContextConfig) : Outcome TpmContextConfig :=
  if !isValidStartupMode config.startup then
    fail .inputError "TPM startup mode is invalid"
  else if !isValidStringConfig config.tcti then
    fail .inputError "TCTI configuration must use name:args format"
  else
    return config

/-- `fake_tpm_context`. -/
structure FakeTpmContext where
  config : TpmContextConfig

namespace FakeTpmContext

/-- `create`. -/
def create (config : TpmContextConfig) : Outcome FakeTpmContext := do
  let validated ← validate config
  return ⟨validated⟩

/-- The overload of `create` for a string. -/
def createFromString (tctiConfig : ByteString) (startup : StartupMode) (log : Option Logger) :
    Outcome FakeTpmContext :=
  create ⟨tctiConfig, startup, log⟩

/-- `last_config`. -/
def lastConfig (context : FakeTpmContext) : TpmContextConfig := context.config

end FakeTpmContext

/-! ## The language -/

/-- A TCTI string: not empty, no space at either end, and a colon that is not at
the start. -/
structure IsTctiString (text : ByteString) : Prop where
  nonempty : text ≠ []
  leading : ∀ b ∈ text.head?, isSpace b = false
  trailing : ∀ b ∈ text.getLast?, isSpace b = false
  hasColon : colon ∈ text
  named : text.head? ≠ some colon

/-- The first colon stands behind a name when there is one and the text does not
start with it. -/
theorem nameArgsShape_iff {text : ByteString} :
    NameArgsShape text ↔ colon ∈ text ∧ text.head? ≠ some colon := by
  constructor
  · intro h
    obtain ⟨name, args, hname, hcolon, rfl⟩ := h
    refine ⟨by simp, fun hhead => ?_⟩
    cases name with
    | nil => exact hname rfl
    | cons b name =>
        have hb : b = colon := Option.some.inj hhead
        exact hcolon (hb ▸ List.mem_cons_self)
  · intro h
    obtain ⟨hcolon, hhead⟩ := h
    obtain ⟨name, args, rfl, hfirst⟩ := List.eq_append_cons_of_mem hcolon
    refine ⟨name, args, ?_, hfirst, rfl⟩
    intro hname
    subst hname
    exact hhead rfl

/-- The loops of the source trim as the loader's validation reads them. -/
theorem trim_eq (text : ByteString) : trim text = Tpmkit.trim text :=
  Trimming.trimmed_eq isSpace text

/-- The loader accepts the language. -/
theorem validConfig_iff {text : ByteString} : ValidConfig text ↔ IsTctiString text := by
  have htrim : Tpmkit.trim text = text ↔ (∀ b ∈ text.head?, isSpace b = false) ∧
      ∀ b ∈ text.getLast?, isSpace b = false := by
    rw [← trim_eq]
    exact Trimming.trimmed_eq_self_iff isSpace text
  constructor
  · intro h
    obtain ⟨hleading, htrailing⟩ := htrim.mp h.trimmed
    obtain ⟨hcolon, hnamed⟩ := nameArgsShape_iff.mp h.shape
    exact ⟨List.ne_nil_of_mem hcolon, hleading, htrailing, hcolon, hnamed⟩
  · intro h
    exact ⟨htrim.mpr ⟨h.leading, h.trailing⟩, nameArgsShape_iff.mpr ⟨h.hasColon, h.named⟩⟩

theorem validateConfig_iff {text : ByteString} :
    (∃ validated, validateConfig text = .value validated) ↔ IsTctiString text := by
  rw [← validConfig_iff]
  rcases validateConfig_cases text with ⟨hvalid, hvalue⟩ | ⟨hrefused, e, herror⟩
  · exact ⟨fun _ => hvalid, fun _ => ⟨text, hvalue⟩⟩
  · refine ⟨fun h => ?_, fun h => absurd h hrefused⟩
    obtain ⟨validated, hvalue⟩ := h
    rw [herror] at hvalue
    cases hvalue

/-- The log redaction accepts the language. -/
theorem sanitizedTctiName_iff {text : ByteString} :
    sanitizedTctiName text ≠ [] ↔ IsTctiString text := by
  rw [← validConfig_iff]
  refine ⟨fun h => ?_, sanitizedTctiName_ne_nil⟩
  by_contra hrefused
  exact h (sanitizedTctiName_of_not_valid hrefused)

theorem hasNameArgsShape_eq (text : ByteString) :
    hasNameArgsShape text = Tpmkit.hasNameArgsShape text := by
  unfold hasNameArgsShape Tpmkit.hasNameArgsShape
  cases findColon text <;> rfl

/-- The fake accepts the language. -/
theorem isValidStringConfig_iff {text : ByteString} :
    isValidStringConfig text = true ↔ IsTctiString text := by
  rw [← validConfig_iff, isValidStringConfig, trim_eq]
  simp only [Bool.and_eq_true, Bool.not_eq_true', List.isEmpty_eq_false_iff, beq_iff_eq,
    hasNameArgsShape_eq, hasNameArgsShape_iff]
  constructor
  · intro h
    obtain ⟨⟨_, hlength⟩, hshape⟩ := h
    have htrim := trim_eq_of_length hlength
    rw [htrim] at hshape
    exact ⟨htrim, hshape⟩
  · intro h
    have hcolon := (nameArgsShape_iff.mp h.shape).1
    rw [h.trimmed]
    exact ⟨⟨List.ne_nil_of_mem hcolon, rfl⟩, h.shape⟩

/-! ## The fake and the real context -/

/-- The event is a call of the loader library. -/
def Event.isLoaderCall : Event → Bool
  | .getInfo .. => true
  | .freeInfo => true
  | .tctiInit .. => true
  | .tctiLdrFinalize .. => true
  | _ => false

/-- A configuration that passes both validations gets to the loader library. -/
theorem loaderCalled_of_valid {config : TpmContextConfig} (h : config.Valid)
    (tctiApi : TctiLoaderApi σ) (api : EsysApi σ) (linked : LinkedApi σ) (w : World σ) :
    ∃ event ∈ w.eventsSince (createContextFromConfig config tctiApi api linked w).2,
      Event.isLoaderCall event = true := by
  obtain ⟨hcalls, _, _⟩ := createContextFromConfig_seen tctiApi api linked w h
  obtain ⟨rc, steps, hsteps⟩ : ∃ rc steps, creationSteps config tctiApi api linked w =
    (.getInfo (cStr (tctiName config.tcti)) rc, .info rc) :: steps := ⟨_, _, rfl⟩
  have hcalled : Event.getInfo (cStr (tctiName config.tcti)) rc ∈
      answeredCalls (w.eventsSince (createContextFromConfig config tctiApi api linked w).2) := by
    rw [hcalls, hsteps, Attempts.made]
    split <;> exact List.mem_map_of_mem List.mem_cons_self
  exact ⟨_, List.mem_of_mem_filter hcalled, rfl⟩

/-- What the fake answers, in the order of its checks. -/
theorem create_cases (config : TpmContextConfig) :
    (Tpmkit.isValidStartupMode config.startup = false ∧ FakeTpmContext.create config =
      .unexpected ⟨.inputError, "TPM startup mode is invalid"⟩) ∨
    (Tpmkit.isValidStartupMode config.startup = true ∧ ¬ValidConfig config.tcti ∧
      FakeTpmContext.create config =
        .unexpected ⟨.inputError, "TCTI configuration must use name:args format"⟩) ∨
    (config.Valid ∧ FakeTpmContext.create config = .value ⟨config⟩) := by
  have hmodes : isValidStartupMode config.startup = Tpmkit.isValidStartupMode config.startup := rfl
  have htexts : isValidStringConfig config.tcti = true ↔ ValidConfig config.tcti :=
    isValidStringConfig_iff.trans validConfig_iff.symm
  cases hstartup : Tpmkit.isValidStartupMode config.startup with
  | false =>
      refine Or.inl ⟨rfl, ?_⟩
      simp [FakeTpmContext.create, validate, hmodes, hstartup, fail]
  | true =>
      cases htext : isValidStringConfig config.tcti with
      | false =>
          refine Or.inr (Or.inl ⟨rfl, fun h => ?_, ?_⟩)
          · rw [htexts.mpr h] at htext
            cases htext
          · simp [FakeTpmContext.create, validate, hmodes, hstartup, htext, fail]
      | true =>
          refine Or.inr (Or.inr ⟨⟨hstartup, htexts.mp htext⟩, ?_⟩)
          simp [FakeTpmContext.create, validate, hmodes, hstartup, htext]

/-- **One language.**  The loader, the log redaction and the fake accept the TCTI
strings and nothing else.  The fake refuses a configuration when the real context
does so before its first call of the loader library, with the same error, and
stores any other configuration as it is, whichever overload is called. -/
theorem tctiStrings_agree (config : TpmContextConfig) (tctiApi : TctiLoaderApi σ)
    (api : EsysApi σ) (linked : LinkedApi σ) (w : World σ) :
    let run := createContextFromConfig config tctiApi api linked w
    ((∃ validated, validateConfig config.tcti = .value validated) ↔ IsTctiString config.tcti) ∧
      (sanitizedTctiName config.tcti ≠ [] ↔ IsTctiString config.tcti) ∧
      (isValidStringConfig config.tcti = true ↔ IsTctiString config.tcti) ∧
      (∀ e, FakeTpmContext.create config = .unexpected e ↔
        run.1 = .unexpected e ∧
          ∀ event ∈ w.eventsSince run.2, Event.isLoaderCall event = false) ∧
      ((∃ e, FakeTpmContext.create config = .unexpected e) ∨
        ∃ context, FakeTpmContext.create config = .value context ∧
          context.lastConfig = config) ∧
      FakeTpmContext.createFromString config.tcti config.startup config.log =
        FakeTpmContext.create config := by
  intro run
  refine ⟨validateConfig_iff, sanitizedTctiName_iff, isValidStringConfig_iff, ?_⟩
  rw [← and_assoc]
  refine ⟨?_, rfl⟩
  rcases create_cases config with ⟨hstartup, hfake⟩ | ⟨hstartup, htcti, hfake⟩ | ⟨hvalid, hfake⟩
  · have hrun : run = _ := createContextFromConfig_of_bad_startup tctiApi api linked w hstartup
    refine ⟨fun e => ?_, Or.inl ⟨_, hfake⟩⟩
    simp [hfake, hrun]
  · have hrun : run = _ :=
      createContextFromConfig_of_bad_tcti tctiApi api linked w hstartup htcti
    refine ⟨fun e => ?_, Or.inl ⟨_, hfake⟩⟩
    simp [hfake, hrun]
  · obtain ⟨event, hmem, hcall⟩ := loaderCalled_of_valid hvalid tctiApi api linked w
    refine ⟨fun e => ?_, Or.inr ⟨_, hfake, rfl⟩⟩
    constructor
    · intro h
      rw [hfake] at h
      cases h
    · intro h
      have hnone := h.2 event hmem
      rw [hcall] at hnone
      cases hnone

end Tpmkit.Testing
