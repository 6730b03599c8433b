import Tpmkit.CleanLines

/-!
# The spdlog adapter

`spdlog_logger.cpp`: the message and the fields are rendered into one string, which
goes to a `spdlog::logger`.  Both adapters render the fields alike, and what they
render is read back by one parser (`rendered_fields_read_back`).
-/

namespace Tpmkit

open Checked ByteStrings LogFormat

/-- `spdlog::level::level_enum`. -/
inductive SpdlogLevel where
  | trace
  | debug
  | info
  | warn
  | err
  | critical
  | off
deriving DecidableEq, Repr

/-- A `spdlog::logger`, of which the adapter asks whether a level is wanted. -/
structure SpdlogSink where
  shouldLog : SpdlogLevel → Bool

/-- `spdlog_logger`, without its mutex; a moved-from logger has no sink. -/
structure SpdlogLogger where
  sink : Option SpdlogSink

/-- `spdlog_logger::spdlog_logger(std::shared_ptr<spdlog::logger>)`. -/
def SpdlogLogger.make (sink : Option SpdlogSink) : Outcome SpdlogLogger :=
  match sink with
  | none => .fault (.thrown (.tpmkitError "spdlog_logger sink must not be null"))
  | some sink => return ⟨some sink⟩

/-- `to_spdlog_level`. -/
def toSpdlogLevel : LogLevel → SpdlogLevel
  | .trace => .trace
  | .debug => .debug
  | .info => .info
  | .warn => .warn
  | .error => .err

/-- `spdlog_logger::log`: the level and the string that are handed to the sink. -/
def SpdlogLogger.log (logger : SpdlogLogger) (level : LogLevel) (message : ByteString)
    (fields : List LogField) : Option (SpdlogLevel × ByteString) :=
  match logger.sink with
  | none => none
  | some sink =>
      if !sink.shouldLog (toSpdlogLevel level) then none
      else
        let rendered := fields.foldl
          (fun rendered f => rendered ++ [space] ++ f.key ++ [equals] ++ escapeValue f.value)
          message
        some (toSpdlogLevel level, rendered)

/-- **What a call does.**  A logger that was not moved from, and whose sink wants the
level, hands on the message and the fields, rendered with the loop of the stdio logger;
any other hands on nothing. -/
theorem SpdlogLogger.log_eq (logger : SpdlogLogger) (level : LogLevel) (message : ByteString)
    (fields : List LogField) :
    logger.log level message fields =
      (logger.sink.filter fun sink => sink.shouldLog (toSpdlogLevel level)).map fun _ =>
        (toSpdlogLevel level, message ++ fieldsText fields) := by
  have hloop : fields.foldl (fun rendered f => rendered ++ [space] ++ f.key ++ [equals] ++
      escapeValue f.value) message = message ++ fieldsText fields :=
    foldl_appendField message fields
  unfold SpdlogLogger.log
  cases hsink : logger.sink with
  | none => rfl
  | some sink =>
      cases hwanted : sink.shouldLog (toSpdlogLevel level)
      · simp [Option.filter, hwanted]
      · simp only [Option.filter, hwanted, hloop, Bool.not_true, Bool.false_eq_true, if_false,
          if_true, Option.map_some]

/-- **Rendered fields are read back.**  Escaped values are decoded to the values, and one
parser recovers the keys and the values of a list of fields, in order, from the text that
is rendered for it.  That text is what both adapters append to the message: the stdio
logger in the line that it writes, unless the level is filtered out or the logger was
moved from, and the spdlog logger in the string that it hands to its sink, unless the
sink does not want the level or the logger was moved from. -/
theorem rendered_fields_read_back :
    (∀ value : ByteString, unescapeValue (escapeValue value) = some value) ∧
    (∀ value value' : ByteString, escapeValue value = escapeValue value' → value = value') ∧
    (∀ fields : List LogField, (∀ field ∈ fields, IsSnakeCase field.key) →
      readFields (fieldsText fields) = some fields) ∧
    (∀ (logger : StdioLogger) (env : LogEnvironment) (level : LogLevel) (message : ByteString)
      (fields : List LogField), ∃ buffer, logger.log env level message fields =
        .value ({ logger with record := buffer },
          if isBelowMinLevel level logger.minLevel then none
          else (streamForLevel level logger.out logger.err).map fun stream =>
            (stream, recordHead env (shouldColorize logger.color env stream) level ++ message ++
              fieldsText fields ++ [lineFeed]))) ∧
    ∀ (logger : SpdlogLogger) (level : LogLevel) (message : ByteString) (fields : List LogField),
      logger.log level message fields =
        (logger.sink.filter fun sink => sink.shouldLog (toSpdlogLevel level)).map fun _ =>
          (toSpdlogLevel level, message ++ fieldsText fields) := by
  refine ⟨unescapeValue_escapeValue, ?_, fun fields hkeys => readFields_fieldsText hkeys, ?_,
    SpdlogLogger.log_eq⟩
  · intro value value' h
    exact recovers_readValue.injective trivial trivial trivial h
  · intro logger env level message fields
    exact logger.log_eq env level message fields

/-- A name that looks like another field. -/
def forgedField : LogField := ⟨ascii "tcti_name", ascii "device outcome=\"success\""⟩

/-- It does not forge one: both adapters render it as one field, which is read back. -/
theorem rendered_fields_read_back_forged :
    readFields (fieldsText [forgedField]) = some [forgedField] ∧
    (∃ logger', StdioLogger.colorless.log (LogCall.atEpoch [] []).env .info (ascii "loaded")
        [forgedField] = .value (logger', some (.cout,
          ascii "1970-01-01T00:00:00.000Z [INFO ] loaded" ++ fieldsText [forgedField] ++
            [lineFeed]))) ∧
    SpdlogLogger.log ⟨some ⟨fun _ => true⟩⟩ .info (ascii "loaded") [forgedField] =
      some (.info, ascii "loaded" ++ fieldsText [forgedField]) := by
  obtain ⟨_, _, hread, hstdio, hspdlog⟩ := rendered_fields_read_back
  refine ⟨hread [forgedField] (by decide +kernel), ?_, ?_⟩
  · obtain ⟨buffer, hlog⟩ := hstdio .colorless (LogCall.atEpoch [] []).env .info (ascii "loaded")
      [forgedField]
    have hhead : recordHead (LogCall.atEpoch [] []).env false .info ++ ascii "loaded" =
        ascii "1970-01-01T00:00:00.000Z [INFO ] loaded" := by decide +kernel
    refine ⟨{ StdioLogger.colorless with record := buffer }, hlog.trans ?_⟩
    rw [← hhead]
    rfl
  · exact hspdlog ⟨some ⟨fun _ => true⟩⟩ .info (ascii "loaded") [forgedField]

end Tpmkit
