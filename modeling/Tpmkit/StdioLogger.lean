import Tpmkit.EscapeValue
import Tpmkit.Timestamps

/-!
# The stdio logger

`stdio_logger.cpp`: a record that passes the level filter is rendered into one buffer
and written to the stream of its level.  A call reads the clock, two environment
variables and whether the standard streams are terminals (`LogEnvironment`); what it
leaves is the logger and at most one write.
-/

namespace Tpmkit

open Checked ByteStrings LogFormat

/-! ## Options and state -/

/-- `color_mode`: by the environment and the stream, always, or never. -/
inductive ColorMode where
  | auto
  | always
  | never
deriving DecidableEq, Repr

/-- A `std::ostream`: a standard one, or one that a client lends. -/
inductive OutStream where
  | cout
  | cerr
  | client (id : Nat)
deriving DecidableEq, Repr

/-- `stdio_logger_options`; streams that are left out are the standard ones. -/
structure StdioLoggerOptions where
  minLevel : Option LogLevel
  color : ColorMode
  out : Option OutStream
  err : Option OutStream
deriving DecidableEq, Repr

/-- `stdio_logger`, without its mutex.  `record_` is the buffer that calls build their line in;
the streams are borrowed, and null once the object was moved from. -/
structure StdioLogger where
  color : ColorMode
  err : Option OutStream
  minLevel : Option LogLevel
  out : Option OutStream
  record : ByteString
deriving DecidableEq, Repr

/-- What a call reads of its process. -/
structure LogEnvironment where
  now : ClockReading
  noColor : Option CString
  forceColor : Option CString
  stdoutIsTty : Bool
  stderrIsTty : Bool

/-- `stdio_logger::stdio_logger(stdio_logger_options)`. -/
def StdioLogger.make (opts : StdioLoggerOptions) : StdioLogger :=
  ⟨opts.color, some (opts.err.getD .cerr), opts.minLevel, some (opts.out.getD .cout), []⟩

/-- `stdio_logger::stdio_logger(stdio_logger&&)`: the new logger and what it leaves. -/
def StdioLogger.moveConstruct (other : StdioLogger) : StdioLogger × StdioLogger :=
  (⟨other.color, other.err, other.minLevel, other.out, []⟩, { other with err := none, out := none })

/-! ## Helpers -/

/-- `static_cast<int>(level)`: the enumerators ascend with their severity. -/
def LogLevel.toNat : LogLevel → Nat
  | .trace => 0
  | .debug => 1
  | .info => 2
  | .warn => 3
  | .error => 4

def resetSequence : ByteString := 0x1b :: ascii "[0m"

/-- `ansi_sequence`: the escape sequence that starts the color of a level. -/
def ansiSequence : LogLevel → ByteString
  | .trace => 0x1b :: ascii "[2m"
  | .debug => 0x1b :: ascii "[36m"
  | .info => 0x1b :: ascii "[32m"
  | .warn => 0x1b :: ascii "[33m"
  | .error => 0x1b :: ascii "[31m"

/-- `env_is_set`, of the value that `getenv` returned: a variable that is set to nothing does
not count. -/
def envIsSet (value : Option CString) : Bool :=
  match value with
  | none => false
  | some value => value.memory.head? != some 0

/-- `is_below_min_level`: without a minimum every level is logged. -/
def isBelowMinLevel (level : LogLevel) (minLevel : Option LogLevel) : Bool :=
  match minLevel with
  | none => false
  | some minLevel => level.toNat < minLevel.toNat

/-- `is_tty_stream`: of the streams of a client none is taken for a terminal. -/
def isTtyStream (env : LogEnvironment) : OutStream → Bool
  | .cout => env.stdoutIsTty
  | .cerr => env.stderrIsTty
  | .client _ => false

/-- `level_label`, padded to five characters. -/
def levelLabel : LogLevel → ByteString
  | .trace => ascii "TRACE"
  | .debug => ascii "DEBUG"
  | .info => ascii "INFO "
  | .warn => ascii "WARN "
  | .error => ascii "ERROR"

/-- `should_colorize`: in mode `auto` the variables go before the terminal, and `NO_COLOR`
before `FORCE_COLOR`. -/
def shouldColorize (mode : ColorMode) (env : LogEnvironment) (stream : OutStream) : Bool :=
  match mode with
  | .always => true
  | .never => false
  | .auto =>
      if envIsSet env.noColor then false
      else if envIsSet env.forceColor then true
      else isTtyStream env stream

/-- `stream_for_level`: warnings and errors go to `err`, everything else to `out`. -/
def streamForLevel (level : LogLevel) (out err : Option OutStream) : Option OutStream :=
  match level with
  | .warn | .error => err
  | .trace | .debug | .info => out

/-! ## Logging -/

/-- One pass of the loop over the fields: a space, the key as it is, and the escaped value. -/
def appendField (record : ByteString) (field : LogField) : ByteString :=
  record ++ [space] ++ field.key ++ [equals] ++ escapeValue field.value

/-- A stream and the bytes that a call writes to it. -/
abbrev StreamWrite : Type := OutStream × ByteString

/-- `stdio_logger::log`: the record is built in the buffer and written with a line feed; a level
that is filtered out and a logger without a stream write nothing. -/
def StdioLogger.log (logger : StdioLogger) (env : LogEnvironment) (level : LogLevel)
    (message : ByteString) (fields : List LogField) :
    Outcome (StdioLogger × Option StreamWrite) :=
  if isBelowMinLevel level logger.minLevel then return (logger, none)
  else
    match streamForLevel level logger.out logger.err with
    | none => return (logger, none)
    | some stream => do
        let record ← appendTimestamp env.now []
        let record := record ++ [space]
        let color := shouldColorize logger.color env stream
        let record := if color then record ++ ansiSequence level else record
        let record := record ++ ascii "[" ++ levelLabel level ++ ascii "]"
        let record := if color then record ++ resetSequence else record
        let record := record ++ [space] ++ message
        let record := fields.foldl appendField record
        return ({ logger with record := record }, some (stream, record ++ [lineFeed]))

theorem foldl_appendField (record : ByteString) (fields : List LogField) :
    fields.foldl appendField record = record ++ fieldsText fields := by
  induction fields generalizing record with
  | nil => exact (List.append_nil record).symm
  | cons field fields ih =>
      rw [List.foldl_cons, ih, fieldsText, fieldsText, List.flatMap_cons, ← List.append_assoc]
      simp [appendField, fieldText, List.append_assoc]

/-- What a record starts with, in front of its message. -/
def recordHead (env : LogEnvironment) (color : Bool) (level : LogLevel) : ByteString :=
  env.now.stamp ++ [space] ++ (if color then ansiSequence level else []) ++
    (ascii "[" ++ levelLabel level ++ ascii "]") ++ (if color then resetSequence else []) ++ [space]

/-- The text of a record: its head, the message as it is, and the fields. -/
def recordText (env : LogEnvironment) (color : Bool) (level : LogLevel) (message : ByteString)
    (fields : List LogField) : ByteString :=
  recordHead env color level ++ message ++ fieldsText fields

/-- The write of a call: none when the level is filtered out or the logger was moved
from, and otherwise one line. -/
def StdioLogger.writeOf (logger : StdioLogger) (env : LogEnvironment) (level : LogLevel)
    (message : ByteString) (fields : List LogField) : Option StreamWrite :=
  if isBelowMinLevel level logger.minLevel then none
  else (streamForLevel level logger.out logger.err).map fun stream =>
    (stream,
      recordText env (shouldColorize logger.color env stream) level message fields ++ [lineFeed])

/-- **What a call does.**  Apart from the buffer the logger stays as it was. -/
theorem StdioLogger.log_eq (logger : StdioLogger) (env : LogEnvironment) (level : LogLevel)
    (message : ByteString) (fields : List LogField) :
    ∃ buffer, logger.log env level message fields =
      .value ({ logger with record := buffer }, logger.writeOf env level message fields) := by
  unfold StdioLogger.log StdioLogger.writeOf
  split
  · exact ⟨logger.record, rfl⟩
  · cases hstream : streamForLevel level logger.out logger.err with
    | none => exact ⟨logger.record, rfl⟩
    | some stream =>
        refine ⟨recordText env (shouldColorize logger.color env stream) level message fields, ?_⟩
        simp only [appendTimestamp_eq, Result.value_bind, foldl_appendField, Option.map_some,
          Result.pure_eq, recordText, recordHead]
        cases shouldColorize logger.color env stream
        · simp only [Bool.false_eq_true, if_false, List.append_assoc, List.nil_append]
        · simp only [if_true, List.append_assoc, List.nil_append]

end Tpmkit
