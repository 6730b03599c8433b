import Tpmkit.CleanLines
import Tpmkit.LockedSections

/-!
# Concurrent logging

Threads that log through shared `stdio_logger` objects, construct loggers from each
other and assign them to each other.  `log` holds the mutex of its logger, the move
construction that of its source, and the move assignment those of both (`std::lock`
takes them together); in between, each append to the buffer `record_` and each byte
that goes to a stream is a step of its own, and steps of other threads come between.

`concurrent_lines` says what this leaves on the streams: whole lines, and at the
end of a stream the beginning of the line that is being written to it.
-/

namespace Tpmkit

open Checked ByteStrings LogFormat LockedSections

/-! ## Memory -/

/-- `operator=(stdio_logger&&)` of two objects: the target and what the source is left
with. -/
def StdioLogger.moveAssign (_target other : StdioLogger) : StdioLogger × StdioLogger :=
  (⟨other.color, other.err, other.minLevel, other.out, []⟩, { other with err := none, out := none })

/-- The logger writes to the stream. -/
def StdioLogger.Uses (logger : StdioLogger) (stream : OutStream) : Prop :=
  logger.out = some stream ∨ logger.err = some stream

/-- What threads share: loggers, and the streams that these borrow.  A stream belongs to
no logger; two loggers may have been made with the same one. -/
inductive LogCell (ι : Type) where
  | logger (i : ι)
  | stream (stream : OutStream)
deriving DecidableEq

/-- What is in a cell; of a stream, the bytes that it got. -/
def LogCell.Content {ι : Type} : LogCell ι → Type
  | .logger _ => StdioLogger
  | .stream _ => ByteString

/-- The shared memory: for each cell what is in it. -/
abbrev LogMemory (ι : Type) : Type := ∀ cell : LogCell ι, cell.Content

namespace LogMemory

variable {ι : Type}

/-- The memory with these loggers, and with these bytes on the streams. -/
def make (loggers : ι → StdioLogger) (streams : OutStream → ByteString) : LogMemory ι
  | .logger i => loggers i
  | .stream stream => streams stream

/-- The logger in a cell. -/
def logger (m : LogMemory ι) (i : ι) : StdioLogger := m (.logger i)

/-- What a stream got. -/
def stream (m : LogMemory ι) (stream : OutStream) : ByteString := m (.stream stream)

variable [DecidableEq ι]

/-- A logger is changed, by any of the assignments to its members. -/
def setLogger (i : ι) (f : StdioLogger → StdioLogger) (m : LogMemory ι) : LogMemory ι :=
  Function.update m (.logger i) (f (m.logger i))

/-- Bytes are written to a stream. -/
def put (stream : OutStream) (bytes : ByteString) (m : LogMemory ι) : LogMemory ι :=
  Function.update m (.stream stream) (m.stream stream ++ bytes)

/-- The logger that was changed is the changed one. -/
@[simp] theorem setLogger_logger (i : ι) (f : StdioLogger → StdioLogger) (m : LogMemory ι) :
    (m.setLogger i f).logger i = f (m.logger i) := Function.update_self ..

/-- A change of one logger leaves every other cell, the other loggers and all streams. -/
theorem setLogger_of_ne {cell : LogCell ι} {i : ι} (h : cell ≠ .logger i)
    (f : StdioLogger → StdioLogger) (m : LogMemory ι) : m.setLogger i f cell = m cell :=
  Function.update_of_ne h ..

/-- In particular the other loggers stay what they were. -/
theorem setLogger_logger_of_ne {i j : ι} (h : j ≠ i) (f : StdioLogger → StdioLogger)
    (m : LogMemory ι) : (m.setLogger i f).logger j = m.logger j := by
  have hcell : (.logger j : LogCell ι) ≠ .logger i := fun heq => h (LogCell.logger.inj heq)
  exact setLogger_of_ne hcell f m

/-- And so do the streams: nothing is written when a logger changes. -/
@[simp] theorem setLogger_stream (i : ι) (f : StdioLogger → StdioLogger) (m : LogMemory ι)
    (s : OutStream) : (m.setLogger i f).stream s = m.stream s := by
  have hcell : (.stream s : LogCell ι) ≠ .logger i := nofun
  exact setLogger_of_ne hcell f m

/-- A write to one stream leaves every other cell. -/
theorem put_of_ne {cell : LogCell ι} {s : OutStream} (h : cell ≠ .stream s) (bytes : ByteString)
    (m : LogMemory ι) : m.put s bytes cell = m cell :=
  Function.update_of_ne h ..

/-- In particular no logger notices it. -/
@[simp] theorem put_logger (s : OutStream) (bytes : ByteString) (m : LogMemory ι) (i : ι) :
    (m.put s bytes).logger i = m.logger i := by
  have hcell : (.logger i : LogCell ι) ≠ .stream s := nofun
  exact put_of_ne hcell bytes m

/-- What is written goes to the end of the stream. -/
@[simp] theorem put_stream (s : OutStream) (bytes : ByteString) (m : LogMemory ι) :
    (m.put s bytes).stream s = m.stream s ++ bytes := Function.update_self ..

/-- Two changes of the same logger make one. With `put_put` this is how the steps of an
operation are gathered into the operation. -/
@[simp] theorem setLogger_setLogger (i : ι) (f g : StdioLogger → StdioLogger) (m : LogMemory ι) :
    (m.setLogger i f).setLogger i g = m.setLogger i fun logger => g (f logger) := by
  rw [setLogger, setLogger_logger]
  exact Function.update_idem ..

/-- A change that does nothing to the logger does nothing at all. -/
theorem setLogger_eq_self {i : ι} {f : StdioLogger → StdioLogger} {m : LogMemory ι}
    (h : f (m.logger i) = m.logger i) : m.setLogger i f = m := by
  rw [setLogger, h]
  exact Function.update_eq_self ..

/-- Only what a change does to the logger as it stands matters. -/
theorem setLogger_congr {i : ι} {f g : StdioLogger → StdioLogger} {m : LogMemory ι}
    (h : f (m.logger i) = g (m.logger i)) : m.setLogger i f = m.setLogger i g := by
  rw [setLogger, setLogger, h]

/-- Two writes to the same stream make one, of the bytes one after the other. -/
@[simp] theorem put_put (s : OutStream) (bytes bytes' : ByteString) (m : LogMemory ι) :
    (m.put s bytes).put s bytes' = m.put s (bytes ++ bytes') := by
  rw [put, put_stream, List.append_assoc]
  exact Function.update_idem ..

/-- Writing nothing changes nothing. -/
@[simp] theorem put_nil (s : OutStream) (m : LogMemory ι) : m.put s [] = m := by
  rw [put, List.append_nil]
  exact Function.update_eq_self ..

end LogMemory

/-! ## Operations -/

/-- What a thread does with loggers: it logs, constructs a logger from another one, or
assigns one to another. -/
inductive LogOp (ι : Type) where
  | log (i : ι) (call : LogCall)
  | moveConstruct (target source : ι)
  | moveAssign (target source : ι)

/-- What `log` appends to the buffer after the timestamp and a space, one piece after
the other. -/
def LogCall.pieces (call : LogCall) (color : Bool) : List ByteString :=
  (if color then [ansiSequence call.level] else []) ++
    [ascii "[", levelLabel call.level, ascii "]"] ++
    (if color then [resetSequence] else []) ++ [[space], call.message] ++
    call.fields.flatMap fun field => [[space], field.key, [equals], escapeValue field.value]

namespace LogOp

variable {ι : Type} [DecidableEq ι]

/-- `record_ += piece`: one append to the buffer of a logger. -/
def append (i : ι) (piece : ByteString) : LogMemory ι → LogMemory ι :=
  .setLogger i fun logger => { logger with record := logger.record ++ piece }

/-- One byte of `*stream << record_`. -/
def putByte (i : ι) (stream : OutStream) (k : Nat) (m : LogMemory ι) : LogMemory ι :=
  m.put stream (m.logger i).record[k]?.toList

/-- `stdio_logger::log`, while it holds the mutex.  A step reads or writes one member, appends
one piece to the buffer or puts one byte on the stream; between two of them other threads
may run. -/
def logCode (i : ι) (call : LogCall) : Code (LogMemory ι) :=
  .act id fun m =>
    if isBelowMinLevel call.level (m.logger i).minLevel then .done
    else
      match streamForLevel call.level (m.logger i).out (m.logger i).err with
      | none => .done
      | some stream =>
        .act (.setLogger i fun logger => { logger with record := [] }) fun _ =>
          .forEach [call.env.now.stamp, [space]] (append i) <|
            .act id fun m =>
              .forEach (call.pieces (shouldColorize (m.logger i).color call.env stream)) (append i) <|
                .act id fun m =>
                  .forEach (List.range (m.logger i).record.length) (putByte i stream) <|
                    .act (.put stream [lineFeed]) fun _ => .done

/-- The options of one logger are copied to another one, member by member, as both moves
do. -/
def copyOptions (target source : ι) (rest : Code (LogMemory ι)) : Code (LogMemory ι) :=
  .act (fun m => m.setLogger target fun logger =>
      { logger with color := (m.logger source).color }) fun _ =>
    .act (fun m => m.setLogger target fun logger =>
        { logger with err := (m.logger source).err }) fun _ =>
      .act (fun m => m.setLogger target fun logger =>
          { logger with minLevel := (m.logger source).minLevel }) fun _ =>
        .act (fun m => m.setLogger target fun logger =>
            { logger with out := (m.logger source).out }) fun _ => rest

/-- A logger gives up its streams: what both moves leave of their source logs nothing any
more. -/
def releaseStreams (source : ι) : Code (LogMemory ι) :=
  .act (.setLogger source fun logger => { logger with err := none }) fun _ =>
    .act (.setLogger source fun logger => { logger with out := none }) fun _ => .done

/-- `stdio_logger(stdio_logger&&)`.  The new object starts without a level and with an empty
buffer; its other members hold what the storage held until they are copied.  An object is
not constructed from itself. -/
def moveConstructCode (target source : ι) : Code (LogMemory ι) :=
  if target = source then .done
  else
    .act (.setLogger target fun logger => { logger with minLevel := none, record := [] }) fun _ =>
      copyOptions target source (releaseStreams source)

/-- `operator=(stdio_logger&&)`, while it holds both mutexes; nothing is done when the
objects are the same. -/
def moveAssignCode (target source : ι) : Code (LogMemory ι) :=
  if target = source then .done
  else
    copyOptions target source <|
      .act (.setLogger target fun logger => { logger with record := [] }) fun _ =>
        releaseStreams source

/-- The steps of an operation, from the lock to the unlock. -/
def code : LogOp ι → Code (LogMemory ι)
  | .log i call => logCode i call
  | .moveConstruct target source => moveConstructCode target source
  | .moveAssign target source => moveAssignCode target source

omit [DecidableEq ι] in
/-- The loggers whose mutexes an operation takes.  A move construction takes that of its
source; its target counts as taken too, since nobody else may use an object that is being
constructed. -/
def locks : LogOp ι → Set ι
  | .log i _ => {i}
  | .moveConstruct target source => {i | target ≠ source ∧ (i = target ∨ i = source)}
  | .moveAssign target source => {i | target ≠ source ∧ (i = target ∨ i = source)}

/-- An operation at once: what it does when no other thread comes between its steps. -/
def apply (m : LogMemory ι) : LogOp ι → LogMemory ι
  | .log i call =>
    match (m.logger i).log call.env call.level call.message call.fields with
    | .value (logger, write) =>
      (write.toList.foldl (fun m x => m.put x.1 x.2) (m.setLogger i fun _ => logger))
    | _ => m
  | .moveConstruct target source =>
    if target = source then m
    else
      let moved := (m.logger source).moveConstruct
      (m.setLogger target fun _ => moved.1).setLogger source fun _ => moved.2
  | .moveAssign target source =>
    if target = source then m
    else
      let moved := (m.logger target).moveAssign (m.logger source)
      (m.setLogger target fun _ => moved.1).setLogger source fun _ => moved.2

/-! ## All steps of an operation -/

omit [DecidableEq ι] in
/-- The pieces of a record make its text. -/
theorem flatten_pieces (call : LogCall) (color : Bool) :
    call.env.now.stamp ++ [space] ++ (call.pieces color).flatten =
      recordText call.env color call.level call.message call.fields := by
  have hfields : (call.fields.flatMap fun field =>
      [[space], field.key, [equals], escapeValue field.value]).flatten = fieldsText call.fields := by
    rw [fieldsText]
    induction call.fields with
    | nil => rfl
    | cons field fields ih =>
        rw [List.flatMap_cons, List.flatten_append, ih, List.flatMap_cons]
        simp [fieldText]
  cases color <;> simp [LogCall.pieces, recordText, recordHead, hfields]

/-- Appending pieces is appending what they make. -/
theorem foldl_append (i : ι) (pieces : List ByteString) (m : LogMemory ι) :
    pieces.foldl (fun m piece => append i piece m) m = append i pieces.flatten m := by
  induction pieces generalizing m with
  | nil => exact (LogMemory.setLogger_eq_self (by simp)).symm
  | cons piece pieces ih =>
      rw [List.foldl_cons, ih, append, append, LogMemory.setLogger_setLogger]
      simp [append]

/-- The bytes of the buffer go to the stream, one after the other.  The buffer does not change
meanwhile, so the first `n` of them make its beginning. -/
theorem foldl_putByte (i : ι) (stream : OutStream) (n : Nat) (m : LogMemory ι) :
    (List.range n).foldl (fun m k => putByte i stream k m) m =
      m.put stream ((m.logger i).record.take n) := by
  induction n with
  | zero => simp
  | succ n ih =>
      rw [List.range_succ, List.foldl_append, ih, List.foldl_cons, List.foldl_nil, putByte,
        LogMemory.put_logger, LogMemory.put_put, List.take_add_one]

/-- What `log` leaves of a logger that writes: the record in its buffer, and the same record
with a line feed on the stream. -/
theorem log_of_stream {logger : StdioLogger} {call : LogCall} {stream : OutStream}
    (hlevel : isBelowMinLevel call.level logger.minLevel = false)
    (hstream : streamForLevel call.level logger.out logger.err = some stream) :
    logger.log call.env call.level call.message call.fields =
      .value ({ logger with
          record := recordText call.env (shouldColorize logger.color call.env stream) call.level
            call.message call.fields },
        some (stream, recordText call.env (shouldColorize logger.color call.env stream) call.level
          call.message call.fields ++ [lineFeed])) := by
  unfold StdioLogger.log
  simp only [hlevel, hstream, appendTimestamp_eq, Result.value_bind, foldl_appendField,
    Result.pure_eq, recordText, recordHead]
  cases shouldColorize logger.color call.env stream
  · simp only [Bool.false_eq_true, if_false, List.append_assoc, List.nil_append]
  · simp only [Bool.false_eq_true, if_false, if_true, List.append_assoc, List.nil_append]

/-- The steps of `log`, run without a break, do what `StdioLogger.log` says: they fill the
buffer and write the line byte by byte. -/
theorem run_logCode (i : ι) (call : LogCall) (m : LogMemory ι) :
    (logCode i call).run m = apply m (.log i call) := by
  cases hlevel : isBelowMinLevel call.level (m.logger i).minLevel with
  | true => simp [logCode, apply, Code.run, StdioLogger.log, hlevel, LogMemory.setLogger_eq_self]
  | false =>
      cases hstream : streamForLevel call.level (m.logger i).out (m.logger i).err with
      | none =>
          simp [logCode, apply, Code.run, StdioLogger.log, hlevel, hstream,
            LogMemory.setLogger_eq_self]
      | some stream =>
          rw [apply, log_of_stream hlevel hstream]
          simp only [logCode, Code.run, id, hlevel, hstream, Bool.false_eq_true, if_false,
            Code.run_forEach, foldl_append, foldl_putByte]
          let filled (text : ByteString) : LogMemory ι :=
            m.setLogger i fun logger => { logger with record := text }
          have happend : ∀ text piece, append i piece (filled text) = filled (text ++ piece) :=
            fun text piece => LogMemory.setLogger_setLogger ..
          have hlogger : ∀ text, (filled text).logger i = { m.logger i with record := text } :=
            fun text => LogMemory.setLogger_logger ..
          have hclear : (m.setLogger i fun logger => { logger with record := [] }) = filled [] := rfl
          have hpieces := flatten_pieces call (shouldColorize (m.logger i).color call.env stream)
          simp only [hclear, happend, hlogger, List.nil_append, List.flatten_cons,
            List.flatten_nil, List.append_nil, hpieces, List.take_length, LogMemory.put_put]
          rfl

/-- The four assignments of a move leave the target with the options of the source; the buffer
is none of them. -/
theorem run_copyOptions {target source : ι} (hne : target ≠ source) (rest : Code (LogMemory ι))
    (m : LogMemory ι) :
    (copyOptions target source rest).run m = rest.run (m.setLogger target fun logger =>
      ⟨(m.logger source).color, (m.logger source).err, (m.logger source).minLevel,
        (m.logger source).out, logger.record⟩) := by
  simp only [copyOptions, Code.run, LogMemory.setLogger_setLogger,
    LogMemory.setLogger_logger_of_ne (Ne.symm hne)]

/-- The two last assignments of a move leave the source without streams. -/
theorem run_releaseStreams (source : ι) (m : LogMemory ι) :
    (releaseStreams source).run m =
      m.setLogger source fun logger => { logger with err := none, out := none } := by
  simp only [releaseStreams, Code.run, LogMemory.setLogger_setLogger]

/-- **The steps of an operation do what the operation does.** -/
theorem run_code (op : LogOp ι) (m : LogMemory ι) : op.code.run m = op.apply m := by
  cases op with
  | log i call => exact run_logCode i call m
  | moveConstruct target source =>
      by_cases hself : target = source
      · simp [code, moveConstructCode, apply, Code.run, hself]
      · simp only [code, moveConstructCode, apply, Code.run, hself, if_false,
          run_copyOptions hself, run_releaseStreams, LogMemory.setLogger_setLogger,
          LogMemory.setLogger_logger_of_ne (Ne.symm hself)]
        refine LogMemory.setLogger_congr ?_
        rw [LogMemory.setLogger_logger_of_ne (Ne.symm hself)]
        rfl
  | moveAssign target source =>
      by_cases hself : target = source
      · simp [code, moveAssignCode, apply, Code.run, hself]
      · simp only [code, moveAssignCode, apply, Code.run, hself, if_false,
          run_copyOptions hself, run_releaseStreams, LogMemory.setLogger_setLogger]
        refine LogMemory.setLogger_congr ?_
        rw [LogMemory.setLogger_logger_of_ne (Ne.symm hself)]
        rfl

/-! ## What the mutexes guard -/

omit [DecidableEq ι] in
/-- The mutex of a logger guards the logger and the streams that it writes to. -/
def region (i : ι) (m : LogMemory ι) : Set (LogCell ι)
  | .logger j => j = i
  | .stream stream => (m.logger i).Uses stream

omit [DecidableEq ι] in
/-- Streams only grow: what was on one is a beginning of what is on it later.  Of loggers
nothing is said. -/
def grown : ∀ cell : LogCell ι, cell.Content → cell.Content → Prop
  | .logger _ => fun _ _ => True
  | .stream _ => fun (x y : ByteString) => x <+: y

/-- The operations, their mutexes, and what these guard. -/
def discipline : Discipline ι (LogOp ι) (LogCell.Content (ι := ι)) :=
  ⟨code, locks, region, grown⟩

section Footprint

variable {F : Set (LogCell ι)} {m m' : LogMemory ι} {i : ι}

/-- A change of a logger that the thread may touch leaves the rest of the memory as it is, which
is the first half of being safe. -/
theorem frame_setLogger (hi : .logger i ∈ F) (f : StdioLogger → StdioLogger) (m : LogMemory ι)
    (cell : LogCell ι) (hcell : cell ∉ F) : m.setLogger i f cell = m cell :=
  LogMemory.setLogger_of_ne (fun heq => hcell (by rwa [heq])) f m

omit [DecidableEq ι] in
/-- Memories that agree on what the thread may touch show it the same logger. -/
theorem agree_logger (hi : .logger i ∈ F) (h : AgreeOn F m m') : m.logger i = m'.logger i :=
  h (.logger i) hi

/-- The second half: the change looks at nothing else, so memories that agree before it agree
afterwards. -/
theorem agree_setLogger (hi : .logger i ∈ F) {f f' : StdioLogger → StdioLogger} (hf : f = f')
    (h : AgreeOn F m m') : AgreeOn F (m.setLogger i f) (m'.setLogger i f') := by
  intro cell hcell
  subst hf
  by_cases heq : cell = .logger i
  · subst heq
    exact (LogMemory.setLogger_logger i f m).trans
      ((congrArg f (agree_logger hi h)).trans (LogMemory.setLogger_logger i f m').symm)
  · rw [LogMemory.setLogger_of_ne heq, LogMemory.setLogger_of_ne heq]
    exact h cell hcell

/-- A write to a stream that the thread may touch leaves the rest of the memory as it is. -/
theorem frame_put {stream : OutStream} (hstream : .stream stream ∈ F) (bytes : ByteString)
    (m : LogMemory ι) (cell : LogCell ι) (hcell : cell ∉ F) : m.put stream bytes cell = m cell :=
  LogMemory.put_of_ne (fun heq => hcell (by rwa [heq])) bytes m

/-- And it looks at nothing else: where the same bytes go to the stream, memories that agreed
before still do. -/
theorem agree_put {stream : OutStream} (hstream : .stream stream ∈ F) {bytes bytes' : ByteString}
    (hbytes : bytes = bytes') (h : AgreeOn F m m') :
    AgreeOn F (m.put stream bytes) (m'.put stream bytes') := by
  intro cell hcell
  subst hbytes
  by_cases heq : cell = .stream stream
  · subst heq
    have hsame : m.stream stream = m'.stream stream := h _ hstream
    exact (LogMemory.put_stream stream bytes m).trans
      ((congrArg (· ++ bytes) hsame).trans (LogMemory.put_stream stream bytes m').symm)
  · rw [LogMemory.put_of_ne heq, LogMemory.put_of_ne heq]
    exact h cell hcell

omit [DecidableEq ι] in
/-- The stream of a call is one that the logger writes to, so the mutex of the logger guards
it. -/
theorem uses_of_streamForLevel {logger : StdioLogger} {level : LogLevel} {stream : OutStream}
    (h : streamForLevel level logger.out logger.err = some stream) : logger.Uses stream := by
  cases level with
  | warn => exact Or.inr h
  | error => exact Or.inr h
  | trace => exact Or.inl h
  | debug => exact Or.inl h
  | info => exact Or.inl h

/-- `log` works on its logger and on the streams of that logger, at every step: it looks at
nothing else and changes nothing else. -/
theorem safe_logCode (i : ι) (call : LogCall) (m : LogMemory ι) :
    Safe (region i m) (logCode i call) m := by
  have hi : (.logger i : LogCell ι) ∈ region i m := rfl
  refine .act_of (fun _ _ _ => rfl) (fun _ _ h => h) (fun (m' : LogMemory ι) h => ?_) ?_
  · have hsame : m'.logger i = m.logger i := (agree_logger hi h).symm
    simp only [id, hsame]
  simp only [id]
  split
  · exact .done m
  cases hstream : streamForLevel call.level (m.logger i).out (m.logger i).err with
  | none => exact .done m
  | some stream =>
      have hmem : (.stream stream : LogCell ι) ∈ region i m := uses_of_streamForLevel hstream
      have happend : ∀ pieces code (m' : LogMemory ι),
          (∀ m'' : LogMemory ι, Safe (region i m) code m'') →
          Safe (region i m) (.forEach pieces (append i) code) m' :=
        fun pieces code m' hcode => .forEach (fun _ => frame_setLogger hi _)
          (fun _ _ _ h => agree_setLogger hi rfl h) pieces (hcode _)
      refine .act_of (frame_setLogger hi _) (fun _ _ h => agree_setLogger hi rfl h)
        (fun _ _ => rfl) (happend _ _ _ fun m' => ?_)
      refine .act_of (fun _ _ _ => rfl) (fun _ _ h => h) (fun (m'' : LogMemory ι) h => ?_)
        (happend _ _ _ fun m' => ?_)
      · have hsame : m''.logger i = m'.logger i := (agree_logger hi h).symm
        simp only [id, hsame]
      refine .act_of (fun _ _ _ => rfl) (fun _ _ h => h) (fun (m'' : LogMemory ι) h => ?_)
        (.forEach (fun _ _ => frame_put hmem _ _) (fun k m m' h => ?_) _ ?_)
      · have hsame : m''.logger i = m'.logger i := (agree_logger hi h).symm
        simp only [id, hsame]
      · exact agree_put hmem (by rw [agree_logger hi h]) h
      · exact .act_of (frame_put hmem _) (fun _ _ h => agree_put hmem rfl h) (fun _ _ => rfl)
          (.done _)

/-- A change of one logger that looks at another one is safe for a thread that may touch
both, as a move may. -/
theorem safe_setLogger {source : ι} (hi : .logger i ∈ F) (hsource : .logger source ∈ F)
    (f : StdioLogger → StdioLogger → StdioLogger) {code : Code (LogMemory ι)}
    (hcode : ∀ m : LogMemory ι, Safe F code m) (m : LogMemory ι) :
    Safe F (.act (fun m : LogMemory ι => m.setLogger i (f (m.logger source))) fun _ => code) m :=
  .act_of (fun m' => frame_setLogger hi _ m')
    (fun (_ _ : LogMemory ι) h => agree_setLogger hi (by rw [agree_logger hsource h]) h)
    (fun _ _ => rfl) (hcode _)

/-- The options are copied within the two loggers. -/
theorem safe_copyOptions {target source : ι} (htarget : .logger target ∈ F)
    (hsource : .logger source ∈ F) {rest : Code (LogMemory ι)}
    (hrest : ∀ m : LogMemory ι, Safe F rest m) (m : LogMemory ι) :
    Safe F (copyOptions target source rest) m := by
  refine safe_setLogger htarget hsource (fun source logger =>
    { logger with color := source.color }) (fun m => ?_) m
  refine safe_setLogger htarget hsource (fun source logger =>
    { logger with err := source.err }) (fun m => ?_) m
  refine safe_setLogger htarget hsource (fun source logger =>
    { logger with minLevel := source.minLevel }) (fun m => ?_) m
  exact safe_setLogger htarget hsource (fun source logger =>
    { logger with out := source.out }) hrest m

/-- A logger gives up its streams within itself. -/
theorem safe_releaseStreams {source : ι} (hsource : .logger source ∈ F) (m : LogMemory ι) :
    Safe F (releaseStreams source) m := by
  refine safe_setLogger hsource hsource (fun _ logger => { logger with err := none })
    (fun m => ?_) m
  exact safe_setLogger hsource hsource (fun _ logger => { logger with out := none }) (.done ·) m

/-- The move construction works on the two loggers, if they are two. -/
theorem safe_moveConstructCode {target source : ι}
    (hF : target ≠ source → .logger target ∈ F ∧ .logger source ∈ F) (m : LogMemory ι) :
    Safe F (moveConstructCode target source) m := by
  unfold moveConstructCode
  split
  · exact .done m
  next hne =>
    obtain ⟨htarget, hsource⟩ := hF hne
    exact safe_setLogger htarget hsource
      (fun _ logger => { logger with minLevel := none, record := [] })
      (safe_copyOptions htarget hsource (safe_releaseStreams hsource)) m

/-- The move assignment works on the two loggers, if they are two. -/
theorem safe_moveAssignCode {target source : ι}
    (hF : target ≠ source → .logger target ∈ F ∧ .logger source ∈ F) (m : LogMemory ι) :
    Safe F (moveAssignCode target source) m := by
  unfold moveAssignCode
  split
  · exact .done m
  next hne =>
    obtain ⟨htarget, hsource⟩ := hF hne
    exact safe_copyOptions htarget hsource (safe_setLogger htarget hsource
      (fun _ logger => { logger with record := [] }) (safe_releaseStreams hsource)) m

/-- What a move of two different loggers holds are both of them. -/
theorem mem_regions_of_move {op : LogOp ι} {target source : ι}
    (hlocks : op.locks = {i | target ≠ source ∧ (i = target ∨ i = source)}) (m : LogMemory ι)
    (hne : target ≠ source) :
    .logger target ∈ discipline.regions op m ∧ .logger source ∈ discipline.regions op m := by
  have htarget : target ∈ op.locks := hlocks ▸ ⟨hne, Or.inl rfl⟩
  have hsource : source ∈ op.locks := hlocks ▸ ⟨hne, Or.inr rfl⟩
  exact ⟨⟨target, htarget, rfl⟩, ⟨source, hsource, rfl⟩⟩

end Footprint

/-! ## Growth -/

/-- A change of a logger takes nothing from a stream. -/
theorem grown_setLogger (i : ι) (f : StdioLogger → StdioLogger) (m : LogMemory ι)
    (cell : LogCell ι) : grown cell (m cell) (m.setLogger i f cell) := by
  cases cell with
  | logger j => trivial
  | stream stream =>
      have hsame : m.setLogger i f (.stream stream) = m (.stream stream) :=
        LogMemory.setLogger_stream i f m stream
      rw [hsame]
      exact List.prefix_refl _

/-- A write adds to its stream and takes nothing from the others. -/
theorem grown_put (s : OutStream) (bytes : ByteString) (m : LogMemory ι) (cell : LogCell ι) :
    grown cell (m cell) (m.put s bytes cell) := by
  cases cell with
  | logger j => trivial
  | stream stream =>
      by_cases hs : stream = s
      · subst hs
        have hput : m.put stream bytes (.stream stream) = m.stream stream ++ bytes :=
          LogMemory.put_stream stream bytes m
        rw [hput]
        exact List.prefix_append _ _
      · rw [LogMemory.put_of_ne (by simpa using hs)]
        exact List.prefix_refl _

omit [DecidableEq ι] in
/-- A stream is a beginning of itself. -/
theorem grown_refl (cell : LogCell ι) (x : cell.Content) : grown cell x x := by
  cases cell with
  | logger j => trivial
  | stream stream => exact List.prefix_refl _

omit [DecidableEq ι] in
/-- Growth by two steps is growth. -/
theorem grown_trans (cell : LogCell ι) (x y z : cell.Content) (h : grown cell x y)
    (h' : grown cell y z) : grown cell x z := by
  cases cell with
  | logger j => trivial
  | stream stream => exact List.IsPrefix.trans h h'

/-- Copying the options takes nothing from a stream, if what follows takes nothing either. -/
theorem grows_copyOptions (target source : ι) {cell : LogCell ι} {rest : Code (LogMemory ι)}
    (hrest : Grows cell (grown cell) rest) :
    Grows cell (grown cell) (copyOptions target source rest) :=
  .act (fun m => grown_setLogger target _ m cell) fun _ =>
    .act (fun m => grown_setLogger target _ m cell) fun _ =>
      .act (fun m => grown_setLogger target _ m cell) fun _ =>
        .act (fun m => grown_setLogger target _ m cell) fun _ => hrest

/-- Giving up streams takes nothing from them. -/
theorem grows_releaseStreams (source : ι) (cell : LogCell ι) :
    Grows cell (grown cell) (releaseStreams source) :=
  .act (grown_setLogger source _ · cell) fun _ =>
    .act (grown_setLogger source _ · cell) fun _ => .done

/-- No step of any operation takes anything from a stream. -/
theorem grows_code (op : LogOp ι) (cell : LogCell ι) : Grows cell (grown cell) op.code := by
  cases op with
  | log i call =>
      refine .act (fun _ => grown_refl cell _) fun m => ?_
      split
      · exact .done
      split
      · exact .done
      refine .act (grown_setLogger i _ · cell) fun _ =>
        .forEach (fun _ m => grown_setLogger i _ m cell) (.act (fun _ => grown_refl cell _) fun m =>
          .forEach (fun _ m => grown_setLogger i _ m cell) (.act (fun _ => grown_refl cell _) fun m =>
            .forEach (fun k m => grown_put _ _ m cell) (.act (grown_put _ _ · cell) fun _ => .done)
              _) _) _
  | moveConstruct target source =>
      change Grows cell (grown cell) (moveConstructCode target source)
      unfold moveConstructCode
      split
      · exact .done
      · exact .act (grown_setLogger target _ · cell) fun _ =>
          grows_copyOptions target source (grows_releaseStreams source cell)
  | moveAssign target source =>
      change Grows cell (grown cell) (moveAssignCode target source)
      unfold moveAssignCode
      split
      · exact .done
      · exact grows_copyOptions target source
          (.act (grown_setLogger target _ · cell) fun _ => grows_releaseStreams source cell)

/-! ## Who writes to which stream -/

/-- What `log` leaves of the loggers: its own has another buffer, and everything else stays.
In particular it writes to the same streams as before. -/
theorem apply_log_logger (i : ι) (call : LogCall) (m : LogMemory ι) :
    ∃ buffer, (apply m (.log i call)).logger = Function.update m.logger i
      { m.logger i with record := buffer } := by
  obtain ⟨buffer, hlog⟩ :=
    (m.logger i).log_eq call.env call.level call.message call.fields
  refine ⟨buffer, ?_⟩
  rw [apply, hlog]
  funext j
  by_cases hj : j = i
  · subst hj
    cases (m.logger j).writeOf call.env call.level call.message call.fields <;> simp
  · cases (m.logger i).writeOf call.env call.level call.message call.fields <;>
      simp [hj, LogMemory.setLogger_logger_of_ne hj]

/-- A move gives the streams of its source to its target, and no logger has more. -/
theorem uses_moveAssign {target source : ι} (hne : target ≠ source) {m : LogMemory ι} {j : ι}
    {stream : OutStream} (h : ((apply m (.moveAssign target source)).logger j).Uses stream) :
    (j ≠ target ∧ j ≠ source ∧ (m.logger j).Uses stream) ∨
      (j = target ∧ (m.logger source).Uses stream) := by
  have happly : apply m (.moveAssign target source) =
      (m.setLogger target fun _ => ((m.logger target).moveAssign (m.logger source)).1).setLogger
        source fun _ => ((m.logger target).moveAssign (m.logger source)).2 := by
    rw [apply, if_neg hne]
  rw [happly] at h
  by_cases hsource : j = source
  · subst hsource
    rw [LogMemory.setLogger_logger] at h
    simp [StdioLogger.Uses, StdioLogger.moveAssign] at h
  rw [LogMemory.setLogger_logger_of_ne hsource] at h
  by_cases htarget : j = target
  · subst htarget
    rw [LogMemory.setLogger_logger] at h
    exact Or.inr ⟨rfl, h⟩
  · rw [LogMemory.setLogger_logger_of_ne htarget] at h
    exact Or.inl ⟨htarget, hsource, h⟩

/-- A logger writes to the streams that it wrote to before, or to those of the logger that
was moved to it; a logger that was moved from writes to none. -/
theorem uses_apply {op : LogOp ι} {m : LogMemory ι} {j : ι} {stream : OutStream}
    (h : ((op.apply m).logger j).Uses stream) :
    (j ∉ op.locks ∧ (m.logger j).Uses stream) ∨
      (j ∈ op.locks ∧ ∃ k ∈ op.locks, (m.logger k).Uses stream ∧
        ∀ j' ∈ op.locks, ((op.apply m).logger j').Uses stream → j' = j) := by
  have hmove : ∀ target source : ι,
      ((apply m (.moveAssign target source)).logger j).Uses stream →
      (j ∉ locks (.moveAssign target source) ∧ (m.logger j).Uses stream) ∨
        (j ∈ locks (.moveAssign target source) ∧ ∃ k ∈ locks (.moveAssign target source),
          (m.logger k).Uses stream ∧ ∀ j' ∈ locks (.moveAssign target source),
            ((apply m (.moveAssign target source)).logger j').Uses stream → j' = j) := by
    intro target source h
    by_cases hself : target = source
    · rw [apply, if_pos hself] at h
      exact Or.inl ⟨fun hj => hj.1 hself, h⟩
    rcases uses_moveAssign hself h with ⟨htarget, hsource, huses⟩ | ⟨rfl, huses⟩
    · exact Or.inl ⟨fun hj => hj.2.elim htarget hsource, huses⟩
    · refine Or.inr ⟨⟨hself, Or.inl rfl⟩, source, ⟨hself, Or.inr rfl⟩, huses, ?_⟩
      intro j' hj' huses'
      rcases uses_moveAssign hself huses' with ⟨htarget, hsource, _⟩ | ⟨hj, _⟩
      · exact (hj'.2.elim htarget hsource).elim
      · exact hj
  cases op with
  | log i call =>
      obtain ⟨buffer, hlogger⟩ := apply_log_logger i call m
      rw [hlogger] at h
      by_cases hj : j = i
      · subst hj
        rw [Function.update_self] at h
        exact Or.inr ⟨rfl, j, rfl, h, fun j' hj' _ => hj'⟩
      · rw [Function.update_of_ne hj] at h
        exact Or.inl ⟨hj, h⟩
  -- the two moves leave the same loggers
  | moveConstruct target source => exact hmove target source h
  | moveAssign target source => exact hmove target source h

/-- What mutexes guard is apart exactly when loggers share no stream. -/
theorem separate_iff {m : LogMemory ι} : discipline.Separate m ↔
    ∀ i j stream, i ≠ j → (m.logger i).Uses stream → ¬(m.logger j).Uses stream := by
  constructor
  · intro h i j stream hne hi hj
    have hcell : (.stream stream : LogCell ι) ∈ region i m := hi
    exact Set.disjoint_left.mp (h i j hne) hcell hj
  · intro h i j hne
    refine Set.disjoint_left.mpr fun cell hi hj => ?_
    cases cell with
    | logger k =>
        have hk : k = i := hi
        have hk' : k = j := hj
        exact hne (hk.symm.trans hk')
    | stream stream => exact h i j stream hne hi hj

/-- No operation makes loggers share a stream.  A move could, if it left the streams with its
source. -/
theorem separate_apply {m : LogMemory ι} (op : LogOp ι)
    (h : ∀ i j stream, i ≠ j → (m.logger i).Uses stream → ¬(m.logger j).Uses stream) :
    ∀ i j stream, i ≠ j → ((op.apply m).logger i).Uses stream →
      ¬((op.apply m).logger j).Uses stream := by
  intro i j stream hne hi hj
  have happly := hj
  rcases uses_apply hi with ⟨hi, huses⟩ | ⟨hi, k, hk, huses, honly⟩
  · rcases uses_apply hj with ⟨_, huses'⟩ | ⟨_, k', hk', huses', _⟩
    · exact h i j stream hne huses huses'
    · exact h i k' stream (fun heq => hi (heq ▸ hk')) huses huses'
  · rcases uses_apply hj with ⟨hj, huses'⟩ | ⟨hj, _⟩
    · exact h k j stream (fun heq => hj (heq ▸ hk)) huses huses'
    · exact hne (honly j hj happly).symm

/-- The operations keep to what their mutexes guard, and hand the streams of a logger on only
to a logger whose mutex they hold as well. -/
theorem lawful : (discipline : Discipline ι (LogOp ι) LogCell.Content).Lawful where
  framed i m m' h := by
    have hsame : m' (.logger i) = m (.logger i) := (h (.logger i) rfl).symm
    have hlogger : LogMemory.logger m' i = LogMemory.logger m i := hsame
    change region i m' = region i m
    funext cell
    cases cell with
    | logger j => rfl
    | stream stream => exact congrArg (StdioLogger.Uses · stream) hlogger
  safe op m _ := by
    cases op with
    | log i call =>
        have hregions : discipline.regions (.log i call) m = region i m := by
          ext cell
          simp [Discipline.regions, discipline, locks]
        rw [hregions]
        exact safe_logCode i call m
    | moveConstruct target source =>
        exact safe_moveConstructCode (mem_regions_of_move rfl m) m
    | moveAssign target source =>
        exact safe_moveAssignCode (mem_regions_of_move rfl m) m
  kept op m _ i hi := by
    change region i (op.code.run m) ⊆ discipline.regions op m
    rw [run_code]
    intro cell hcell
    cases cell with
    | logger j => exact ⟨i, hi, hcell⟩
    | stream stream =>
        rcases uses_apply hcell with ⟨hnot, _⟩ | ⟨_, k, hk, huses, _⟩
        · exact absurd hi hnot
        · exact ⟨k, hk, huses⟩
  separate op m hsep := by
    change discipline.Separate (op.code.run m)
    rw [run_code]
    exact separate_iff.mpr (separate_apply op (separate_iff.mp hsep))
  grown_refl := grown_refl
  grown_trans := grown_trans
  grows := grows_code

/-! ## Lines -/

omit [DecidableEq ι] in
/-- The line that an operation writes to a stream; a move writes none. -/
def line (m : LogMemory ι) (stream : OutStream) : LogOp ι → Option ByteString
  | .log i call => ((m.logger i).write call).bind fun x => if x.1 = stream then some x.2 else none
  | .moveConstruct _ _ => none
  | .moveAssign _ _ => none

/-- An operation adds its line to a stream, if it writes one there, and nothing else. -/
theorem apply_stream (op : LogOp ι) (m : LogMemory ι) (stream : OutStream) :
    (op.apply m).stream stream = m.stream stream ++ (op.line m stream).getD [] := by
  cases op with
  | log i call =>
      obtain ⟨buffer, hlog⟩ :=
        (m.logger i).log_eq call.env call.level call.message call.fields
      rw [apply, hlog]
      change _ = _ ++ (((m.logger i).writeOf call.env call.level call.message call.fields).bind
        fun x => if x.1 = stream then some x.2 else none).getD []
      cases (m.logger i).writeOf call.env call.level call.message call.fields with
      | none => simp
      | some x =>
          by_cases hx : x.1 = stream
          · subst hx
            simp
          · have hcell : (.stream stream : LogCell ι) ≠ .stream x.1 :=
              fun heq => hx (LogCell.stream.inj heq).symm
            have hput : ∀ m' : LogMemory ι, (m'.put x.1 x.2).stream stream = m'.stream stream :=
              fun m' => LogMemory.put_of_ne hcell x.2 m'
            simp [hput, hx]
  | moveConstruct target source =>
      by_cases hself : target = source <;> simp [apply, line, hself]
  | moveAssign target source =>
      by_cases hself : target = source <;> simp [apply, line, hself]

omit [DecidableEq ι] in
/-- A line is not empty: it ends with its line feed. -/
theorem line_ne_nil {op : LogOp ι} {m : LogMemory ι} {stream : OutStream} {text : ByteString}
    (h : op.line m stream = some text) : text ≠ [] := by
  cases op with
  | moveConstruct target source => cases h
  | moveAssign target source => cases h
  | log i call =>
      obtain ⟨x, hwrite, hx⟩ := Option.bind_eq_some_iff.mp h
      split at hx
      swap
      · cases hx
      obtain rfl := Option.some.inj hx
      unfold StdioLogger.write StdioLogger.writeOf at hwrite
      split at hwrite
      · cases hwrite
      · obtain ⟨s, _, rfl⟩ := Option.map_eq_some_iff.mp hwrite
        simp

variable {θ : Type}

/-- Operations one after another, whichever threads they are of. -/
def serial (m : LogMemory ι) (order : List (θ × LogOp ι)) : LogMemory ι :=
  order.foldl (fun m x => x.2.apply m) m

/-- The lines that they write to a stream, each in the memory that the ones before it leave. -/
def lines (stream : OutStream) : LogMemory ι → List (θ × LogOp ι) → List ByteString
  | _, [] => []
  | m, x :: order => (x.2.line m stream).toList ++ lines stream (x.2.apply m) order

/-- The serial execution of the discipline is the one that is written out here. -/
theorem serial_eq (m : LogMemory ι) (order : List (θ × LogOp ι)) :
    discipline.serial m order = serial m order :=
  List.foldl_ext _ _ _ fun m x _ => run_code x.2 m

/-- The lines of two parts are those of the one, and then those of the other in the memory that
the one leaves. -/
theorem lines_append (stream : OutStream) (m : LogMemory ι) (order order' : List (θ × LogOp ι)) :
    lines stream m (order ++ order') = lines stream m order ++ lines stream (serial m order) order' := by
  induction order generalizing m with
  | nil => rfl
  | cons x order ih =>
      rw [List.cons_append, lines, lines, ih, List.append_assoc]
      rfl

/-- One after another, operations leave on a stream what was there and their lines. -/
theorem serial_stream (stream : OutStream) (m : LogMemory ι) (order : List (θ × LogOp ι)) :
    (serial m order).stream stream = m.stream stream ++ (lines stream m order).flatten := by
  induction order generalizing m with
  | nil => exact (List.append_nil _).symm
  | cons x order ih =>
      rw [serial, List.foldl_cons, ← serial, ih, apply_stream, lines, List.append_assoc]
      cases x.2.line m stream <;> simp

/-- Operations that wrote no byte wrote no line, since no line is empty. -/
theorem flatten_lines_eq_nil {stream : OutStream} {m : LogMemory ι} {order : List (θ × LogOp ι)}
    (h : (lines stream m order).flatten = []) : lines stream m order = [] := by
  induction order generalizing m with
  | nil => rfl
  | cons x order ih =>
      rw [lines, List.flatten_append, List.append_eq_nil_iff] at h
      rw [lines, ih h.2, List.append_nil]
      cases hline : x.2.line m stream with
      | none => rfl
      | some text =>
          rw [hline] at h
          exact absurd (by simpa using h.1) (line_ne_nil hline)

omit [DecidableEq ι] in
/-- Threads that work on loggers. -/
abbrev LogSystem (θ ι : Type) : Type := System θ (LogOp ι) (@LogCell.Content ι)

/-- What is on a stream: the lines of the operations, in order; and while a thread is at
the last of them, the beginning of its line. -/
inductive WholeLines (m : LogMemory ι) (w : LogSystem θ ι)
    (stream : OutStream) : Prop
  | quiet (hcontent : LogMemory.stream w.memory stream =
      m.stream stream ++ (lines stream m w.order).flatten)
  | writing (t : θ) (op : LogOp ι) (before after : List (θ × LogOp ι)) (text part : ByteString)
      (hat : (w.threads t).current.map Prod.fst = some op)
      (horder : w.order = before ++ (t, op) :: after)
      (hline : op.line (serial m before) stream = some text) (hpart : part <+: text)
      (hlast : lines stream m w.order = lines stream m before ++ [text])
      (hcontent : LogMemory.stream w.memory stream =
        m.stream stream ++ (lines stream m before).flatten ++ part)

/-- Between two lines there is nothing but the beginning of the next one. -/
theorem wholeLines_of_between {m : LogMemory ι} {w : LogSystem θ ι} {stream : OutStream} {t : θ}
    {op : LogOp ι} {before after : List (θ × LogOp ι)}
    (hat : (w.threads t).current.map Prod.fst = some op)
    (horder : w.order = before ++ (t, op) :: after)
    (hbefore : (serial m before).stream stream <+: LogMemory.stream w.memory stream)
    (hwithin : LogMemory.stream w.memory stream <+:
      (serial m (before ++ [(t, op)])).stream stream)
    (hafter : (serial m (before ++ [(t, op)])).stream stream = (serial m w.order).stream stream) :
    WholeLines m w stream := by
  have hnext : (serial m (before ++ [(t, op)])).stream stream =
      (serial m before).stream stream ++ (op.line (serial m before) stream).getD [] := by
    rw [serial, List.foldl_append]
    exact apply_stream op (serial m before) stream
  obtain ⟨part, hpart⟩ := hbefore
  cases hline : op.line (serial m before) stream with
  | none =>
      rw [hnext, hline, Option.getD_none, List.append_nil] at hwithin hafter
      have hsame := hwithin.eq_of_length_le (by simp [← hpart])
      rw [hafter, serial_stream] at hsame
      exact .quiet hsame
  | some text =>
      rw [hnext, hline, Option.getD_some] at hwithin hafter
      rw [← hpart, List.prefix_append_right_inj] at hwithin
      refine .writing t op before after text part hat horder hline hwithin ?_ ?_
      · have hlines : lines stream m w.order = lines stream m before ++ [text] ++
            lines stream (serial m (before ++ [(t, op)])) after := by
          have hsplit : before ++ (t, op) :: after = (before ++ [(t, op)]) ++ after := by simp
          rw [horder, hsplit, lines_append, lines_append stream m before, lines, hline]
          rfl
        rw [serial_stream, serial_stream, List.append_assoc, hlines] at hafter
        have hrest : (lines stream (serial m (before ++ [(t, op)])) after).flatten = [] := by
          simpa using hafter
        rw [hlines, flatten_lines_eq_nil hrest, List.append_nil]
      · rw [← hpart, serial_stream]

end LogOp

section Results

variable {ι θ : Type} [DecidableEq ι] [DecidableEq θ]

/-- **Concurrent calls leave whole lines.**  When no two loggers share a stream: however the
steps of the threads come between each other, the operations take their mutexes thread by
thread in program order; each stream holds the lines of these operations, one after the
other, and at its end at most the beginning of the line that a thread is at; when no
operation is under way the loggers and streams are those of the serial run; and as long as
a thread has something to do, some thread can take a step. -/
theorem concurrent_lines (loggers : ι → StdioLogger) (streams : OutStream → ByteString)
    (programs : θ → List (LogOp ι)) (w : LogOp.LogSystem θ ι)
    (hapart : ∀ i j stream, i ≠ j → (loggers i).Uses stream → ¬(loggers j).Uses stream)
    (hreach : LogOp.discipline.Reaches
      (Discipline.initial (LogMemory.make loggers streams) programs) w) :
    (∀ t, (w.order.filterMap fun x => if x.1 = t then some x.2 else none) ++
        (w.threads t).todo = programs t) ∧
      (∀ stream, LogOp.WholeLines (LogMemory.make loggers streams) w stream) ∧
      ((∀ t, (w.threads t).current = none) →
        w.memory = LogOp.serial (LogMemory.make loggers streams) w.order) ∧
      ((∃ t, (w.threads t).todo ≠ [] ∨ (w.threads t).current ≠ none) →
        ∃ w', LogOp.discipline.Step w w') := by
  have hconsistent := Discipline.consistent_of_reaches LogOp.lawful
    (LogOp.separate_iff.mpr hapart) hreach
  refine ⟨hconsistent.programs, fun stream => ?_, fun hidle => ?_, Discipline.exists_step w⟩
  · rcases hconsistent.memory_between LogOp.lawful (.stream stream) with
      hquiet | ⟨t, op, before, after, hat, horder, hbefore, hwithin, hafter⟩
    · rw [LogOp.serial_eq] at hquiet
      exact .quiet (hquiet.trans (LogOp.serial_stream ..))
    · rw [LogOp.serial_eq] at hbefore hwithin
      rw [LogOp.serial_eq, LogOp.serial_eq] at hafter
      exact LogOp.wholeLines_of_between hat horder hbefore hwithin hafter
  · rw [hconsistent.memory_eq hidle, LogOp.serial_eq]

/-- One thread logs; the other one takes the logger over into a new object and logs too. -/
def takeOver : Bool → List (LogOp Bool)
  | false => [.log false (.atEpoch (ascii "a") [])]
  | true => [.moveConstruct true false, .log true (.atEpoch (ascii "b") [])]

/-- Before that, the storage of the new object holds no streams. -/
def beforeTakeOver (i : Bool) : StdioLogger :=
  if i then StdioLogger.colorless.moveConstruct.2 else .colorless

/-- The new logger is in the middle of its line, and the run goes on. -/
theorem concurrent_lines_interrupted :
    ∃ w, LogOp.discipline.Reaches (Discipline.initial
        (LogMemory.make beforeTakeOver fun _ => []) takeOver) w ∧
      LogMemory.stream w.memory .cout = ascii "1970" ∧
      LogOp.WholeLines (LogMemory.make beforeTakeOver fun _ => []) w .cout ∧
      ∃ w', LogOp.discipline.Step w w' := by
  have hapart : ∀ i j stream, i ≠ j → (beforeTakeOver i).Uses stream →
      ¬(beforeTakeOver j).Uses stream := by
    intro i j stream hne hi hj
    cases i <;> cases j
    · exact hne rfl
    · exact hj.elim nofun nofun
    · exact hi.elim nofun nofun
    · exact hne rfl
  have hmoved := Discipline.reaches_next (D := LogOp.discipline) (t := true)
    (w := Discipline.initial (LogMemory.make beforeTakeOver fun _ => []) takeOver) rfl
    fun _ => rfl
  have hstarted := hmoved.tail (.start (t := true) rfl fun t _ _ hcurrent => by
    cases t <;> cases hcurrent)
  have hreach := hstarted.trans (Discipline.reaches_steps (t := true) rfl 15)
  have h := concurrent_lines beforeTakeOver (fun _ => []) takeOver _ hapart hreach
  exact ⟨_, hreach, by decide, h.2.1 .cout, h.2.2.2 ⟨false, Or.inl (by decide)⟩⟩

end Results

end Tpmkit
