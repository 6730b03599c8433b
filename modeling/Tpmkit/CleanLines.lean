import Tpmkit.StdioLogger

/-!
# Lines of the stdio logger

A clean line ends with its only newline and holds no other control character.  The
code escapes the values of fields and nothing else, and leaves the delete character
alone.  `clean_lines` says which calls write a clean line all the same, and that a
series of such calls leaves one line for each record on the streams.
-/

namespace Tpmkit

open Checked ByteStrings LogFormat

/-! ## Clean text -/

/-- An ASCII control character. -/
def IsControl (c : UInt8) : Prop := c < 0x20 ∨ c = 0x7f

instance (c : UInt8) : Decidable (IsControl c) := inferInstanceAs (Decidable (c < 0x20 ∨ c = 0x7f))

/-- Text without control characters. -/
def CleanText (text : ByteString) : Prop := ∀ c ∈ text, ¬IsControl c

instance (text : ByteString) : Decidable (CleanText text) :=
  inferInstanceAs (Decidable (∀ c ∈ text, ¬IsControl c))

/-- Clean text and a newline. -/
def CleanLine (bytes : ByteString) : Prop := ∃ text, bytes = text ++ [lineFeed] ∧ CleanText text

/-- A text is clean when its parts are. -/
@[simp] theorem cleanText_append (text text' : ByteString) :
    CleanText (text ++ text') ↔ CleanText text ∧ CleanText text' :=
  List.forall_mem_append

/-- The empty text is clean. -/
@[simp] theorem cleanText_nil : CleanText [] := fun _ h => absurd h List.not_mem_nil

/-- A text is clean when its first byte is no control character and the rest is clean. -/
@[simp] theorem cleanText_cons (c : UInt8) (text : ByteString) :
    CleanText (c :: text) ↔ ¬IsControl c ∧ CleanText text :=
  List.forall_mem_cons

/-- A line is clean when what stands before its line feed is. -/
theorem cleanLine_append_lineFeed (text : ByteString) :
    CleanLine (text ++ [lineFeed]) ↔ CleanText text := by
  constructor
  · intro hline
    obtain ⟨text', heq, hclean⟩ := hline
    rwa [List.append_cancel_right heq]
  · intro hclean
    exact ⟨text, rfl, hclean⟩

/-! ## The parts of a record -/

/-- Digits are no control characters. -/
theorem not_isControl_decimalDigit : ∀ d < 10, ¬IsControl (decimalDigit d) := by
  decide

/-- Nor are texts of digits. -/
theorem cleanText_digits {digits : List Nat} (h : ∀ d ∈ digits, d < 10) :
    CleanText (digits.map decimalDigit) := by
  intro c hc
  obtain ⟨d, hd, rfl⟩ := List.mem_map.mp hc
  exact not_isControl_decimalDigit d (h d hd)

/-- A padded number is clean. -/
theorem cleanText_numeral (width n : Nat) : CleanText (numeral width n) :=
  cleanText_digits fun _ hd => FixedDigits.lt_of_mem_digits (by decide) hd

/-- So is one with a sign. -/
theorem cleanText_printInt (width : Nat) (n : Int) : CleanText (printInt width n) := by
  have hdigits : ∀ width n : Nat, CleanText ((FixedDigits.padded 10 width n).map decimalDigit) :=
    fun _ _ => cleanText_digits fun _ hd => FixedDigits.lt_of_mem_digits (by decide) hd
  unfold printInt
  split
  · rw [cleanText_cons]
    exact ⟨by decide, hdigits _ _⟩
  · exact hdigits _ _

/-- So is every timestamp, that of an instant before 1970 included. -/
theorem cleanText_text (now : ClockReading) : CleanText now.text := by
  have hmarks : ¬IsControl 0x2d ∧ ¬IsControl 0x54 ∧ ¬IsControl 0x3a ∧ ¬IsControl 0x2e ∧
      ¬IsControl 0x5a := by decide
  obtain ⟨hdash, hT, hcolon, hdot, hZ⟩ := hmarks
  simp only [ClockReading.text, secondsText, cleanText_append, cleanText_cons, cleanText_nil,
    cleanText_numeral, cleanText_printInt, hdash, hT, hcolon, hdot, hZ, and_self,
    not_false_eq_true]

/-- A timestamp is clean unless the terminator of its buffer was copied. -/
theorem cleanText_stamp_iff (now : ClockReading) : CleanText now.stamp ↔ -100 < now.millis := by
  constructor
  · intro hclean
    by_contra hcut
    rw [(ClockReading.stamp_of_le (Int.not_lt.mp hcut)).1, cleanText_append, cleanText_cons] at hclean
    exact hclean.2.1 (by decide)
  · intro hfits
    rw [(ClockReading.stamp_of_lt hfits).1]
    exact cleanText_text now

/-- The labels of the levels are clean. -/
theorem cleanText_levelLabel (level : LogLevel) : CleanText (levelLabel level) := by
  cases level <;> decide +kernel

/-- The head of a line is clean unless the timestamp overflows its buffer, where the NUL of
`snprintf` gets into it. -/
theorem cleanText_recordHead_iff (env : LogEnvironment) (level : LogLevel) :
    CleanText (recordHead env false level) ↔ -100 < env.now.millis := by
  have hspace : ¬IsControl space := by decide
  have hbrackets : CleanText (ascii "[") ∧ CleanText (ascii "]") := by decide +kernel
  simp only [recordHead, Bool.false_eq_true, if_false, List.append_nil, cleanText_append,
    cleanText_cons, cleanText_nil, cleanText_levelLabel, cleanText_stamp_iff, hspace,
    hbrackets.1, hbrackets.2, not_false_eq_true, and_true]

/-- An escaped character is clean unless it is the delete character. -/
theorem cleanText_escapeChar_iff : ∀ c : UInt8, CleanText (escapeChar c) ↔ c ≠ 0x7f :=
  forall_byte (by decide +kernel)

/-- Of the bytes that are written as they are only DEL is a control character. -/
theorem isControl_iff_of_plain :
    ∀ c : UInt8, needsQuotingAt c = false → (¬IsControl c ↔ c ≠ 0x7f) :=
  forall_byte (by decide +kernel)

/-- An escaped value is clean unless it has a DEL, the one control character that is not
escaped. -/
theorem cleanText_escapeValue_iff (value : ByteString) :
    CleanText (escapeValue value) ↔ (0x7f : UInt8) ∉ value := by
  have hmem : (∀ c ∈ value, c ≠ 0x7f) ↔ (0x7f : UInt8) ∉ value :=
    ⟨fun h hdelete => h _ hdelete rfl, fun h c hc heq => h (heq ▸ hc)⟩
  rw [← hmem]
  by_cases hquoting : value.any needsQuotingAt
  · have hescape : escapeValue value = quote :: (value.flatMap escapeChar ++ [quote]) := by
      simp [escapeValue, hquoting]
    have hquote : ¬IsControl quote := by decide
    have hflat : CleanText (value.flatMap escapeChar) ↔
        ∀ c ∈ value, CleanText (escapeChar c) := List.forall_mem_flatMap
    simp only [hescape, cleanText_cons, cleanText_append, cleanText_nil, hquote,
      not_false_eq_true, true_and, and_true, hflat, cleanText_escapeChar_iff]
  · have hescape : escapeValue value = value := by simp [escapeValue, hquoting]
    have hplain : ∀ c ∈ value, needsQuotingAt c = false := by
      intro c hc
      by_contra hneeds
      exact hquoting (List.any_eq_true.mpr ⟨c, hc, by simpa using hneeds⟩)
    rw [hescape]
    exact forall₂_congr fun c hc => isControl_iff_of_plain c (hplain c hc)

/-- Lower-case letters, digits and underscores are no control characters. -/
theorem not_isControl_of_snakeCase :
    ∀ c : UInt8, (0x61 ≤ c ∧ c ≤ 0x7a) ∨ (0x30 ≤ c ∧ c ≤ 0x39) ∨ c = 0x5f → ¬IsControl c :=
  forall_byte (by decide +kernel)

/-- A key in snake case is clean. -/
theorem cleanText_of_snakeCase {key : ByteString} (h : IsSnakeCase key) : CleanText key :=
  fun c hc => not_isControl_of_snakeCase c (h.2 c hc)

/-- The suffix of the fields is clean unless a value has a DEL. -/
theorem cleanText_fieldsText_iff {fields : List LogField}
    (h : ∀ field ∈ fields, IsSnakeCase field.key) :
    CleanText (fieldsText fields) ↔ ∀ field ∈ fields, (0x7f : UInt8) ∉ field.value := by
  have hflat : CleanText (fieldsText fields) ↔ ∀ field ∈ fields, CleanText (fieldText field) :=
    List.forall_mem_flatMap
  have hmarks : ¬IsControl space ∧ ¬IsControl equals := by decide
  rw [hflat]
  refine forall₂_congr fun field hfield => ?_
  simp only [fieldText, cleanText_append, cleanText_cons, cleanText_nil, hmarks.1, hmarks.2,
    cleanText_of_snakeCase (h field hfield), cleanText_escapeValue_iff, not_false_eq_true,
    and_true, true_and]

/-! ## Calls -/

/-- The arguments of a call of `log` and what it reads of its process. -/
structure LogCall where
  env : LogEnvironment
  level : LogLevel
  message : ByteString
  fields : List LogField

/-- The call writes clean text: its message is clean, no value holds a delete character,
and the clock is not a tenth of a second or more into a second before 1970. -/
structure LogCall.Clean (call : LogCall) : Prop where
  message : CleanText call.message
  values : ∀ field ∈ call.fields, (0x7f : UInt8) ∉ field.value
  clock : -100 < call.env.now.millis

/-- The keys of the fields are tokens. -/
def LogCall.Keyed (call : LogCall) : Prop := ∀ field ∈ call.fields, IsSnakeCase field.key

namespace StdioLogger

/-- The stream that the call is routed to; a logger that was moved from has none. -/
def streamOf (logger : StdioLogger) (call : LogCall) : Option OutStream :=
  streamForLevel call.level logger.out logger.err

/-- Color is off for the call. -/
def Colorless (logger : StdioLogger) (call : LogCall) : Prop :=
  ∀ stream, logger.streamOf call = some stream →
    shouldColorize logger.color call.env stream = false

/-- The write of a call. -/
def write (logger : StdioLogger) (call : LogCall) : Option StreamWrite :=
  logger.writeOf call.env call.level call.message call.fields

/-- A whole record is clean exactly for a clean call: the message goes in as it is. -/
theorem cleanText_recordText_iff {call : LogCall} (hkeyed : call.Keyed) :
    CleanText (recordText call.env false call.level call.message call.fields) ↔ call.Clean := by
  simp only [recordText, cleanText_append, cleanText_recordHead_iff,
    cleanText_fieldsText_iff hkeyed]
  constructor
  · intro h
    exact ⟨h.1.2, h.2, h.1.1⟩
  · intro h
    exact ⟨⟨h.clock, h.message⟩, h.values⟩

/-- What a call with color off writes. -/
theorem write_cases {logger : StdioLogger} {call : LogCall} (hcolor : logger.Colorless call) :
    logger.write call = none ∨ ∃ stream, logger.streamOf call = some stream ∧
      logger.write call = some (stream,
        recordText call.env false call.level call.message call.fields ++ [lineFeed]) := by
  unfold write writeOf
  split
  · exact Or.inl rfl
  · cases hstream : logger.streamOf call with
    | none =>
        rw [streamOf] at hstream
        rw [hstream]
        exact Or.inl rfl
    | some stream =>
        refine Or.inr ⟨stream, rfl, ?_⟩
        rw [← hcolor stream hstream]
        rw [streamOf] at hstream
        rw [hstream]
        rfl

/-- A call with color off that passes the level filter writes a clean line exactly when
the logger has a stream and the call is clean. -/
theorem writes_cleanLine_iff {logger : StdioLogger} {call : LogCall} (hkeyed : call.Keyed)
    (hcolor : logger.Colorless call) (hlevel : isBelowMinLevel call.level logger.minLevel = false) :
    (∃ stream bytes, logger.write call = some (stream, bytes) ∧ CleanLine bytes) ↔
      (logger.streamOf call).isSome = true ∧ call.Clean := by
  rcases write_cases hcolor with hnone | ⟨stream, hstream, hwrite⟩
  · have hclosed : logger.streamOf call = none := by
      simpa [write, writeOf, streamOf, hlevel] using hnone
    rw [hnone, hclosed]
    simp
  · rw [hwrite, hstream]
    constructor
    · intro h
      obtain ⟨_, bytes, hbytes, hclean⟩ := h
      obtain ⟨_, rfl⟩ := Prod.mk.inj (Option.some.inj hbytes)
      exact ⟨rfl, (cleanText_recordText_iff hkeyed).mp ((cleanLine_append_lineFeed _).mp hclean)⟩
    · intro h
      exact ⟨stream, _, rfl,
        (cleanLine_append_lineFeed _).mpr ((cleanText_recordText_iff hkeyed).mpr h.2)⟩

/-! ## Series of calls -/

/-- A series of calls on one logger, and what they write. -/
def run (logger : StdioLogger) : List LogCall → Outcome (StdioLogger × List StreamWrite)
  | [] => return (logger, [])
  | call :: calls => do
      let (logger, write) ← logger.log call.env call.level call.message call.fields
      let (logger, writes) ← logger.run calls
      return (logger, write.toList ++ writes)

/-- A run makes the writes of its calls, in order. -/
theorem run_eq (logger : StdioLogger) (calls : List LogCall) :
    ∃ buffer, logger.run calls =
      .value ({ logger with record := buffer }, calls.filterMap logger.write) := by
  induction calls generalizing logger with
  | nil => exact ⟨logger.record, rfl⟩
  | cons call calls ih =>
      obtain ⟨buffer, hlog⟩ := logger.log_eq call.env call.level call.message call.fields
      obtain ⟨buffer', hrest⟩ := ih { logger with record := buffer }
      refine ⟨buffer', ?_⟩
      have hwrites : calls.filterMap (StdioLogger.write { logger with record := buffer }) =
          calls.filterMap logger.write := rfl
      rw [run, hlog, Result.value_bind]
      simp only [hrest, Result.value_bind, Result.pure_eq, hwrites]
      rw [List.filterMap_cons]
      have hcall : logger.writeOf call.env call.level call.message call.fields =
          logger.write call := rfl
      rw [hcall]
      cases logger.write call <;> rfl

/-- The call passes the level filter of a logger that was not moved from. -/
def Emits (logger : StdioLogger) (call : LogCall) : Prop :=
  isBelowMinLevel call.level logger.minLevel = false ∧ (logger.streamOf call).isSome = true

instance (logger : StdioLogger) (call : LogCall) : Decidable (logger.Emits call) :=
  inferInstanceAs (Decidable (isBelowMinLevel call.level logger.minLevel = false ∧
    (logger.streamOf call).isSome = true))

/-- The logger writes exactly for the calls that it emits. -/
theorem isSome_write_iff (logger : StdioLogger) (call : LogCall) :
    (logger.write call).isSome = true ↔ logger.Emits call := by
  unfold write writeOf Emits streamOf
  cases isBelowMinLevel call.level logger.minLevel <;> simp

/-- The write of a call with color off is its text and a newline. -/
theorem write_of_emits {logger : StdioLogger} {call : LogCall} (hcolor : logger.Colorless call)
    (h : logger.Emits call) :
    ∃ stream, logger.write call = some (stream,
      recordText call.env false call.level call.message call.fields ++ [lineFeed]) := by
  rcases write_cases hcolor with hnone | ⟨stream, _, hwrite⟩
  · have hsome := (isSome_write_iff logger call).mpr h
    rw [hnone] at hsome
    cases hsome
  · exact ⟨stream, hwrite⟩

end StdioLogger

/-! ## Lines and records -/

/-- Text with a newline behind it, over and over, has at least that many newlines. -/
theorem length_le_count_lineFeed {lines : List ByteString}
    (h : ∀ line ∈ lines, ∃ text, line = text ++ [lineFeed]) :
    lines.length ≤ lines.flatten.count lineFeed := by
  induction lines with
  | nil => exact Nat.zero_le _
  | cons line lines ih =>
      have hrest := ih fun l hl => h l (List.mem_cons_of_mem line hl)
      obtain ⟨text, rfl⟩ := h line List.mem_cons_self
      rw [List.flatten_cons, List.count_append, List.count_append, List.count_singleton_self,
        List.length_cons]
      omega

/-- It has no more of them, and no other control character, exactly when each line is
clean. -/
theorem cleanLines_iff {lines : List ByteString}
    (h : ∀ line ∈ lines, ∃ text, line = text ++ [lineFeed]) :
    (lines.flatten.count lineFeed = lines.length ∧
        ∀ c ∈ lines.flatten, IsControl c → c = lineFeed) ↔ ∀ line ∈ lines, CleanLine line := by
  induction lines with
  | nil => simp
  | cons line lines ih =>
      have htail : ∀ l ∈ lines, ∃ text, l = text ++ [lineFeed] :=
        fun l hl => h l (List.mem_cons_of_mem line hl)
      have hleast := length_le_count_lineFeed htail
      obtain ⟨text, rfl⟩ := h line List.mem_cons_self
      rw [List.forall_mem_cons, cleanLine_append_lineFeed, ← ih htail, List.flatten_cons,
        List.count_append, List.count_append, List.count_singleton_self, List.length_cons]
      simp only [List.forall_mem_append, List.forall_mem_singleton]
      constructor
      · intro hclean
        obtain ⟨hcount, ⟨htext, _⟩, hrest⟩ := hclean
        have hnone : text.count lineFeed = 0 := by omega
        refine ⟨?_, by omega, hrest⟩
        intro c hc hcontrol
        rw [htext c hc hcontrol] at hc
        exact List.count_eq_zero.mp hnone hc
      · intro hclean
        obtain ⟨htext, hcount, hrest⟩ := hclean
        have hnone : text.count lineFeed = 0 :=
          List.count_eq_zero.mpr fun hmem => htext lineFeed hmem (by decide)
        refine ⟨by omega, ⟨?_, fun _ => trivial⟩, hrest⟩
        intro c hc hcontrol
        exact absurd hcontrol (htext c hc)

namespace StdioLogger

variable {logger : StdioLogger} {calls : List LogCall}

/-- Every write of a series is the record of one of its calls. -/
theorem mem_filterMap_write {write : StreamWrite} (hcolor : ∀ call ∈ calls,
      logger.Emits call → logger.Colorless call) (h : write ∈ calls.filterMap logger.write) :
    ∃ call ∈ calls, logger.Emits call ∧ write.2 =
      recordText call.env false call.level call.message call.fields ++ [lineFeed] := by
  obtain ⟨call, hcall, hwrite⟩ := List.mem_filterMap.mp h
  have hemits : logger.Emits call :=
    (isSome_write_iff logger call).mp (by rw [hwrite]; rfl)
  obtain ⟨stream, hline⟩ := write_of_emits (hcolor call hcall hemits) hemits
  rw [hline] at hwrite
  obtain rfl := Option.some.inj hwrite
  exact ⟨call, hcall, hemits, rfl⟩

/-- The lines of a run are as many as its records, and clean, exactly when the emitted
calls are clean. -/
theorem run_cleanLines_iff
    (hcalls : ∀ call ∈ calls, logger.Emits call → call.Keyed ∧ logger.Colorless call) :
    ((((calls.filterMap logger.write).map Prod.snd).flatten.count lineFeed =
          (calls.filterMap logger.write).length) ∧
        ∀ c ∈ ((calls.filterMap logger.write).map Prod.snd).flatten, IsControl c →
          c = lineFeed) ↔
      ∀ call ∈ calls, logger.Emits call → call.Clean := by
  have hcolor : ∀ call ∈ calls, logger.Emits call → logger.Colorless call :=
    fun call hcall hemits => (hcalls call hcall hemits).2
  have hlines : ∀ line ∈ (calls.filterMap logger.write).map Prod.snd,
      ∃ text, line = text ++ [lineFeed] := by
    intro line hline
    obtain ⟨write, hwrite, rfl⟩ := List.mem_map.mp hline
    obtain ⟨call, _, _, htext⟩ := mem_filterMap_write hcolor hwrite
    exact ⟨_, htext⟩
  have hexact := cleanLines_iff hlines
  rw [List.length_map] at hexact
  rw [hexact]
  constructor
  · intro hclean call hcall hemits
    obtain ⟨stream, hwrite⟩ := write_of_emits (hcolor call hcall hemits) hemits
    have hmem : (stream, recordText call.env false call.level call.message call.fields ++
        [lineFeed]) ∈ calls.filterMap logger.write := List.mem_filterMap.mpr ⟨call, hcall, hwrite⟩
    have hline := hclean _ (List.mem_map_of_mem hmem)
    exact (cleanText_recordText_iff (hcalls call hcall hemits).1).mp
      ((cleanLine_append_lineFeed _).mp hline)
  · intro hclean line hline
    obtain ⟨write, hwrite, rfl⟩ := List.mem_map.mp hline
    obtain ⟨call, hcall, hemits, htext⟩ := mem_filterMap_write hcolor hwrite
    rw [htext, cleanLine_append_lineFeed, cleanText_recordText_iff (hcalls call hcall hemits).1]
    exact hclean call hcall hemits

/-- There are as many writes as emitted calls. -/
theorem length_filterMap_write (logger : StdioLogger) (calls : List LogCall) :
    (calls.filterMap logger.write).length = (calls.filter fun call => logger.Emits call).length := by
  rw [List.length_filterMap_eq_countP, List.countP_eq_length_filter]
  congr 1
  apply List.filter_congr
  intro call _
  rw [Bool.eq_iff_iff, isSome_write_iff, decide_eq_true_iff]

end StdioLogger

/-- **When one record is one clean line.**  With color off, a call that passes the level
filter writes one clean line exactly when the logger was not moved from and the call is
clean.  A series of such calls leaves as many lines as it emits records, and no control
character in them, exactly when every emitted call is clean. -/
theorem clean_lines (logger : StdioLogger) :
    (∀ call : LogCall, call.Keyed → logger.Colorless call →
      isBelowMinLevel call.level logger.minLevel = false →
        ((∃ logger' stream bytes,
            logger.log call.env call.level call.message call.fields =
              .value (logger', some (stream, bytes)) ∧ CleanLine bytes) ↔
          (logger.streamOf call).isSome = true ∧ call.Clean)) ∧
    ∀ calls : List LogCall,
      (∀ call ∈ calls, logger.Emits call → call.Keyed ∧ logger.Colorless call) →
      ∃ logger' writes, logger.run calls = .value (logger', writes) ∧
        writes.length = (calls.filter fun call => logger.Emits call).length ∧
        (((writes.map Prod.snd).flatten.count lineFeed = writes.length ∧
            ∀ c ∈ (writes.map Prod.snd).flatten, IsControl c → c = lineFeed) ↔
          ∀ call ∈ calls, logger.Emits call → call.Clean) := by
  constructor
  · intro call hkeyed hcolor hlevel
    rw [← StdioLogger.writes_cleanLine_iff hkeyed hcolor hlevel]
    obtain ⟨buffer, hlog⟩ := logger.log_eq call.env call.level call.message call.fields
    rw [hlog]
    constructor
    · intro h
      obtain ⟨_, stream, bytes, hvalue, hclean⟩ := h
      exact ⟨stream, bytes, (Prod.mk.inj (Result.value.inj hvalue)).2, hclean⟩
    · intro h
      obtain ⟨stream, bytes, hwrite, hclean⟩ := h
      exact ⟨_, stream, bytes, congrArg (fun write => Result.value (_, write)) hwrite, hclean⟩
  · intro calls hcalls
    obtain ⟨buffer, hrun⟩ := logger.run_eq calls
    exact ⟨_, _, hrun, StdioLogger.length_filterMap_write logger calls,
      StdioLogger.run_cleanLines_iff hcalls⟩

/-- A call at the epoch with color off. -/
def LogCall.atEpoch (message : ByteString) (fields : List LogField) : LogCall :=
  ⟨⟨⟨0, by decide, by decide⟩, none, none, false, false⟩, .info, message, fields⟩

/-- A logger of standard streams with color off. -/
def StdioLogger.colorless : StdioLogger := .make ⟨none, .never, none, none⟩

/-- A logger without colors writes none. -/
theorem colorless_colorless (call : LogCall) : StdioLogger.colorless.Colorless call :=
  fun _ _ => rfl

/-- A clean call writes a clean line, and so does a series of it. -/
theorem clean_lines_started :
    (∃ logger' stream bytes,
      StdioLogger.colorless.log (LogCall.atEpoch (ascii "started") []).env .info (ascii "started") [] =
        .value (logger', some (stream, bytes)) ∧ CleanLine bytes) ∧
    ∃ logger' writes, StdioLogger.colorless.run [.atEpoch (ascii "started") []] =
        .value (logger', writes) ∧ (writes.map Prod.snd).flatten.count lineFeed = writes.length := by
  have hkeyed : (LogCall.atEpoch (ascii "started") []).Keyed := fun _ h => absurd h List.not_mem_nil
  have hclean : (LogCall.atEpoch (ascii "started") []).Clean :=
    ⟨by decide +kernel, fun _ h => absurd h List.not_mem_nil, by decide⟩
  constructor
  · exact ((clean_lines .colorless).1 (.atEpoch (ascii "started") []) hkeyed
      (colorless_colorless _) rfl).mpr ⟨rfl, hclean⟩
  · have hall : ∀ call ∈ [LogCall.atEpoch (ascii "started") []], call.Keyed ∧
        StdioLogger.colorless.Colorless call ∧ call.Clean :=
      List.forall_mem_singleton.mpr ⟨hkeyed, colorless_colorless _, hclean⟩
    obtain ⟨logger', writes, hrun, _, hlines⟩ :=
      (clean_lines .colorless).2 [.atEpoch (ascii "started") []]
        fun call hcall _ => ⟨(hall call hcall).1, (hall call hcall).2.1⟩
    exact ⟨logger', writes, hrun, (hlines.mpr fun call hcall _ => (hall call hcall).2.2).1⟩

/-- A newline in a message forges a second line, and a delete character in a value
reaches the stream. -/
theorem unclean_lines_written :
    (∃ logger' bytes,
      StdioLogger.colorless.log (LogCall.atEpoch [] []).env .info (ascii "started\n[ERROR] forged")
          [] = .value (logger', some (.cout, bytes)) ∧
        bytes.count lineFeed = 2 ∧ ¬CleanLine bytes) ∧
    ∃ logger' bytes,
      StdioLogger.colorless.log (LogCall.atEpoch [] []).env .info (ascii "started")
          [⟨ascii "name", [0x7f]⟩] = .value (logger', some (.cout, bytes)) ∧ ¬CleanLine bytes := by
  constructor
  · obtain ⟨buffer, hlog⟩ := StdioLogger.colorless.log_eq (LogCall.atEpoch [] []).env .info
      (ascii "started\n[ERROR] forged") []
    refine ⟨_, _, hlog, by decide +kernel, ?_⟩
    rw [cleanLine_append_lineFeed]
    decide +kernel
  · obtain ⟨buffer, hlog⟩ := StdioLogger.colorless.log_eq (LogCall.atEpoch [] []).env .info
      (ascii "started") [⟨ascii "name", [0x7f]⟩]
    refine ⟨_, _, hlog, ?_⟩
    rw [cleanLine_append_lineFeed]
    decide +kernel

end Tpmkit
