import Tpmkit.ByteStrings
import Tpmkit.CheckedProgram
import Tpmkit.CivilTime
import Tpmkit.DelimitedText
import Tpmkit.FixedDigits
import Tpmkit.HashAlgorithm

/-!
# Timestamps of log records

`append_timestamp` of `stdio_logger.cpp`, with `gmtime_r` and `snprintf` as their
standards describe them.  The casts of a clock reading truncate towards zero, and
the length that `snprintf` returns is the length to copy.

`timestamp_iff` says for which readings the appended text is a timestamp of the
reading: those that are not before 1970, and the whole seconds.
-/

namespace Tpmkit

open Checked ByteStrings DelimitedText

/-! ## The standard library -/

/-- A reading of `std::chrono::system_clock`: signed 64-bit nanoseconds since 1970. -/
structure ClockReading where
  count : Int
  lower : -2 ^ 63 ≤ count
  upper : count < 2 ^ 63
deriving DecidableEq, Repr

/-- `std::tm`, without the day of the week, the day of the year and daylight saving. -/
structure Tm where
  tmSec : Int
  tmMin : Int
  tmHour : Int
  tmMday : Int
  tmMon : Int
  tmYear : Int
deriving DecidableEq, Repr

/-- `gmtime_r`, which fails when the year does not fit in an `int`. -/
def gmtimeR (seconds : Int) : Option Tm :=
  let time := CivilTime.dateTimeOfSeconds seconds
  if -2 ^ 31 ≤ time.date.year - 1900 ∧ time.date.year - 1900 < 2 ^ 31 then
    some ⟨time.second, time.minute, time.hour, time.date.day + 1, time.date.month,
      time.date.year - 1900⟩
  else none

/-- The character of a digit. -/
def decimalDigit (d : Nat) : UInt8 := UInt8.ofNat (d + 48)

/-- The conversion `%0<width>d`: a sign counts towards the width. -/
def printInt (width : Nat) (n : Int) : ByteString :=
  if n < 0 then 0x2d :: (FixedDigits.padded 10 (width - 1) n.natAbs).map decimalDigit
  else (FixedDigits.padded 10 width n.natAbs).map decimalDigit

/-- What `snprintf` leaves behind: the length of the whole text, the number of its
characters that were stored, and the buffer. -/
structure Printed (capacity : Nat) where
  written : Nat
  stored : Nat
  buffer : Vector UInt8 capacity

/-- `snprintf` of a formatted text into a zeroed buffer. -/
def snprintf (capacity : Nat) (text : ByteString) : Printed capacity where
  written := text.length
  stored := min text.length (capacity - 1)
  buffer := overlay (text.take (capacity - 1) ++ [0]) (Vector.replicate capacity 0)

/-! ## The code -/

/-- `time_point_cast<seconds>(now)`. -/
def ClockReading.seconds (now : ClockReading) : Int := now.count.tdiv 1000000000

/-- `duration_cast<milliseconds>(now - seconds_point)`. -/
def ClockReading.millis (now : ClockReading) : Int :=
  (now.count - now.seconds * 1000000000).tdiv 1000000

/-- `utc_time_from_epoch_seconds`. -/
def utcTimeFromEpochSeconds (seconds : Int) : Option Tm := gmtimeR seconds

/-- The format `%04d-%02d-%02dT%02d:%02d:%02d.%03dZ` and its arguments. -/
def timestampText (utc : Tm) (millis : Int) : ByteString :=
  printInt 4 (utc.tmYear + 1900) ++ ascii "-" ++ printInt 2 (utc.tmMon + 1) ++ ascii "-" ++
    printInt 2 utc.tmMday ++ ascii "T" ++ printInt 2 utc.tmHour ++ ascii ":" ++
    printInt 2 utc.tmMin ++ ascii ":" ++ printInt 2 utc.tmSec ++ ascii "." ++
    printInt 3 millis ++ ascii "Z"

/-- The call of `snprintf`, which is made when the broken-down time is known. -/
def printedTimestamp (now : ClockReading) : Option (Printed 25) :=
  (utcTimeFromEpochSeconds now.seconds).map fun utc => snprintf 25 (timestampText utc now.millis)

/-- `append_timestamp`. -/
def appendTimestamp (now : ClockReading) (record : ByteString) : Outcome ByteString :=
  match printedTimestamp now with
  | none => return record ++ ascii "1970-01-01T00:00:00.000Z"
  | some printed =>
      if printed.written ≤ 0 then
        return record ++ ascii "1970-01-01T00:00:00.000Z"
      else do
        let characters ← readPrefix 25 printed.written printed.buffer
        return record ++ characters

/-! ## Reading a timestamp -/

/-- The characters that are digits. -/
def isDigit (c : UInt8) : Bool := 0x30 ≤ c && c ≤ 0x39

/-- Reads a number of exactly `width` digits. -/
def readNumber (width : Nat) : Reader UInt8 Nat := fun text =>
  if (text.take width).length = width ∧ (text.take width).all isDigit then
    some (FixedDigits.value 10 ((text.take width).map fun c => c.toNat - 48), text.drop width)
  else none

/-- Reads a separator. -/
def readMark (mark : UInt8) : ByteString → Option ByteString
  | [] => none
  | c :: rest => if c = mark then some rest else none

/-- Reads a number and the separator behind it. -/
def readUnit (width : Nat) (mark : UInt8) : Reader UInt8 Nat := fun text => do
  let (n, rest) ← readNumber width text
  let rest ← readMark mark rest
  return (n, rest)

/-- The milliseconds since 1970 that a text of the form `YYYY-MM-DDTHH:MM:SS.mmmZ`
denotes. -/
def readTimestamp (text : ByteString) : Option Int := do
  let (year, rest) ← readUnit 4 0x2d text
  let (month, rest) ← readUnit 2 0x2d rest
  let (day, rest) ← readUnit 2 0x54 rest
  let (hour, rest) ← readUnit 2 0x3a rest
  let (minute, rest) ← readUnit 2 0x3a rest
  let (second, rest) ← readUnit 2 0x2e rest
  let (milli, rest) ← readUnit 3 0x5a rest
  let time : CivilTime.DateTime := ⟨⟨year, month - 1, day - 1⟩, hour, minute, second⟩
  if rest.isEmpty ∧ 1 ≤ month ∧ 1 ≤ day ∧ time.Valid then
    some (time.seconds * 1000 + milli)
  else none

/-- The text of a number in a field of fixed width. -/
def numeral (width n : Nat) : ByteString := (FixedDigits.digits 10 width n).map decimalDigit

/-- The characters of digits are digits. -/
theorem isDigit_decimalDigit : ∀ d < 10, isDigit (decimalDigit d) = true := by
  decide

/-- They are read back. -/
theorem toNat_decimalDigit : ∀ d < 10, (decimalDigit d).toNat - 48 = d := by
  decide

/-- A number is padded or cut to its width. -/
@[simp] theorem length_numeral (width n : Nat) : (numeral width n).length = width := by
  simp [numeral]

/-- A number that its width has room for is read back. -/
theorem readNumber_numeral {width n : Nat} (h : n < 10 ^ width) (rest : ByteString) :
    readNumber width (numeral width n ++ rest) = some (n, rest) := by
  have htake : (numeral width n ++ rest).take width = numeral width n :=
    List.take_left' (length_numeral width n)
  have hdrop : (numeral width n ++ rest).drop width = rest :=
    List.drop_left' (length_numeral width n)
  have hdigit : ∀ d ∈ FixedDigits.digits 10 width n, d < 10 :=
    fun d hd => FixedDigits.lt_of_mem_digits (by decide) hd
  have hall : (numeral width n).all isDigit = true := by
    rw [List.all_eq_true]
    intro c hc
    obtain ⟨d, hd, rfl⟩ := List.mem_map.mp hc
    exact isDigit_decimalDigit d (hdigit d hd)
  have hvalue : (numeral width n).map (fun c => c.toNat - 48) = FixedDigits.digits 10 width n := by
    rw [numeral, List.map_map]
    refine (List.map_congr_left ?_).trans (List.map_id _)
    intro d hd
    exact toNat_decimalDigit d (hdigit d hd)
  rw [readNumber, htake, hdrop, if_pos ⟨length_numeral width n, hall⟩, hvalue,
    FixedDigits.value_digits_of_lt h]

@[simp] theorem readMark_cons (mark : UInt8) (rest : ByteString) :
    readMark mark (mark :: rest) = some rest := if_pos rfl

/-- So is one with its mark behind it. -/
theorem readUnit_numeral {width n : Nat} (h : n < 10 ^ width) (mark : UInt8) (rest : ByteString) :
    readUnit width mark (numeral width n ++ mark :: rest) = some (n, rest) := by
  rw [readUnit, readNumber_numeral h]
  simp only [Option.bind_eq_bind, Option.bind_some, readMark_cons]
  rfl

/-- A sign is no digit. -/
theorem readUnit_sign (width : Nat) (mark : UInt8) (rest : ByteString) :
    readUnit (width + 1) mark (0x2d :: rest) = none := by
  have hdigit : isDigit 0x2d = false := by decide
  have hnumber : readNumber (width + 1) (0x2d :: rest) = none := by
    simp [readNumber, hdigit]
  rw [readUnit, hnumber]
  rfl

/-! ## The text of a reading -/

/-- The text of a time up to its milliseconds. -/
def secondsText (time : CivilTime.DateTime) : ByteString :=
  numeral 4 time.date.year.toNat ++ (0x2d :: numeral 2 (time.date.month + 1)) ++
    (0x2d :: numeral 2 (time.date.day + 1)) ++ (0x54 :: numeral 2 time.hour) ++
    (0x3a :: numeral 2 time.minute) ++ (0x3a :: numeral 2 time.second) ++ [0x2e]

/-- The text of a date and time up to the seconds has 20 characters. -/
theorem length_secondsText (time : CivilTime.DateTime) : (secondsText time).length = 20 := by
  simp [secondsText]

/-- What fits into the width is printed with leading zeros. -/
theorem printInt_natCast {width n : Nat} (hwidth : 0 < width) (h : n < 10 ^ width) :
    printInt width n = numeral width n := by
  have hsign : ¬(n : Int) < 0 := Int.not_lt.mpr (Int.natCast_nonneg n)
  rw [printInt, if_neg hsign, Int.natAbs_natCast, FixedDigits.padded_of_lt hwidth h]
  rfl

/-- The text of a time of four-digit years. -/
theorem timestampText_eq {time : CivilTime.DateTime} (h : time.Valid) (hyear : 0 ≤ time.date.year)
    (hyear' : time.date.year < 10000) (millis : Int) :
    timestampText ⟨time.second, time.minute, time.hour, time.date.day + 1, time.date.month,
      time.date.year - 1900⟩ millis = secondsText time ++ (printInt 3 millis ++ [0x5a]) := by
  have hmonth := h.date.month_lt
  have hday := h.date.day_lt
  have hhour := h.hour_lt
  have hminute := h.minute_lt
  have hsecond := h.second_lt
  have hfour : time.date.year - 1900 + 1900 = (time.date.year.toNat : Int) := by omega
  have hyearText : printInt 4 (time.date.year - 1900 + 1900) =
      numeral 4 time.date.year.toNat := by
    rw [hfour]
    exact printInt_natCast (by decide) (by omega)
  have hmonthText : printInt 2 ((time.date.month : Int) + 1) =
      numeral 2 (time.date.month + 1) :=
    printInt_natCast (n := time.date.month + 1) (by decide) (by omega)
  have hdayText : printInt 2 ((time.date.day : Int) + 1) = numeral 2 (time.date.day + 1) :=
    printInt_natCast (n := time.date.day + 1) (by decide) (by omega)
  have hhourText : printInt 2 time.hour = numeral 2 time.hour :=
    printInt_natCast (by decide) (by omega)
  have hminuteText : printInt 2 time.minute = numeral 2 time.minute :=
    printInt_natCast (by decide) (by omega)
  have hsecondText : printInt 2 time.second = numeral 2 time.second :=
    printInt_natCast (by decide) (by omega)
  have hmarks : ascii "-" = [0x2d] ∧ ascii "T" = [0x54] ∧ ascii ":" = [0x3a] ∧
      ascii "." = [0x2e] ∧ ascii "Z" = [0x5a] := by decide
  obtain ⟨hdash, hT, hcolon, hdot, hZ⟩ := hmarks
  simp only [timestampText, hyearText, hmonthText, hdayText, hhourText, hminuteText, hsecondText,
    hdash, hT, hcolon, hdot, hZ, secondsText, List.append_assoc, List.cons_append, List.nil_append]

/-- The reader passes over the text of a time and goes on with the milliseconds. -/
theorem readTimestamp_secondsText {time : CivilTime.DateTime} (h : time.Valid)
    (hyear : 0 ≤ time.date.year) (hyear' : time.date.year < 10000) (rest : ByteString) :
    readTimestamp (secondsText time ++ rest) = (do
      let (milli, rest) ← readUnit 3 0x5a rest
      if rest.isEmpty then some (time.seconds * 1000 + milli) else none) := by
  have hmonth := h.date.month_lt
  have hday := h.date.day_lt
  have hhour := h.hour_lt
  have hminute := h.minute_lt
  have hsecond := h.second_lt
  have hfour : (time.date.year.toNat : Int) = time.date.year := by omega
  have hyearBound : time.date.year.toNat < 10 ^ 4 := by omega
  have hmonthBound : time.date.month + 1 < 10 ^ 2 := by omega
  have hdayBound : time.date.day + 1 < 10 ^ 2 := by omega
  have hhourBound : time.hour < 10 ^ 2 := by omega
  have hminuteBound : time.minute < 10 ^ 2 := by omega
  have hsecondBound : time.second < 10 ^ 2 := by omega
  have htext : secondsText time ++ rest = numeral 4 time.date.year.toNat ++
      (0x2d :: (numeral 2 (time.date.month + 1) ++ (0x2d :: (numeral 2 (time.date.day + 1) ++
        (0x54 :: (numeral 2 time.hour ++ (0x3a :: (numeral 2 time.minute ++
          (0x3a :: (numeral 2 time.second ++ (0x2e :: rest))))))))))) := by
    simp only [secondsText, List.append_assoc, List.cons_append, List.nil_append]
  have htime : (⟨⟨time.date.year.toNat, time.date.month + 1 - 1, time.date.day + 1 - 1⟩, time.hour,
      time.minute, time.second⟩ : CivilTime.DateTime) = time := by
    rw [hfour, Nat.add_sub_cancel, Nat.add_sub_cancel]
  have hones : 1 ≤ time.date.month + 1 ∧ 1 ≤ time.date.day + 1 :=
    ⟨Nat.le_add_left 1 _, Nat.le_add_left 1 _⟩
  rw [readTimestamp, htext, readUnit_numeral hyearBound]
  simp only [Option.bind_eq_bind, Option.bind_some, readUnit_numeral hmonthBound,
    readUnit_numeral hdayBound, readUnit_numeral hhourBound, readUnit_numeral hminuteBound,
    readUnit_numeral hsecondBound]
  simp only [htime, hones, h, and_true]

/-! ## The milliseconds -/

/-- Milliseconds before 1970 are printed with a sign. -/
theorem printInt_of_neg {millis : Int} (h : millis < 0) (hbound : -1000 < millis) :
    ∃ digits, printInt 3 millis = 0x2d :: digits ∧
      digits.length = if millis ≤ -100 then 3 else 2 := by
  refine ⟨_, by rw [printInt, if_pos h], ?_⟩
  rw [List.length_map, FixedDigits.length_padded]
  have hpos : millis.natAbs ≠ 0 := by omega
  split
  · next hlong =>
    have hlower : 10 ^ 2 ≤ millis.natAbs := by omega
    have hupper : millis.natAbs < 10 ^ (2 + 1) := by omega
    rw [Nat.log_eq_of_pow_le_of_lt_pow hlower hupper]
    rfl
  · next hshort =>
    have hlog : Nat.log 10 millis.natAbs < 2 := Nat.log_lt_of_lt_pow hpos (by omega)
    exact Nat.max_eq_left hlog

/-- Other milliseconds are printed in three digits. -/
theorem printInt_of_nonneg {millis : Int} (h : 0 ≤ millis) (hbound : millis < 1000) :
    printInt 3 millis = numeral 3 millis.toNat := by
  obtain ⟨milli, rfl⟩ := Int.eq_ofNat_of_zero_le h
  exact printInt_natCast (by decide) (by omega)

/-- The fields of a reading: its casts round towards 1970. -/
theorem ClockReading.seconds_eq (now : ClockReading) :
    now.seconds =
      if 0 ≤ now.count ∨ 1000000000 ∣ now.count then now.count / 1000000000
      else now.count / 1000000000 + 1 := by
  rw [ClockReading.seconds, Int.tdiv_eq_ediv]
  split
  · exact Int.add_zero _
  · rfl

/-- A reading that is not before 1970, and a whole second, is broken down exactly. -/
theorem ClockReading.millis_of_exact {now : ClockReading}
    (h : 0 ≤ now.count ∨ 1000000000 ∣ now.count) :
    0 ≤ now.millis ∧ now.millis < 1000 ∧
      now.seconds * 1000 + now.millis = now.count / 1000000 := by
  have hseconds : now.seconds = now.count / 1000000000 := by rw [now.seconds_eq, if_pos h]
  have hrest : 0 ≤ now.count - now.seconds * 1000000000 := by omega
  rw [ClockReading.millis, Int.tdiv_eq_ediv_of_nonneg hrest]
  omega

/-- Any other reading leaves milliseconds that are not positive. -/
theorem ClockReading.millis_of_not_exact {now : ClockReading}
    (h : ¬(0 ≤ now.count ∨ 1000000000 ∣ now.count)) :
    -1000 < now.millis ∧ now.millis ≤ 0 ∧ now.count / 1000000 < now.seconds * 1000 := by
  have hseconds : now.seconds = now.count / 1000000000 + 1 := by rw [now.seconds_eq, if_neg h]
  have hrest : now.count - now.seconds * 1000000000 < 0 := by omega
  have hopposite : now.millis = -((now.seconds * 1000000000 - now.count) / 1000000) := by
    have hneg : now.count - now.seconds * 1000000000 =
        -(now.seconds * 1000000000 - now.count) := by omega
    rw [ClockReading.millis, hneg, Int.neg_tdiv, Int.tdiv_eq_ediv_of_nonneg (by omega)]
  omega

/-! ## The appended characters -/

/-- The broken-down time of a reading has a year of four digits. -/
theorem ClockReading.year_bounds (now : ClockReading) :
    1677 ≤ (CivilTime.dateTimeOfSeconds now.seconds).date.year ∧
      (CivilTime.dateTimeOfSeconds now.seconds).date.year < 2263 := by
  have hlower := now.lower
  have hupper := now.upper
  have hseconds := now.seconds_eq
  have hfirst : CivilTime.daysBeforeYear 1677 = -107015 := by decide
  have hlast : CivilTime.daysBeforeYear 2263 = 107016 := by decide
  have hday : -107015 ≤ now.seconds / 86400 ∧ now.seconds / 86400 < 107016 := by
    split at hseconds <;> omega
  constructor
  · exact CivilTime.le_yearOfDay (by rw [hfirst]; exact hday.1)
  · exact CivilTime.yearOfDay_lt (by rw [hlast]; exact hday.2)

/-- The text that is printed for a reading. -/
def ClockReading.text (now : ClockReading) : ByteString :=
  secondsText (CivilTime.dateTimeOfSeconds now.seconds) ++ (printInt 3 now.millis ++ [0x5a])

/-- The format of the source prints the named text, cut at the 25 bytes of the buffer. -/
theorem printedTimestamp_eq (now : ClockReading) :
    printedTimestamp now = some (snprintf 25 now.text) := by
  obtain ⟨hlower, hupper⟩ := now.year_bounds
  have hvalid := CivilTime.valid_dateTimeOfSeconds now.seconds
  have hint : -2 ^ 31 ≤ (CivilTime.dateTimeOfSeconds now.seconds).date.year - 1900 ∧
      (CivilTime.dateTimeOfSeconds now.seconds).date.year - 1900 < 2 ^ 31 := by omega
  rw [printedTimestamp, utcTimeFromEpochSeconds, gmtimeR, if_pos hint, Option.map_some,
    timestampText_eq hvalid (by omega) (by omega), ClockReading.text]

/-- Copying what `snprintf` says that it wrote: the whole text, or a stored part and the
terminator. -/
theorem readPrefix_snprintf {capacity : Nat} {text : ByteString} (hcapacity : 0 < capacity)
    (h : text.length ≤ capacity) :
    (readPrefix capacity (snprintf capacity text).written (snprintf capacity text).buffer :
        Outcome ByteString) =
      .value (if text.length < capacity then text else text.take (capacity - 1) ++ [0]) := by
  have hsource : (text.take (capacity - 1) ++ [0]).length ≤ capacity := by
    rw [List.length_append, List.length_take, List.length_singleton]
    omega
  have hstored : (overlay (text.take (capacity - 1) ++ [0])
      (Vector.replicate capacity (0 : UInt8))).toList.take
        (text.take (capacity - 1) ++ [0]).length = text.take (capacity - 1) ++ [0] :=
    take_overlay hsource
  have hwritten : (snprintf capacity text).written = text.length := rfl
  rw [hwritten, readPrefix_of_le h h]
  apply congrArg Result.value
  simp only [snprintf]
  split
  · next hfits =>
    have hwhole : text.take (capacity - 1) = text := List.take_of_length_le (by omega)
    rw [hwhole] at hstored ⊢
    have htake := congrArg (List.take text.length) hstored
    rw [List.take_take, List.take_left] at htake
    have hmin : min text.length (text ++ [0]).length = text.length := by simp
    rwa [hmin] at htake
  · next hfull =>
    have hlength : text.length = (text.take (capacity - 1) ++ [0]).length := by
      rw [List.length_append, List.length_take, List.length_singleton]
      omega
    rw [hlength]
    exact hstored

/-- The text is as long as its milliseconds make it: three digits, or more with a sign. -/
theorem ClockReading.length_text (now : ClockReading) :
    now.text.length = 20 + (printInt 3 now.millis).length + 1 := by
  rw [ClockReading.text, List.length_append, length_secondsText, List.length_append,
    List.length_singleton, Nat.add_assoc]

/-- The milliseconds of a reading, on either side of 1970. -/
theorem ClockReading.millis_bounds (now : ClockReading) :
    -1000 < now.millis ∧ now.millis < 1000 := by
  by_cases h : 0 ≤ now.count ∨ 1000000000 ∣ now.count
  · have hmillis := ClockReading.millis_of_exact h
    omega
  · have hmillis := ClockReading.millis_of_not_exact h
    omega

/-- The text has 24 characters, and 25 when three digits come behind a sign. -/
theorem ClockReading.length_text_eq (now : ClockReading) :
    now.text.length = if now.millis ≤ -100 then 25 else 24 := by
  obtain ⟨hlower, hupper⟩ := now.millis_bounds
  rw [now.length_text]
  rcases Int.lt_or_le now.millis 0 with hneg | hpos
  · obtain ⟨digits, htext, hdigits⟩ := printInt_of_neg hneg hlower
    rw [htext, List.length_cons, hdigits]
    split <;> rfl
  · rw [printInt_of_nonneg hpos hupper, length_numeral, if_neg (by omega)]

/-- The characters that are appended for a reading: its text, or 24 characters of it and
a NUL. -/
def ClockReading.stamp (now : ClockReading) : ByteString :=
  if now.text.length < 25 then now.text else now.text.take 24 ++ [0]

/-- Above -100 ms the text fits into the buffer and is appended as it is. -/
theorem ClockReading.stamp_of_lt {now : ClockReading} (h : -100 < now.millis) :
    now.stamp = now.text ∧ now.text.length = 24 := by
  have hlength : now.text.length = 24 := by
    rw [now.length_text_eq, if_neg (Int.not_le.mpr h)]
  exact ⟨if_pos (by omega), hlength⟩

/-- A text that does not fit is cut, and its terminator is copied. -/
theorem ClockReading.stamp_of_le {now : ClockReading} (h : now.millis ≤ -100) :
    now.stamp = now.text.take 24 ++ [0] ∧ now.stamp.length = 25 := by
  have hlength : now.text.length = 25 := by
    rw [now.length_text_eq, if_pos h]
  have hstamp : now.stamp = now.text.take 24 ++ [0] := if_neg (by omega)
  refine ⟨hstamp, ?_⟩
  rw [hstamp, List.length_append, List.length_take, hlength]
  rfl

/-- The stamp is appended without a fault, at every reading of the clock. -/
theorem appendTimestamp_eq (now : ClockReading) (record : ByteString) :
    appendTimestamp now record = .value (record ++ now.stamp) := by
  have h : now.text.length ≤ 25 := by
    rw [now.length_text_eq]
    split <;> decide
  have hlength : (snprintf 25 now.text).written = 20 + (printInt 3 now.millis).length + 1 :=
    now.length_text
  have hwritten : ¬(snprintf 25 now.text).written ≤ 0 := by
    rw [hlength]
    exact Nat.not_succ_le_zero _
  have hcopied := readPrefix_snprintf (by decide) h
  unfold appendTimestamp
  simp only [printedTimestamp_eq, hwritten, if_false, hcopied, Result.value_bind, Result.pure_eq,
    ClockReading.stamp]

/-- The reader goes on with the milliseconds of a printed reading. -/
theorem readTimestamp_text (now : ClockReading) (rest : ByteString) :
    readTimestamp (secondsText (CivilTime.dateTimeOfSeconds now.seconds) ++ rest) = (do
      let (milli, rest) ← readUnit 3 0x5a rest
      if rest.isEmpty then some (now.seconds * 1000 + milli) else none) := by
  obtain ⟨hlower, hupper⟩ := now.year_bounds
  have hvalid := CivilTime.valid_dateTimeOfSeconds now.seconds
  have hread := readTimestamp_secondsText hvalid (by omega) (by omega) rest
  rwa [CivilTime.seconds_dateTimeOfSeconds] at hread

/-- Milliseconds that are not negative are read back. -/
theorem readTimestamp_of_nonneg {now : ClockReading} (h : 0 ≤ now.millis)
    (hbound : now.millis < 1000) :
    readTimestamp now.text = some (now.seconds * 1000 + now.millis) := by
  have hlt : now.millis.toNat < 10 ^ 3 := by omega
  have hmillis : (now.millis.toNat : Int) = now.millis := Int.toNat_of_nonneg h
  rw [ClockReading.text, printInt_of_nonneg h hbound, readTimestamp_text, readUnit_numeral hlt]
  simp only [Option.bind_eq_bind, Option.bind_some, hmillis]
  rfl

/-- A sign in front of the milliseconds is not read. -/
theorem readTimestamp_of_neg {now : ClockReading} (h : now.millis < 0)
    (hbound : -1000 < now.millis) : readTimestamp now.text = none := by
  obtain ⟨digits, hprinted, _⟩ := printInt_of_neg h hbound
  rw [ClockReading.text, hprinted, readTimestamp_text, List.cons_append, readUnit_sign]
  rfl

/-! ## Right and wrong timestamps -/

/-- The code appends the 24 characters of a timestamp that denotes the reading, rounded
down to the millisecond, and no more characters than were stored. -/
def AppendsTimestamp (now : ClockReading) : Prop :=
  ∀ record : ByteString, ∃ characters printed,
    appendTimestamp now record = .value (record ++ characters) ∧
      printedTimestamp now = some printed ∧ characters.length = 24 ∧
      readTimestamp characters = some (now.count / 1000000) ∧
      characters.length ≤ printed.stored

/-- **When the timestamp of a record is right.**  The appended characters are a
timestamp of the reading exactly when the reading is not before 1970 or is a whole
second. -/
theorem timestamp_iff (now : ClockReading) :
    AppendsTimestamp now ↔ 0 ≤ now.count ∨ 1000000000 ∣ now.count := by
  constructor
  · intro happends
    by_contra hexact
    obtain ⟨hlower, hupper, hearlier⟩ := ClockReading.millis_of_not_exact hexact
    obtain ⟨characters, printed, happended, _, hlength, hread, _⟩ := happends []
    rw [appendTimestamp_eq] at happended
    obtain rfl : now.stamp = characters := List.append_cancel_left (Result.value.inj happended)
    -- Three digits behind a sign are cut, fewer are malformed, and none are a later time.
    rcases Int.lt_or_le (-100) now.millis with hfits | hcut
    · rw [(ClockReading.stamp_of_lt hfits).1] at hread
      rcases Int.lt_or_eq_of_le hupper with hneg | hzero
      · rw [readTimestamp_of_neg hneg hlower] at hread
        cases hread
      · rw [readTimestamp_of_nonneg (Int.le_of_eq hzero.symm) (by rw [hzero]; decide)] at hread
        have hsame := Option.some.inj hread
        omega
    · rw [(ClockReading.stamp_of_le hcut).2] at hlength
      cases hlength
  · intro hexact record
    obtain ⟨hlower, hupper, hsum⟩ := ClockReading.millis_of_exact hexact
    obtain ⟨hstamp, hlength⟩ := @ClockReading.stamp_of_lt now (by omega)
    refine ⟨now.stamp, snprintf 25 now.text, appendTimestamp_eq now record,
      printedTimestamp_eq now, ?_, ?_, ?_⟩
    · rw [hstamp, hlength]
    · rw [hstamp, readTimestamp_of_nonneg hlower hupper, hsum]
    · rw [hstamp]
      exact Nat.le_min.mpr ⟨Nat.le_refl _, Nat.le_of_eq hlength⟩

/-- One millisecond before 1970 the milliseconds carry a sign.  A tenth of a second
before 1970 one character more is appended than was stored, the terminator. -/
theorem timestamp_before_epoch :
    appendTimestamp ⟨-1000000, by decide, by decide⟩ [] =
        .value (ascii "1970-01-01T00:00:00.-01Z") ∧
      appendTimestamp ⟨-100000000, by decide, by decide⟩ [] =
        .value (ascii "1970-01-01T00:00:00.-100" ++ [0]) ∧
      (printedTimestamp ⟨-100000000, by decide, by decide⟩).map Printed.stored = some 24 ∧
      ¬AppendsTimestamp ⟨-1000000, by decide, by decide⟩ := by
  refine ⟨by decide +kernel, by decide +kernel, by decide +kernel, ?_⟩
  intro happends
  obtain ⟨characters, printed, happended, _, _, hread, _⟩ := happends []
  have hvalue : appendTimestamp ⟨-1000000, by decide, by decide⟩ [] =
      .value (ascii "1970-01-01T00:00:00.-01Z") := by decide +kernel
  obtain rfl : ascii "1970-01-01T00:00:00.-01Z" = characters :=
    Result.value.inj (hvalue.symm.trans happended)
  have hnone : readTimestamp (ascii "1970-01-01T00:00:00.-01Z") = none := by decide +kernel
  rw [hnone] at hread
  cases hread

end Tpmkit
