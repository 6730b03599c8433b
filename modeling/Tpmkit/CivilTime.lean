import Mathlib.Algebra.Order.Ring.Nat
import Mathlib.Tactic.Common

/-!
# Civil time

The proleptic Gregorian calendar in universal time.  Days are numbered from
1970-01-01, the months of a year and the days of a month from zero, and seconds
from the midnight that starts day zero.

`daysBeforeYear` is the closed form that POSIX gives for the days of the years;
`daysBeforeYear_succ` says that it counts them.  `dateTimeOfSeconds` breaks a count
of seconds down, and `seconds_dateTimeOfSeconds` puts it together again.
-/

namespace CivilTime

/-! ## Years -/

/-- A year of 366 days. -/
def IsLeap (year : Int) : Prop := year % 4 = 0 ∧ (year % 100 ≠ 0 ∨ year % 400 = 0)

instance (year : Int) : Decidable (IsLeap year) :=
  inferInstanceAs (Decidable (year % 4 = 0 ∧ (year % 100 ≠ 0 ∨ year % 400 = 0)))

/-- The length of a year. -/
def daysInYear (year : Int) : Nat := if IsLeap year then 366 else 365

/-- The number of the first day of a year. -/
def daysBeforeYear (year : Int) : Int :=
  365 * (year - 1970) + (year - 1969) / 4 - (year - 1901) / 100 + (year - 1601) / 400

/-- A year begins where the one before it ends. -/
theorem daysBeforeYear_succ (year : Int) :
    daysBeforeYear (year + 1) = daysBeforeYear year + daysInYear year := by
  unfold daysBeforeYear daysInYear
  split
  · next h =>
    unfold IsLeap at h
    omega
  · next h =>
    unfold IsLeap at h
    omega

/-- Later years begin later. -/
theorem daysBeforeYear_mono {year year' : Int} (h : year ≤ year') :
    daysBeforeYear year ≤ daysBeforeYear year' := by
  unfold daysBeforeYear
  omega

/-- The year of a day: the mean length of a year gives it up to one. -/
def yearOfDay (day : Int) : Int :=
  let estimate := 1970 + day * 400 / 146097
  if day < daysBeforeYear estimate then estimate - 1
  else if day < daysBeforeYear (estimate + 1) then estimate
  else estimate + 1

/-- 400 years have 146097 days. So the quotient finds the year up to one, and the search that
follows looks at three of them. -/
theorem daysBeforeYear_estimate (day : Int) :
    daysBeforeYear (1970 + day * 400 / 146097 - 1) ≤ day ∧
      day < daysBeforeYear (1970 + day * 400 / 146097 + 2) := by
  unfold daysBeforeYear
  omega

/-- A day is one of its year. -/
theorem yearOfDay_spec (day : Int) :
    daysBeforeYear (yearOfDay day) ≤ day ∧ day < daysBeforeYear (yearOfDay day + 1) := by
  have hestimate := daysBeforeYear_estimate day
  simp only [yearOfDay]
  generalize 1970 + day * 400 / 146097 = estimate at hestimate ⊢
  split
  · next hbefore =>
    have hcancel : estimate - 1 + 1 = estimate := by omega
    rw [hcancel]
    exact ⟨hestimate.1, hbefore⟩
  · next hfrom =>
    split
    · next hbefore => exact ⟨Int.not_lt.mp hfrom, hbefore⟩
    · next hnext =>
      have hcancel : estimate + 1 + 1 = estimate + 2 := by omega
      rw [hcancel]
      exact ⟨Int.not_lt.mp hnext, hestimate.2⟩

/-- A year that starts no later than a day is no later than its year. -/
theorem le_yearOfDay {year day : Int} (h : daysBeforeYear year ≤ day) : year ≤ yearOfDay day := by
  by_contra hlate
  have hmono : daysBeforeYear (yearOfDay day + 1) ≤ daysBeforeYear year :=
    daysBeforeYear_mono (by omega)
  have hspec := (yearOfDay_spec day).2
  omega

/-- A day before a year lies in an earlier one. -/
theorem yearOfDay_lt {year day : Int} (h : day < daysBeforeYear year) : yearOfDay day < year := by
  by_contra hlate
  have hmono : daysBeforeYear year ≤ daysBeforeYear (yearOfDay day) :=
    daysBeforeYear_mono (by omega)
  have hspec := (yearOfDay_spec day).1
  omega

/-! ## Months -/

/-- The lengths of the months of a year. -/
def monthLengths (year : Int) : List Nat :=
  [31, if IsLeap year then 29 else 28, 31, 30, 31, 30, 31, 31, 30, 31, 30, 31]

/-- The months make up the year. -/
theorem sum_monthLengths (year : Int) : (monthLengths year).sum = daysInYear year := by
  unfold monthLengths daysInYear
  split <;> rfl

/-- The segment that an offset falls into, and the offset inside it. -/
def locate : List Nat → Nat → Nat × Nat
  | [], n => (0, n)
  | length :: lengths, n =>
      if n < length then (0, n)
      else ((locate lengths (n - length)).1 + 1, (locate lengths (n - length)).2)

/-- The walk along the lengths stops at the section that holds the position, with the rest of
the way inside it. -/
theorem locate_spec {lengths : List Nat} {n : Nat} (h : n < lengths.sum) :
    (locate lengths n).2 < lengths.getD (locate lengths n).1 0 ∧
      (lengths.take (locate lengths n).1).sum + (locate lengths n).2 = n := by
  induction lengths generalizing n with
  | nil => cases h
  | cons length lengths ih =>
      rw [locate]
      split
      · next hn => exact ⟨hn, Nat.zero_add n⟩
      · next hn =>
        have hrest : n - length < lengths.sum := by
          rw [List.sum_cons] at h
          omega
        obtain ⟨hlt, hsum⟩ := ih hrest
        refine ⟨hlt, ?_⟩
        rw [List.take_succ_cons, List.sum_cons]
        omega

/-! ## Dates -/

/-- A date, its month and day counted from zero. -/
structure Date where
  year : Int
  month : Nat
  day : Nat
deriving DecidableEq, Repr

/-- The day is one of the month, and so the month is one of the year. -/
def Date.Valid (date : Date) : Prop := date.day < (monthLengths date.year).getD date.month 0

instance (date : Date) : Decidable date.Valid :=
  inferInstanceAs (Decidable (date.day < (monthLengths date.year).getD date.month 0))

/-- A valid date is in one of twelve months. -/
theorem Date.Valid.month_lt {date : Date} (h : date.Valid) : date.month < 12 := by
  by_contra hlate
  have hnone : (monthLengths date.year)[date.month]? = none :=
    List.getElem?_eq_none (Nat.le_of_not_lt hlate)
  rw [Date.Valid, List.getD_eq_getElem?_getD, hnone] at h
  cases h

/-- No month is longer than 31 days. -/
theorem le_of_mem_monthLengths {year : Int} {length : Nat} (h : length ∈ monthLengths year) :
    length ≤ 31 := by
  have hall : ∀ february ≤ 31, ∀ length ∈
      [31, february, 31, 30, 31, 30, 31, 31, 30, 31, 30, 31], length ≤ 31 := by
    intro february hfebruary
    simp [hfebruary]
  apply hall _ ?_ length h
  split <;> decide

/-- A valid date is one of at most 31 days of its month. -/
theorem Date.Valid.day_lt {date : Date} (h : date.Valid) : date.day < 31 := by
  have hmonth : date.month < (monthLengths date.year).length := h.month_lt
  rw [Date.Valid, List.getD_eq_getElem?_getD, List.getElem?_eq_getElem hmonth] at h
  exact Nat.lt_of_lt_of_le h (le_of_mem_monthLengths (List.getElem_mem hmonth))

/-- The number of the day. -/
def Date.dayNumber (date : Date) : Int :=
  daysBeforeYear date.year + ((monthLengths date.year).take date.month).sum + date.day

/-- The date of a day number. -/
def dateOfDay (day : Int) : Date :=
  let year := yearOfDay day
  let position := locate (monthLengths year) (day - daysBeforeYear year).toNat
  ⟨year, position.1, position.2⟩

/-- The date of a day is valid and has that day number; so day numbers and valid dates determine
each other. -/
theorem dateOfDay_spec (day : Int) :
    (dateOfDay day).Valid ∧ (dateOfDay day).dayNumber = day := by
  obtain ⟨hfrom, hto⟩ := yearOfDay_spec day
  rw [daysBeforeYear_succ] at hto
  have hoffset : (day - daysBeforeYear (yearOfDay day)).toNat <
      (monthLengths (yearOfDay day)).sum := by
    rw [sum_monthLengths]
    omega
  obtain ⟨hlt, hsum⟩ := locate_spec hoffset
  refine ⟨hlt, ?_⟩
  simp only [Date.dayNumber, dateOfDay]
  omega

/-! ## Times -/

/-- A date and a time of day. -/
structure DateTime where
  date : Date
  hour : Nat
  minute : Nat
  second : Nat
deriving DecidableEq, Repr

/-- The date is one of the calendar and the time one of the day. -/
structure DateTime.Valid (time : DateTime) : Prop where
  date : time.date.Valid
  hour_lt : time.hour < 24
  minute_lt : time.minute < 60
  second_lt : time.second < 60

instance (time : DateTime) : Decidable time.Valid :=
  decidable_of_iff (time.date.Valid ∧ time.hour < 24 ∧ time.minute < 60 ∧ time.second < 60)
    ⟨fun h => ⟨h.1, h.2.1, h.2.2.1, h.2.2.2⟩,
      fun h => ⟨h.date, h.hour_lt, h.minute_lt, h.second_lt⟩⟩

/-- The seconds since the start of day zero. -/
def DateTime.seconds (time : DateTime) : Int :=
  time.date.dayNumber * 86400 + (time.hour * 3600 + time.minute * 60 + time.second : Nat)

/-- The date and the time of day of a count of seconds. -/
def dateTimeOfSeconds (seconds : Int) : DateTime :=
  let ofDay := (seconds % 86400).toNat
  ⟨dateOfDay (seconds / 86400), ofDay / 3600, ofDay / 60 % 60, ofDay % 60⟩

/-- Every count of seconds makes a valid date and time. -/
theorem valid_dateTimeOfSeconds (seconds : Int) : (dateTimeOfSeconds seconds).Valid := by
  have hday : (seconds % 86400).toNat < 86400 := by omega
  constructor
  · exact (dateOfDay_spec _).1
  · simp only [dateTimeOfSeconds]
    omega
  · simp only [dateTimeOfSeconds]
    omega
  · simp only [dateTimeOfSeconds]
    omega

/-- **Breaking down loses nothing.** -/
theorem seconds_dateTimeOfSeconds (seconds : Int) :
    (dateTimeOfSeconds seconds).seconds = seconds := by
  simp only [DateTime.seconds, dateTimeOfSeconds, (dateOfDay_spec _).2]
  omega

end CivilTime
