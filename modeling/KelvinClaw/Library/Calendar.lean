import Mathlib.Tactic.NormNum
import Mathlib.Data.Fin.Basic

/-!
# The proleptic Gregorian calendar in UTC

Days are numbered from 1970-01-01. The date of a day is computed inside a 400-year
era of 146097 days whose years start on 1 March, so that a leap day is the last day
of its year, of its four-year cycle and, once in an era, of its century. Century,
cycle and year follow by divisions; the month by the 153-day pattern of five
months. Leap seconds do not exist on this clock.
-/

namespace Systems.Calendar

/-- A date with the time to the minute. Months and days of the month count from
one, the weekday counts from Sunday. -/
structure CivilTime where
  year : ℕ
  month : Fin 13
  day : Fin 32
  hour : Fin 24
  minute : Fin 60
  weekday : Fin 7
  deriving DecidableEq, Repr

def millisPerMinute : ℕ := 60000

def millisPerDay : ℕ := 86400000

def epochShift : ℕ := 719468

def daysPerEra : ℕ := 146097

def daysPerCentury : ℕ := 36524

def daysPerCycle : ℕ := 1461

def dayOfEra (days : ℕ) : ℕ := (days + epochShift) % daysPerEra

def century (doe : ℕ) : ℕ := min (doe / daysPerCentury) 3

def dayOfCentury (doe : ℕ) : ℕ := doe - century doe * daysPerCentury

def yearOfCycle (doc : ℕ) : ℕ := min (doc % daysPerCycle / 365) 3

def dayOfYear (doc : ℕ) : ℕ := doc % daysPerCycle - yearOfCycle doc * 365

/-- The month of the year that starts on 1 March, counted from zero. -/
def shiftedMonth (doy : ℕ) : ℕ := (5 * doy + 2) / 153

/-- The usual number of a month counted from March. -/
def monthOfShifted (shifted : ℕ) : ℕ := if shifted < 10 then shifted + 3 else shifted - 9

def dayOfMonth (doy : ℕ) : ℕ := doy - (153 * shiftedMonth doy + 2) / 5 + 1

theorem dayOfYear_lt (doc : ℕ) : dayOfYear doc < 366 := by
  unfold dayOfYear yearOfCycle daysPerCycle
  omega

theorem monthOfShifted_lt {doy : ℕ} (inYear : doy < 366) :
    monthOfShifted (shiftedMonth doy) < 13 := by
  unfold monthOfShifted shiftedMonth
  split <;> omega

theorem one_le_monthOfShifted {doy : ℕ} (inYear : doy < 366) :
    1 ≤ monthOfShifted (shiftedMonth doy) := by
  unfold monthOfShifted shiftedMonth
  split <;> omega

theorem dayOfMonth_lt (doy : ℕ) : dayOfMonth doy < 32 := by
  unfold dayOfMonth shiftedMonth
  omega

/-- The day of the year a day number falls on, counted from 1 March. -/
def yearDay (days : ℕ) : ℕ := dayOfYear (dayOfCentury (dayOfEra days))

def civilMonth (days : ℕ) : Fin 13 :=
  ⟨monthOfShifted (shiftedMonth (yearDay days)), monthOfShifted_lt (dayOfYear_lt _)⟩

def civilDay (days : ℕ) : Fin 32 := ⟨dayOfMonth (yearDay days), dayOfMonth_lt _⟩

/-- The year of a day number. January and February end the shifted year. -/
def civilYear (days : ℕ) : ℕ :=
  let doe := dayOfEra days
  let doc := dayOfCentury doe
  (days + epochShift) / daysPerEra * 400 + century doe * 100 + doc / daysPerCycle * 4 +
    yearOfCycle doc + if (civilMonth days).val ≤ 2 then 1 else 0

def civilWeekday (days : ℕ) : Fin 7 := ⟨(days + 4) % 7, Nat.mod_lt _ (by norm_num)⟩

/-- The civil time of a number of milliseconds since the epoch. -/
def civilTime (millis : ℕ) : CivilTime where
  year := civilYear (millis / millisPerDay)
  month := civilMonth (millis / millisPerDay)
  day := civilDay (millis / millisPerDay)
  hour := ⟨millis / 3600000 % 24, Nat.mod_lt _ (by norm_num)⟩
  minute := ⟨millis / millisPerMinute % 60, Nat.mod_lt _ (by norm_num)⟩
  weekday := civilWeekday (millis / millisPerDay)

theorem one_le_civilTime_month (millis : ℕ) : 1 ≤ (civilTime millis).month.val :=
  one_le_monthOfShifted (dayOfYear_lt _)

/-- The last minute of 29 February 2028, a Tuesday. -/
example : civilTime 1835481540000 = ⟨2028, 2, 29, 23, 59, 2⟩ := by decide

end Systems.Calendar
