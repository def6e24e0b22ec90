import Mathlib.Tactic.Ring
import KelvinClaw.Core.Text
import KelvinClaw.Library.Calendar

/-!
# Cron expressions

An expression has five fields, each a comma-separated list of values, ranges and
steps, parsed into one flag per admissible value. A schedule searches minute by
minute, over a bounded window, for the first instant its fields accept.

The calendar is a third-party library. It enters as a parameter that gives the
civil time of a timestamp, or nothing when the timestamp is out of its range.
-/

namespace KelvinClaw.Scheduler

open KelvinClaw.Core Systems.Calendar

def minuteMs : ℕ := 60000

def maxCronScanMinutes : ℕ := 1051200

/-- `minute_slot`: the start of the minute of a timestamp. -/
def minuteSlot (tsMs : ℕ) : ℕ := tsMs / minuteMs * minuteMs

/-- The calendar: the civil time of a timestamp in milliseconds, when it is in range.
The largest signed timestamp is out of range. -/
structure UtcCalendar where
  /-- `DateTime::<Utc>::from_timestamp_millis` on timestamps from the epoch on. -/
  fromTimestampMillis : ℕ → Option CivilTime
  outOfRange : fromTimestampMillis i64Max = none

def maxTimestampMillis : ℕ := 8210266876799999

/-- The proleptic Gregorian calendar up to its last representable instant. -/
def gregorian : UtcCalendar where
  fromTimestampMillis millis :=
    if millis ≤ maxTimestampMillis then some (civilTime millis) else none
  outOfRange := by decide

/-! ### Parsing -/

/-- `parse_value`: a decimal in range. Seven may stand for Sunday. -/
def parseValue (raw : List Char) (least largest : ℕ) (sundayAlias : Bool) : KelvinResult ℕ :=
  match parseUsize raw with
  | none => .error (.invalidInput s!"invalid cron value '{String.ofList raw}'")
  | some parsed =>
    let value := if sundayAlias && parsed == 7 then 0 else parsed
    if value < least ∨ largest < value then
      .error (.invalidInput
        s!"cron value '{String.ofList raw}' must be between {least} and {largest}")
    else .ok value

def parseStep (item : List Char) : KelvinResult (List Char × ℕ) :=
  match splitOnce '/' item with
  | none => .ok (trimChars item, 1)
  | some (range, step) =>
    match parseUsize (trimChars step) with
    | none => .error (.invalidInput s!"invalid cron step '{String.ofList (trimChars step)}'")
    | some parsed =>
      if parsed = 0 then .error (.invalidInput "cron step must be >= 1")
      else .ok (trimChars range, parsed)

def parseRange (rangeRaw : List Char) (least largest : ℕ) (sundayAlias : Bool) :
    KelvinResult (ℕ × ℕ) := do
  if rangeRaw = ['*'] then
    return (least, largest)
  match splitOnce '-' rangeRaw with
  | some (start, stop) =>
    let first ← parseValue (trimChars start) least largest sundayAlias
    let last ← parseValue (trimChars stop) least largest sundayAlias
    return (first, last)
  | none =>
    let value ← parseValue rangeRaw least largest sundayAlias
    return (value, value)

/-- The loop that sets every `step`-th flag from `value` to `last`. -/
def markRange {n : ℕ} (last step : ℕ) : ℕ → ℕ → (Fin n → Bool) → Fin n → Bool
  | 0, _, field => field
  | fuel + 1, value, field =>
    if value ≤ last then
      markRange last step fuel (saturatingAdd usizeMax value step)
        fun i => field i || i.val == value
    else field

theorem markRange_of_lt {n last step fuel value : ℕ} (past : last < value)
    (field : Fin n → Bool) : markRange last step fuel value field = field := by
  cases fuel with
  | zero => rfl
  | succ fuel => rw [markRange, if_neg (by omega)]

/-- A range with a step sets exactly its own values: those from its start to its end
that are a multiple of the step away from the start. -/
theorem markRange_apply {n last step : ℕ} (positive : 0 < step) (small : last < usizeMax)
    {fuel value : ℕ} (enough : last < value + fuel) (field : Fin n → Bool) (i : Fin n) :
    markRange last step fuel value field i = true ↔
      field i = true ∨ (value ≤ i ∧ i ≤ last ∧ step ∣ i - value) := by
  induction fuel generalizing value field with
  | zero => exact (or_iff_left (by omega)).symm
  | succ fuel ih =>
    by_cases inRange : value ≤ last
    · -- every later value of the range is at least one step away
      have split : (value ≤ i ∧ i ≤ last ∧ step ∣ i - value) ↔
          i.val = value ∨ (value + step ≤ i ∧ i ≤ last ∧ step ∣ i - (value + step)) := by
        constructor
        · rintro ⟨after, before, divides⟩
          rcases Nat.eq_zero_or_pos (i - value) with here | far
          · exact .inl (by omega)
          · have oneStep := Nat.le_of_dvd far divides
            exact .inr ⟨by omega, before, Nat.sub_sub _ _ _ ▸ Nat.dvd_sub divides dvd_rfl⟩
        · rintro (here | ⟨after, before, divides⟩)
          · exact ⟨here.ge, by omega, by simp [here]⟩
          · refine ⟨by omega, before, ?_⟩
            rw [show i.val - value = i.val - (value + step) + step by omega]
            exact Nat.dvd_add divides dvd_rfl
      rw [markRange, if_pos inRange, split]
      by_cases fits : value + step ≤ usizeMax
      · rw [saturatingAdd_of_le fits, ih (by omega)]
        simp [or_assoc]
      · rw [markRange_of_lt (by rw [saturatingAdd]; omega)]
        rw [Bool.or_eq_true, beq_iff_eq, or_iff_left (b := _ ∧ _) (by omega)]
    · rw [markRange_of_lt (by omega)]
      exact (or_iff_left (by omega)).symm

/-- One item of a field: its flags are added to those already set. -/
def parseItem (least largest : ℕ) (sundayAlias : Bool) (field : Fin (largest + 1) → Bool)
    (item : List Char) : KelvinResult (Fin (largest + 1) → Bool) := do
  let (rangeRaw, step) ← parseStep item
  let (start, stop) ← parseRange rangeRaw least largest sundayAlias
  refuseIf (stop < start) (.invalidInput s!"invalid cron range '{String.ofList rangeRaw}'")
  return markRange stop step (largest + 1) start field

/-- `parse_field`: one flag for each value up to `largest`. -/
def parseField (raw : List Char) (least largest : ℕ) (sundayAlias : Bool) :
    KelvinResult (Fin (largest + 1) → Bool) :=
  if trimChars raw = [] then .error (.invalidInput "cron contains empty field")
  else (raw.splitOn ',').foldlM (parseItem least largest sundayAlias) fun _ => false

/-- A parsed cron expression. -/
structure CronSchedule where
  raw : String
  minutes : Fin 60 → Bool
  hours : Fin 24 → Bool
  monthDays : Fin 32 → Bool
  months : Fin 13 → Bool
  weekDays : Fin 8 → Bool
  monthDaysWild : Bool
  weekDaysWild : Bool

namespace CronSchedule

/-- `CronSchedule::parse`. -/
def parse (raw : String) : KelvinResult CronSchedule :=
  let trimmed := trimChars raw.toList
  match splitWhitespace trimmed with
  | [minutes, hours, monthDays, months, weekDays] => do
    return {
      raw := String.ofList trimmed
      minutes := ← parseField minutes 0 59 false
      hours := ← parseField hours 0 23 false
      monthDays := ← parseField monthDays 1 31 false
      months := ← parseField months 1 12 false
      weekDays := ← parseField weekDays 0 7 true
      monthDaysWild := trimChars monthDays = ['*']
      weekDaysWild := trimChars weekDays = ['*'] }
  | _ => .error (.invalidInput "cron must have exactly 5 fields")

theorem parse_trim (raw : String) : parse (trim raw) = parse raw := by
  simp only [parse, trim, String.toList_ofList, trimChars_trimChars]

theorem raw_of_parse {raw : String} {cron : CronSchedule} (parsed : parse raw = .ok cron) :
    cron.raw = trim raw := by
  simp only [parse] at parsed
  split at parsed
  · simp only [bind_eq_ok, pure_eq_ok] at parsed
    obtain ⟨_, _, _, _, _, _, _, _, _, _, rfl⟩ := parsed
    rfl
  · cases parsed

/-- The stored text of an accepted expression parses to the same schedule. -/
theorem parse_raw {raw : String} {cron : CronSchedule} (parsed : parse raw = .ok cron) :
    parse cron.raw = .ok cron := by
  rw [raw_of_parse parsed, parse_trim, parsed]

/-- Whether the fields accept a civil time. A day is accepted when one of the two
restricted day fields accepts it. -/
def accepts (cron : CronSchedule) (time : CivilTime) : Bool :=
  if !cron.minutes time.minute || !cron.hours time.hour || !cron.months time.month then false
  else
    let monthDayMatch := cron.monthDays time.day
    let weekDayMatch := cron.weekDays (time.weekday.castLE (by decide))
    match cron.monthDaysWild, cron.weekDaysWild with
    | true, true => true
    | true, false => weekDayMatch
    | false, true => monthDayMatch
    | false, false => monthDayMatch || weekDayMatch

variable (calendar : UtcCalendar) (cron : CronSchedule)

/-- `matches`: whether the fields accept an instant, when the calendar knows it. -/
def matchesSlot (slotMs : ℕ) : KelvinResult Bool :=
  match calendar.fromTimestampMillis (min slotMs i64Max) with
  | none => .error (.invalidInput "invalid scheduler timestamp")
  | some dateTime => .ok (cron.accepts dateTime)

/-- The search loop, with the number of minutes still to try. -/
def scan : ℕ → ℕ → KelvinResult ℕ
  | 0, _ => .error
      (.invalidInput s!"cron '{cron.raw}' produced no matching slot within scan window")
  | left + 1, candidate => do
    if ← cron.matchesSlot calendar candidate then
      return candidate
    scan left (saturatingAdd u128Max candidate minuteMs)

/-- `first_slot_at_or_after`. -/
def firstSlotAtOrAfter (startMs : ℕ) : KelvinResult ℕ :=
  cron.scan calendar maxCronScanMinutes startMs

/-- `next_slot_after`. -/
def nextSlotAfter (slotMs : ℕ) : KelvinResult ℕ :=
  cron.firstSlotAtOrAfter calendar (saturatingAdd u128Max slotMs minuteMs)

/-! ### What the search finds -/

/-- A schedule's fields accept an instant the calendar knows. -/
def Matches (slotMs : ℕ) : Prop := cron.matchesSlot calendar slotMs = .ok true

instance (slotMs : ℕ) : Decidable (cron.Matches calendar slotMs) :=
  inferInstanceAs (Decidable (_ = _))

variable {calendar cron}

/-- Only instants before the largest signed timestamp have an answer. -/
theorem lt_of_matchesSlot {slotMs : ℕ} {answer : Bool}
    (answered : cron.matchesSlot calendar slotMs = .ok answer) : slotMs < i64Max := by
  by_contra late
  rw [matchesSlot, min_eq_right (by omega), calendar.outOfRange] at answered
  cases answered

theorem saturatingAdd_minuteMs {slotMs : ℕ} {answer : Bool}
    (answered : cron.matchesSlot calendar slotMs = .ok answer) :
    saturatingAdd u128Max slotMs minuteMs = slotMs + minuteMs := by
  have := lt_of_matchesSlot answered
  exact saturatingAdd_of_le (by simp only [i64Max, u128Max, minuteMs] at *; omega)

/-- A search over `left` minutes succeeds with the first instant, in steps of a minute
from its start, that the fields accept. -/
theorem scan_eq_ok {left start slotMs : ℕ} :
    cron.scan calendar left start = .ok slotMs ↔
      ∃ steps < left, slotMs = start + steps * minuteMs ∧ cron.Matches calendar slotMs ∧
        ∀ k < steps, cron.matchesSlot calendar (start + k * minuteMs) = .ok false := by
  induction left generalizing start with
  | zero => simp [scan]
  | succ left ih =>
    rw [scan]
    cases answered : cron.matchesSlot calendar start with
    | error e =>
      simp only [bind, Except.bind, reduceCtorEq, false_iff, not_exists, not_and]
      rintro steps few rfl accepted skipped
      cases steps with
      | zero => simp [Matches, answered] at accepted
      | succ steps => simpa [answered] using skipped 0 (by omega)
    | ok answer =>
      cases answer with
      | true =>
        simp only [bind, Except.bind, if_true, pure, Except.pure, Except.ok.injEq]
        constructor
        · rintro rfl
          exact ⟨0, by omega, by simp, answered, by simp⟩
        · rintro ⟨steps, few, rfl, accepted, skipped⟩
          cases steps with
          | zero => simp
          | succ steps => simpa [answered] using skipped 0 (by omega)
      | false =>
        simp only [bind, Except.bind, Bool.false_eq_true, if_false,
          saturatingAdd_minuteMs answered, ih]
        constructor
        · rintro ⟨steps, few, rfl, accepted, skipped⟩
          refine ⟨steps + 1, by omega, by ring, accepted, fun k before => ?_⟩
          cases k with
          | zero => simpa using answered
          | succ k =>
            rw [show start + (k + 1) * minuteMs = start + minuteMs + k * minuteMs by ring]
            exact skipped k (by omega)
        · rintro ⟨steps, few, rfl, accepted, skipped⟩
          cases steps with
          | zero => simp [Matches, answered] at accepted
          | succ steps =>
            refine ⟨steps, by omega, by ring, accepted, fun k before => ?_⟩
            rw [show start + minuteMs + k * minuteMs = start + (k + 1) * minuteMs by ring]
            exact skipped (k + 1) (by omega)

variable (calendar cron) in
/-- The fields accept an instant within the search window after a slot, and the
calendar knows every minute before it. -/
def HasSuccessor (slotMs : ℕ) : Prop :=
  ∃ steps < maxCronScanMinutes, cron.Matches calendar (slotMs + (steps + 1) * minuteMs) ∧
    ∀ k < steps, ∃ answer, cron.matchesSlot calendar (slotMs + (k + 1) * minuteMs) = .ok answer

theorem nextSlotAfter_eq_ok {slotMs nextMs : ℕ} (accepted : cron.Matches calendar slotMs) :
    cron.nextSlotAfter calendar slotMs = .ok nextMs ↔
      ∃ steps < maxCronScanMinutes, nextMs = slotMs + (steps + 1) * minuteMs ∧
        cron.Matches calendar nextMs ∧
        ∀ k < steps, cron.matchesSlot calendar (slotMs + (k + 1) * minuteMs) = .ok false := by
  rw [nextSlotAfter, saturatingAdd_minuteMs accepted, firstSlotAtOrAfter, scan_eq_ok]
  refine exists_congr fun steps => and_congr_right fun _ => ?_
  have shift : ∀ k, slotMs + minuteMs + k * minuteMs = slotMs + (k + 1) * minuteMs :=
    fun k => by ring
  simp only [shift]

theorem exists_nextSlotAfter {slotMs : ℕ} (accepted : cron.Matches calendar slotMs) :
    (∃ nextMs, cron.nextSlotAfter calendar slotMs = .ok nextMs) ↔
      cron.HasSuccessor calendar slotMs := by
  constructor
  · rintro ⟨nextMs, found⟩
    obtain ⟨steps, few, rfl, next, skipped⟩ := (nextSlotAfter_eq_ok accepted).mp found
    exact ⟨steps, few, next, fun k before => ⟨false, skipped k before⟩⟩
  · intro successor
    classical
    obtain ⟨few, next, answered⟩ := Nat.find_spec successor
    refine ⟨_, (nextSlotAfter_eq_ok accepted).mpr ⟨_, few, rfl, next, fun k before => ?_⟩⟩
    obtain ⟨answer, known⟩ := answered k before
    cases answer with
    | false => exact known
    | true =>
      -- an earlier accepted minute would have been found first
      exact absurd ⟨by omega, known, fun j earlier => answered j (by omega)⟩
        (Nat.find_min successor before)

end CronSchedule

/-! ### Every minute -/

def everyMinuteCron : CronSchedule where
  raw := "* * * * *"
  minutes := markRange 59 1 60 0 fun _ => false
  hours := markRange 23 1 24 0 fun _ => false
  monthDays := markRange 31 1 32 1 fun _ => false
  months := markRange 12 1 13 1 fun _ => false
  weekDays := markRange 7 1 8 0 fun _ => false
  monthDaysWild := true
  weekDaysWild := true

theorem parse_everyMinute : CronSchedule.parse "* * * * *" = .ok everyMinuteCron := rfl

theorem accepts_everyMinuteCron {time : CivilTime} (month : 1 ≤ time.month.val) :
    everyMinuteCron.accepts time = true := by
  have minute : markRange 59 1 60 0 (fun _ => false) time.minute = true :=
    (markRange_apply (by decide) (by decide) (by decide) _ _).mpr
      (.inr ⟨Nat.zero_le _, by omega, one_dvd _⟩)
  have hour : markRange 23 1 24 0 (fun _ => false) time.hour = true :=
    (markRange_apply (by decide) (by decide) (by decide) _ _).mpr
      (.inr ⟨Nat.zero_le _, by omega, one_dvd _⟩)
  have month : markRange 12 1 13 1 (fun _ => false) time.month = true :=
    (markRange_apply (by decide) (by decide) (by decide) _ _).mpr
      (.inr ⟨month, by omega, one_dvd _⟩)
  simp only [CronSchedule.accepts, everyMinuteCron, minute, hour, month]
  rfl
theorem accepts_of_matches {cron : CronSchedule} {slotMs : ℕ}
    (matching : cron.Matches gregorian slotMs) : cron.accepts (civilTime slotMs) = true := by
  have small := (CronSchedule.lt_of_matchesSlot matching).le
  rw [CronSchedule.Matches, CronSchedule.matchesSlot, min_eq_left small] at matching
  by_cases inRange : slotMs ≤ maxTimestampMillis
  · simpa [gregorian, inRange] using matching
  · simp [gregorian, inRange] at matching

theorem matches_everyMinuteCron {slotMs : ℕ} (inRange : slotMs ≤ maxTimestampMillis) :
    everyMinuteCron.Matches gregorian slotMs := by
  have small : slotMs ≤ i64Max := inRange.trans (by decide)
  rw [CronSchedule.Matches, CronSchedule.matchesSlot, min_eq_left small]
  simp only [gregorian, if_pos inRange]
  rw [accepts_everyMinuteCron (one_le_civilTime_month _)]

end KelvinClaw.Scheduler
