import Mathlib.Order.Bounds.Basic
import KelvinClaw.Scheduler.AtMostOnce

/-!
# The search for a slot is exact

A search goes from its start in steps of a minute and looks at no more minutes than the
window has. What it may find are the instants of the window that stand at a whole number of
minutes from the start and whose civil time satisfies the fields. It finds the least of
them, and fails when there is none.

A claim takes slots of a schedule in this order. In runs whose calls come one after the other,
the slots of a schedule that is not added again increase from claim to claim.
-/

namespace KelvinClaw.Scheduler

open KelvinClaw.Core Systems.Calendar Systems.ReadModifyWrite Protocol

namespace CronSchedule

variable {cron : CronSchedule} {startMs slotMs : ℕ}

/-! ### The fields -/

/-- The day-of-week field has a place for each weekday, and one for the other name of Sunday. -/
theorem weekdays_le : 7 ≤ 8 := by decide

/-- The day rule: each restricted day field accepts the day, but when both are restricted one of
them is enough. -/
def DayMatches (cron : CronSchedule) (time : CivilTime) : Prop :=
  let monthDay := cron.monthDays time.day = true
  let weekDay := cron.weekDays (time.weekday.castLE weekdays_le) = true
  if cron.monthDaysWild = false ∧ cron.weekDaysWild = false then monthDay ∨ weekDay
  else (cron.monthDaysWild = false → monthDay) ∧ (cron.weekDaysWild = false → weekDay)

/-- A civil time satisfies all fields. -/
structure Satisfies (cron : CronSchedule) (time : CivilTime) : Prop where
  minute : cron.minutes time.minute = true
  hour : cron.hours time.hour = true
  month : cron.months time.month = true
  day : cron.DayMatches time

theorem accepts_iff_satisfies {time : CivilTime} :
    cron.accepts time = true ↔ cron.Satisfies time := by
  have fields : cron.Satisfies time ↔ cron.minutes time.minute = true ∧
      cron.hours time.hour = true ∧ cron.months time.month = true ∧ cron.DayMatches time :=
    ⟨fun sat => ⟨sat.minute, sat.hour, sat.month, sat.day⟩,
      fun ⟨minute, hour, month, day⟩ => ⟨minute, hour, month, day⟩⟩
  rw [fields, accepts, DayMatches]
  cases cron.minutes time.minute <;> cases cron.hours time.hour <;>
    cases cron.months time.month <;> simp
  cases cron.monthDaysWild <;> cases cron.weekDaysWild <;> simp

/-! ### What a search finds -/

/-- An instant of the search window, at a whole number of minutes from the start, that the
calendar knows and whose civil time satisfies the fields. -/
structure Candidate (cron : CronSchedule) (startMs slotMs : ℕ) : Prop where
  after : startMs ≤ slotMs
  inWindow : slotMs < startMs + maxCronScanMinutes * minuteMs
  onGrid : slotMs % minuteMs = startMs % minuteMs
  known : slotMs ≤ maxTimestampMillis
  satisfied : cron.Satisfies (civilTime slotMs)

theorem matches_gregorian_iff :
    cron.Matches gregorian slotMs ↔
      slotMs ≤ maxTimestampMillis ∧ cron.Satisfies (civilTime slotMs) := by
  rw [Matches, matchesSlot, ← accepts_iff_satisfies]
  by_cases known : slotMs ≤ maxTimestampMillis
  · have small : slotMs ≤ i64Max := known.trans (by decide)
    simp [gregorian, min_eq_left small, known]
  · have late : ¬ min slotMs i64Max ≤ maxTimestampMillis := by
      rw [min_le_iff, not_or]
      exact ⟨known, by decide⟩
    simp [gregorian, late, known]

theorem matchesSlot_of_known (known : slotMs ≤ maxTimestampMillis) :
    cron.matchesSlot gregorian slotMs = .ok (cron.accepts (civilTime slotMs)) := by
  have small : slotMs ≤ i64Max := known.trans (by decide)
  simp [matchesSlot, gregorian, min_eq_left small, known]

theorem candidate_iff_steps : cron.Candidate startMs slotMs ↔
    ∃ steps < maxCronScanMinutes, slotMs = startMs + steps * minuteMs ∧
      cron.Matches gregorian slotMs := by
  constructor
  · intro candidate
    have grid := candidate.onGrid
    have after := candidate.after
    have window := candidate.inWindow
    refine ⟨(slotMs - startMs) / minuteMs, ?_, ?_, ?_⟩
    · simp only [minuteMs] at *
      omega
    · simp only [minuteMs] at *
      omega
    · exact matches_gregorian_iff.mpr ⟨candidate.known, candidate.satisfied⟩
  · rintro ⟨steps, few, rfl, matching⟩
    obtain ⟨known, satisfied⟩ := matches_gregorian_iff.mp matching
    refine ⟨Nat.le_add_right _ _, ?_, ?_, known, satisfied⟩
    · simp only [minuteMs]
      omega
    · simp [Nat.add_mul_mod_self_right]

theorem firstSlotAtOrAfter_eq_ok_iff : cron.firstSlotAtOrAfter gregorian startMs = .ok slotMs ↔
    IsLeast {slot | cron.Candidate startMs slot} slotMs := by
  rw [firstSlotAtOrAfter, scan_eq_ok]
  constructor
  · rintro ⟨steps, few, rfl, matching, skipped⟩
    refine ⟨candidate_iff_steps.mpr ⟨steps, few, rfl, matching⟩, fun other candidate => ?_⟩
    obtain ⟨fewer, _, rfl, matches'⟩ := candidate_iff_steps.mp candidate
    by_contra before
    -- an earlier candidate has been looked at and did not match
    have earlier : fewer < steps := by
      simp only [minuteMs] at before
      omega
    rw [Matches, skipped fewer earlier] at matches'
    cases matches'
  · rintro ⟨candidate, least⟩
    obtain ⟨steps, few, rfl, matching⟩ := candidate_iff_steps.mp candidate
    refine ⟨steps, few, rfl, matching, fun k before => ?_⟩
    have earlier : startMs + k * minuteMs < startMs + steps * minuteMs := by
      simp only [minuteMs]
      omega
    have known : cron.matchesSlot gregorian (startMs + k * minuteMs) = _ :=
      matchesSlot_of_known (earlier.le.trans candidate.known)
    rw [known]
    cases answer : cron.accepts (civilTime (startMs + k * minuteMs)) with
    | false => rfl
    | true =>
      refine absurd (least ?_) (not_le.mpr earlier)
      exact candidate_iff_steps.mpr ⟨k, before.trans few, rfl, by rw [Matches, known, answer]⟩

theorem firstSlotAtOrAfter_error_iff :
    (∃ e, cron.firstSlotAtOrAfter gregorian startMs = .error e) ↔
      ∀ slot, ¬ cron.Candidate startMs slot := by
  constructor
  · rintro ⟨e, failed⟩ slot candidate
    classical
    have some : ∃ slot, cron.Candidate startMs slot := ⟨slot, candidate⟩
    have least : IsLeast {slot | cron.Candidate startMs slot} (Nat.find some) :=
      ⟨Nat.find_spec some, fun _ other => Nat.find_min' some other⟩
    rw [← firstSlotAtOrAfter_eq_ok_iff, failed] at least
    cases least
  · intro none
    cases result : cron.firstSlotAtOrAfter gregorian startMs with
    | error e => exact ⟨e, rfl⟩
    | ok slot => exact absurd (firstSlotAtOrAfter_eq_ok_iff.mp result).1 (none slot)

theorem nextSlotAfter_eq_ok_iff {nextMs : ℕ} :
    cron.nextSlotAfter gregorian slotMs = .ok nextMs ↔
      IsLeast {slot | cron.Candidate (slotMs + minuteMs) slot} nextMs := by
  rw [nextSlotAfter, firstSlotAtOrAfter_eq_ok_iff]
  by_cases fits : slotMs + minuteMs ≤ u128Max
  · rw [saturatingAdd_of_le fits]
  · -- so late that the calendar knows no candidate
    have none : ∀ start, u128Max ≤ start → ∀ slot, ¬ cron.Candidate start slot := by
      intro start late slot candidate
      have bound : maxTimestampMillis < u128Max := by decide
      have := candidate.after
      have := candidate.known
      omega
    have saturated : u128Max ≤ saturatingAdd u128Max slotMs minuteMs := by
      rw [saturatingAdd]
      omega
    constructor
    · exact fun least => absurd least.1 (none _ saturated nextMs)
    · exact fun least => absurd least.1 (none _ (by omega) nextMs)

theorem lt_of_nextSlotAfter {nextMs : ℕ}
    (found : cron.nextSlotAfter gregorian slotMs = .ok nextMs) : slotMs < nextMs := by
  have after := (nextSlotAfter_eq_ok_iff.mp found).1.after
  simp only [minuteMs] at after
  omega

end CronSchedule

/-! ### The slots of one schedule -/

def claimedFor (id : String) (log : List (Finished Call Reply)) : List ℕ :=
  ((log.flatMap returned).filter fun pair => pair.1 = id).map Prod.snd

def Adds (done : Finished Call Reply) (id : String) : Prop :=
  ∃ task, done.reply = .task (.ok task) ∧ task.id = id

section Runs

variable {calendar : UtcCalendar} {call : Call} {file next final : SchedulerState} {id : String}

theorem claimedFor_cons (done : Finished Call Reply) (log : List (Finished Call Reply)) :
    claimedFor id (done :: log) = claimedFor id [done] ++ claimedFor id log := by
  simp [claimedFor]

theorem mem_claimedFor {log : List (Finished Call Reply)} {slotMs : ℕ} :
    slotMs ∈ claimedFor id log ↔ ∃ done ∈ log, (id, slotMs) ∈ returned done := by
  simp [claimedFor]

theorem lt_of_passed {log : List (Finished Call Reply)} {slotMs laterMs : ℕ}
    (wellFormed : WellFormed calendar file.schedules)
    (replays : (store calendar).Replays file log final) (same : ∀ done ∈ log, ¬ Adds done id)
    (passed : Passed (id, slotMs) file.schedules) (later : laterMs ∈ claimedFor id log) :
    slotMs < laterMs := by
  induction log generalizing file with
  | nil => cases later
  | cons done log ih =>
    obtain ⟨replied, rest⟩ := replays
    rw [claimedFor_cons, List.mem_append] at later
    rcases later with now | later
    · obtain ⟨_, isDone, member⟩ := mem_claimedFor.mp now
      rw [List.mem_singleton.mp isDone] at member
      obtain ⟨_, slots, slot, effect, _, mem, isSlot, _⟩ := effect_of_returned replied member
      obtain ⟨rfl, rfl⟩ := Prod.mk.injEq .. ▸ isSlot
      exact lt_of_returned wellFormed effect mem passed
    · have outcome := alone_outcome calendar done.call done.stored file
      have stays : Passed (id, slotMs)
          ((store calendar).alone done.call done.stored file).2.schedules := by
        have fresh : ¬ Readds done (id, slotMs) := fun ⟨task, added, isId, _⟩ =>
          same done List.mem_cons_self ⟨task, added, isId⟩
        rw [Readds, replied] at fresh
        generalize (store calendar).alone done.call done.stored file = result at outcome fresh
        cases outcome with
        | saved effect =>
          exact fun task member => passed.effect wellFormed effect done.stored fresh task
            ((mem_schedules_saveState _).mp member)
        | unchanged _ => exact passed
      exact ih (wellFormed_alone _ _ wellFormed) rest
        (fun other member => same other (List.mem_cons_of_mem _ member)) stays later

/-- In calls that come one after the other, the slots of one schedule increase. -/
theorem pairwise_claimedFor {log : List (Finished Call Reply)}
    (wellFormed : WellFormed calendar file.schedules)
    (replays : (store calendar).Replays file log final) (same : ∀ done ∈ log, ¬ Adds done id) :
    (claimedFor id log).Pairwise (· < ·) := by
  induction log generalizing file with
  | nil => exact .nil
  | cons done log ih =>
    obtain ⟨replied, rest⟩ := replays
    have fresh := fun other member => same other (List.mem_cons_of_mem done member)
    have wellFormed' := wellFormed_alone done.call done.stored wellFormed
    rw [claimedFor_cons, List.pairwise_append]
    refine ⟨?_, ih wellFormed' rest fresh, fun slotMs now laterMs later => ?_⟩
    · by_cases none : returned done = []
      · simp [claimedFor, none]
      · obtain ⟨pair, member⟩ := List.exists_mem_of_ne_nil _ none
        obtain ⟨_, slots, _, effect, isClaim, _⟩ := effect_of_returned replied member
        have ordered := pairwise_of_claimed wellFormed effect
        have isReturned : returned done =
            slots.map fun slot => (slot.schedule.id, slot.slotAtMs) := by
          rw [returned, isClaim]
        rw [← isReturned] at ordered
        rw [claimedFor, List.flatMap_singleton, List.pairwise_map]
        refine (ordered.filter _).imp_of_mem fun {first second} inFirst inSecond before => ?_
        have isFirst := (List.mem_filter.mp inFirst).2
        have isSecond := (List.mem_filter.mp inSecond).2
        simp only [decide_eq_true_eq] at isFirst isSecond
        exact before (isFirst.trans isSecond.symm)
    · obtain ⟨_, isDone, member⟩ := mem_claimedFor.mp now
      rw [List.mem_singleton.mp isDone] at member
      obtain ⟨saved, slots, slot, effect, _, mem, isSlot, saves⟩ :=
        effect_of_returned replied member
      obtain ⟨rfl, rfl⟩ := Prod.mk.injEq .. ▸ isSlot
      have passed : Passed (slot.schedule.id, slot.slotAtMs)
          ((store calendar).alone done.call done.stored file).2.schedules := by
        rw [saves]
        exact fun task found => passed_of_returned wellFormed effect mem task
          ((mem_schedules_saveState _).mp found)
      exact lt_of_passed wellFormed' rest fresh passed later

theorem satisfies_of_returned (wellFormed : WellFormed gregorian file.schedules)
    {slots : List ClaimedScheduleSlot}
    (effect : Effect gregorian call file next (.claimed (.ok slots))) {slot : ClaimedScheduleSlot}
    (member : slot ∈ slots) :
    ∃ cron, CronSchedule.parse slot.schedule.cron = .ok cron ∧ minuteMs ∣ slot.slotAtMs ∧
      slot.slotAtMs ≤ maxTimestampMillis ∧ cron.Satisfies (civilTime slot.slotAtMs) := by
  cases effect with
  | claimed _ ran =>
    obtain ⟨rfl, _⟩ := claimDueSlots_spec wellFormed ran
    obtain ⟨task, found, slotMs, fresh, rfl⟩ := mem_claimedSlots.mp member
    obtain ⟨taken, -⟩ := List.mem_filter.mp fresh
    obtain ⟨cron, parsed, aligned⟩ := wellFormed.pointers task found
    obtain ⟨_, _, isMinute, matching⟩ :=
      (ScheduledTask.mem_dueSlots_of_aligned parsed aligned).mp (List.mem_of_mem_take taken)
    obtain ⟨known, satisfied⟩ := CronSchedule.matches_gregorian_iff.mp matching
    exact ⟨cron, parsed, Nat.dvd_of_mod_eq_zero isMinute, known, satisfied⟩

end Runs

/-- The search is exact: it returns the least candidate, fails when there is none, and after a
slot it returns a later one. In calls that come one after the other, every claimed slot is a
whole minute that satisfies the expression of its schedule, and the slots of a schedule
increase as long as it is not added again. -/
theorem search_is_exact :
    (∀ (cron : CronSchedule) (startMs slotMs : ℕ),
      cron.firstSlotAtOrAfter gregorian startMs = .ok slotMs ↔
        IsLeast {slot | cron.Candidate startMs slot} slotMs) ∧
    (∀ (cron : CronSchedule) (startMs : ℕ),
      (∃ e, cron.firstSlotAtOrAfter gregorian startMs = .error e) ↔
        ∀ slot, ¬ cron.Candidate startMs slot) ∧
    (∀ (cron : CronSchedule) (slotMs nextMs : ℕ),
      cron.nextSlotAfter gregorian slotMs = .ok nextMs → slotMs < nextMs ∧
        IsLeast {slot | cron.Candidate (slotMs + minuteMs) slot} nextMs) ∧
    (∀ log final, (store gregorian).Replays .default log final →
      (∀ done ∈ log, ∀ slots, done.reply = .claimed (.ok slots) → ∀ slot ∈ slots,
        ∃ cron, CronSchedule.parse slot.schedule.cron = .ok cron ∧ minuteMs ∣ slot.slotAtMs ∧
          slot.slotAtMs ≤ maxTimestampMillis ∧ cron.Satisfies (civilTime slot.slotAtMs)) ∧
      ∀ before during after id, log = before ++ during ++ after →
        (∀ done ∈ during, ¬ Adds done id) → (claimedFor id during).Pairwise (· < ·)) := by
  refine ⟨fun _ _ _ => CronSchedule.firstSlotAtOrAfter_eq_ok_iff,
    fun _ _ => CronSchedule.firstSlotAtOrAfter_error_iff, ?_, ?_⟩
  · intro cron slotMs nextMs found
    exact ⟨CronSchedule.lt_of_nextSlotAfter found, CronSchedule.nextSlotAfter_eq_ok_iff.mp found⟩
  · intro log final replays
    constructor
    · intro done member slots isClaim slot mem
      obtain ⟨before, _, mid, _, earlier, replied, _⟩ := replays.exists_at member
      have pair : (slot.schedule.id, slot.slotAtMs) ∈ returned done := by
        rw [returned, isClaim]
        exact List.mem_map_of_mem mem
      obtain ⟨_, slots', _, effect, isClaim', _⟩ := effect_of_returned replied pair
      cases isClaim.symm.trans isClaim'
      exact satisfies_of_returned (wellFormed_default.replays earlier) effect mem
    · rintro before during after id rfl same
      obtain ⟨_, most, _⟩ := replays_append.mp replays
      obtain ⟨mid, earlier, here⟩ := replays_append.mp most
      exact pairwise_claimedFor (wellFormed_default.replays earlier) here same

/-- A start that is no whole minute is returned as it is. -/
theorem unaligned_start_is_returned :
    CronSchedule.parse "* * * * *" = .ok everyMinuteCron ∧
      everyMinuteCron.firstSlotAtOrAfter gregorian 30000 = .ok 30000 ∧ ¬ minuteMs ∣ 30000 := by
  refine ⟨parse_everyMinute, ?_, by decide⟩
  rw [CronSchedule.firstSlotAtOrAfter, CronSchedule.scan_eq_ok]
  exact ⟨0, by decide, rfl, matches_everyMinuteCron (by decide), by simp⟩

end KelvinClaw.Scheduler
