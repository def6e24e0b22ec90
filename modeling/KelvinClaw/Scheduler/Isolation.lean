import KelvinClaw.Scheduler.Effects

/-!
# Schedules in one claim

A claim runs over all schedules and stops at the first error, so it succeeds only when
the search finds a successor for every slot it takes, of every schedule. A slot that has
a record uses up one of the slots a claim takes of its schedule.
-/

namespace KelvinClaw.Scheduler

open KelvinClaw.Core Systems.ReadModifyWrite Protocol Systems.Calendar

variable (calendar : UtcCalendar)

/-- A claim succeeds, and what it returns for each schedule are its first unclaimed due
slots, as many as a claim takes. -/
def ClaimsAllDue (file : SchedulerState) (nowMs maxPerSchedule : ℕ) : Prop :=
  ∃ saved claimed, claimDueSlots calendar nowMs maxPerSchedule file = .ok (saved, claimed) ∧
    ∀ task ∈ file.schedules,
      (claimed.filter (·.schedule.id = task.id)).map (·.slotAtMs) =
        (unclaimed calendar file nowMs task).take (max maxPerSchedule 1)

/-- For every schedule the search finds a successor of each of the first due slots, and
either none of them has a record or no unclaimed slot is due after them. -/
def Unobstructed (file : SchedulerState) (nowMs maxPerSchedule : ℕ) : Prop :=
  ∀ task ∈ file.schedules, task.HasSuccessors calendar nowMs (max maxPerSchedule 1) ∧
    ((∀ slotMs ∈ (task.dueSlots calendar (minuteSlot nowMs)).take (max maxPerSchedule 1),
        ¬ Recorded file.slots task.id slotMs) ∨
      ∀ slotMs ∈ (task.dueSlots calendar (minuteSlot nowMs)).drop (max maxPerSchedule 1),
        Recorded file.slots task.id slotMs)

/-- Filtering the first elements of a list gives the first ones that pass the filter
exactly when all the first ones pass, or no later one does. -/
theorem filter_take_eq_take_filter {α : Type*} (p : α → Bool) (l : List α) (k : ℕ) :
    (l.take k).filter p = (l.filter p).take k ↔
      (∀ x ∈ l.take k, p x) ∨ ∀ x ∈ l.drop k, ¬ p x := by
  have short : ((l.take k).filter p).length ≤ k :=
    (List.length_filter_le ..).trans (List.length_take_le ..)
  have parts : (l.filter p).take k = (l.take k).filter p ++
      ((l.drop k).filter p).take (k - ((l.take k).filter p).length) := by
    conv_lhs => rw [← List.take_append_drop k l, List.filter_append, List.take_append,
      List.take_of_length_le short]
  rw [parts, List.self_eq_append_right, List.take_eq_nil_iff, List.filter_eq_nil_iff]
  refine or_congr_left' fun someLater => ?_
  -- an element is left after the first ones, so there are as many as asked for
  have full : (l.take k).length = k := by
    rw [List.length_take, min_eq_left]
    by_contra few
    exact someLater fun x member => by simp [List.drop_of_length_le (not_le.mp few).le] at member
  rw [Nat.sub_eq_zero_iff_le]
  constructor
  · intro enough
    exact List.filter_eq_self.mp (List.filter_sublist.eq_of_length_le (full.trans_le enough))
  · intro all
    rw [List.filter_eq_self.mpr all, full]

variable {calendar} {file : SchedulerState} {nowMs maxPerSchedule : ℕ}

theorem claimed_of_task (wellFormed : WellFormed calendar file.schedules)
    {task : ScheduledTask} (member : task ∈ file.schedules) :
    ((claimedSlots calendar file.slots nowMs maxPerSchedule file.schedules).filter
        (·.schedule.id = task.id)).map (·.slotAtMs) =
      task.freshSlots calendar file.slots nowMs (max maxPerSchedule 1) := by
  obtain ⟨before, after, split⟩ := List.append_of_mem member
  have unique := wellFormed.uniqueIds
  rw [split, List.map_append, List.map_cons, List.nodup_middle, List.nodup_cons] at unique
  have apart : ∀ other ∈ before ++ after, task.id ≠ other.id := fun other mem same =>
    unique.1 (by rw [← List.map_append]; exact List.mem_map.mpr ⟨other, mem, same.symm⟩)
  have skip : ∀ others : List ScheduledTask, (∀ other ∈ others, task.id ≠ other.id) →
      (claimedSlots calendar file.slots nowMs maxPerSchedule others).filter
        (·.schedule.id = task.id) = [] := by
    intro others distinct
    rw [List.filter_eq_nil_iff]
    intro slot mem
    obtain ⟨other, found, _, _, rfl⟩ := mem_claimedSlots.mp mem
    rw [decide_eq_true_eq]
    exact (distinct other found).symm
  have here : claimedSlots calendar file.slots nowMs maxPerSchedule file.schedules =
      claimedSlots calendar file.slots nowMs maxPerSchedule before ++
        ((task.freshSlots calendar file.slots nowMs (max maxPerSchedule 1)).map fun slotMs =>
          ⟨task.pointAt slotMs, slotMs⟩) ++
        claimedSlots calendar file.slots nowMs maxPerSchedule after := by
    rw [split, claimedSlots, List.flatMap_append, List.flatMap_cons, List.append_assoc]
    rfl
  rw [here, List.filter_append, List.filter_append,
    skip before fun other mem => apart other (List.mem_append_left _ mem),
    skip after fun other mem => apart other (List.mem_append_right _ mem),
    List.filter_eq_self.mpr (by simp)]
  simp [Function.comp_def]

/-- **One schedule blocks the others exactly when a search runs out.** In every reachable
state a claim succeeds and takes the first unclaimed due slots of every schedule if and
only if every slot it takes has a successor in the search window, and no record uses up
a slot that an unclaimed one would need. -/
theorem claimsAllDue_iff (reached : StoreState calendar file) (nowMs maxPerSchedule : ℕ) :
    ClaimsAllDue calendar file nowMs maxPerSchedule ↔
      Unobstructed calendar file nowMs maxPerSchedule := by
  have wellFormed := reached.wellFormed
  have takes : ∀ task ∈ file.schedules,
      task.freshSlots calendar file.slots nowMs (max maxPerSchedule 1) =
        (unclaimed calendar file nowMs task).take (max maxPerSchedule 1) ↔
      ((∀ slotMs ∈ (task.dueSlots calendar (minuteSlot nowMs)).take (max maxPerSchedule 1),
          ¬ Recorded file.slots task.id slotMs) ∨
        ∀ slotMs ∈ (task.dueSlots calendar (minuteSlot nowMs)).drop (max maxPerSchedule 1),
          Recorded file.slots task.id slotMs) := by
    intro task _
    rw [ScheduledTask.freshSlots, unclaimed, filter_take_eq_take_filter]
    simp only [decide_eq_true_eq, not_not]
  constructor
  · rintro ⟨saved, claimed, ran, all⟩ task member
    refine ⟨(exists_claimDueSlots _ _ wellFormed).mp ⟨_, ran⟩ task member,
      (takes task member).mp ?_⟩
    rw [← all task member, (claimDueSlots_spec wellFormed ran).1, claimed_of_task wellFormed member]
  · intro free
    obtain ⟨⟨saved, claimed⟩, ran⟩ :=
      (exists_claimDueSlots _ _ wellFormed).mpr fun task member => (free task member).1
    refine ⟨saved, claimed, ran, fun task member => ?_⟩
    rw [(claimDueSlots_spec wellFormed ran).1, claimed_of_task wellFormed member]
    exact (takes task member).mpr (free task member).2

/-- A schedule that fires every minute is claimed. -/
theorem claimsAllDue_everyMinute :
    ∃ file, StoreState gregorian file ∧ file.schedules = [everyMinuteTask "a"] ∧
      ClaimsAllDue gregorian file 60000 1 := by
  have reached := StoreState.of_calls gregorian
    [((Mutator.addSchedule (everyMinute "a")).at 60000, true)]
  have schedules : ((store gregorian).serialState .default ((store gregorian).serialLog .default
      [((Mutator.addSchedule (everyMinute "a")).at 60000, true)])).schedules =
        [everyMinuteTask "a"] := by
    decide +kernel
  have slots : ((store gregorian).serialState .default ((store gregorian).serialLog .default
      [((Mutator.addSchedule (everyMinute "a")).at 60000, true)])).slots = [] := by
    decide +kernel
  refine ⟨_, reached, schedules, (claimsAllDue_iff reached 60000 1).mpr ?_⟩
  rw [Unobstructed, schedules, slots]
  simp only [List.mem_singleton, forall_eq]
  exact ⟨hasSuccessors_everyMinute rfl (by decide) _, .inl (by simp [Recorded])⟩

/-! ### The leap day -/

/-- The parsed expression for midnight on 29 February. -/
def leapDayCron : CronSchedule where
  raw := "0 0 29 2 *"
  minutes := markRange 0 1 60 0 fun _ => false
  hours := markRange 0 1 24 0 fun _ => false
  monthDays := markRange 29 1 32 29 fun _ => false
  months := markRange 2 1 13 2 fun _ => false
  weekDays := markRange 7 1 8 0 fun _ => false
  monthDaysWild := false
  weekDaysWild := true

theorem parse_leapDay : CronSchedule.parse "0 0 29 2 *" = .ok leapDayCron := rfl

theorem of_accepts_leapDayCron {time : CivilTime} (accepted : leapDayCron.accepts time = true) :
    time.minute.val = 0 ∧ time.hour.val = 0 ∧ time.month.val = 2 ∧ time.day.val = 29 := by
  rw [CronSchedule.accepts] at accepted
  split at accepted
  · cases accepted
  · rename_i flags
    simp only [Bool.or_eq_true, Bool.not_eq_true', not_or, Bool.not_eq_false] at flags
    obtain ⟨⟨minute, hour⟩, month⟩ := flags
    have minute := (markRange_apply (by decide) (by decide) (by decide) _ _).mp minute
    have hour := (markRange_apply (by decide) (by decide) (by decide) _ _).mp hour
    have month := (markRange_apply (by decide) (by decide) (by decide) _ _).mp month
    have day : leapDayCron.monthDays time.day = true := accepted
    have day := (markRange_apply (by decide) (by decide) (by decide) _ _).mp day
    simp only [Bool.false_eq_true, false_or] at minute hour month day
    omega

def leapDayMs : ℕ := 1835395200000

theorem no_leapDay_within_two_years : ∀ later < 730,
    ¬ ((civilMonth (21244 + later)).val = 2 ∧ (civilDay (21244 + later)).val = 29) := by
  decide +kernel

theorem leapDay_has_no_successor : ¬ leapDayCron.HasSuccessor gregorian leapDayMs := by
  rintro ⟨steps, few, matching, _⟩
  obtain ⟨minute, hour, month, day⟩ := of_accepts_leapDayCron (accepts_of_matches matching)
  simp only [civilTime, millisPerDay, millisPerMinute, minuteMs, leapDayMs] at minute hour month day
  simp only [maxCronScanMinutes] at few
  have days : (1835395200000 + (steps + 1) * 60000) / 86400000 = 21243 + (steps + 1) / 1440 := by
    omega
  rw [days] at month day
  -- midnight of a later day, so at least one whole day after the leap day
  have later : 1 ≤ (steps + 1) / 1440 := by omega
  obtain ⟨shift, rest⟩ := Nat.exists_eq_add_of_le later
  rw [rest, show 21243 + (1 + shift) = 21244 + shift by omega] at month day
  exact no_leapDay_within_two_years shift (by omega) ⟨month, day⟩

/-- A schedule that fires every minute, and one that fires on leap days, both added at
midnight of a leap day. -/
def leapDayCalls : List (Call × Bool) :=
  [{ everyMinute "a" with createdAtMs := leapDayMs },
    { everyMinute "leap" with cron := "0 0 29 2 *", createdAtMs := leapDayMs }].map
    fun new => ((Mutator.addSchedule new).at leapDayMs, true)

/-- On a leap day the accepted expression `0 0 29 2 *` makes every claim fail: the slot of
that day has no successor in the search window. -/
theorem leap_day_blocks_claims :
    ¬ ∀ file, StoreState gregorian file → ∀ nowMs maxPerSchedule,
      ClaimsAllDue gregorian file nowMs maxPerSchedule := by
  intro claims
  have reached := StoreState.of_calls gregorian leapDayCalls
  have schedules : ((store gregorian).serialState .default
      ((store gregorian).serialLog .default leapDayCalls)).schedules =
        [{ everyMinuteTask "a" with createdAtMs := leapDayMs, nextSlotAtMs := leapDayMs },
          { everyMinuteTask "leap" with
            cron := "0 0 29 2 *", createdAtMs := leapDayMs, nextSlotAtMs := leapDayMs }] := by
    decide +kernel
  obtain ⟨saved, claimed, ran, _⟩ := claims _ reached leapDayMs 1
  have successors := (exists_claimDueSlots _ _ reached.wellFormed).mp ⟨_, ran⟩
  rw [schedules] at successors
  exact leapDay_has_no_successor (successors _ (List.mem_cons_of_mem _ List.mem_cons_self)
    leapDayCron parse_leapDay leapDayMs (by decide +kernel))

end KelvinClaw.Scheduler
