import KelvinClaw.Scheduler.Store

/-!
# What a claim does

The claim loops in terms of due slots. From a store whose pointers stand at accepted
minutes, the inner loop takes the first due slots of a schedule: it claims those
without a record, passes over the others, and leaves the pointer at the next accepted
minute. It fails when one of the slots it takes has no successor in the search window.
-/

namespace KelvinClaw.Scheduler

open KelvinClaw.Core

variable (calendar : UtcCalendar)

/-! ### Due slots of a stored schedule -/

/-- The due slots of a stored schedule: none when its expression does not parse. -/
def ScheduledTask.dueSlots (task : ScheduledTask) (cutoff : ℕ) : List ℕ :=
  match CronSchedule.parse task.cron with
  | .ok cron => cron.dueSlots calendar task.nextSlotAtMs cutoff
  | .error _ => []

/-- The slots of a schedule that a claim takes: those without a record among the first
due ones. -/
def ScheduledTask.freshSlots (slots : List ScheduleSlotRecord) (nowMs left : ℕ)
    (task : ScheduledTask) : List ℕ :=
  ((task.dueSlots calendar (minuteSlot nowMs)).take left).filter
    fun slotMs => ¬ Recorded slots task.id slotMs

def unclaimed (file : SchedulerState) (nowMs : ℕ) (task : ScheduledTask) : List ℕ :=
  (task.dueSlots calendar (minuteSlot nowMs)).filter fun slotMs =>
    ¬ Recorded file.slots task.id slotMs

/-- The search finds a successor for each of the first due slots. -/
def ScheduledTask.HasSuccessors (nowMs left : ℕ) (task : ScheduledTask) : Prop :=
  ∀ cron, CronSchedule.parse task.cron = .ok cron →
    ∀ slotMs ∈ (cron.dueSlots calendar task.nextSlotAtMs (minuteSlot nowMs)).take left,
      cron.HasSuccessor calendar slotMs

/-- The expression of a schedule parses and its pointer stands at an accepted minute. -/
def ScheduledTask.WellFormed (task : ScheduledTask) : Prop :=
  ∃ cron, CronSchedule.parse task.cron = .ok cron ∧ cron.Aligned calendar task.nextSlotAtMs

/-- The schedules of a store: ids are unique and every schedule is well formed. -/
structure WellFormed (schedules : List ScheduledTask) : Prop where
  uniqueIds : (schedules.map (·.id)).Nodup
  pointers : ∀ task ∈ schedules, task.WellFormed calendar

theorem WellFormed.eq_of_id {calendar : UtcCalendar} {schedules : List ScheduledTask}
    (wellFormed : WellFormed calendar schedules) {task other : ScheduledTask}
    (member : task ∈ schedules) (member' : other ∈ schedules) (same : task.id = other.id) :
    task = other :=
  List.inj_on_of_nodup_map wellFormed.uniqueIds member member' same

/-- A schedule with its pointer moved over its first due slots. -/
structure ScheduledTask.Advanced (nowMs left : ℕ) (task advanced : ScheduledTask) : Prop where
  /-- Only the pointer moves. -/
  same : advanced = task.pointAt advanced.nextSlotAtMs
  forward : task.nextSlotAtMs ≤ advanced.nextSlotAtMs
  wellFormed : advanced.WellFormed calendar
  remaining : advanced.dueSlots calendar (minuteSlot nowMs) =
    (task.dueSlots calendar (minuteSlot nowMs)).drop left

abbrev AdvancedAll (nowMs left : ℕ) (schedules advanced : List ScheduledTask) : Prop :=
  List.Forall₂ (ScheduledTask.Advanced calendar nowMs left) schedules advanced

def Claims.claimAll (claims : Claims) (nowMs : ℕ) (schedule : ScheduledTask)
    (slotsMs : List ℕ) : Claims where
  slots := claims.slots ++ slotsMs.map (schedule.claimRecord nowMs)
  audit := claims.audit ++ slotsMs.map (schedule.claimAudit nowMs)
  claimed := claims.claimed ++
    slotsMs.map fun slotMs => ⟨schedule.pointAt slotMs, slotMs⟩

variable {calendar} {cron : CronSchedule} {nowMs left : ℕ} {task advanced : ScheduledTask}
  {claims after : Claims}

theorem ScheduledTask.dueSlots_eq (parsed : CronSchedule.parse task.cron = .ok cron) (cutoff : ℕ) :
    task.dueSlots calendar cutoff = cron.dueSlots calendar task.nextSlotAtMs cutoff := by
  simp [dueSlots, parsed]

theorem ScheduledTask.mem_dueSlots {cutoff slotMs : ℕ} :
    slotMs ∈ task.dueSlots calendar cutoff ↔
      ∃ cron, CronSchedule.parse task.cron = .ok cron ∧ task.nextSlotAtMs ≤ slotMs ∧
        slotMs ≤ cutoff ∧ minuteMs ∣ slotMs - task.nextSlotAtMs ∧ cron.Matches calendar slotMs := by
  cases parsed : CronSchedule.parse task.cron with
  | error e => simp [dueSlots, parsed]
  | ok cron => simp [dueSlots, parsed, CronSchedule.mem_dueSlots]

theorem ScheduledTask.mem_dueSlots_of_aligned (parsed : CronSchedule.parse task.cron = .ok cron)
    (aligned : cron.Aligned calendar task.nextSlotAtMs) {cutoff slotMs : ℕ} :
    slotMs ∈ task.dueSlots calendar cutoff ↔
      task.nextSlotAtMs ≤ slotMs ∧ slotMs ≤ cutoff ∧ cron.Aligned calendar slotMs := by
  rw [task.dueSlots_eq parsed, CronSchedule.mem_dueSlots]
  refine and_congr_right fun after => and_congr_right fun _ => and_congr_left fun _ => ?_
  have start := aligned.1
  simp only [minuteMs] at *
  omega

theorem ScheduledTask.pairwise_dueSlots (calendar : UtcCalendar) (task : ScheduledTask)
    (cutoff : ℕ) : (task.dueSlots calendar cutoff).Pairwise (· < ·) := by
  unfold dueSlots
  split
  · exact CronSchedule.pairwise_dueSlots
  · exact .nil

theorem recorded_iff_keys {slots : List ScheduleSlotRecord} {scheduleId : String} {slotMs : ℕ} :
    Recorded slots scheduleId slotMs ↔
      (scheduleId, slotMs) ∈ slots.map fun slot => (slot.scheduleId, slot.slotAtMs) := by
  simp [Recorded]

theorem recorded_append {slots more : List ScheduleSlotRecord} {scheduleId : String}
    {slotMs : ℕ} : Recorded (slots ++ more) scheduleId slotMs ↔
      Recorded slots scheduleId slotMs ∨ Recorded more scheduleId slotMs := by
  simp only [Recorded, List.mem_append, or_and_right, exists_or]

theorem recorded_claimAll {slotsMs : List ℕ} {scheduleId : String} {slotMs : ℕ} :
    Recorded (claims.claimAll nowMs task slotsMs).slots scheduleId slotMs ↔
      Recorded claims.slots scheduleId slotMs ∨ (task.id = scheduleId ∧ slotMs ∈ slotsMs) := by
  simp only [Claims.claimAll, recorded_append]
  refine or_congr_right ?_
  simp only [Recorded, List.mem_map]
  constructor
  · rintro ⟨_, ⟨claimedMs, member, rfl⟩, rfl, rfl⟩
    exact ⟨rfl, member⟩
  · rintro ⟨rfl, member⟩
    exact ⟨_, ⟨slotMs, member, rfl⟩, rfl, rfl⟩

theorem ScheduledTask.pairwise_freshSlots (slots : List ScheduleSlotRecord) :
    (task.freshSlots calendar slots nowMs left).Pairwise (· < ·) :=
  ((task.pairwise_dueSlots _ _).sublist (List.take_sublist _ _)).filter _

theorem ScheduledTask.Advanced.passes (moved : task.Advanced calendar nowMs left advanced)
    (wellFormed : task.WellFormed calendar) {slotMs : ℕ}
    (taken : slotMs ∈ (task.dueSlots calendar (minuteSlot nowMs)).take left) :
    slotMs < advanced.nextSlotAtMs := by
  obtain ⟨cron, parsed, aligned⟩ := wellFormed
  obtain ⟨cron', parsed', aligned'⟩ := moved.wellFormed
  obtain rfl : cron = cron' := by
    rw [moved.same, pointAt_cron, parsed] at parsed'
    exact Except.ok.inj parsed'
  by_contra behind
  obtain ⟨_, before, slotAligned⟩ :=
    (mem_dueSlots_of_aligned parsed aligned).mp (List.mem_of_mem_take taken)
  -- a slot from the new pointer on would be among the remaining ones
  have left : slotMs ∈ (task.dueSlots calendar (minuteSlot nowMs)).drop left := by
    rw [← moved.remaining, mem_dueSlots_of_aligned parsed' aligned']
    exact ⟨not_lt.mp behind, before, slotAligned⟩
  have increasing := task.pairwise_dueSlots calendar (minuteSlot nowMs)
  rw [← List.take_append_drop _ (task.dueSlots _ _)] at increasing
  exact lt_irrefl _ ((List.pairwise_append.mp increasing).2.2 _ taken _ left)

theorem AdvancedAll.exists_advanced {schedules moved : List ScheduledTask}
    (all : AdvancedAll calendar nowMs left schedules moved) {task : ScheduledTask}
    (member : task ∈ schedules) : ∃ later ∈ moved, task.Advanced calendar nowMs left later := by
  induction all with
  | nil => cases member
  | cons first _ ih =>
    rcases List.mem_cons.mp member with rfl | rest
    · exact ⟨_, List.mem_cons_self, first⟩
    · obtain ⟨later, found, advanced⟩ := ih rest
      exact ⟨later, List.mem_cons_of_mem _ found, advanced⟩

theorem AdvancedAll.exists_earlier {schedules moved : List ScheduledTask}
    (all : AdvancedAll calendar nowMs left schedules moved) {later : ScheduledTask}
    (member : later ∈ moved) : ∃ task ∈ schedules, task.Advanced calendar nowMs left later := by
  induction all with
  | nil => cases member
  | cons first _ ih =>
    rcases List.mem_cons.mp member with rfl | rest
    · exact ⟨_, List.mem_cons_self, first⟩
    · obtain ⟨task, found, advanced⟩ := ih rest
      exact ⟨task, List.mem_cons_of_mem _ found, advanced⟩

theorem AdvancedAll.ids {schedules moved : List ScheduledTask}
    (all : AdvancedAll calendar nowMs left schedules moved) :
    moved.map (·.id) = schedules.map (·.id) := by
  induction all with
  | nil => rfl
  | cons first _ ih => rw [List.map_cons, List.map_cons, ih, first.same, ScheduledTask.pointAt_id]

theorem claimAll_nil : claims.claimAll nowMs task [] = claims := by
  simp [Claims.claimAll]

theorem claimAll_append (early late : List ℕ) :
    (claims.claimAll nowMs task early).claimAll nowMs task late =
      claims.claimAll nowMs task (early ++ late) := by
  simp [Claims.claimAll]

theorem claimAll_pointAt (slotMs : ℕ) (slotsMs : List ℕ) :
    claims.claimAll nowMs (task.pointAt slotMs) slotsMs = claims.claimAll nowMs task slotsMs :=
  rfl

theorem claim_eq_claimAll : claims.claim nowMs task =
    claims.claimAll nowMs task [task.nextSlotAtMs] :=
  rfl

/-! ### The inner loop -/

theorem exists_claimLoop (aligned : cron.Aligned calendar task.nextSlotAtMs) :
    (∃ result, claimLoop calendar cron nowMs left task claims = .ok result) ↔
      ∀ slotMs ∈ (cron.dueSlots calendar task.nextSlotAtMs (minuteSlot nowMs)).take left,
        cron.HasSuccessor calendar slotMs := by
  induction left generalizing task claims with
  | zero => simp [claimLoop]
  | succ left ih =>
    rw [claimLoop]
    by_cases past : minuteSlot nowMs < task.nextSlotAtMs
    · simp [past, CronSchedule.dueSlots_of_lt past]
    · have due := not_lt.mp past
      have successor := CronSchedule.exists_nextSlotAfter aligned.2
      rw [if_neg past]
      cases found : cron.nextSlotAfter calendar task.nextSlotAtMs with
      | error e =>
        rw [CronSchedule.dueSlots_of_le due, if_pos aligned.2, List.take_succ_cons,
          List.forall_mem_cons, ← successor, found]
        simp [bind, Except.bind]
      | ok nextMs =>
        rw [CronSchedule.dueSlots_eq_cons aligned.2 due found, List.take_succ_cons,
          List.forall_mem_cons, ← successor, found]
        simpa [bind, Except.bind] using @ih (task.pointAt nextMs) _ (aligned.next found)

/-- The slots a claim takes of a schedule that stands at a due slot: this one, unless it
has a record, and the fresh slots from the next one on. -/
theorem freshSlots_succ {slots : List ScheduleSlotRecord} {nextMs : ℕ}
    (due : task.dueSlots calendar (minuteSlot nowMs) =
      task.nextSlotAtMs :: (task.pointAt nextMs).dueSlots calendar (minuteSlot nowMs)) :
    task.freshSlots calendar slots nowMs (left + 1) =
      (if Recorded slots task.id task.nextSlotAtMs then [] else [task.nextSlotAtMs]) ++
        (task.pointAt nextMs).freshSlots calendar slots nowMs left := by
  rw [ScheduledTask.freshSlots, due, List.take_succ_cons]
  by_cases known : Recorded slots task.id task.nextSlotAtMs
  · rw [if_pos known, List.filter_cons_of_neg (by simpa using known)]
    rfl
  · rw [if_neg known, List.filter_cons_of_pos (by simpa using known)]
    rfl

/-- Claiming the slot a schedule stands at does not change which later slots are fresh. -/
theorem freshSlots_claimAll {nextMs : ℕ} (ahead : task.nextSlotAtMs < nextMs) :
    (task.pointAt nextMs).freshSlots calendar
        (claims.claimAll nowMs task [task.nextSlotAtMs]).slots nowMs left =
      (task.pointAt nextMs).freshSlots calendar claims.slots nowMs left := by
  refine List.filter_congr fun slotMs taken => ?_
  obtain ⟨_, _, later, _⟩ := ScheduledTask.mem_dueSlots.mp (List.mem_of_mem_take taken)
  have other : slotMs ≠ task.nextSlotAtMs := (ahead.trans_le later).ne'
  rw [decide_eq_decide, recorded_claimAll]
  simp [other]

theorem claimLoop_spec (parsed : CronSchedule.parse task.cron = .ok cron)
    (aligned : cron.Aligned calendar task.nextSlotAtMs)
    (ran : claimLoop calendar cron nowMs left task claims = .ok (advanced, after)) :
    task.Advanced calendar nowMs left advanced ∧
      after = claims.claimAll nowMs task (task.freshSlots calendar claims.slots nowMs left) := by
  induction left generalizing task claims with
  | zero =>
    obtain ⟨rfl, rfl⟩ := Prod.mk.injEq .. ▸ Except.ok.inj ran
    exact ⟨⟨rfl, le_rfl, ⟨cron, parsed, aligned⟩, rfl⟩, claimAll_nil.symm⟩
  | succ left ih =>
    rw [claimLoop] at ran
    by_cases past : minuteSlot nowMs < task.nextSlotAtMs
    · rw [if_pos past] at ran
      obtain ⟨rfl, rfl⟩ := Prod.mk.injEq .. ▸ Except.ok.inj ran
      have none : task.dueSlots calendar (minuteSlot nowMs) = [] := by
        rw [task.dueSlots_eq parsed, CronSchedule.dueSlots_of_lt past]
      refine ⟨⟨rfl, le_rfl, ⟨cron, parsed, aligned⟩, by simp [none]⟩, ?_⟩
      simp [ScheduledTask.freshSlots, none, claimAll_nil]
    · rw [if_neg past, bind_eq_ok] at ran
      obtain ⟨nextMs, found, ran⟩ := ran
      obtain ⟨moved, rfl⟩ := ih (by simpa using parsed) (by simpa using aligned.next found) ran
      have ahead := (CronSchedule.matches_of_nextSlotAfter aligned.2 found).1
      have due : task.dueSlots calendar (minuteSlot nowMs) =
          task.nextSlotAtMs :: (task.pointAt nextMs).dueSlots calendar (minuteSlot nowMs) := by
        rw [task.dueSlots_eq parsed, ScheduledTask.dueSlots_eq (by simpa using parsed)]
        exact CronSchedule.dueSlots_eq_cons aligned.2 (not_lt.mp past) found
      refine ⟨⟨by simpa using moved.same, ahead.le.trans moved.forward, moved.wellFormed, ?_⟩, ?_⟩
      · rw [moved.remaining, due, List.drop_succ_cons]
      · rw [freshSlots_succ due, claim_eq_claimAll, claimAll_pointAt]
        split_ifs with known
        · rfl
        · rw [freshSlots_claimAll ahead, claimAll_append]

/-! ### The outer loop -/

section Loops

variable {schedules advancedAll : List ScheduledTask} {maxPerSchedule : ℕ}

theorem freshSlots_of_ne {other : ScheduledTask} {slotsMs : List ℕ}
    (distinct : task.id ≠ other.id) :
    other.freshSlots calendar (claims.claimAll nowMs task slotsMs).slots nowMs left =
      other.freshSlots calendar claims.slots nowMs left := by
  refine List.filter_congr fun slotMs _ => ?_
  rw [decide_eq_decide, recorded_claimAll]
  simp [distinct]

/-- The outer loop succeeds when the search never runs out for any schedule. -/
theorem exists_claimSchedules (wellFormed : ∀ task ∈ schedules, task.WellFormed calendar) :
    (∃ result, claimSchedules calendar nowMs maxPerSchedule schedules claims = .ok result) ↔
      ∀ task ∈ schedules, task.HasSuccessors calendar nowMs (max maxPerSchedule 1) := by
  induction schedules generalizing claims with
  | nil => simp [claimSchedules]
  | cons task rest ih =>
    obtain ⟨⟨cron, parsed, aligned⟩, others⟩ := List.forall_mem_cons.mp wellFormed
    have here : task.HasSuccessors calendar nowMs (max maxPerSchedule 1) ↔
        ∃ result,
          claimLoop calendar cron nowMs (max maxPerSchedule 1) task claims = .ok result := by
      rw [exists_claimLoop aligned, ScheduledTask.HasSuccessors]
      simp [parsed]
    rw [List.forall_mem_cons, here]
    constructor
    · rintro ⟨result, ran⟩
      simp only [claimSchedules, bind_eq_ok] at ran
      obtain ⟨_, parsed', first, ran, later, rest, _⟩ := ran
      obtain rfl := Except.ok.inj (parsed.symm.trans parsed')
      exact ⟨⟨first, ran⟩, (ih others).mp ⟨later, rest⟩⟩
    · rintro ⟨⟨first, ran⟩, rest⟩
      obtain ⟨later, rest⟩ := (@ih first.2 others).mpr rest
      exact ⟨_, by simp only [claimSchedules, parsed, ran, rest, bind, Except.bind]; rfl⟩

def claimedSlots (calendar : UtcCalendar) (slots : List ScheduleSlotRecord)
    (nowMs maxPerSchedule : ℕ) (schedules : List ScheduledTask) : List ClaimedScheduleSlot :=
  schedules.flatMap fun task =>
    (task.freshSlots calendar slots nowMs (max maxPerSchedule 1)).map fun slotMs =>
      ⟨task.pointAt slotMs, slotMs⟩

theorem mem_claimedSlots {slots : List ScheduleSlotRecord} {slot : ClaimedScheduleSlot} :
    slot ∈ claimedSlots calendar slots nowMs maxPerSchedule schedules ↔
      ∃ task ∈ schedules, ∃ slotMs ∈ task.freshSlots calendar slots nowMs (max maxPerSchedule 1),
        (⟨task.pointAt slotMs, slotMs⟩ : ClaimedScheduleSlot) = slot := by
  simp only [claimedSlots, List.mem_flatMap, List.mem_map]

theorem claimSchedules_spec (wellFormed : WellFormed calendar schedules)
    (ran : claimSchedules calendar nowMs maxPerSchedule schedules claims =
      .ok (advancedAll, after)) :
    AdvancedAll calendar nowMs (max maxPerSchedule 1) schedules advancedAll ∧
      after.claimed = claims.claimed ++
        claimedSlots calendar claims.slots nowMs maxPerSchedule schedules ∧
      after.slots = claims.slots ++
        (claimedSlots calendar claims.slots nowMs maxPerSchedule schedules).map
          fun claimed => claimed.schedule.claimRecord nowMs claimed.slotAtMs := by
  induction schedules generalizing claims advancedAll with
  | nil =>
    obtain ⟨rfl, rfl⟩ := Prod.mk.injEq .. ▸ Except.ok.inj ran
    simp [claimedSlots]
  | cons task rest ih =>
    obtain ⟨⟨cron, parsed, aligned⟩, others⟩ := List.forall_mem_cons.mp wellFormed.pointers
    obtain ⟨distinct, unique⟩ := List.nodup_cons.mp wellFormed.uniqueIds
    simp only [claimSchedules, bind_eq_ok, pure_eq_ok] at ran
    obtain ⟨_, parsed', ⟨first, middle⟩, loop, ⟨later, final⟩, loops, same⟩ := ran
    obtain rfl := Except.ok.inj (parsed.symm.trans parsed')
    obtain ⟨rfl, rfl⟩ := Prod.mk.injEq .. ▸ same
    obtain ⟨advanced, rfl⟩ := claimLoop_spec parsed aligned loop
    obtain ⟨rest_advanced, claimed, slots⟩ := ih ⟨unique, others⟩ loops
    have independent : claimedSlots calendar
        (claims.claimAll nowMs task
          (task.freshSlots calendar claims.slots nowMs (max maxPerSchedule 1))).slots
        nowMs maxPerSchedule rest =
          claimedSlots calendar claims.slots nowMs maxPerSchedule rest := by
      refine List.flatMap_congr fun other member => ?_
      have apart : task.id ≠ other.id := fun same =>
        distinct (List.mem_map.mpr ⟨other, member, same.symm⟩)
      rw [freshSlots_of_ne apart]
    rw [independent] at claimed slots
    refine ⟨.cons advanced rest_advanced, ?_, ?_⟩
    · rw [claimed, claimedSlots, claimedSlots, List.flatMap_cons, Claims.claimAll,
        List.append_assoc]
    · rw [slots, claimedSlots, claimedSlots, List.flatMap_cons, Claims.claimAll, List.map_append,
        List.map_map, List.append_assoc]
      rfl

end Loops

/-! ### Every minute -/

section EveryMinute

variable {schedules : List ScheduledTask} (everyMinute : task.cron = "* * * * *")
include everyMinute

theorem hasSuccessors_everyMinute (inRange : nowMs + minuteMs ≤ maxTimestampMillis) (left : ℕ) :
    task.HasSuccessors gregorian nowMs left := by
  intro cron parsed slotMs taken
  obtain rfl : everyMinuteCron = cron := by
    rw [everyMinute, parse_everyMinute] at parsed
    exact Except.ok.inj parsed
  have before := (CronSchedule.mem_dueSlots.mp (List.mem_of_mem_take taken)).2.1
  exact CronSchedule.hasSuccessor_everyMinuteCron
    ((Nat.add_le_add_right (before.trans (minuteSlot_le nowMs)) _).trans inRange)

theorem length_dueSlots_everyMinute {cutoff : ℕ} (inRange : cutoff ≤ maxTimestampMillis) :
    (task.dueSlots gregorian cutoff).length =
      (cutoff + minuteMs - task.nextSlotAtMs) / minuteMs := by
  rw [task.dueSlots_eq (everyMinute ▸ parse_everyMinute),
    CronSchedule.length_dueSlots_everyMinuteCron inRange]

end EveryMinute

end KelvinClaw.Scheduler
