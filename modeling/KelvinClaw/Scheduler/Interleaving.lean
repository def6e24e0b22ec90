import KelvinClaw.Scheduler.Effects

/-!
# Concurrent mutators of the scheduler store

The lock covers loading and changing the copy, not the save, so a save can overwrite
what another client saved in between. A run is *calm* when every save finds the file
its call loaded, and a claim finds room for its records in the slot table; calm runs
lose no update.
-/

namespace KelvinClaw.Scheduler

open KelvinClaw.Core Systems Systems.TransitionSystem Systems.ReadModifyWrite Protocol

variable (calendar : UtcCalendar)

def Removes (id : String) (done : Finished Call Reply) : Prop :=
  (∃ actorSessionId approvalReason,
      done.call.mutator = .removeSchedule id actorSessionId approvalReason) ∧
    done.reply = .removed (.ok true)

/-- No update is lost: some serial order of the finished calls leads to the file and
gives every call its reply; an added schedule that was not removed afterwards is there,
up to its pointer; and every claimed slot is recorded. -/
structure UpdatesKept (s : State ℕ SchedulerState Call Reply) : Prop where
  serial : ∃ order, order.Perm s.log ∧ (store calendar).Replays .default order s.cell
  schedules : ∀ before added after task, s.log = before ++ added :: after →
    added.reply = .task (.ok task) → (∀ later ∈ after, ¬ Removes task.id later) →
    ∃ kept ∈ s.cell.schedules, kept = task.pointAt kept.nextSlotAtMs
  slots : ∀ done ∈ s.log, ∀ claimed, done.reply = .claimed (.ok claimed) →
    ∀ slot ∈ claimed, Recorded s.cell.slots slot.schedule.id slot.slotAtMs

def addedRecords (call : Call) (file : SchedulerState) : ℕ :=
  match call.mutator with
  | .claimDueSlots nowMs maxPerSchedule =>
    (claimedSlots calendar file.slots nowMs maxPerSchedule file.schedules).length
  | _ => 0

def HasRoom (call : Call) (file : SchedulerState) : Prop :=
  file.slots.length + addedRecords calendar call file ≤ maxSlotEntries

/-- A save finds the file its call loaded, and a claim has room for its records. -/
def Calm (s : State ℕ SchedulerState Call Reply) (move : Move ℕ Call) : Prop :=
  Undisturbed s move ∧ ∀ call, Finishes s move call → HasRoom calendar call s.cell

instance (call : Call) (file : SchedulerState) : Decidable (HasRoom calendar call file) :=
  inferInstanceAs (Decidable (_ ≤ _))

instance (s : State ℕ SchedulerState Call Reply) (move : Move ℕ Call) :
    Decidable (Calm calendar s move) :=
  inferInstanceAs (Decidable (_ ∧ _))

variable {calendar} {file next : SchedulerState} {call : Call} {reply : Reply}

/-! ### Schedules stay until removed -/

/-- A schedule with the id, the expression and all other fields of a task. -/
def Holds (task : ScheduledTask) (file : SchedulerState) : Prop :=
  ∃ kept ∈ file.schedules, kept = task.pointAt kept.nextSlotAtMs

theorem Holds.effect {task : ScheduledTask} (holds : Holds task file)
    (wellFormed : WellFormed calendar file.schedules)
    (effect : Effect calendar call file next reply)
    (stays : ¬ Removes task.id ⟨call, true, reply⟩) : Holds task next := by
  obtain ⟨kept, member, same⟩ := holds
  cases effect with
  | added _ _ _ schedules =>
    exact ⟨kept, schedules ▸ List.mem_append_left _ member, same⟩
  | @removed id _ _ asked schedules =>
    have other : kept.id ≠ id := by
      rintro rfl
      rw [same] at asked
      exact stays ⟨⟨_, _, asked⟩, rfl⟩
    exact ⟨kept, schedules ▸ List.mem_filter.mpr ⟨member, by simpa using other⟩, same⟩
  | claimed _ ran =>
    obtain ⟨_, saves⟩ := claimDueSlots_spec wellFormed ran
    obtain ⟨later, found, moved⟩ := (saves _ rfl).1.exists_advanced member
    exact ⟨later, found, by rw [moved.same, same]; rfl⟩
  | marked schedules => exact ⟨kept, schedules ▸ member, same⟩

theorem Holds.alone {task : ScheduledTask} {stored : Bool} (holds : Holds task file)
    (wellFormed : WellFormed calendar file.schedules)
    (stays : ¬ Removes task.id ⟨call, stored, ((store calendar).alone call stored file).1⟩) :
    Holds task ((store calendar).alone call stored file).2 := by
  have outcome := alone_outcome calendar call stored file
  generalize (store calendar).alone call stored file = result at outcome stays
  cases outcome with
  | saved effect =>
    obtain ⟨kept, member, same⟩ := holds.effect wellFormed effect stays
    exact ⟨kept, (mem_schedules_saveState _).mpr member, same⟩
  | unchanged _ => exact holds

/-! ### Records stay when there is room -/

/-- What happens to the slot table when a claim has room: it stays within its bound, no
record is lost, and what is claimed is recorded. -/
structure RecordsKept (file next : SchedulerState) (reply : Reply) : Prop where
  fits : next.slots.length ≤ maxSlotEntries
  kept : ∀ scheduleId slotMs, Recorded file.slots scheduleId slotMs →
    Recorded next.slots scheduleId slotMs
  claimed : ∀ slots, reply = .claimed (.ok slots) →
    ∀ slot ∈ slots, Recorded next.slots slot.schedule.id slot.slotAtMs

theorem recordsKept_of_effect (wellFormed : WellFormed calendar file.schedules)
    (fits : file.slots.length ≤ maxSlotEntries) (room : HasRoom calendar call file)
    (effect : Effect calendar call file next reply) : RecordsKept file next reply := by
  refine ⟨?_, fun _ _ => effect.recorded wellFormed, fun slots is slot member => ?_⟩
  · cases effect with
    | added _ _ _ _ slots | removed _ _ slots => exact slots ▸ fits
    | claimed asked ran =>
      obtain ⟨claimed, saves⟩ := claimDueSlots_spec wellFormed ran
      simp only [HasRoom, addedRecords, asked, ← claimed] at room
      simpa [(saves _ rfl).2] using room
    | marked _ slots => simpa using (congrArg List.length slots).trans_le (by simpa using fits)
  · subst is
    exact effect.recorded_claimed wellFormed member

theorem recordsKept_alone (stored : Bool) (wellFormed : WellFormed calendar file.schedules)
    (fits : file.slots.length ≤ maxSlotEntries) (room : HasRoom calendar call file) :
    RecordsKept file ((store calendar).alone call stored file).2
      ((store calendar).alone call stored file).1 := by
  have outcome := alone_outcome calendar call stored file
  generalize (store calendar).alone call stored file = result at outcome
  cases outcome with
  | saved effect =>
    obtain ⟨fits, kept, claimed⟩ := recordsKept_of_effect wellFormed fits room effect
    have same := recorded_saveState _ fits
    exact ⟨length_slots_saveState_le _, fun _ _ known => (same _ _).mpr (kept _ _ known),
      fun slots is slot member => (same _ _).mpr (claimed slots is slot member)⟩
  | unchanged quiet =>
    refine ⟨fits, fun _ _ => id, ?_⟩
    rintro slots rfl slot member
    rw [show slots = [] from quiet] at member
    cases member

/-! ### Calm runs -/

/-- A schedule added in a serial log is there unless a later call removed it. -/
theorem holds_of_replays {initial : SchedulerState} {log after : List (Finished Call Reply)}
    {added : Finished Call Reply} {task : ScheduledTask}
    (wellFormed : WellFormed calendar initial.schedules)
    (replays : (store calendar).Replays initial (log ++ added :: after) file)
    (replied : added.reply = .task (.ok task))
    (stays : ∀ later ∈ after, ¬ Removes task.id later) : Holds task file := by
  obtain ⟨mid, earlier, answered, later⟩ := replays_append.mp replays
  have wellFormedMid := wellFormed.replays earlier
  have outcome := alone_outcome calendar added.call added.stored mid
  have wellFormedNext := wellFormed_alone added.call added.stored wellFormedMid
  generalize (store calendar).alone added.call added.stored mid = result at *
  cases outcome with
  | @unchanged reply quiet =>
    obtain rfl : reply = .task (.ok task) := answered.symm.trans replied
    exact quiet.elim
  | @saved next reply effect =>
    obtain rfl : reply = .task (.ok task) := answered.symm.trans replied
    have here : Holds task (saveState next) := by
      cases effect with
      | added _ _ _ schedules =>
        exact ⟨task, (mem_schedules_saveState _).mpr (by simp [schedules]), rfl⟩
    refine (later.preserves
      (fun file => WellFormed calendar file.schedules ∧ Holds task file) ?_
      ⟨wellFormedNext, here⟩).2
    rintro done member cell answered ⟨wellFormed, holds⟩
    exact ⟨wellFormed_alone _ _ wellFormed, holds.alone wellFormed fun removes =>
      stays done member ⟨removes.1, answered.trans removes.2⟩⟩

/-- **Calm runs lose no update.** When every save finds the file its call loaded and
every claim has room for its records, some serial order of the finished calls explains
the file and the replies, added schedules stay until they are removed, and claimed slots
stay recorded. -/
theorem updatesKept_of_calm {s : State ℕ SchedulerState Call Reply}
    (reached : (storeSystem calendar).ReachableWhen (Calm calendar) s) :
    UpdatesKept calendar s := by
  have replays : (store calendar).Replays .default s.log s.cell :=
    replays_of_undisturbed (reached.mono fun _ _ calm => calm.1)
  refine ⟨⟨s.log, .refl _, replays⟩, ?_, ?_⟩
  · rintro before added after task split replied stays
    exact holds_of_replays wellFormed_default (split ▸ replays) replied stays
  · refine (undisturbed_induction (HasRoom calendar)
      (fun file log => WellFormed calendar file.schedules ∧ file.slots.length ≤ maxSlotEntries ∧
        ∀ done ∈ log, ∀ claimed, done.reply = .claimed (.ok claimed) →
          ∀ slot ∈ claimed, Recorded file.slots slot.schedule.id slot.slotAtMs)
      ⟨wellFormed_default, by decide, by simp⟩ ?_ reached).2.2
    rintro file log call stored room ⟨wellFormed, fits, recorded⟩
    obtain ⟨fitsNext, kept, claimedNow⟩ :=
      recordsKept_alone stored wellFormed fits room
    refine ⟨wellFormed_alone call stored wellFormed, fitsNext, fun done member => ?_⟩
    rcases List.mem_append.mp member with earlier | now
    · exact fun claimed replied slot mem =>
        kept _ _ (recorded done earlier claimed replied slot mem)
    · obtain rfl := List.mem_singleton.mp now
      exact claimedNow

def addThenClaim : List (Move ℕ Call) :=
  [.load 0 ((Mutator.addSchedule (everyMinute "a")).at 60000), .store 0 true,
    .load 1 ((Mutator.claimDueSlots 60000 1).at 60000), .store 1 true]

theorem addThenClaim_keeps_updates :
    ∃ s : State ℕ SchedulerState Call Reply, s.log.length = 2 ∧ s.cell.slots.length = 1 ∧
      UpdatesKept gregorian s := by
  have ran : ((storeSystem gregorian).run? (Calm gregorian) ⟨.default, fun _ => none, []⟩
      addThenClaim).map (fun s => (s.log.length, s.cell.slots.length)) = some (2, 1) := by
    decide +kernel
  obtain ⟨s, follows, lengths⟩ := Option.map_eq_some_iff.mp ran
  obtain ⟨log, slots⟩ := Prod.mk.injEq .. ▸ lengths
  exact ⟨s, log, slots, updatesKept_of_calm (reachableWhen_of_run? (.init rfl) follows)⟩

/-! ### Two adds that overlap -/

/-- Both clients load the empty file before either saves. -/
def overlappingAdds : List (Move ℕ Call) :=
  [.load 0 ((Mutator.addSchedule (everyMinute "a")).at 60000),
    .load 1 ((Mutator.addSchedule (everyMinute "b")).at 60000), .store 0 true, .store 1 true]

def overlappingLog : List (Finished Call Reply) :=
  ["a", "b"].map fun id =>
    ⟨(Mutator.addSchedule (everyMinute id)).at 60000, true, .task (.ok (everyMinuteTask id))⟩

theorem run_overlappingAdds :
    ∃ s, (storeSystem gregorian).run? (fun _ _ => True) ⟨.default, fun _ => none, []⟩
        overlappingAdds = some s ∧ (∀ client, s.pending client = none) ∧
      s.log = overlappingLog ∧ s.cell.schedules = [everyMinuteTask "b"] := by
  refine ⟨_, rfl, fun client => ?_, rfl, rfl⟩
  match client with
  | 0 => rfl
  | 1 => rfl
  | _ + 2 => rfl

/-- Two adds that overlap both return `Ok`, but the file holds one schedule, which no
serial order of the two calls leads to. -/
theorem overlapping_adds_lose_a_schedule :
    ¬ ∀ s, (storeSystem gregorian).Reachable s → (∀ client, s.pending client = none) →
      UpdatesKept gregorian s := by
  intro kept
  obtain ⟨s, follows, finished, log, schedules⟩ := run_overlappingAdds
  have reached : (storeSystem gregorian).Reachable s :=
    reachableWhen_of_run? (.init rfl) follows
  obtain ⟨order, perm, replays⟩ := (kept s reached finished).serial
  rw [log] at perm
  have member : ⟨(Mutator.addSchedule (everyMinute "a")).at 60000, true,
      .task (.ok (everyMinuteTask "a"))⟩ ∈ order :=
    perm.mem_iff.mpr (by simp [overlappingLog])
  obtain ⟨before, after, rfl⟩ := List.append_of_mem member
  obtain ⟨lost, found, same⟩ := holds_of_replays wellFormed_default replays rfl
    fun later mem removes => by
      have logged := perm.mem_iff.mp (List.mem_append_right _ (List.mem_cons_of_mem _ mem))
      obtain ⟨id, _, rfl⟩ := List.mem_map.mp logged
      simpa using removes.2
  obtain rfl : lost = everyMinuteTask "b" := by simpa [schedules] using found
  exact absurd (congrArg ScheduledTask.id same) (by decide)

end KelvinClaw.Scheduler
