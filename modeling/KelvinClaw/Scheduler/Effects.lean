import KelvinClaw.Scheduler.Claiming

/-!
# What the mutators do to the store

A call run alone either leaves the file as it was and says so, or saves one of four
effects: a schedule added, a schedule removed, slots claimed, a slot marked. Every
invariant of the store is a case analysis over these effects.
-/

namespace KelvinClaw.Scheduler

open KelvinClaw.Core Systems Systems.ReadModifyWrite

variable {calendar : UtcCalendar}

/-! ### Claims -/

section Claims

variable {state : SchedulerState} {nowMs maxPerSchedule : ℕ}

theorem exists_claimDueSlots (nowMs maxPerSchedule : ℕ)
    (wellFormed : WellFormed calendar state.schedules) :
    (∃ change, claimDueSlots calendar nowMs maxPerSchedule state = .ok change) ↔
      ∀ task ∈ state.schedules, task.HasSuccessors calendar nowMs (max maxPerSchedule 1) := by
  have loops : _ ↔ _ := @exists_claimSchedules calendar nowMs ⟨state.slots, state.audit, []⟩
    state.schedules maxPerSchedule wellFormed.pointers
  rw [← loops]
  simp only [claimDueSlots, bind_eq_ok, pure_eq_ok]
  constructor
  · rintro ⟨_, result, ran, _⟩
    exact ⟨result, ran⟩
  · rintro ⟨result, ran⟩
    exact ⟨_, result, ran, rfl⟩

theorem saved_of_claimDueSlots {saved : Option SchedulerState} {claimed : List ClaimedScheduleSlot}
    (ran : claimDueSlots calendar nowMs maxPerSchedule state = .ok (saved, claimed)) :
    saved = none ↔ claimed = [] := by
  simp only [claimDueSlots, bind_eq_ok, pure_eq_ok] at ran
  obtain ⟨⟨schedules, claims⟩, _, result⟩ := ran
  split_ifs at result with none
  · cases result
    simp
  · cases result
    simp [none]

/-- A claim returns the fresh slots of every schedule. When there are any it saves their
records and the moved pointers, otherwise nothing. -/
theorem claimDueSlots_spec (wellFormed : WellFormed calendar state.schedules)
    {saved : Option SchedulerState} {claimed : List ClaimedScheduleSlot}
    (ran : claimDueSlots calendar nowMs maxPerSchedule state = .ok (saved, claimed)) :
    claimed = claimedSlots calendar state.slots nowMs maxPerSchedule state.schedules ∧
      ∀ next, saved = some next →
        AdvancedAll calendar nowMs (max maxPerSchedule 1) state.schedules next.schedules ∧
        next.slots = state.slots ++
          claimed.map fun claimed => claimed.schedule.claimRecord nowMs claimed.slotAtMs := by
  simp only [claimDueSlots, bind_eq_ok, pure_eq_ok] at ran
  obtain ⟨⟨schedules, claims⟩, loops, result⟩ := ran
  obtain ⟨advanced, claims_claimed, claims_slots⟩ := claimSchedules_spec wellFormed loops
  rw [List.nil_append] at claims_claimed
  by_cases none : claims.claimed = []
  · rw [if_pos none] at result
    obtain ⟨rfl, rfl⟩ := Prod.mk.injEq .. ▸ result
    exact ⟨none ▸ claims_claimed, by simp⟩
  · rw [if_neg none] at result
    obtain ⟨rfl, rfl⟩ := Prod.mk.injEq .. ▸ result
    refine ⟨claims_claimed, ?_⟩
    rintro _ ⟨⟩
    exact ⟨advanced, claims_claimed ▸ claims_slots⟩

end Claims

/-! ### Effects -/

/-- What a call that saves does to the tables, before the save sorts and cuts them, and
what it replies. -/
inductive Effect (calendar : UtcCalendar) (call : Call) (file next : SchedulerState) :
    Reply → Prop
  | added {new : NewScheduledTask} {task : ScheduledTask} (asked : call.mutator = .addSchedule new)
      (accepted : new.intoTask calendar call.nowMs = .ok task)
      (fresh : ∀ other ∈ file.schedules, other.id ≠ task.id)
      (schedules : next.schedules = file.schedules ++ [task])
      (slots : next.slots = file.slots) : Effect calendar call file next (.task (.ok task))
  | removed {id actorSessionId approvalReason : String}
      (asked : call.mutator = .removeSchedule id actorSessionId approvalReason)
      (schedules : next.schedules = file.schedules.filter (·.id ≠ id))
      (slots : next.slots = file.slots) : Effect calendar call file next (.removed (.ok true))
  | claimed {nowMs maxPerSchedule : ℕ} {claimed : List ClaimedScheduleSlot}
      (asked : call.mutator = .claimDueSlots nowMs maxPerSchedule)
      (ran : claimDueSlots calendar nowMs maxPerSchedule file = .ok (some next, claimed)) :
      Effect calendar call file next (.claimed (.ok claimed))
  | marked (schedules : next.schedules = file.schedules)
      (slots : next.slots.map (fun slot => (slot.scheduleId, slot.slotAtMs)) =
        file.slots.map fun slot => (slot.scheduleId, slot.slotAtMs)) :
      Effect calendar call file next (.updated (.ok ()))

def Reply.Quiet : Reply → Prop
  | .task (.ok _) => False
  | .removed (.ok found) => found = false
  | .claimed (.ok slots) => slots = []
  | .updated (.ok ()) => False
  | .task (.error _) | .removed (.error _) | .claimed (.error _) | .updated (.error _) => True

theorem updateFirst_keys {scheduleId : String} {slotAtMs : ℕ}
    {mutate : ScheduleSlotRecord → ScheduleSlotRecord × ScheduleAuditEntry}
    (sameKey : ∀ slot, (mutate slot).1.scheduleId = slot.scheduleId ∧
      (mutate slot).1.slotAtMs = slot.slotAtMs)
    {slots changed : List ScheduleSlotRecord} {entry : ScheduleAuditEntry}
    (found : updateFirst scheduleId slotAtMs mutate slots = some (changed, entry)) :
    changed.map (fun slot => (slot.scheduleId, slot.slotAtMs)) =
      slots.map fun slot => (slot.scheduleId, slot.slotAtMs) := by
  induction slots generalizing changed with
  | nil => cases found
  | cons slot rest ih =>
    rw [updateFirst] at found
    split at found
    · obtain ⟨rfl, rfl⟩ := Prod.mk.injEq .. ▸ Option.some.inj found
      simp [sameKey slot]
    · obtain ⟨⟨others, _⟩, later, same⟩ := Option.map_eq_some_iff.mp found
      obtain ⟨rfl, rfl⟩ := Prod.mk.injEq .. ▸ same
      simp [ih later]

theorem updateSlot_spec {scheduleId : String} {slotAtMs : ℕ}
    {mutate : ScheduleSlotRecord → ScheduleSlotRecord × ScheduleAuditEntry}
    (sameKey : ∀ slot, (mutate slot).1.scheduleId = slot.scheduleId ∧
      (mutate slot).1.slotAtMs = slot.slotAtMs)
    {file : SchedulerState} {saved : Option SchedulerState}
    (updated : updateSlot scheduleId slotAtMs mutate file = .ok (saved, ())) :
    ∃ next, saved = some next ∧ next.schedules = file.schedules ∧
      next.slots.map (fun slot => (slot.scheduleId, slot.slotAtMs)) =
        file.slots.map fun slot => (slot.scheduleId, slot.slotAtMs) := by
  unfold updateSlot at updated
  split at updated
  · cases updated
  · rename_i slots entry found
    obtain ⟨rfl, -⟩ := Prod.mk.injEq .. ▸ Except.ok.inj updated
    exact ⟨_, rfl, rfl, updateFirst_keys sameKey found⟩

section Alone

variable {call : Call} {file : SchedulerState} {stored : Bool}

/-- A call run alone has one of the effects, or it changes nothing and says so. -/
inductive Outcome (calendar : UtcCalendar) (call : Call) (file : SchedulerState) :
    Reply × SchedulerState → Prop
  | saved {next : SchedulerState} {reply : Reply} (effect : Effect calendar call file next reply) :
      Outcome calendar call file (reply, saveState next)
  | unchanged {reply : Reply} (quiet : reply.Quiet) : Outcome calendar call file (reply, file)

theorem withStateMut_eq_ok {α : Type} {writer : SchedulerState → KelvinResult (Change α)}
    {change : Change α} (changed : withStateMut call file writer = .ok change) :
    writer file = .ok change := by
  simp only [withStateMut, bind_eq_ok, loadState] at changed
  obtain ⟨loaded, reads, changed⟩ := changed
  split at reads
  · exact Except.ok.inj reads ▸ changed
  · cases reads

theorem outcome_of_prepare {α : Type} {saveError : String} {reply : KelvinResult α → Reply}
    {change : KelvinResult (Change α)}
    (loads : (store calendar).load call file = prepare saveError reply change)
    (errors : ∀ e, (reply (.error e)).Quiet)
    (same : ∀ value, change = .ok (none, value) → (reply (.ok value)).Quiet)
    (effect : ∀ next value, change = .ok (some next, value) →
      Effect calendar call file next (reply (.ok value))) :
    Outcome calendar call file ((store calendar).alone call stored file) := by
  rw [Protocol.alone, loads]
  rcases change with e | ⟨_ | next, value⟩
  · exact .unchanged (errors e)
  · exact .unchanged (same value rfl)
  · cases stored with
    | true => exact .saved (effect next value rfl)
    | false => exact .unchanged (errors _)

theorem outcome_of_mark {saveError : String} {scheduleId : String} {slotAtMs : ℕ}
    {mutate : ScheduleSlotRecord → ScheduleSlotRecord × ScheduleAuditEntry}
    (loads : (store calendar).load call file = prepare saveError .updated
      (withStateMut call file (updateSlot scheduleId slotAtMs mutate)))
    (sameKey : ∀ slot, (mutate slot).1.scheduleId = slot.scheduleId ∧
      (mutate slot).1.slotAtMs = slot.slotAtMs) :
    Outcome calendar call file ((store calendar).alone call stored file) := by
  refine outcome_of_prepare loads (fun _ => trivial) (fun _ changed => ?_)
    (fun next _ changed => ?_)
  · obtain ⟨_, found, _⟩ := updateSlot_spec sameKey (withStateMut_eq_ok changed)
    cases found
  · obtain ⟨_, ⟨⟩, schedules, slots⟩ := updateSlot_spec sameKey (withStateMut_eq_ok changed)
    exact .marked schedules slots

/-- **Effects of the store.** A call run alone saves one of the effects, or leaves the
file as it was and announces no change. -/
theorem alone_outcome (calendar : UtcCalendar) (call : Call) (stored : Bool)
    (file : SchedulerState) :
    Outcome calendar call file ((store calendar).alone call stored file) := by
  obtain ⟨mutator, nowMs, auditMs, readError, saveError⟩ := call
  cases mutator with
  | addSchedule new =>
    refine outcome_of_prepare (load_addSchedule _ _ _ rfl) (fun _ => trivial)
      (fun task changed => ?_) (fun next task changed => ?_)
    · obtain ⟨accepted, _, changed⟩ := bind_eq_ok.mp changed
      obtain ⟨_, _, same⟩ := bind_eq_ok.mp (withStateMut_eq_ok changed)
      cases same
    · obtain ⟨accepted, isTask, changed⟩ := bind_eq_ok.mp changed
      obtain ⟨_, free, same⟩ := bind_eq_ok.mp (withStateMut_eq_ok changed)
      rw [refuseIf_eq_ok] at free
      cases same
      exact .added rfl isTask (by simpa using free) rfl rfl
  | removeSchedule id actorSessionId approvalReason =>
    refine outcome_of_prepare rfl (fun _ => trivial) (fun found changed => ?_)
      (fun next found changed => ?_)
    · have changed := withStateMut_eq_ok changed
      simp only [removeSchedule] at changed
      split at changed
      · cases changed
        rfl
      · cases changed
    · have changed := withStateMut_eq_ok changed
      simp only [removeSchedule] at changed
      split at changed
      · cases changed
      · cases changed
        exact .removed rfl rfl rfl
  | claimDueSlots nowMs maxPerSchedule =>
    refine outcome_of_prepare rfl (fun _ => trivial) (fun claimed changed => ?_)
      (fun next claimed changed => ?_)
    · exact (saved_of_claimDueSlots (withStateMut_eq_ok changed)).mp rfl
    · exact .claimed rfl (withStateMut_eq_ok changed)
  | markSlotSubmitted | markSlotSubmitFailed | markSlotOutcome | markReplyResult =>
    exact outcome_of_mark rfl fun _ => ⟨rfl, rfl⟩

theorem alone_claim {nowMs maxPerSchedule : ℕ} (atMs : ℕ) {next : SchedulerState}
    {claimed : List ClaimedScheduleSlot}
    (ran : claimDueSlots calendar nowMs maxPerSchedule file = .ok (some next, claimed)) :
    (store calendar).alone ((Mutator.claimDueSlots nowMs maxPerSchedule).at atMs) true file =
      (.claimed (.ok claimed), saveState next) := by
  have loads : (store calendar).load ((Mutator.claimDueSlots nowMs maxPerSchedule).at atMs) file =
      prepare "save" .claimed (claimDueSlots calendar nowMs maxPerSchedule file) := rfl
  rw [Protocol.alone, loads, ran]
  rfl

theorem alone_add {new : NewScheduledTask} {task : ScheduledTask} (atMs : ℕ)
    (accepted : new.intoTask calendar atMs = .ok task)
    (fresh : ∀ other ∈ file.schedules, other.id ≠ task.id) :
    (store calendar).alone ((Mutator.addSchedule new).at atMs) true file =
      (.task (.ok task), saveState { file with
        schedules := file.schedules ++ [task]
        audit := file.audit ++ [task.addAudit atMs] }) := by
  have free : ¬ file.schedules.any (·.id = task.id) := by simpa using fresh
  have added : addSchedule task atMs file = .ok (some { file with
      schedules := file.schedules ++ [task]
      audit := file.audit ++ [task.addAudit atMs] }, task) := by
    rw [addSchedule, refuseIf, if_neg free]
    rfl
  have loads := load_addSchedule calendar ((Mutator.addSchedule new).at atMs) file rfl
  simp only [Mutator.at, accepted, withStateMut, loadState, bind, Except.bind, added] at loads
  rw [Protocol.alone, Mutator.at, loads]
  rfl

end Alone

/-! ### The invariant of the file -/

section Invariant

variable {call : Call} {file next : SchedulerState} {reply : Reply}

theorem WellFormed.advanced {schedules advanced : List ScheduledTask} {nowMs left : ℕ}
    (wellFormed : WellFormed calendar schedules)
    (moved : AdvancedAll calendar nowMs left schedules advanced) :
    WellFormed calendar advanced := by
  refine ⟨moved.ids ▸ wellFormed.uniqueIds, fun later member => ?_⟩
  obtain ⟨_, _, step⟩ := moved.exists_earlier member
  exact step.wellFormed

theorem WellFormed.effect (wellFormed : WellFormed calendar file.schedules)
    (effect : Effect calendar call file next reply) : WellFormed calendar next.schedules := by
  cases effect with
  | @added new task _ accepted fresh schedules =>
    obtain ⟨_, cron, parsed, found⟩ := NewScheduledTask.of_intoTask_eq_ok accepted
    have pointer : task.WellFormed calendar :=
      ⟨cron, parsed, (CronSchedule.aligned_of_firstSlotAtOrAfter (minuteSlot_mod _) found).2⟩
    rw [schedules]
    constructor
    · rw [List.map_append, List.nodup_append]
      refine ⟨wellFormed.uniqueIds, by simp, ?_⟩
      rintro _ old _ new rfl
      obtain ⟨other, member, rfl⟩ := List.mem_map.mp old
      exact fresh other member (by simpa using new)
    · rw [List.forall_mem_append]
      exact ⟨wellFormed.pointers, by simpa using pointer⟩
  | removed _ schedules =>
    rw [schedules]
    exact ⟨wellFormed.uniqueIds.sublist (List.filter_sublist.map _),
      fun task member => wellFormed.pointers task (List.mem_of_mem_filter member)⟩
  | claimed _ ran =>
    obtain ⟨_, saves⟩ := claimDueSlots_spec wellFormed ran
    exact wellFormed.advanced (saves _ rfl).1
  | marked schedules => exact schedules ▸ wellFormed

theorem WellFormed.saveState (wellFormed : WellFormed calendar next.schedules) :
    WellFormed calendar (saveState next).schedules := by
  have perm := schedules_saveState_perm next
  exact ⟨(perm.map _).nodup_iff.mpr wellFormed.uniqueIds,
    fun task member => wellFormed.pointers task (perm.mem_iff.mp member)⟩

theorem wellFormed_default : WellFormed calendar SchedulerState.default.schedules :=
  ⟨List.nodup_nil, by simp [SchedulerState.default]⟩

theorem wellFormed_alone (call : Call) (stored : Bool)
    (wellFormed : WellFormed calendar file.schedules) :
    WellFormed calendar ((store calendar).alone call stored file).2.schedules := by
  have outcome := alone_outcome calendar call stored file
  generalize (store calendar).alone call stored file = result at outcome
  cases outcome with
  | saved effect => exact (wellFormed.effect effect).saveState
  | unchanged _ => exact wellFormed

theorem Effect.recorded (effect : Effect calendar call file next reply)
    (wellFormed : WellFormed calendar file.schedules) {scheduleId : String} {slotMs : ℕ}
    (known : Recorded file.slots scheduleId slotMs) : Recorded next.slots scheduleId slotMs := by
  cases effect with
  | added _ _ _ _ slots | removed _ _ slots => exact slots ▸ known
  | claimed _ ran =>
    obtain ⟨_, saves⟩ := claimDueSlots_spec wellFormed ran
    exact (saves _ rfl).2 ▸ recorded_append.mpr (.inl known)
  | marked _ slots => rwa [recorded_iff_keys, slots, ← recorded_iff_keys]

theorem Effect.recorded_claimed {slots : List ClaimedScheduleSlot}
    (effect : Effect calendar call file next (.claimed (.ok slots)))
    (wellFormed : WellFormed calendar file.schedules) {slot : ClaimedScheduleSlot}
    (member : slot ∈ slots) : Recorded next.slots slot.schedule.id slot.slotAtMs := by
  cases effect with
  | claimed _ ran =>
    obtain ⟨_, saves⟩ := claimDueSlots_spec wellFormed ran
    rw [(saves _ rfl).2]
    exact recorded_append.mpr (.inr ⟨_, List.mem_map_of_mem member, rfl, rfl⟩)

theorem WellFormed.replays {start : SchedulerState} {log : List (Finished Call Reply)}
    (wellFormed : WellFormed calendar start.schedules)
    (replays : (store calendar).Replays start log file) : WellFormed calendar file.schedules :=
  replays.preserves (fun file => WellFormed calendar file.schedules)
    (fun _ _ _ _ => wellFormed_alone _ _) wellFormed

/-- The states the file goes through in interleaved runs of any number of clients. -/
def StoreState (calendar : UtcCalendar) (file : SchedulerState) : Prop :=
  ∃ s, (storeSystem calendar).Reachable s ∧ s.cell = file

theorem StoreState.of_calls (calendar : UtcCalendar) (calls : List (Call × Bool)) :
    StoreState calendar ((store calendar).serialState .default
      ((store calendar).serialLog .default calls)) :=
  exists_serial_run 0 calls

/-- **The file is well formed** in every interleaving: ids are unique, every stored
expression parses and every pointer stands at an accepted minute. -/
theorem StoreState.wellFormed (reached : StoreState calendar file) :
    WellFormed calendar file.schedules := by
  obtain ⟨s, run, rfl⟩ := reached
  exact cell_invariant (fun file => WellFormed calendar file.schedules) wellFormed_default
    (fun call stored _ => wellFormed_alone call stored) run

end Invariant

end KelvinClaw.Scheduler
