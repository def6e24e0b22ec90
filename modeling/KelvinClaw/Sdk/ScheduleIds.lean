import KelvinClaw.Scheduler.Effects
import KelvinClaw.Sdk.SensitiveTools

/-!
# The ids of schedules

A schedule is added under the id of the arguments as it is written, white space at its ends
included. To remove a schedule, the id of the arguments is trimmed first, and compared with the
stored ids as they are. The two agree on an id without white space at its ends: what was added
under it is removed under it. Under any other id, a removal leaves the schedule in the store, and
takes out the one of the trimmed id if there is one.
-/

namespace KelvinClaw.Scheduler

open KelvinClaw.Core Systems.ReadModifyWrite Protocol

/-! ### The ids of the store -/

/-- The stored ids are trimmed, and no two are equal. -/
structure PlainIds (file : SchedulerState) : Prop where
  trimmed : ∀ task ∈ file.schedules, trim task.id = task.id
  distinct : (file.schedules.map (·.id)).Nodup

theorem PlainIds.nodup_trim {file : SchedulerState} (plain : PlainIds file) :
    (file.schedules.map fun task => trim task.id).Nodup := by
  have same : (file.schedules.map fun task => trim task.id) = file.schedules.map (·.id) :=
    List.map_congr_left plain.trimmed
  rw [same]
  exact plain.distinct

def AddsPlainly (call : Call) : Prop :=
  ∀ new, call.mutator = .addSchedule new → trim new.id = new.id

/-- Every addition that is asked for has a trimmed id. -/
def AsksPlainly (_ : State ℕ SchedulerState Call Reply) : Move ℕ Call → Prop
  | .load _ call => AddsPlainly call
  | .store _ _ => True

section Ids

variable {calendar : UtcCalendar} {call : Call} {file next : SchedulerState} {reply : Reply}

theorem id_of_claimLoop {cron : CronSchedule} {nowMs left : ℕ} {schedule advanced : ScheduledTask}
    {claims after : Claims}
    (ran : claimLoop calendar cron nowMs left schedule claims = .ok (advanced, after)) :
    advanced.id = schedule.id := by
  induction left generalizing schedule claims with
  | zero =>
    obtain ⟨rfl, rfl⟩ := Prod.mk.inj (Except.ok.inj ran)
    rfl
  | succ left ih =>
    rw [claimLoop] at ran
    by_cases later : minuteSlot nowMs < schedule.nextSlotAtMs
    · rw [if_pos later] at ran
      obtain ⟨rfl, rfl⟩ := Prod.mk.inj (Except.ok.inj ran)
      rfl
    · rw [if_neg later] at ran
      obtain ⟨nextSlotAtMs, _, ran⟩ := bind_eq_ok.mp ran
      rw [ih ran, ScheduledTask.pointAt_id]

theorem ids_of_claimSchedules {nowMs maxPerSchedule : ℕ} {schedules advanced : List ScheduledTask}
    {claims after : Claims}
    (ran : claimSchedules calendar nowMs maxPerSchedule schedules claims = .ok (advanced, after)) :
    advanced.map (·.id) = schedules.map (·.id) := by
  induction schedules generalizing advanced claims with
  | nil =>
    obtain ⟨rfl, rfl⟩ := Prod.mk.inj (Except.ok.inj ran)
    rfl
  | cons schedule rest ih =>
    obtain ⟨cron, _, ran⟩ := bind_eq_ok.mp ran
    obtain ⟨⟨first, mid⟩, here, ran⟩ := bind_eq_ok.mp ran
    obtain ⟨⟨others, last⟩, later, ran⟩ := bind_eq_ok.mp ran
    obtain ⟨rfl, rfl⟩ := Prod.mk.inj (Except.ok.inj ran)
    rw [List.map_cons, List.map_cons, id_of_claimLoop here, ih later]

theorem ids_of_claimDueSlots {nowMs maxPerSchedule : ℕ} {claimed : List ClaimedScheduleSlot}
    (ran : claimDueSlots calendar nowMs maxPerSchedule file = .ok (some next, claimed)) :
    next.schedules.map (·.id) = file.schedules.map (·.id) := by
  obtain ⟨⟨schedules, claims⟩, looped, ran⟩ := bind_eq_ok.mp ran
  have result := Except.ok.inj ran
  split_ifs at result with nothing
  · cases result
  · obtain ⟨saved, -⟩ := Prod.mk.inj result
    rw [← Option.some.inj saved]
    exact ids_of_claimSchedules looped

theorem PlainIds.of_ids (plain : PlainIds file)
    (ids : next.schedules.map (·.id) = file.schedules.map (·.id)) : PlainIds next := by
  refine ⟨fun task member => ?_, ids ▸ plain.distinct⟩
  have listed : task.id ∈ file.schedules.map (·.id) := ids ▸ List.mem_map_of_mem member
  obtain ⟨other, member', same⟩ := List.mem_map.mp listed
  rw [← same]
  exact plain.trimmed other member'

theorem PlainIds.effect (plain : PlainIds file) (adds : AddsPlainly call)
    (effect : Effect calendar call file next reply) : PlainIds next := by
  cases effect with
  | @added new task asked accepted fresh schedules =>
    have keeps : task.id = new.id := (NewScheduledTask.of_intoTask_eq_ok accepted).1
    constructor
    · rw [schedules, List.forall_mem_append, List.forall_mem_singleton]
      exact ⟨plain.trimmed, by rw [keeps]; exact adds new asked⟩
    · rw [schedules, List.map_append, List.nodup_append]
      refine ⟨plain.distinct, by simp, ?_⟩
      rintro _ old _ new rfl
      obtain ⟨other, member, rfl⟩ := List.mem_map.mp old
      exact fresh other member (by simpa using new)
  | removed _ schedules =>
    constructor
    · rw [schedules]
      exact fun task member => plain.trimmed task (List.mem_of_mem_filter member)
    · rw [schedules]
      exact plain.distinct.sublist (List.filter_sublist.map _)
  | claimed _ ran => exact plain.of_ids (ids_of_claimDueSlots ran)
  | marked schedules => exact plain.of_ids (by rw [schedules])

theorem PlainIds.saveState (plain : PlainIds next) : PlainIds (saveState next) := by
  have perm := schedules_saveState_perm next
  exact ⟨fun task member => plain.trimmed task (perm.mem_iff.mp member),
    (perm.map _).nodup_iff.mpr plain.distinct⟩

theorem plainIds_alone (stored : Bool) (adds : AddsPlainly call) (plain : PlainIds file) :
    PlainIds ((store calendar).alone call stored file).2 := by
  have outcome := alone_outcome calendar call stored file
  generalize (store calendar).alone call stored file = result at outcome
  cases outcome with
  | saved effect => exact (plain.effect adds effect).saveState
  | unchanged _ => exact plain

theorem plainIds_of_reachable {s : State ℕ SchedulerState Call Reply} (start : PlainIds file)
    (reached : ((store calendar).system ℕ file).ReachableWhen AsksPlainly s) : PlainIds s.cell :=
  cell_invariant_of_calls (fun _ _ _ (asks : AddsPlainly _) => asks) PlainIds start
    (fun _ stored _ adds plain => plainIds_alone stored adds plain) reached

end Ids

end KelvinClaw.Scheduler

namespace KelvinClaw.Sdk

open Systems KelvinClaw.Core KelvinClaw.Scheduler

theorem exists_approval_of_validApproval {input : ToolCallInput} {toolName : String}
    {args : List (String × Value)} (capability : String)
    (found : argsObject input.arguments toolName = .ok args)
    (valid : ValidApproval input.arguments) :
    ∃ reason, requireSensitiveApproval args capability = .ok reason := by
  obtain ⟨approval, reason, member, granted, given, long, short, plain⟩ := valid
  have isObject : input.arguments = .obj args := by
    cases arguments : input.arguments <;> simp_all [argsObject, Value.asObject]
  rw [isObject] at member
  have nonempty : trim reason ≠ "" := by
    intro empty
    rw [empty] at long
    exact absurd long (by decide)
  refine ⟨trim reason, ?_⟩
  unfold requireSensitiveApproval
  rw [show (Value.lookup "approval" args).bind Value.asObject = some approval from member]
  simp [granted, given, Value.asBool, Value.asStr, nonempty, plain, maxApprovalReasonLen, short]

/-- Nothing fails that a call asks of the file. -/
structure SchedulerSurroundings.Calm (surroundings : SchedulerSurroundings) : Prop where
  read : surroundings.readError = none
  save : surroundings.saveError = none
  listRead : surroundings.listReadError = none

namespace SchedulerTool

def NamesId (input : ToolCallInput) (id : String) : Prop :=
  ∃ args, argsObject input.arguments toolName = .ok args ∧
    Value.lookup "id" args = some (.str id)

/-- Every removal under an id succeeds, and takes out of the store the one schedule that was
added to it. -/
def RemovesAgain (env : SchedulerEnvironment) (id : String) (file added : SchedulerState) : Prop :=
  ∃ task, task.id = id ∧ added.schedules.Perm (task :: file.schedules) ∧
    ∀ input surroundings, AsksFor input "remove" → NamesId input id →
      ValidApproval input.arguments → surroundings.Calm →
      (∃ result, (call env surroundings input added).result = .ok result) ∧
        (call env surroundings input added).state.schedules.Perm file.schedules

variable {env : SchedulerEnvironment} {surroundings : SchedulerSurroundings}
  {input : ToolCallInput} {args : List (String × Value)} {file : SchedulerState}

/-! ### The steps of a call -/

/-- After the action the schedules are listed, which changes nothing. -/
theorem call_eq {action : String} (found : argsObject input.arguments toolName = .ok args)
    (requested : requestedAction args = .ok action)
    (ran : (perform env surroundings input args action file).result = .ok ()) :
    (call env surroundings input file).state =
        (perform env surroundings input args action file).state ∧
      (surroundings.listReadError = none →
        ∃ result, (call env surroundings input file).result = .ok result) := by
  unfold call
  simp only [found, requested, Action.ofExcept_ok, Action.pure_bind]
  rw [Action.bind_apply_of_result ran]
  generalize (perform env surroundings input args action file).state = after
  have held : (Action.get : StoreAction SchedulerState) after = ⟨.ok after, after, []⟩ := rfl
  rw [Action.bind_apply_ok held]
  cases surroundings.listReadError with
  | none => exact ⟨rfl, fun _ => ⟨_, rfl⟩⟩
  | some err => exact ⟨rfl, nofun⟩

theorem perform_of_call {action : String} (found : argsObject input.arguments toolName = .ok args)
    (requested : requestedAction args = .ok action) {result : ToolCallResult}
    (ran : (call env surroundings input file).result = .ok result) :
    (perform env surroundings input args action file).result = .ok () := by
  unfold call at ran
  simp only [found, requested, Action.ofExcept_ok, Action.pure_bind] at ran
  obtain ⟨⟨⟩, performed, -⟩ := Action.result_bind_ok.mp ran
  exact performed

def storeCall (surroundings : SchedulerSurroundings) (mutator : Mutator) : Call :=
  ⟨mutator, surroundings.storeNowMs, surroundings.auditMs, surroundings.readError,
    surroundings.saveError.getD ""⟩

theorem change_eq_alone (mutator : Mutator) :
    change env surroundings mutator file =
      let ran := (store env.calendar).alone (storeCall surroundings mutator)
        surroundings.saveError.isNone file
      ⟨replyResult ran.1, ran.2, [mutator]⟩ := by
  have logged : (Action.log mutator : StoreAction PUnit) file = ⟨.ok ⟨⟩, file, [mutator]⟩ := rfl
  have held : (Action.get : StoreAction SchedulerState) file = ⟨.ok file, file, []⟩ := rfl
  have answered : ∀ (result : KelvinResult Unit) (t : SchedulerState),
      (Action.ofExcept result : StoreAction Unit) t = ⟨result, t, []⟩ := by
    intro result t
    cases result <;> rfl
  unfold change
  rw [Action.bind_apply_ok logged, Action.bind_apply_ok held]
  simp only [ReadModifyWrite.Protocol.alone, storeCall]
  cases (store env.calendar).load _ file with
  | answer reply =>
    simp only [answered]
    rfl
  | store next reply failed =>
    cases surroundings.saveError with
    | some err =>
      simp only [answered]
      rfl
    | none =>
      have saved : (Action.modify fun _ => next : StoreAction PUnit) file =
        ⟨.ok ⟨⟩, next, []⟩ := rfl
      simp only [Action.bind_apply_ok saved, answered]
      rfl

/-- An addition that succeeds has found no schedule with the id, and saves the task. -/
theorem change_add {new : NewScheduledTask}
    (ran : (change env surroundings (.addSchedule new) file).result = .ok ()) :
    ∃ task, new.intoTask env.calendar surroundings.storeNowMs = .ok task ∧
      (∀ other ∈ file.schedules, other.id ≠ new.id) ∧
      (change env surroundings (.addSchedule new) file).state.schedules.Perm
        (task :: file.schedules) := by
  have loads := load_addSchedule env.calendar (storeCall surroundings (.addSchedule new)) file rfl
  rw [change_eq_alone, ReadModifyWrite.Protocol.alone, loads] at ran ⊢
  cases checked : new.intoTask env.calendar (storeCall surroundings (.addSchedule new)).nowMs >>=
      fun task => withStateMut (storeCall surroundings (.addSchedule new)) file
        (addSchedule task (storeCall surroundings (.addSchedule new)).auditMs) with
  | error e =>
    simp only [checked] at ran
    cases ran
  | ok change =>
    obtain ⟨task, accepted, changed⟩ := bind_eq_ok.mp checked
    obtain ⟨_, free, same⟩ := bind_eq_ok.mp (withStateMut_eq_ok changed)
    rw [refuseIf_eq_ok] at free
    cases same
    simp only [checked] at ran ⊢
    have fresh : ∀ other ∈ file.schedules, other.id ≠ task.id := by simpa using free
    rw [(NewScheduledTask.of_intoTask_eq_ok accepted).1] at fresh
    refine ⟨task, accepted, fresh, ?_⟩
    -- the copy is in the file only if it could be saved
    cases save : surroundings.saveError with
    | some err =>
      rw [save] at ran
      cases ran
    | none => exact (schedules_saveState_perm _).trans (List.perm_append_singleton _ _)

theorem change_remove (calm : surroundings.Calm) (id actorSessionId approvalReason : String) :
    (change env surroundings (.removeSchedule id actorSessionId approvalReason) file).result =
        .ok () ∧
      (change env surroundings (.removeSchedule id actorSessionId approvalReason)
        file).state.schedules.Perm (file.schedules.filter (·.id ≠ id)) := by
  have loads : (store env.calendar).load
      (storeCall surroundings (.removeSchedule id actorSessionId approvalReason)) file =
      prepare (surroundings.saveError.getD "") .removed
        (removeSchedule id actorSessionId approvalReason surroundings.auditMs file) := by
    simp only [store, Call.load, storeCall, withStateMut, loadState, calm.read]
    rfl
  rw [change_eq_alone, ReadModifyWrite.Protocol.alone, loads, calm.save]
  by_cases nothing : (file.schedules.filter (·.id ≠ id)).length = file.schedules.length
  · have all : file.schedules.filter (·.id ≠ id) = file.schedules :=
      List.filter_sublist.eq_of_length nothing
    rw [removeSchedule, if_pos nothing, all]
    exact ⟨rfl, List.Perm.refl _⟩
  · rw [removeSchedule, if_neg nothing]
    exact ⟨rfl, schedules_saveState_perm _⟩

theorem id_of_newTask {approvalReason id : String} {new : NewScheduledTask}
    (made : newTask env surroundings input args approvalReason = .ok new)
    (named : Value.lookup "id" args = some (.str id)) : new.id = id := by
  simp only [newTask, bind_eq_ok] at made
  obtain ⟨asked, _, task, _, made⟩ := made
  split at made
  · cases made
  · simp only [bind_eq_ok, pure_eq_ok] at made
    obtain ⟨_, _, given, read, _, _, _, _, _, _, _, _, _, _, _, _, rfl⟩ := made
    rw [optionalString, named] at read
    obtain rfl := Except.ok.inj read
    rfl

/-- A removal asks for the id of the arguments without the white space at its ends. -/
theorem requiredString_of_intoTask {new : NewScheduledTask} {task : ScheduledTask} {nowMs : ℕ}
    (accepted : new.intoTask env.calendar nowMs = .ok task)
    (named : Value.lookup "id" args = some (.str new.id)) :
    requiredString args "id" toolName = .ok (trim new.id) := by
  obtain ⟨_, valid, -⟩ := bind_eq_ok.mp accepted
  simp only [validateIdentifier, bind_unit_eq_ok, refuseIf_eq_ok] at valid
  obtain ⟨nonempty, _, plain⟩ := valid
  simp only [requiredString, named, Option.bind_some, Value.asStr, if_neg nonempty, if_neg plain]

/-- An addition under an id leaves its task in the store, which held no schedule with the id. A
removal under the same id asks for the trimmed one. -/
theorem exists_task_of_add {id : String} (asked : AsksFor input "add") (named : NamesId input id)
    {result : ToolCallResult} (ran : (call env surroundings input file).result = .ok result) :
    env.policy.allowSchedulerWrite = true ∧
      (∀ args, Value.lookup "id" args = some (.str id) →
        requiredString args "id" toolName = .ok (trim id)) ∧
      (∀ other ∈ file.schedules, other.id ≠ id) ∧
      ∃ task, task.id = id ∧
        (call env surroundings input file).state.schedules.Perm (task :: file.schedules) := by
  obtain ⟨args, found, requested⟩ := asked
  obtain ⟨args', found', named⟩ := named
  obtain rfl : args = args' := Except.ok.inj (found.symm.trans found')
  have performed := perform_of_call found requested ran
  rw [(call_eq found requested performed).1]
  simp only [perform, add] at performed ⊢
  split_ifs at performed ⊢ with allowed
  · obtain ⟨reason, approved, performed⟩ := Action.result_bind_ok.mp performed
    obtain ⟨new, made, changed⟩ := Action.result_bind_ok.mp performed
    rw [Action.result_ofExcept] at approved made
    simp only [Action.state_ofExcept] at changed
    obtain rfl := id_of_newTask made named
    obtain ⟨task, accepted, fresh, kept⟩ := change_add changed
    simp only [approved, made, Action.ofExcept_ok, Action.pure_bind]
    exact ⟨by simpa using allowed, fun _ => requiredString_of_intoTask accepted, fresh, task,
      (NewScheduledTask.of_intoTask_eq_ok accepted).1, kept⟩
  · cases performed

/-- A removal leaves the schedules that have another id than the one it asks for. -/
theorem call_remove (allowed : env.policy.allowSchedulerWrite = true)
    (asked : AsksFor input "remove") (id : String)
    (given : ∀ args, argsObject input.arguments toolName = .ok args →
      requiredString args "id" toolName = .ok id)
    (approved : ValidApproval input.arguments) (calm : surroundings.Calm) :
    (∃ result, (call env surroundings input file).result = .ok result) ∧
      (call env surroundings input file).state.schedules.Perm
        (file.schedules.filter (·.id ≠ id)) := by
  obtain ⟨args, found, requested⟩ := asked
  obtain ⟨reason, approval⟩ := exists_approval_of_validApproval "schedule_mutation"
    found approved
  have removes : perform env surroundings input args "remove" =
      change env surroundings (.removeSchedule id input.sessionId reason) := by
    simp only [perform, remove, allowed, approval, given args found, Action.ofExcept_ok,
      Action.pure_bind, not_true_eq_false, if_false]
  obtain ⟨ran, kept⟩ := @change_remove env _ file calm id input.sessionId reason
  rw [← removes] at ran kept
  obtain ⟨state, ends⟩ := call_eq found requested ran
  exact ⟨ends calm.listRead, state ▸ kept⟩

def removalOf (id : String) : ToolCallInput where
  runId := "run"
  sessionId := "main"
  workspaceDir := "/workspace"
  arguments := .obj [("action", .str "remove"),
    ("approval", .obj [("granted", .bool true), ("reason", .str "cleanup")]), ("id", .str id)]

/-- A removal takes out what was added under an id exactly when the id has no white space at its
ends. -/
theorem removesAgain_iff {id : String} (asked : AsksFor input "add") (named : NamesId input id)
    {result : ToolCallResult} (ran : (call env surroundings input file).result = .ok result) :
    RemovesAgain env id file (call env surroundings input file).state ↔ trim id = id := by
  obtain ⟨allowed, given, fresh, task, same, added⟩ := exists_task_of_add asked named ran
  constructor
  · rintro ⟨-, -, -, removed⟩
    by_contra untrimmed
    -- the task stays, and the file before the addition did not hold it
    have asked : AsksFor (removalOf id) "remove" := ⟨_, rfl, rfl⟩
    have approved : ValidApproval (removalOf id).arguments :=
      ⟨_, "cleanup", rfl, rfl, rfl, by decide, by decide, by decide⟩
    have calm : SchedulerSurroundings.Calm ⟨0, 0, 0, 0, none, none, none⟩ := ⟨rfl, rfl, rfl⟩
    obtain ⟨-, back⟩ := removed (removalOf id) _ asked ⟨_, rfl, rfl⟩ approved calm
    obtain ⟨-, kept⟩ := @call_remove env _ _ (call env surroundings input file).state allowed
      asked (trim id) (by rintro _ ⟨⟩; exact given _ rfl) approved calm
    have stays : task ∈ (call env surroundings input file).state.schedules.filter
        (·.id ≠ trim id) := by
      refine List.mem_filter.mpr ⟨added.mem_iff.mpr List.mem_cons_self, ?_⟩
      simpa [same] using Ne.symm untrimmed
    exact fresh task ((back.symm.trans kept).mem_iff.mpr stays) same
  · intro trimmed
    refine ⟨task, same, added, fun input' surroundings' asked' named' approved calm => ?_⟩
    obtain ⟨args, found, named'⟩ := named'
    obtain ⟨ends, kept⟩ := @call_remove env surroundings' _
      (call env surroundings input file).state allowed asked' id (fun args' found' => by
        obtain rfl : args = args' := Except.ok.inj (found.symm.trans found')
        rw [given args named', trimmed]) approved calm
    refine ⟨ends, kept.trans ?_⟩
    calc (call env surroundings input file).state.schedules.filter (·.id ≠ id)
        |>.Perm ((task :: file.schedules).filter (·.id ≠ id)) := added.filter _
      _ = file.schedules.filter (·.id ≠ id) := List.filter_cons_of_neg (by simp [same])
      _ = file.schedules := List.filter_eq_self.mpr fun other member => by
        simpa using fresh other member

/-- What is added under an id is removed under it exactly when the id has no white space at its
ends. Where all additions have such ids, no two ids of the store are equal after trimming. -/
theorem schedules_removable_iff (env : SchedulerEnvironment) :
    (∀ surroundings input id file result, AsksFor input "add" → NamesId input id →
      (call env surroundings input file).result = .ok result →
      (RemovesAgain env id file (call env surroundings input file).state ↔ trim id = id)) ∧
    ∀ file s, PlainIds file →
      ((store env.calendar).system ℕ file).ReachableWhen AsksPlainly s →
      (s.cell.schedules.map fun task => trim task.id).Nodup := by
  constructor
  · intro surroundings input id file result asked named ran
    exact removesAgain_iff asked named ran
  · intro file s plain reached
    exact (plainIds_of_reachable plain reached).nodup_trim

def writableEnvironment : SchedulerEnvironment where
  calendar := gregorian
  policy := ⟨true, true, true, true, 64 * 1024, 128 * 1024, []⟩
  fromValue _ := .error "missing field"
  toJsonText _ := ""
  statePath := "/workspace/.kelvin/scheduler/scheduler/state.json"

def additionOf (id : String) : ToolCallInput where
  runId := "run"
  sessionId := "main"
  workspaceDir := "/workspace"
  arguments := .obj [("action", .str "add"),
    ("approval", .obj [("granted", .bool true), ("reason", .str "report")]),
    ("cron", .str "* * * * *"), ("id", .str id), ("prompt", .str "report")]

/-- A schedule that was added under an id with a blank in front is not removed under it. -/
theorem padded_id_is_not_removed :
    ∃ surroundings result,
      (call writableEnvironment surroundings (additionOf " nightly") .default).result =
        .ok result ∧
      ¬ RemovesAgain writableEnvironment " nightly" .default
        (call writableEnvironment surroundings (additionOf " nightly") .default).state := by
  refine ⟨⟨60000, 60000, 60000, 60000, none, none, none⟩, _, rfl, fun removed => ?_⟩
  have trimmed := (removesAgain_iff ⟨_, rfl, rfl⟩ ⟨_, rfl, rfl⟩ rfl).mp removed
  exact absurd trimmed (by decide)

end SchedulerTool

end KelvinClaw.Sdk
