import KelvinClaw.Scheduler.Persistence
import KelvinClaw.Library.ReadModifyWrite

/-!
# The scheduler store

Every mutator loads the state under the lock, changes the copy, releases the lock and
then saves the copy. What a mutator does with the loaded state is a function from the
state to the copy to save (or none) and the value to return; the store is the
read-modify-write protocol these functions make.

The clock readings and the outcomes of reading and writing the file are inputs of a
call. A removal that removes nothing and a claim that claims nothing save nothing.
-/

namespace KelvinClaw.Scheduler

open KelvinClaw.Core Systems Systems.ReadModifyWrite

def schedulerSlotErrorTruncate : ℕ := 512

def schedulerSlotPreviewTruncate : ℕ := 512

/-- What a mutator makes of the loaded state: the copy to save, if any, and the value
it returns once saved. -/
abbrev Change (α : Type) := Option SchedulerState × α

/-! ### Adding and removing schedules -/

def ScheduledTask.addAudit (task : ScheduledTask) (auditMs : ℕ) : ScheduleAuditEntry where
  tsMs := auditMs
  kind := "schedule_added"
  scheduleId := some task.id
  slotAtMs := none
  runId := none
  actorSessionId := some task.createdBySession
  message := s!"schedule '{task.id}' added"
  detail := Value.object [("cron", .str task.cron), ("next_slot_at_ms", .num task.nextSlotAtMs),
    ("has_reply_target", .bool task.replyTarget.isSome)]

/-- `add_schedule` on the loaded state. -/
def addSchedule (task : ScheduledTask) (auditMs : ℕ) (state : SchedulerState) :
    KelvinResult (Change ScheduledTask) := do
  refuseIf (state.schedules.any (·.id = task.id))
    (.invalidInput s!"schedule id already exists: {task.id}")
  return (some { state with
    schedules := state.schedules ++ [task]
    audit := state.audit ++ [task.addAudit auditMs] }, task)

/-- `remove_schedule` on the loaded state. -/
def removeSchedule (id actorSessionId approvalReason : String) (auditMs : ℕ)
    (state : SchedulerState) : KelvinResult (Change Bool) :=
  let kept := state.schedules.filter (·.id ≠ id)
  if kept.length = state.schedules.length then .ok (none, false)
  else .ok (some { state with
    schedules := kept
    audit := state.audit ++ [{
      tsMs := auditMs
      kind := "schedule_removed"
      scheduleId := some id
      slotAtMs := none
      runId := none
      actorSessionId := some actorSessionId
      message := s!"schedule '{id}' removed"
      detail := Value.object [("approval_reason", .str approvalReason)] }] }, true)

/-! ### Claiming due slots -/

def ScheduledTask.claimRecord (schedule : ScheduledTask) (nowMs slotAtMs : ℕ) :
    ScheduleSlotRecord where
  scheduleId := schedule.id
  slotAtMs
  claimedAtMs := nowMs
  phase := .claimed
  runId := none
  finishedAtMs := none
  error := none
  responsePreview := none
  reply := none

def ScheduledTask.claimAudit (schedule : ScheduledTask) (nowMs slotAtMs : ℕ) :
    ScheduleAuditEntry where
  tsMs := nowMs
  kind := "slot_claimed"
  scheduleId := some schedule.id
  slotAtMs := some slotAtMs
  runId := none
  actorSessionId := none
  message := s!"claimed schedule slot '{schedule.id}' at {slotAtMs}"
  detail := Value.object []

/-- What the claim loops change besides the schedules. -/
structure Claims where
  slots : List ScheduleSlotRecord
  audit : List ScheduleAuditEntry
  claimed : List ClaimedScheduleSlot

def Claims.claim (claims : Claims) (nowMs : ℕ) (schedule : ScheduledTask) : Claims where
  slots := claims.slots ++ [schedule.claimRecord nowMs schedule.nextSlotAtMs]
  audit := claims.audit ++ [schedule.claimAudit nowMs schedule.nextSlotAtMs]
  claimed := claims.claimed ++ [⟨schedule, schedule.nextSlotAtMs⟩]

/-- The inner loop: at most `left` more slots of one schedule. A slot that has a record
is passed over and counts like a claimed one. -/
def claimLoop (calendar : UtcCalendar) (cron : CronSchedule) (nowMs : ℕ) :
    ℕ → ScheduledTask → Claims → KelvinResult (ScheduledTask × Claims)
  | 0, schedule, claims => .ok (schedule, claims)
  | left + 1, schedule, claims =>
    if minuteSlot nowMs < schedule.nextSlotAtMs then .ok (schedule, claims)
    else do
      let nextSlotAtMs ← cron.nextSlotAfter calendar schedule.nextSlotAtMs
      claimLoop calendar cron nowMs left (schedule.pointAt nextSlotAtMs)
        (if Recorded claims.slots schedule.id schedule.nextSlotAtMs then claims
          else claims.claim nowMs schedule)

/-- The outer loop, over the schedules in the order of the table. -/
def claimSchedules (calendar : UtcCalendar) (nowMs maxPerSchedule : ℕ) :
    List ScheduledTask → Claims → KelvinResult (List ScheduledTask × Claims)
  | [], claims => .ok ([], claims)
  | schedule :: rest, claims => do
    let cron ← CronSchedule.parse schedule.cron
    let (advanced, claims) ←
      claimLoop calendar cron nowMs (max maxPerSchedule 1) schedule claims
    let (others, claims) ← claimSchedules calendar nowMs maxPerSchedule rest claims
    return (advanced :: others, claims)

/-- `claim_due_slots` on the loaded state. -/
def claimDueSlots (calendar : UtcCalendar) (nowMs maxPerSchedule : ℕ) (state : SchedulerState) :
    KelvinResult (Change (List ClaimedScheduleSlot)) := do
  let (schedules, claims) ←
    claimSchedules calendar nowMs maxPerSchedule state.schedules ⟨state.slots, state.audit, []⟩
  return if claims.claimed = [] then (none, [])
    else (some ⟨schedules, claims.slots, claims.audit⟩, claims.claimed)

/-! ### Marking slots -/

def updateFirst (scheduleId : String) (slotAtMs : ℕ)
    (mutate : ScheduleSlotRecord → ScheduleSlotRecord × ScheduleAuditEntry) :
    List ScheduleSlotRecord → Option (List ScheduleSlotRecord × ScheduleAuditEntry)
  | [] => none
  | slot :: rest =>
    if slot.scheduleId = scheduleId ∧ slot.slotAtMs = slotAtMs then
      let (changed, entry) := mutate slot
      some (changed :: rest, entry)
    else (updateFirst scheduleId slotAtMs mutate rest).map fun (others, entry) =>
      (slot :: others, entry)

/-- `update_slot` on the loaded state. -/
def updateSlot (scheduleId : String) (slotAtMs : ℕ)
    (mutate : ScheduleSlotRecord → ScheduleSlotRecord × ScheduleAuditEntry)
    (state : SchedulerState) : KelvinResult (Change Unit) :=
  match updateFirst scheduleId slotAtMs mutate state.slots with
  | none => .error (.notFound s!"unknown schedule slot: {scheduleId}@{slotAtMs}")
  | some (slots, entry) => .ok (some { state with slots, audit := state.audit ++ [entry] }, ())

/-- `mark_slot_submitted`. -/
def markSlotSubmitted (scheduleId : String) (slotAtMs : ℕ) (runId : String) (auditMs : ℕ) :
    SchedulerState → KelvinResult (Change Unit) :=
  updateSlot scheduleId slotAtMs fun slot =>
    ({ slot with phase := .submitted, runId := some runId }, {
      tsMs := auditMs
      kind := "slot_submitted"
      scheduleId := some scheduleId
      slotAtMs := some slotAtMs
      runId := some runId
      actorSessionId := none
      message := s!"submitted run '{runId}' for schedule '{scheduleId}'"
      detail := Value.object [] })

/-- `mark_slot_submit_failed`. -/
def markSlotSubmitFailed (scheduleId : String) (slotAtMs : ℕ) (error : String)
    (nowMs auditMs : ℕ) : SchedulerState → KelvinResult (Change Unit) :=
  updateSlot scheduleId slotAtMs fun slot =>
    let error := truncate error schedulerSlotErrorTruncate
    ({ slot with phase := .submitFailed, finishedAtMs := some nowMs, error := some error }, {
      tsMs := auditMs
      kind := "slot_submit_failed"
      scheduleId := some scheduleId
      slotAtMs := some slotAtMs
      runId := none
      actorSessionId := none
      message := s!"schedule '{scheduleId}' submit failed"
      detail := Value.object [("error", .str error)] })

/-- `mark_slot_outcome`. -/
def markSlotOutcome (scheduleId : String) (slotAtMs : ℕ) (phase : ScheduleSlotPhase)
    (runId : String) (responsePreview error : Option String) (nowMs auditMs : ℕ) :
    SchedulerState → KelvinResult (Change Unit) :=
  updateSlot scheduleId slotAtMs fun slot =>
    let responsePreview := responsePreview.map (truncate · schedulerSlotPreviewTruncate)
    let error := error.map (truncate · schedulerSlotErrorTruncate)
    ({ slot with
        phase, runId := some runId, finishedAtMs := some nowMs, responsePreview, error }, {
      tsMs := auditMs
      kind := toAsciiLowercase s!"slot_{phase.debug}"
      scheduleId := some scheduleId
      slotAtMs := some slotAtMs
      runId := some runId
      actorSessionId := none
      message := s!"schedule '{scheduleId}' finished with {phase.debug}"
      detail := Value.object [("response_preview", Value.ofOption responsePreview),
        ("error", Value.ofOption error)] })

/-- `mark_reply_result`. -/
def markReplyResult (scheduleId : String) (slotAtMs : ℕ) (delivered : Bool)
    (error : Option String) (nowMs auditMs : ℕ) : SchedulerState → KelvinResult (Change Unit) :=
  updateSlot scheduleId slotAtMs fun slot =>
    let error := error.map (truncate · schedulerSlotErrorTruncate)
    ({ slot with reply := some ⟨delivered, nowMs, error⟩ }, {
      tsMs := auditMs
      kind := if delivered then "reply_delivered" else "reply_failed"
      scheduleId := some scheduleId
      slotAtMs := some slotAtMs
      runId := slot.runId
      actorSessionId := none
      message := if delivered then s!"delivered reply for schedule '{scheduleId}'"
        else s!"reply delivery failed for schedule '{scheduleId}'"
      detail := Value.object [("error", Value.ofOption error)] })

/-! ### The protocol -/

inductive Mutator where
  | addSchedule (new : NewScheduledTask)
  | removeSchedule (id actorSessionId approvalReason : String)
  | claimDueSlots (nowMs maxPerSchedule : ℕ)
  | markSlotSubmitted (scheduleId : String) (slotAtMs : ℕ) (runId : String)
  | markSlotSubmitFailed (scheduleId : String) (slotAtMs : ℕ) (error : String)
  | markSlotOutcome (scheduleId : String) (slotAtMs : ℕ) (phase : ScheduleSlotPhase)
      (runId : String) (responsePreview error : Option String)
  | markReplyResult (scheduleId : String) (slotAtMs : ℕ) (delivered : Bool)
      (error : Option String)

/-- A mutator with what its environment does: the first clock reading, the clock
reading of the audit entry, whether the file can be read, and the error text of a
save that fails. -/
structure Call where
  mutator : Mutator
  nowMs : ℕ
  auditMs : ℕ
  readError : Option String
  saveError : String

/-- The value a mutator returns, by its type. -/
inductive Reply where
  | task (result : KelvinResult ScheduledTask)
  | removed (result : KelvinResult Bool)
  | claimed (result : KelvinResult (List ClaimedScheduleSlot))
  | updated (result : KelvinResult Unit)

/-- The save that ends a mutator: without a copy to save the value is returned at once. -/
def prepare {α : Type} (saveError : String) (reply : KelvinResult α → Reply) :
    KelvinResult (Change α) → Prepared SchedulerState Reply
  | .error e => .answer (reply (.error e))
  | .ok (none, value) => .answer (reply (.ok value))
  | .ok (some state, value) =>
    .store (saveState state) (reply (.ok value)) (reply (.error (.io saveError)))

/-- `with_state_mut`: load the file and change the loaded copy. -/
def withStateMut {α : Type} (call : Call) (file : SchedulerState)
    (writer : SchedulerState → KelvinResult (Change α)) : KelvinResult (Change α) := do
  writer (← loadState call.readError file)

def Call.load (calendar : UtcCalendar) (call : Call) (file : SchedulerState) :
    Prepared SchedulerState Reply :=
  match call.mutator with
  | .addSchedule new => prepare call.saveError .task do
    let task ← new.intoTask calendar call.nowMs
    withStateMut call file (addSchedule task call.auditMs)
  | .removeSchedule id actorSessionId approvalReason => prepare call.saveError .removed <|
    withStateMut call file (removeSchedule id actorSessionId approvalReason call.auditMs)
  | .claimDueSlots nowMs maxPerSchedule => prepare call.saveError .claimed <|
    withStateMut call file (claimDueSlots calendar nowMs maxPerSchedule)
  | .markSlotSubmitted scheduleId slotAtMs runId => prepare call.saveError .updated <|
    withStateMut call file (markSlotSubmitted scheduleId slotAtMs runId call.auditMs)
  | .markSlotSubmitFailed scheduleId slotAtMs error => prepare call.saveError .updated <|
    withStateMut call file
      (markSlotSubmitFailed scheduleId slotAtMs error call.nowMs call.auditMs)
  | .markSlotOutcome scheduleId slotAtMs phase runId responsePreview error =>
    prepare call.saveError .updated <| withStateMut call file
      (markSlotOutcome scheduleId slotAtMs phase runId responsePreview error call.nowMs
        call.auditMs)
  | .markReplyResult scheduleId slotAtMs delivered error => prepare call.saveError .updated <|
    withStateMut call file
      (markReplyResult scheduleId slotAtMs delivered error call.nowMs call.auditMs)

def store (calendar : UtcCalendar) : Protocol SchedulerState Call Reply where
  load := Call.load calendar

/-- What an addition makes of the file: the task is checked before the file is read. -/
theorem load_addSchedule (calendar : UtcCalendar) (call : Call) (file : SchedulerState)
    {new : NewScheduledTask} (asked : call.mutator = .addSchedule new) :
    (store calendar).load call file = prepare call.saveError .task
      (new.intoTask calendar call.nowMs >>= fun task =>
        withStateMut call file (addSchedule task call.auditMs)) := by
  simp only [store, Call.load, asked]

/-- The store with any number of clients, which starts without a file. -/
def storeSystem (calendar : UtcCalendar) :
    TransitionSystem (State ℕ SchedulerState Call Reply) (Move ℕ Call) :=
  (store calendar).system ℕ .default

/-! ### A schedule that fires every minute -/

def everyMinute (id : String) : NewScheduledTask where
  id
  cron := "* * * * *"
  prompt := "report"
  sessionId := none
  workspaceDir := none
  timeoutMs := none
  systemPrompt := none
  memoryQuery := none
  replyTarget := none
  createdBySession := "main"
  createdAtMs := 60000
  approvalReason := "approved"

def Mutator.at (mutator : Mutator) (nowMs : ℕ) : Call := ⟨mutator, nowMs, nowMs, none, "save"⟩

def everyMinuteTask (id : String) : ScheduledTask where
  id
  cron := "* * * * *"
  prompt := "report"
  sessionId := none
  workspaceDir := none
  timeoutMs := none
  systemPrompt := none
  memoryQuery := none
  replyTarget := none
  createdBySession := "main"
  createdAtMs := 60000
  approvalReason := "approved"
  nextSlotAtMs := 60000

end KelvinClaw.Scheduler
