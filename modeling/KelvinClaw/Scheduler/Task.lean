import KelvinClaw.Scheduler.DueSlots

/-!
# Scheduled tasks and their records

The data the scheduler stores: tasks with their next slot, one record per claimed
slot, and an audit trail. A new task is checked field by field before it is stored,
and its first slot is the first accepted minute from the minute it was created in.
-/

namespace KelvinClaw.Scheduler

open KelvinClaw.Core

def maxScheduleIdBytes : ℕ := 128

/-- `validate_identifier`. -/
def validateIdentifier (label value : String) (maxLen : ℕ) : KelvinResult Unit := do
  let trimmed := trim value
  refuseIf (trimmed = "") (.invalidInput s!"{label} must not be empty")
  refuseIf (maxLen < trimmed.utf8ByteSize) (.invalidInput s!"{label} exceeds {maxLen} bytes")
  refuseIf (trimmed.toList.any isControl)
    (.invalidInput s!"{label} must not contain control characters")

structure ScheduleReplyTarget where
  channel : String
  accountId : String
  deriving DecidableEq

/-- `ScheduleReplyTarget::normalize`. -/
def ScheduleReplyTarget.normalize (target : ScheduleReplyTarget) :
    KelvinResult ScheduleReplyTarget := do
  let channel := toAsciiLowercase (trim target.channel)
  refuseIf (channel ≠ "telegram" ∧ channel ≠ "slack" ∧ channel ≠ "discord")
    (.invalidInput <| "reply_target.channel must be one of telegram, slack, discord " ++
      s!"(got '{target.channel}')")
  let accountId := trim target.accountId
  refuseIf (accountId = "") (.invalidInput "reply_target.account_id must not be empty")
  refuseIf (accountId.toList.any isControl)
    (.invalidInput "reply_target.account_id must not contain control characters")
  return ⟨channel, accountId⟩

/-- A task as stored. -/
structure ScheduledTask where
  id : String
  cron : String
  prompt : String
  sessionId : Option String
  workspaceDir : Option String
  timeoutMs : Option ℕ
  systemPrompt : Option String
  memoryQuery : Option String
  replyTarget : Option ScheduleReplyTarget
  createdBySession : String
  createdAtMs : ℕ
  approvalReason : String
  nextSlotAtMs : ℕ
  deriving DecidableEq

def ScheduledTask.pointAt (task : ScheduledTask) (slotMs : ℕ) : ScheduledTask :=
  { task with nextSlotAtMs := slotMs }

namespace ScheduledTask

variable (task : ScheduledTask) (slotMs laterMs : ℕ)

@[simp] theorem pointAt_id : (task.pointAt slotMs).id = task.id := rfl

@[simp] theorem pointAt_cron : (task.pointAt slotMs).cron = task.cron := rfl

@[simp] theorem pointAt_nextSlotAtMs : (task.pointAt slotMs).nextSlotAtMs = slotMs := rfl

@[simp] theorem pointAt_pointAt : (task.pointAt slotMs).pointAt laterMs = task.pointAt laterMs :=
  rfl

@[simp] theorem pointAt_self : task.pointAt task.nextSlotAtMs = task := rfl

end ScheduledTask

/-- A task as requested. -/
structure NewScheduledTask where
  id : String
  cron : String
  prompt : String
  sessionId : Option String
  workspaceDir : Option String
  timeoutMs : Option ℕ
  systemPrompt : Option String
  memoryQuery : Option String
  replyTarget : Option ScheduleReplyTarget
  createdBySession : String
  createdAtMs : ℕ
  approvalReason : String

def NewScheduledTask.createdMs (nowMs : ℕ) (new : NewScheduledTask) : ℕ :=
  if new.createdAtMs = 0 then nowMs else new.createdAtMs

/-- `NewScheduledTask::into_task`. -/
def NewScheduledTask.intoTask (calendar : UtcCalendar) (nowMs : ℕ) (new : NewScheduledTask) :
    KelvinResult ScheduledTask := do
  validateIdentifier "schedule id" new.id maxScheduleIdBytes
  let prompt := trim new.prompt
  refuseIf (prompt = "") (.invalidInput "schedule prompt must not be empty")
  let approvalReason := trim new.approvalReason
  refuseIf (approvalReason = "") (.invalidInput "schedule approval reason must not be empty")
  let createdBySession := trim new.createdBySession
  refuseIf (createdBySession = "") (.invalidInput "schedule created_by_session must not be empty")
  let cron ← CronSchedule.parse new.cron
  let createdAtMs := new.createdMs nowMs
  return {
    id := new.id
    cron := cron.raw
    prompt
    sessionId := trimOption new.sessionId
    workspaceDir := trimOption new.workspaceDir
    timeoutMs := new.timeoutMs
    systemPrompt := trimOption new.systemPrompt
    memoryQuery := trimOption new.memoryQuery
    replyTarget := ← new.replyTarget.mapM ScheduleReplyTarget.normalize
    createdBySession
    createdAtMs
    approvalReason
    nextSlotAtMs := ← cron.firstSlotAtOrAfter calendar (minuteSlot createdAtMs) }

inductive ScheduleSlotPhase where
  | claimed
  | submitFailed
  | submitted
  | completed
  | failed
  | timeout
  deriving DecidableEq

def ScheduleSlotPhase.debug : ScheduleSlotPhase → String
  | .claimed => "Claimed"
  | .submitFailed => "SubmitFailed"
  | .submitted => "Submitted"
  | .completed => "Completed"
  | .failed => "Failed"
  | .timeout => "Timeout"

structure ScheduleReplyDelivery where
  delivered : Bool
  attemptedAtMs : ℕ
  error : Option String
  deriving DecidableEq

structure ScheduleSlotRecord where
  scheduleId : String
  slotAtMs : ℕ
  claimedAtMs : ℕ
  phase : ScheduleSlotPhase
  runId : Option String
  finishedAtMs : Option ℕ
  error : Option String
  responsePreview : Option String
  reply : Option ScheduleReplyDelivery
  deriving DecidableEq

structure ScheduleAuditEntry where
  tsMs : ℕ
  kind : String
  scheduleId : Option String
  slotAtMs : Option ℕ
  runId : Option String
  actorSessionId : Option String
  message : String
  detail : Value
  deriving DecidableEq

/-- What a claim hands out: the task as it stood when the slot was claimed. -/
structure ClaimedScheduleSlot where
  schedule : ScheduledTask
  slotAtMs : ℕ
  deriving DecidableEq

/-! ### Accepted tasks -/

variable {calendar : UtcCalendar} {nowMs : ℕ} {new : NewScheduledTask} {task : ScheduledTask}

theorem minuteSlot_mod (tsMs : ℕ) : minuteSlot tsMs % minuteMs = 0 :=
  Nat.mul_mod_left _ _

theorem minuteSlot_le (tsMs : ℕ) : minuteSlot tsMs ≤ tsMs :=
  Nat.div_mul_le_self _ _

theorem CronSchedule.aligned_of_firstSlotAtOrAfter {cron : CronSchedule} {startMs slotMs : ℕ}
    (aligned : startMs % minuteMs = 0)
    (found : cron.firstSlotAtOrAfter calendar startMs = .ok slotMs) :
    startMs ≤ slotMs ∧ cron.Aligned calendar slotMs := by
  obtain ⟨steps, _, rfl, matching, _⟩ := scan_eq_ok.mp found
  exact ⟨Nat.le_add_right _ _, by simp [aligned], matching⟩

/-- An accepted task keeps its id, stores an expression that parses, and points at
the first accepted minute from its creation on. -/
theorem NewScheduledTask.of_intoTask_eq_ok (accepted : new.intoTask calendar nowMs = .ok task) :
    task.id = new.id ∧ ∃ cron, CronSchedule.parse task.cron = .ok cron ∧
      cron.firstSlotAtOrAfter calendar (minuteSlot (new.createdMs nowMs)) =
        .ok task.nextSlotAtMs := by
  simp only [intoTask, bind_eq_ok, pure_eq_ok] at accepted
  obtain ⟨_, _, _, _, _, _, _, _, cron, parsed, _, _, nextSlotAtMs, found, rfl⟩ := accepted
  exact ⟨rfl, cron, CronSchedule.parse_raw parsed, found⟩

end KelvinClaw.Scheduler
