import KelvinClaw.Core.RunWait
import KelvinClaw.Scheduler.AtMostOnce
import KelvinClaw.Sdk.Submit

/-!
# The executions of claimed slots

A scan claims the due slots, and for each of them the gateway starts an execution, which submits a
run, waits for its outcome, and delivers the reply. What it learns it marks in the store, and goes
on whether or not a mark was saved. The calls of the scans and of all executions follow each other
in any order; each of them may fail to read or to write the file.
-/

namespace KelvinClaw.Scheduler

open KelvinClaw.Core KelvinClaw.Sdk Systems Systems.ReadModifyWrite

/-! ### One execution -/

def outcomePreviewMaxLen : ℕ := 512

def truncateText (value : String) : String := truncate value outcomePreviewMaxLen

def joinPayloads (payloads : List String) : String :=
  let joined := "\n".intercalate (payloads.filter fun value => trim value ≠ "")
  if trim joined = "" then "No response generated." else truncateText joined

/-- What the runtime and the channels answer an execution: to its request, to its wait for the
outcome of the accepted run, and to the delivery of a reply. -/
structure SlotAnswers where
  submit : KelvinSdkRunRequest → KelvinResult String
  waitForOutcome : String → ℕ → KelvinResult (RunOutcome (List String))
  deliverScheduledReply : ScheduleReplyTarget → String → KelvinResult Unit

def deliverReply (answers : SlotAnswers) (schedule : ScheduledTask) (slotAtMs : ℕ)
    (text : String) : List Mutator :=
  match schedule.replyTarget with
  | none => []
  | some target =>
    match answers.deliverScheduledReply target text with
    | .ok () => [.markReplyResult schedule.id slotAtMs true none]
    | .error err => [.markReplyResult schedule.id slotAtMs false (some err.toString)]

def slotRequest (claimed : ClaimedScheduleSlot) : KelvinSdkRunRequest where
  prompt := claimed.schedule.prompt
  sessionId := claimed.schedule.sessionId
  workspaceDir := claimed.schedule.workspaceDir
  timeoutMs := claimed.schedule.timeoutMs
  systemPrompt := claimed.schedule.systemPrompt
  memoryQuery := claimed.schedule.memoryQuery
  runId := some s!"schedule-{claimed.schedule.id}-{claimed.slotAtMs}"

/-- The calls that an execution makes of the store. It does not look at their results. -/
def executeSlot (answers : SlotAnswers) (claimed : ClaimedScheduleSlot) : List Mutator :=
  let schedule := claimed.schedule
  let slotAtMs := claimed.slotAtMs
  match answers.submit (slotRequest claimed) with
  | .error err => [.markSlotSubmitFailed schedule.id slotAtMs err.toString]
  | .ok runId =>
    let timeoutMs := saturatingAdd u64Max (schedule.timeoutMs.getD 300000) 3000
    .markSlotSubmitted schedule.id slotAtMs runId ::
      match answers.waitForOutcome runId timeoutMs with
      | .ok (.completed payloads) =>
        let preview := joinPayloads payloads
        .markSlotOutcome schedule.id slotAtMs .completed runId (some preview) none ::
          deliverReply answers schedule slotAtMs preview
      | .ok (.failed error) =>
        let text := truncateText s!"Kelvin scheduled run failed: {error}"
        .markSlotOutcome schedule.id slotAtMs .failed runId none (some error) ::
          deliverReply answers schedule slotAtMs text
      | .ok .timeout =>
        .markSlotOutcome schedule.id slotAtMs .timeout runId none none ::
          deliverReply answers schedule slotAtMs "Kelvin scheduled run timed out."
      -- the run was submitted, and its outcome could not be waited for
      | .error err => [.markSlotSubmitFailed schedule.id slotAtMs err.toString]

/-! ### All executions -/

def ScheduleSlotRecord.pair (slot : ScheduleSlotRecord) : String × ℕ :=
  (slot.scheduleId, slot.slotAtMs)

/-- A claimed slot with the calls that its execution has not made yet. -/
structure Execution where
  claimed : ClaimedScheduleSlot
  calls : List Mutator

def Execution.pair (execution : Execution) : String × ℕ :=
  (execution.claimed.schedule.id, execution.claimed.slotAtMs)

/-- The file, and the executions that were started. -/
structure SchedulerRun where
  file : SchedulerState
  executions : List Execution

/-- What surrounds a call: the clock, whether the file can be read, and whether it is written. -/
structure CallSurroundings where
  nowMs : ℕ
  auditMs : ℕ
  readError : Option String
  saveError : Option String

def CallSurroundings.run (surroundings : CallSurroundings) (calendar : UtcCalendar)
    (mutator : Mutator) (file : SchedulerState) : Reply × SchedulerState :=
  (store calendar).alone ⟨mutator, surroundings.nowMs, surroundings.auditMs,
    surroundings.readError, surroundings.saveError.getD ""⟩ surroundings.saveError.isNone file

/-- A scan, which starts an execution for each slot it claims, or the next call of an execution. -/
inductive SchedulerMove where
  | scanOnce (nowMs maxClaimsPerSchedule : ℕ) (surroundings : CallSurroundings)
      (answers : ClaimedScheduleSlot → SlotAnswers)
  | mark (position : ℕ) (surroundings : CallSurroundings)

def startExecutions (answers : ClaimedScheduleSlot → SlotAnswers) : Reply → List Execution
  | .claimed (.ok slots) => slots.map fun slot => ⟨slot, executeSlot (answers slot) slot⟩
  | .claimed (.error _) | .task _ | .removed _ | .updated _ => []

def SchedulerRun.step (calendar : UtcCalendar) (s : SchedulerRun) :
    SchedulerMove → Option SchedulerRun
  | .scanOnce nowMs maxClaimsPerSchedule surroundings answers =>
    let (reply, file) :=
      surroundings.run calendar (.claimDueSlots nowMs maxClaimsPerSchedule) s.file
    some ⟨file, s.executions ++ startExecutions answers reply⟩
  | .mark position surroundings =>
    match s.executions[position]? with
    | some ⟨claimed, call :: rest⟩ =>
      some ⟨(surroundings.run calendar call s.file).2, s.executions.set position ⟨claimed, rest⟩⟩
    | some ⟨_, []⟩ | none => none

/-! ### Phases -/

def ScheduleSlotPhase.stage : ScheduleSlotPhase → ℕ
  | .claimed => 0
  | .submitted => 1
  | .submitFailed | .completed | .failed | .timeout => 2

def ScheduleSlotPhase.Terminal (phase : ScheduleSlotPhase) : Prop := phase.stage = 2

instance (phase : ScheduleSlotPhase) : Decidable phase.Terminal :=
  inferInstanceAs (Decidable (_ = _))

/-- A file that a scheduler can start with: different schedules and records, and an end exactly for
the slots that have ended. -/
structure SchedulerState.Sound (calendar : UtcCalendar) (file : SchedulerState) : Prop where
  wellFormed : WellFormed calendar file.schedules
  pairs : (file.slots.map (·.pair)).Nodup
  finished : ∀ slot ∈ file.slots, slot.finishedAtMs.isSome ↔ slot.phase.Terminal

def schedulerRuns (calendar : UtcCalendar) : TransitionSystem SchedulerRun SchedulerMove where
  init s := s.file.Sound calendar ∧ s.executions = []
  step := SchedulerRun.step calendar

def runsFrom (calendar : UtcCalendar) (s : SchedulerRun) :
    TransitionSystem SchedulerRun SchedulerMove where
  init t := t = s
  step := SchedulerRun.step calendar

end KelvinClaw.Scheduler
