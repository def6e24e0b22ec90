import KelvinClaw.Core.Basic

/-!
# The run registry

The core runtime keeps one record for each run that was ever registered. Submitting a
request registers its run and spawns a task for it; the task marks the run running,
runs the brain and stores what came out.
-/

namespace KelvinClaw.Core

/-! ### Records -/

variable {ρ : Type}

/-- The status of a run, with the result of the brain or the text of its error. -/
inductive RunStatus (ρ : Type) where
  | accepted
  | running
  | completed (result : ρ)
  | failed (error : String)
  deriving DecidableEq, Repr

structure RunRecord (ρ : Type) where
  runId : String
  startedAtMs : ℕ
  endedAtMs : Option ℕ
  status : RunStatus ρ
  deriving DecidableEq, Repr

abbrev RunRegistry (ρ : Type) := String → Option (RunRecord ρ)

namespace RunRegistry

variable (registry : RunRegistry ρ) (runId : String)

def register (startedAtMs : ℕ) : KelvinResult (RunRegistry ρ) :=
  if (registry runId).isSome then
    .error (.invalidInput s!"run id already exists: {runId}")
  else
    .ok (Function.update registry runId (some ⟨runId, startedAtMs, none, .accepted⟩))

def getRecord : KelvinResult (RunRecord ρ) :=
  match registry runId with
  | none => .error (.notFound s!"unknown run id: {runId}")
  | some record => .ok record

/-- Write a record that `get_record` found. -/
def modify (change : RunRecord ρ → RunRecord ρ) : KelvinResult (RunRegistry ρ) :=
  (registry.getRecord runId).map fun record =>
    Function.update registry runId (some (change record))

def markRunning : KelvinResult (RunRegistry ρ) :=
  registry.modify runId fun record => { record with status := .running }

/-- The part of `mark_completed` under the record's lock. -/
def markCompleted (result : ρ) (nowMs : ℕ) : KelvinResult (RunRegistry ρ) :=
  registry.modify runId fun record =>
    { record with endedAtMs := some nowMs, status := .completed result }

/-- The part of `mark_failed` under the record's lock. -/
def markFailed (error : String) (nowMs : ℕ) : KelvinResult (RunRegistry ρ) :=
  registry.modify runId fun record =>
    { record with endedAtMs := some nowMs, status := .failed error }

end RunRegistry

/-! ### Reading a record -/

inductive RunPhase where
  | accepted
  | running
  | completed
  | failed
  deriving DecidableEq, Repr

structure RunState where
  runId : String
  phase : RunPhase
  startedAtMs : ℕ
  endedAtMs : Option ℕ
  error : Option String
  deriving DecidableEq, Repr

def RunRegistry.state (registry : RunRegistry ρ) (runId : String) : KelvinResult RunState :=
  (registry.getRecord runId).map fun record =>
    let (phase, error) := match record.status with
      | .accepted => (RunPhase.accepted, none)
      | .running => (RunPhase.running, none)
      | .completed _ => (RunPhase.completed, none)
      | .failed error => (RunPhase.failed, some error)
    ⟨record.runId, phase, record.startedAtMs, record.endedAtMs, error⟩

inductive StoredRunResult (ρ : Type) where
  | completed (result : ρ)
  | failed (error : String)
  deriving DecidableEq, Repr

def RunRecord.storedResult (record : RunRecord ρ) : Option (StoredRunResult ρ) :=
  match record.status with
  | .completed result => some (.completed result)
  | .failed error => some (.failed error)
  | .accepted | .running => none

def RunRegistry.result (registry : RunRegistry ρ) (runId : String) :
    KelvinResult (Option (StoredRunResult ρ)) :=
  (registry.getRecord runId).map RunRecord.storedResult

inductive WaitStatus where
  | ok
  | error
  | timeout
  deriving DecidableEq, Repr

structure AgentWaitResult where
  status : WaitStatus
  startedAtMs : ℕ
  endedAtMs : Option ℕ
  error : Option String
  deriving DecidableEq, Repr

/-- What `wait` returns when it finds the run terminated. -/
def RunRecord.waitResult (record : RunRecord ρ) : Option AgentWaitResult :=
  match record.status with
  | .completed _ => some ⟨.ok, record.startedAtMs, record.endedAtMs, none⟩
  | .failed error => some ⟨.error, record.startedAtMs, record.endedAtMs, some error⟩
  | .accepted | .running => none

/-- What `wait` returns when its timer ends, for a run with the given start. -/
def AgentWaitResult.timedOut (startedAtMs : ℕ) : AgentWaitResult :=
  ⟨.timeout, startedAtMs, none, none⟩

/-- A wait that finds its run terminated does not return a timeout. -/
theorem RunRecord.status_of_waitResult {record : RunRecord ρ} {result : AgentWaitResult}
    (terminal : record.waitResult = some result) : result.status ≠ .timeout := by
  unfold waitResult at terminal
  split at terminal <;> cases terminal <;> simp

theorem RunRecord.storedResult_eq_none {record : RunRecord ρ} :
    record.storedResult = none ↔ record.waitResult = none := by
  unfold storedResult waitResult
  cases record.status <;> simp

/-! ### Submission -/

structure AgentRunRequest where
  runId : String
  sessionId : String
  sessionKey : String
  workspaceDir : String
  prompt : String
  extraSystemPrompt : Option String
  timeoutMs : Option ℕ
  memoryQuery : Option String
  maxToolIterations : Option ℕ
  deriving DecidableEq, Repr

structure RunAccepted where
  runId : String
  acceptedAtMs : ℕ
  deriving DecidableEq, Repr

/-- The registry, and the requests of the tasks spawned so far. -/
structure CoreRuntime (ρ : Type) where
  registry : RunRegistry ρ
  spawned : List AgentRunRequest

/-- `CoreRuntime::submit`, with the times at which the run is registered and accepted. -/
def CoreRuntime.submit (core : CoreRuntime ρ) (req : AgentRunRequest)
    (startedAtMs acceptedAtMs : ℕ) : KelvinResult RunAccepted × CoreRuntime ρ :=
  match core.registry.register req.runId startedAtMs with
  | .error err => (.error err, core)
  | .ok registry => (.ok ⟨req.runId, acceptedAtMs⟩, ⟨registry, core.spawned ++ [req]⟩)

variable {core : CoreRuntime ρ} {req : AgentRunRequest} (startedAtMs acceptedAtMs : ℕ)

theorem CoreRuntime.submit_of_fresh (fresh : core.registry req.runId = none) :
    core.submit req startedAtMs acceptedAtMs =
      (.ok ⟨req.runId, acceptedAtMs⟩,
        ⟨Function.update core.registry req.runId
            (some ⟨req.runId, startedAtMs, none, .accepted⟩), core.spawned ++ [req]⟩) := by
  simp [submit, RunRegistry.register, fresh]

theorem CoreRuntime.submit_of_known (known : (core.registry req.runId).isSome) :
    core.submit req startedAtMs acceptedAtMs =
      (.error (.invalidInput s!"run id already exists: {req.runId}"), core) := by
  simp [submit, RunRegistry.register, known]

end KelvinClaw.Core
