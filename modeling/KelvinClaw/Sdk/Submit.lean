import KelvinClaw.Core.RunRegistry
import KelvinClaw.Core.Text
import KelvinClaw.Core.Tool

/-!
# Run submission in the SDK

`KelvinSdkRuntime::submit` checks the prompt, calls the CLI plugin, submits the run to
the core runtime and then writes a record of the run to disk. The record is written
after the run was registered and its task spawned, and an error of that last stage is
the error of the submission.
-/

namespace KelvinClaw.Sdk

open KelvinClaw.Core

variable {ρ : Type}

/-! ### Run records on disk -/

/-- The run record files by path. A file whose content is not JSON is `some none`. -/
abbrev RunFiles := String → Option (Option Value)

/-- The step at which an atomic write fails. -/
inductive WriteStep where
  | createTempFile
  | writeTempFile
  | syncTempFile
  | replaceFile
  deriving DecidableEq, Repr

def WriteStep.label : WriteStep → String
  | .createTempFile => "create temp file"
  | .writeTempFile => "write temp file"
  | .syncTempFile => "sync temp file"
  | .replaceFile => "replace file"

/-- The outcomes of the storage steps: the error of reading a file that exists, and the
step of an atomic write that fails. -/
structure Storage where
  readError : Option String
  writeError : Option (WriteStep × String)
  deriving DecidableEq, Repr

def Storage.healthy : Storage := ⟨none, none⟩

/-- `write_atomic`: the file is replaced by the last step, or not at all. -/
def writeAtomic (storage : Storage) (path : String) (content : Value) (files : RunFiles) :
    KelvinResult Unit × RunFiles :=
  match storage.writeError with
  | some (step, err) => (.error (.io s!"{step.label}: {err}"), files)
  | none => (.ok (), Function.update files path (some (some content)))

theorem exists_error_writeAtomic {storage : Storage} {path : String} {content : Value}
    {files : RunFiles} : (∃ err, (writeAtomic storage path content files).1 = .error err) ↔
      storage.writeError.isSome := by
  unfold writeAtomic
  cases storage.writeError <;> simp

/-- Where run records go; `keyHex` is the hash that names their files. -/
structure RuntimePersistence where
  stateDir : Option String
  persistRuns : Bool
  keyHex : String → String

namespace RuntimePersistence

variable (persistence : RuntimePersistence) (storage : Storage) (files : RunFiles)
  (runId : String)

def runFileFor : Option String :=
  persistence.stateDir.map fun root => s!"{root}/runs/{persistence.keyHex runId}.json"

/-- The members of the record on disk, none for a file that is no JSON object. -/
def currentMembers : Option (Option Value) → List (String × Value)
  | some (some (.obj members)) => members
  | _ => []

/-- `persist_run_record`: members of the given record overwrite those on disk. -/
def persistRunRecord (record : List (String × Value)) (nowMs : ℕ) :
    KelvinResult Unit × RunFiles :=
  if ¬ persistence.persistRuns then (.ok (), files)
  else
    match persistence.runFileFor runId with
    | none => (.ok (), files)
    | some path =>
      match files path, storage.readError with
      | some _, some err => (.error (.io s!"read run record: {err}"), files)
      | current, _ =>
        let stamped := Value.insertMember "updated_at_ms" (.num nowMs)
          (Value.insertMember "run_id" (.str runId) (currentMembers current))
        let merged := record.foldl
          (fun members member => Value.insertMember member.1 member.2 members) stamped
        writeAtomic storage path (.obj merged) files

def FailsToPersist : Prop :=
  persistence.persistRuns ∧ ∃ path, persistence.runFileFor runId = some path ∧
    (((files path).isSome ∧ storage.readError.isSome) ∨ storage.writeError.isSome)

theorem exists_error_persistRunRecord (record : List (String × Value)) (nowMs : ℕ) :
    (∃ err, (persistence.persistRunRecord storage files runId record nowMs).1 = .error err) ↔
      persistence.FailsToPersist storage files runId := by
  unfold persistRunRecord FailsToPersist
  cases persistence.persistRuns with
  | false => simp
  | true =>
    cases persistence.runFileFor runId with
    | none => simp
    | some path =>
      -- a missing file is not read, so only the write can fail there
      cases present : files path with
      | none => simp [present, exists_error_writeAtomic]
      | some content =>
        cases storage.readError with
        | none => simp [present, exists_error_writeAtomic]
        | some err => simp [present]

end RuntimePersistence

/-! ### Submission -/

structure KelvinSdkRunRequest where
  prompt : String
  sessionId : Option String
  workspaceDir : Option String
  timeoutMs : Option ℕ
  systemPrompt : Option String
  memoryQuery : Option String
  runId : Option String
  deriving DecidableEq, Repr

/-- `KelvinSdkRunRequest::for_prompt`. -/
def KelvinSdkRunRequest.forPrompt (prompt : String) : KelvinSdkRunRequest :=
  ⟨prompt, none, none, none, none, none, none⟩

structure KelvinSdkAcceptedRun where
  runId : String
  acceptedAtMs : ℕ
  cliPluginPreflight : Option String
  deriving DecidableEq, Repr

/-- What a submission takes from its surroundings: a fresh UUID, the summary or the
error of the CLI plugin's call, the storage steps and the times. -/
structure SubmitEnv where
  uuid : String
  cliPluginCall : ToolCallInput → KelvinResult String
  storage : Storage
  startedAtMs : ℕ
  acceptedAtMs : ℕ
  updatedAtMs : ℕ

/-- The configuration that `submit` reads. -/
structure KelvinSdkRuntime where
  defaultSessionId : String
  defaultWorkspaceDir : String
  defaultTimeoutMs : ℕ
  defaultSystemPrompt : Option String
  hasCliPluginTool : Bool
  persistence : RuntimePersistence

/-- The state that `submit` changes. -/
structure RuntimeState (ρ : Type) where
  core : CoreRuntime ρ
  files : RunFiles

namespace KelvinSdkRuntime

variable (runtime : KelvinSdkRuntime) (env : SubmitEnv) (request : KelvinSdkRunRequest)
  (state : RuntimeState ρ)

def runIdFor : String := request.runId.getD s!"run-{env.uuid}"

def preflight : KelvinResult (Option String) :=
  if runtime.hasCliPluginTool then
    (env.cliPluginCall
      { runId := runIdFor env request
        sessionId := request.sessionId.getD runtime.defaultSessionId
        workspaceDir := request.workspaceDir.getD runtime.defaultWorkspaceDir
        arguments := .object [("prompt", .str (trim request.prompt))] }).map some
  else .ok none

def coreRequest : AgentRunRequest :=
  let sessionId := request.sessionId.getD runtime.defaultSessionId
  { runId := runIdFor env request
    sessionId := sessionId
    sessionKey := sessionId
    workspaceDir := request.workspaceDir.getD runtime.defaultWorkspaceDir
    prompt := trim request.prompt
    extraSystemPrompt := request.systemPrompt.or runtime.defaultSystemPrompt
    timeoutMs := some (request.timeoutMs.getD runtime.defaultTimeoutMs)
    memoryQuery := request.memoryQuery
    maxToolIterations := none }

@[simp] theorem coreRequest_runId :
    (runtime.coreRequest env request).runId = runIdFor env request := rfl

def acceptedRecord (acceptedAtMs : ℕ) : List (String × Value) :=
  [("accepted_at_ms", .num acceptedAtMs),
    ("session_id", .str (request.sessionId.getD runtime.defaultSessionId)),
    ("workspace_dir", .str (request.workspaceDir.getD runtime.defaultWorkspaceDir)),
    ("prompt_length", .num (trim request.prompt).utf8ByteSize)]

/-- `KelvinSdkRuntime::submit`. -/
def submit : KelvinResult KelvinSdkAcceptedRun × RuntimeState ρ :=
  if trim request.prompt = "" then
    (.error (.invalidInput "prompt must not be empty"), state)
  else
    match runtime.preflight env request with
    | .error err => (.error err, state)
    | .ok cliPluginPreflight =>
      let submitted :=
        state.core.submit (runtime.coreRequest env request) env.startedAtMs env.acceptedAtMs
      match submitted.1 with
      | .error err => (.error err, { state with core := submitted.2 })
      | .ok accepted =>
        -- the run is registered and its task spawned before its record is written
        let persisted := runtime.persistence.persistRunRecord env.storage state.files
          accepted.runId (runtime.acceptedRecord request accepted.acceptedAtMs) env.updatedAtMs
        let after := { core := submitted.2, files := persisted.2 }
        match persisted.1 with
        | .error err => (.error err, after)
        | .ok () => (.ok ⟨accepted.runId, accepted.acceptedAtMs, cliPluginPreflight⟩, after)

/-! ### What a submission does -/

def Starts : Prop :=
  trim request.prompt ≠ "" ∧ (∃ summary, runtime.preflight env request = .ok summary) ∧
    state.core.registry (runIdFor env request) = none

instance : Decidable (runtime.Starts env request state) :=
  have : Decidable (∃ summary, runtime.preflight env request = .ok summary) :=
    match runtime.preflight env request with
    | .ok summary => .isTrue ⟨summary, rfl⟩
    | .error _ => .isFalse nofun
  inferInstanceAs (Decidable (_ ∧ _ ∧ _))

/-- The run is started, and then a storage step of writing its record goes wrong. -/
def FailsAfterStart : Prop :=
  runtime.Starts env request state ∧
    runtime.persistence.FailsToPersist env.storage state.files (runIdFor env request)

/-- A submission that fails has neither registered nor started a run. -/
def Atomic : Prop :=
  ∀ err, (runtime.submit env request state).1 = .error err →
    (runtime.submit env request state).2.core = state.core

variable {runtime env request state}

/-- A submission that does not get as far as the start fails and changes nothing. -/
theorem submit_of_not_starts (stops : ¬ runtime.Starts env request state) :
    ∃ err, runtime.submit env request state = (.error err, state) := by
  unfold submit
  by_cases blank : trim request.prompt = ""
  · exact ⟨_, if_pos blank⟩
  · rw [if_neg blank]
    cases called : runtime.preflight env request with
    | error err => exact ⟨err, rfl⟩
    | ok summary =>
      have known : (state.core.registry (runtime.coreRequest env request).runId).isSome := by
        rw [← Option.ne_none_iff_isSome]
        exact fun fresh => stops ⟨blank, ⟨summary, called⟩, fresh⟩
      simp only [CoreRuntime.submit_of_known env.startedAtMs env.acceptedAtMs known]
      exact ⟨_, rfl⟩

/-- A submission that gets as far as the start has started one run, and fails exactly when
the record of the run cannot be written. -/
theorem submit_of_starts (starts : runtime.Starts env request state) :
    (runtime.submit env request state).2.core.spawned =
        state.core.spawned ++ [runtime.coreRequest env request] ∧
      ((∃ err, (runtime.submit env request state).1 = .error err) ↔
        runtime.FailsAfterStart env request state) ∧
      ∀ accepted, (runtime.submit env request state).1 = .ok accepted →
        accepted.runId = runIdFor env request := by
  have ⟨nonblank, ⟨summary, called⟩, fresh⟩ := starts
  have submitted : state.core.submit (runtime.coreRequest env request) _ _ = _ :=
    CoreRuntime.submit_of_fresh env.startedAtMs env.acceptedAtMs fresh
  have persists := runtime.persistence.exists_error_persistRunRecord env.storage state.files
    (runIdFor env request) (runtime.acceptedRecord request env.acceptedAtMs) env.updatedAtMs
  unfold submit FailsAfterStart
  rw [if_neg nonblank, called]
  simp only [submitted, and_iff_right starts, ← persists, coreRequest_runId]
  cases (runtime.persistence.persistRunRecord env.storage state.files (runIdFor env request)
    (runtime.acceptedRecord request env.acceptedAtMs) env.updatedAtMs).1 with
  | error err => simp
  | ok _ => simp

theorem atomic_iff : runtime.Atomic env request state ↔
    ¬ runtime.FailsAfterStart env request state := by
  by_cases starts : runtime.Starts env request state
  · obtain ⟨spawned, fails, _⟩ := submit_of_starts starts
    constructor
    · intro atomic lost
      obtain ⟨err, failed⟩ := fails.mpr lost
      -- the list of spawned tasks has grown, so the core runtime is not what it was
      have unchanged := congrArg CoreRuntime.spawned (atomic err failed)
      rw [spawned] at unchanged
      simp at unchanged
    · intro records err failed
      exact absurd (fails.mp ⟨err, failed⟩) records
  · obtain ⟨err, stops⟩ := submit_of_not_starts starts
    constructor
    · intro _ lost
      exact starts lost.1
    · intro _ _ _
      rw [stops]

/-! ### Retries -/

variable (runtime request) in
/-- The runs started by a client that submits one request until it is accepted. Others
move in between, so the state before each attempt is arbitrary. -/
def executions : List (SubmitEnv × RuntimeState ρ) → List AgentRunRequest
  | [] => []
  | (env, state) :: later =>
    let submitted := runtime.submit env request state
    let started := submitted.2.core.spawned.drop state.core.spawned.length
    match submitted.1 with
    | .ok _ => started
    | .error _ => started ++ executions later

theorem length_executions_le {attempts : List (SubmitEnv × RuntimeState ρ)}
    (records : ∀ attempt ∈ attempts, ¬ runtime.FailsAfterStart attempt.1 request attempt.2) :
    (runtime.executions request attempts).length ≤ 1 := by
  induction attempts with
  | nil => exact Nat.zero_le 1
  | cons attempt later ih =>
    obtain ⟨env, state⟩ := attempt
    obtain ⟨recordsNow, recordsLater⟩ := List.forall_mem_cons.mp records
    unfold executions
    by_cases starts : runtime.Starts env request state
    · -- the run is started and its record written, so the client stops here
      obtain ⟨spawned, fails, _⟩ := submit_of_starts starts
      cases result : (runtime.submit env request state).1 with
      | error err => exact absurd (fails.mp ⟨err, result⟩) recordsNow
      | ok accepted => simp [spawned, result]
    · obtain ⟨err, stops⟩ := submit_of_not_starts starts
      simpa [stops] using ih recordsLater

/-- **Atomic submission.** A submission leaves the core runtime as it was when it fails,
exactly when it does not fail after the start; and a client that submits one request until
it is accepted starts one run at most, when no attempt fails after the start. -/
theorem submit_atomic_iff (runtime : KelvinSdkRuntime) (request : KelvinSdkRunRequest) :
    (∀ env (state : RuntimeState ρ),
      runtime.Atomic env request state ↔ ¬ runtime.FailsAfterStart env request state) ∧
    ∀ attempts : List (SubmitEnv × RuntimeState ρ),
      (∀ attempt ∈ attempts, ¬ runtime.FailsAfterStart attempt.1 request attempt.2) →
        (runtime.executions request attempts).length ≤ 1 :=
  ⟨fun _ _ => atomic_iff, fun _ => length_executions_le⟩

end KelvinSdkRuntime

/-! ### A disk that is full for a moment -/

def plainRuntime : KelvinSdkRuntime where
  defaultSessionId := "main"
  defaultWorkspaceDir := "/work"
  defaultTimeoutMs := 30000
  defaultSystemPrompt := none
  hasCliPluginTool := false
  persistence := ⟨some "/state", true, id⟩

/-- A submission at the given time, with the given storage steps. -/
def submitAt (nowMs : ℕ) (uuid : String) (storage : Storage) : SubmitEnv where
  uuid := uuid
  cliPluginCall _ := .error (.backend "no plugin")
  storage := storage
  startedAtMs := nowMs
  acceptedAtMs := nowMs
  updatedAtMs := nowMs

def idle : RuntimeState Unit := ⟨⟨fun _ => none, []⟩, fun _ => none⟩

theorem healthy_submission_runs_once :
    plainRuntime.Atomic (submitAt 1000 "a" .healthy) (.forPrompt "hello") idle ∧
      (plainRuntime.executions (.forPrompt "hello")
        [(submitAt 1000 "a" .healthy, idle)]).length ≤ 1 := by
  have ⟨atomic, once⟩ := KelvinSdkRuntime.submit_atomic_iff (ρ := Unit) plainRuntime
    (.forPrompt "hello")
  have records : ¬ plainRuntime.FailsAfterStart (submitAt 1000 "a" .healthy)
      (.forPrompt "hello") idle := by
    rintro ⟨-, -, path, -, reads | writes⟩
    · exact absurd reads.1 Bool.false_ne_true
    · exact absurd writes Bool.false_ne_true
  exact ⟨(atomic _ _).mpr records, once _ (by simpa using records)⟩

def fullDisk : SubmitEnv :=
  submitAt 1000 "a" ⟨none, some (.writeTempFile, "No space left on device")⟩

/-- A submission whose record cannot be written fails although its run has started, and the
retry starts a second run of the same prompt. -/
theorem failed_submission_runs_twice :
    ¬ plainRuntime.Atomic fullDisk (.forPrompt "hello") idle ∧
      (plainRuntime.executions (.forPrompt "hello")
        [(fullDisk, idle), (submitAt 2000 "b" .healthy,
          (plainRuntime.submit fullDisk (.forPrompt "hello") idle).2)]).map
        AgentRunRequest.prompt = ["hello", "hello"] := by
  constructor
  · rw [KelvinSdkRuntime.atomic_iff, not_not]
    exact ⟨⟨by decide, ⟨none, rfl⟩, rfl⟩, rfl, _, rfl, .inr rfl⟩
  · decide +kernel

end KelvinClaw.Sdk
