import KelvinClaw.Scheduler.Store
import KelvinClaw.Sdk.ToolPack

/-!
# Sensitive operations of the tool pack

Three tools of the pack change something outside of the session: one writes files of the
workspace, one sends requests, one changes the schedules. With the clearing of notes these are
the operations that have a switch in the policy and need an approval among their arguments.
-/

namespace KelvinClaw.Sdk

open Systems KelvinClaw.Core KelvinClaw.Scheduler

/-! ### Writing a file -/

structure WriteEnvironment where
  workingDir : Location
  policy : ToolPackPolicy
  toJsonText : Value → String

/-- How the system answers during a call, where the files do not decide it. A failed write
leaves a part of the text behind. -/
structure WriteSurroundings where
  createDirFails : Option (ℕ × String)
  openFails : Option String
  writeFails : Option (ℕ × String)
  conflict : String

namespace SafeFsWriteTool

def toolName : String := "fs_safe_write"

def defaultFsWriteScope : List String := [".kelvinclaw/sandbox/", "memory/", "notes/"]

def writeScopeAllowed (path : String) : Bool :=
  defaultFsWriteScope.any fun start => start.toList.isPrefixOf path.toList

def makeDirectory (conflict : String) (place : Location) : WorkspaceAction PUnit := do
  let held ← Action.look place
  match held with
  | some .directory => pure ⟨⟩
  | some (.file _) => Action.fail (.io conflict)
  | none => Action.put place (some .directory)

def makeDirectories (conflict : String) : List Location → WorkspaceAction PUnit
  | [] => pure ⟨⟩
  | place :: rest => do
    makeDirectory conflict place
    makeDirectories conflict rest

/-- `create_dir_all` of the parent of a path. -/
def createParent (env : WriteEnvironment) (surroundings : WriteSurroundings) (path : String) :
    WorkspaceAction PUnit :=
  let places := SessionToolsTool.directoriesAbove env.workingDir path
  if hasNul path then Action.fail (.io SessionToolsTool.nulMessage)
  else
    match surroundings.createDirFails with
    | none => makeDirectories surroundings.conflict places
    | some (made, err) => do
      makeDirectories surroundings.conflict (places.take made)
      Action.fail (.io err)

/-- `OpenOptions::open`: what the file holds in front of the text. -/
def openFile (surroundings : WriteSurroundings) (place : Location) (append : Bool) :
    WorkspaceAction (List UInt8) := do
  let held ← Action.look place
  match held, surroundings.openFails with
  | some .directory, _ => Action.fail (.io surroundings.conflict)
  | _, some err => Action.fail (.io err)
  | some (.file bytes), none => do
    let start := if append then bytes else []
    Action.log (.wrote place)
    Action.put place (some (.file start))
    pure start
  | none, none => do
    Action.log (.wrote place)
    Action.put place (some (.file []))
    pure []

/-- `write_all`. -/
def writeAll (surroundings : WriteSurroundings) (place : Location) (start bytes : List UInt8) :
    WorkspaceAction PUnit :=
  match surroundings.writeFails with
  | none => Action.put place (some (.file (start ++ bytes)))
  | some (written, err) => do
    Action.put place (some (.file (start ++ bytes.take written)))
    Action.fail (.io err)

def writeFile (env : WriteEnvironment) (surroundings : WriteSurroundings) (path : String)
    (append : Bool) (content : String) : WorkspaceAction PUnit := do
  createParent env surroundings path
  match filePlace env.workingDir path with
  | none => Action.fail (.io surroundings.conflict)
  | some place => do
    let start ← openFile surroundings place append
    writeAll surroundings place start content.toUTF8.data.toList

def resultOf (env : WriteEnvironment) (path mode content approvalReason : String) :
    ToolCallResult :=
  let output := Value.object [("path", .str path), ("mode", .str mode),
    ("bytes_written", .num content.utf8ByteSize), ("approval_reason", .str approvalReason)]
  let summary := s!"{toolName} wrote {content.utf8ByteSize} bytes to '{path}' ({mode})"
  { summary := summary, output := some (env.toJsonText output), visibleText := some summary
    isError := false }

def call (env : WriteEnvironment) (surroundings : WriteSurroundings) (input : ToolCallInput) :
    WorkspaceAction ToolCallResult :=
  if ¬ env.policy.allowFsWrite then
    Action.fail (.invalidInput (s!"{toolName} is disabled by runtime policy; " ++
      "set KELVIN_TOOLPACK_ENABLE_FS_WRITE=1 to enable"))
  else do
    let args ← Action.ofExcept (argsObject input.arguments toolName)
    let approvalReason ← Action.ofExcept (requireSensitiveApproval args "filesystem_write")
    let text ← Action.ofExcept (requiredString args "path" toolName)
    let path ← Action.ofExcept (normalizeWorkspaceRelativePath text "path")
    if ¬ writeScopeAllowed path then
      Action.fail (.invalidInput (s!"{toolName} denied path '{path}'; " ++
        "allowed roots are .kelvinclaw/sandbox/, memory/, notes/"))
    else do
      let content ← Action.ofExcept (requiredStringContent args "content" toolName)
      let requested ← Action.ofExcept (optionalString args "mode" toolName)
      let mode := toAsciiLowercase (requested.getD "overwrite")
      if mode ≠ "overwrite" ∧ mode ≠ "append" then
        Action.fail (.invalidInput
          s!"{toolName} argument 'mode' must be 'overwrite' or 'append'")
      else do
        writeFile env surroundings (join input.workspaceDir path) (mode = "append") content
        pure (resultOf env path mode content approvalReason)

end SafeFsWriteTool

/-! ### Fetching from the web -/

/-- A parsed address. -/
structure ParsedUrl where
  scheme : String
  hostStr : Option String
  asStr : String
  deriving DecidableEq, Repr

structure FetchResponse where
  status : ℕ
  contentType : Option String
  body : Except String (List UInt8)

/-- A request that is sent. -/
structure FetchRequest where
  url : ParsedUrl
  timeoutMs : ℕ
  deriving DecidableEq, Repr

/-- What is fixed for the process, with the parser of addresses. -/
structure FetchEnvironment where
  policy : ToolPackPolicy
  parseUrl : String → Except String ParsedUrl
  toJsonText : Value → String
  fromUtf8Lossy : List UInt8 → String

abbrev FetchAction := Action Unit FetchRequest KelvinError

namespace SafeWebFetchTool

def toolName : String := "web_fetch_safe"

def defaultFetchTimeoutMs : ℕ := 3000

def hostAllowed (host : String) (allowlist : List String) : Bool :=
  let candidate := toAsciiLowercase (trim host)
  candidate ≠ "" && allowlist.any fun pattern =>
    if "*.".toList.isPrefixOf pattern.toList then
      let suffix := pattern.toList.drop 2
      candidate.toList == suffix || ('.' :: suffix).isSuffixOf candidate.toList
    else candidate == pattern

/-- `get`, `timeout` and `send`, with what the network answers. -/
def send (respond : FetchRequest → Except String FetchResponse) (request : FetchRequest) :
    FetchAction FetchResponse := do
  Action.log request
  match respond request with
  | .ok response => pure response
  | .error err => Action.fail (.backend s!"{toolName} request failed: {err}")

def resultOf (env : FetchEnvironment) (url : ParsedUrl) (host : String) (response : FetchResponse)
    (bytes : List UInt8) (approvalReason : String) : ToolCallResult :=
  let output := Value.object [("url", .str url.asStr), ("host", .str host),
    ("status", .num response.status), ("content_type", Value.ofOption response.contentType),
    ("bytes", .num bytes.length), ("body", .str (env.fromUtf8Lossy bytes)),
    ("approval_reason", .str approvalReason)]
  let summary :=
    s!"{toolName} fetched {url.asStr} (status={response.status}, bytes={bytes.length})"
  { summary := summary, output := some (env.toJsonText output), visibleText := some summary
    isError := decide (400 ≤ response.status) }

def fetch (env : FetchEnvironment) (respond : FetchRequest → Except String FetchResponse)
    (url : ParsedUrl) (host : String) (timeoutMs maxBytes : ℕ) (approvalReason : String) :
    FetchAction ToolCallResult := do
  let response ← send respond ⟨url, timeoutMs⟩
  match response.body with
  | .error err => Action.fail (.backend s!"{toolName} read body failed: {err}")
  | .ok bytes =>
    if maxBytes < bytes.length then
      Action.fail (.invalidInput
        s!"{toolName} response size {bytes.length} exceeds limit {maxBytes}")
    else pure (resultOf env url host response bytes approvalReason)

def call (env : FetchEnvironment) (respond : FetchRequest → Except String FetchResponse)
    (input : ToolCallInput) : FetchAction ToolCallResult :=
  if ¬ env.policy.allowWebFetch then
    Action.fail (.invalidInput (s!"{toolName} is disabled by runtime policy; " ++
      "set KELVIN_TOOLPACK_ENABLE_WEB_FETCH=1 to enable"))
  else do
    let args ← Action.ofExcept (argsObject input.arguments toolName)
    let approvalReason ← Action.ofExcept (requireSensitiveApproval args "web_fetch")
    let urlRaw ← Action.ofExcept (requiredString args "url" toolName)
    let requestedTimeout ← Action.ofExcept (optionalU64 args "timeout_ms" toolName)
    let timeoutMs := min (max (requestedTimeout.getD defaultFetchTimeoutMs) 100) 30000
    let requestedBytes ← Action.ofExcept (optionalU64 args "max_bytes" toolName)
    let limit := env.policy.maxFetchBytes
    let maxBytes := max ((requestedBytes.map (clampUsize · limit)).getD limit) 1
    match env.parseUrl urlRaw with
    | .error err =>
      Action.fail (.invalidInput s!"{toolName} invalid url '{urlRaw}': {err}")
    | .ok parsed =>
      let scheme := toAsciiLowercase parsed.scheme
      if scheme ≠ "https" ∧ scheme ≠ "http" then
        Action.fail (.invalidInput s!"{toolName} only supports http/https urls")
      else
        match parsed.hostStr with
        | none => Action.fail (.invalidInput s!"{toolName} url host is required")
        | some host =>
          if ¬ hostAllowed host env.policy.webAllowHosts then
            let hosts := ",".intercalate env.policy.webAllowHosts
            Action.fail (.invalidInput
              s!"{toolName} denied host '{host}'; allowed hosts: {hosts}")
          else fetch env respond parsed host timeoutMs maxBytes approvalReason

end SafeWebFetchTool

/-! ### Changing the schedules -/

/-- What is fixed for the process. `fromValue` reads a reply target from JSON. -/
structure SchedulerEnvironment where
  calendar : UtcCalendar
  policy : ToolPackPolicy
  fromValue : Value → Except String ScheduleReplyTarget
  toJsonText : Value → String
  statePath : String

/-- How the clock and the file of the store answer during a call. -/
structure SchedulerSurroundings where
  /-- The clock, for the id of a task without one and for its creation. -/
  nowMs : ℕ
  createdAtMs : ℕ
  /-- The clock of the store, when it checks a task and when it makes the audit entry. -/
  storeNowMs : ℕ
  auditMs : ℕ
  readError : Option String
  saveError : Option String
  listReadError : Option String

abbrev StoreAction := Action SchedulerState Mutator KelvinError

def replyResult : Reply → KelvinResult Unit
  | .task result => result.map fun _ => ()
  | .removed result => result.map fun _ => ()
  | .claimed result => result.map fun _ => ()
  | .updated result => result

namespace SchedulerTool

def toolName : String := "schedule_cron"

def change (env : SchedulerEnvironment) (surroundings : SchedulerSurroundings)
    (mutator : Mutator) : StoreAction Unit := do
  Action.log mutator
  let file ← Action.get
  let call : Call := ⟨mutator, surroundings.storeNowMs, surroundings.auditMs,
    surroundings.readError, surroundings.saveError.getD ""⟩
  match (store env.calendar).load call file with
  | .answer reply => Action.ofExcept (replyResult reply)
  | .store next reply failed =>
    match surroundings.saveError with
    | some _ => Action.ofExcept (replyResult failed)
    | none => do
      Action.modify fun _ => next
      Action.ofExcept (replyResult reply)

def parseReplyTarget (env : SchedulerEnvironment) (args : List (String × Value)) :
    KelvinResult (Option ScheduleReplyTarget) :=
  match Value.lookup "reply_target" args with
  | none => .ok none
  | some value =>
    match env.fromValue value with
    | .ok target => .ok (some target)
    | .error err => .error (.invalidInput s!"{toolName} invalid reply_target payload: {err}")

/-- The task that the arguments of an addition describe. -/
def newTask (env : SchedulerEnvironment) (surroundings : SchedulerSurroundings)
    (input : ToolCallInput) (args : List (String × Value)) (approvalReason : String) :
    KelvinResult NewScheduledTask := do
  let asked ← optionalString args "prompt" toolName
  let task ← optionalString args "task" toolName
  match asked.or task with
  | none => .error (.invalidInput "schedule_cron add requires 'task' or 'prompt'")
  | some prompt =>
    let replyTarget ← parseReplyTarget env args
    let id ← optionalString args "id" toolName
    let cron ← requiredString args "cron" toolName
    let sessionId ← optionalString args "session_id" toolName
    let workspaceDir ← optionalString args "workspace_dir" toolName
    let timeoutMs ← optionalU64 args "timeout_ms" toolName
    let systemPrompt ← optionalString args "system_prompt" toolName
    let memoryQuery ← optionalString args "memory_query" toolName
    pure {
      id := id.getD s!"task-{surroundings.nowMs}"
      cron
      prompt
      sessionId
      workspaceDir := workspaceDir.or (some input.workspaceDir)
      timeoutMs
      systemPrompt
      memoryQuery
      replyTarget
      createdBySession := input.sessionId
      createdAtMs := surroundings.createdAtMs
      approvalReason }

def add (env : SchedulerEnvironment) (surroundings : SchedulerSurroundings)
    (input : ToolCallInput) (args : List (String × Value)) : StoreAction Unit :=
  if ¬ env.policy.allowSchedulerWrite then
    Action.fail (.invalidInput (s!"{toolName} add is disabled by runtime policy; " ++
      "set KELVIN_TOOLPACK_ENABLE_SCHEDULER_WRITE=1"))
  else do
    let approvalReason ← Action.ofExcept (requireSensitiveApproval args "schedule_mutation")
    let new ← Action.ofExcept (newTask env surroundings input args approvalReason)
    change env surroundings (.addSchedule new)

def remove (env : SchedulerEnvironment) (surroundings : SchedulerSurroundings)
    (input : ToolCallInput) (args : List (String × Value)) : StoreAction Unit :=
  if ¬ env.policy.allowSchedulerWrite then
    Action.fail (.invalidInput (s!"{toolName} remove is disabled by runtime policy; " ++
      "set KELVIN_TOOLPACK_ENABLE_SCHEDULER_WRITE=1"))
  else do
    let approvalReason ← Action.ofExcept (requireSensitiveApproval args "schedule_mutation")
    let id ← Action.ofExcept (requiredString args "id" toolName)
    change env surroundings (.removeSchedule id input.sessionId approvalReason)

def optionalNumber : Option ℕ → Value
  | none => .null
  | some n => .num n

def replyTargetValue : Option ScheduleReplyTarget → Value
  | none => .null
  | some target => Value.object
      [("channel", .str target.channel), ("account_id", .str target.accountId)]

def taskValue (schedule : ScheduledTask) : Value :=
  Value.object [("id", .str schedule.id), ("cron", .str schedule.cron),
    ("task", .str schedule.prompt), ("prompt", .str schedule.prompt),
    ("session_id", Value.ofOption schedule.sessionId),
    ("workspace_dir", Value.ofOption schedule.workspaceDir),
    ("timeout_ms", optionalNumber schedule.timeoutMs),
    ("system_prompt", Value.ofOption schedule.systemPrompt),
    ("memory_query", Value.ofOption schedule.memoryQuery),
    ("reply_target", replyTargetValue schedule.replyTarget),
    ("created_by_session", .str schedule.createdBySession),
    ("created_at_ms", .num schedule.createdAtMs),
    ("approval_reason", .str schedule.approvalReason),
    ("next_slot_at_ms", .num schedule.nextSlotAtMs)]

def resultOf (env : SchedulerEnvironment) (action : String) (schedules : List ScheduledTask) :
    ToolCallResult :=
  let count := schedules.length
  let output := Value.object [("action", .str action), ("count", .num count),
    ("tasks", .arr (schedules.map taskValue)), ("state_path", .str env.statePath)]
  let summary := s!"{toolName} action='{action}' tasks={count}"
  { summary := summary, output := some (env.toJsonText output), visibleText := some summary
    isError := false }

def requestedAction (args : List (String × Value)) : KelvinResult String := do
  let action ← optionalString args "action" toolName
  pure (toAsciiLowercase (action.getD "list"))

def perform (env : SchedulerEnvironment) (surroundings : SchedulerSurroundings)
    (input : ToolCallInput) (args : List (String × Value)) (action : String) :
    StoreAction Unit :=
  match action with
  | "list" => pure ()
  | "add" => add env surroundings input args
  | "remove" => remove env surroundings input args
  | _ => Action.fail (.invalidInput s!"{toolName} action must be one of: list, add, remove")

def call (env : SchedulerEnvironment) (surroundings : SchedulerSurroundings)
    (input : ToolCallInput) : StoreAction ToolCallResult := do
  let args ← Action.ofExcept (argsObject input.arguments toolName)
  let action ← Action.ofExcept (requestedAction args)
  perform env surroundings input args action
  let file ← Action.get
  let state ← Action.ofExcept (loadState surroundings.listReadError file)
  pure (resultOf env action state.schedules)

end SchedulerTool

/-! ### Approvals -/

/-- The arguments carry an approval: it is granted, for a reason that has 1 to 256 characters
when it is trimmed, none of them a control character. -/
def ValidApproval (arguments : Value) : Prop :=
  ∃ approval reason, (arguments.get "approval").bind Value.asObject = some approval ∧
    Value.lookup "granted" approval = some (.bool true) ∧
    Value.lookup "reason" approval = some (.str reason) ∧
    1 ≤ (trim reason).toList.length ∧ (trim reason).toList.length ≤ 256 ∧
    (trim reason).toList.any isControl = false

theorem validApproval_of_ok {arguments : Value} {toolName capability reason : String}
    {args : List (String × Value)} (found : argsObject arguments toolName = .ok args)
    (approved : requireSensitiveApproval args capability = .ok reason) :
    ValidApproval arguments := by
  have isObject : arguments = .obj args := by
    cases arguments <;> simp_all [argsObject, Value.asObject]
  subst isObject
  unfold requireSensitiveApproval at approved
  split at approved
  · cases approved
  · next approval member =>
    dsimp only at approved
    split_ifs at approved with granted empty invalid
    rw [not_or, Nat.not_lt, Bool.not_eq_true] at invalid
    have isTrue : Value.lookup "granted" approval = some (.bool true) := by
      cases given : Value.lookup "granted" approval with
      | none => simp [given] at granted
      | some value => cases value <;> simp_all [Value.asBool]
    cases given : Value.lookup "reason" approval with
    | none => simp [given] at empty
    | some value =>
      cases value with
      | str text =>
        simp only [given, Option.bind_some, Value.asStr, Option.map_some, Option.getD_some]
          at empty invalid
        refine ⟨approval, text, member, isTrue, given, ?_, invalid⟩
        rw [Nat.one_le_iff_ne_zero, ne_eq, List.length_eq_zero_iff]
        exact fun nil => empty (String.toList_inj.mp nil)
      | _ => simp [given, Value.asStr] at empty

/-- The switch of an operation is off, or its arguments carry no approval. -/
def Unapproved (switch : Bool) (input : ToolCallInput) : Prop :=
  switch = false ∨ ¬ ValidApproval input.arguments

theorem refuses_of_not_validApproval {σ ε α : Type} {arguments : Value} {toolName : String}
    {args : List (String × Value)} (found : argsObject arguments toolName = .ok args)
    (none : ¬ ValidApproval arguments) (capability : String) (s : σ)
    (next : String → Action σ ε KelvinError α) :
    Action.Refuses (Action.ofExcept (requireSensitiveApproval args capability) >>= next) s := by
  apply Action.refuses_check
  intro reason approved
  exact absurd (validApproval_of_ok found approved) none

theorem SafeFsWriteTool.refuses_of_unapproved {env : WriteEnvironment} {input : ToolCallInput}
    (unapproved : Unapproved env.policy.allowFsWrite input) (surroundings : WriteSurroundings)
    (files : WorkspaceFiles) : Action.Refuses (call env surroundings input) files := by
  unfold call
  split_ifs with switch
  · apply Action.refuses_check
    intro args found
    exact refuses_of_not_validApproval found (unapproved.resolve_left (by simp [switch])) _ _ _
  · exact Action.refuses_fail _ _

theorem SafeWebFetchTool.refuses_of_unapproved {env : FetchEnvironment} {input : ToolCallInput}
    (unapproved : Unapproved env.policy.allowWebFetch input)
    (respond : FetchRequest → Except String FetchResponse) :
    Action.Refuses (call env respond input) () := by
  unfold call
  split_ifs with switch
  · apply Action.refuses_check
    intro args found
    exact refuses_of_not_validApproval found (unapproved.resolve_left (by simp [switch])) _ _ _
  · exact Action.refuses_fail _ _

namespace SchedulerTool

variable {env : SchedulerEnvironment} {input : ToolCallInput}

def AsksFor (input : ToolCallInput) (action : String) : Prop :=
  ∃ args, argsObject input.arguments toolName = .ok args ∧ requestedAction args = .ok action

theorem refuses_add_of_unapproved {args : List (String × Value)}
    (found : argsObject input.arguments toolName = .ok args)
    (unapproved : Unapproved env.policy.allowSchedulerWrite input)
    (surroundings : SchedulerSurroundings) (file : SchedulerState) :
    Action.Refuses (add env surroundings input args) file := by
  unfold add
  split_ifs with switch
  · exact refuses_of_not_validApproval found (unapproved.resolve_left (by simp [switch])) _ _ _
  · exact Action.refuses_fail _ _

theorem refuses_remove_of_unapproved {args : List (String × Value)}
    (found : argsObject input.arguments toolName = .ok args)
    (unapproved : Unapproved env.policy.allowSchedulerWrite input)
    (surroundings : SchedulerSurroundings) (file : SchedulerState) :
    Action.Refuses (remove env surroundings input args) file := by
  unfold remove
  split_ifs with switch
  · exact refuses_of_not_validApproval found (unapproved.resolve_left (by simp [switch])) _ _ _
  · exact Action.refuses_fail _ _

theorem refuses_of_unapproved {action : String} (asked : AsksFor input action)
    (mutation : action = "add" ∨ action = "remove")
    (unapproved : Unapproved env.policy.allowSchedulerWrite input)
    (surroundings : SchedulerSurroundings) (file : SchedulerState) :
    Action.Refuses (call env surroundings input) file := by
  obtain ⟨args, found, requested⟩ := asked
  unfold call
  simp only [found, requested, Action.ofExcept_ok, Action.pure_bind]
  rcases mutation with rfl | rfl
  · exact (refuses_add_of_unapproved found unapproved surroundings file).bind _
  · exact (refuses_remove_of_unapproved found unapproved surroundings file).bind _

end SchedulerTool

/-! ### Clearing the notes -/

namespace SessionToolsTool

def fileContents (tree : FileTree) (place : Location) : Option StateFile :=
  match tree place with
  | some (.file content) => some content
  | _ => none

abbrev KeepsFiles {α : Type} (act : FileAction α) : Prop :=
  Action.Frames fileContents (fun _ access => ∀ file, access ≠ .wrote file) act

variable {env : ToolEnvironment} {surroundings : CallSurroundings}

theorem keepsFiles_makeDirectory (place : Location) :
    KeepsFiles (makeDirectory surroundings place) := by
  intro tree
  have looked : (Action.look place : FileAction _) tree = ⟨.ok (tree place), tree, []⟩ := rfl
  unfold makeDirectory
  rw [Action.bind_apply_ok looked]
  cases held : tree place with
  | none =>
    refine ⟨?_, fun _ member => by cases member⟩
    -- a directory where nothing was holds no text either
    funext other
    by_cases here : other = place
    · subst here
      simp [Action.put, fileContents, held]
    · simp [Action.put, fileContents, here]
  | some node =>
    cases node with
    | directory => exact ⟨rfl, fun _ member => by cases member⟩
    | file content => exact ⟨rfl, fun _ member => by cases member⟩

theorem keepsFiles_makeDirectories (list : List Location) :
    KeepsFiles (makeDirectories surroundings list) := by
  induction list with
  | nil => exact Action.frames_pure _
  | cons place rest ih => exact Action.frames_bind (keepsFiles_makeDirectory place) fun _ => ih

theorem keepsFiles_createParent (path : String) :
    KeepsFiles (createParent env surroundings path) := by
  unfold createParent createDirAll
  split_ifs
  · exact Action.frames_fail _
  · split
    · exact keepsFiles_makeDirectories _
    · exact Action.frames_bind (keepsFiles_makeDirectories _) fun _ => Action.frames_fail _

theorem keepsFiles_readState (file : Option Location) :
    KeepsFiles (readState surroundings file) := by
  cases file with
  | none => exact Action.frames_pure _
  | some f =>
    apply Action.frames_bind (Action.frames_log fun _ _ => nofun)
    intro _
    apply Action.frames_bind (fun _ => ⟨rfl, fun _ member => by cases member⟩)
    intro held
    split
    · apply Action.frames_bind (Action.frames_log fun _ _ => nofun)
      intro _
      split
      · exact Action.frames_fail _
      · exact Action.frames_pure _
      · exact Action.frames_fail _
    · exact Action.frames_pure _

def AsksFor (input : ToolCallInput) (action : String) : Prop :=
  ∃ args requested, argsObject input.arguments toolName = .ok args ∧
    optionalString args "action" toolName = .ok requested ∧
    toAsciiLowercase (requested.getD "list_notes") = action

/-- Without the switch or an approval, clearing is an error whatever the notes are. -/
theorem applyAction_of_unapproved {input : ToolCallInput} {args : List (String × Value)}
    (found : argsObject input.arguments toolName = .ok args)
    (unapproved : Unapproved env.allowSessionClear input) (nowMs : ℕ)
    (state : List (String × Value)) :
    ∃ e, applyAction env nowMs input args "clear_notes" state = .error e := by
  cases applied : applyAction env nowMs input args "clear_notes" state with
  | error e => exact ⟨e, rfl⟩
  | ok cleared =>
    have passed := applied
    simp only [applyAction, refuseIf_eq_ok, bind_eq_ok] at passed
    obtain ⟨_, switch, reason, approved, -⟩ := passed
    exact absurd (validApproval_of_ok found approved) (unapproved.resolve_left switch)

theorem clear_of_unapproved {input : ToolCallInput} (asked : AsksFor input "clear_notes")
    (unapproved : Unapproved env.allowSessionClear input) (tree : FileTree) :
    (∃ e, (call env surroundings input tree).result = .error e) ∧
      fileContents (call env surroundings input tree).state = fileContents tree ∧
      ∀ file, .wrote file ∉ (call env surroundings input tree).journal := by
  obtain ⟨args, requested, found, given, isClear⟩ := asked
  choose e refused using applyAction_of_unapproved found unapproved surroundings.nowMs
  have failing : ∀ path, update env surroundings input args "clear_notes" path =
      createParent env surroundings path >>= fun _ =>
        readState surroundings (fileAt env.workingDir path) >>= fun state =>
          Action.fail (e (withNotes state)) := by
    intro path
    unfold update
    simp only [refused, Action.ofExcept_error]
    rfl
  have called : call env surroundings input =
      Action.ofExcept (statePath env.kelvinHome input.sessionId) >>=
        update env surroundings input args "clear_notes" := by
    unfold call
    simp only [found, given, Action.ofExcept_ok, Action.pure_bind, isClear]
  rw [called, funext failing]
  constructor
  · -- the last step never succeeds
    generalize ended : ((_ : FileAction ToolCallResult) tree).result = result
    cases result with
    | error e => exact ⟨e, rfl⟩
    | ok a =>
      obtain ⟨path, -, ended⟩ := Action.result_bind_ok.mp ended
      obtain ⟨_, -, ended⟩ := Action.result_bind_ok.mp ended
      obtain ⟨state, -, ended⟩ := Action.result_bind_ok.mp ended
      cases ended
  · have keeps : KeepsFiles (Action.ofExcept (statePath env.kelvinHome input.sessionId) >>=
        fun path => createParent env surroundings path >>= fun _ =>
          readState surroundings (fileAt env.workingDir path) >>= fun state =>
            (Action.fail (e (withNotes state)) : FileAction ToolCallResult)) :=
      Action.frames_bind (Action.frames_ofExcept _) fun path =>
        Action.frames_bind (keepsFiles_createParent path) fun _ =>
          Action.frames_bind (keepsFiles_readState _) fun _ => Action.frames_fail _
    obtain ⟨same, events⟩ := keeps tree
    exact ⟨same, fun file member => events _ member file rfl⟩

end SessionToolsTool

/-! ### All sensitive operations -/

/-- When its switch is off or its arguments carry no approval, a sensitive operation fails. A
call that writes a file, sends a request, or adds or removes a schedule does nothing at all; a
call that clears the notes leaves every file as it was. -/
theorem sensitive_operations_need_approval :
    (∀ env surroundings input files, Unapproved env.policy.allowFsWrite input →
      Action.Refuses (SafeFsWriteTool.call env surroundings input) files) ∧
    (∀ env respond input, Unapproved env.policy.allowWebFetch input →
      Action.Refuses (SafeWebFetchTool.call env respond input) ()) ∧
    (∀ env surroundings input file action, SchedulerTool.AsksFor input action →
      action = "add" ∨ action = "remove" → Unapproved env.policy.allowSchedulerWrite input →
      Action.Refuses (SchedulerTool.call env surroundings input) file) ∧
    (∀ env surroundings input tree, SessionToolsTool.AsksFor input "clear_notes" →
      Unapproved env.allowSessionClear input →
      (∃ e, (SessionToolsTool.call env surroundings input tree).result = .error e) ∧
        SessionToolsTool.fileContents (SessionToolsTool.call env surroundings input tree).state =
          SessionToolsTool.fileContents tree ∧
        ∀ file, .wrote file ∉ (SessionToolsTool.call env surroundings input tree).journal) := by
  refine ⟨?_, ?_, ?_, ?_⟩
  · intro env surroundings input files unapproved
    exact SafeFsWriteTool.refuses_of_unapproved unapproved surroundings files
  · intro env respond input unapproved
    exact SafeWebFetchTool.refuses_of_unapproved unapproved respond
  · intro env surroundings input file action asked mutation unapproved
    exact SchedulerTool.refuses_of_unapproved asked mutation unapproved surroundings file
  · intro env surroundings input tree asked unapproved
    exact SessionToolsTool.clear_of_unapproved asked unapproved tree

def openToolPack : ToolPackPolicy := ⟨true, true, true, true, 1024, 1024, []⟩

def ungranted (action : String) : ToolCallInput where
  runId := "run"
  sessionId := "main"
  workspaceDir := "/workspace"
  arguments := .obj [("action", .str action),
    ("approval", .obj [("granted", .bool false), ("reason", .str "cleanup")]),
    ("content", .str ""), ("id", .str "nightly"), ("path", .str "notes/a.md"),
    ("url", .str "https://example.com/")]

theorem unapproved_ungranted (action : String) : Unapproved true (ungranted action) := by
  refine .inr ?_
  rintro ⟨approval, reason, held, granted, -⟩
  obtain rfl := Option.some_inj.mp held
  cases granted

/-- One such call of each tool. -/
theorem ungranted_calls_refused :
    Action.Refuses (SafeFsWriteTool.call ⟨["workspace"], openToolPack, fun _ => ""⟩
        ⟨none, none, none, ""⟩ (ungranted "")) (fun _ => none) ∧
      Action.Refuses (SafeWebFetchTool.call ⟨openToolPack, fun _ => .error "", fun _ => "",
        fun _ => ""⟩ (fun _ => .error "") (ungranted "")) () ∧
      Action.Refuses (SchedulerTool.call ⟨gregorian, openToolPack, fun _ => .error "",
        fun _ => "", ""⟩ ⟨0, 0, 0, 0, none, none, none⟩ (ungranted "remove")) .default ∧
      ∃ e, (SessionToolsTool.call ⟨["workspace"], .ok "/home", true, fun _ => ""⟩ .healthy
        (ungranted "clear_notes") (fun _ => none)).result = .error e := by
  obtain ⟨write, fetch, schedule, clear⟩ := sensitive_operations_need_approval
  have asked : SchedulerTool.AsksFor (ungranted "remove") "remove" := ⟨_, rfl, rfl⟩
  have clears : SessionToolsTool.AsksFor (ungranted "clear_notes") "clear_notes" :=
    ⟨_, _, rfl, rfl, by decide⟩
  exact ⟨write _ _ _ _ (unapproved_ungranted _), fetch _ _ _ (unapproved_ungranted _),
    schedule _ _ _ _ _ asked (.inr rfl) (unapproved_ungranted _),
    (clear _ _ _ _ clears (unapproved_ungranted _)).1⟩

end KelvinClaw.Sdk
