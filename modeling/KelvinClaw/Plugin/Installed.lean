import KelvinClaw.Brain.Agent
import KelvinClaw.Library.Paths
import KelvinClaw.Plugin.CallBudget

/-!
# Calls of installed plugins

A call of an installed tool checks its arguments against the scopes of the plugin, and a call of
an installed model provider serializes its input. Both reserve a call, hand it to the WASM host up
to `max_retries + 1` times, and report how it ended. What the host answers to an attempt, and the
times that are read under the lock, come with the call.
-/

namespace KelvinClaw.Plugin

open KelvinClaw.Core KelvinClaw.Brain Systems

variable {α : Type}

/-! ### The WASM hosts -/

inductive ClawCall where
  | sendMessage (messageCode : ℤ)
  | moveServo (channel position : ℤ)
  | fsRead (handle : ℤ)
  | networkSend (packet : ℤ)
  | httpCall (url : String)
  | envAccess (key : String)
  deriving DecidableEq, Repr

structure SkillExecution where
  exitCode : ℤ
  calls : List ClawCall
  outputJson : Option String
  deriving DecidableEq, Repr

/-- How the task of one attempt ends. -/
inductive HostRun (α : Type) where
  | returned (result : KelvinResult α)
  | joinFailure (err : String)
  | timedOut

/-- The end of `execute_once`, of a plugin that names itself `kind` and `subject` in its errors. -/
def HostRun.result (kind subject : String) (controls : OperationalControls) :
    HostRun α → KelvinResult α
  | .returned result => result
  | .joinFailure err => .error (.backend s!"{kind} task join failure: {err}")
  | .timedOut => .error (.timeout s!"{subject} timed out after {controls.timeoutMs}ms")

def firstSuccess (execute : ℕ → KelvinResult α) :
    (remaining attempt : ℕ) → (lastError : Option KelvinError) → Option KelvinError ⊕ α
  | 0, _, lastError => .inl lastError
  | remaining + 1, attempt, _ =>
    match execute attempt with
    | .ok result => .inr result
    | .error err => firstSuccess execute remaining (attempt + 1) (some err)

theorem firstSuccess_of_errors {execute : ℕ → KelvinResult α} {remaining attempt : ℕ}
    {lastError : Option KelvinError}
    (errors : ∀ index, attempt ≤ index → index < attempt + remaining →
      ∃ err, execute index = .error err) :
    ∃ err, firstSuccess execute remaining attempt lastError = .inl err := by
  induction remaining generalizing attempt lastError with
  | zero => exact ⟨lastError, rfl⟩
  | succ remaining ih =>
    obtain ⟨err, failed⟩ := errors attempt (Nat.le_refl _) (by omega)
    simp only [firstSuccess, failed]
    exact ih fun index after below => errors index (by omega) (by omega)

/-- What comes with a call: its input, the times that are read under the lock, and what the host
answers to each attempt. -/
structure Invocation (ι α : Type) where
  input : ι
  reservedAt : ℕ
  host : ℕ → String → HostRun α
  markedAt : ℕ

/-! ### Tools -/

structure CapabilityScopes where
  fsReadPaths : List String
  networkAllowHosts : List String
  deriving DecidableEq, Repr

/-- The fields of an installed tool that a call reads. -/
structure InstalledWasmTool where
  pluginId : String
  pluginVersion : String
  toolName : String
  entrypointAbs : String
  allowFsRead : Bool
  scopes : CapabilityScopes
  controls : OperationalControls

def normalizeSafeRelativePath (raw fieldName : String) : KelvinResult String :=
  let normalized :=
    String.ofList ((trimChars raw.toList).map fun c => if c = '\\' then '/' else c)
  if normalized = "" then .error (.invalidInput s!"{fieldName} must not be empty")
  else if IsAbsolute normalized then
    .error (.invalidInput s!"{fieldName} must be relative path")
  else if ".." ∈ components normalized then
    .error (.invalidInput s!"{fieldName} path traversal is not allowed")
  else .ok normalized

def scopeMatch (target : String) (allowlist : List String) : Bool :=
  allowlist.any fun scope =>
    target == scope || (scope.toList ++ ['/']).isPrefixOf target.toList

def clawCallJson : ClawCall → Value
  | .sendMessage messageCode =>
    Value.object [("kind", .str "send_message"), ("message_code", .num messageCode)]
  | .moveServo channel position =>
    Value.object [("kind", .str "move_servo"), ("channel", .num channel),
      ("position", .num position)]
  | .fsRead handle => Value.object [("kind", .str "fs_read"), ("handle", .num handle)]
  | .networkSend packet => Value.object [("kind", .str "network_send"), ("packet", .num packet)]
  | .httpCall url => Value.object [("kind", .str "http_call"), ("url", .str url)]
  | .envAccess key => Value.object [("kind", .str "env_access"), ("key", .str key)]

namespace InstalledWasmTool

variable (tool : InstalledWasmTool)

def subject : String := s!"tool '{tool.toolName}'"

def enforceScopedArguments (args : Value) : KelvinResult Unit :=
  if tool.allowFsRead then
    match (args.get "target_path").bind Value.asStr with
    | none =>
      .error (.invalidInput (s!"tool '{tool.toolName}' requires string argument 'target_path' " ++
        "when fs_read is enabled"))
    | some targetPath => do
      let normalized ← normalizeSafeRelativePath targetPath "target_path"
      refuseIf (scopeMatch normalized tool.scopes.fsReadPaths = false)
        (.invalidInput (s!"tool '{tool.toolName}' denied target_path '{normalized}' " ++
          "(outside allowed fs_read scopes)"))
  else .ok ()

/-- One attempt, with `serialize` for `serde_json::to_string`. -/
def executeOnce (serialize : Value → Except String String) (host : String → HostRun SkillExecution)
    (arguments : Value) : KelvinResult SkillExecution :=
  match serialize arguments with
  | .error err =>
    .error (.invalidInput s!"serialize tool arguments for plugin '{tool.pluginId}': {err}")
  | .ok inputJson => (host inputJson).result "tool" tool.subject tool.controls

/-- The answer to a call that executed, with `toText` for the text of a JSON value. -/
def resultOf (toText : Value → String) (execution : SkillExecution) : ToolCallResult :=
  let summary := s!"{tool.toolName} executed exit={execution.exitCode} " ++
    s!"calls={execution.calls.length} plugin={tool.pluginId}@{tool.pluginVersion}"
  let output := Value.object
    [("plugin_id", .str tool.pluginId), ("plugin_version", .str tool.pluginVersion),
      ("entrypoint", .str tool.entrypointAbs), ("exit_code", .num execution.exitCode),
      ("calls", .arr (execution.calls.map clawCallJson))]
  { summary
    output := some (execution.outputJson.getD (toText output))
    visibleText := some summary
    isError := false }

def call (serialize : Value → Except String String) (toText : Value → String)
    (invocation : Invocation ToolCallInput SkillExecution) (state : OperationalState) :
    KelvinResult ToolCallResult × OperationalState :=
  match tool.enforceScopedArguments invocation.input.arguments with
  | .error err => (.error err, state)
  | .ok () =>
    match reserveCallBudget tool.subject tool.controls invocation.reservedAt state with
    | (.error err, refused) => (.error err, refused)
    | (.ok (), reserved) =>
      match firstSuccess (fun attempt => tool.executeOnce serialize (invocation.host attempt)
          invocation.input.arguments) (tool.controls.maxRetries + 1) 0 none with
      | .inr execution => (.ok (tool.resultOf toText execution), markSuccess reserved)
      | .inl lastError =>
        (.error (lastError.getD (.backend s!"{tool.subject} failed without error detail")),
          markFailure tool.controls invocation.markedAt reserved)

def admits (invocation : Invocation ToolCallInput SkillExecution) (state : OperationalState) :
    Bool :=
  (tool.enforceScopedArguments invocation.input.arguments).isOk &&
    (reserveCallBudget tool.subject tool.controls invocation.reservedAt state).1.isOk

end InstalledWasmTool

/-! ### Model providers -/

/-- The readings of a model output with the fields in `ω`: `serde_json::from_str`,
`serde_json::from_value`, `validate_model_output_schema`, and the adaptation by the provider
profile, with the name of its protocol family, where there is one. -/
structure OutputReading (ω : Type) where
  parse : String → Except String Value
  modelOutput : Value → Option ω
  schema : Value → Except String Unit
  profile : Option (String × (Value → Option ω))

def errorMessage (value : Value) : Option String :=
  ((value.get "error").bind (Value.get "message")).bind Value.asStr

namespace OutputReading

variable {ω : Type} (reading : OutputReading ω) (pluginId pluginVersion : String)

def decodeResponse (value : Value) : KelvinResult ω :=
  match reading.profile with
  | some (family, adapt) =>
    match adapt value with
    | some output => .ok output
    | none =>
      .error (.invalidInput (s!"model plugin '{pluginId}' returned response that doesn't match " ++
        s!"{family} protocol format"))
  | none =>
    .error (.invalidInput (s!"model plugin '{pluginId}' returned response that is neither valid " ++
      "ModelOutput nor mapped to a known protocol family"))

def decodeValue (value : Value) : KelvinResult ω :=
  match errorMessage value with
  | some message =>
    .error (.backend s!"model plugin '{pluginId}@{pluginVersion}' failed: {message}")
  | none =>
    match reading.modelOutput value with
    | some output =>
      match reading.schema value with
      | .ok _ => .ok output
      | .error err =>
        .error (.invalidInput
          s!"model plugin '{pluginId}' returned invalid ModelOutput schema: {err}")
    | none => reading.decodeResponse pluginId value

def decodeOutputPayload (outputJson : String) : KelvinResult ω :=
  match reading.parse outputJson with
  | .error err => .error (.invalidInput s!"model plugin '{pluginId}' returned invalid json: {err}")
  | .ok value => reading.decodeValue pluginId pluginVersion value

end OutputReading

/-- The fields of an installed model provider that a call reads. -/
structure InstalledWasmModelProvider where
  pluginId : String
  pluginVersion : String
  providerName : String
  modelName : String
  reading : OutputReading ModelOutput
  controls : OperationalControls

namespace InstalledWasmModelProvider

variable (provider : InstalledWasmModelProvider)

def subject : String := s!"model provider '{provider.providerName}:{provider.modelName}'"

def executeOnce (run : HostRun String) : KelvinResult String :=
  run.result "model provider" provider.subject provider.controls

def decodeOutputPayload (outputJson : String) : KelvinResult ModelOutput :=
  provider.reading.decodeOutputPayload provider.pluginId provider.pluginVersion outputJson

def infer (serialize : ModelInput → Except String String)
    (invocation : Invocation ModelInput String) (state : OperationalState) :
    KelvinResult ModelOutput × OperationalState :=
  match reserveCallBudget provider.subject provider.controls invocation.reservedAt state with
  | (.error err, refused) => (.error err, refused)
  | (.ok (), reserved) =>
    match serialize invocation.input with
    -- the call returns here without a report
    | .error err =>
      (.error (.invalidInput s!"serialize model input for plugin '{provider.pluginId}': {err}"),
        reserved)
    | .ok inputJson =>
      match firstSuccess (fun attempt => provider.executeOnce (invocation.host attempt inputJson))
          (provider.controls.maxRetries + 1) 0 none with
      | .inr outputJson =>
        match provider.decodeOutputPayload outputJson with
        -- and here
        | .error err => (.error err, reserved)
        | .ok output => (.ok output, markSuccess reserved)
      | .inl lastError =>
        (.error (lastError.getD (.backend s!"{provider.subject} failed without error detail")),
          markFailure provider.controls invocation.markedAt reserved)

def admits (invocation : Invocation ModelInput String) (state : OperationalState) : Bool :=
  (reserveCallBudget provider.subject provider.controls invocation.reservedAt state).1.isOk

def AttemptsFail (serialize : ModelInput → Except String String)
    (invocation : Invocation ModelInput String) : Prop :=
  ∃ inputJson, serialize invocation.input = .ok inputJson ∧
    ∀ attempt ≤ provider.controls.maxRetries,
      ∃ err, provider.executeOnce (invocation.host attempt inputJson) = .error err

end InstalledWasmModelProvider

/-! ### Calls that do not overlap -/

/-- A call, with the state of the plugin before and after it. -/
structure CallRecord (ι α ρ : Type) where
  invocation : Invocation ι α
  before : OperationalState
  result : KelvinResult ρ
  after : OperationalState

def callHistory {ι ρ : Type}
    (call : Invocation ι α → OperationalState → KelvinResult ρ × OperationalState) :
    OperationalState → List (Invocation ι α) → List (CallRecord ι α ρ)
  | _, [] => []
  | state, invocation :: rest =>
    let ran := call invocation state
    ⟨invocation, state, ran.1, ran.2⟩ :: callHistory call ran.2 rest

end KelvinClaw.Plugin
