import KelvinClaw.Sdk.RunRecords
import KelvinClaw.Sdk.SessionStore

/-!
# What a run of the brain exchanges

The events that a run emits, the inputs and outputs of the model, the tools and their
registry, and the receipts of the tool calls.
-/

namespace KelvinClaw.Brain

open KelvinClaw.Core KelvinClaw.Sdk

/-! ### Events -/

/-- The phases `Start`, `End`, `Error` and `Warning`. -/
inductive LifecyclePhase where
  | start
  | ended
  | error
  | warning
  deriving DecidableEq, Repr

/-- The phases `Start`, `End` and `Error`. -/
inductive ToolPhase where
  | start
  | ended
  | error
  deriving DecidableEq, Repr

inductive AgentEventData where
  | lifecycle (runId : String) (phase : LifecyclePhase) (message : Option String) (tsMs : ℕ)
  | assistant (runId : String) (delta : String) (finalChunk : Bool) (tsMs : ℕ)
  | tool (runId : String) (toolName : String) (phase : ToolPhase) (summary : Option String)
      (output : Option String) (tsMs : ℕ)
  deriving DecidableEq, Repr

structure AgentEvent where
  seq : ℕ
  data : AgentEventData
  deriving DecidableEq, Repr

/-! ### The model -/

structure ToolCall where
  id : String
  name : String
  arguments : Value
  deriving DecidableEq, Repr

structure ModelInput where
  runId : String
  sessionId : String
  systemPrompt : String
  userPrompt : String
  memorySnippets : List String
  history : List SessionMessage
  tools : List ToolDefinition
  deriving DecidableEq, Repr

structure ModelOutput where
  assistantText : String
  stopReason : Option String
  toolCalls : List ToolCall
  deriving DecidableEq, Repr

def noReplySignal : String := "NO_REPLY"

/-! ### Tools -/

/-- A tool. What a call answers may depend on all that happened before, which the number of
calls to the surroundings stands for. -/
structure Tool where
  name : String
  description : String
  inputSchema : Value
  call : ℕ → ToolCallInput → KelvinResult ToolCallResult

structure ToolRegistry where
  get : String → Option Tool
  names : List String

/-- `ToolRegistry::definitions`. -/
def ToolRegistry.definitions (tools : ToolRegistry) : List ToolDefinition :=
  tools.names.filterMap fun name =>
    (tools.get name).map fun tool => ⟨tool.name, tool.description, tool.inputSchema⟩

/-! ### Receipts -/

structure ToolReceipt where
  runId : String
  sessionId : String
  toolName : String
  toolCallId : String
  resultClass : String
  reason : String
  latencyMs : ℕ
  deriving DecidableEq, Repr

def receiptReasonMaxLength : ℕ := 512

/-- The first characters of a reason without control characters, with dots when it is longer. -/
def sanitizeReceiptReason (reason : String) : String :=
  let kept := (reason.toList.take receiptReasonMaxLength).filter fun ch => ¬ isControl ch
  String.ofList kept ++ if receiptReasonMaxLength < reason.toList.length then "..." else ""

/-! ### Memory -/

structure MemorySearchResult where
  path : String
  startLine : ℕ
  endLine : ℕ
  snippet : String
  deriving DecidableEq, Repr

def MemorySearchResult.render (item : MemorySearchResult) : String :=
  s!"{item.path}#{item.startLine}-{item.endLine}: {item.snippet}"

structure SystemPromptParams where
  runId : String
  sessionId : String
  modelProvider : String
  modelName : String
  workspaceDir : String
  tools : List ToolDefinition
  extraSystemPrompt : Option String
  deriving DecidableEq, Repr

end KelvinClaw.Brain
