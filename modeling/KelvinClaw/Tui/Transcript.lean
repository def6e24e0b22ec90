import Mathlib.Data.List.Basic

/-!
# The transcript of the terminal interface

The gateway sends the agent events of every run. The interface turns them into chat messages and
into the entries of the tool table. A chunk of text goes to the newest message while that is an
unfinished assistant message; the end of a tool goes to the newest entry with the name of the tool
that has not ended. Lists have the newest entry first.
-/

namespace KelvinClaw.Tui

/-! ### Events -/

inductive LifecyclePhase where
  | start
  | finish
  | error
  | warning
  deriving DecidableEq, Repr

inductive ToolPhase where
  | start
  | finish
  | error
  deriving DecidableEq, Repr

inductive AgentEventData where
  | lifecycle (phase : LifecyclePhase) (message : Option String)
  | assistant (delta : String) (finalChunk : Bool)
  | tool (toolName : String) (phase : ToolPhase) (summary : Option String)
  deriving DecidableEq, Repr

/-- All data of an event name their run and the time. -/
structure AgentEvent where
  seq : ℕ
  runId : String
  tsMs : ℕ
  data : AgentEventData
  deriving DecidableEq, Repr

/-! ### Entries -/

inductive ChatMessage where
  | user (text : String)
  | assistant (text : String) (complete : Bool)
  | system (text : String)
  | toolCall (toolName : String) (phase : ToolPhase) (summary : Option String)
  deriving DecidableEq, Repr

structure ToolEntry where
  toolName : String
  phase : ToolPhase
  summary : Option String
  startedMs : ℕ
  endedMs : Option ℕ
  deriving DecidableEq, Repr

def ChatMessage.unfinished : ChatMessage → Bool
  | .assistant _ complete => !complete
  | _ => false

/-- `*complete = true`, of an assistant message. -/
def ChatMessage.finish : ChatMessage → ChatMessage
  | .assistant text _ => .assistant text true
  | message => message

def ChatMessage.extend (delta : String) (finalChunk : Bool) : ChatMessage → ChatMessage
  | .assistant text _ => .assistant (text ++ delta) finalChunk
  | message => message

def ChatMessage.running (toolName : String) : ChatMessage → Bool
  | .toolCall name .start _ => name = toolName
  | _ => false

def ChatMessage.close (phase : ToolPhase) (summary : Option String) : ChatMessage → ChatMessage
  | .toolCall name _ before => .toolCall name phase (summary.or before)
  | message => message

def ToolEntry.running (toolName : String) (entry : ToolEntry) : Bool :=
  entry.toolName = toolName ∧ entry.phase = .start

def ToolEntry.close (phase : ToolPhase) (summary : Option String) (tsMs : ℕ) (entry : ToolEntry) :
    ToolEntry :=
  { entry with phase, summary := summary.or entry.summary, endedMs := some tsMs }

/-! ### Lists -/

section Lists

variable {α β : Type} (test : α → Bool) (change : α → α)

def updateFirst : List α → List α
  | [] => []
  | entry :: rest => if test entry then change entry :: rest else entry :: updateFirst rest

def updateHead : List α → List α
  | [] => []
  | entry :: rest => (if test entry then change entry else entry) :: rest

end Lists

/-! ### The interface -/

/-- The part of the interface that agent events change. -/
structure App where
  chat : List ChatMessage
  tools : List ToolEntry
  chatPinned : Bool
  currentRunId : Option String
  runPhase : Option LifecyclePhase
  lastError : Option String
  deriving DecidableEq, Repr

namespace App

variable (app : App)

def handleAssistant (delta : String) (finalChunk : Bool) : App :=
  if app.chat.head?.any ChatMessage.unfinished then
    { app with chat := updateHead ChatMessage.unfinished (.extend delta finalChunk) app.chat }
  else { app with chat := .assistant delta finalChunk :: app.chat, chatPinned := true }

def startTool (tsMs : ℕ) (toolName : String) (summary : Option String) : App :=
  { app with
    tools := ⟨toolName, .start, summary, tsMs, none⟩ :: app.tools
    chat := .toolCall toolName .start none ::
      updateHead ChatMessage.unfinished ChatMessage.finish app.chat
    chatPinned := true }

def endTool (tsMs : ℕ) (toolName : String) (phase : ToolPhase) (summary : Option String) : App :=
  { app with
    tools :=
      if app.tools.any (ToolEntry.running toolName) then
        updateFirst (ToolEntry.running toolName) (.close phase summary tsMs) app.tools
      else ⟨toolName, phase, summary, tsMs, some tsMs⟩ :: app.tools
    chat := updateFirst (ChatMessage.running toolName) (.close phase summary) app.chat }

def handleLifecycle (runId : String) (phase : LifecyclePhase) (message : Option String) : App :=
  let app : App :=
    match phase with
    | .start => { app with currentRunId := some runId, runPhase := some .start }
    | .finish => { app with runPhase := some .finish }
    | .error => { app with runPhase := some .error, lastError := message }
    | .warning => app
  match message with
  | some text => if text = "" then app else { app with chat := .system text :: app.chat }
  | none => app

def handleAgentEvent (event : AgentEvent) : App :=
  match event.data with
  | .assistant delta finalChunk => app.handleAssistant delta finalChunk
  | .tool toolName .start summary => app.startTool event.tsMs toolName summary
  | .tool toolName phase summary => app.endTool event.tsMs toolName phase summary
  | .lifecycle phase message => app.handleLifecycle event.runId phase message

def initial : App := ⟨[], [], true, none, none, none⟩

def after (events : List AgentEvent) : App := events.foldl handleAgentEvent initial

end App

end KelvinClaw.Tui
