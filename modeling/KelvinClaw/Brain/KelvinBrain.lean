import KelvinClaw.Brain.Agent
import KelvinClaw.Brain.LoopDetector
import KelvinClaw.Library.Journal

/-!
# Runs of the brain

A run asks the model, carries out the tool calls that the model asks for, and asks again until
the model calls no tool, the tool iterations are used up or the loop detector suspects a loop.
The last two end with one more question that offers the model no tools. Every step may fail and
ends the run then, and a timeout may cut the run anywhere.

A run is a journaling computation. Its state is the number of calls to the surroundings so
far, and the surroundings (the session store, the memory, the model, the tools, the event sink
and the clock) answer each call as they like.
-/

namespace KelvinClaw.Brain

open KelvinClaw.Core KelvinClaw.Sdk Systems Systems.Action

/-! ### The surroundings -/

structure KelvinBrain where
  upsertSession : ℕ → SessionDescriptor → KelvinResult Unit
  history : ℕ → String → KelvinResult (List SessionMessage)
  appendMessage : ℕ → String → SessionMessage → KelvinResult Unit
  search : ℕ → String → KelvinResult (List MemorySearchResult)
  systemPrompt : ℕ → SystemPromptParams → String
  providerName : String
  modelName : String
  infer : ℕ → ModelInput → KelvinResult ModelOutput
  tools : ToolRegistry
  emit : ℕ → AgentEvent → KelvinResult Unit
  nextSeq : ℕ → ℕ
  nowMs : ℕ → ℕ
  maxToolIterations : ℕ
  /-- `serde_json::to_string`. -/
  toText : Value → String

/-- What a run does that lasts. An event is logged when it is handed to the sink, a message
once the session store has it, a question before the model answers. `executing` and `executed`
bracket the tool calls of one answer. -/
inductive BrainEvent where
  | emitted (event : AgentEvent)
  | appended (message : SessionMessage)
  | inferring (input : ModelInput)
  | executing (calls : List ToolCall)
  | called (call : ToolCall)
  | receipt (receipt : ToolReceipt)
  | executed (calls : List ToolCall) (results : List (ToolCall × AgentPayload))
  deriving DecidableEq, Repr

/-- How a loop or a run ends that no error ends. None is left unfinished
(`runInner_bounds`), and none panics with the threshold of the code. -/
inductive Finish (α : Type) where
  | finished (a : α)
  | panicked
  | unfinished
  deriving DecidableEq, Repr

abbrev BrainAction := Action ℕ BrainEvent KelvinError

def ask {α : Type} (call : ℕ → α) : BrainAction α := do
  let calls ← get
  modify (· + 1)
  return call calls

theorem ask_apply {α : Type} (call : ℕ → α) (calls : ℕ) :
    ask call calls = ⟨.ok (call calls), calls + 1, []⟩ := rfl

section Model

variable (brain : KelvinBrain) (req : AgentRunRequest)

/-! ### Events and messages -/

def emit (data : ℕ → AgentEventData) : BrainAction Unit := do
  let seq ← ask brain.nextSeq
  let tsMs ← ask brain.nowMs
  log (.emitted ⟨seq, data tsMs⟩)
  let accepted ← ask fun calls => brain.emit calls ⟨seq, data tsMs⟩
  ofExcept accepted

def emitLifecycle (phase : LifecyclePhase) (message : Option String) : BrainAction Unit :=
  emit brain (.lifecycle req.runId phase message)

def emitAssistant (text : String) (finalChunk : Bool) : BrainAction Unit :=
  emit brain (.assistant req.runId text finalChunk)

def emitTool (toolName : String) (phase : ToolPhase) (summary output : Option String) :
    BrainAction Unit :=
  emit brain (.tool req.runId toolName phase summary output)

def loadHistory : BrainAction (List SessionMessage) := do
  let loaded ← ask fun calls => brain.history calls req.sessionId
  ofExcept loaded

def appendMessage (message : SessionMessage) : BrainAction Unit := do
  let stored ← ask fun calls => brain.appendMessage calls req.sessionId message
  ofExcept stored
  log (.appended message)

def infer (input : ModelInput) : BrainAction ModelOutput := do
  log (.inferring input)
  let output ← ask fun calls => brain.infer calls input
  ofExcept output

/-! ### Tool calls -/

def emitToolReceipt (toolName : String) (call : ToolCall) (resultClass reason : String)
    (startedToolAt : ℕ) : BrainAction Unit := do
  let now ← ask brain.nowMs
  log (.receipt ⟨req.runId, req.sessionId, toolName, call.id, resultClass,
    sanitizeReceiptReason reason, now - startedToolAt⟩)

/-- The exit of a call that names no registered tool. It appends no message. -/
def reportUnknown (call : ToolCall) (startedToolAt : ℕ) :
    BrainAction (Option (ToolCall × AgentPayload)) := do
  let summary := s!"unknown tool: {call.name}"
  emitTool brain req call.name .error (some summary) none
  emitToolReceipt brain req call.name call "denied" summary startedToolAt
  return some (call, ⟨summary, true⟩)

def reportError (call : ToolCall) (tool : Tool) (err : KelvinError) (startedToolAt : ℕ) :
    BrainAction (Option (ToolCall × AgentPayload)) := do
  let summary := s!"tool '{tool.name}' failed: {err.toString}"
  emitTool brain req tool.name .error (some summary) none
  appendMessage brain req (.tool s!"{summary}\n\nError:\n{err.toString}"
    (.object [("tool", .str tool.name), ("is_error", .bool true), ("error", .str err.toString)]))
  emitToolReceipt brain req tool.name call "error" summary startedToolAt
  return some (call, ⟨summary, true⟩)

def toolContent (result : ToolCallResult) : String :=
  match result.output with
  | some output => s!"{result.summary}\n\nOutput:\n{output}"
  | none => result.summary

/-- The exit of a call whose tool returned. It answers the run only with a visible text. -/
def reportResult (call : ToolCall) (tool : Tool) (result : ToolCallResult) (startedToolAt : ℕ) :
    BrainAction (Option (ToolCall × AgentPayload)) := do
  emitTool brain req tool.name (if result.isError then .error else .ended) (some result.summary)
    result.output
  appendMessage brain req (.tool (toolContent result)
    (.object [("tool", .str tool.name), ("is_error", .bool result.isError),
      ("output", .ofOption result.output)]))
  emitToolReceipt brain req tool.name call (if result.isError then "tool_error" else "success")
    result.summary startedToolAt
  return result.visibleText.map fun visibleText => (call, ⟨visibleText, result.isError⟩)

def executeToolCall (call : ToolCall) : BrainAction (Option (ToolCall × AgentPayload)) := do
  let startedToolAt ← ask brain.nowMs
  emitTool brain req call.name .start (some "tool execution started") none
  match brain.tools.get call.name with
  | none => reportUnknown brain req call startedToolAt
  | some tool =>
    log (.called call)
    let toolResult ← ask fun calls =>
      tool.call calls ⟨req.runId, req.sessionId, req.workspaceDir, call.arguments⟩
    match toolResult with
    | .error err => reportError brain req call tool err startedToolAt
    | .ok result => reportResult brain req call tool result startedToolAt

def executeEach : List ToolCall → BrainAction (List (ToolCall × AgentPayload))
  | [] => return []
  | call :: rest => do
    let payload ← executeToolCall brain req call
    let payloads ← executeEach rest
    return payload.toList ++ payloads

/-- The calls of one answer, in order, and the payloads of those that answered. -/
def executeToolCalls (calls : List ToolCall) : BrainAction (List (ToolCall × AgentPayload)) := do
  log (.executing calls)
  let payloads ← executeEach brain req calls
  log (.executed calls payloads)
  return payloads

/-! ### The loop -/

/-- What the questions of a run have in common. -/
structure Turn where
  startedAt : ℕ
  priorHistory : List SessionMessage
  memorySnippets : List String
  systemPrompt : String

def prepare : BrainAction Turn := do
  ofExcept (refuseIf (trim req.prompt = "") (.invalidInput "prompt must not be empty"))
  let startedAt ← ask brain.nowMs
  emitLifecycle brain req .start none
  let registered ← ask fun calls =>
    brain.upsertSession calls ⟨req.sessionId, req.sessionKey, req.workspaceDir⟩
  ofExcept registered
  let priorHistory ← loadHistory brain req
  appendMessage brain req (.user req.prompt)
  -- a failed search counts as one without hits
  let memoryHits ← ask fun calls => brain.search calls (req.memoryQuery.getD req.prompt)
  let systemPrompt ← ask fun calls =>
    brain.systemPrompt calls ⟨req.runId, req.sessionId, brain.providerName, brain.modelName,
      req.workspaceDir, brain.tools.definitions, req.extraSystemPrompt⟩
  return ⟨startedAt, priorHistory, (memoryHits.toOption.getD []).map MemorySearchResult.render,
    systemPrompt⟩

def followUpPrompt : String :=
  "Tool calls completed. Based on the results in the conversation history above, " ++
    "respond to the user's original request."

def say (assistantText : String) (finalChunk : Bool) : BrainAction (List AgentPayload) := do
  let text := trim assistantText
  if text = "" ∨ text = noReplySignal then return []
  else
    emitAssistant brain req text finalChunk
    appendMessage brain req (.assistant text)
    return if finalChunk then [⟨text, false⟩] else []

/-- The loop between two passes. -/
structure LoopState where
  iteration : ℕ
  payloads : List AgentPayload
  detector : ToolLoopDetector

structure LoopEnd where
  payloads : List AgentPayload
  stopReason : Option String
  toolIterations : ℕ

variable (turn : Turn)

def finalAnswer (reason : String) (payloads : List AgentPayload) (toolIterations : ℕ) :
    BrainAction LoopEnd := do
  emitLifecycle brain req .warning (some reason)
  let finalHistory ← loadHistory brain req
  let finalOutput ← infer brain ⟨req.runId, req.sessionId, turn.systemPrompt, followUpPrompt,
    turn.memorySnippets, finalHistory, []⟩
  let said ← say brain req finalOutput.assistantText true
  return ⟨payloads ++ said, finalOutput.stopReason, toolIterations⟩

/-- Why the loop ends with a last question, if it does. -/
def forceReason (maxIter iteration : ℕ) : LoopDetectionResult → Option String
  | .suspectedLoop toolName repeatCount isAllErrors =>
    if maxIter ≤ iteration then some s!"max tool iterations ({maxIter}) reached"
    else some (s!"loop detector triggered with (name=\"{toolName}\", " ++
      s!"repeat_count={repeatCount}, is_all_errors={isAllErrors})")
  | .noIssue =>
    if maxIter ≤ iteration then some s!"max tool iterations ({maxIter}) reached" else none

def recordedCalls (results : List (ToolCall × AgentPayload)) : List (String × Value × Bool) :=
  results.map fun (call, payload) => (call.name, call.arguments, payload.isError)

/-- The history that an iteration shows the model: at first the one of before the prompt. -/
def historyFor (iteration : ℕ) : BrainAction (List SessionMessage) :=
  if iteration = 0 then pure turn.priorHistory else loadHistory brain req

def question (iteration : ℕ) : BrainAction ModelOutput := do
  let history ← historyFor brain req turn iteration
  infer brain ⟨req.runId, req.sessionId, turn.systemPrompt,
    if iteration = 0 then req.prompt else followUpPrompt, turn.memorySnippets, history,
    brain.tools.definitions⟩

/-- What a pass of the loop comes to. -/
inductive Pass where
  | ends (loopEnd : LoopEnd)
  | goesOn (next : LoopState)
  | panics

def afterTools (maxIter : ℕ) (state : LoopState) (results : List (ToolCall × AgentPayload)) :
    BrainAction Pass :=
  let recorded := state.detector.recordCall brain.toText (recordedCalls results)
  let payloads := state.payloads ++ results.map Prod.snd
  let iteration := state.iteration + 1
  match recorded.2 with
  | none => return .panics
  | some detection =>
    match forceReason maxIter iteration detection with
    | some reason => do
      let loopEnd ← finalAnswer brain req turn reason payloads iteration
      return .ends loopEnd
    | none => return .goesOn ⟨iteration, payloads, recorded.1⟩

def iterate (maxIter : ℕ) (state : LoopState) : BrainAction Pass := do
  let output ← question brain req turn state.iteration
  let said ← say brain req output.assistantText output.toolCalls.isEmpty
  if output.toolCalls.isEmpty then
    return .ends ⟨state.payloads ++ said, output.stopReason, state.iteration⟩
  else
    let results ← executeToolCalls brain req output.toolCalls
    afterTools brain req turn maxIter state results

def toolLoop (maxIter : ℕ) : ℕ → LoopState → BrainAction (Finish LoopEnd)
  | 0, _ => return .unfinished
  | passes + 1, state => do
    let pass ← iterate brain req turn maxIter state
    match pass with
    | .ends loopEnd => return .finished loopEnd
    | .goesOn next => toolLoop maxIter passes next
    | .panics => return .panicked

/-! ### Runs -/

def maxIterOf : ℕ := req.maxToolIterations.getD brain.maxToolIterations

def conclude (turn : Turn) (loopEnd : LoopEnd) : BrainAction AgentRunResult := do
  emitLifecycle brain req .ended none
  let endedAt ← ask brain.nowMs
  return ⟨loopEnd.payloads, ⟨endedAt - turn.startedAt, brain.providerName, brain.modelName,
    loopEnd.stopReason, none, loopEnd.toolIterations⟩⟩

/-- `run_inner`, with the loop detector it starts from. The passes that the loop is given are
enough for every run. -/
def runInner (detector : ToolLoopDetector) : BrainAction (Finish AgentRunResult) := do
  let turn ← prepare brain req
  let maxIter := maxIterOf brain req
  let finish ← toolLoop brain req turn maxIter (max 1 maxIter) ⟨0, [], detector⟩
  match finish with
  | .finished loopEnd => do
    let result ← conclude brain req turn loopEnd
    return .finished result
  | .panicked => return .panicked
  | .unfinished => return .unfinished

/-- The number of cuts a computation has: before each of its events, and, when it fails, before
the failure. After its last event a success has nothing to wait for. -/
def cuts {α : Type} (outcome : Outcome ℕ BrainEvent KelvinError α) : ℕ :=
  match outcome.result with
  | .ok _ => outcome.journal.length
  | .error _ => outcome.journal.length + 1

/-- A computation under a timeout that runs out after so many events. -/
def withTimeout {α : Type} (timeoutMs : Option ℕ) (cut : ℕ) (act : BrainAction α) :
    BrainAction α := fun calls =>
  let outcome := act calls
  match timeoutMs with
  | none => outcome
  | some timeoutMs =>
    if cut < cuts outcome then
      ⟨.error (.timeout s!"agent run exceeded timeout of {timeoutMs}ms"), outcome.state,
        outcome.journal.take cut⟩
    else outcome

section Timeouts

variable {α : Type} {timeoutMs : Option ℕ} {cut calls : ℕ} {act : BrainAction α}

theorem withTimeout_of_early (timed : timeoutMs.isSome) (early : cut < cuts (act calls)) :
    ∃ err, (withTimeout timeoutMs cut act calls).result = .error err ∧
      (withTimeout timeoutMs cut act calls).journal = (act calls).journal.take cut := by
  obtain ⟨timeoutMs, rfl⟩ := Option.isSome_iff_exists.mp timed
  have dropped : withTimeout (some timeoutMs) cut act calls =
      ⟨.error (.timeout s!"agent run exceeded timeout of {timeoutMs}ms"), (act calls).state,
        (act calls).journal.take cut⟩ := if_pos early
  rw [dropped]
  exact ⟨_, rfl, rfl⟩

theorem withTimeout_of_late (late : ¬ (timeoutMs.isSome ∧ cut < cuts (act calls))) :
    withTimeout timeoutMs cut act calls = act calls := by
  cases timeoutMs with
  | none => rfl
  | some timeoutMs => exact if_neg fun early => late ⟨rfl, early⟩

end Timeouts

/-- `Brain::run`, for a timeout that runs out after so many events of the run. A panic unwinds
past the report of an error. -/
def run (cut : ℕ) : BrainAction (Finish AgentRunResult) := do
  let result ← attempt (withTimeout req.timeoutMs cut (runInner brain req .new))
  match result with
  | .ok finish => return finish
  | .error err =>
    let _ ← attempt (emitLifecycle brain req .error (some err.toString))
    fail err

end Model

/-! ### The events of the parts -/

section Logs

variable {brain : KelvinBrain} {req : AgentRunRequest} {allowed : BrainEvent → Prop} {α : Type}

theorem logs_ask (call : ℕ → α) : Logs allowed (ask call) :=
  frames_bind frames_get fun _ => frames_bind (frames_modify fun _ => rfl) fun _ => frames_pure _

theorem logs_emit {data : ℕ → AgentEventData}
    (always : ∀ seq tsMs, allowed (.emitted ⟨seq, data tsMs⟩)) :
    Logs allowed (emit brain data) := by
  apply frames_bind (logs_ask _)
  intro seq
  apply frames_bind (logs_ask _)
  intro tsMs
  apply frames_bind (frames_log fun _ => always seq tsMs)
  intro _
  exact frames_bind (logs_ask _) fun _ => frames_ofExcept _

theorem logs_loadHistory : Logs allowed (loadHistory brain req) :=
  frames_bind (logs_ask _) fun _ => frames_ofExcept _

theorem logs_historyFor (turn : Turn) (iteration : ℕ) :
    Logs allowed (historyFor brain req turn iteration) :=
  frames_ite (frames_pure _) logs_loadHistory

theorem logs_appendMessage {message : SessionMessage} (always : allowed (.appended message)) :
    Logs allowed (appendMessage brain req message) := by
  apply frames_bind (logs_ask _)
  intro _
  exact frames_bind (frames_ofExcept _) fun _ => frames_log fun _ => always

theorem logs_emitToolReceipt {toolName resultClass reason : String} {call : ToolCall}
    {startedToolAt : ℕ} (always : ∀ receipt, allowed (.receipt receipt)) :
    Logs allowed (emitToolReceipt brain req toolName call resultClass reason startedToolAt) :=
  frames_bind (logs_ask _) fun _ => frames_log fun _ => always _

def SetsUp : BrainEvent → Prop
  | .emitted ⟨_, .lifecycle _ .start _ _⟩ => True
  | .appended message => message.role = .user
  | _ => False

theorem logs_prepare : Logs SetsUp (prepare brain req) := by
  apply frames_bind (frames_ofExcept _)
  intro _
  apply frames_bind (logs_ask _)
  intro _
  apply frames_bind (logs_emit fun _ _ => trivial)
  intro _
  apply frames_bind (logs_ask _)
  intro _
  apply frames_bind (frames_ofExcept _)
  intro _
  apply frames_bind logs_loadHistory
  intro _
  refine frames_bind (logs_appendMessage (by rfl)) fun _ => ?_
  apply frames_bind (logs_ask _)
  intro _
  exact frames_bind (logs_ask _) fun _ => frames_pure _

def Replies : BrainEvent → Prop
  | .emitted ⟨_, .assistant ..⟩ => True
  | .appended message => message.role = .assistant
  | _ => False

theorem logs_say (assistantText : String) (finalChunk : Bool) :
    Logs Replies (say brain req assistantText finalChunk) := by
  unfold say
  dsimp only
  split_ifs
  · exact frames_pure _
  · apply frames_bind (logs_emit fun _ _ => trivial)
    intro _
    exact frames_bind (logs_appendMessage (by rfl)) fun _ => frames_pure _
  · apply frames_bind (logs_emit fun _ _ => trivial)
    intro _
    exact frames_bind (logs_appendMessage (by rfl)) fun _ => frames_pure _

def CarriesOut : BrainEvent → Prop
  | .emitted ⟨_, .tool ..⟩ | .called _ | .receipt _ => True
  | .appended message => message.role = .tool
  | _ => False

theorem logs_executeToolCall (call : ToolCall) :
    Logs CarriesOut (executeToolCall brain req call) := by
  apply frames_bind (logs_ask _)
  intro _
  apply frames_bind (logs_emit fun _ _ => trivial)
  intro _
  split
  · apply frames_bind (logs_emit fun _ _ => trivial)
    intro _
    exact frames_bind (logs_emitToolReceipt fun _ => trivial) fun _ => frames_pure _
  · apply frames_bind (frames_log fun _ => trivial)
    intro _
    apply frames_bind (logs_ask _)
    intro toolResult
    cases toolResult with
    | error err =>
      apply frames_bind (logs_emit fun _ _ => trivial)
      intro _
      refine frames_bind (logs_appendMessage (by rfl)) fun _ => ?_
      exact frames_bind (logs_emitToolReceipt fun _ => trivial) fun _ => frames_pure _
    | ok result =>
      apply frames_bind (logs_emit fun _ _ => trivial)
      intro _
      refine frames_bind (logs_appendMessage (by rfl)) fun _ => ?_
      exact frames_bind (logs_emitToolReceipt fun _ => trivial) fun _ => frames_pure _

theorem logs_executeEach (calls : List ToolCall) :
    Logs CarriesOut (executeEach brain req calls) := by
  induction calls with
  | nil => exact frames_pure _
  | cons call rest ih =>
    apply frames_bind (logs_executeToolCall call)
    intro _
    exact frames_bind ih fun _ => frames_pure _

end Logs

/-! ### The primitive steps on a ledger -/

section Triples

variable {brain : KelvinBrain} {req : AgentRunRequest} {L : Type} {observer : Observer L BrainEvent}
  {pre : L → Prop} {α : Type}

def Safe (observer : Observer L BrainEvent) (pre : L → Prop) : Prop :=
  ∀ ledger, pre ledger → observer.during ledger ∧ observer.failing ledger

/-- The observer expects no more at that time than what holds. -/
def Kept (observer : Observer L BrainEvent) (pre : L → Prop) : Prop :=
  ∀ ledger, pre ledger → observer.during ledger

theorem Safe.kept (safe : Safe observer pre) : Kept observer pre :=
  fun ledger holds => (safe ledger holds).1

theorem triple_withTimeout {act : BrainAction α} {post : α → L → Prop} {timeoutMs : Option ℕ}
    {cut : ℕ} (triple : Triple observer pre act post)
    (abandons : ∀ ledger, observer.during ledger → observer.failing ledger) :
    Triple observer pre (withTimeout timeoutMs cut act) post := by
  intro s ledger holds
  have ran := triple s ledger holds
  unfold withTimeout
  cases timeoutMs with
  | none => exact ran
  | some timeoutMs =>
    by_cases early : cut < cuts (act s)
    · have short := ran.1
      refine ⟨fun events => ?_, ?_⟩
      · simp only [if_pos early, List.take_take]
        exact short _
      · simp only [if_pos early]
        exact abandons _ (short cut)
    · simp only [wp, if_neg early]
      exact ran

theorem triple_ask (kept : Kept observer pre) (call : ℕ → α) :
    Triple observer pre (ask call) fun _ => pre := by
  intro calls ledger holds
  have during := kept ledger holds
  simp [ask, wp_bind, during, holds]

/-- Up to the look at whether the sink takes it, an event is logged. -/
theorem triple_emit_bind (kept : Kept observer pre) {data : ℕ → AgentEventData} {post : L → Prop}
    (after : Kept observer post)
    (emits : ∀ ledger seq tsMs, pre ledger →
      post (observer.record ledger (.emitted ⟨seq, data tsMs⟩)))
    (accepts : ∀ event, Triple observer post
      (do let accepted ← ask fun calls => brain.emit calls event; ofExcept accepted)
      fun _ => post) :
    Triple observer pre (emit brain data) fun _ => post := by
  apply triple_bind (triple_ask kept _)
  intro seq
  apply triple_bind (triple_ask kept _)
  intro tsMs
  apply triple_bind (R := fun _ => post)
  · apply triple_log kept
    intro ledger holds
    have emitted := emits ledger seq tsMs holds
    exact ⟨after _ emitted, emitted⟩
  · exact fun _ => accepts _

theorem triple_emit (kept : Kept observer pre) {data : ℕ → AgentEventData} {post : L → Prop}
    (after : Safe observer post)
    (emits : ∀ ledger seq tsMs, pre ledger →
      post (observer.record ledger (.emitted ⟨seq, data tsMs⟩))) :
    Triple observer pre (emit brain data) fun _ => post :=
  triple_emit_bind kept after.kept emits fun _ =>
    triple_bind (triple_ask after.kept _) fun _ => triple_ofExcept after

def Accepts (brain : KelvinBrain) : Prop := ∀ calls event, brain.emit calls event = .ok ()

/-- An event that the sink takes. The computation does not fail between the event and what
follows it. -/
theorem triple_emit_of_accepts (accepts : Accepts brain) (kept : Kept observer pre)
    {data : ℕ → AgentEventData} {post : L → Prop} (after : Kept observer post)
    (emits : ∀ ledger seq tsMs, pre ledger →
      post (observer.record ledger (.emitted ⟨seq, data tsMs⟩))) :
    Triple observer pre (emit brain data) fun _ => post := by
  refine triple_emit_bind kept after emits fun event calls ledger holds => ?_
  have during := after ledger holds
  simp [ask, wp_bind, accepts _ _, ofExcept_ok, during, holds]

variable (safe : Safe observer pre)
include safe

theorem triple_loadHistory : Triple observer pre (loadHistory brain req) fun _ => pre :=
  triple_of_logs logs_loadHistory (fun _ _ _ => False.elim) safe

theorem triple_appendMessage {message : SessionMessage} {post : L → Prop}
    (after : Safe observer post)
    (appends : ∀ ledger, pre ledger → post (observer.record ledger (.appended message))) :
    Triple observer pre (appendMessage brain req message) fun _ => post := by
  apply triple_bind (triple_ask safe.kept _)
  intro stored
  apply triple_bind (triple_ofExcept safe)
  intro _
  apply triple_log safe.kept
  intro ledger holds
  exact ⟨(after _ (appends ledger holds)).1, appends ledger holds⟩

theorem triple_emitToolReceipt {toolName resultClass reason : String} {call : ToolCall}
    {startedToolAt : ℕ} {post : L → Prop} (after : Safe observer post)
    (receives : ∀ ledger receipt, pre ledger → post (observer.record ledger (.receipt receipt))) :
    Triple observer pre (emitToolReceipt brain req toolName call resultClass reason startedToolAt)
      fun _ => post := by
  apply triple_bind (triple_ask safe.kept _)
  intro now
  apply triple_log safe.kept
  intro ledger holds
  exact ⟨(after _ (receives ledger _ holds)).1, receives ledger _ holds⟩

/-- What a run does before its first question, unless it refuses the prompt. -/
theorem triple_prepare {post : L → Prop} (after : Safe observer post)
    (starts : ∀ ledger seq tsMs, pre ledger →
      post (observer.record ledger (.emitted ⟨seq, .lifecycle req.runId .start none tsMs⟩)))
    (appends : ∀ ledger, post ledger →
      post (observer.record ledger (.appended (.user req.prompt)))) :
    Triple observer pre (prepare brain req) fun _ => post := by
  apply triple_bind (triple_ofExcept safe)
  intro _
  apply triple_bind (triple_ask safe.kept _)
  intro startedAt
  apply triple_bind (triple_emit safe.kept after starts)
  intro _
  apply triple_bind (triple_ask after.kept _)
  intro registered
  apply triple_bind (triple_ofExcept after)
  intro _
  apply triple_bind (triple_loadHistory after)
  intro priorHistory
  apply triple_bind (triple_appendMessage after after appends)
  intro _
  apply triple_bind (triple_ask after.kept _)
  intro memoryHits
  apply triple_bind (triple_ask after.kept _)
  exact fun _ => triple_pure fun ledger holds => ⟨(after ledger holds).1, holds⟩

theorem triple_infer {input : ModelInput} {post : L → Prop} (after : Safe observer post)
    (asks : ∀ ledger, pre ledger → post (observer.record ledger (.inferring input))) :
    Triple observer pre (infer brain input) fun _ => post := by
  apply triple_bind (R := fun _ => post)
  · apply triple_log safe.kept
    intro ledger holds
    exact ⟨(after _ (asks ledger holds)).1, asks ledger holds⟩
  · intro _
    exact triple_bind (triple_ask after.kept _) fun _ => triple_ofExcept after

theorem triple_question {turn : Turn} {iteration : ℕ} {post : L → Prop}
    (after : Safe observer post)
    (asks : ∀ ledger input, pre ledger → input.tools = brain.tools.definitions →
      post (observer.record ledger (.inferring input))) :
    Triple observer pre (question brain req turn iteration) fun _ => post := by
  apply triple_bind (R := fun _ => pre)
  · exact triple_of_logs (logs_historyFor turn iteration) (fun _ _ _ => False.elim) safe
  · exact fun _ => triple_infer safe after fun ledger holds => asks ledger _ holds rfl

theorem triple_conclude {turn : Turn} {loopEnd : LoopEnd} {post : L → Prop}
    (after : Safe observer post)
    (emits : ∀ ledger seq tsMs, pre ledger →
      post (observer.record ledger (.emitted ⟨seq, .lifecycle req.runId .ended none tsMs⟩))) :
    Triple observer pre (conclude brain req turn loopEnd) fun result ledger =>
      result.agentMeta.toolIterations = loopEnd.toolIterations ∧ post ledger := by
  apply triple_bind (triple_emit safe.kept after emits)
  intro _
  apply triple_bind (triple_ask after.kept _)
  exact fun _ => triple_pure fun ledger holds => ⟨(after ledger holds).1, rfl, holds⟩

theorem triple_say {assistantText : String} {finalChunk : Bool}
    (replies : ∀ ledger event, pre ledger → Replies event → pre (observer.record ledger event)) :
    Triple observer pre (say brain req assistantText finalChunk) fun _ => pre :=
  triple_of_logs (logs_say assistantText finalChunk) replies safe

theorem triple_executeToolCalls {calls : List ToolCall} {during : L → Prop}
    {each post : List (ToolCall × AgentPayload) → L → Prop} (within : Safe observer during)
    (eachSafe : ∀ results, Safe observer (each results))
    (after : ∀ results, Kept observer (post results))
    (starts : ∀ ledger, pre ledger → during (observer.record ledger (.executing calls)))
    (carriesOut : Triple observer during (executeEach brain req calls) each)
    (ends : ∀ results ledger, each results ledger →
      post results (observer.record ledger (.executed calls results))) :
    Triple observer pre (executeToolCalls brain req calls) post := by
  apply triple_bind (R := fun _ => during)
  · apply triple_log safe.kept
    exact fun ledger holds => ⟨(within _ (starts ledger holds)).1, starts ledger holds⟩
  intro _
  apply triple_bind carriesOut
  intro results
  apply triple_bind (R := fun _ => post results)
  · apply triple_log (eachSafe results).kept
    exact fun ledger holds =>
      ⟨after results _ (ends results ledger holds), ends results ledger holds⟩
  · exact fun _ => triple_pure fun ledger holds => ⟨after results ledger holds, holds⟩

omit safe in
theorem triple_finalAnswer (kept : Kept observer pre) {turn : Turn} {reason : String}
    {payloads : List AgentPayload} {iteration : ℕ} {warned answered : L → Prop}
    (after : Safe observer warned) (last : Safe observer answered)
    (warns : ∀ ledger seq tsMs, pre ledger → warned (observer.record ledger
      (.emitted ⟨seq, .lifecycle req.runId .warning (some reason) tsMs⟩)))
    (asks : ∀ ledger input, warned ledger → input.tools = [] →
      answered (observer.record ledger (.inferring input)))
    (replies : ∀ ledger event, answered ledger → Replies event →
      answered (observer.record ledger event)) :
    Triple observer pre (finalAnswer brain req turn reason payloads iteration)
      fun loopEnd ledger => loopEnd.toolIterations = iteration ∧ answered ledger := by
  apply triple_bind (triple_emit kept after warns)
  intro _
  apply triple_bind (triple_loadHistory after)
  intro _
  apply triple_bind (triple_infer after last fun ledger holds => asks ledger _ holds rfl)
  intro _
  apply triple_bind (triple_say last replies)
  exact fun _ => triple_pure fun ledger holds => ⟨(last ledger holds).1, rfl, holds⟩

omit safe in
theorem lt_of_forceReason {maxIter iteration : ℕ} {detection : LoopDetectionResult}
    (unforced : forceReason maxIter iteration detection = none) : iteration < maxIter := by
  cases detection with
  | noIssue => simpa [forceReason] using unforced
  | suspectedLoop toolName repeatCount isAllErrors =>
    simp only [forceReason] at unforced
    split_ifs at unforced

omit safe in
theorem triple_afterTools (kept : Kept observer pre) {turn : Turn} {maxIter : ℕ} {state : LoopState}
    {results : List (ToolCall × AgentPayload)} {post : Pass → L → Prop}
    (final : ∀ reason payloads detection,
      (state.detector.recordCall brain.toText (recordedCalls results)).2 = some detection →
      forceReason maxIter (state.iteration + 1) detection = some reason →
      Triple observer pre (finalAnswer brain req turn reason payloads (state.iteration + 1))
        fun loopEnd => post (.ends loopEnd))
    (endsKept : ∀ loopEnd, Kept observer (post (.ends loopEnd)))
    (goesOn : ∀ ledger payloads detection, pre ledger →
      (state.detector.recordCall brain.toText (recordedCalls results)).2 = some detection →
      forceReason maxIter (state.iteration + 1) detection = none →
      post (.goesOn ⟨state.iteration + 1, payloads,
        (state.detector.recordCall brain.toText (recordedCalls results)).1⟩) ledger)
    (panics : ∀ ledger, pre ledger →
      (state.detector.recordCall brain.toText (recordedCalls results)).2 = none →
      post .panics ledger) :
    Triple observer pre (afterTools brain req turn maxIter state results) post := by
  unfold afterTools
  dsimp only
  split
  · next panicked =>
    exact triple_pure fun ledger holds => ⟨kept ledger holds, panics ledger holds panicked⟩
  · next detection detected =>
    split
    · next reason forced =>
      apply triple_bind (final reason _ detection detected forced)
      exact fun loopEnd => triple_pure fun ledger holds => ⟨endsKept loopEnd ledger holds, holds⟩
    · next unforced =>
      apply triple_pure
      exact fun ledger holds =>
        ⟨kept ledger holds, goesOn ledger _ detection holds detected unforced⟩

theorem triple_iterate {turn : Turn} {maxIter : ℕ} {state : LoopState} {asked : L → Prop}
    {post : Pass → L → Prop}
    {E : List ToolCall → List (ToolCall × AgentPayload) → L → Prop}
    (after : Safe observer asked)
    (asks : ∀ ledger input, pre ledger → input.tools = brain.tools.definitions →
      asked (observer.record ledger (.inferring input)))
    (replies : ∀ ledger event, asked ledger → Replies event → asked (observer.record ledger event))
    (plain : ∀ ledger payloads stopReason, asked ledger →
      post (.ends ⟨payloads, stopReason, state.iteration⟩) ledger)
    (executes : ∀ calls, calls ≠ [] →
      Triple observer asked (executeToolCalls brain req calls) (E calls))
    (follows : ∀ calls results,
      Triple observer (E calls results) (afterTools brain req turn maxIter state results)
        post) :
    Triple observer pre (iterate brain req turn maxIter state) post := by
  apply triple_bind (triple_question safe after asks)
  intro output
  apply triple_bind (triple_say after replies)
  intro said
  split_ifs with none
  · exact triple_pure fun ledger holds => ⟨(after ledger holds).1, plain ledger _ _ holds⟩
  · exact triple_bind (executes _ fun empty => none (by rw [empty]; rfl)) fun _ => follows _ _

omit safe in
/-- The loop, from what each of its passes does. A pass that goes on is one iteration further,
within the limit, so that enough passes leave nothing unfinished. -/
theorem triple_toolLoop {turn : Turn} {maxIter limit : ℕ} {I : LoopState → L → Prop}
    {ends : LoopEnd → L → Prop} {panics : L → Prop}
    (endsSafe : ∀ loopEnd, Safe observer (ends loopEnd)) (panicsSafe : Safe observer panics)
    (pass : ∀ state, state.iteration < limit →
      Triple observer (I state) (iterate brain req turn maxIter state) fun pass =>
        match pass with
        | .ends loopEnd => ends loopEnd
        | .goesOn next => fun ledger =>
          I next ledger ∧ next.iteration = state.iteration + 1 ∧ next.iteration < limit
        | .panics => panics)
    {passes : ℕ} {state : LoopState} (within : state.iteration < limit)
    (enough : limit ≤ state.iteration + passes) :
    Triple observer (I state) (toolLoop brain req turn maxIter passes state) fun finish =>
      match finish with
      | .finished loopEnd => ends loopEnd
      | .panicked => panics
      | .unfinished => fun _ => False := by
  induction passes generalizing state with
  | zero => omega
  | succ passes ih =>
    apply triple_bind (pass state within)
    intro outcome
    cases outcome with
    | ends loopEnd =>
      exact triple_pure fun ledger holds => ⟨(endsSafe loopEnd ledger holds).1, holds⟩
    | goesOn next =>
      intro calls ledger ⟨holds, further, again⟩
      exact ih again (by omega) calls ledger holds
    | panics => exact triple_pure fun ledger holds => ⟨(panicsSafe ledger holds).1, holds⟩

omit safe in
theorem triple_runInner {detector : ToolLoopDetector} {I : LoopState → L → Prop}
    {ends : LoopEnd → L → Prop} {panics : L → Prop} {post : LoopEnd → L → Prop}
    (endsSafe : ∀ loopEnd, Safe observer (ends loopEnd)) (panicsSafe : Safe observer panics)
    (postKept : ∀ loopEnd, Kept observer (post loopEnd))
    (prepares : Triple observer pre (prepare brain req) fun _ => I ⟨0, [], detector⟩)
    (pass : ∀ turn state, state.iteration < max 1 (maxIterOf brain req) →
      Triple observer (I state) (iterate brain req turn (maxIterOf brain req) state) fun pass =>
        match pass with
        | .ends loopEnd => ends loopEnd
        | .goesOn next => fun ledger =>
          I next ledger ∧ next.iteration = state.iteration + 1 ∧
            next.iteration < max 1 (maxIterOf brain req)
        | .panics => panics)
    (concludes : ∀ turn loopEnd,
      Triple observer (ends loopEnd) (conclude brain req turn loopEnd) fun result ledger =>
        result.agentMeta.toolIterations = loopEnd.toolIterations ∧ post loopEnd ledger) :
    Triple observer pre (runInner brain req detector) fun finish =>
      match finish with
      | .finished result => fun ledger => ∃ loopEnd,
        result.agentMeta.toolIterations = loopEnd.toolIterations ∧ post loopEnd ledger
      | .panicked => panics
      | .unfinished => fun _ => False := by
  apply triple_bind prepares
  intro turn
  apply triple_bind (triple_toolLoop endsSafe panicsSafe (pass turn)
    (Nat.lt_of_lt_of_le Nat.one_pos (Nat.le_max_left _ _)) (by omega))
  intro finish
  cases finish with
  | finished loopEnd =>
    apply triple_bind (concludes turn loopEnd)
    intro result
    apply triple_pure
    exact fun ledger holds => ⟨postKept loopEnd ledger holds.2, loopEnd, holds⟩
  | panicked => exact triple_pure fun ledger holds => ⟨(panicsSafe ledger holds).1, holds⟩
  | unfinished => exact triple_pure fun ledger => False.elim

omit safe in
/-- What holds at every time of a run, cut or not, when the report of an error keeps it. -/
theorem triple_run {record : L → BrainEvent → L} {during : L → Prop} {cut : ℕ}
    {post : Finish AgentRunResult → L → Prop}
    (inner : Triple ⟨record, during, during⟩ pre (runInner brain req .new) post)
    (reports : ∀ ledger seq tsMs message, during ledger →
      during (record ledger (.emitted ⟨seq, .lifecycle req.runId .error message tsMs⟩))) :
    Triple ⟨record, during, during⟩ pre (run brain req cut) fun _ => during := by
  have safe : Safe ⟨record, during, during⟩ during := fun _ holds => ⟨holds, holds⟩
  apply triple_bind (R := fun _ => during)
  · have limited : Triple ⟨record, during, during⟩ pre
        (withTimeout req.timeoutMs cut (runInner brain req .new)) post :=
      triple_withTimeout inner fun _ => id
    apply Triple.mono (triple_attempt limited) (fun _ => id)
    intro result ledger holds _
    exact holds
  · intro result
    cases result with
    | ok finish => exact triple_pure fun ledger holds => ⟨holds, holds⟩
    | error err =>
      apply triple_bind (R := fun _ => during)
      · have emits : Triple ⟨record, during, during⟩ during
            (emitLifecycle brain req .error (some err.toString)) fun _ => during :=
          triple_emit safe.kept safe fun ledger seq tsMs holds => reports ledger seq tsMs _ holds
        apply (triple_attempt emits).mono (fun _ => id)
        intro result ledger holds _
        exact holds
      · exact fun _ => triple_fail safe

end Triples

/-! ### Calm surroundings -/

/-- A brain whose surroundings answer at once, with a model and tools. -/
def calmBrain (infer : ℕ → ModelInput → KelvinResult ModelOutput) (tools : ToolRegistry) :
    KelvinBrain where
  upsertSession _ _ := .ok ()
  history _ _ := .ok []
  appendMessage _ _ _ := .ok ()
  search _ _ := .ok []
  systemPrompt _ _ := "You are Kelvin."
  providerName := "stub"
  modelName := "stub-model"
  infer
  tools
  emit _ _ := .ok ()
  nextSeq calls := calls
  nowMs calls := calls
  maxToolIterations := 10
  toText _ := "\x7b\x7d"

def plainRequest : AgentRunRequest :=
  ⟨"run-1", "session-1", "session-1", ".", "hello", none, none, none, none⟩

end KelvinClaw.Brain
