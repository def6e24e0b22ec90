import KelvinClaw.Brain.Lifecycle
import KelvinClaw.Library.Annotation

/-!
# The audit receipts of a run

Every tool call whose start the event sink took is to have one audit receipt, which says what
came of it, before the run ends. A receipt is written last: after the tool has answered, the sink
has taken its end and the session store its message. Where one of these fails the run ends
without the receipt, although the tool has run, and so it does where a timeout drops the run in
between.

What a tool answered is not among the events of a run. A watched run is the same run with notes
on its events: the first event of an execution says which call is carried out, and at which
number of calls to the surroundings, and this determines the answer.
-/

namespace KelvinClaw.Brain

open KelvinClaw.Core KelvinClaw.Sdk Systems Systems.Action

/-! ### Executions -/

/-- A tool call whose start the event sink took, with the number of calls to the surroundings
before it is carried out. -/
structure Execution where
  call : ToolCall
  calls : ℕ
  deriving DecidableEq, Repr

/-- What comes of an execution. -/
inductive ToolOutcome where
  | unknown
  | answered (tool : Tool) (result : KelvinResult ToolCallResult)

def ToolOutcome.resultClass : ToolOutcome → String
  | .unknown => "denied"
  | .answered _ (.error _) => "error"
  | .answered _ (.ok result) => if result.isError then "tool_error" else "success"

section Model

variable (brain : KelvinBrain) (req : AgentRunRequest)

def outcomeOf (execution : Execution) : ToolOutcome :=
  match brain.tools.get execution.call.name with
  | none => .unknown
  | some tool => .answered tool (tool.call execution.calls
      ⟨req.runId, req.sessionId, req.workspaceDir, execution.call.arguments⟩)

/-- The rest of `executeToolCall` once the sink took the start of the tool. -/
def carryOut (call : ToolCall) (startedToolAt : ℕ) :
    BrainAction (Option (ToolCall × AgentPayload)) :=
  match brain.tools.get call.name with
  | none => reportUnknown brain req call startedToolAt
  | some tool => do
    log (.called call)
    let toolResult ← ask fun calls =>
      tool.call calls ⟨req.runId, req.sessionId, req.workspaceDir, call.arguments⟩
    match toolResult with
    | .error err => reportError brain req call tool err startedToolAt
    | .ok result => reportResult brain req call tool result startedToolAt

theorem executeToolCall_eq (call : ToolCall) :
    executeToolCall brain req call = (do
      let startedToolAt ← ask brain.nowMs
      emitTool brain req call.name .start (some "tool execution started") none
      carryOut brain req call startedToolAt) := rfl

def failureSummary (tool : Tool) (err : KelvinError) : String :=
  s!"tool '{tool.name}' failed: {err.toString}"

def endOf (call : ToolCall) : ToolOutcome → ℕ → AgentEventData
  | .unknown => .tool req.runId call.name .error (some s!"unknown tool: {call.name}") none
  | .answered tool (.error err) =>
    .tool req.runId tool.name .error (some (failureSummary tool err)) none
  | .answered tool (.ok result) =>
    .tool req.runId tool.name (if result.isError then .error else .ended) (some result.summary)
      result.output

def messageOf (tool : Tool) : KelvinResult ToolCallResult → SessionMessage
  | .error err => .tool s!"{failureSummary tool err}\n\nError:\n{err.toString}"
      (.object [("tool", .str tool.name), ("is_error", .bool true), ("error", .str err.toString)])
  | .ok result => .tool (toolContent result)
      (.object [("tool", .str tool.name), ("is_error", .bool result.isError),
        ("output", .ofOption result.output)])

/-- The sink takes the end of the tool, and the session store its message. -/
def Reports (execution : Execution) : Prop :=
  let outcome := outcomeOf brain req execution
  let data := endOf req execution.call outcome
  let calls := execution.calls
  match outcome with
  | .unknown =>
    brain.emit (calls + 2) ⟨brain.nextSeq calls, data (brain.nowMs (calls + 1))⟩ = .ok ()
  | .answered tool result =>
    brain.emit (calls + 3) ⟨brain.nextSeq (calls + 1), data (brain.nowMs (calls + 2))⟩ = .ok () ∧
      brain.appendMessage (calls + 4) req.sessionId (messageOf tool result) = .ok ()

/-! ### Watched runs -/

abbrev WatchedEvent := BrainEvent × Option Execution

abbrev WatchedAction := Action ℕ WatchedEvent KelvinError

def unwatched {α : Type} (act : BrainAction α) : WatchedAction α := mapJournal unannotated act

def watchToolCall (call : ToolCall) : WatchedAction (Option (ToolCall × AgentPayload)) := do
  let startedToolAt ← unwatched (ask brain.nowMs)
  unwatched (emitTool brain req call.name .start (some "tool execution started") none)
  let calls ← get
  mapJournal (annotateFirst ⟨call, calls⟩) (carryOut brain req call startedToolAt)

def watchEach : List ToolCall → WatchedAction (List (ToolCall × AgentPayload))
  | [] => return []
  | call :: rest => do
    let payload ← watchToolCall brain req call
    let payloads ← watchEach rest
    return payload.toList ++ payloads

def watchToolCalls (calls : List ToolCall) :
    WatchedAction (List (ToolCall × AgentPayload)) := do
  unwatched (log (.executing calls))
  let payloads ← watchEach brain req calls
  unwatched (log (.executed calls payloads))
  return payloads

def watchPass (turn : Turn) (maxIter : ℕ) (state : LoopState) : WatchedAction Pass := do
  let output ← unwatched (question brain req turn state.iteration)
  let said ← unwatched (say brain req output.assistantText output.toolCalls.isEmpty)
  if output.toolCalls.isEmpty then
    return .ends ⟨state.payloads ++ said, output.stopReason, state.iteration⟩
  else
    let results ← watchToolCalls brain req output.toolCalls
    unwatched (afterTools brain req turn maxIter state results)

def watchLoop (turn : Turn) (maxIter : ℕ) : ℕ → LoopState → WatchedAction (Finish LoopEnd)
  | 0, _ => return .unfinished
  | passes + 1, state => do
    let pass ← watchPass brain req turn maxIter state
    match pass with
    | .ends loopEnd => return .finished loopEnd
    | .goesOn next => watchLoop turn maxIter passes next
    | .panics => return .panicked

/-- `runInner`, watched. -/
def watchInner : WatchedAction (Finish AgentRunResult) := do
  let turn ← unwatched (prepare brain req)
  let maxIter := maxIterOf brain req
  let finish ← watchLoop brain req turn maxIter (max 1 maxIter) ⟨0, [], .new⟩
  match finish with
  | .finished loopEnd => do
    let result ← unwatched (conclude brain req turn loopEnd)
    return .finished result
  | .panicked => return .panicked
  | .unfinished => return .unfinished

def unnoted {α : Type} (outcome : Outcome ℕ WatchedEvent KelvinError α) :
    Outcome ℕ BrainEvent KelvinError α :=
  ⟨outcome.result, outcome.state, outcome.journal.map Prod.fst⟩

/-- `withTimeout`, watched. -/
def watchTimeout {α : Type} (timeoutMs : Option ℕ) (cut : ℕ) (act : WatchedAction α) :
    WatchedAction α := fun calls =>
  let outcome := act calls
  match timeoutMs with
  | none => outcome
  | some timeoutMs =>
    if cut < cuts (unnoted outcome) then
      ⟨.error (.timeout s!"agent run exceeded timeout of {timeoutMs}ms"), outcome.state,
        outcome.journal.take cut⟩
    else outcome

/-- `run`, watched. -/
def watchRun (cut : ℕ) : WatchedAction (Finish AgentRunResult) := do
  let result ← attempt (watchTimeout req.timeoutMs cut (watchInner brain req))
  match result with
  | .ok finish => return finish
  | .error err =>
    let _ ← attempt (unwatched (emitLifecycle brain req .error (some err.toString)))
    fail err

/-! ### The receipts of a run -/

/-- Executions are opened by their notes and closed by receipts, under the id of the call and
the class of its result. The terminal events of the run end them. -/
def receiptBrackets : Brackets WatchedEvent (String × String) where
  opens event := event.2.map fun execution =>
    (execution.call.id, (outcomeOf brain req execution).resultClass)
  closes event :=
    match event.1 with
    | .receipt receipt => some (receipt.toolCallId, receipt.resultClass)
    | _ => none
  ends event :=
    match event.1 with
    | .emitted event => runBrackets.ends event
    | _ => false

/-- Each tool call whose start the sink took has exactly one receipt, with the class of its
outcome, before the next one starts and before the run ends, and there are no other receipts. -/
structure Receipted (journal : List WatchedEvent) : Prop where
  own : (receiptBrackets brain req).Settled journal
  only : journal.filterMap (receiptBrackets brain req).closes =
    journal.filterMap (receiptBrackets brain req).opens

/-- An execution has started, and its receipt is not written. -/
def awaitsReceipt (past : List WatchedEvent) : Bool :=
  past.foldl (fun awaits event => event.2.isSome ||
    awaits && ((receiptBrackets brain req).closes event).isNone) false

/-- The timeout of a run drops it while a tool call waits for its receipt. -/
def CutsReceipt (cut calls : ℕ) : Prop :=
  let inner := watchInner brain req calls
  req.timeoutMs.isSome ∧ cut < cuts (unnoted inner) ∧
    awaitsReceipt brain req (inner.journal.take cut) = true

def executionsOf (journal : List WatchedEvent) : List Execution := journal.filterMap Prod.snd

end Model

/-! ### Watching changes nothing -/

section Erasure

variable {brain : KelvinBrain} {req : AgentRunRequest} {α : Type}

theorem erases_unwatched (act : BrainAction α) : Erases (unwatched act) act :=
  erases_mapJournal map_fst_unannotated act

theorem erases_watchToolCall (call : ToolCall) :
    Erases (watchToolCall brain req call) (executeToolCall brain req call) := by
  rw [executeToolCall_eq]
  apply erases_bind (erases_unwatched _)
  intro startedToolAt
  apply erases_bind (erases_unwatched _)
  intro _
  apply erases_get_bind
  intro calls
  exact erases_mapJournal (map_fst_annotateFirst _) _

theorem erases_watchEach (calls : List ToolCall) :
    Erases (watchEach brain req calls) (executeEach brain req calls) := by
  induction calls with
  | nil => exact erases_pure _
  | cons call rest ih =>
    apply erases_bind (erases_watchToolCall call)
    intro payload
    exact erases_bind ih fun _ => erases_pure _

theorem erases_watchToolCalls (calls : List ToolCall) :
    Erases (watchToolCalls brain req calls) (executeToolCalls brain req calls) := by
  apply erases_bind (erases_unwatched _)
  intro _
  apply erases_bind (erases_watchEach calls)
  intro payloads
  exact erases_bind (erases_unwatched _) fun _ => erases_pure _

theorem erases_watchPass (turn : Turn) (maxIter : ℕ) (state : LoopState) :
    Erases (watchPass brain req turn maxIter state) (iterate brain req turn maxIter state) := by
  apply erases_bind (erases_unwatched _)
  intro output
  apply erases_bind (erases_unwatched _)
  intro said
  apply erases_ite (erases_pure _)
  exact erases_bind (erases_watchToolCalls _) fun _ => erases_unwatched _

theorem erases_watchLoop (turn : Turn) (maxIter passes : ℕ) (state : LoopState) :
    Erases (watchLoop brain req turn maxIter passes state)
      (toolLoop brain req turn maxIter passes state) := by
  induction passes generalizing state with
  | zero => exact erases_pure _
  | succ passes ih =>
    apply erases_bind (erases_watchPass turn maxIter state)
    intro pass
    cases pass with
    | ends loopEnd => exact erases_pure _
    | goesOn next => exact ih next
    | panics => exact erases_pure _

theorem erases_watchInner : Erases (watchInner brain req) (runInner brain req .new) := by
  apply erases_bind (erases_unwatched _)
  intro turn
  apply erases_bind (erases_watchLoop turn _ _ _)
  intro finish
  cases finish with
  | finished loopEnd => exact erases_bind (erases_unwatched _) fun _ => erases_pure _
  | panicked => exact erases_pure _
  | unfinished => exact erases_pure _

theorem unnoted_eq {watched : WatchedAction α} {act : BrainAction α} (erases : Erases watched act)
    (calls : ℕ) : unnoted (watched calls) = act calls := by
  obtain ⟨result, state, journal⟩ := erases calls
  rw [unnoted, result, state, journal]

theorem erases_watchTimeout {watched : WatchedAction α} {act : BrainAction α}
    (erases : Erases watched act) (timeoutMs : Option ℕ) (cut : ℕ) :
    Erases (watchTimeout timeoutMs cut watched) (withTimeout timeoutMs cut act) := by
  intro calls
  obtain ⟨result, state, journal⟩ := erases calls
  cases timeoutMs with
  | none => exact ⟨result, state, journal⟩
  | some timeoutMs =>
    simp only [watchTimeout, withTimeout, unnoted_eq erases]
    split
    · exact ⟨rfl, state, by rw [List.map_take, journal]⟩
    · exact ⟨result, state, journal⟩

theorem erases_watchRun (cut : ℕ) : Erases (watchRun brain req cut) (run brain req cut) := by
  apply erases_bind (erases_attempt (erases_watchTimeout erases_watchInner _ _))
  intro result
  cases result with
  | ok finish => exact erases_pure _
  | error err =>
    exact erases_bind (erases_attempt (erases_unwatched _)) fun _ => erases_fail _

end Erasure

/-! ### One execution -/

section Executions

variable {brain : KelvinBrain} {req : AgentRunRequest}

theorem emit_apply (brain : KelvinBrain) (data : ℕ → AgentEventData) (calls : ℕ) :
    emit brain data calls =
      ⟨brain.emit (calls + 2) ⟨brain.nextSeq calls, data (brain.nowMs (calls + 1))⟩, calls + 3,
        [.emitted ⟨brain.nextSeq calls, data (brain.nowMs (calls + 1))⟩]⟩ := by
  rw [emit, bind_apply_ok (ask_apply _ _), bind_apply_ok (ask_apply _ _),
    bind_apply_ok (log_apply _ _), bind_apply_ok (ask_apply _ _)]
  cases brain.emit (calls + 1 + 1) ⟨brain.nextSeq calls, data (brain.nowMs (calls + 1))⟩ <;> rfl

theorem appendMessage_apply_ok {message : SessionMessage} {calls : ℕ}
    (stored : brain.appendMessage calls req.sessionId message = .ok ()) :
    appendMessage brain req message calls = ⟨.ok (), calls + 1, [.appended message]⟩ := by
  rw [appendMessage, bind_apply_ok (ask_apply _ _), stored]
  rfl

theorem appendMessage_apply_error {message : SessionMessage} {calls : ℕ} {err : KelvinError}
    (refused : brain.appendMessage calls req.sessionId message = .error err) :
    appendMessage brain req message calls = ⟨.error err, calls + 1, []⟩ := by
  rw [appendMessage, bind_apply_ok (ask_apply _ _), refused]
  rfl

theorem emitToolReceipt_apply (toolName resultClass reason : String) (call : ToolCall)
    (startedToolAt calls : ℕ) :
    emitToolReceipt brain req toolName call resultClass reason startedToolAt calls =
      ⟨.ok (), calls + 1, [.receipt ⟨req.runId, req.sessionId, toolName, call.id, resultClass,
        sanitizeReceiptReason reason, brain.nowMs calls - startedToolAt⟩]⟩ := rfl

def ServesCall : BrainEvent → Prop
  | .emitted ⟨_, .tool ..⟩ | .called _ | .appended _ => True
  | _ => False

/-- An execution that wrote its receipt, and one that ended before. -/
inductive Executed (brain : KelvinBrain) (req : AgentRunRequest) (execution : Execution)
    (outcome : Outcome ℕ BrainEvent KelvinError (Option (ToolCall × AgentPayload))) : Prop where
  | receipted (opening : BrainEvent) (middle : List BrainEvent) (receipt : ToolReceipt)
      (reports : Reports brain req execution) (succeeds : ∃ payload, outcome.result = .ok payload)
      (journal : outcome.journal = opening :: middle ++ [.receipt receipt])
      (within : ∀ event ∈ opening :: middle, ServesCall event)
      (sameCall : receipt.toolCallId = execution.call.id)
      (sameClass : receipt.resultClass = (outcomeOf brain req execution).resultClass)
  | broken (opening : BrainEvent) (middle : List BrainEvent)
      (unreported : ¬ Reports brain req execution) (fails : ∃ err, outcome.result = .error err)
      (journal : outcome.journal = opening :: middle)
      (within : ∀ event ∈ opening :: middle, ServesCall event)

/-- What follows the answer of a tool, as far as the sink and the store let it. -/
inductive Reported (brain : KelvinBrain) (req : AgentRunRequest) (data : ℕ → AgentEventData)
    (message : SessionMessage) (call : ToolCall) (resultClass : String) (calls : ℕ)
    (outcome : Outcome ℕ BrainEvent KelvinError (Option (ToolCall × AgentPayload))) : Prop where
  | complete (receipt : ToolReceipt)
      (taken : brain.emit (calls + 2)
        ⟨brain.nextSeq calls, data (brain.nowMs (calls + 1))⟩ = .ok ())
      (stored : brain.appendMessage (calls + 3) req.sessionId message = .ok ())
      (succeeds : ∃ payload, outcome.result = .ok payload)
      (journal : outcome.journal =
        [.emitted ⟨brain.nextSeq calls, data (brain.nowMs (calls + 1))⟩, .appended message,
          .receipt receipt])
      (sameCall : receipt.toolCallId = call.id) (sameClass : receipt.resultClass = resultClass)
  | broken
      (refused : ¬ (brain.emit (calls + 2)
          ⟨brain.nextSeq calls, data (brain.nowMs (calls + 1))⟩ = .ok () ∧
        brain.appendMessage (calls + 3) req.sessionId message = .ok ()))
      (fails : ∃ err, outcome.result = .error err)
      (journal : outcome.journal =
        [.emitted ⟨brain.nextSeq calls, data (brain.nowMs (calls + 1))⟩])

theorem reported_report (data : ℕ → AgentEventData) (message : SessionMessage)
    (toolName resultClass reason : String) (call : ToolCall) (startedToolAt calls : ℕ)
    (payload : Option (ToolCall × AgentPayload)) :
    Reported brain req data message call resultClass calls
      ((do
        emit brain data
        appendMessage brain req message
        emitToolReceipt brain req toolName call resultClass reason startedToolAt
        return payload) calls) := by
  have emits := emit_apply brain data calls
  cases taken : brain.emit (calls + 2) ⟨brain.nextSeq calls, data (brain.nowMs (calls + 1))⟩ with
  | error err =>
    -- The sink refuses the end, and the message is never tried.
    rw [taken] at emits
    rw [bind_apply_of_error (congrArg Outcome.result emits), emits]
    refine .broken (fun both => ?_) ⟨err, rfl⟩ rfl
    rw [taken] at both
    cases both.1
  | ok _ =>
    rw [taken] at emits
    rw [bind_apply_ok emits]
    cases stored : brain.appendMessage (calls + 3) req.sessionId message with
    | error err =>
      -- The store refuses the message of a tool that has ended.
      have appends := appendMessage_apply_error stored
      rw [bind_apply_of_error (congrArg Outcome.result appends), appends]
      refine .broken (fun both => ?_) ⟨err, rfl⟩ rfl
      rw [stored] at both
      cases both.2
    | ok _ =>
      have appends := appendMessage_apply_ok stored
      rw [bind_apply_ok appends, bind_apply_ok (emitToolReceipt_apply _ _ _ _ _ _)]
      exact .complete _ taken stored ⟨payload, rfl⟩ rfl rfl rfl

theorem Reported.executed {call : ToolCall} {calls : ℕ} {tool : Tool}
    {result : KelvinResult ToolCallResult}
    {report : Outcome ℕ BrainEvent KelvinError (Option (ToolCall × AgentPayload))}
    (answers : outcomeOf brain req ⟨call, calls⟩ = .answered tool result)
    (reported : Reported brain req (endOf req call (.answered tool result)) (messageOf tool result)
      call (ToolOutcome.answered tool result).resultClass (calls + 1) report)
    {outcome : Outcome ℕ BrainEvent KelvinError (Option (ToolCall × AgentPayload))}
    (same : outcome.result = report.result)
    (journal : outcome.journal = .called call :: report.journal) :
    Executed brain req ⟨call, calls⟩ outcome := by
  have serves (seq tsMs : ℕ) :
      ServesCall (.emitted ⟨seq, endOf req call (.answered tool result) tsMs⟩) := by
    cases result <;> trivial
  cases reported with
  | complete receipt taken stored succeeds logged sameCall sameClass =>
    refine .receipted (.called call) [.emitted _, .appended (messageOf tool result)] receipt ?_
      (same ▸ succeeds) (by rw [journal, logged]; rfl) ?_ sameCall ?_
    · simp only [Reports, answers]
      exact ⟨taken, stored⟩
    · exact List.forall_mem_cons.mpr ⟨trivial, List.forall_mem_cons.mpr
        ⟨serves _ _, List.forall_mem_singleton.mpr trivial⟩⟩
    · rw [answers]
      exact sameClass
  | broken refused fails logged =>
    refine .broken (.called call) [.emitted _] ?_ (same ▸ fails) (by rw [journal, logged]) ?_
    · simp only [Reports, answers]
      exact refused
    · exact List.forall_mem_cons.mpr ⟨trivial, List.forall_mem_singleton.mpr (serves _ _)⟩

theorem executed_carryOut (brain : KelvinBrain) (req : AgentRunRequest) (execution : Execution)
    (startedToolAt : ℕ) :
    Executed brain req execution
      (carryOut brain req execution.call startedToolAt execution.calls) := by
  obtain ⟨call, calls⟩ := execution
  cases found : brain.tools.get call.name with
  | none =>
    -- No message is stored for an unknown tool, so the sink alone decides.
    have answers : outcomeOf brain req ⟨call, calls⟩ = .unknown := by
      simp only [outcomeOf, found]
    have emits := emit_apply brain
      (.tool req.runId call.name .error (some s!"unknown tool: {call.name}") none) calls
    simp only [carryOut, found, reportUnknown, emitTool]
    cases taken : brain.emit (calls + 2) ⟨brain.nextSeq calls,
        endOf req call .unknown (brain.nowMs (calls + 1))⟩ with
    | error err =>
      rw [endOf] at taken
      rw [taken] at emits
      rw [bind_apply_of_error (congrArg Outcome.result emits), emits]
      refine .broken (.emitted _) [] ?_ ⟨err, rfl⟩ rfl (List.forall_mem_singleton.mpr trivial)
      simp only [Reports, answers, endOf, taken]
      exact nofun
    | ok _ =>
      rw [endOf] at taken
      rw [taken] at emits
      rw [bind_apply_ok emits, bind_apply_ok (emitToolReceipt_apply _ _ _ _ _ _)]
      refine .receipted (.emitted _) [] _ ?_ ⟨_, rfl⟩ rfl (List.forall_mem_singleton.mpr trivial)
        rfl ?_
      · simp only [Reports, answers, endOf, taken]
      · rw [answers]
        rfl
  | some tool =>
    have answers : outcomeOf brain req ⟨call, calls⟩ = .answered tool (tool.call calls
        ⟨req.runId, req.sessionId, req.workspaceDir, call.arguments⟩) := by
      simp only [outcomeOf, found]
    simp only [carryOut, found]
    rw [bind_apply_ok (log_apply _ _), bind_apply_ok (ask_apply _ _)]
    cases result : tool.call calls
        ⟨req.runId, req.sessionId, req.workspaceDir, call.arguments⟩ with
    | error err =>
      rw [result] at answers
      exact Reported.executed answers (reported_report _ _ _ _ _ _ _ _ _) rfl rfl
    | ok value =>
      rw [result] at answers
      exact Reported.executed answers (reported_report _ _ _ _ _ _ _ _ _) rfl rfl

end Executions

/-! ### Runs so far -/

section Journals

variable (brain : KelvinBrain) (req : AgentRunRequest)

/-- A run so far in which every execution has its receipt. -/
structure Accounted (past : List WatchedEvent) : Prop where
  receipted : Receipted brain req past
  reports : ∀ execution ∈ executionsOf past, Reports brain req execution
  idle : awaitsReceipt brain req past = false

/-- A run so far whose last execution has no receipt yet. -/
def Awaiting (execution : Execution) (past : List WatchedEvent) : Prop :=
  ∃ before opening middle, past = before ++ annotateFirst execution (opening :: middle) ∧
    Accounted brain req before ∧ ∀ event ∈ opening :: middle, ServesCall event

def Unreceipting (event : BrainEvent) : Prop := ∀ receipt, event ≠ .receipt receipt

variable {brain req} {past : List WatchedEvent} {execution : Execution}

theorem awaitsReceipt_append (journal : List WatchedEvent) :
    awaitsReceipt brain req (past ++ journal) =
      journal.foldl (fun awaits event => event.2.isSome ||
        awaits && ((receiptBrackets brain req).closes event).isNone)
        (awaitsReceipt brain req past) :=
  List.foldl_append

theorem executionsOf_append (journal : List WatchedEvent) :
    executionsOf (past ++ journal) = executionsOf past ++ executionsOf journal :=
  List.filterMap_append

theorem executionsOf_annotateFirst (opening : BrainEvent) (middle : List BrainEvent) :
    executionsOf (annotateFirst execution (opening :: middle)) = [execution] := by
  have plain : (middle.map fun event => ((event, none) : WatchedEvent)).filterMap Prod.snd = [] :=
    List.filterMap_eq_nil_iff.mpr fun event member => by
      obtain ⟨_, _, rfl⟩ := List.mem_map.mp member
      rfl
  change execution :: _ = _
  rw [plain]

theorem inside_of_servesCall (brain : KelvinBrain) (req : AgentRunRequest) {event : BrainEvent}
    (serves : ServesCall event) :
    (receiptBrackets brain req).Inside (event, none) := by
  cases event with
  | emitted event =>
    obtain ⟨seq, data⟩ := event
    cases data with
    | tool => exact ⟨rfl, rfl, rfl⟩
    | lifecycle => exact serves.elim
    | assistant => exact serves.elim
  | called => exact ⟨rfl, rfl, rfl⟩
  | appended => exact ⟨rfl, rfl, rfl⟩
  | inferring => exact serves.elim
  | executing => exact serves.elim
  | receipt => exact serves.elim
  | executed => exact serves.elim

theorem closes_of_unreceipting {event : BrainEvent} (quiet : Unreceipting event) :
    (receiptBrackets brain req).closes (event, none) = none := by
  cases event with
  | receipt receipt => exact absurd rfl (quiet receipt)
  | _ => rfl

theorem accounted_nil : Accounted brain req [] := ⟨⟨trivial, rfl⟩, nofun, rfl⟩

theorem Accounted.snoc (accounted : Accounted brain req past) {event : BrainEvent}
    (quiet : Unreceipting event) : Accounted brain req (past ++ [(event, none)]) := by
  have silent : (receiptBrackets brain req).closes (event, none) = none :=
    closes_of_unreceipting quiet
  refine ⟨⟨?_, ?_⟩, ?_, ?_⟩
  · exact (Brackets.settled_snoc rfl silent).mpr accounted.receipted.own
  · rw [List.filterMap_append, List.filterMap_append, accounted.receipted.only,
      List.filterMap_cons_none silent]
    rfl
  · rw [executionsOf_append]
    simpa [executionsOf] using accounted.reports
  · rw [awaitsReceipt_append, accounted.idle]
    rfl

theorem awaits_unannotated {middle : List BrainEvent}
    (serves : ∀ event ∈ middle, ServesCall event) :
    (middle.map fun event => ((event, none) : WatchedEvent)).foldl (fun awaits event =>
      event.2.isSome ||
        awaits && ((receiptBrackets brain req).closes event).isNone) true = true := by
  induction middle with
  | nil => rfl
  | cons event rest ih =>
    obtain ⟨here, later⟩ := List.forall_mem_cons.mp serves
    have inside := inside_of_servesCall brain req here
    rw [List.map_cons, List.foldl_cons, inside.closes]
    exact ih later

theorem Awaiting.awaits (awaiting : Awaiting brain req execution past) :
    awaitsReceipt brain req past = true := by
  obtain ⟨before, opening, middle, rfl, _, serves⟩ := awaiting
  rw [awaitsReceipt_append, annotateFirst, List.foldl_cons]
  exact awaits_unannotated (List.forall_mem_cons.mp serves).2

theorem Awaiting.mem_executionsOf (awaiting : Awaiting brain req execution past) :
    execution ∈ executionsOf past := by
  obtain ⟨before, opening, middle, rfl, _, _⟩ := awaiting
  rw [executionsOf_append, executionsOf_annotateFirst]
  exact List.mem_append_right _ (List.mem_singleton_self _)

theorem opens_annotated (event : BrainEvent) :
    (receiptBrackets brain req).opens (event, some execution) =
      some (execution.call.id, (outcomeOf brain req execution).resultClass) := rfl

/-- An execution without a receipt is left without one by the end of the run. -/
theorem Awaiting.not_receipted (awaiting : Awaiting brain req execution past)
    (rest : List BrainEvent) (quiet : ∀ event ∈ rest, Unreceipting event) :
    ¬ Receipted brain req (past ++ unannotated rest) := by
  obtain ⟨before, opening, middle, rfl, _, serves⟩ := awaiting
  have whole : before ++ annotateFirst execution (opening :: middle) ++ unannotated rest =
      before ++ (opening, some execution) :: (middle ++ rest).map fun event => (event, none) := by
    rw [List.map_append, List.append_assoc]
    rfl
  rw [whole]
  intro receipted
  -- Nothing closes the execution: neither what it logged before nor what follows.
  refine Brackets.not_settled_unclosed (opens_annotated opening) (fun event member => ?_)
    receipted.own
  obtain ⟨plain, inside, rfl⟩ := List.mem_map.mp member
  rcases List.mem_append.mp inside with served | after
  · exact (inside_of_servesCall brain req ((List.forall_mem_cons.mp serves).2 plain served)).closes
  · exact closes_of_unreceipting (quiet plain after)

theorem Accounted.receipt (accounted : Accounted brain req past) {opening : BrainEvent}
    {middle : List BrainEvent} {receipt : ToolReceipt} (reports : Reports brain req execution)
    (serves : ∀ event ∈ opening :: middle, ServesCall event)
    (sameCall : receipt.toolCallId = execution.call.id)
    (sameClass : receipt.resultClass = (outcomeOf brain req execution).resultClass) :
    Accounted brain req
      (past ++ annotateFirst execution (opening :: (middle ++ [.receipt receipt]))) := by
  have opens : (receiptBrackets brain req).opens (opening, some execution) =
      some (execution.call.id, (outcomeOf brain req execution).resultClass) :=
    opens_annotated opening
  have closes : (receiptBrackets brain req).closes (.receipt receipt, none) =
      some (execution.call.id, (outcomeOf brain req execution).resultClass) := by
    rw [← sameCall, ← sameClass]
    rfl
  have split : annotateFirst execution (opening :: (middle ++ [.receipt receipt])) =
      (opening, some execution) :: (middle.map fun event => (event, none)) ++
        [(.receipt receipt, none)] := by
    rw [annotateFirst, List.map_append]
    rfl
  have inside : ∀ event ∈ middle.map fun event => ((event, none) : WatchedEvent),
      (receiptBrackets brain req).Inside event := by
    intro event member
    obtain ⟨plain, inside, rfl⟩ := List.mem_map.mp member
    exact inside_of_servesCall brain req ((List.forall_mem_cons.mp serves).2 plain inside)
  have silent : (receiptBrackets brain req).closes (opening, some execution) = none :=
    (inside_of_servesCall brain req (List.forall_mem_cons.mp serves).1).closes
  refine ⟨⟨?_, ?_⟩, ?_, ?_⟩
  · rw [split]
    exact (Brackets.settled_closed opens inside rfl rfl closes).mpr
      accounted.receipted.own
  · have closed := Brackets.filterMap_closes_closed silent inside closes
    have still : (receiptBrackets brain req).opens (.receipt receipt, none) = none := rfl
    have opened := Brackets.filterMap_opens_closed opens inside still
    rw [List.filterMap_append, List.filterMap_append, accounted.receipted.only, split]
    exact congrArg (_ ++ ·) (closed.trans opened.symm)
  · rw [executionsOf_append, executionsOf_annotateFirst]
    intro other member
    rcases List.mem_append.mp member with before | last
    · exact accounted.reports other before
    · obtain rfl := List.mem_singleton.mp last
      exact reports
  · rw [awaitsReceipt_append, split, List.foldl_append, List.foldl_cons, List.foldl_cons, closes]
    simp

end Journals

/-! ### The parts of a run -/

section Logs

variable {brain : KelvinBrain} {req : AgentRunRequest}

theorem unreceipting_say (assistantText : String) (finalChunk : Bool) :
    Logs Unreceipting (say brain req assistantText finalChunk) := by
  apply (logs_say assistantText finalChunk).mono (fun _ => ())
  rintro _ _ replies receipt rfl
  exact replies

theorem unreceipting_prepare : Logs Unreceipting (prepare brain req) := by
  apply logs_prepare.mono (fun _ => ())
  rintro _ _ setsUp receipt rfl
  exact setsUp

theorem logs_infer {input : ModelInput} : Logs Unreceipting (infer brain input) := by
  apply frames_bind (frames_log fun _ => nofun)
  intro _
  exact frames_bind (logs_ask _) fun _ => frames_ofExcept _

theorem logs_question (turn : Turn) (iteration : ℕ) :
    Logs Unreceipting (question brain req turn iteration) :=
  frames_bind (logs_historyFor turn iteration) fun _ => logs_infer

theorem logs_finalAnswer (turn : Turn) (reason : String) (payloads : List AgentPayload)
    (iteration : ℕ) : Logs Unreceipting (finalAnswer brain req turn reason payloads iteration) := by
  apply frames_bind (logs_emit fun _ _ => nofun)
  intro _
  apply frames_bind logs_loadHistory
  intro _
  apply frames_bind logs_infer
  intro output
  exact frames_bind (unreceipting_say _ _) fun _ => frames_pure _

theorem logs_afterTools (turn : Turn) (maxIter : ℕ) (state : LoopState)
    (results : List (ToolCall × AgentPayload)) :
    Logs Unreceipting (afterTools brain req turn maxIter state results) := by
  unfold afterTools
  dsimp only
  split
  · exact frames_pure _
  · split
    · exact frames_bind (logs_finalAnswer _ _ _ _) fun _ => frames_pure _
    · exact frames_pure _

theorem logs_conclude (turn : Turn) (loopEnd : LoopEnd) :
    Logs Unreceipting (conclude brain req turn loopEnd) := by
  apply frames_bind (logs_emit fun _ _ => nofun)
  intro _
  exact frames_bind (logs_ask _) fun _ => frames_pure _

end Logs

section Triples

variable (brain : KelvinBrain) (req : AgentRunRequest)

/-- The observer of the watched journal. A run fails where no receipt is awaited, or in an
execution whose end was not taken or whose message was not stored. -/
def receiptObserver : Observer (List WatchedEvent) WatchedEvent where
  record past event := past ++ [event]
  during past := Accounted brain req past ∨ ∃ execution, Awaiting brain req execution past
  failing past := Accounted brain req past ∨
    ∃ execution, Awaiting brain req execution past ∧ ¬ Reports brain req execution

variable {brain req} {α : Type}

theorem safe_accounted (past : List WatchedEvent) (accounted : Accounted brain req past) :
    (receiptObserver brain req).during past ∧ (receiptObserver brain req).failing past :=
  ⟨.inl accounted, .inl accounted⟩

theorem triple_quiet {act : BrainAction α} (logs : Logs Unreceipting act) :
    Triple (receiptObserver brain req) (Accounted brain req) (unwatched act)
      fun _ => Accounted brain req :=
  triple_unannotated logs (fun _ _ accounted quiet => accounted.snoc quiet) safe_accounted

theorem triple_settled (a : α) :
    Triple (receiptObserver brain req) (Accounted brain req) (pure a : WatchedAction α)
      fun _ => Accounted brain req :=
  triple_pure fun _ accounted => ⟨.inl accounted, accounted⟩

theorem during_of_prefix {past : List WatchedEvent} (accounted : Accounted brain req past)
    {execution : Execution} {events : List BrainEvent}
    (serves : ∀ event ∈ events, ServesCall event) :
    (receiptObserver brain req).during (past ++ annotateFirst execution events) := by
  cases events with
  | nil =>
    rw [annotateFirst, List.append_nil]
    exact .inl accounted
  | cons opening middle => exact .inr ⟨execution, past, opening, middle, rfl, accounted, serves⟩

theorem triple_carryOut (call : ToolCall) (startedToolAt : ℕ) :
    Triple (receiptObserver brain req) (Accounted brain req)
      (do
        let calls ← get
        mapJournal (annotateFirst ⟨call, calls⟩) (carryOut brain req call startedToolAt))
      fun _ => Accounted brain req := by
  intro calls past accounted
  rw [wp, get_bind_apply]
  simp only [mapJournal, receiptObserver, foldl_snoc]
  cases executed_carryOut brain req ⟨call, calls⟩ startedToolAt with
  | broken opening middle unreported fails journal within =>
    obtain ⟨err, failed⟩ := fails
    rw [failed, journal]
    refine ⟨fun events => ?_, .inr ⟨⟨call, calls⟩, ⟨past, opening, middle, rfl, accounted, within⟩,
      unreported⟩⟩
    rw [take_annotateFirst]
    exact during_of_prefix accounted fun event member => within event (List.mem_of_mem_take member)
  | receipted opening middle receipt reports succeeds journal within sameCall sameClass =>
    obtain ⟨payload, succeeded⟩ := succeeds
    rw [succeeded, journal]
    have whole : Accounted brain req (past ++ annotateFirst ⟨call, calls⟩
        (opening :: (middle ++ [.receipt receipt]))) :=
      accounted.receipt reports within sameCall sameClass
    refine ⟨fun events => ?_, whole⟩
    -- A prefix awaits the receipt until it is the whole execution.
    by_cases short : events ≤ (opening :: middle).length
    · rw [take_annotateFirst, List.take_append_of_le_length short]
      exact during_of_prefix accounted fun event member =>
        within event (List.mem_of_mem_take member)
    · rw [List.take_of_length_le]
      · exact .inl whole
      · rw [length_annotateFirst, List.length_append, List.length_singleton]
        omega

theorem triple_watchToolCall (call : ToolCall) :
    Triple (receiptObserver brain req) (Accounted brain req) (watchToolCall brain req call)
      fun _ => Accounted brain req := by
  apply triple_bind (triple_quiet (logs_ask _))
  intro startedToolAt
  apply triple_bind (triple_quiet (logs_emit fun _ _ => nofun))
  exact fun _ => triple_carryOut call startedToolAt

theorem triple_watchEach (calls : List ToolCall) :
    Triple (receiptObserver brain req) (Accounted brain req) (watchEach brain req calls)
      fun _ => Accounted brain req := by
  induction calls with
  | nil => exact triple_settled _
  | cons call rest ih =>
    apply triple_bind (triple_watchToolCall call)
    intro payload
    apply triple_bind ih
    exact fun _ => triple_settled _

theorem triple_watchToolCalls (calls : List ToolCall) :
    Triple (receiptObserver brain req) (Accounted brain req) (watchToolCalls brain req calls)
      fun _ => Accounted brain req := by
  apply triple_bind (triple_quiet (frames_log fun _ _ => BrainEvent.noConfusion))
  intro _
  apply triple_bind (triple_watchEach calls)
  intro payloads
  apply triple_bind (triple_quiet (frames_log fun _ _ => BrainEvent.noConfusion))
  exact fun _ => triple_settled _

theorem triple_watchPass (turn : Turn) (maxIter : ℕ) (state : LoopState) :
    Triple (receiptObserver brain req) (Accounted brain req)
      (watchPass brain req turn maxIter state) fun _ => Accounted brain req := by
  apply triple_bind (triple_quiet (logs_question turn _))
  intro output
  apply triple_bind (triple_quiet (unreceipting_say _ _))
  intro said
  split_ifs
  · exact triple_settled _
  · apply triple_bind (triple_watchToolCalls output.toolCalls)
    exact fun results => triple_quiet (logs_afterTools turn maxIter state results)

theorem triple_watchLoop (turn : Turn) (maxIter passes : ℕ) (state : LoopState) :
    Triple (receiptObserver brain req) (Accounted brain req)
      (watchLoop brain req turn maxIter passes state) fun _ => Accounted brain req := by
  induction passes generalizing state with
  | zero => exact triple_settled _
  | succ passes ih =>
    apply triple_bind (triple_watchPass turn maxIter state)
    intro pass
    cases pass with
    | ends loopEnd => exact triple_settled _
    | goesOn next => exact ih next
    | panics => exact triple_settled _

/-- A run so far has its receipts, but for one execution at its end. -/
theorem triple_watchInner :
    Triple (receiptObserver brain req) (Accounted brain req) (watchInner brain req)
      fun _ => Accounted brain req := by
  apply triple_bind (triple_quiet unreceipting_prepare)
  intro turn
  apply triple_bind (triple_watchLoop turn _ _ _)
  intro finish
  cases finish with
  | finished loopEnd =>
    apply triple_bind (triple_quiet (logs_conclude turn loopEnd))
    exact fun _ => triple_settled _
  | panicked => exact triple_settled _
  | unfinished => exact triple_settled _

end Triples

/-! ### Whole runs -/

section Runs

variable {brain : KelvinBrain} {req : AgentRunRequest} {cut calls : ℕ}

theorem watchTimeout_of_early (timed : req.timeoutMs.isSome)
    (early : cut < cuts (unnoted (watchInner brain req calls))) :
    ∃ err, (watchTimeout req.timeoutMs cut (watchInner brain req) calls).result = .error err ∧
      (watchTimeout req.timeoutMs cut (watchInner brain req) calls).journal =
        (watchInner brain req calls).journal.take cut := by
  obtain ⟨timeoutMs, limited⟩ := Option.isSome_iff_exists.mp timed
  have dropped : watchTimeout (some timeoutMs) cut (watchInner brain req) calls =
      ⟨.error (.timeout s!"agent run exceeded timeout of {timeoutMs}ms"),
        (watchInner brain req calls).state, (watchInner brain req calls).journal.take cut⟩ := by
    rw [watchTimeout, if_pos early]
  rw [limited, dropped]
  exact ⟨_, rfl, rfl⟩

theorem watchTimeout_of_late
    (late : ¬ (req.timeoutMs.isSome ∧ cut < cuts (unnoted (watchInner brain req calls)))) :
    watchTimeout req.timeoutMs cut (watchInner brain req) calls = watchInner brain req calls := by
  unfold watchTimeout
  cases timed : req.timeoutMs with
  | none => rfl
  | some timeoutMs => exact if_neg fun early => late ⟨by rw [timed]; rfl, early⟩

theorem journal_watchRun_of_ok {finish : Finish AgentRunResult}
    (finished : (watchTimeout req.timeoutMs cut (watchInner brain req) calls).result =
      .ok finish) :
    (watchRun brain req cut calls).journal =
      (watchTimeout req.timeoutMs cut (watchInner brain req) calls).journal := by
  rw [watchRun, bind_apply_ok (attempt_apply _ _)]
  simp only [finished]
  exact List.append_nil _

theorem journal_unwatched_emit (brain : KelvinBrain) (data : ℕ → AgentEventData) (calls : ℕ) :
    ∃ last, (unwatched (emit brain data) calls).journal = [(.emitted last, none)] := by
  rw [unwatched, mapJournal, emit_apply]
  exact ⟨_, rfl⟩

/-- A run that an error ends logs its terminal event and nothing else. -/
theorem journal_watchRun_of_error {err : KelvinError}
    (failed : (watchTimeout req.timeoutMs cut (watchInner brain req) calls).result =
      .error err) :
    ∃ last, (watchRun brain req cut calls).journal =
      (watchTimeout req.timeoutMs cut (watchInner brain req) calls).journal ++
        [(.emitted last, none)] := by
  rw [watchRun, bind_apply_ok (attempt_apply _ _)]
  simp only [failed]
  rw [bind_apply_ok (attempt_apply _ _)]
  obtain ⟨last, reported⟩ := journal_unwatched_emit brain
    (.lifecycle req.runId .error (some err.toString))
    (watchTimeout req.timeoutMs cut (watchInner brain req) calls).state
  refine ⟨last, ?_⟩
  rw [emitLifecycle, reported]
  rfl

/-- **Audit receipts.** Every tool call whose start the sink took has exactly one receipt, with
the class of its outcome and before the run ends, exactly when the sink takes the end of each of
them, the store its message, and the timeout drops none that waits for its receipt. -/
theorem receipted_iff (brain : KelvinBrain) (req : AgentRunRequest) (cut calls : ℕ) :
    Receipted brain req (watchRun brain req cut calls).journal ↔
      (∀ execution ∈ executionsOf (watchRun brain req cut calls).journal,
        Reports brain req execution) ∧ ¬ CutsReceipt brain req cut calls := by
  have observed : Triple (receiptObserver brain req) _ (watchInner brain req) _ :=
    triple_watchInner
  have always := observed.throughout calls accounted_nil
  simp only [receiptObserver, foldl_snoc, List.nil_append] at always
  have quiet (last : AgentEvent) : Unreceipting (.emitted last) := fun _ => BrainEvent.noConfusion
  by_cases timesOut : req.timeoutMs.isSome ∧ cut < cuts (unnoted (watchInner brain req calls))
  · -- The terminal event follows a prefix of the run, which may stop before a receipt.
    obtain ⟨timed, early⟩ := timesOut
    obtain ⟨err, dropped, kept⟩ := watchTimeout_of_early timed early
    obtain ⟨last, journal⟩ := journal_watchRun_of_error dropped
    rw [journal, kept]
    rcases always cut with accounted | ⟨execution, awaiting⟩
    -- Where no receipt is awaited the cut takes none away.
    · have ended := accounted.snoc (quiet last)
      refine iff_of_true ended.receipted ⟨ended.reports, fun ⟨_, _, awaits⟩ => ?_⟩
      exact Bool.false_ne_true (accounted.idle.symm.trans awaits)
    · refine iff_of_false ?_ fun ⟨_, uncut⟩ => uncut ⟨timed, early, awaiting.awaits⟩
      exact awaiting.not_receipted [.emitted last] (List.forall_mem_singleton.mpr (quiet last))
  · have uncut : ¬ CutsReceipt brain req cut calls :=
      fun ⟨timed, early, _⟩ => timesOut ⟨timed, early⟩
    have whole := watchTimeout_of_late timesOut
    cases result : (watchInner brain req calls).result with
    | ok finish =>
      have atEnd := observed.of_ok accounted_nil result
      rw [receiptObserver, foldl_snoc, List.nil_append] at atEnd
      rw [journal_watchRun_of_ok (by rw [whole]; exact result), whole]
      exact iff_of_true atEnd.receipted ⟨atEnd.reports, uncut⟩
    | error err =>
      -- An error either left no execution open or comes from the report of the last one.
      have atEnd := observed.of_error accounted_nil result
      rw [receiptObserver, foldl_snoc, List.nil_append] at atEnd
      obtain ⟨last, journal⟩ := journal_watchRun_of_error (by rw [whole]; exact result)
      rw [journal, whole]
      rcases atEnd with accounted | ⟨execution, awaiting, unreported⟩
      · have ended := accounted.snoc (quiet last)
        exact iff_of_true ended.receipted ⟨ended.reports, uncut⟩
      · refine iff_of_false ?_ fun ⟨all, _⟩ => unreported (all execution ?_)
        · exact awaiting.not_receipted [.emitted last] (List.forall_mem_singleton.mpr (quiet last))
        · rw [executionsOf_append]
          exact List.mem_append_left _ awaiting.mem_executionsOf

end Runs

/-! ### A tool that ran and has no receipt -/

def fullBrain : KelvinBrain :=
  { clockBrain with
    appendMessage := fun _ _ message =>
      if message.role = .tool then .error (.io "no space left on device") else .ok () }

/-- A tool that looks at the clock succeeds, and has no receipt. -/
theorem stored_nothing_unreceipted :
    ¬ ∀ brain req cut calls, Receipted brain req (watchRun brain req cut calls).journal := by
  intro receipted
  have called : (.called ⟨"1", "clock", .obj []⟩, some ⟨⟨"1", "clock", .obj []⟩, 14⟩) ∈
      (watchRun fullBrain plainRequest 0 0).journal := by decide +kernel
  have silent : ∀ event ∈ (watchRun fullBrain plainRequest 0 0).journal,
      (receiptBrackets fullBrain plainRequest).closes event = none := by decide +kernel
  exact Brackets.not_settled_of_mem called rfl silent (receipted fullBrain plainRequest 0 0).own

end KelvinClaw.Brain
