import KelvinClaw.Channel.Adapter

/-!
# Ingestion of channel messages

`ChannelAdapter::ingest` checks an envelope, remembers its delivery id, and either
answers it at once or puts it into the inbox; then it works off the inbox.
-/

namespace KelvinClaw.Channel

open KelvinClaw.Core KelvinClaw.Sdk Systems Systems.Action

/-- The payloads of a successful ingestion, by their status. -/
inductive IngestReply where
  | deduped (deliveryId : String)
  | pairingRequired (accountId pairingCode : String)
  | commandDenied (command deliveryId : String)
  | commandDispatched (command deliveryId : String)
  | commandCompleted (command deliveryId : String)
  | queued (deliveryId : String) (queueDepth : ℕ)
  | completed (runId deliveryId responseText : String) (route : RouteDecision)
  | failed (runId deliveryId error : String) (route : RouteDecision)
  | timeout (runId deliveryId : String) (route : RouteDecision)
  deriving DecidableEq, Repr

variable (ctx : ChannelContext)

/-! ### Admission -/

/-- The checks of an envelope that need no state. The token is dropped. -/
def normalizeEnvelope (config : TextChannelConfig) (envelope : ChannelEnvelope) :
    KelvinResult ChannelEnvelope := do
  let deliveryId ←
    normalizeIdentifier "delivery_id" envelope.deliveryId maxChannelIdentifierBytes
  let senderId ← normalizeIdentifier "sender_id" envelope.senderId maxChannelIdentifierBytes
  let accountId ← normalizeIdentifier "account_id" envelope.accountId maxChannelIdentifierBytes
  let text := trim envelope.text
  refuseIf (text = "") (.invalidInput "message text must not be empty")
  refuseIf (config.policy.maxTextBytes < text.utf8ByteSize)
    (.invalidInput s!"message text exceeds {config.policy.maxTextBytes} bytes")
  verifyIngressAuth config envelope
  return { envelope with deliveryId, senderId, accountId, text, authToken := none }

/-- The text to go on with, which a policy module may set in place of the message's. -/
def overrideText (config : TextChannelConfig) (messageText : String)
    (decision : WasmPolicyDecision) : KelvinResult String :=
  match decision.overrideText with
  | none => .ok messageText
  | some text => do
    let trimmed := trim text
    refuseIf (trimmed = "")
      (.invalidInput "wasm channel policy override_text must not be empty")
    refuseIf (config.policy.maxTextBytes < trimmed.utf8ByteSize)
      (.invalidInput "wasm channel policy override_text exceeds max text bytes")
    return trimmed

/-- The policy module, when there is one: the text and the tier to go on with. -/
def evaluateWasmPolicy (envelope : ChannelEnvelope) (trustTier : SenderTrustTier) :
    ChannelAction (String × SenderTrustTier × Option WasmPolicyDecision) := do
  if ctx.config.hasWasmPolicyPlugin then
    let decision ← ofExcept
      (← ask ctx fun surroundings call => surroundings.evaluate call envelope trustTier)
    if decision.allow then
      let text ← ofExcept (overrideText ctx.config envelope.text decision)
      return (text, decision.trustTier.getD trustTier, some decision)
    else
      denyByPolicy (s!"{ctx.config.kind.asStr} channel message denied: " ++
        decision.reason.getD "blocked by wasm policy")
  else return (envelope.text, trustTier, none)

/-- The registered command that a text calls on this channel, with its name and its
arguments as the text has them. -/
def commandFor (text : String) : Option (SlashCommandMeta × String × String) := do
  let (name, args) ← parseSlashInput text
  let command ← ctx.commandRegistry.lookupMeta name
  guard (command.surfaces = ∅ ∨ ctx.config.kind.asCommandSurface ∈ command.surfaces)
  return (command, name, args)

def routeFor (envelope : ChannelEnvelope) (trustTier : SenderTrustTier) : RouteDecision :=
  ctx.routing.decide
    { channel := ctx.config.kind.asStr
      accountId := envelope.accountId
      requestedSessionId := envelope.sessionId
      requestedWorkspaceDir := envelope.workspaceDir
      senderTier := trustTier }

/-- What is done with an envelope: it is answered, or it goes into the inbox. -/
inductive Verdict where
  | answered (reply : IngestReply)
  | queue (entry : QueuedEnvelope)
  deriving DecidableEq, Repr

def commandReply (name : String) : KelvinResult String → String
  | .ok printed => printed
  | .error err => s!"/{name} failed: {err.toString}"

def triageCommand (envelope : ChannelEnvelope) (trustTier : SenderTrustTier)
    (command : SlashCommandMeta) (name args : String) : ChannelAction Verdict := do
  trackDeliveryId ctx envelope.deliveryId
  if command.minTier.any (trustTier < ·) then
    let _ ← attempt (sendMessageWithRetry ctx envelope.accountId
      s!"/{name} requires elevated access")
    return .answered (.commandDenied name envelope.deliveryId)
  else if command.bypassQueue then
    -- dispatched here and now; nothing on this path saves the state
    let params : CommandExecParams := ⟨name, argsValue args, envelope.sessionId⟩
    log (.bypassed envelope.deliveryId params)
    let result ← ask ctx fun surroundings call => surroundings.commandExecPayload call params
    let _ ← attempt (sendMessageWithRetry ctx envelope.accountId (commandReply name result))
    return .answered (.commandDispatched name envelope.deliveryId)
  else
    return .queue
      { envelope
        route := routeFor ctx envelope trustTier
        slashCommand := some ⟨name, argsValue args, envelope.sessionId⟩ }

def triageMessage (envelope : ChannelEnvelope) (trustTier : SenderTrustTier)
    (decision : Option WasmPolicyDecision) : ChannelAction Verdict := do
  let route := routeFor ctx envelope trustTier
  trackDeliveryId ctx envelope.deliveryId
  return .queue
    { envelope
      route := decision.elim route route.applyWasmOverrides
      slashCommand := none }

/-- The part of `ingest` after the look at the seen ids. -/
def triageNew (envelope : ChannelEnvelope) : ChannelAction Verdict := do
  match ← enforcePairingPolicy ctx envelope.accountId with
  | some code =>
    record fun metrics =>
      { metrics with pairingRequiredTotal := bump metrics.pairingRequiredTotal }
    let _ ← attempt (sendMessageWithRetry ctx envelope.accountId
      (s!"KelvinClaw pairing required. Approve code: {code} " ++
        "using channel.telegram.pair.approve."))
    return .answered (.pairingRequired envelope.accountId code)
  | none =>
    let trustTier ← enforcePolicy ctx envelope
    let (text, trustTier, decision) ← evaluateWasmPolicy ctx envelope trustTier
    let envelope := { envelope with text }
    match commandFor ctx text with
    | some (command, name, args) => triageCommand ctx envelope trustTier command name args
    | none => triageMessage ctx envelope trustTier decision

/-- The part of `ingest` that decides what is done with an envelope. -/
def triage (envelope : ChannelEnvelope) : ChannelAction Verdict := do
  record fun metrics => { metrics with ingestTotal := bump metrics.ingestTotal }
  let envelope ← ofExcept (normalizeEnvelope ctx.config envelope)
  if envelope.deliveryId ∈ (← readAdapter).seenDeliveryIds then
    record fun metrics => { metrics with dedupedTotal := bump metrics.dedupedTotal }
    return .answered (.deduped envelope.deliveryId)
  else triageNew ctx envelope

def enqueue (entry : QueuedEnvelope) : ChannelAction Unit := do
  if ctx.config.policy.maxQueueDepth ≤ (← readAdapter).inbox.length then
    record fun metrics =>
      { metrics with
        queueRejectedTotal := bump metrics.queueRejectedTotal
        lastError := some "channel queue is full" }
    persistState ctx
    fail (.backend s!"{ctx.config.kind.asStr} channel queue is full")
  else
    record fun metrics => { metrics with queuedTotal := bump metrics.queuedTotal }
    update fun adapter => { adapter with inbox := adapter.inbox ++ [entry] }
    log (.queued entry)
    persistState ctx

/-- Everything up to the point where an envelope is answered or stands in the inbox. -/
def receive (envelope : ChannelEnvelope) : ChannelAction Verdict := do
  match ← triage ctx envelope with
  | .answered reply => return .answered reply
  | .queue entry =>
    enqueue ctx entry
    return .queue entry

/-! ### The inbox -/

def executeCommand (entry : QueuedEnvelope) (slash : QueuedSlashCommand) :
    ChannelAction IngestReply := do
  let params : CommandExecParams := ⟨slash.commandName, slash.args, slash.sessionId⟩
  log (.dispatched entry.envelope.deliveryId params)
  let result ← ask ctx fun surroundings call => surroundings.commandExecPayload call params
  let _ ← attempt (sendMessageWithRetry ctx entry.envelope.accountId
    (commandReply slash.commandName result))
  persistState ctx
  return .commandCompleted slash.commandName entry.envelope.deliveryId

def systemPromptFor (entry : QueuedEnvelope) : String :=
  let senderContext := s!"[Channel: {ctx.config.kind.asStr} | Sender: " ++
    s!"{entry.envelope.senderId} | Tier: {entry.route.senderTier}]"
  entry.route.systemPrompt.elim senderContext fun existing => s!"{senderContext}\n{existing}"

def runRequest (entry : QueuedEnvelope) : KelvinSdkRunRequest where
  prompt := entry.envelope.text
  sessionId := some entry.route.sessionId
  workspaceDir := entry.route.workspaceDir
  timeoutMs := entry.envelope.timeoutMs
  systemPrompt := some (systemPromptFor ctx entry)
  memoryQuery := none
  runId := none

def reportOutcome (entry : QueuedEnvelope) (runId : String) :
    RunOutcome (List String) → ChannelAction IngestReply
  | .completed payloads => do
    let responseText := "\n".intercalate payloads
    let outboundText :=
      if trim responseText = "" then "No response generated." else responseText
    sendMessageWithRetry ctx entry.envelope.accountId outboundText
    record fun metrics =>
      { metrics with completedTotal := bump metrics.completedTotal, lastError := none }
    persistState ctx
    return .completed runId entry.envelope.deliveryId outboundText entry.route
  | .failed error => do
    record fun metrics =>
      { metrics with failedTotal := bump metrics.failedTotal, lastError := some error }
    let _ ← attempt (sendMessageWithRetry ctx entry.envelope.accountId
      s!"Kelvin run failed: {error}")
    persistState ctx
    return .failed runId entry.envelope.deliveryId error entry.route
  | .timeout => do
    record fun metrics =>
      { metrics with
        timeoutTotal := bump metrics.timeoutTotal, lastError := some "run timed out" }
    let _ ← attempt (sendMessageWithRetry ctx entry.envelope.accountId "Kelvin run timed out.")
    persistState ctx
    return .timeout runId entry.envelope.deliveryId entry.route

def executeMessage (entry : QueuedEnvelope) : ChannelAction IngestReply := do
  let request := runRequest ctx entry
  log (.submitted entry.envelope.deliveryId request)
  let accepted ← ofExcept (← ask ctx fun surroundings call => surroundings.submit call request)
  let timeoutMs := saturatingAdd u64Max (entry.envelope.timeoutMs.getD 30000) 3000
  let outcome ← ofExcept (← ask ctx fun surroundings call =>
    surroundings.waitForOutcome call accepted.runId timeoutMs)
  reportOutcome ctx entry accepted.runId outcome

def executeEntry (entry : QueuedEnvelope) : ChannelAction IngestReply :=
  match entry.slashCommand with
  | some slash => executeCommand ctx entry slash
  | none => executeMessage ctx entry

/-- The loop of `process_inbox`, for as many entries as given. -/
def drain (targetDeliveryId : String) :
    ℕ → Option IngestReply → ChannelAction (Option IngestReply)
  | 0, targetResponse => return targetResponse
  | left + 1, targetResponse => do
    match (← readAdapter).inbox with
    | [] => return targetResponse
    | entry :: rest =>
      update fun adapter => { adapter with inbox := rest }
      log (.taken entry)
      persistState ctx
      match ← attempt (executeEntry ctx entry) with
      | .ok payload =>
        drain targetDeliveryId left
          (if entry.envelope.deliveryId = targetDeliveryId then some payload else targetResponse)
      | .error err =>
        if entry.envelope.deliveryId = targetDeliveryId then fail err
        else
          record fun metrics => { metrics with lastError := some err.toString }
          drain targetDeliveryId left targetResponse

/-- `process_inbox`: execute the entries from the front; an error of the target's own ends
the loop. -/
def processInbox (targetDeliveryId : String) : ChannelAction IngestReply := do
  -- nothing is put into the inbox meanwhile, so that its length bounds the loop
  match ← drain ctx targetDeliveryId (← readAdapter).inbox.length none with
  | some payload => return payload
  | none => return .queued targetDeliveryId (← readAdapter).inbox.length

def ingest (envelope : ChannelEnvelope) : ChannelAction IngestReply := do
  match ← receive ctx envelope with
  | .answered reply => return reply
  | .queue entry => processInbox ctx entry.envelope.deliveryId

end KelvinClaw.Channel
