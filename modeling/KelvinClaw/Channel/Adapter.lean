import KelvinClaw.Core.RunWait
import KelvinClaw.Sdk.Submit
import KelvinClaw.Library.Journal
import KelvinClaw.Channel.Commands
import KelvinClaw.Channel.Routing

/-!
# The channel adapter

The state that a text channel keeps between messages, its snapshot on disk, and the
operations that read and change it: the set of delivery ids seen, the pairing of
accounts, the policy checks and the sending of messages.

An operation is a computation on the adapter. What outlives a crash is in its journal:
the snapshots that were saved, the commands that were dispatched and the runs that were
submitted. Its surroundings (the clock, the disk, the policy module, the runtime, the
network) are functions of the number of calls made to them so far.
-/

namespace KelvinClaw.Channel

open KelvinClaw.Core KelvinClaw.Sdk Systems Systems.Action

/-! ### State -/

structure QueuedSlashCommand where
  commandName : String
  args : Value
  sessionId : Option String
  deriving DecidableEq, Repr

/-- An entry of the inbox: a message, or a slash command to dispatch in its turn. -/
structure QueuedEnvelope where
  envelope : ChannelEnvelope
  route : RouteDecision
  slashCommand : Option QueuedSlashCommand
  deriving DecidableEq, Repr

structure ChannelMetrics where
  ingestTotal : ℕ
  webhookTotal : ℕ
  webhookAcceptedTotal : ℕ
  webhookDeniedTotal : ℕ
  webhookRetryTotal : ℕ
  verificationOkTotal : ℕ
  verificationFailedTotal : ℕ
  dedupedTotal : ℕ
  queuedTotal : ℕ
  queueRejectedTotal : ℕ
  pairingRequiredTotal : ℕ
  pairingApprovedTotal : ℕ
  policyDeniedTotal : ℕ
  rateLimitedTotal : ℕ
  completedTotal : ℕ
  failedTotal : ℕ
  timeoutTotal : ℕ
  outboundAttemptTotal : ℕ
  outboundRetryTotal : ℕ
  outboundFailureTotal : ℕ
  lastError : Option String
  lastDeliveryAtMs : Option ℕ
  lastWebhookRequestAtMs : Option ℕ
  lastWebhookAcceptAtMs : Option ℕ
  lastWebhookStatusCode : Option ℕ
  lastVerificationOkAtMs : Option ℕ
  lastVerificationFailedAtMs : Option ℕ
  lastVerificationError : Option String
  deriving DecidableEq, Repr

/-- `ChannelMetrics::default`. -/
def ChannelMetrics.zero : ChannelMetrics :=
  ⟨0, 0, 0, 0, 0, 0, 0, 0, 0, 0, 0, 0, 0, 0, 0, 0, 0, 0, 0, 0, none, none, none, none, none, none,
    none, none⟩

/-- `saturating_add(1)` of a counter. -/
def bump (counter : ℕ) : ℕ := saturatingAdd u64Max counter 1

/-- The snapshot on disk. -/
structure PersistedChannelState where
  pairedAccounts : Finset String
  pendingPairCodes : List (String × String)
  seenDeliveryOrder : List String
  rateWindows : String → Option (List ℕ)
  cooldownUntilMs : String → Option ℕ
  inbox : List QueuedEnvelope
  metrics : ChannelMetrics

/-- The state of an adapter. The pending codes are listed with their accounts; queues
have their front first. -/
structure TextChannelAdapter where
  pairedAccounts : Finset String
  pendingPairCodes : List (String × String)
  seenDeliveryIds : Finset String
  seenDeliveryOrder : List String
  rateWindows : String → Option (List ℕ)
  cooldownUntilMs : String → Option ℕ
  inbox : List QueuedEnvelope
  metrics : ChannelMetrics

def TextChannelAdapter.fresh : TextChannelAdapter where
  pairedAccounts := ∅
  pendingPairCodes := []
  seenDeliveryIds := ∅
  seenDeliveryOrder := []
  rateWindows _ := none
  cooldownUntilMs _ := none
  inbox := []
  metrics := .zero

def TextChannelAdapter.snapshotState (adapter : TextChannelAdapter) : PersistedChannelState where
  pairedAccounts := adapter.pairedAccounts
  pendingPairCodes := adapter.pendingPairCodes
  seenDeliveryOrder := adapter.seenDeliveryOrder
  rateWindows := adapter.rateWindows
  cooldownUntilMs := adapter.cooldownUntilMs
  inbox := adapter.inbox
  metrics := adapter.metrics

def rateWindowMs : ℕ := 60000

/-- The part of a rate window that is not older than a minute. -/
def pruneWindow (now : ℕ) (window : List ℕ) : List ℕ :=
  window.dropWhile fun ts => rateWindowMs < now - ts

/-- `apply_persisted_state`: what was saved under wider limits is cut to the present ones,
the oldest ids and the newest entries first. -/
def applyPersistedState (policy : ChannelPolicy) (now : ℕ) (state : PersistedChannelState) :
    TextChannelAdapter :=
  let order := state.seenDeliveryOrder.drop
    (state.seenDeliveryOrder.length - policy.maxSeenDeliveryIds)
  { pairedAccounts := state.pairedAccounts
    pendingPairCodes := state.pendingPairCodes
    seenDeliveryIds := order.toFinset
    seenDeliveryOrder := order
    rateWindows := fun senderId =>
      ((state.rateWindows senderId).map (pruneWindow now)).filter (· ≠ [])
    cooldownUntilMs := fun senderId => (state.cooldownUntilMs senderId).filter (now < ·)
    inbox := state.inbox.take policy.maxQueueDepth
    metrics := state.metrics }

/-! ### Surroundings -/

/-- What the calls of an adapter return, by the number of calls before. -/
structure Surroundings where
  nowMs : ℕ → ℕ
  /-- Writing a snapshot, which a failure leaves undone. -/
  save : ℕ → KelvinResult Unit
  evaluate : ℕ → ChannelEnvelope → SenderTrustTier → KelvinResult WasmPolicyDecision
  /-- The payload of a command, printed. -/
  commandExecPayload : ℕ → CommandExecParams → KelvinResult String
  submit : ℕ → KelvinSdkRunRequest → KelvinResult KelvinSdkAcceptedRun
  /-- The outcome of a run, with the texts of its payloads. -/
  waitForOutcome : ℕ → String → ℕ → KelvinResult (RunOutcome (List String))
  sendOutboundOnce : ℕ → String → String → KelvinResult Unit

/-- What an adapter runs under: its configuration, whether it has a state directory, the
routes and commands of the gateway, and its surroundings. -/
structure ChannelContext where
  config : TextChannelConfig
  statePersistence : Bool
  routing : ChannelRoutingTable
  commandRegistry : CommandRegistry
  surroundings : Surroundings

/-- An adapter, and the number of calls made so far. -/
structure Machine where
  adapter : TextChannelAdapter
  calls : ℕ

/-- The lasting events of an operation, and the changes of the seen ids and the inbox. -/
inductive ChannelEvent where
  | saved (state : PersistedChannelState)
  | tracked (deliveryId : String)
  | forgotten (deliveryId : String)
  | queued (entry : QueuedEnvelope)
  | taken (entry : QueuedEnvelope)
  | bypassed (deliveryId : String) (params : CommandExecParams)
  | dispatched (deliveryId : String) (params : CommandExecParams)
  | submitted (deliveryId : String) (request : KelvinSdkRunRequest)

abbrev ChannelAction (α : Type) := Action Machine ChannelEvent KelvinError α

/-! ### Operations -/

variable (ctx : ChannelContext)

def ask {α : Type} (call : Surroundings → ℕ → α) : ChannelAction α := do
  let machine ← get
  modify fun m => { m with calls := m.calls + 1 }
  return call ctx.surroundings machine.calls

def readAdapter : ChannelAction TextChannelAdapter := do
  return (← get).adapter

def update (change : TextChannelAdapter → TextChannelAdapter) : ChannelAction Unit :=
  modify fun m => { m with adapter := change m.adapter }

def record (change : ChannelMetrics → ChannelMetrics) : ChannelAction Unit :=
  update fun adapter => { adapter with metrics := change adapter.metrics }

section

variable {ctx} {L : Type} {record : L → ChannelEvent → L} {during : L → Prop} {s : Machine}
  {ledger : L}

@[simp] theorem wp_ask {α : Type} {call : Surroundings → ℕ → α}
    {post : Except KelvinError α → Machine → L → Prop} :
    wp record during (ask ctx call) post s ledger ↔
      during ledger ∧ post (.ok (call ctx.surroundings s.calls)) { s with calls := s.calls + 1 }
        ledger := by
  simp [ask]

@[simp] theorem wp_readAdapter {post : Except KelvinError TextChannelAdapter → Machine → L → Prop} :
    wp record during readAdapter post s ledger ↔ during ledger ∧ post (.ok s.adapter) s ledger := by
  simp [readAdapter]

@[simp] theorem wp_update {change : TextChannelAdapter → TextChannelAdapter}
    {post : Except KelvinError Unit → Machine → L → Prop} :
    wp record during (update change) post s ledger ↔
      during ledger ∧ post (.ok ()) { s with adapter := change s.adapter } ledger := by
  simp [update]

end

/-- `persist_state`: without a state directory nothing is saved. -/
def persistState : ChannelAction Unit := do
  if ctx.statePersistence then
    let adapter ← readAdapter
    ofExcept (← ask ctx (·.save))
    log (.saved adapter.snapshotState)

section

variable {ctx} {s : Machine}

theorem persistState_off (off : ctx.statePersistence = false) :
    persistState ctx s = ⟨.ok (), s, []⟩ := by
  simp [persistState, off, pure]

theorem persistState_saved (persists : ctx.statePersistence = true)
    (saved : ctx.surroundings.save s.calls = .ok ()) :
    persistState ctx s =
      ⟨.ok (), { s with calls := s.calls + 1 }, [.saved s.adapter.snapshotState]⟩ := by
  simp only [persistState, persists, if_true]
  change Action.bind _ _ s = _
  simp only [Action.bind, readAdapter, ask, bind, pure, Action.get, Action.modify, saved,
    Action.ofExcept, Action.log]
  rfl

theorem persistState_failed {err : KelvinError} (persists : ctx.statePersistence = true)
    (failed : ctx.surroundings.save s.calls = .error err) :
    persistState ctx s = ⟨.error err, { s with calls := s.calls + 1 }, []⟩ := by
  simp only [persistState, persists, if_true]
  change Action.bind _ _ s = _
  simp only [Action.bind, readAdapter, ask, bind, pure, Action.get, Action.modify, failed,
    Action.ofExcept, Action.fail, List.append_nil]

end

def sendAttempt (accountId text : String) : ChannelAction (KelvinResult Unit) := do
  record fun metrics =>
    { metrics with outboundAttemptTotal := bump metrics.outboundAttemptTotal }
  ask ctx fun surroundings call => surroundings.sendOutboundOnce call accountId text

/-- The loop of `send_message_with_retry`, by the number of retries left. The result is
the last error. -/
def sendAttempts (accountId text : String) : ℕ → ChannelAction (KelvinResult Unit)
  | 0 => sendAttempt ctx accountId text
  | left + 1 => do
    match ← sendAttempt ctx accountId text with
    | .ok () => return .ok ()
    | .error _ =>
      record fun metrics => { metrics with outboundRetryTotal := bump metrics.outboundRetryTotal }
      sendAttempts accountId text left

/-- `send_message_with_retry`: without a bot token nothing is sent. -/
def sendMessageWithRetry (accountId text : String) : ChannelAction Unit := do
  if ctx.config.transport.botToken.isSome then
    match ← sendAttempts ctx accountId text ctx.config.transport.outboundMaxRetries with
    | .ok () => return ()
    | .error lastError =>
      record fun metrics =>
        { metrics with
          outboundFailureTotal := bump metrics.outboundFailureTotal
          lastError := some lastError.toString }
      fail (.backend
        s!"{ctx.config.kind.asStr} outbound delivery failed after retries: {lastError.toString}")

/-- The loop of `track_delivery_id` that forgets the oldest ids. -/
def evictOldest : ℕ → ChannelAction Unit
  | 0 => return ()
  | excess + 1 => do
    match (← readAdapter).seenDeliveryOrder with
    | [] => return ()
    | evicted :: rest =>
      update fun adapter =>
        { adapter with
          seenDeliveryOrder := rest
          seenDeliveryIds := adapter.seenDeliveryIds.erase evicted }
      log (.forgotten evicted)
      evictOldest excess

/-- `track_delivery_id`: remember an id, and forget the oldest ones above the limit. -/
def trackDeliveryId (deliveryId : String) : ChannelAction Unit := do
  let adapter ← readAdapter
  if deliveryId ∉ adapter.seenDeliveryIds then
    update fun adapter =>
      { adapter with
        seenDeliveryIds := insert deliveryId adapter.seenDeliveryIds
        seenDeliveryOrder := adapter.seenDeliveryOrder ++ [deliveryId] }
    log (.tracked deliveryId)
  let now ← ask ctx (·.nowMs)
  record fun metrics => { metrics with lastDeliveryAtMs := some now }
  -- the queue is cut as long as it is longer than the limit
  evictOldest ((← readAdapter).seenDeliveryOrder.length - ctx.config.policy.maxSeenDeliveryIds)

def verifyIngressAuth (config : TextChannelConfig) (envelope : ChannelEnvelope) :
    KelvinResult Unit :=
  match config.policy.ingressToken with
  | none => .ok ()
  | some required =>
    match envelope.authToken with
    | none => .error (.notFound s!"{config.kind.asStr} ingress auth token missing")
    | some provided =>
      refuseIf (provided ≠ required)
        (.notFound s!"{config.kind.asStr} ingress auth token mismatch")

/-! ### Pairing -/

def simpleHashSeed : ℕ := 1469598103934665603

def simpleHashMultiplier : ℕ := 1099511628211

/-- `simple_hash`, on `u128`. -/
def simpleHash (input : String) : ℕ :=
  input.toUTF8.data.toList.foldl
    (fun hash byte => (hash ^^^ byte.toNat) * simpleHashMultiplier % 2 ^ 128) simpleHashSeed

/-- The code shown to an account at a time: six digits. -/
def pairCode (now : ℕ) (accountId : String) : String :=
  toString ((now ^^^ simpleHash accountId) % 900000 + 100000)

/-- `HashMap::insert` of a pending code. -/
def insertPairCode (code accountId : String) (pending : List (String × String)) :
    List (String × String) :=
  (code, accountId) :: pending.filter (·.1 ≠ code)

/-- `HashMap::remove` of a pending code. -/
def removePairCode (code : String) (pending : List (String × String)) : List (String × String) :=
  pending.filter (·.1 ≠ code)

/-- `enforce_pairing_policy`: the code that the account has to be approved with, if it has
to be. -/
def enforcePairingPolicy (accountId : String) : ChannelAction (Option String) := do
  let adapter ← readAdapter
  if ¬ ctx.config.pairingEnabled then
    return none
  else if accountId ∈ ctx.config.policy.allowAccounts ∨ accountId ∈ adapter.pairedAccounts then
    return none
  else
    match adapter.pendingPairCodes.find? (·.2 = accountId) with
    | some existing => return some existing.1
    | none =>
      let code := pairCode (← ask ctx (·.nowMs)) accountId
      update fun adapter =>
        { adapter with pendingPairCodes := insertPairCode code accountId adapter.pendingPairCodes }
      match ← attempt (persistState ctx) with
      | .ok () => return some code
      | .error err =>
        update fun adapter =>
          { adapter with pendingPairCodes := removePairCode code adapter.pendingPairCodes }
        fail err

/-- `approve_pairing`: the account of the code. -/
def approvePairing (code : String) : ChannelAction String := do
  let normalized := trim code
  if ¬ ctx.config.pairingEnabled then
    fail (.invalidInput "pairing is not enabled for this channel")
  else if normalized = "" then
    fail (.invalidInput "pairing code must not be empty")
  else
    match (← readAdapter).pendingPairCodes.find? (·.1 = normalized) with
    | none => fail (.notFound "pairing code not found")
    | some (_, accountId) =>
      update fun adapter =>
        { adapter with
          pendingPairCodes := removePairCode normalized adapter.pendingPairCodes
          pairedAccounts := insert accountId adapter.pairedAccounts }
      record fun metrics =>
        { metrics with pairingApprovedTotal := bump metrics.pairingApprovedTotal }
      match ← attempt (persistState ctx) with
      | .ok () => return accountId
      | .error err =>
        update fun adapter =>
          { adapter with
            pairedAccounts := adapter.pairedAccounts.erase accountId
            pendingPairCodes := insertPairCode normalized accountId adapter.pendingPairCodes }
        record fun metrics =>
          { metrics with pairingApprovedTotal := metrics.pairingApprovedTotal - 1 }
        fail err

/-! ### Policy -/

def denyByPolicy {α : Type} (message : String) : ChannelAction α := do
  record fun metrics => { metrics with policyDeniedTotal := bump metrics.policyDeniedTotal }
  fail (.notFound message)

def setRateWindow (senderId : String) (window : List ℕ) : ChannelAction Unit :=
  update fun adapter =>
    { adapter with rateWindows := Function.update adapter.rateWindows senderId (some window) }

def enforceRateLimit (senderId : String) (senderTier : SenderTrustTier) : ChannelAction Unit := do
  let now ← ask ctx (·.nowMs)
  let window := pruneWindow now (((← readAdapter).rateWindows senderId).getD [])
  setRateWindow senderId window
  if ctx.config.policy.quotaPerMinute senderTier ≤ window.length then
    record fun metrics => { metrics with rateLimitedTotal := bump metrics.rateLimitedTotal }
    fail (.timeout
      s!"{ctx.config.kind.asStr} sender '{senderId}' exceeded per-minute quota")
  else setRateWindow senderId (window ++ [now])

def enforceCooldown (senderId : String) : ChannelAction Unit := do
  let now ← ask ctx (·.nowMs)
  if ((← readAdapter).cooldownUntilMs senderId).any (now < ·) then
    fail (.timeout s!"{ctx.config.kind.asStr} sender '{senderId}' is in cooldown")
  else
    update fun adapter =>
      { adapter with
        cooldownUntilMs := Function.update adapter.cooldownUntilMs senderId
          (some (saturatingAdd u128Max now ctx.config.policy.cooldownProbationMs)) }

/-- `enforce_policy`: the tier of a sender that may send. -/
def enforcePolicy (envelope : ChannelEnvelope) : ChannelAction SenderTrustTier := do
  let policy := ctx.config.policy
  let kind := ctx.config.kind.asStr
  let senderTier := tierFromPolicy policy envelope.senderId
  if senderTier = .blocked then
    denyByPolicy s!"{kind} sender '{envelope.senderId}' is blocked"
  else if policy.allowAccounts ≠ ∅ ∧ envelope.accountId ∉ policy.allowAccounts ∧
      senderTier ≠ .owner then
    denyByPolicy s!"{kind} account '{envelope.accountId}' is not allowlisted"
  else if policy.allowSenders ≠ ∅ ∧ envelope.senderId ∉ policy.allowSenders ∧
      senderTier = .standard then
    denyByPolicy s!"{kind} sender '{envelope.senderId}' is not allowlisted"
  else
    enforceRateLimit ctx envelope.senderId senderTier
    if senderTier = .probation ∧ 0 < policy.cooldownProbationMs then
      enforceCooldown ctx envelope.senderId
    persistState ctx
    return senderTier

/-! ### Operations of the gateway beside ingestion -/

def recordWebhookVerified (statusCode : ℕ) (retryHint : Bool) : ChannelAction Unit := do
  let now ← ask ctx (·.nowMs)
  record fun metrics =>
    { metrics with
      webhookTotal := bump metrics.webhookTotal
      webhookAcceptedTotal := bump metrics.webhookAcceptedTotal
      verificationOkTotal := bump metrics.verificationOkTotal
      webhookRetryTotal :=
        if retryHint then bump metrics.webhookRetryTotal else metrics.webhookRetryTotal
      lastWebhookRequestAtMs := some now
      lastWebhookAcceptAtMs := some now
      lastWebhookStatusCode := some statusCode
      lastVerificationOkAtMs := some now
      lastVerificationError := none }
  persistState ctx

def recordWebhookDenied (statusCode : ℕ) (retryHint : Bool) (reason : String) :
    ChannelAction Unit := do
  let now ← ask ctx (·.nowMs)
  record fun metrics =>
    { metrics with
      webhookTotal := bump metrics.webhookTotal
      webhookDeniedTotal := bump metrics.webhookDeniedTotal
      verificationFailedTotal := bump metrics.verificationFailedTotal
      webhookRetryTotal :=
        if retryHint then bump metrics.webhookRetryTotal else metrics.webhookRetryTotal
      lastWebhookRequestAtMs := some now
      lastWebhookStatusCode := some statusCode
      lastVerificationFailedAtMs := some now
      lastVerificationError := some reason }
  persistState ctx

def deliverOutboundMessage (accountId text : String) : ChannelAction Unit := do
  sendMessageWithRetry ctx accountId text
  persistState ctx

end KelvinClaw.Channel
