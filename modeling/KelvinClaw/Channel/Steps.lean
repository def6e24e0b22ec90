import KelvinClaw.Channel.Ingest

/-!
# Steps of an adapter

The operations of an adapter are made of a few kinds of steps. What all the steps of some kinds
keep, an operation made of them keeps, so that each invariant is proved for the steps only.
-/

namespace KelvinClaw.Channel

open KelvinClaw.Core KelvinClaw.Sdk Systems Systems.Action

/-! ### Kinds of steps -/

def accountsOf (adapter : TextChannelAdapter) :
    Finset String × List (String × String) × (String → Option (List ℕ)) :=
  (adapter.pairedAccounts, adapter.pendingPairCodes, adapter.rateWindows)

def seenOf (adapter : TextChannelAdapter) : Finset String × List String :=
  (adapter.seenDeliveryIds, adapter.seenDeliveryOrder)

def ChannelEvent.isSaved : ChannelEvent → Bool
  | .saved _ => true
  | _ => false

def ChannelEvent.isTracking : ChannelEvent → Bool
  | .tracked _ | .forgotten _ => true
  | _ => false

theorem unsaved_of_tracking {event : ChannelEvent} (tracks : event.isTracking) :
    event.isSaved = false := by
  cases event <;> simp_all [ChannelEvent.isTracking, ChannelEvent.isSaved]

/-- What operations do beside counting, saving and pairing: they count messages, remember ids, and
queue and execute. -/
inductive StepKind where
  | rates
  | tracks
  | acts
  deriving DecidableEq

/-- A step, of a kind that is among some. -/
inductive ChannelStep (ctx : ChannelContext) (kinds : List StepKind) :
    (α : Type) → ChannelAction α → Prop
  | get : ChannelStep ctx kinds _ get
  | ask {α : Type} (call : Surroundings → ℕ → α) : ChannelStep ctx kinds _ (ask ctx call)
  | tally {change : TextChannelAdapter → TextChannelAdapter}
    (accounts : ∀ adapter, accountsOf (change adapter) = accountsOf adapter)
    (seen : ∀ adapter, seenOf (change adapter) = seenOf adapter)
    (inbox : ∀ adapter, (change adapter).inbox = adapter.inbox) :
    ChannelStep ctx kinds _ (update change)
  | save : ChannelStep ctx kinds _ (persistState ctx)
  | pair (accountId : String) : ChannelStep ctx kinds _ (enforcePairingPolicy ctx accountId)
  | approve (code : String) : ChannelStep ctx kinds _ (approvePairing ctx code)
  | rate (among : .rates ∈ kinds) (senderId : String) (senderTier : SenderTrustTier) :
    ChannelStep ctx kinds _ (enforceRateLimit ctx senderId senderTier)
  | track (among : .tracks ∈ kinds) {change : TextChannelAdapter → TextChannelAdapter}
    (accounts : ∀ adapter, accountsOf (change adapter) = accountsOf adapter)
    (inbox : ∀ adapter, (change adapter).inbox = adapter.inbox) :
    ChannelStep ctx kinds _ (update change)
  | logTracking (among : .tracks ∈ kinds) {event : ChannelEvent} (tracks : event.isTracking) :
    ChannelStep ctx kinds _ (log event)
  | queue (among : .acts ∈ kinds) {change : TextChannelAdapter → TextChannelAdapter}
    (accounts : ∀ adapter, accountsOf (change adapter) = accountsOf adapter)
    (seen : ∀ adapter, seenOf (change adapter) = seenOf adapter) :
    ChannelStep ctx kinds _ (update change)
  | logAct (among : .acts ∈ kinds) {event : ChannelEvent} (unsaved : event.isSaved = false) :
    ChannelStep ctx kinds _ (log event)

abbrev Steps {α : Type} (ctx : ChannelContext) (kinds : List StepKind) (act : ChannelAction α) :
    Prop :=
  MadeOf (ChannelStep ctx kinds) act

variable {ctx : ChannelContext} {kinds : List StepKind} {α : Type}

theorem steps_readAdapter : Steps ctx kinds readAdapter :=
  .bind (.step .get) fun _ => .pure _

theorem steps_ask (call : Surroundings → ℕ → α) : Steps ctx kinds (ask ctx call) :=
  .step (.ask call)

theorem steps_record (change : ChannelMetrics → ChannelMetrics) : Steps ctx kinds (record change) :=
  .step (.tally (fun _ => rfl) (fun _ => rfl) fun _ => rfl)

theorem steps_persistState : Steps ctx kinds (persistState ctx) := .step .save

/-! ### Sending and policy -/

theorem steps_sendAttempt (accountId text : String) :
    Steps ctx kinds (sendAttempt ctx accountId text) :=
  .bind (steps_record _) fun _ => steps_ask _

theorem steps_sendAttempts (accountId text : String) (retries : ℕ) :
    Steps ctx kinds (sendAttempts ctx accountId text retries) := by
  induction retries with
  | zero => exact steps_sendAttempt accountId text
  | succ left ih =>
    refine .bind (steps_sendAttempt accountId text) fun sent => ?_
    cases sent with
    | ok done => exact .pure _
    | error err => exact .bind (steps_record _) fun _ => ih

theorem steps_sendMessageWithRetry (accountId text : String) :
    Steps ctx kinds (sendMessageWithRetry ctx accountId text) := by
  refine .ite (.bind (steps_sendAttempts _ _ _) fun sent => ?_) (.pure _)
  cases sent with
  | ok done => exact .pure _
  | error err => exact .bind (steps_record _) fun _ => .fail _

theorem steps_attemptSend (accountId text : String) :
    Steps ctx kinds (attempt (sendMessageWithRetry ctx accountId text)) :=
  .attempt (steps_sendMessageWithRetry accountId text)

theorem steps_denyByPolicy (message : String) :
    Steps ctx kinds (denyByPolicy message : ChannelAction α) :=
  .bind (steps_record _) fun _ => .fail _

theorem steps_enforceCooldown (senderId : String) :
    Steps ctx kinds (enforceCooldown ctx senderId) := by
  refine .bind (steps_ask _) fun now => .bind steps_readAdapter fun adapter => ?_
  exact .ite (.fail _) (.step (.tally (fun _ => rfl) (fun _ => rfl) fun _ => rfl))

theorem steps_enforcePolicy (rates : .rates ∈ kinds) (envelope : ChannelEnvelope) :
    Steps ctx kinds (enforcePolicy ctx envelope) := by
  refine .ite (steps_denyByPolicy _) (.ite (steps_denyByPolicy _) (.ite (steps_denyByPolicy _) ?_))
  refine .bind (.step (.rate rates _ _)) fun _ => ?_
  have saves : Steps ctx kinds (do
      persistState ctx
      return tierFromPolicy ctx.config.policy envelope.senderId) :=
    .bind steps_persistState fun _ => .pure _
  exact .ite (.bind (steps_enforceCooldown _) fun _ => saves) saves

theorem steps_evaluateWasmPolicy (envelope : ChannelEnvelope) (trustTier : SenderTrustTier) :
    Steps ctx kinds (evaluateWasmPolicy ctx envelope trustTier) := by
  refine .ite (.bind (steps_ask _) fun answer => ?_) (.pure _)
  refine .bind (.ofExcept _) fun decision => .ite ?_ (steps_denyByPolicy _)
  exact .bind (.ofExcept _) fun _ => .pure _

/-! ### Operations beside ingestion -/

theorem steps_recordWebhookVerified (statusCode : ℕ) (retryHint : Bool) :
    Steps ctx kinds (recordWebhookVerified ctx statusCode retryHint) :=
  .bind (steps_ask _) fun _ => .bind (steps_record _) fun _ => steps_persistState

theorem steps_recordWebhookDenied (statusCode : ℕ) (retryHint : Bool) (reason : String) :
    Steps ctx kinds (recordWebhookDenied ctx statusCode retryHint reason) :=
  .bind (steps_ask _) fun _ => .bind (steps_record _) fun _ => steps_persistState

theorem steps_deliverOutboundMessage (accountId text : String) :
    Steps ctx kinds (deliverOutboundMessage ctx accountId text) :=
  .bind (steps_sendMessageWithRetry _ _) fun _ => steps_persistState

/-! ### Ingestion -/

theorem steps_evictOldest (tracks : .tracks ∈ kinds) (excess : ℕ) :
    Steps ctx kinds (evictOldest excess) := by
  induction excess with
  | zero => exact .pure _
  | succ excess ih =>
    refine .bind steps_readAdapter fun adapter => ?_
    split
    · exact .pure _
    · refine .bind (.step (.track tracks (fun _ => rfl) fun _ => rfl)) fun _ => ?_
      exact .bind (.step (.logTracking tracks rfl)) fun _ => ih

theorem steps_trackDeliveryId (tracks : .tracks ∈ kinds) (deliveryId : String) :
    Steps ctx kinds (trackDeliveryId ctx deliveryId) := by
  have after : Steps ctx kinds (do
      let now ← ask ctx (·.nowMs)
      record fun metrics => { metrics with lastDeliveryAtMs := some now }
      evictOldest
        ((← readAdapter).seenDeliveryOrder.length - ctx.config.policy.maxSeenDeliveryIds)) := by
    refine .bind (steps_ask _) fun now => .bind (steps_record _) fun _ => ?_
    exact .bind steps_readAdapter fun _ => steps_evictOldest tracks _
  refine .bind steps_readAdapter fun adapter => ?_
  dsimp only
  split
  · refine .bind (.step (.track tracks (fun _ => rfl) fun _ => rfl)) fun _ => ?_
    exact .bind (.step (.logTracking tracks rfl)) fun _ => after
  · exact after

theorem steps_triageCommand (tracks : .tracks ∈ kinds) (acts : .acts ∈ kinds)
    (envelope : ChannelEnvelope) (trustTier : SenderTrustTier) (command : SlashCommandMeta)
    (name args : String) :
    Steps ctx kinds (triageCommand ctx envelope trustTier command name args) := by
  refine .bind (steps_trackDeliveryId tracks _) fun _ => .ite ?_ (.ite ?_ (.pure _))
  · exact .bind (steps_attemptSend _ _) fun _ => .pure _
  · refine .bind (.step (.logAct acts rfl)) fun _ => .bind (steps_ask _) fun result => ?_
    exact .bind (steps_attemptSend _ _) fun _ => .pure _

theorem steps_triageMessage (tracks : .tracks ∈ kinds) (envelope : ChannelEnvelope)
    (trustTier : SenderTrustTier) (decision : Option WasmPolicyDecision) :
    Steps ctx kinds (triageMessage ctx envelope trustTier decision) :=
  .bind (steps_trackDeliveryId tracks _) fun _ => .pure _

theorem steps_triageNew (all : ∀ kind, kind ∈ kinds) (envelope : ChannelEnvelope) :
    Steps ctx kinds (triageNew ctx envelope) := by
  refine .bind (.step (.pair _)) fun pairing => ?_
  cases pairing with
  | some code =>
    exact .bind (steps_record _) fun _ => .bind (steps_attemptSend _ _) fun _ => .pure _
  | none =>
    refine .bind (steps_enforcePolicy (all _) _) fun trustTier => ?_
    refine .bind (steps_evaluateWasmPolicy _ _) fun answer => ?_
    dsimp only
    split
    · exact steps_triageCommand (all _) (all _) _ _ _ _ _
    · exact steps_triageMessage (all _) _ _ _

theorem steps_triage (all : ∀ kind, kind ∈ kinds) (envelope : ChannelEnvelope) :
    Steps ctx kinds (triage ctx envelope) := by
  refine .bind (steps_record _) fun _ => .bind (.ofExcept _) fun normalized => ?_
  refine .bind steps_readAdapter fun adapter => .ite ?_ (steps_triageNew all _)
  exact .bind (steps_record _) fun _ => .pure _

theorem steps_enqueue (acts : .acts ∈ kinds) (entry : QueuedEnvelope) :
    Steps ctx kinds (enqueue ctx entry) := by
  refine .bind steps_readAdapter fun adapter => .ite ?_ ?_
  · exact .bind (steps_record _) fun _ => .bind steps_persistState fun _ => .fail _
  · refine .bind (steps_record _) fun _ => ?_
    refine .bind (.step (.queue acts (fun _ => rfl) fun _ => rfl)) fun _ => ?_
    exact .bind (.step (.logAct acts rfl)) fun _ => steps_persistState

theorem steps_reportOutcome (entry : QueuedEnvelope) (runId : String)
    (outcome : RunOutcome (List String)) :
    Steps ctx kinds (reportOutcome ctx entry runId outcome) := by
  have saves : ∀ reply : IngestReply, Steps ctx kinds (do persistState ctx; return reply) :=
    fun _ => .bind steps_persistState fun _ => .pure _
  cases outcome with
  | completed payloads =>
    exact .bind (steps_sendMessageWithRetry _ _) fun _ => .bind (steps_record _) fun _ => saves _
  | failed error =>
    exact .bind (steps_record _) fun _ => .bind (steps_attemptSend _ _) fun _ => saves _
  | timeout =>
    exact .bind (steps_record _) fun _ => .bind (steps_attemptSend _ _) fun _ => saves _

theorem steps_executeEntry (acts : .acts ∈ kinds) (entry : QueuedEnvelope) :
    Steps ctx kinds (executeEntry ctx entry) := by
  unfold executeEntry
  cases entry.slashCommand with
  | some slash =>
    refine .bind (.step (.logAct acts rfl)) fun _ => .bind (steps_ask _) fun result => ?_
    refine .bind (steps_attemptSend _ _) fun _ => ?_
    exact .bind steps_persistState fun _ => .pure _
  | none =>
    refine .bind (.step (.logAct acts rfl)) fun _ => .bind (steps_ask _) fun submitted => ?_
    refine .bind (.ofExcept _) fun accepted => .bind (steps_ask _) fun waited => ?_
    exact .bind (.ofExcept _) fun _ => steps_reportOutcome _ _ _

theorem steps_drain (acts : .acts ∈ kinds) (targetDeliveryId : String) (left : ℕ)
    (targetResponse : Option IngestReply) :
    Steps ctx kinds (drain ctx targetDeliveryId left targetResponse) := by
  induction left generalizing targetResponse with
  | zero => exact .pure _
  | succ left ih =>
    refine .bind steps_readAdapter fun adapter => ?_
    split
    · exact .pure _
    · refine .bind (.step (.queue acts (fun _ => rfl) fun _ => rfl)) fun _ => ?_
      refine .bind (.step (.logAct acts rfl)) fun _ => .bind steps_persistState fun _ => ?_
      refine .bind (.attempt (steps_executeEntry acts _)) fun result => ?_
      cases result with
      | ok payload => exact ih _
      | error err => exact .ite (.fail _) (.bind (steps_record _) fun _ => ih _)

theorem steps_processInbox (acts : .acts ∈ kinds) (targetDeliveryId : String) :
    Steps ctx kinds (processInbox ctx targetDeliveryId) := by
  refine .bind steps_readAdapter fun adapter => .bind (steps_drain acts _ _ _) fun response => ?_
  cases response with
  | some payload => exact .pure _
  | none => exact .bind steps_readAdapter fun _ => .pure _

theorem steps_ingest (all : ∀ kind, kind ∈ kinds) (envelope : ChannelEnvelope) :
    Steps ctx kinds (ingest ctx envelope) := by
  have received : Steps ctx kinds (receive ctx envelope) := by
    refine .bind (steps_triage all envelope) fun verdict => ?_
    cases verdict with
    | answered reply => exact .pure _
    | queue entry => exact .bind (steps_enqueue (all _) _) fun _ => .pure _
  refine .bind received fun verdict => ?_
  cases verdict with
  | answered reply => exact .pure _
  | queue entry => exact steps_processInbox (all _) _

end KelvinClaw.Channel
