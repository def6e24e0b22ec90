import KelvinClaw.Channel.Refinement

/-!
# Runs of a channel adapter

An adapter performs one operation after the other. A crash can come between any two
lasting events of an operation, or after it: what the operation did until then stays
done, and the adapter goes on from the snapshot on disk.
-/

namespace KelvinClaw.Channel

open KelvinClaw.Core Systems Systems.Action

/-! ### Operations -/

inductive Operation where
  | ingest (envelope : ChannelEnvelope)
  | approvePairing (code : String)
  | recordWebhookVerified (statusCode : ℕ) (retryHint : Bool)
  | recordWebhookDenied (statusCode : ℕ) (retryHint : Bool) (reason : String)
  | deliverOutboundMessage (accountId text : String)

variable (ctx : ChannelContext)

def perform : Operation → ChannelAction Unit
  | .ingest envelope => do let _ ← ingest ctx envelope
  | .approvePairing code => do let _ ← approvePairing ctx code
  | .recordWebhookVerified statusCode retryHint => recordWebhookVerified ctx statusCode retryHint
  | .recordWebhookDenied statusCode retryHint reason =>
    recordWebhookDenied ctx statusCode retryHint reason
  | .deliverOutboundMessage accountId text => deliverOutboundMessage ctx accountId text

/-! ### Crashes -/

def cutAtRestart (policy : ChannelPolicy) (disk : Option PersistedChannelState) : List String :=
  disk.elim [] fun state =>
    state.seenDeliveryOrder.take (state.seenDeliveryOrder.length - policy.maxSeenDeliveryIds)

def restart (disk : Option PersistedChannelState) (calls : ℕ) : Machine :=
  match disk with
  | none => ⟨.fresh, calls⟩
  | some state =>
    ⟨applyPersistedState ctx.config.policy (ctx.surroundings.nowMs calls) state, calls + 1⟩

structure AdapterRun where
  machine : Machine
  ledger : Ledger

inductive RunEvent where
  | completed (operation : Operation)
  /-- The operation is cut after some of its lasting events. -/
  | crashed (operation : Operation) (events : ℕ)

def AdapterRun.ledgerAt (s : AdapterRun) (operation : Operation) (events : ℕ) : Ledger :=
  ((perform ctx operation s.machine).journal.take events).foldl Ledger.record s.ledger

def AdapterRun.complete (s : AdapterRun) (operation : Operation) : AdapterRun where
  machine := (perform ctx operation s.machine).state
  ledger := (perform ctx operation s.machine).journal.foldl Ledger.record s.ledger

def AdapterRun.crash (s : AdapterRun) (operation : Operation) (events : ℕ) : AdapterRun :=
  let ledger := s.ledgerAt ctx operation events
  { machine := restart ctx ledger.disk (perform ctx operation s.machine).state.calls
    ledger :=
      { ledger with
        forgotten := ledger.forgotten ++ cutAtRestart ctx.config.policy ledger.disk } }

def channelRuns : TransitionSystem AdapterRun RunEvent where
  init s := s.machine.adapter = .fresh ∧ s.ledger = .blank
  step s
    | .completed operation => some (s.complete ctx operation)
    | .crashed operation events => some (s.crash ctx operation events)

/-- A crash comes neither between the execution of a command past the inbox and the next
save, nor after an execution when nothing was ever saved. -/
def SavedAtCrash (s : AdapterRun) : RunEvent → Prop
  | .completed _ => True
  | .crashed operation events => (s.ledgerAt ctx operation events).unsaved = []

/-! ### Simulation -/

variable {ctx} {guard : DurableInbox String → InboxEvent String → Prop} {s t : AdapterRun}
  {ledger : Ledger}

theorem wp_discard {α : Type} {act : ChannelAction α} {m : Machine} {Φ : DurableInbox String → Prop}
    (holds : wpLedger ctx guard act
      (fun _ t after => Simulates ctx guard Φ (deliveries t) after) m ledger) :
    wpLedger ctx guard (do let _ ← act)
      (fun _ t after => Simulates ctx guard Φ (deliveries t) after) m ledger := by
  refine wp_bind.mpr (holds.mono fun result t after _ holds => ?_)
  cases result with
  | error err => exact holds
  | ok a => exact wp_pure.mpr ⟨holds.explained, holds⟩

theorem wp_perform (free : RestrainsCrashes guard) (operation : Operation) {m : Machine}
    (simulates : Simulates ctx guard (fun _ => True) (deliveries m) ledger) :
    wpLedger ctx guard (perform ctx operation)
      (fun _ t after => Simulates ctx guard (fun _ => True) (deliveries t) after) m ledger := by
  have quietly : ∀ {α : Type} {act : ChannelAction α}, Quiet ctx act → wpLedger ctx guard act
      (fun _ t after => Simulates ctx guard (fun _ => True) (deliveries t) after) m ledger :=
    fun quiet => (wp_of_quiet free quiet keptBySave_true simulates).mono
      fun _ _ _ _ holds => holds.2
  cases operation with
  | ingest envelope => exact wp_discard (wp_ingest free envelope simulates)
  | approvePairing code => exact wp_discard (quietly (quiet_approvePairing code))
  | recordWebhookVerified statusCode retryHint =>
    exact quietly (steps_recordWebhookVerified statusCode retryHint).quiet
  | recordWebhookDenied statusCode retryHint reason =>
    exact quietly (steps_recordWebhookDenied statusCode retryHint reason).quiet
  | deliverOutboundMessage accountId text =>
    exact quietly (steps_deliverOutboundMessage accountId text).quiet

theorem simulates_restart (explained : Explained ctx guard ledger)
    (allowed : ∀ a, Explains ctx guard ledger a → ∀ dropped kept, guard a (.crash dropped kept))
    (calls : ℕ) :
    Simulates ctx guard (fun _ => True) (deliveries (restart ctx ledger.disk calls))
      { ledger with
        forgotten := ledger.forgotten ++ cutAtRestart ctx.config.policy ledger.disk } := by
  obtain ⟨a, explains⟩ := explained
  let policy := ctx.config.policy
  let dropped := a.snapshot.seen.length - policy.maxSeenDeliveryIds
  refine ⟨a.crash dropped policy.maxQueueDepth, ?_, trivial⟩
  have crashes := TransitionSystem.ReachableWhen.step explains.reached
    (allowed a explains dropped policy.maxQueueDepth) rfl
  cases disk : ledger.disk with
  | none =>
    have nothing : a.snapshot = ⟨[], []⟩ := by
      simp [DurableInbox.snapshot, explains.saved, disk]
    constructor
    · refine ⟨crashes, ?_, explains.executed, ?_, explains.unsaved, explains.volatile⟩
      · rw [disk.symm]
        exact explains.saved
      · simp [DurableInbox.crash, nothing, explains.forgotten, cutAtRestart]
    · simp [DurableInbox.crash, nothing, restart, deliveries, TextChannelAdapter.fresh]
    · rfl
    · simp [DurableInbox.crash, nothing, restart, deliveries, TextChannelAdapter.fresh]
  | some state =>
    have onDisk : a.snapshot = state.inboxSnapshot := by
      simp [DurableInbox.snapshot, explains.saved, disk]
    constructor
    · refine ⟨crashes, ?_, explains.executed, ?_, explains.unsaved, explains.volatile⟩
      · rw [disk.symm]
        exact explains.saved
      · simp [DurableInbox.crash, onDisk, explains.forgotten, cutAtRestart, dropped, policy,
          PersistedChannelState.inboxSnapshot]
    · simp [DurableInbox.crash, onDisk, restart, deliveries, applyPersistedState, dropped, policy,
        PersistedChannelState.inboxSnapshot]
    · rfl
    · simp [DurableInbox.crash, onDisk, restart, deliveries, applyPersistedState, policy,
        PersistedChannelState.inboxSnapshot, List.map_take]

theorem simulates_of_reachableWhen {meets : AdapterRun → RunEvent → Prop}
    (free : RestrainsCrashes guard)
    (allowed : ∀ s operation events, meets s (.crashed operation events) →
      ∀ a, Explains ctx guard (s.ledgerAt ctx operation events) a →
        ∀ dropped kept, guard a (.crash dropped kept))
    (reached : (channelRuns ctx).ReachableWhen meets s) :
    Simulates ctx guard (fun _ => True) (deliveries s.machine) s.ledger := by
  refine reached.invariant
    (fun s => Simulates ctx guard (fun _ => True) (deliveries s.machine) s.ledger) ?_ ?_
  · intro s ⟨fresh, blank⟩
    refine ⟨.fresh, ⟨⟨.init rfl, ?_, ?_, ?_, ?_, fun _ => rfl⟩, ?_, ?_, ?_⟩, trivial⟩ <;>
      simp [deliveries, fresh, blank, Ledger.blank, DurableInbox.fresh, TextChannelAdapter.fresh]
  · intro s event t simulates meets moves
    cases event with
    | completed operation =>
      obtain rfl := Option.some_inj.mp moves
      exact (wp_perform free operation simulates).2
    | crashed operation events =>
      obtain rfl := Option.some_inj.mp moves
      have explained := (wp_perform free operation simulates).crash events
      exact simulates_restart explained (allowed s operation events meets) _

theorem simulates_of_reachable (reached : (channelRuns ctx).Reachable s) :
    Simulates ctx (fun _ _ => True) (fun _ => True) (deliveries s.machine) s.ledger :=
  simulates_of_reachableWhen (fun _ _ _ => trivial) (fun _ _ _ _ _ _ _ _ => trivial) reached

theorem restrainsCrashes_afterSave : RestrainsCrashes AfterSave := by
  intro a event noCrash
  cases event with
  | crash dropped kept => exact absurd rfl (noCrash dropped kept)
  | _ => trivial

theorem simulates_of_savedAtCrash
    (reached : (channelRuns ctx).ReachableWhen (SavedAtCrash ctx) s) :
    Simulates ctx AfterSave (fun _ => True) (deliveries s.machine) s.ledger := by
  refine simulates_of_reachableWhen restrainsCrashes_afterSave ?_ reached
  intro s operation events saved a explains dropped kept
  exact explains.unsaved.trans saved

/-! ### A small gateway -/

/-- A channel that everybody may write to, with a queue of one entry. -/
def openPolicy : ChannelPolicy where
  ingressToken := none
  allowAccounts := ∅
  allowSenders := ∅
  ownerSenders := ∅
  trustedSenders := ∅
  probationSenders := ∅
  blockedSenders := ∅
  quotaOwnerPerMinute := 80
  quotaStandardPerMinute := 20
  quotaTrustedPerMinute := 40
  quotaProbationPerMinute := 10
  cooldownProbationMs := 1000
  maxSeenDeliveryIds := 128
  maxQueueDepth := 1
  maxTextBytes := 4096
  seenBound := le_refl _
  queueBound := le_refl _

/-- A gateway with a state directory, with these commands and this success of its saves. -/
def openContext (commands : List SlashCommandMeta) (save : ℕ → KelvinResult Unit) :
    ChannelContext where
  config :=
    { kind := .slack
      pairingEnabled := false
      policy := openPolicy
      transport := ⟨none, 2⟩
      hasWasmPolicyPlugin := false }
  statePersistence := true
  routing := ⟨[]⟩
  commandRegistry := ⟨commands⟩
  surroundings :=
    { nowMs := fun calls => 1000 + calls
      save
      evaluate := fun _ _ _ => .error (.notFound "no policy module")
      commandExecPayload := fun _ params => .ok params.command
      submit := fun calls _ => .ok ⟨s!"run-{calls}", 1000 + calls, none⟩
      waitForOutcome := fun _ _ _ => .ok (.completed ["done"])
      sendOutboundOnce := fun _ _ _ => .ok () }

def plainEnvelope (deliveryId text : String) : ChannelEnvelope :=
  ⟨deliveryId, "user-1", "channel-1", text, none, none, none, none⟩

def emptyRun : AdapterRun := ⟨⟨.fresh, 0⟩, .blank⟩

theorem emptyRun_starts (ctx : ChannelContext) : (channelRuns ctx).init emptyRun := ⟨rfl, rfl⟩

end KelvinClaw.Channel
