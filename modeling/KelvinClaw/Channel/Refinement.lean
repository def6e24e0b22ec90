import KelvinClaw.Library.DurableInbox
import KelvinClaw.Channel.Steps

/-!
# The adapter refines the durable inbox

A ledger of what a channel adapter did for good: the snapshot on disk, the delivery ids
whose message or command was executed, and those that were forgotten. Every journal an
operation of the adapter leaves, cut anywhere, is a run of the durable inbox: an id is
remembered only when it is new, it is queued or executed only after it was remembered,
and an entry of the inbox is executed only after a save that has it taken.
-/

namespace KelvinClaw.Channel

open KelvinClaw.Core Systems Systems.Action

/-! ### The ledger -/

/-- What an adapter did for good. -/
structure Ledger where
  disk : Option PersistedChannelState
  executed : List String
  forgotten : List String
  /-- The ids executed past the inbox since the last save, and those executed when
  nothing had ever been saved. -/
  unsaved : List String

namespace Ledger

def blank : Ledger := ⟨none, [], [], []⟩

/-- A command or a message of the inbox is executed. -/
def execute (ledger : Ledger) (deliveryId : String) : Ledger :=
  { ledger with
    executed := ledger.executed ++ [deliveryId]
    unsaved := if ledger.disk.isNone then ledger.unsaved ++ [deliveryId] else ledger.unsaved }

def record (ledger : Ledger) : ChannelEvent → Ledger
  | .saved state => { ledger with disk := some state, unsaved := [] }
  | .tracked _ | .queued _ | .taken _ => ledger
  | .forgotten deliveryId => { ledger with forgotten := ledger.forgotten ++ [deliveryId] }
  | .bypassed deliveryId _ =>
    { ledger with
      executed := ledger.executed ++ [deliveryId]
      unsaved := ledger.unsaved ++ [deliveryId] }
  | .dispatched deliveryId _ | .submitted deliveryId _ => ledger.execute deliveryId

end Ledger

/-! ### The abstract inbox -/

structure Deliveries where
  seenDeliveryIds : Finset String
  seenDeliveryOrder : List String
  inbox : List QueuedEnvelope

def deliveries (machine : Machine) : Deliveries :=
  ⟨machine.adapter.seenDeliveryIds, machine.adapter.seenDeliveryOrder, machine.adapter.inbox⟩

def QueuedEnvelope.deliveryId (entry : QueuedEnvelope) : String := entry.envelope.deliveryId

def PersistedChannelState.inboxSnapshot (state : PersistedChannelState) : InboxSnapshot String :=
  ⟨state.seenDeliveryOrder, state.inbox.map QueuedEnvelope.deliveryId⟩

variable (ctx : ChannelContext)
  (guard : DurableInbox String → InboxEvent String → Prop)

/-- A run of the durable inbox that a ledger is the outcome of. -/
structure Explains (ledger : Ledger) (a : DurableInbox String) : Prop where
  reached : (durableInbox String).ReachableWhen guard a
  saved : a.saved = ledger.disk.map PersistedChannelState.inboxSnapshot
  executed : a.executed = ledger.executed
  forgotten : a.forgotten = ledger.forgotten
  unsaved : a.unsaved = ledger.unsaved
  /-- Without a state directory nothing is ever saved. -/
  volatile : ctx.statePersistence = false → a.saved = none

/-- The durable inbox that the seen ids, the inbox and the ledger stand for. -/
structure Refines (v : Deliveries) (ledger : Ledger) (a : DurableInbox String) : Prop
    extends Explains ctx guard ledger a where
  seen : a.seen = v.seenDeliveryOrder
  ids : v.seenDeliveryIds = v.seenDeliveryOrder.toFinset
  waiting : a.waiting = v.inbox.map QueuedEnvelope.deliveryId

def Explained (ledger : Ledger) : Prop := ∃ a, Explains ctx guard ledger a

/-- Some durable inbox with property `Φ` is what the adapter and the ledger stand for. -/
def Simulates (Φ : DurableInbox String → Prop) (v : Deliveries) (ledger : Ledger) : Prop :=
  ∃ a, Refines ctx guard v ledger a ∧ Φ a

def RestrainsCrashes : Prop := ∀ a event, (∀ dropped kept, event ≠ .crash dropped kept) →
  guard a event

/-- The weakest precondition of an operation, with ledgers that are explained throughout. -/
abbrev wpLedger {α : Type} (act : ChannelAction α)
    (post : Except KelvinError α → Machine → Ledger → Prop) (s : Machine) (ledger : Ledger) :
    Prop :=
  wp Ledger.record (Explained ctx guard) act post s ledger

variable {ctx guard} {v : Deliveries} {ledger : Ledger} {a : DurableInbox String}
  {Φ Ψ : DurableInbox String → Prop}

theorem Simulates.explained (simulates : Simulates ctx guard Φ v ledger) :
    Explained ctx guard ledger := by
  obtain ⟨a, refines, _⟩ := simulates
  exact ⟨a, refines.toExplains⟩

theorem Simulates.weaken (simulates : Simulates ctx guard Φ v ledger) (weaker : ∀ a, Φ a → Ψ a) :
    Simulates ctx guard Ψ v ledger := by
  obtain ⟨a, refines, holds⟩ := simulates
  exact ⟨a, refines, weaker a holds⟩

/-! ### Events -/

section Events

variable (free : RestrainsCrashes guard)
include free

theorem Refines.save (refines : Refines ctx guard v ledger a) (state : PersistedChannelState)
    (persists : ctx.statePersistence = true) (order : state.seenDeliveryOrder = v.seenDeliveryOrder)
    (inbox : state.inbox = v.inbox) :
    Refines ctx guard v (ledger.record (.saved state)) a.save where
  reached := .step refines.reached (free a .save nofun) rfl
  saved := by
    simp [DurableInbox.save, Ledger.record, PersistedChannelState.inboxSnapshot, order, inbox,
      refines.seen, refines.waiting]
  executed := refines.executed
  forgotten := refines.forgotten
  unsaved := rfl
  volatile off := absurd persists (by simp [off])
  seen := refines.seen
  ids := refines.ids
  waiting := refines.waiting

theorem Refines.track (refines : Refines ctx guard v ledger a) {deliveryId : String}
    (new : deliveryId ∉ v.seenDeliveryIds) :
    Refines ctx guard
      { v with
        seenDeliveryIds := insert deliveryId v.seenDeliveryIds
        seenDeliveryOrder := v.seenDeliveryOrder ++ [deliveryId] }
      (ledger.record (.tracked deliveryId))
      { a with seen := a.seen ++ [deliveryId], admitted := some deliveryId } where
  reached := by
    refine .step refines.reached (free a (.remember deliveryId) nofun) ?_
    have absent : deliveryId ∉ a.seen := by
      rwa [refines.seen, ← List.mem_toFinset, ← refines.ids]
    simp [durableInbox, absent]
  saved := refines.saved
  executed := refines.executed
  forgotten := refines.forgotten
  unsaved := refines.unsaved
  volatile := refines.volatile
  seen := by rw [refines.seen]
  ids := by
    ext other
    simp only [refines.ids, Finset.mem_insert, List.mem_toFinset, List.mem_append,
      List.mem_singleton]
    exact or_comm
  waiting := refines.waiting

theorem Refines.forget (refines : Refines ctx guard v ledger a) {evicted : String}
    {rest : List String} (oldest : v.seenDeliveryOrder = evicted :: rest) :
    Refines ctx guard
      { v with
        seenDeliveryIds := v.seenDeliveryIds.erase evicted
        seenDeliveryOrder := rest }
      (ledger.record (.forgotten evicted))
      { a with seen := a.seen.tail, forgotten := a.forgotten ++ [evicted] } where
  reached := by
    refine .step refines.reached (free a (.forget evicted) nofun) ?_
    simp [durableInbox, refines.seen, oldest]
  saved := refines.saved
  executed := refines.executed
  forgotten := by simp [Ledger.record, refines.forgotten]
  unsaved := refines.unsaved
  volatile := refines.volatile
  seen := by rw [refines.seen, oldest, List.tail_cons]
  ids := by
    have distinct := DurableInbox.nodup_seen refines.reached
    rw [refines.seen, oldest, List.nodup_cons] at distinct
    simp [refines.ids, oldest, distinct.1]
  waiting := refines.waiting

theorem Refines.queue (refines : Refines ctx guard v ledger a) {entry : QueuedEnvelope}
    (admitted : a.admitted = some entry.deliveryId) :
    Refines ctx guard { v with inbox := v.inbox ++ [entry] } (ledger.record (.queued entry))
      { a with waiting := a.waiting ++ [entry.deliveryId], admitted := none } where
  reached := by
    refine .step refines.reached (free a (.queue entry.deliveryId) nofun) ?_
    simp [durableInbox, admitted]
  saved := refines.saved
  executed := refines.executed
  forgotten := refines.forgotten
  unsaved := refines.unsaved
  volatile := refines.volatile
  seen := refines.seen
  ids := refines.ids
  waiting := by simp [refines.waiting]

theorem Refines.take (refines : Refines ctx guard v ledger a) {entry : QueuedEnvelope}
    {rest : List QueuedEnvelope} (front : v.inbox = entry :: rest) :
    Refines ctx guard { v with inbox := rest } (ledger.record (.taken entry))
      { a with waiting := a.waiting.tail, taken := some entry.deliveryId, settled := false } where
  reached := by
    refine .step refines.reached (free a (.take entry.deliveryId) nofun) ?_
    simp [durableInbox, refines.waiting, front]
  saved := refines.saved
  executed := refines.executed
  forgotten := refines.forgotten
  unsaved := refines.unsaved
  volatile := refines.volatile
  seen := refines.seen
  ids := refines.ids
  waiting := by simp [refines.waiting, front]

theorem Refines.bypass (refines : Refines ctx guard v ledger a) {deliveryId : String}
    (params : CommandExecParams) (admitted : a.admitted = some deliveryId) :
    Refines ctx guard v (ledger.record (.bypassed deliveryId params))
      { a with
        admitted := none
        executed := a.executed ++ [deliveryId]
        unsaved := a.unsaved ++ [deliveryId] } where
  reached := by
    refine .step refines.reached (free a (.bypass deliveryId) nofun) ?_
    simp [durableInbox, admitted]
  saved := refines.saved
  executed := by simp [Ledger.record, refines.executed]
  forgotten := refines.forgotten
  unsaved := by simp [Ledger.record, refines.unsaved]
  volatile := refines.volatile
  seen := refines.seen
  ids := refines.ids
  waiting := refines.waiting

/-- The entry that was taken is executed once the inbox without it was saved. -/
theorem Refines.execute (refines : Refines ctx guard v ledger a) {deliveryId : String}
    (taken : a.taken = some deliveryId) (settled : a.settled ∨ a.saved = none) :
    Refines ctx guard v (ledger.execute deliveryId) (a.execute deliveryId) where
  reached := by
    refine .step refines.reached (free a (.execute deliveryId) nofun) ?_
    exact if_pos ⟨taken, settled⟩
  saved := refines.saved
  executed := by simp [Ledger.execute, DurableInbox.execute, refines.executed]
  forgotten := refines.forgotten
  unsaved := by
    simp [Ledger.execute, DurableInbox.execute, refines.unsaved, refines.saved]
  volatile := refines.volatile
  seen := refines.seen
  ids := refines.ids
  waiting := refines.waiting

end Events

/-! ### Quiet operations -/

section Quiet

variable (ctx) {α β : Type}

def SavesOnly (v : Deliveries) : ChannelEvent → Prop
  | .saved state =>
    ctx.statePersistence = true ∧ state.seenDeliveryOrder = v.seenDeliveryOrder ∧
      state.inbox = v.inbox
  | _ => False

/-- An operation that leaves the seen ids and the inbox alone, and executes nothing. -/
abbrev Quiet (act : ChannelAction α) : Prop := Frames deliveries (SavesOnly ctx) act

variable {ctx}

theorem quiet_update {change : TextChannelAdapter → TextChannelAdapter}
    (same : ∀ machine : Machine,
      deliveries { machine with adapter := change machine.adapter } = deliveries machine) :
    Quiet ctx (update change) :=
  frames_modify same

theorem quiet_record (change : ChannelMetrics → ChannelMetrics) : Quiet ctx (record change) :=
  quiet_update fun _ => rfl

theorem quiet_readAdapter : Quiet ctx readAdapter :=
  frames_bind frames_get fun _ => frames_pure _

theorem quiet_ask (call : Surroundings → ℕ → α) : Quiet ctx (ask ctx call) := by
  refine frames_bind frames_get fun machine => ?_
  exact frames_bind (frames_modify fun _ => rfl) fun _ => frames_pure _

theorem quiet_persistState : Quiet ctx (persistState ctx) := by
  intro s
  cases persists : ctx.statePersistence with
  | false =>
    rw [persistState_off persists]
    exact frames_pure () s
  | true =>
    cases saved : ctx.surroundings.save s.calls with
    | error err =>
      rw [persistState_failed persists saved]
      exact ⟨rfl, fun event member => by cases member⟩
    | ok done =>
      rw [persistState_saved persists saved]
      refine ⟨rfl, fun event member => ?_⟩
      obtain rfl := List.mem_singleton.mp member
      exact ⟨persists, rfl, rfl⟩

theorem quiet_enforcePairingPolicy (accountId : String) :
    Quiet ctx (enforcePairingPolicy ctx accountId) := by
  refine frames_bind quiet_readAdapter fun adapter => ?_
  refine frames_ite (frames_pure _) (frames_ite (frames_pure _) ?_)
  split
  · exact frames_pure _
  · refine frames_bind (quiet_ask _) fun now => ?_
    refine frames_bind (quiet_update fun _ => rfl) fun _ => ?_
    refine frames_bind (frames_attempt quiet_persistState) fun saved => ?_
    cases saved with
    | ok done => exact frames_pure _
    | error err => exact frames_bind (quiet_update fun _ => rfl) fun _ => frames_fail _

theorem quiet_approvePairing (code : String) : Quiet ctx (approvePairing ctx code) := by
  refine frames_ite (frames_fail _) (frames_ite (frames_fail _) ?_)
  refine frames_bind quiet_readAdapter fun adapter => ?_
  split
  · exact frames_fail _
  · refine frames_bind (quiet_update fun _ => rfl) fun _ => ?_
    refine frames_bind (quiet_record _) fun _ => ?_
    refine frames_bind (frames_attempt quiet_persistState) fun saved => ?_
    cases saved with
    | ok done => exact frames_pure _
    | error err =>
      refine frames_bind (quiet_update fun _ => rfl) fun _ => ?_
      exact frames_bind (quiet_record _) fun _ => frames_fail _

theorem quiet_enforceRateLimit (senderId : String) (senderTier : SenderTrustTier) :
    Quiet ctx (enforceRateLimit ctx senderId senderTier) := by
  refine frames_bind (quiet_ask _) fun now => ?_
  refine frames_bind quiet_readAdapter fun adapter => ?_
  refine frames_bind (quiet_update fun _ => rfl) fun _ => ?_
  exact frames_ite (frames_bind (quiet_record _) fun _ => frames_fail _)
    (quiet_update fun _ => rfl)

theorem Steps.quiet {act : ChannelAction α} (made : Steps ctx [.rates] act) : Quiet ctx act := by
  refine made.frames fun {β act} is => ?_
  cases is with
  | get => exact frames_get
  | ask call => exact quiet_ask call
  | tally _ seen inbox =>
    refine quiet_update fun machine => ?_
    have same := seen machine.adapter
    simp only [seenOf, Prod.mk.injEq] at same
    simp only [deliveries, same, inbox machine.adapter]
  | save => exact quiet_persistState
  | pair accountId => exact quiet_enforcePairingPolicy accountId
  | approve code => exact quiet_approvePairing code
  | rate _ senderId senderTier => exact quiet_enforceRateLimit senderId senderTier
  | track among => simp at among
  | logTracking among => simp at among
  | queue among => simp at among
  | logAct among => simp at among

theorem quiet_rejectFull : Quiet ctx (do
    record fun metrics =>
      { metrics with
        queueRejectedTotal := bump metrics.queueRejectedTotal
        lastError := some "channel queue is full" }
    persistState ctx
    fail (.backend s!"{ctx.config.kind.asStr} channel queue is full") : ChannelAction Unit) :=
  frames_bind (quiet_record _) fun _ => frames_bind quiet_persistState fun _ => frames_fail _

def KeptBySave (Φ : DurableInbox String → Prop) : Prop := ∀ a, Φ a → Φ a.save

/-- **Quiet operations** keep what an adapter stands for, up to saves. -/
theorem wp_of_quiet {act : ChannelAction α} {s : Machine} (free : RestrainsCrashes guard)
    (quiet : Quiet ctx act) (kept : KeptBySave Φ)
    (simulates : Simulates ctx guard Φ (deliveries s) ledger) :
    wpLedger ctx guard act
      (fun _ t after => deliveries t = deliveries s ∧
        Simulates ctx guard Φ (deliveries t) after) s ledger := by
  have framed : wpLedger ctx guard act
      (fun _ t after => deliveries t = deliveries s ∧ Simulates ctx guard Φ (deliveries s) after)
      s ledger :=
    quiet.wp (Simulates ctx guard Φ) ?_ (fun v after => Simulates.explained) simulates
  · refine framed.mono fun result t after _ ⟨same, holds⟩ => ⟨same, ?_⟩
    rwa [same]
  · intro v before event ⟨a, refines, holds⟩ allowed
    cases event with
    | saved state =>
      obtain ⟨persists, order, inbox⟩ := allowed
      exact ⟨a.save, refines.save free state persists order inbox, kept a holds⟩
    | _ => exact allowed.elim

theorem wp_bind_of_quiet {act : ChannelAction α} {next : α → ChannelAction β} {s : Machine}
    {post : Except KelvinError β → Machine → Ledger → Prop} (free : RestrainsCrashes guard)
    (quiet : Quiet ctx act) (kept : KeptBySave Φ)
    (simulates : Simulates ctx guard Φ (deliveries s) ledger)
    (fails : ∀ err t after, deliveries t = deliveries s →
      Simulates ctx guard Φ (deliveries t) after → post (.error err) t after)
    (goes : ∀ a t after, deliveries t = deliveries s →
      Simulates ctx guard Φ (deliveries t) after → wpLedger ctx guard (next a) post t after) :
    wpLedger ctx guard (act >>= next) post s ledger := by
  refine wp_bind.mpr ?_
  refine (wp_of_quiet free quiet kept simulates).mono fun result t after _ ⟨same, holds⟩ => ?_
  cases result with
  | error err => exact fails err t after same holds
  | ok a => exact goes a t after same holds

end Quiet

/-! ### The operations of an adapter -/

section Operations

variable {α : Type} {s : Machine} {deliveryId : String}

theorem keptBySave_true : KeptBySave fun _ => True := fun _ _ => trivial

abbrev Admitted (deliveryId : String) (a : DurableInbox String) : Prop :=
  a.admitted = some deliveryId

theorem wp_evictOldest (free : RestrainsCrashes guard) (excess : ℕ)
    (simulates : Simulates ctx guard (Admitted deliveryId) (deliveries s) ledger) :
    wpLedger ctx guard (evictOldest excess)
      (fun _ t after => Simulates ctx guard (Admitted deliveryId) (deliveries t) after)
      s ledger := by
  induction excess generalizing s ledger with
  | zero => exact wp_pure.mpr ⟨simulates.explained, simulates⟩
  | succ excess ih =>
    obtain ⟨a, refines, admitted⟩ := simulates
    simp only [evictOldest, wp_bind, wp_readAdapter]
    refine ⟨⟨a, refines.toExplains⟩, ?_⟩
    cases order : s.adapter.seenDeliveryOrder with
    | nil => exact wp_pure.mpr ⟨⟨a, refines.toExplains⟩, a, refines, admitted⟩
    | cons evicted rest =>
      have forgets := refines.forget free order
      simp only [wp_bind, wp_update, wp_log]
      refine ⟨⟨a, refines.toExplains⟩, ⟨⟨a, refines.toExplains⟩, _, forgets.toExplains⟩, ?_⟩
      exact ih ⟨_, forgets, admitted⟩

theorem keptBySave_admitted : KeptBySave (Admitted deliveryId) := fun _ admitted => admitted

theorem wp_trackDeliveryId (free : RestrainsCrashes guard)
    (new : deliveryId ∉ s.adapter.seenDeliveryIds)
    (simulates : Simulates ctx guard Φ (deliveries s) ledger) :
    wpLedger ctx guard (trackDeliveryId ctx deliveryId)
      (fun _ t after => Simulates ctx guard (Admitted deliveryId) (deliveries t) after)
      s ledger := by
  obtain ⟨a, refines, _⟩ := simulates
  have tracks := refines.track free new
  simp only [trackDeliveryId]
  refine wp_bind.mpr (wp_readAdapter.mpr ⟨⟨a, refines.toExplains⟩, ?_⟩)
  simp only [if_pos new]
  refine wp_bind.mpr (wp_update.mpr ⟨⟨a, refines.toExplains⟩, ?_⟩)
  refine wp_bind.mpr (wp_log.mpr ⟨⟨⟨a, refines.toExplains⟩, _, tracks.toExplains⟩, ?_⟩)
  refine wp_bind_of_quiet free (quiet_ask _) keptBySave_admitted ⟨_, tracks, rfl⟩
    (fun _ _ _ _ holds => holds) fun now t after _ holds => ?_
  refine wp_bind_of_quiet free (quiet_record _) keptBySave_admitted holds
    (fun _ _ _ _ holds => holds) fun _ t after _ holds => ?_
  exact wp_bind.mpr (wp_readAdapter.mpr ⟨holds.explained, wp_evictOldest free _ holds⟩)

variable (ctx guard) in
def AfterVerdict (v : Deliveries) (ledger : Ledger) : Except KelvinError Verdict → Prop
  | .ok (.queue entry) => Simulates ctx guard (Admitted entry.deliveryId) v ledger
  | .ok (.answered _) | .error _ => Simulates ctx guard (fun _ => True) v ledger

theorem Simulates.afterError {err : KelvinError}
    (simulates : Simulates ctx guard Φ v ledger) :
    AfterVerdict ctx guard v ledger (.error err) :=
  simulates.weaken fun _ _ => trivial

theorem Simulates.afterAnswer {reply : IngestReply} (simulates : Simulates ctx guard Φ v ledger) :
    AfterVerdict ctx guard v ledger (.ok (.answered reply)) :=
  simulates.weaken fun _ _ => trivial

theorem wp_triageCommand (free : RestrainsCrashes guard) {envelope : ChannelEnvelope}
    (trustTier : SenderTrustTier) (command : SlashCommandMeta) (name args : String)
    (new : envelope.deliveryId ∉ s.adapter.seenDeliveryIds)
    (simulates : Simulates ctx guard Φ (deliveries s) ledger) :
    wpLedger ctx guard (triageCommand ctx envelope trustTier command name args)
      (fun result t after => AfterVerdict ctx guard (deliveries t) after result)
      s ledger := by
  refine wp_bind.mpr ?_
  refine (wp_trackDeliveryId free new simulates).mono fun result t after _ holds => ?_
  cases result with
  | error err => exact holds.afterError
  | ok done =>
    simp only
    split
    · -- the tier is too low
      refine wp_bind_of_quiet free (steps_attemptSend _ _).quiet keptBySave_admitted holds
        (fun _ _ _ _ holds => holds.afterError) fun _ t after _ holds => ?_
      exact wp_pure.mpr ⟨holds.explained, holds.afterAnswer⟩
    · split
      · -- the command is dispatched at once
        obtain ⟨a, refines, admitted⟩ := holds
        have bypasses := refines.bypass free ⟨name, argsValue args, envelope.sessionId⟩ admitted
        refine wp_bind.mpr (wp_log.mpr ⟨⟨⟨a, refines.toExplains⟩, _, bypasses.toExplains⟩, ?_⟩)
        refine wp_bind_of_quiet free (quiet_ask _) keptBySave_true ⟨_, bypasses, trivial⟩
          (fun _ _ _ _ holds => holds.afterError) fun _ t after _ holds => ?_
        refine wp_bind_of_quiet free (steps_attemptSend _ _).quiet keptBySave_true holds
          (fun _ _ _ _ holds => holds.afterError) fun _ t after _ holds => ?_
        exact wp_pure.mpr ⟨holds.explained, holds.afterAnswer⟩
      · exact wp_pure.mpr ⟨holds.explained, holds⟩

theorem wp_triageMessage (free : RestrainsCrashes guard) {envelope : ChannelEnvelope}
    (trustTier : SenderTrustTier) (decision : Option WasmPolicyDecision)
    (new : envelope.deliveryId ∉ s.adapter.seenDeliveryIds)
    (simulates : Simulates ctx guard Φ (deliveries s) ledger) :
    wpLedger ctx guard (triageMessage ctx envelope trustTier decision)
      (fun result t after => AfterVerdict ctx guard (deliveries t) after result) s ledger := by
  refine wp_bind.mpr ?_
  refine (wp_trackDeliveryId free new simulates).mono fun result t after _ holds => ?_
  cases result with
  | error err => exact holds.afterError
  | ok done => exact wp_pure.mpr ⟨holds.explained, holds⟩

theorem wp_triageNew (free : RestrainsCrashes guard) {envelope : ChannelEnvelope}
    (new : envelope.deliveryId ∉ s.adapter.seenDeliveryIds)
    (simulates : Simulates ctx guard (fun _ => True) (deliveries s) ledger) :
    wpLedger ctx guard (triageNew ctx envelope)
      (fun result t after => AfterVerdict ctx guard (deliveries t) after result) s ledger := by
  refine wp_bind_of_quiet free (quiet_enforcePairingPolicy _) keptBySave_true simulates
    (fun _ _ _ _ holds => holds.afterError) fun pairing t after same holds => ?_
  cases pairing with
  | some code =>
    refine wp_bind_of_quiet free (quiet_record _) keptBySave_true holds
      (fun _ _ _ _ holds => holds.afterError) fun _ t after _ holds => ?_
    refine wp_bind_of_quiet free (steps_attemptSend _ _).quiet keptBySave_true holds
      (fun _ _ _ _ holds => holds.afterError) fun _ t after _ holds => ?_
    exact wp_pure.mpr ⟨holds.explained, holds.afterAnswer⟩
  | none =>
    refine wp_bind_of_quiet free (steps_enforcePolicy (by simp) _).quiet keptBySave_true holds
      (fun _ _ _ _ holds => holds.afterError) fun trustTier u after sameToo holds => ?_
    refine wp_bind_of_quiet free (steps_evaluateWasmPolicy _ _).quiet keptBySave_true holds
      (fun _ _ _ _ holds => holds.afterError) fun answer w after sameAgain holds => ?_
    -- the id is still new after pairing and policy
    have stillNew : envelope.deliveryId ∉ w.adapter.seenDeliveryIds := by
      have ids := congrArg Deliveries.seenDeliveryIds (sameAgain.trans (sameToo.trans same))
      simp only [deliveries] at ids
      rwa [ids]
    obtain ⟨text, trustTier, decision⟩ := answer
    simp only
    cases commandFor ctx text with
    | none => exact wp_triageMessage free trustTier decision stillNew holds
    | some called =>
      obtain ⟨command, name, args⟩ := called
      exact wp_triageCommand free trustTier command name args stillNew holds

theorem wp_triage (free : RestrainsCrashes guard) (envelope : ChannelEnvelope)
    (simulates : Simulates ctx guard (fun _ => True) (deliveries s) ledger) :
    wpLedger ctx guard (triage ctx envelope)
      (fun result t after => AfterVerdict ctx guard (deliveries t) after result) s ledger := by
  refine wp_bind_of_quiet free (quiet_record _) keptBySave_true simulates
    (fun _ _ _ _ holds => holds.afterError) fun _ t after _ holds => ?_
  refine wp_bind_of_quiet free (frames_ofExcept _) keptBySave_true holds
    (fun _ _ _ _ holds => holds.afterError) fun normalized t after _ holds => ?_
  refine wp_bind.mpr (wp_readAdapter.mpr ⟨holds.explained, ?_⟩)
  by_cases known : normalized.deliveryId ∈ t.adapter.seenDeliveryIds
  · simp only [if_pos known]
    refine wp_bind_of_quiet free (quiet_record _) keptBySave_true holds
      (fun _ _ _ _ holds => holds.afterError) fun _ t after _ holds => ?_
    exact wp_pure.mpr ⟨holds.explained, holds.afterAnswer⟩
  · simp only [if_neg known]
    exact wp_triageNew free known holds

theorem wp_enqueue (free : RestrainsCrashes guard) (entry : QueuedEnvelope)
    (simulates : Simulates ctx guard (Admitted entry.deliveryId) (deliveries s) ledger) :
    wpLedger ctx guard (enqueue ctx entry)
      (fun _ t after => Simulates ctx guard (fun _ => True) (deliveries t) after) s ledger := by
  have forgets : ∀ {w : Deliveries} {l : Ledger},
      Simulates ctx guard (Admitted entry.deliveryId) w l →
        Simulates ctx guard (fun _ => True) w l :=
    fun holds => holds.weaken fun _ _ => trivial
  refine wp_bind.mpr (wp_readAdapter.mpr ⟨simulates.explained, ?_⟩)
  simp only
  split
  · -- the inbox is full
    refine wp_bind_of_quiet free (quiet_record _) keptBySave_admitted simulates
      (fun _ _ _ _ => forgets) fun _ t after _ holds => ?_
    refine wp_bind_of_quiet free quiet_persistState keptBySave_admitted holds
      (fun _ _ _ _ => forgets) fun _ t after _ holds => ?_
    exact wp_fail.mpr ⟨holds.explained, forgets holds⟩
  · refine wp_bind_of_quiet free (quiet_record _) keptBySave_admitted simulates
      (fun _ _ _ _ => forgets) fun _ t after _ holds => ?_
    obtain ⟨a, refines, admitted⟩ := holds
    have queues := refines.queue free admitted
    refine wp_bind.mpr (wp_update.mpr ⟨⟨a, refines.toExplains⟩, ?_⟩)
    refine wp_bind.mpr (wp_log.mpr ⟨⟨⟨a, refines.toExplains⟩, _, queues.toExplains⟩, ?_⟩)
    refine (wp_of_quiet free quiet_persistState keptBySave_true ⟨_, queues, trivial⟩).mono ?_
    exact fun _ _ _ _ holds => holds.2

theorem wp_receive (free : RestrainsCrashes guard) (envelope : ChannelEnvelope)
    (simulates : Simulates ctx guard (fun _ => True) (deliveries s) ledger) :
    wpLedger ctx guard (receive ctx envelope)
      (fun _ t after => Simulates ctx guard (fun _ => True) (deliveries t) after) s ledger := by
  refine wp_bind.mpr ?_
  refine (wp_triage free envelope simulates).mono fun result t after _ holds => ?_
  match result, holds with
  | .error err, holds => exact holds
  | .ok (.answered reply), holds => exact wp_pure.mpr ⟨Simulates.explained holds, holds⟩
  | .ok (.queue entry), holds =>
    refine wp_bind.mpr ?_
    refine (wp_enqueue free entry holds).mono fun result t after _ holds => ?_
    cases result with
    | error err => exact holds
    | ok done => exact wp_pure.mpr ⟨holds.explained, holds⟩

/-! ### The inbox -/

def Executable (entry : QueuedEnvelope) (a : DurableInbox String) : Prop :=
  a.taken = some entry.deliveryId ∧ (a.settled ∨ a.saved = none)

theorem wp_executeEntry (free : RestrainsCrashes guard) {entry : QueuedEnvelope}
    (simulates : Simulates ctx guard (Executable entry) (deliveries s) ledger) :
    wpLedger ctx guard (executeEntry ctx entry)
      (fun _ t after => Simulates ctx guard (fun _ => True) (deliveries t) after) s ledger := by
  obtain ⟨a, refines, taken, settled⟩ := simulates
  have executes := refines.execute free taken settled
  have executed : Simulates ctx guard (fun _ => True) (deliveries s)
      (ledger.execute entry.deliveryId) := ⟨_, executes, trivial⟩
  unfold executeEntry
  cases entry.slashCommand with
  | some slash =>
    refine wp_bind.mpr (wp_log.mpr ⟨⟨⟨a, refines.toExplains⟩, executed.explained⟩, ?_⟩)
    refine wp_bind_of_quiet free (quiet_ask _) keptBySave_true executed
      (fun _ _ _ _ holds => holds) fun _ t after _ holds => ?_
    refine wp_bind_of_quiet free (steps_attemptSend _ _).quiet keptBySave_true holds
      (fun _ _ _ _ holds => holds) fun _ t after _ holds => ?_
    refine wp_bind_of_quiet free quiet_persistState keptBySave_true holds
      (fun _ _ _ _ holds => holds) fun _ t after _ holds => ?_
    exact wp_pure.mpr ⟨holds.explained, holds⟩
  | none =>
    refine wp_bind.mpr (wp_log.mpr ⟨⟨⟨a, refines.toExplains⟩, executed.explained⟩, ?_⟩)
    refine wp_bind_of_quiet free (quiet_ask _) keptBySave_true executed
      (fun _ _ _ _ holds => holds) fun _ t after _ holds => ?_
    refine wp_bind_of_quiet free (frames_ofExcept _) keptBySave_true holds
      (fun _ _ _ _ holds => holds) fun accepted t after _ holds => ?_
    refine wp_bind_of_quiet free (quiet_ask _) keptBySave_true holds
      (fun _ _ _ _ holds => holds) fun _ t after _ holds => ?_
    refine wp_bind_of_quiet free (frames_ofExcept _) keptBySave_true holds
      (fun _ _ _ _ holds => holds) fun outcome t after _ holds => ?_
    have reports : Quiet ctx (reportOutcome ctx entry accepted.runId outcome) :=
      (steps_reportOutcome entry accepted.runId outcome).quiet
    exact (wp_of_quiet free reports keptBySave_true holds).mono fun _ _ _ _ holds => holds.2

/-- Saving after the front of the inbox was taken makes it executable. -/
theorem wp_persistTaken (free : RestrainsCrashes guard) (entry : QueuedEnvelope)
    (simulates : Simulates ctx guard (fun a => a.taken = some entry.deliveryId) (deliveries s)
      ledger) :
    wpLedger ctx guard (persistState ctx)
      (fun result t after => match result with
        | .ok _ => Simulates ctx guard (Executable entry) (deliveries t) after
        | .error _ => Simulates ctx guard (fun _ => True) (deliveries t) after) s ledger := by
  obtain ⟨a, refines, taken⟩ := simulates
  have explained : Explained ctx guard ledger := ⟨a, refines.toExplains⟩
  unfold wpLedger wp
  cases persists : ctx.statePersistence with
  | false =>
    rw [persistState_off persists]
    exact ⟨by simpa using explained, a, refines, taken, .inr (refines.volatile persists)⟩
  | true =>
    cases saved : ctx.surroundings.save s.calls with
    | error err =>
      rw [persistState_failed persists saved]
      exact ⟨by simpa using explained, a, refines, trivial⟩
    | ok done =>
      rw [persistState_saved persists saved]
      have saves := refines.save free s.adapter.snapshotState persists rfl rfl
      refine ⟨fun events => ?_, _, saves, taken, .inl rfl⟩
      cases events with
      | zero => exact explained
      | succ more => simpa using ⟨_, saves.toExplains⟩

theorem wp_drain (free : RestrainsCrashes guard) (targetDeliveryId : String) (left : ℕ)
    (targetResponse : Option IngestReply)
    (simulates : Simulates ctx guard (fun _ => True) (deliveries s) ledger) :
    wpLedger ctx guard (drain ctx targetDeliveryId left targetResponse)
      (fun _ t after => Simulates ctx guard (fun _ => True) (deliveries t) after) s ledger := by
  induction left generalizing s ledger targetResponse with
  | zero => exact wp_pure.mpr ⟨simulates.explained, simulates⟩
  | succ left ih =>
    refine wp_bind.mpr (wp_readAdapter.mpr ⟨simulates.explained, ?_⟩)
    simp only
    cases front : s.adapter.inbox with
    | nil => exact wp_pure.mpr ⟨simulates.explained, simulates⟩
    | cons entry rest =>
      obtain ⟨a, refines, _⟩ := simulates
      have takes := refines.take free front
      refine wp_bind.mpr (wp_update.mpr ⟨⟨a, refines.toExplains⟩, ?_⟩)
      refine wp_bind.mpr (wp_log.mpr ⟨⟨⟨a, refines.toExplains⟩, _, takes.toExplains⟩, ?_⟩)
      refine wp_bind.mpr ((wp_persistTaken free entry ⟨_, takes, rfl⟩).mono ?_)
      intro saved t after _ holds
      cases saved with
      | error err => exact holds
      | ok done =>
        refine wp_bind.mpr (wp_attempt.mpr ((wp_executeEntry free holds).mono ?_))
        intro result t after _ holds
        cases result with
        | ok payload => exact ih _ holds
        | error err =>
          simp only
          split
          · exact wp_fail.mpr ⟨holds.explained, holds⟩
          · refine wp_bind_of_quiet free (quiet_record _) keptBySave_true holds
              (fun _ _ _ _ holds => holds) fun _ t after _ holds => ?_
            exact ih _ holds

theorem wp_processInbox (free : RestrainsCrashes guard) (targetDeliveryId : String)
    (simulates : Simulates ctx guard (fun _ => True) (deliveries s) ledger) :
    wpLedger ctx guard (processInbox ctx targetDeliveryId)
      (fun _ t after => Simulates ctx guard (fun _ => True) (deliveries t) after) s ledger := by
  refine wp_bind.mpr (wp_readAdapter.mpr ⟨simulates.explained, ?_⟩)
  refine wp_bind.mpr ((wp_drain free _ _ _ simulates).mono fun result t after _ holds => ?_)
  match result with
  | .error err => exact holds
  | .ok (some payload) => exact wp_pure.mpr ⟨holds.explained, holds⟩
  | .ok none =>
    refine wp_bind.mpr (wp_readAdapter.mpr ⟨holds.explained, ?_⟩)
    exact wp_pure.mpr ⟨holds.explained, holds⟩

/-- **Ingestion refines the durable inbox**, wherever it is cut. -/
theorem wp_ingest (free : RestrainsCrashes guard) (envelope : ChannelEnvelope)
    (simulates : Simulates ctx guard (fun _ => True) (deliveries s) ledger) :
    wpLedger ctx guard (ingest ctx envelope)
      (fun _ t after => Simulates ctx guard (fun _ => True) (deliveries t) after) s ledger := by
  refine wp_bind.mpr ((wp_receive free envelope simulates).mono fun result t after _ holds => ?_)
  match result with
  | .error err => exact holds
  | .ok (.answered reply) => exact wp_pure.mpr ⟨holds.explained, holds⟩
  | .ok (.queue entry) => exact wp_processInbox free _ holds

end Operations

end KelvinClaw.Channel
