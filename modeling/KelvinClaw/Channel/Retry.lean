import KelvinClaw.Channel.Runs

/-!
# Retries of rejected deliveries

A delivery that ingestion rejects can be delivered again only if its id was not
remembered. The checks of the envelope, the pairing and the policy come before the id
is remembered; the full inbox and the failure to save a queued entry come after.
-/

namespace KelvinClaw.Channel

open KelvinClaw.Core Systems Systems.Action Systems.TransitionSystem

variable (ctx : ChannelContext) (machine : Machine) (envelope : ChannelEnvelope)

/-- When an envelope is rejected before it stands in the inbox, its id is not among the
seen ones, and the same envelope is not answered as a duplicate next time. -/
def Retryable : Prop :=
  ∀ err, (receive ctx envelope machine).result = .error err →
    trim envelope.deliveryId ∉ (receive ctx envelope machine).state.adapter.seenDeliveryIds ∧
      ∀ deliveryId, (receive ctx envelope (receive ctx envelope machine).state).result ≠
        .ok (.answered (.deduped deliveryId))

def RejectedAtQueue : Prop :=
  ∃ entry, (triage ctx envelope machine).result = .ok (.queue entry) ∧
    (ctx.config.policy.maxQueueDepth ≤ machine.adapter.inbox.length ∨
      ctx.statePersistence = true ∧
        ∃ err, ctx.surroundings.save (triage ctx envelope machine).state.calls = .error err)

def RejectedAsKnown : Prop :=
  (∃ err, normalizeEnvelope ctx.config envelope = .error err) ∧
    trim envelope.deliveryId ∈ machine.adapter.seenDeliveryIds

/-! ### What the parts of ingestion do to the seen ids -/

variable {ctx machine envelope}

theorem deliveryId_of_normalizeEnvelope {config : TextChannelConfig} {normalized : ChannelEnvelope}
    (accepted : normalizeEnvelope config envelope = .ok normalized) :
    normalized.deliveryId = trim envelope.deliveryId := by
  simp only [normalizeEnvelope, bind_eq_ok, pure_eq_ok] at accepted
  obtain ⟨deliveryId, identifier, _, _, _, _, _, _, _, _, _, _, rfl⟩ := accepted
  exact (normalizeIdentifier_eq_ok.mp identifier).2.symm

theorem ends_evictOldest {deliveryId : String} (excess : ℕ) {front : List String}
    (order : machine.adapter.seenDeliveryOrder = front ++ [deliveryId])
    (older : excess ≤ front.length) (apart : deliveryId ∉ front)
    (seen : deliveryId ∈ machine.adapter.seenDeliveryIds) :
    Ends (evictOldest excess) (fun result t => result = .ok () ∧
      deliveryId ∈ t.adapter.seenDeliveryIds ∧ t.adapter.inbox = machine.adapter.inbox)
      machine := by
  induction excess generalizing machine front with
  | zero => exact wp_pure.mpr ⟨trivial, rfl, seen, rfl⟩
  | succ excess ih =>
    cases front with
    | nil => simp at older
    | cons evicted rest =>
      rw [List.mem_cons, not_or] at apart
      obtain ⟨distinct, apart⟩ := apart
      simp only [evictOldest, Ends, wp_bind, wp_readAdapter, order, List.cons_append, wp_update,
        wp_log, true_and]
      exact ih rfl (Nat.le_of_succ_le_succ older) apart
        (Finset.mem_erase_of_ne_of_mem distinct seen)

theorem ends_trackDeliveryId {deliveryId : String}
    (new : deliveryId ∉ machine.adapter.seenDeliveryIds)
    (listed : ∀ other ∈ machine.adapter.seenDeliveryOrder,
      other ∈ machine.adapter.seenDeliveryIds) :
    Ends (trackDeliveryId ctx deliveryId) (fun result t => result = .ok () ∧
      deliveryId ∈ t.adapter.seenDeliveryIds ∧ t.adapter.inbox = machine.adapter.inbox)
      machine := by
  simp only [trackDeliveryId, Ends, wp_bind, wp_readAdapter, true_and]
  simp only [if_pos new, wp_bind, wp_update, wp_log, wp_ask, record, wp_readAdapter, true_and]
  refine ends_evictOldest _ rfl ?_ (mt (listed deliveryId) new) (Finset.mem_insert_self ..)
  have room := ctx.config.policy.maxSeenDeliveryIds_pos
  simp only [List.length_append, List.length_singleton]
  omega

def NewVerdict (before : Machine) (deliveryId : String) :
    Except KelvinError Verdict → Machine → Prop
  | .error _, t => t.adapter.seenDeliveryIds = before.adapter.seenDeliveryIds
  | .ok (.answered reply), _ => ∀ id, reply ≠ .deduped id
  | .ok (.queue entry), t => entry.deliveryId = deliveryId ∧
      deliveryId ∈ t.adapter.seenDeliveryIds ∧ t.adapter.inbox = before.adapter.inbox

/-- Remembering an id that was new before, in a state with the same deliveries. -/
theorem ends_trackNew {before : Machine} {deliveryId : String}
    (same : deliveries machine = deliveries before)
    (new : deliveryId ∉ before.adapter.seenDeliveryIds)
    (listed : ∀ other ∈ before.adapter.seenDeliveryOrder, other ∈ before.adapter.seenDeliveryIds) :
    Ends (trackDeliveryId ctx deliveryId) (fun result t => result = .ok () ∧
      deliveryId ∈ t.adapter.seenDeliveryIds ∧ t.adapter.inbox = before.adapter.inbox) machine := by
  obtain ⟨ids, order, inbox⟩ := Deliveries.mk.inj same
  rw [← ids] at new
  rw [← ids, ← order] at listed
  rw [← inbox]
  exact ends_trackDeliveryId new listed

theorem ends_triageCommand {before : Machine} (trustTier : SenderTrustTier)
    (command : SlashCommandMeta) (name args : String)
    (same : deliveries machine = deliveries before)
    (new : envelope.deliveryId ∉ before.adapter.seenDeliveryIds)
    (listed : ∀ other ∈ before.adapter.seenDeliveryOrder, other ∈ before.adapter.seenDeliveryIds) :
    Ends (triageCommand ctx envelope trustTier command name args)
      (NewVerdict before envelope.deliveryId) machine := by
  refine wp_bind.mpr ((ends_trackNew same new listed).mono ?_)
  rintro result t _ _ ⟨rfl, seen, kept⟩
  simp only
  split
  · refine ends_bind_of_frames_attempt (steps_sendMessageWithRetry _ _).quiet fun _ u _ => ?_
    exact wp_pure.mpr ⟨trivial, nofun⟩
  · split
    · refine wp_bind.mpr (wp_log.mpr ⟨⟨trivial, trivial⟩, ?_⟩)
      refine wp_bind.mpr (wp_ask.mpr ⟨trivial, ?_⟩)
      refine ends_bind_of_frames_attempt (steps_sendMessageWithRetry _ _).quiet fun _ u _ => ?_
      exact wp_pure.mpr ⟨trivial, nofun⟩
    · exact wp_pure.mpr ⟨trivial, rfl, seen, kept⟩

theorem ends_triageMessage {before : Machine} (trustTier : SenderTrustTier)
    (decision : Option WasmPolicyDecision) (same : deliveries machine = deliveries before)
    (new : envelope.deliveryId ∉ before.adapter.seenDeliveryIds)
    (listed : ∀ other ∈ before.adapter.seenDeliveryOrder, other ∈ before.adapter.seenDeliveryIds) :
    Ends (triageMessage ctx envelope trustTier decision)
      (NewVerdict before envelope.deliveryId) machine := by
  refine wp_bind.mpr ((ends_trackNew same new listed).mono ?_)
  rintro result t _ _ ⟨rfl, seen, kept⟩
  exact wp_pure.mpr ⟨trivial, rfl, seen, kept⟩

/-- After the look at the seen ids, an error comes before the id is remembered. -/
theorem ends_triageNew {before : Machine} (same : deliveries machine = deliveries before)
    (new : envelope.deliveryId ∉ before.adapter.seenDeliveryIds)
    (listed : ∀ other ∈ before.adapter.seenDeliveryOrder, other ∈ before.adapter.seenDeliveryIds) :
    Ends (triageNew ctx envelope) (NewVerdict before envelope.deliveryId) machine := by
  have unchanged : ∀ {t : Machine}, deliveries t = deliveries before →
      t.adapter.seenDeliveryIds = before.adapter.seenDeliveryIds :=
    fun same => (Deliveries.mk.inj same).1
  refine ends_bind_of_frames (quiet_enforcePairingPolicy _)
    (fun _ t later => unchanged (later.trans same)) fun pairing t later => ?_
  replace same := later.trans same
  cases pairing with
  | some code =>
    refine wp_bind.mpr (wp_update.mpr ⟨trivial, ?_⟩)
    refine ends_bind_of_frames_attempt (steps_sendMessageWithRetry _ _).quiet fun _ u _ => ?_
    exact wp_pure.mpr ⟨trivial, nofun⟩
  | none =>
    refine ends_bind_of_frames (steps_enforcePolicy (by simp) _).quiet
      (fun _ u later => unchanged (later.trans same)) fun trustTier u later => ?_
    replace same := later.trans same
    refine ends_bind_of_frames (steps_evaluateWasmPolicy _ _).quiet
      (fun _ w later => unchanged (later.trans same)) fun answer w later => ?_
    replace same := later.trans same
    obtain ⟨text, trustTier, decision⟩ := answer
    simp only
    cases commandFor ctx text with
    | none => exact ends_triageMessage trustTier decision same new listed
    | some called =>
      obtain ⟨command, name, args⟩ := called
      exact ends_triageCommand trustTier command name args same new listed

def AnyVerdict (config : TextChannelConfig) (before : Machine) (envelope : ChannelEnvelope)
    (result : Except KelvinError Verdict) (t : Machine) : Prop :=
  ((∃ err, normalizeEnvelope config envelope = .error err) ∧ (∃ err, result = .error err) ∧
      t.adapter.seenDeliveryIds = before.adapter.seenDeliveryIds) ∨
    ∃ normalized, normalizeEnvelope config envelope = .ok normalized ∧
      ((trim envelope.deliveryId ∈ before.adapter.seenDeliveryIds ∧
          result = .ok (.answered (.deduped (trim envelope.deliveryId)))) ∨
        trim envelope.deliveryId ∉ before.adapter.seenDeliveryIds ∧
          NewVerdict before (trim envelope.deliveryId) result t)

theorem ends_triage (ctx : ChannelContext) (envelope : ChannelEnvelope)
    (listed : ∀ other ∈ machine.adapter.seenDeliveryOrder,
      other ∈ machine.adapter.seenDeliveryIds) :
    Ends (triage ctx envelope) (AnyVerdict ctx.config machine envelope) machine := by
  refine wp_bind.mpr (wp_update.mpr ⟨trivial, ?_⟩)
  cases checked : normalizeEnvelope ctx.config envelope with
  | error err =>
    exact wp_bind.mpr (wp_fail.mpr ⟨trivial, .inl ⟨⟨err, checked⟩, ⟨err, rfl⟩, rfl⟩⟩)
  | ok normalized =>
    have trimmed := deliveryId_of_normalizeEnvelope checked
    refine wp_bind.mpr (wp_pure.mpr ⟨trivial, ?_⟩)
    refine wp_bind.mpr (wp_readAdapter.mpr ⟨trivial, ?_⟩)
    simp only
    by_cases known : normalized.deliveryId ∈ machine.adapter.seenDeliveryIds
    · rw [if_pos known]
      refine wp_bind.mpr (wp_update.mpr ⟨trivial, wp_pure.mpr ⟨trivial, ?_⟩⟩)
      rw [trimmed] at known ⊢
      exact .inr ⟨normalized, checked, .inl ⟨known, rfl⟩⟩
    · rw [if_neg known]
      refine (ends_triageNew ?same known listed).mono fun result t _ _ verdict => ?_
      case same => rfl
      rw [trimmed] at known verdict
      refine .inr ⟨normalized, checked, .inr ⟨known, ?_⟩⟩
      match result, verdict with
      | .error _, verdict => exact verdict
      | .ok (.answered _), verdict => exact verdict
      | .ok (.queue _), verdict => exact verdict

/-! ### The queue -/

theorem exists_error_persistState : (∃ err, (persistState ctx machine).result = .error err) ↔
    ctx.statePersistence = true ∧ ∃ err, ctx.surroundings.save machine.calls = .error err := by
  cases persists : ctx.statePersistence with
  | false => simp [persistState_off persists]
  | true =>
    cases saved : ctx.surroundings.save machine.calls with
    | error err => simp [persistState_failed persists saved]
    | ok done => simp [persistState_saved persists saved]

/-- Queueing changes no seen id, and fails when the inbox is full or cannot be saved. -/
theorem ends_enqueue (ctx : ChannelContext) (entry : QueuedEnvelope) (machine : Machine) :
    Ends (enqueue ctx entry) (fun result t =>
      t.adapter.seenDeliveryIds = machine.adapter.seenDeliveryIds ∧
        ((∃ err, result = .error err) ↔
          ctx.config.policy.maxQueueDepth ≤ machine.adapter.inbox.length ∨
            ctx.statePersistence = true ∧
              ∃ err, ctx.surroundings.save machine.calls = .error err)) machine := by
  refine wp_bind.mpr (wp_readAdapter.mpr ⟨trivial, ?_⟩)
  simp only
  split
  · next full =>
    refine wp_bind.mpr (wp_update.mpr ⟨trivial, ?_⟩)
    refine ends_bind_of_frames quiet_persistState ?_ ?_
    · exact fun err t same => ⟨(Deliveries.mk.inj same).1, by simp [full]⟩
    · exact fun _ t same => wp_fail.mpr ⟨trivial, (Deliveries.mk.inj same).1, by simp [full]⟩
  · next room =>
    refine wp_bind.mpr (wp_update.mpr ⟨trivial, ?_⟩)
    refine wp_bind.mpr (wp_update.mpr ⟨trivial, ?_⟩)
    refine wp_bind.mpr (wp_log.mpr ⟨⟨trivial, trivial⟩, ends_iff.mpr ⟨?_, ?_⟩⟩)
    · exact (Deliveries.mk.inj (quiet_persistState _).1).1
    · rw [exists_error_persistState]
      simp [room]

/-! ### Retries -/

theorem receive_of_error {err : KelvinError}
    (rejected : (triage ctx envelope machine).result = .error err) :
    (receive ctx envelope machine).result = .error err ∧
      (receive ctx envelope machine).state = (triage ctx envelope machine).state := by
  have ends : Ends (receive ctx envelope)
      (fun result t => result = .error err ∧ t = (triage ctx envelope machine).state) machine := by
    refine wp_bind.mpr ⟨fun _ => trivial, ?_⟩
    rw [rejected]
    exact ⟨rfl, rfl⟩
  exact ends_iff.mp ends

theorem receive_of_answered {reply : IngestReply}
    (answered : (triage ctx envelope machine).result = .ok (.answered reply)) :
    (receive ctx envelope machine).result = .ok (.answered reply) := by
  have ends : Ends (receive ctx envelope)
      (fun result _ => result = .ok (.answered reply)) machine := by
    refine wp_bind.mpr ⟨fun _ => trivial, ?_⟩
    rw [answered]
    exact wp_pure.mpr ⟨trivial, rfl⟩
  exact ends_iff.mp ends

theorem receive_of_queue {entry : QueuedEnvelope}
    (queue : (triage ctx envelope machine).result = .ok (.queue entry)) :
    ((∃ err, (receive ctx envelope machine).result = .error err) ↔
        ∃ err, (enqueue ctx entry (triage ctx envelope machine).state).result = .error err) ∧
      (receive ctx envelope machine).state =
        (enqueue ctx entry (triage ctx envelope machine).state).state := by
  have ends : Ends (receive ctx envelope) (fun result t =>
      ((∃ err, result = .error err) ↔
          ∃ err, (enqueue ctx entry (triage ctx envelope machine).state).result = .error err) ∧
        t = (enqueue ctx entry (triage ctx envelope machine).state).state) machine := by
    refine wp_bind.mpr ⟨fun _ => trivial, ?_⟩
    rw [queue]
    refine wp_bind.mpr ⟨fun _ => trivial, ?_⟩
    cases (enqueue ctx entry (triage ctx envelope machine).state).result with
    | error err => exact ⟨by simp, rfl⟩
    | ok done => exact wp_pure.mpr ⟨trivial, by simp, rfl⟩
  exact ends_iff.mp ends

theorem not_deduped
    (listed : ∀ other ∈ machine.adapter.seenDeliveryOrder, other ∈ machine.adapter.seenDeliveryIds)
    (unseen : trim envelope.deliveryId ∉ machine.adapter.seenDeliveryIds) (deliveryId : String) :
    (receive ctx envelope machine).result ≠ .ok (.answered (.deduped deliveryId)) := by
  intro deduped
  have verdict := ends_iff.mp (ends_triage ctx envelope listed)
  match admitted : (triage ctx envelope machine).result with
  | .error err =>
    rw [(receive_of_error admitted).1] at deduped
    cases deduped
  | .ok (.queue entry) =>
    have ends : Ends (receive ctx envelope)
        (fun result _ => result ≠ .ok (.answered (.deduped deliveryId))) machine := by
      refine wp_bind.mpr ⟨fun _ => trivial, ?_⟩
      rw [admitted]
      refine wp_bind.mpr ⟨fun _ => trivial, ?_⟩
      cases (enqueue ctx entry (triage ctx envelope machine).state).result with
      | error err => exact fun same => by cases same
      | ok done => exact wp_pure.mpr ⟨trivial, fun same => by cases same⟩
    exact ends_iff.mp ends deduped
  | .ok (.answered reply) =>
    rw [receive_of_answered admitted] at deduped
    cases deduped
    rw [admitted] at verdict
    rcases verdict with ⟨_, ⟨err, failed⟩, _⟩ | ⟨_, _, ⟨known, _⟩ | ⟨_, new⟩⟩
    · cases failed
    · exact unseen known
    · exact new deliveryId rfl

theorem Simulates.listed {guard : DurableInbox String → InboxEvent String → Prop}
    {Φ : DurableInbox String → Prop} {ledger : Ledger}
    (simulates : Simulates ctx guard Φ (deliveries machine) ledger) :
    ∀ other ∈ machine.adapter.seenDeliveryOrder, other ∈ machine.adapter.seenDeliveryIds := by
  obtain ⟨a, refines, _⟩ := simulates
  intro other member
  have ids : machine.adapter.seenDeliveryIds = machine.adapter.seenDeliveryOrder.toFinset :=
    refines.ids
  rwa [ids, List.mem_toFinset]

theorem not_deduped_of_simulates {guard : DurableInbox String → InboxEvent String → Prop}
    {Φ : DurableInbox String → Prop} {ledger : Ledger}
    (simulates : Simulates ctx guard Φ (deliveries machine) ledger)
    (unseen : trim envelope.deliveryId ∉ machine.adapter.seenDeliveryIds) (deliveryId : String) :
    (receive ctx envelope machine).result ≠ .ok (.answered (.deduped deliveryId)) :=
  not_deduped simulates.listed unseen deliveryId

/-- A redelivery after a rejection that did not remember the id is not a duplicate. -/
theorem retryable_of_unseen {s : AdapterRun} (reached : (channelRuns ctx).Reachable s)
    (unseen : ∀ err, (receive ctx envelope s.machine).result = .error err →
      trim envelope.deliveryId ∉
        (receive ctx envelope s.machine).state.adapter.seenDeliveryIds) :
    Retryable ctx s.machine envelope := by
  have simulates := (wp_receive (fun _ _ _ => trivial) envelope (simulates_of_reachable reached)).2
  intro err rejected
  exact ⟨unseen err rejected, not_deduped_of_simulates simulates (unseen err rejected)⟩

theorem not_rejectedAtQueue
    (unqueued : ∀ entry, (triage ctx envelope machine).result ≠ .ok (.queue entry)) :
    ¬ RejectedAtQueue ctx machine envelope := by
  rintro ⟨entry, queue, _⟩
  exact unqueued entry queue

theorem retryable_iff_of_queue {entry : QueuedEnvelope}
    (queue : (triage ctx envelope machine).result = .ok (.queue entry))
    (verdict : NewVerdict machine (trim envelope.deliveryId) (.ok (.queue entry))
      (triage ctx envelope machine).state) :
    Retryable ctx machine envelope ↔ ¬ RejectedAtQueue ctx machine envelope := by
  obtain ⟨fails, state⟩ := receive_of_queue queue
  generalize afterTriage : (triage ctx envelope machine).state = queued at fails state verdict
  obtain ⟨_, seen, inbox⟩ := verdict
  obtain ⟨ids, queueFails⟩ := ends_iff.mp (ends_enqueue ctx entry queued)
  rw [inbox] at queueFails
  constructor
  · rintro retryable ⟨other, _, refused⟩
    rw [afterTriage] at refused
    obtain ⟨err, rejected⟩ := fails.mpr (queueFails.mpr refused)
    refine (retryable err rejected).1 ?_
    rw [state, ids]
    exact seen
  · intro unqueued err rejected
    have refused := queueFails.mp (fails.mp ⟨err, rejected⟩)
    rw [← afterTriage] at refused
    exact absurd ⟨entry, queue, refused⟩ unqueued

/-- **Retries.** In every state an adapter reaches, a delivery is retryable exactly when it
is rejected neither at the queue nor under an id that was seen before. -/
theorem retryable_iff (ctx : ChannelContext) (s : AdapterRun)
    (reached : (channelRuns ctx).Reachable s) (envelope : ChannelEnvelope) :
    Retryable ctx s.machine envelope ↔
      ¬ RejectedAtQueue ctx s.machine envelope ∧ ¬ RejectedAsKnown ctx s.machine envelope := by
  have listed := (simulates_of_reachable reached).listed
  have verdict := ends_iff.mp (ends_triage ctx envelope listed)
  rcases verdict with ⟨unchecked, ⟨err, rejected⟩, ids⟩ | ⟨normalized, checked, verdict⟩
  · -- the checks reject the envelope, and no id is remembered
    obtain ⟨error, state⟩ := receive_of_error rejected
    have unqueued : ¬ RejectedAtQueue ctx s.machine envelope :=
      not_rejectedAtQueue (by simp [rejected])
    constructor
    · refine fun retryable => ⟨unqueued, fun known => (retryable err error).1 ?_⟩
      rw [state, ids]
      exact known.2
    · refine fun ⟨_, unknown⟩ => retryable_of_unseen reached fun _ _ => ?_
      rw [state, ids]
      exact fun seen => unknown ⟨unchecked, seen⟩
  · have unknown : ¬ RejectedAsKnown ctx s.machine envelope := by
      rintro ⟨⟨err, rejected⟩, _⟩
      rw [checked] at rejected
      cases rejected
    match admitted : (triage ctx envelope s.machine).result with
    | .ok (.answered reply) =>
      have unqueued : ¬ RejectedAtQueue ctx s.machine envelope :=
        not_rejectedAtQueue (by simp [admitted])
      refine iff_of_true ?_ ⟨unqueued, unknown⟩
      intro err rejected
      rw [receive_of_answered admitted] at rejected
      cases rejected
    | .error err =>
      have unqueued : ¬ RejectedAtQueue ctx s.machine envelope :=
        not_rejectedAtQueue (by simp [admitted])
      refine iff_of_true (retryable_of_unseen reached fun _ _ => ?_) ⟨unqueued, unknown⟩
      rw [(receive_of_error admitted).2]
      rw [admitted] at verdict
      rcases verdict with ⟨_, deduped⟩ | ⟨unseen, ids⟩
      · cases deduped
      · rw [show _ = s.machine.adapter.seenDeliveryIds from ids]
        exact unseen
    | .ok (.queue entry) =>
      rw [admitted] at verdict
      rw [and_iff_left unknown]
      rcases verdict with ⟨_, deduped⟩ | ⟨_, new⟩
      · cases deduped
      · exact retryable_iff_of_queue admitted new

/-! ### A full inbox -/

/-- A gateway where the fourth call fails, which saves the first entry of the inbox. -/
def failingContext : ChannelContext :=
  openContext [] fun calls => if calls = 3 then .error (.io "No space left on device") else .ok ()

/-- A message without a text is rejected by the checks and can be sent again. -/
theorem blankMessage_retryable :
    (∃ err, (receive failingContext (plainEnvelope "d-1" " ") emptyRun.machine).result =
      .error err) ∧ Retryable failingContext emptyRun.machine (plainEnvelope "d-1" " ") := by
  refine ⟨⟨.invalidInput "message text must not be empty", by decide +kernel⟩, ?_⟩
  refine (retryable_iff failingContext emptyRun (.init (emptyRun_starts _)) _).mpr ⟨?_, ?_⟩
  · rintro ⟨entry, queue, _⟩
    have rejected : (triage failingContext (plainEnvelope "d-1" " ") emptyRun.machine).result =
        .error (.invalidInput "message text must not be empty") := by
      decide +kernel
    rw [rejected] at queue
    cases queue
  · rintro ⟨_, seen⟩
    simp [emptyRun, TextChannelAdapter.fresh] at seen

/-- The entry whose save failed stays in the inbox, so that the next delivery is rejected;
when it is sent again it is answered as a duplicate. -/
theorem full_inbox_remembers :
    ¬ ∀ s, (channelRuns failingContext).Reachable s →
      ∀ envelope, Retryable failingContext s.machine envelope := by
  intro retryable
  have ran : ((channelRuns failingContext).run? (fun _ _ => True) emptyRun
      [.completed (.ingest (plainEnvelope "d-1" "hello"))]).map (fun s =>
        ((receive failingContext (plainEnvelope "d-2" "hello") s.machine).result,
          (receive failingContext (plainEnvelope "d-2" "hello")
            (receive failingContext (plainEnvelope "d-2" "hello") s.machine).state).result)) =
      some (.error (.backend "slack channel queue is full"), .ok (.answered (.deduped "d-2"))) := by
    decide +kernel
  obtain ⟨s, reached, seen⟩ := exists_of_run? (.init (emptyRun_starts _)) ran
  obtain ⟨rejected, redelivered⟩ := Prod.mk.inj seen
  exact (retryable s reached _ _ rejected).2 _ redelivered

end KelvinClaw.Channel
