import KelvinClaw.Channel.Admission

/-!
# What the operations do to the deliveries

Every operation of an adapter changes the seen ids by remembering one id, and the inbox by one
entry at its end or at its front; everything else leaves both alone, up to saves. What these few
changes keep, whatever is recorded of the events, is kept by every operation.
-/

namespace KelvinClaw.Channel

open KelvinClaw.Core Systems Systems.Action

/-- The execution of a message or of a command. -/
inductive IsExecution : ChannelEvent → Prop
  | bypassed (deliveryId : String) (params : CommandExecParams) :
    IsExecution (.bypassed deliveryId params)
  | dispatched (deliveryId : String) (params : CommandExecParams) :
    IsExecution (.dispatched deliveryId params)
  | submitted (deliveryId : String) (request : Sdk.KelvinSdkRunRequest) :
    IsExecution (.submitted deliveryId request)

abbrev KeepsDeliveries {L α : Type} (record : L → ChannelEvent → L) (during : L → Prop)
    (inv : Deliveries → L → Prop) (act : ChannelAction α) : Prop :=
  Keeps record during (fun machine ledger => inv (deliveries machine) ledger) act

/-- An invariant of the deliveries and of a record of the events, which implies what is asked of
the record at every time. -/
structure DeliveryLaw (ctx : ChannelContext) {L : Type} (record : L → ChannelEvent → L)
    (during : L → Prop) (inv : Deliveries → L → Prop) : Prop where
  safe : ∀ v ledger, inv v ledger → during ledger
  saves : ∀ v ledger event, inv v ledger → SavesOnly ctx v event → inv v (record ledger event)
  executes : ∀ v ledger event, inv v ledger → IsExecution event → inv v (record ledger event)
  queues : ∀ v ledger entry, inv v ledger → v.inbox.length < ctx.config.policy.maxQueueDepth →
    inv { v with inbox := v.inbox ++ [entry] } (record ledger (.queued entry))
  takes : ∀ v ledger entry rest, inv v ledger → v.inbox = entry :: rest →
    inv { v with inbox := rest } (record ledger (.taken entry))
  tracks : ∀ deliveryId, KeepsDeliveries record during inv (trackDeliveryId ctx deliveryId)

namespace DeliveryLaw

variable {ctx : ChannelContext} {L : Type} {record : L → ChannelEvent → L} {during : L → Prop}
  {inv : Deliveries → L → Prop} {α : Type} (law : DeliveryLaw ctx record during inv)
include law

theorem safe_deliveries (machine : Machine) (ledger : L) (holds : inv (deliveries machine) ledger) :
    during ledger := law.safe _ _ holds

theorem keeps_of_quiet {act : ChannelAction α} (quiet : Quiet ctx act) :
    KeepsDeliveries record during inv act :=
  keeps_of_frames (fun _ _ => Iff.rfl) quiet law.saves law.safe

theorem keeps_log_execution {event : ChannelEvent} (execution : IsExecution event) :
    KeepsDeliveries record during inv (log event : ChannelAction PUnit) :=
  keeps_log law.safe_deliveries fun _ _ holds => law.executes _ _ _ holds execution

theorem keeps_return (a : α) : KeepsDeliveries record during inv (pure a : ChannelAction α) :=
  keeps_pure law.safe_deliveries a

theorem keeps_triageCommand (envelope : ChannelEnvelope) (trustTier : SenderTrustTier)
    (command : SlashCommandMeta) (name args : String) :
    KeepsDeliveries record during inv (triageCommand ctx envelope trustTier command name args) := by
  apply keeps_bind (law.tracks _)
  intro _
  apply keeps_ite
  · apply keeps_bind (law.keeps_of_quiet (steps_attemptSend _ _).quiet)
    exact fun _ => law.keeps_return _
  · apply keeps_ite
    · apply keeps_bind (law.keeps_log_execution (.bypassed _ _))
      intro _
      apply keeps_bind (law.keeps_of_quiet (quiet_ask _))
      intro result
      apply keeps_bind (law.keeps_of_quiet (steps_attemptSend _ _).quiet)
      exact fun _ => law.keeps_return _
    · exact law.keeps_return _

theorem keeps_triage (envelope : ChannelEnvelope) :
    KeepsDeliveries record during inv (triage ctx envelope) := by
  rw [triage_eq]
  apply keeps_bind (law.keeps_of_quiet (steps_screen (by simp) _).quiet)
  intro screening
  cases screening with
  | answered reply => exact law.keeps_return _
  | passed passed trustTier decision =>
    unfold settle
    split
    · next called => cases called
    · next called =>
      split
      · exact law.keeps_triageCommand _ _ _ _ _
      · apply keeps_bind (law.tracks _)
        exact fun _ => law.keeps_return _

theorem keeps_enqueue (entry : QueuedEnvelope) :
    KeepsDeliveries record during inv (enqueue ctx entry) := by
  intro machine ledger holds
  have safe := law.safe _ _ holds
  simp only [enqueue, wp_bind, wp_readAdapter]
  refine ⟨safe, ?_⟩
  split
  · exact law.keeps_of_quiet quiet_rejectFull machine ledger holds
  · next room =>
    have queued := law.queues _ _ entry holds (Nat.lt_of_not_le room)
    simp only [Channel.record, wp_bind, wp_update, wp_log]
    refine ⟨safe, safe, ⟨safe, law.safe _ _ queued⟩, ?_⟩
    apply law.keeps_of_quiet quiet_persistState
    exact queued

theorem keeps_executeEntry (entry : QueuedEnvelope) :
    KeepsDeliveries record during inv (executeEntry ctx entry) := by
  unfold executeEntry
  split
  · apply keeps_bind (law.keeps_log_execution (.dispatched _ _))
    intro _
    apply keeps_bind (law.keeps_of_quiet (quiet_ask _))
    intro result
    apply keeps_bind (law.keeps_of_quiet (steps_attemptSend _ _).quiet)
    intro _
    apply keeps_bind (law.keeps_of_quiet quiet_persistState)
    exact fun _ => law.keeps_return _
  · apply keeps_bind (law.keeps_log_execution (.submitted _ _))
    intro _
    apply keeps_bind (law.keeps_of_quiet (quiet_ask _))
    intro submitted
    apply keeps_bind (law.keeps_of_quiet (frames_ofExcept _))
    intro accepted
    apply keeps_bind (law.keeps_of_quiet (quiet_ask _))
    intro waited
    apply keeps_bind (law.keeps_of_quiet (frames_ofExcept _))
    exact fun outcome => law.keeps_of_quiet (steps_reportOutcome _ _ _).quiet

theorem keeps_drain (targetDeliveryId : String) (left : ℕ) (targetResponse : Option IngestReply) :
    KeepsDeliveries record during inv (drain ctx targetDeliveryId left targetResponse) := by
  induction left generalizing targetResponse with
  | zero => exact law.keeps_return _
  | succ left ih =>
    intro machine ledger holds
    have safe := law.safe _ _ holds
    simp only [drain, wp_bind, wp_readAdapter]
    refine ⟨safe, ?_⟩
    cases waiting : machine.adapter.inbox with
    | nil => exact wp_pure.mpr ⟨safe, holds⟩
    | cons entry rest =>
      have taken := law.takes _ _ entry rest holds waiting
      rw [wp_bind, wp_update]
      refine ⟨safe, ?_⟩
      simp only
      rw [wp_bind, wp_log]
      refine ⟨⟨safe, law.safe _ _ taken⟩, ?_⟩
      refine keeps_bind (law.keeps_of_quiet quiet_persistState) (fun _ => ?_) _ _ taken
      apply keeps_bind (keeps_attempt (law.keeps_executeEntry entry))
      intro result
      cases result with
      | ok payload => exact ih _
      | error err =>
        apply keeps_ite
        · exact keeps_fail law.safe_deliveries _
        · exact keeps_bind (law.keeps_of_quiet (quiet_record _)) fun _ => ih _

theorem keeps_ingest (envelope : ChannelEnvelope) :
    KeepsDeliveries record during inv (ingest ctx envelope) := by
  have receives : KeepsDeliveries record during inv (receive ctx envelope) := by
    apply keeps_bind (law.keeps_triage envelope)
    intro verdict
    cases verdict with
    | answered reply => exact law.keeps_return _
    | queue entry =>
      exact keeps_bind (law.keeps_enqueue entry) fun _ => law.keeps_return _
  apply keeps_bind receives
  intro verdict
  cases verdict with
  | answered reply => exact law.keeps_return _
  | queue entry =>
    apply keeps_bind (law.keeps_of_quiet quiet_readAdapter)
    intro adapter
    apply keeps_bind (law.keeps_drain _ _ _)
    intro response
    cases response with
    | some payload => exact law.keeps_return _
    | none =>
      apply keeps_bind (law.keeps_of_quiet quiet_readAdapter)
      exact fun _ => law.keeps_return _

/-- **Every operation** keeps what the changes of the deliveries keep. -/
theorem keeps_perform (operation : Operation) :
    KeepsDeliveries record during inv (perform ctx operation) := by
  cases operation with
  | ingest envelope =>
    exact keeps_bind (law.keeps_ingest envelope) fun _ => law.keeps_return _
  | approvePairing code =>
    apply keeps_bind (law.keeps_of_quiet (quiet_approvePairing code))
    exact fun _ => law.keeps_return _
  | recordWebhookVerified statusCode retryHint =>
    exact law.keeps_of_quiet (steps_recordWebhookVerified statusCode retryHint).quiet
  | recordWebhookDenied statusCode retryHint reason =>
    exact law.keeps_of_quiet (steps_recordWebhookDenied statusCode retryHint reason).quiet
  | deliverOutboundMessage accountId text =>
    exact law.keeps_of_quiet (steps_deliverOutboundMessage accountId text).quiet

end DeliveryLaw

end KelvinClaw.Channel
