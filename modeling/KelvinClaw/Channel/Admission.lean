import KelvinClaw.Channel.Runs

/-!
# What an ingestion queues and executes

Ingestion screens a message before anything is done with it: the checks of the envelope, the
pairing, the policy of the channel, and the policy module, which may set another tier and
another text. What has passed is settled: it calls a command, or it is a message for the
runtime. Then the inbox is worked off.
-/

namespace KelvinClaw.Channel

open KelvinClaw.Core Systems Systems.Action

variable (ctx : ChannelContext)

/-! ### Screening -/

/-- What the policy of the channel makes of an envelope. -/
inductive Admission where
  | answered (reply : IngestReply)
  | admitted (envelope : ChannelEnvelope) (trustTier : SenderTrustTier)
  deriving DecidableEq, Repr

/-- What an envelope comes to before the policy. -/
inductive Arrival where
  | answered (reply : IngestReply)
  | unanswered (envelope : ChannelEnvelope)
  deriving DecidableEq, Repr

/-- The part of `ingest` before the policy. -/
def arrive (envelope : ChannelEnvelope) : ChannelAction Arrival := do
  record fun metrics => { metrics with ingestTotal := bump metrics.ingestTotal }
  let envelope ← ofExcept (normalizeEnvelope ctx.config envelope)
  if envelope.deliveryId ∈ (← readAdapter).seenDeliveryIds then
    record fun metrics => { metrics with dedupedTotal := bump metrics.dedupedTotal }
    return .answered (.deduped envelope.deliveryId)
  else
    match ← enforcePairingPolicy ctx envelope.accountId with
    | some code =>
      record fun metrics =>
        { metrics with pairingRequiredTotal := bump metrics.pairingRequiredTotal }
      let _ ← attempt (sendMessageWithRetry ctx envelope.accountId
        (s!"KelvinClaw pairing required. Approve code: {code} " ++
          "using channel.telegram.pair.approve."))
      return .answered (.pairingRequired envelope.accountId code)
    | none => return .unanswered envelope

def judge : Arrival → ChannelAction Admission
  | .answered reply => return .answered reply
  | .unanswered envelope => do
    let trustTier ← enforcePolicy ctx envelope
    return .admitted envelope trustTier

/-- The part of `ingest` up to the policy of the channel. -/
def admission (envelope : ChannelEnvelope) : ChannelAction Admission :=
  arrive ctx envelope >>= judge ctx

/-- What the policy of the channel and the policy module make of an envelope. -/
inductive Screening where
  | answered (reply : IngestReply)
  | passed (envelope : ChannelEnvelope) (trustTier : SenderTrustTier)
    (decision : Option WasmPolicyDecision)
  deriving DecidableEq, Repr

def consult : Admission → ChannelAction Screening
  | .answered reply => return .answered reply
  | .admitted envelope trustTier => do
    let (text, trustTier, decision) ← evaluateWasmPolicy ctx envelope trustTier
    return .passed { envelope with text } trustTier decision

/-- The part of `ingest` up to the slash commands. -/
def screen (envelope : ChannelEnvelope) : ChannelAction Screening :=
  admission ctx envelope >>= consult ctx

/-- The part of `ingest` between the screening and the inbox. -/
def settle : Screening → ChannelAction Verdict
  | .answered reply => return .answered reply
  | .passed envelope trustTier decision =>
    match commandFor ctx envelope.text with
    | some (command, name, args) => triageCommand ctx envelope trustTier command name args
    | none => triageMessage ctx envelope trustTier decision

theorem triage_eq (envelope : ChannelEnvelope) :
    triage ctx envelope = screen ctx envelope >>= settle ctx := by
  simp only [triage, screen, admission, arrive, Action.bind_assoc]
  refine congrArg _ (funext fun _ => ?_)
  refine congrArg _ (funext fun envelope => ?_)
  refine congrArg _ (funext fun adapter => ?_)
  split_ifs
  · rfl
  · simp only [triageNew, Action.bind_assoc]
    congr 1
    funext pairing
    cases pairing with
    | some code => simp only [Action.bind_assoc, Action.pure_bind, judge, consult, settle]
    | none =>
      simp only [Action.bind_assoc, Action.pure_bind, judge]
      congr 1
      funext trustTier
      simp only [consult, Action.bind_assoc, Action.pure_bind]
      rfl

section Steps

variable {ctx} {kinds : List StepKind}

theorem steps_arrive (envelope : ChannelEnvelope) : Steps ctx kinds (arrive ctx envelope) := by
  refine .bind (steps_record _) fun _ => .bind (.ofExcept _) fun normalized => ?_
  refine .bind steps_readAdapter fun adapter => .ite ?_ ?_
  · exact .bind (steps_record _) fun _ => .pure _
  · refine .bind (.step (.pair _)) fun pairing => ?_
    cases pairing with
    | some code =>
      exact .bind (steps_record _) fun _ => .bind (steps_attemptSend _ _) fun _ => .pure _
    | none => exact .pure _

theorem steps_admission (rates : .rates ∈ kinds) (envelope : ChannelEnvelope) :
    Steps ctx kinds (admission ctx envelope) := by
  refine .bind (steps_arrive envelope) fun arrival => ?_
  cases arrival with
  | answered reply => exact .pure _
  | unanswered envelope => exact .bind (steps_enforcePolicy rates _) fun _ => .pure _

theorem steps_consult (admission : Admission) : Steps ctx kinds (consult ctx admission) := by
  cases admission with
  | answered reply => exact .pure _
  | admitted envelope trustTier => exact .bind (steps_evaluateWasmPolicy _ _) fun _ => .pure _

theorem steps_screen (rates : .rates ∈ kinds) (envelope : ChannelEnvelope) :
    Steps ctx kinds (screen ctx envelope) :=
  .bind (steps_admission rates envelope) steps_consult

theorem steps_settle (tracks : .tracks ∈ kinds) (acts : .acts ∈ kinds) (screening : Screening) :
    Steps ctx kinds (settle ctx screening) := by
  cases screening with
  | answered reply => exact .pure _
  | passed envelope trustTier decision =>
    simp only [settle]
    split
    · exact steps_triageCommand tracks acts _ _ _ _ _
    · exact steps_triageMessage tracks _ _ _

end Steps

def moduleDecision (envelope : ChannelEnvelope) (trustTier : SenderTrustTier) (machine : Machine) :
    Option WasmPolicyDecision :=
  if ctx.config.hasWasmPolicyPlugin then
    (ctx.surroundings.evaluate machine.calls envelope trustTier).toOption
  else none

/-- The tier of the sender of an envelope: the one of the policy, or the one that the module
puts in its place. -/
def effectiveTier (envelope : ChannelEnvelope) (machine : Machine) : SenderTrustTier :=
  let policyTier := tierFromPolicy ctx.config.policy (trim envelope.senderId)
  match (admission ctx envelope machine).result with
  | .ok (.admitted admitted _) =>
    ((moduleDecision ctx admitted policyTier (admission ctx envelope machine).state).bind
      (·.trustTier)).getD policyTier
  | _ => policyTier

variable {ctx} {envelope : ChannelEnvelope} {machine : Machine}

theorem senderId_of_normalizeEnvelope {config : TextChannelConfig} {normalized : ChannelEnvelope}
    (accepted : normalizeEnvelope config envelope = .ok normalized) :
    normalized.senderId = trim envelope.senderId := by
  simp only [normalizeEnvelope, bind_eq_ok, pure_eq_ok] at accepted
  obtain ⟨_, _, senderId, identifier, _, _, _, _, _, _, _, _, rfl⟩ := accepted
  exact (normalizeIdentifier_eq_ok.mp identifier).2.symm

theorem result_denyByPolicy {α : Type} {message : String} {a : α} :
    (denyByPolicy message machine).result ≠ .ok a := by
  intro allowed
  obtain ⟨_, _, allowed⟩ := result_bind_ok.mp allowed
  simp at allowed

theorem tier_of_enforcePolicy {trustTier : SenderTrustTier}
    (enforced : (enforcePolicy ctx envelope machine).result = .ok trustTier) :
    trustTier = tierFromPolicy ctx.config.policy envelope.senderId := by
  unfold enforcePolicy at enforced
  simp only at enforced
  split_ifs at enforced
  · exact absurd enforced result_denyByPolicy
  · exact absurd enforced result_denyByPolicy
  · exact absurd enforced result_denyByPolicy
  · obtain ⟨_, _, enforced⟩ := result_bind_ok.mp enforced
    obtain ⟨_, _, enforced⟩ := result_bind_ok.mp enforced
    obtain ⟨_, _, enforced⟩ := result_bind_ok.mp enforced
    exact (Except.ok.inj enforced).symm
  · obtain ⟨_, _, enforced⟩ := result_bind_ok.mp enforced
    obtain ⟨_, _, enforced⟩ := result_bind_ok.mp enforced
    exact (Except.ok.inj enforced).symm

/-- What is handed to the policy of the channel is well formed, new and not asked to pair. -/
theorem of_unanswered {normalized : ChannelEnvelope}
    (arrived : (arrive ctx envelope machine).result = .ok (.unanswered normalized)) :
    normalizeEnvelope ctx.config envelope = .ok normalized ∧
      normalized.deliveryId ∉ machine.adapter.seenDeliveryIds ∧
      ∃ there : Machine, there.adapter.pairedAccounts = machine.adapter.pairedAccounts ∧
        (enforcePairingPolicy ctx normalized.accountId there).result = .ok none := by
  obtain ⟨_, _, arrived⟩ := result_bind_ok.mp arrived
  obtain ⟨accepted, normal, arrived⟩ := result_bind_ok.mp arrived
  obtain ⟨adapter, read, arrived⟩ := result_bind_ok.mp arrived
  rw [result_ofExcept] at normal
  rw [state_ofExcept] at read arrived
  obtain rfl := Except.ok.inj read
  split_ifs at arrived with seen
  · obtain ⟨_, _, arrived⟩ := result_bind_ok.mp arrived
    cases arrived
  · obtain ⟨pairing, goes, arrived⟩ := result_bind_ok.mp arrived
    cases pairing with
    | some code =>
      obtain ⟨_, _, arrived⟩ := result_bind_ok.mp arrived
      obtain ⟨_, _, arrived⟩ := result_bind_ok.mp arrived
      cases arrived
    | none =>
      obtain rfl := Arrival.unanswered.inj (Except.ok.inj arrived)
      refine ⟨normal, seen, _, ?_, goes⟩
      rfl

theorem of_admitted {admitted : ChannelEnvelope} {trustTier : SenderTrustTier}
    (admits : (admission ctx envelope machine).result = .ok (.admitted admitted trustTier)) :
    (arrive ctx envelope machine).result = .ok (.unanswered admitted) ∧
      trustTier = tierFromPolicy ctx.config.policy admitted.senderId := by
  obtain ⟨arrival, arrived, admits⟩ := result_bind_ok.mp admits
  cases arrival with
  | answered reply => cases admits
  | unanswered normalized =>
    obtain ⟨tier, enforced, admits⟩ := result_bind_ok.mp admits
    obtain ⟨rfl, rfl⟩ := Admission.admitted.inj (Except.ok.inj admits)
    exact ⟨arrived, tier_of_enforcePolicy enforced⟩

theorem tier_of_admission {admitted : ChannelEnvelope} {trustTier : SenderTrustTier}
    (admits : (admission ctx envelope machine).result = .ok (.admitted admitted trustTier)) :
    trustTier = tierFromPolicy ctx.config.policy (trim envelope.senderId) := by
  obtain ⟨arrived, rfl⟩ := of_admitted admits
  rw [senderId_of_normalizeEnvelope (of_unanswered arrived).1]

theorem tier_of_evaluateWasmPolicy {policyTier trustTier : SenderTrustTier} {text : String}
    {decision : Option WasmPolicyDecision}
    (evaluated : (evaluateWasmPolicy ctx envelope policyTier machine).result =
      .ok (text, trustTier, decision)) :
    trustTier = ((moduleDecision ctx envelope policyTier machine).bind (·.trustTier)).getD
      policyTier := by
  unfold evaluateWasmPolicy at evaluated
  split_ifs at evaluated with module
  · obtain ⟨answer, asked, evaluated⟩ := result_bind_ok.mp evaluated
    obtain ⟨decided, answered, evaluated⟩ := result_bind_ok.mp evaluated
    obtain rfl : ctx.surroundings.evaluate machine.calls envelope policyTier = answer :=
      Except.ok.inj asked
    rw [result_ofExcept] at answered
    rw [moduleDecision, if_pos module, answered]
    split_ifs at evaluated
    · obtain ⟨_, _, evaluated⟩ := result_bind_ok.mp evaluated
      simp only [result_pure, Except.ok.injEq, Prod.mk.injEq] at evaluated
      exact evaluated.2.1.symm
    · exact absurd evaluated result_denyByPolicy
  · simp only [result_pure, Except.ok.injEq, Prod.mk.injEq] at evaluated
    rw [moduleDecision, if_neg module]
    exact evaluated.2.1.symm

theorem tier_of_screen {passed : ChannelEnvelope} {trustTier : SenderTrustTier}
    {decision : Option WasmPolicyDecision}
    (passes : (screen ctx envelope machine).result = .ok (.passed passed trustTier decision)) :
    trustTier = effectiveTier ctx envelope machine := by
  obtain ⟨admission, admits, passes⟩ := result_bind_ok.mp passes
  cases admission with
  | answered reply => simp [consult] at passes
  | admitted admitted policyTier =>
    obtain ⟨⟨text, other, decided⟩, evaluated, passes⟩ := result_bind_ok.mp passes
    obtain ⟨-, rfl, -⟩ : _ ∧ other = trustTier ∧ _ := by simpa using passes
    obtain rfl := tier_of_admission admits
    unfold effectiveTier
    rw [admits]
    exact tier_of_evaluateWasmPolicy evaluated

/-! ### Settling -/

def Acts : ChannelEvent → Prop
  | .queued _ | .bypassed .. | .dispatched .. | .submitted .. => True
  | .saved _ | .tracked _ | .forgotten _ | .taken _ => False

section Passive

variable {α : Type}

def Tidies : ChannelEvent → Prop
  | .saved _ | .tracked _ | .forgotten _ => True
  | .queued _ | .taken _ | .bypassed .. | .dispatched .. | .submitted .. => False

abbrev Tidy (act : ChannelAction α) : Prop :=
  Frames (fun machine => machine.adapter.inbox) (fun _ => Tidies) act

/-- An operation that leaves the inbox alone, and queues and executes nothing. -/
abbrev Passive (act : ChannelAction α) : Prop :=
  Frames (fun machine => machine.adapter.inbox) (fun _ event => ¬ Acts event) act

theorem tidy_of_quiet {act : ChannelAction α} (quiet : Quiet ctx act) : Tidy act := by
  apply Frames.mono quiet Deliveries.inbox
  intro v event saves
  cases event with
  | saved state => trivial
  | _ => exact saves.elim

theorem tidy_update {change : TextChannelAdapter → TextChannelAdapter}
    (same : ∀ adapter, (change adapter).inbox = adapter.inbox) : Tidy (update change) :=
  frames_modify fun machine => same machine.adapter

theorem Steps.tidy {act : ChannelAction α} (made : Steps ctx [.rates, .tracks] act) :
    Tidy act := by
  refine made.frames fun {β act} is => ?_
  cases is with
  | get => exact frames_get
  | ask call => exact tidy_of_quiet (quiet_ask call)
  | tally _ _ inbox => exact tidy_update inbox
  | save => exact tidy_of_quiet quiet_persistState
  | pair accountId => exact tidy_of_quiet (quiet_enforcePairingPolicy accountId)
  | approve code => exact tidy_of_quiet (quiet_approvePairing code)
  | rate _ senderId tier => exact tidy_of_quiet (quiet_enforceRateLimit senderId tier)
  | track _ _ inbox => exact tidy_update inbox
  | @logTracking _ event tracks =>
    refine frames_log fun _ => ?_
    cases event <;> simp_all [ChannelEvent.isTracking, Tidies]
  | queue among => simp at among
  | logAct among => simp at among

theorem passive_of_tidy {act : ChannelAction α} (tidy : Tidy act) : Passive act := by
  apply Frames.mono tidy id
  intro v event tidies
  cases event with
  | saved _ | tracked _ | forgotten _ => exact id
  | _ => exact tidies.elim

theorem passive_of_quiet {act : ChannelAction α} (quiet : Quiet ctx act) : Passive act :=
  passive_of_tidy (tidy_of_quiet quiet)

theorem passive_trackDeliveryId (deliveryId : String) :
    Passive (trackDeliveryId ctx deliveryId) :=
  passive_of_tidy (steps_trackDeliveryId (by simp) deliveryId).tidy

theorem passive_screen : Passive (screen ctx envelope) :=
  passive_of_quiet (steps_screen (by simp) envelope).quiet

end Passive

theorem result_trackDeliveryId (deliveryId : String) :
    (trackDeliveryId ctx deliveryId machine).result = .ok () := by
  have evict : ∀ (excess : ℕ) (m : Machine),
      Ends (evictOldest excess) (fun r _ => r = .ok ()) m := by
    intro excess
    induction excess with
    | zero => exact fun m => wp_pure.mpr ⟨trivial, rfl⟩
    | succ excess ih =>
      intro m
      simp only [evictOldest, Ends, wp_bind, wp_readAdapter, true_and]
      cases m.adapter.seenDeliveryOrder with
      | nil => exact wp_pure.mpr ⟨trivial, rfl⟩
      | cons evicted rest =>
        simp only [wp_bind, wp_update, wp_log, true_and]
        exact ih _
  have tracked : Ends (trackDeliveryId ctx deliveryId) (fun r _ => r = .ok ()) machine := by
    simp only [trackDeliveryId, Ends, wp_bind, wp_readAdapter, true_and]
    split
    · simp only [wp_bind, wp_update, wp_log, wp_ask, record, wp_readAdapter, true_and]
      exact evict _ _
    · simp only [wp_bind, wp_update, wp_ask, record, wp_readAdapter, true_and]
      exact evict _ _
  exact ends_iff.mp tracked

variable (ctx) in
def verdictFor (envelope : ChannelEnvelope) (trustTier : SenderTrustTier)
    (decision : Option WasmPolicyDecision) : Verdict :=
  let route := routeFor ctx envelope trustTier
  match commandFor ctx envelope.text with
  | none => .queue ⟨envelope, decision.elim route route.applyWasmOverrides, none⟩
  | some (command, name, args) =>
    if command.minTier.any (trustTier < ·) then
      .answered (.commandDenied name envelope.deliveryId)
    else if command.bypassQueue then .answered (.commandDispatched name envelope.deliveryId)
    else .queue ⟨envelope, route, some ⟨name, argsValue args, envelope.sessionId⟩⟩

variable (ctx) in
/-- The command that settling dispatches past the inbox. -/
def bypassFor (envelope : ChannelEnvelope) (trustTier : SenderTrustTier) :
    Option CommandExecParams :=
  match commandFor ctx envelope.text with
  | none => none
  | some (command, name, args) =>
    if ¬ command.minTier.any (trustTier < ·) ∧ command.bypassQueue then
      some ⟨name, argsValue args, envelope.sessionId⟩
    else none

theorem result_settle (envelope : ChannelEnvelope) (trustTier : SenderTrustTier)
    (decision : Option WasmPolicyDecision) :
    (settle ctx (.passed envelope trustTier decision) machine).result =
      .ok (verdictFor ctx envelope trustTier decision) := by
  unfold settle verdictFor
  simp only
  cases found : commandFor ctx envelope.text with
  | none =>
    simp only [triageMessage]
    rw [bind_apply_of_result (result_trackDeliveryId _)]
    rfl
  | some called =>
    obtain ⟨command, name, args⟩ := called
    simp only [triageCommand]
    rw [bind_apply_of_result (result_trackDeliveryId _)]
    split_ifs
    · rfl
    · rfl
    · rfl

theorem frames_settle (envelope : ChannelEnvelope) (trustTier : SenderTrustTier)
    (decision : Option WasmPolicyDecision) :
    Frames (fun machine => machine.adapter.inbox)
      (fun _ event => Acts event → ∃ params, bypassFor ctx envelope trustTier = some params ∧
        event = .bypassed envelope.deliveryId params)
      (settle ctx (.passed envelope trustTier decision)) := by
  have weaken : ∀ {α : Type} {act : ChannelAction α}, Passive act →
      Frames (fun machine => machine.adapter.inbox) (fun _ event => Acts event →
        ∃ params, bypassFor ctx envelope trustTier = some params ∧
          event = .bypassed envelope.deliveryId params) act :=
    fun passive => passive.mono id fun _ _ idle acts => absurd acts idle
  unfold settle
  simp only
  cases found : commandFor ctx envelope.text with
  | none => exact frames_bind (weaken (passive_trackDeliveryId _)) fun _ => frames_pure _
  | some called =>
    obtain ⟨command, name, args⟩ := called
    apply frames_bind (weaken (passive_trackDeliveryId _))
    intro _
    split_ifs with denied bypass
    · apply frames_bind (weaken (passive_of_quiet (steps_attemptSend _ _).quiet))
      exact fun _ => frames_pure _
    · apply frames_bind
      · apply frames_log
        intro _ _
        refine ⟨_, ?_, rfl⟩
        simp [bypassFor, found, denied, bypass]
      · intro _
        apply frames_bind (weaken (passive_of_quiet (quiet_ask _)))
        intro result
        apply frames_bind (weaken (passive_of_quiet (steps_attemptSend _ _).quiet))
        exact fun _ => frames_pure _
    · exact frames_pure _

theorem bypassed_mem_settle {envelope : ChannelEnvelope} {trustTier : SenderTrustTier}
    (decision : Option WasmPolicyDecision) {params : CommandExecParams}
    (bypass : bypassFor ctx envelope trustTier = some params) :
    .bypassed envelope.deliveryId params ∈
      (settle ctx (.passed envelope trustTier decision) machine).journal := by
  unfold bypassFor at bypass
  unfold settle
  cases found : commandFor ctx envelope.text with
  | none => simp [found] at bypass
  | some called =>
    obtain ⟨command, name, args⟩ := called
    simp only [found] at bypass ⊢
    split_ifs at bypass with passes
    obtain rfl := Option.some_inj.mp bypass
    rw [triageCommand, bind_apply_of_result (result_trackDeliveryId _), if_neg passes.1,
      if_pos passes.2]
    exact List.mem_append_right _ (List.mem_append_left _ List.mem_cons_self)

/-! ### Queueing and executing -/

variable (ctx machine) in
def HasRoom : Prop := machine.adapter.inbox.length < ctx.config.policy.maxQueueDepth

theorem enqueue_of_full {entry : QueuedEnvelope}
    (full : ¬ HasRoom ctx machine) :
    (∀ value, (enqueue ctx entry machine).result ≠ .ok value) ∧
      ∀ event ∈ (enqueue ctx entry machine).journal, ¬ Acts event := by
  have read : (readAdapter machine).result = .ok machine.adapter := rfl
  rw [enqueue, bind_apply_of_result read, if_pos (Nat.not_lt.mp full)]
  refine ⟨fun value succeeded => ?_, fun event member => ?_⟩
  · obtain ⟨_, _, succeeded⟩ := result_bind_ok.mp succeeded
    obtain ⟨_, _, succeeded⟩ := result_bind_ok.mp succeeded
    simp at succeeded
  · exact (passive_of_quiet quiet_rejectFull _).2 event member

theorem enqueue_of_room {entry : QueuedEnvelope}
    (room : HasRoom ctx machine) :
    (enqueue ctx entry machine).state.adapter.inbox = machine.adapter.inbox ++ [entry] ∧
      .queued entry ∈ (enqueue ctx entry machine).journal ∧
      ∀ event ∈ (enqueue ctx entry machine).journal, Acts event → event = .queued entry := by
  let listed : Machine :=
    { machine with adapter :=
        { machine.adapter with
          metrics :=
            { machine.adapter.metrics with
              queuedTotal := bump machine.adapter.metrics.queuedTotal }
          inbox := machine.adapter.inbox ++ [entry] } }
  have split : enqueue ctx entry machine = ⟨(persistState ctx listed).result,
      (persistState ctx listed).state, .queued entry :: (persistState ctx listed).journal⟩ := by
    have read : (readAdapter machine).result = .ok machine.adapter := rfl
    rw [enqueue, bind_apply_of_result read, if_neg (Nat.not_le.mpr room)]
    rfl
  have saved := (passive_of_quiet (@quiet_persistState ctx)) listed
  rw [split]
  refine ⟨saved.1, List.mem_cons_self, fun event member acts => ?_⟩
  rcases List.mem_cons.mp member with rfl | later
  · rfl
  · exact absurd acts (saved.2 event later)

def Executes (entry : QueuedEnvelope) : ChannelEvent → Prop
  | .dispatched deliveryId params =>
    deliveryId = entry.deliveryId ∧ ∃ slash, entry.slashCommand = some slash ∧
      params = ⟨slash.commandName, slash.args, slash.sessionId⟩
  | .submitted deliveryId _ => deliveryId = entry.deliveryId ∧ entry.slashCommand = none
  | _ => False

theorem frames_executeEntry (entry : QueuedEnvelope) :
    Frames (fun machine => machine.adapter.inbox)
      (fun _ event => Acts event → Executes entry event) (executeEntry ctx entry) := by
  have weaken : ∀ {α : Type} {act : ChannelAction α}, Quiet ctx act →
      Frames (fun machine => machine.adapter.inbox)
        (fun _ event => Acts event → Executes entry event) act :=
    fun quiet => (passive_of_quiet quiet).mono id fun _ _ idle acts => absurd acts idle
  unfold executeEntry
  split
  · rename_i slash found
    apply frames_bind (frames_log fun _ _ => ⟨rfl, slash, found, rfl⟩)
    intro _
    apply frames_bind (weaken (quiet_ask _))
    intro result
    apply frames_bind (weaken (steps_attemptSend _ _).quiet)
    intro _
    exact frames_bind (weaken quiet_persistState) fun _ => frames_pure _
  · rename_i found
    apply frames_bind (frames_log fun _ _ => ⟨rfl, found⟩)
    intro _
    apply frames_bind (weaken (quiet_ask _))
    intro submitted
    apply frames_bind (frames_ofExcept _)
    intro accepted
    apply frames_bind (weaken (quiet_ask _))
    intro waited
    apply frames_bind (frames_ofExcept _)
    exact fun outcome => weaken (steps_reportOutcome _ _ _).quiet

theorem executes_of_drain (targetDeliveryId : String) (left : ℕ) (machine : Machine)
    (targetResponse : Option IngestReply) :
    ∀ event ∈ (drain ctx targetDeliveryId left targetResponse machine).journal, Acts event →
      ∃ entry ∈ machine.adapter.inbox, Executes entry event := by
  induction left generalizing machine targetResponse with
  | zero => exact fun event member => by cases member
  | succ left ih =>
    have read : (readAdapter machine).result = .ok machine.adapter := rfl
    intro event member acts
    rw [drain, bind_apply_of_result read] at member
    replace member := (List.mem_append.mp member).resolve_left (List.not_mem_nil)
    cases waiting : machine.adapter.inbox with
    | nil =>
      rw [waiting] at member
      cases member
    | cons entry rest =>
      rw [waiting] at member
      rcases mem_journal_bind.mp member with updated | ⟨_, _, member⟩
      · cases updated
      rcases mem_journal_bind.mp member with taken | ⟨_, _, member⟩
      · obtain rfl := List.mem_singleton.mp taken
        exact acts.elim
      generalize saving : (log (ChannelEvent.taken entry) _ : Outcome _ _ KelvinError _).state =
        before at member
      have listed : before.adapter.inbox = rest := by
        rw [← saving]
        rfl
      have saves := passive_of_quiet (@quiet_persistState ctx) before
      rcases mem_journal_bind.mp member with saved | ⟨_, _, member⟩
      · exact absurd acts (saves.2 event saved)
      have executes := @frames_executeEntry ctx entry (persistState ctx before).state
      rcases mem_journal_bind.mp member with executed | ⟨result, _, member⟩
      · exact ⟨entry, List.mem_cons_self, executes.2 event executed acts⟩
      -- the rest of the loop starts with the rest of the inbox
      have after : (attempt (executeEntry ctx entry)
          (persistState ctx before).state).state.adapter.inbox = rest :=
        executes.1.trans (saves.1.trans listed)
      have later : ∀ (m : Machine) (response : Option IngestReply), m.adapter.inbox = rest →
          event ∈ (drain ctx targetDeliveryId left response m).journal →
          ∃ other ∈ entry :: rest, Executes other event := by
        intro m response same further
        obtain ⟨other, waits, executed⟩ := ih m response event further acts
        exact ⟨other, List.mem_cons_of_mem entry (same ▸ waits), executed⟩
      cases result with
      | ok payload => exact later _ _ after member
      | error err =>
        simp only at member
        split_ifs at member
        · cases member
        · rcases mem_journal_bind.mp member with recorded | ⟨_, _, member⟩
          · cases recorded
          · refine later _ _ ?_ member
            exact after

theorem executes_of_processInbox {targetDeliveryId : String} :
    ∀ event ∈ (processInbox ctx targetDeliveryId machine).journal, Acts event →
      ∃ entry ∈ machine.adapter.inbox, Executes entry event := by
  intro event member acts
  rcases mem_journal_bind.mp member with read | ⟨adapter, read, member⟩
  · cases read
  rcases mem_journal_bind.mp member with drained | ⟨response, _, member⟩
  · exact executes_of_drain _ _ _ _ event drained acts
  · cases response with
    | some payload => cases member
    | none =>
      rcases mem_journal_bind.mp member with read | ⟨_, _, member⟩
      · cases read
      · cases member

/-! ### What an ingestion does -/

theorem inbox_triage :
    (triage ctx envelope machine).state.adapter.inbox = machine.adapter.inbox := by
  have frames : Frames (fun m => m.adapter.inbox) (fun _ _ => True) (triage ctx envelope) := by
    rw [triage_eq]
    apply frames_bind (passive_screen.mono id fun _ _ _ => trivial)
    intro screening
    cases screening with
    | answered reply => exact frames_pure _
    | passed passed trustTier decision =>
      exact (frames_settle passed trustTier decision).mono id fun _ _ _ => trivial
  exact (frames machine).1

theorem hasRoom_triage :
    HasRoom ctx (triage ctx envelope machine).state ↔ HasRoom ctx machine := by
  rw [HasRoom, HasRoom, inbox_triage]

theorem triage_eq_queue {entry : QueuedEnvelope} :
    (triage ctx envelope machine).result = .ok (.queue entry) ↔
      ∃ passed trustTier decision,
        (screen ctx envelope machine).result = .ok (.passed passed trustTier decision) ∧
          verdictFor ctx passed trustTier decision = .queue entry := by
  rw [triage_eq, result_bind_ok]
  constructor
  · rintro ⟨screening, passes, settled⟩
    cases screening with
    | answered reply => simp [settle] at settled
    | passed passed trustTier decision =>
      rw [result_settle] at settled
      exact ⟨passed, trustTier, decision, passes, Except.ok.inj settled⟩
  · rintro ⟨passed, trustTier, decision, passes, verdict⟩
    exact ⟨_, passes, by rw [result_settle, verdict]⟩

theorem receive_eq_queue {entry : QueuedEnvelope}
    (receives : (receive ctx envelope machine).result = .ok (.queue entry)) :
    (triage ctx envelope machine).result = .ok (.queue entry) ∧ HasRoom ctx machine ∧
      (receive ctx envelope machine).state.adapter.inbox = machine.adapter.inbox ++ [entry] := by
  obtain ⟨verdict, triages, enqueued⟩ := result_bind_ok.mp receives
  cases verdict with
  | answered reply => simp at enqueued
  | queue other =>
    obtain ⟨_, taken, returned⟩ := result_bind_ok.mp enqueued
    obtain rfl : other = entry := by simpa using returned
    have room : HasRoom ctx machine := by
      by_contra full
      exact (enqueue_of_full (mt hasRoom_triage.mp full)).1 _ taken
    refine ⟨triages, room, ?_⟩
    rw [receive, bind_apply_of_result triages]
    simp only [state_bind_pure]
    rw [(enqueue_of_room (hasRoom_triage.mpr room)).1, inbox_triage]

/-- Whatever an ingestion queues or executes has passed the screening: it is the command past
the inbox, the entry for the inbox, or an entry of the inbox that is worked off. -/
theorem acts_of_ingest {event : ChannelEvent}
    (member : event ∈ (ingest ctx envelope machine).journal) (acts : Acts event) :
    ∃ passed trustTier decision,
      (screen ctx envelope machine).result = .ok (.passed passed trustTier decision) ∧
        ((∃ params, bypassFor ctx passed trustTier = some params ∧
            event = .bypassed passed.deliveryId params) ∨
          ∃ entry, verdictFor ctx passed trustTier decision = .queue entry ∧
            HasRoom ctx machine ∧ (event = .queued entry ∨
              ∃ other ∈ machine.adapter.inbox ++ [entry], Executes other event)) := by
  rcases mem_journal_bind.mp member with received | ⟨verdict, receives, processed⟩
  · rcases mem_journal_bind.mp received with triaged | ⟨verdict, triages, enqueued⟩
    · rw [triage_eq] at triaged
      rcases mem_journal_bind.mp triaged with screened | ⟨screening, passes, settled⟩
      · exact absurd acts ((passive_screen machine).2 event screened)
      · cases screening with
        | answered reply => cases settled
        | passed passed trustTier decision =>
          have bypassed := (frames_settle passed trustTier decision _).2 event settled acts
          exact ⟨passed, trustTier, decision, passes, Or.inl bypassed⟩
    · cases verdict with
      | answered reply => cases enqueued
      | queue entry =>
        obtain ⟨passed, trustTier, decision, passes, verdict⟩ := triage_eq_queue.mp triages
        refine ⟨passed, trustTier, decision, passes, Or.inr ⟨entry, verdict, ?_⟩⟩
        rcases mem_journal_bind.mp enqueued with queued | ⟨_, _, returned⟩
        · by_cases room : HasRoom ctx machine
          · have taken := (enqueue_of_room (hasRoom_triage.mpr room)).2.2 event queued acts
            exact ⟨room, Or.inl taken⟩
          · have full := (enqueue_of_full (mt hasRoom_triage.mp room)).2 event queued
            exact absurd acts full
        · cases returned
  · cases verdict with
    | answered reply => cases processed
    | queue entry =>
      obtain ⟨triages, room, listed⟩ := receive_eq_queue receives
      obtain ⟨passed, trustTier, decision, passes, verdict⟩ := triage_eq_queue.mp triages
      obtain ⟨other, waits, executes⟩ := executes_of_processInbox event processed acts
      rw [listed] at waits
      exact ⟨passed, trustTier, decision, passes,
        Or.inr ⟨entry, verdict, room, Or.inr ⟨other, waits, executes⟩⟩⟩

theorem bypassed_mem_ingest {passed : ChannelEnvelope} {trustTier : SenderTrustTier}
    {decision : Option WasmPolicyDecision} {params : CommandExecParams}
    (passes : (screen ctx envelope machine).result = .ok (.passed passed trustTier decision))
    (bypass : bypassFor ctx passed trustTier = some params) :
    .bypassed passed.deliveryId params ∈ (ingest ctx envelope machine).journal := by
  apply mem_journal_bind.mpr (Or.inl _)
  apply mem_journal_bind.mpr (Or.inl _)
  rw [triage_eq]
  exact mem_journal_bind.mpr (Or.inr ⟨_, passes, bypassed_mem_settle decision bypass⟩)

theorem queued_mem_ingest {passed : ChannelEnvelope} {trustTier : SenderTrustTier}
    {decision : Option WasmPolicyDecision} {entry : QueuedEnvelope}
    (passes : (screen ctx envelope machine).result = .ok (.passed passed trustTier decision))
    (verdict : verdictFor ctx passed trustTier decision = .queue entry)
    (room : HasRoom ctx machine) : .queued entry ∈ (ingest ctx envelope machine).journal := by
  have triages := triage_eq_queue.mpr ⟨passed, trustTier, decision, passes, verdict⟩
  apply mem_journal_bind.mpr (Or.inl _)
  refine mem_journal_bind.mpr (Or.inr ⟨_, triages, ?_⟩)
  exact mem_journal_bind.mpr (Or.inl (enqueue_of_room (hasRoom_triage.mpr room)).2.1)

end KelvinClaw.Channel
