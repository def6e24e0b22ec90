import KelvinClaw.Channel.Crash
import KelvinClaw.Channel.Retention
import KelvinClaw.Ingress.Webhooks

/-!
# Resent webhook requests

A captured request can be sent again, since it is signed as before. The adapter answers it without
executing its message again as long as it remembers the id of the delivery, and this is counted in
deliveries and not in time: after enough other ones the message is executed once more.
-/

namespace KelvinClaw.Ingress

open KelvinClaw.Core KelvinClaw.Channel Systems Systems.TransitionSystem Systems.Action

/-! ### Runs -/

/-- An adapter with its history, and the messages of the tasks that have not run yet. -/
structure WebhookRun where
  run : HistoryRun
  spawned : List ChannelEnvelope

inductive WebhookEvent where
  /-- A request comes in at a time. -/
  | received (nowMs : ℕ) (request : WebhookRequest)
  /-- A task runs. -/
  | task (index : ℕ)
  /-- Anything else is done with the adapter, deliveries from elsewhere among it. -/
  | other (operation : Operation)
  /-- An operation is cut after some of its lasting events, and the tasks are gone. -/
  | crashed (operation : Operation) (events : ℕ)

variable {κ ς : Type} (library : WebhookLibrary κ ς) (hook : Webhook) (ctx : ChannelContext)

namespace WebhookRun

variable (s : WebhookRun)

def receive (nowMs : ℕ) (request : WebhookRequest) : WebhookRun :=
  let answer := hook.handle library nowMs request
  { run := (answer.operation (hook.retryHint request)).elim s.run (s.run.complete ctx)
    spawned := s.spawned ++ answer.accepted.toList }

def runTask (index : ℕ) : Option WebhookRun :=
  s.spawned[index]?.map fun envelope =>
    { run := s.run.complete ctx (.ingest envelope), spawned := s.spawned.eraseIdx index }

end WebhookRun

/-- The runs of an adapter that starts without any state and is fed by a webhook. -/
def webhookRuns : TransitionSystem WebhookRun WebhookEvent where
  init s := (historyRuns ctx).init s.run ∧ s.spawned = []
  step s
    | .received nowMs request => some (s.receive library hook ctx nowMs request)
    | .task index => s.runTask ctx index
    | .other operation => some { s with run := s.run.complete ctx operation }
    | .crashed operation events => some { run := s.run.crash ctx operation events, spawned := [] }

/-- No crash finds an execution that the disk does not know. -/
def CrashesSaved (s : WebhookRun) : WebhookEvent → Prop
  | .crashed operation events => SavedInHistory ctx s.run (.crashed operation events)
  | _ => True

/-- **No replay.** A request is accepted in its window only, it is the same delivery each time,
and its message was executed once at most, or `max_seen_delivery_ids` other deliveries were
tracked after it. -/
def NotReplayed (s : WebhookRun) (request : WebhookRequest) : Prop :=
  ∀ nowMs envelope, hook.accepted library nowMs request = some envelope →
    hook.InWindow nowMs request ∧
    (∀ laterMs again, hook.accepted library laterMs request = some again → again = envelope) ∧
    (s.run.history.ledger.executed.count (trim envelope.deliveryId) ≤ 1 ∨
      Displaced ctx.config.policy.maxSeenDeliveryIds s.run.history.tracked
        (trim envelope.deliveryId))

variable {library hook ctx} {s : WebhookRun}

theorem run_of_reachable
    (reached : (webhookRuns library hook ctx).ReachableWhen (CrashesSaved ctx) s) :
    (historyRuns ctx).ReachableWhen (SavedInHistory ctx) s.run := by
  apply reached.map WebhookRun.run
  · intro s starts
    exact starts.1
  intro s event t _ saved moves
  cases event with
  | received nowMs request =>
    obtain rfl := Option.some_inj.mp moves
    simp only [WebhookRun.receive]
    cases (hook.handle library nowMs request).operation (hook.retryHint request) with
    | none => exact .inl rfl
    | some operation => exact .inr ⟨.completed operation, trivial, rfl⟩
  | task index =>
    obtain ⟨envelope, -, rfl⟩ := Option.map_eq_some_iff.mp moves
    exact .inr ⟨.completed (.ingest envelope), trivial, rfl⟩
  | other operation =>
    obtain rfl := Option.some_inj.mp moves
    exact .inr ⟨.completed operation, trivial, rfl⟩
  | crashed operation events =>
    obtain rfl := Option.some_inj.mp moves
    exact .inr ⟨.crashed operation events, saved, rfl⟩

/-- In every run whose crashes find the executions saved, a captured request is not replayed
within the retention of its delivery. -/
theorem notReplayed_of_reachable (library : WebhookLibrary κ ς) (hook : Webhook)
    (ctx : ChannelContext) (s : WebhookRun)
    (reached : (webhookRuns library hook ctx).ReachableWhen (CrashesSaved ctx) s)
    (request : WebhookRequest) : NotReplayed library hook ctx s request := by
  intro nowMs envelope accepted
  refine ⟨inWindow_of_accepted accepted, fun laterMs again => accepted_unique accepted, ?_⟩
  exact count_executed_of_savedAtCrash (run_of_reachable reached) _

/-! ### A captured request -/

def echoContext : ChannelContext :=
  let base := openContext [pingCommand] fun _ => .ok ()
  { base with
    config := { base.config with policy := { openPolicy with quotaStandardPerMinute := 1000 } }
    statePersistence := false }

def pingId (n : ℕ) : String := "slack:" ++ String.ofList (List.replicate n 'a')

def pingEnvelope (n : ℕ) : ChannelEnvelope :=
  ⟨pingId n, "user-1", "channel-1", "/ping", none, none, none, none⟩

/-- Libraries that accept one tag, and read a body as the id of an event. -/
def echoLibrary : WebhookLibrary Unit Unit where
  decodeBase64 _ := .error "Invalid byte"
  keyFromBytes _ := .ok ()
  signatureFromSlice bytes := if bytes.length = 64 then .ok () else .error "signature error"
  verify _ _ _ := .error "signature error"
  hmacVerify _ _ tag := tag = [0xAB, 0xCD]
  parseInteraction _ := .error "expected value"
  parseEnvelope body := .ok
    { kind := "event_callback"
      challenge := none
      eventId := some (String.ofList (body.map fun byte => Char.ofNat byte.toNat))
      event := some ⟨"message", none, none, some "channel-1", some "user-1", some "/ping"⟩ }
  display _ := ""

def echoHook : Webhook := .slack ⟨some "secret", 300⟩

def pingRequest (n : ℕ) : WebhookRequest where
  headers :=
    [("x-slack-request-timestamp", some "1700000000"), ("x-slack-signature", some "v0=abcd")]
  body := List.replicate n 97

def Uncut (_ : WebhookRun) : WebhookEvent → Prop
  | .crashed .. => False
  | _ => True

instance (s : WebhookRun) : ∀ event, Decidable (Uncut s event)
  | .crashed .. => .isFalse id
  | .received .. | .task _ | .other _ => .isTrue trivial

theorem crashesSaved_of_uncut (ctx : ChannelContext) (s : WebhookRun) (event : WebhookEvent)
    (uncut : Uncut s event) : CrashesSaved ctx s event := by
  cases event with
  | crashed operation events => exact uncut.elim
  | _ => trivial

abbrev echoRuns : TransitionSystem WebhookRun WebhookEvent :=
  webhookRuns echoLibrary echoHook echoContext

def emptyWebhook : WebhookRun := ⟨⟨⟨.fresh, 0⟩, .blank⟩, []⟩

theorem emptyWebhook_starts : echoRuns.init emptyWebhook := ⟨⟨rfl, rfl⟩, rfl⟩

/-- A request comes in, another one overtakes it, and it is sent twice more. -/
def resentRequest : List WebhookEvent :=
  [.received 1700000100000 (pingRequest 0), .received 1700000100000 (pingRequest 1), .task 1,
    .task 0, .received 1700000101000 (pingRequest 0), .received 1700000102000 (pingRequest 0),
    .task 1, .task 0]

theorem resent_request_executed_once : ∃ s : WebhookRun,
    s.run.history.ledger.executed = [pingId 1, pingId 0] ∧
      NotReplayed echoLibrary echoHook echoContext s (pingRequest 0) := by
  have ran : (echoRuns.run? Uncut emptyWebhook resentRequest).map
      (·.run.history.ledger.executed) = some [pingId 1, pingId 0] := by
    decide +kernel
  obtain ⟨s, reached, executed⟩ := exists_of_run? (.init emptyWebhook_starts) ran
  have saved := reached.mono (crashesSaved_of_uncut echoContext)
  exact ⟨s, executed, notReplayed_of_reachable _ _ _ s saved (pingRequest 0)⟩

/-! ### Enough other deliveries -/

theorem toList_pingId (n : ℕ) :
    (pingId n).toList = ['s', 'l', 'a', 'c', 'k', ':'] ++ List.replicate n 'a' := by
  simp [pingId]

theorem pingId_injective : Function.Injective pingId := by
  intro n k same
  have lengths := congrArg (fun s => s.toList.length) same
  simpa [toList_pingId] using lengths

theorem trim_pingId (n : ℕ) : trim (pingId n) = pingId n := by
  rw [trim, trimChars_eq_self, String.ofList_toList]
  · intro c first
    rw [toList_pingId] at first
    obtain rfl := Option.some_inj.mp first
    decide
  · intro c last
    rw [toList_pingId] at last
    cases n with
    | zero =>
      obtain rfl := Option.some_inj.mp last
      decide
    | succ n =>
      rw [List.replicate_succ', ← List.append_assoc, List.getLast?_concat] at last
      obtain rfl := Option.some_inj.mp last
      decide

theorem utf8ByteSize_pingId (n : ℕ) : (pingId n).utf8ByteSize = 6 + n := by
  have letters : (String.ofList (List.replicate n 'a')).utf8ByteSize = n := by
    induction n with
    | zero => rfl
    | succ n ih =>
      rw [List.replicate_succ', String.ofList_append, String.utf8ByteSize_append, ih]
      rfl
  rw [pingId, String.utf8ByteSize_append, letters]
  rfl

theorem normalize_ping {n : ℕ} (short : n ≤ 250) :
    normalizeEnvelope echoContext.config (pingEnvelope n) = .ok (pingEnvelope n) := by
  have id : normalizeIdentifier "delivery_id" (pingId n) maxChannelIdentifierBytes =
      .ok (pingId n) := by
    rw [normalizeIdentifier_eq_ok, trim_pingId]
    refine ⟨⟨?_, ?_, ?_⟩, rfl⟩
    · intro empty
      have letters := congrArg String.toList empty
      simp [toList_pingId] at letters
    · rw [utf8ByteSize_pingId]
      simp only [maxChannelIdentifierBytes]
      omega
    · intro c member
      rw [toList_pingId] at member
      rcases List.mem_append.mp member with first | letter
      · have plain : ['s', 'l', 'a', 'c', 'k', ':'].all fun c => !isControl c := by decide
        simpa using List.all_eq_true.mp plain c first
      · obtain rfl := (List.mem_replicate.mp letter).2
        decide
  have sender : normalizeIdentifier "sender_id" "user-1" maxChannelIdentifierBytes =
      .ok "user-1" := by
    decide
  have account : normalizeIdentifier "account_id" "channel-1" maxChannelIdentifierBytes =
      .ok "channel-1" := by
    decide
  have text : trim "/ping" = "/ping" := by decide
  have sized : "/ping".utf8ByteSize = 5 := by decide
  simp [normalizeEnvelope, pingEnvelope, id, sender, account, text, sized, verifyIngressAuth,
    echoContext, openContext, openPolicy, refuseIf, bind, Except.bind, pure, Except.pure]

/-- How many messages of the sender count against its quota. -/
def windowLength (m : Machine) : ℕ := ((m.adapter.rateWindows "user-1").getD []).length

theorem persistState_echo : persistState echoContext = pure () := by
  funext m
  exact persistState_off rfl

section Echo

variable {n : ℕ} {m : Machine}

theorem wp_screen_ping (short : n ≤ 250) (new : pingId n ∉ m.adapter.seenDeliveryIds)
    (room : windowLength m < 1000) (history : History) :
    wp History.record (fun _ => True) (screen echoContext (pingEnvelope n))
      (fun result t after => result = .ok (.passed (pingEnvelope n) .standard none) ∧
        windowLength t ≤ windowLength m + 1 ∧ deliveries t = deliveries m ∧ after = history)
      m history := by
  have tier : tierFromPolicy echoContext.config.policy "user-1" = .standard := by decide
  have window : (pruneWindow (echoContext.surroundings.nowMs m.calls)
      ((m.adapter.rateWindows "user-1").getD [])).length ≤ windowLength m :=
    (List.dropWhile_sublist _).length_le
  have below := Nat.not_le.mpr (lt_of_le_of_lt window room)
  have allowed : echoContext.config.policy.allowAccounts = ∅ ∧
      echoContext.config.policy.allowSenders = ∅ ∧
      echoContext.config.policy.quotaPerMinute .standard = 1000 := ⟨rfl, rfl, rfl⟩
  have sender : (pingEnvelope n).senderId = "user-1" := rfl
  have fresh : (pingEnvelope n).deliveryId ∉ m.adapter.seenDeliveryIds := new
  have pairing : ∀ account,
      enforcePairingPolicy echoContext account = (do let _ ← readAdapter; return none) := by
    intro account
    funext m
    rfl
  have noModule : ∀ envelope tier,
      evaluateWasmPolicy echoContext envelope tier = pure (envelope.text, tier, none) := by
    intro envelope tier
    funext m
    rfl
  simp only [screen, admission, arrive, judge, record, wp_bind, wp_update, normalize_ping short,
    ofExcept_ok, wp_pure, wp_readAdapter, true_and, if_neg fresh, pairing, enforcePolicy, sender,
    tier, enforceRateLimit, setRateWindow, persistState_echo, noModule, consult]
  -- neither blocked nor off a list, and within the quota
  rw [if_neg (by decide), if_neg (by simp [allowed.1]), if_neg (by simp [allowed.2.1])]
  simp only [wp_bind, wp_update, wp_readAdapter, true_and, wp_ask, allowed.2.2, if_neg below]
  rw [if_neg (by decide)]
  simp only [wp_bind, wp_pure, true_and]
  refine ⟨rfl, ?_, rfl, trivial⟩
  simp only [windowLength, Function.update_self, Option.getD_some, List.length_append,
    List.length_singleton] at window ⊢
  omega

theorem wp_settle_ping (ids : m.adapter.seenDeliveryIds = m.adapter.seenDeliveryOrder.toFinset)
    (distinct : m.adapter.seenDeliveryOrder.Nodup) (new : pingId n ∉ m.adapter.seenDeliveryIds)
    (history : History) :
    wp History.record (fun _ => True) (settle echoContext (.passed (pingEnvelope n) .standard none))
      (fun result t after => (∃ reply, result = .ok (.answered reply)) ∧
        windowLength t = windowLength m ∧
        t.adapter.seenDeliveryOrder = (m.adapter.seenDeliveryOrder ++ [pingId n]).rtake 128 ∧
        t.adapter.seenDeliveryIds = t.adapter.seenDeliveryOrder.toFinset ∧
        after.ledger.executed = history.ledger.executed ++ [pingId n]) m history := by
  have called : commandFor echoContext "/ping" = some (pingCommand, "ping", "") := by
    decide +kernel
  have calls : commandFor echoContext (pingEnvelope n).text = some (pingCommand, "ping", "") :=
    called
  have id : (pingEnvelope n).deliveryId = pingId n := rfl
  have fresh : pingId n ∉ m.adapter.seenDeliveryOrder := by
    rwa [ids, List.mem_toFinset] at new
  have silent : ∀ account text, sendMessageWithRetry echoContext account text = pure () := by
    intro account text
    funext m
    rfl
  simp only [settle, calls, triageCommand, trackDeliveryId, wp_bind, wp_readAdapter, id,
    if_pos new, wp_update, wp_log, record, wp_ask, true_and]
  refine (wp_evictOldest_noted (fun history : History => history.ledger.executed)
    (fun _ _ => rfl) _ ?_ ?_ fun _ _ => trivial).mono ?_
  · change insert (pingId n) m.adapter.seenDeliveryIds = _
    ext other
    rw [ids]
    simp [or_comm]
  · change (m.adapter.seenDeliveryOrder ++ [pingId n]).Nodup
    rw [← List.concat_eq_append]
    exact distinct.concat fresh
  · rintro result t after - ⟨rfl, executed, left⟩
    have tier : pingCommand.minTier.any (SenderTrustTier.standard < ·) = false := rfl
    have bypasses : pingCommand.bypassQueue = true := rfl
    simp only [tier, bypasses, Bool.false_eq_true, if_false, if_true, wp_bind, wp_log, wp_ask,
      silent, wp_attempt, wp_pure, true_and]
    refine ⟨⟨_, rfl⟩, ?_, ?_, ?_, ?_⟩
    · simp only [windowLength, left]
    · simp only [left]
      rfl
    · simp only [left]
    · change after.ledger.executed ++ [pingId n] = _
      rw [executed]
      rfl

theorem wp_ingest_ping (short : n ≤ 250) (room : windowLength m < 1000)
    (ids : m.adapter.seenDeliveryIds = m.adapter.seenDeliveryOrder.toFinset)
    (distinct : m.adapter.seenDeliveryOrder.Nodup) (new : pingId n ∉ m.adapter.seenDeliveryOrder)
    (history : History) :
    wp History.record (fun _ => True) (ingest echoContext (pingEnvelope n))
      (fun _ t after => windowLength t ≤ windowLength m + 1 ∧
        t.adapter.seenDeliveryOrder = (m.adapter.seenDeliveryOrder ++ [pingId n]).rtake 128 ∧
        t.adapter.seenDeliveryIds = t.adapter.seenDeliveryOrder.toFinset ∧
        after.ledger.executed = history.ledger.executed ++ [pingId n]) m history := by
  have unseen : pingId n ∉ m.adapter.seenDeliveryIds := by
    rwa [ids, List.mem_toFinset]
  simp only [ingest, receive, triage_eq, wp_bind]
  apply (wp_screen_ping short unseen room history).mono
  rintro _ t after - ⟨rfl, window, same, rfl⟩
  obtain ⟨sameIds, sameOrder, -⟩ := Deliveries.mk.inj same
  rw [← sameIds] at unseen ids
  rw [← sameOrder] at distinct ids ⊢
  apply (wp_settle_ping ids distinct unseen _).mono
  rintro _ u final - ⟨⟨reply, rfl⟩, settled, kept⟩
  rw [← settled] at window
  exact wp_pure.mpr ⟨trivial, wp_pure.mpr ⟨trivial, window, kept⟩⟩

end Echo

/-- An adapter that executed these messages, without a crash. -/
structure Echoed (numbers : List ℕ) (run : HistoryRun) : Prop where
  window : windowLength run.machine ≤ numbers.length
  order : run.machine.adapter.seenDeliveryOrder = recent 128 (numbers.map pingId)
  ids : run.machine.adapter.seenDeliveryIds = run.machine.adapter.seenDeliveryOrder.toFinset
  executed : run.history.ledger.executed = numbers.map pingId

variable {numbers : List ℕ} {n : ℕ} {run : HistoryRun}

theorem complete_ingest (ctx : ChannelContext) (envelope : ChannelEnvelope) (run : HistoryRun) :
    run.complete ctx (.ingest envelope) =
      ⟨(ingest ctx envelope run.machine).state,
        (ingest ctx envelope run.machine).journal.foldl History.record run.history⟩ := by
  have state := state_bind_pure (ingest ctx envelope) (fun _ => ()) run.machine
  have journal := journal_bind_pure (ingest ctx envelope) (fun _ => ()) run.machine
  simp only [HistoryRun.complete, perform]
  rw [state, journal]

theorem Echoed.complete (echoed : Echoed numbers run) (short : n ≤ 250)
    (few : numbers.length < 1000) (new : pingId n ∉ recent 128 (numbers.map pingId)) :
    Echoed (numbers ++ [n]) (run.complete echoContext (.ingest (pingEnvelope n))) := by
  obtain ⟨window, order, ids, executed⟩ := echoed
  have distinct : run.machine.adapter.seenDeliveryOrder.Nodup := by
    rw [order]
    exact nodup_recent
  have unseen : pingId n ∉ run.machine.adapter.seenDeliveryOrder := by
    rwa [order]
  obtain ⟨-, ran⟩ := wp_ingest_ping short (window.trans_lt few) ids distinct unseen run.history
  obtain ⟨window', order', ids', executed'⟩ := ran
  rw [complete_ingest]
  generalize ingest echoContext (pingEnvelope n) run.machine = out
    at window' order' ids' executed' ⊢
  rw [order, ← recent_snoc_of_not_mem new, ← List.map_singleton, ← List.map_append] at order'
  rw [executed, ← List.map_singleton, ← List.map_append] at executed'
  refine ⟨?_, order', ids', executed'⟩
  rw [List.length_append, List.length_singleton]
  exact window'.trans (Nat.succ_le_succ window)

theorem Echoed.verified (echoed : Echoed numbers run) :
    Echoed numbers (run.complete echoContext (.recordWebhookVerified 200 false)) := by
  obtain ⟨window, order, ids, executed⟩ := echoed
  have ran : wp History.record (fun _ => True) (recordWebhookVerified echoContext 200 false)
      (fun _ t after => windowLength t = windowLength run.machine ∧
        deliveries t = deliveries run.machine ∧ after = run.history) run.machine run.history := by
    simp only [recordWebhookVerified, record, wp_bind, wp_ask, wp_update, persistState_echo,
      wp_pure, true_and]
    exact ⟨rfl, rfl, trivial⟩
  obtain ⟨-, window', same, history⟩ := ran
  obtain ⟨sameIds, sameOrder, -⟩ := Deliveries.mk.inj same
  constructor
  · exact window'.le.trans window
  · exact sameOrder.trans order
  · exact sameIds.trans (ids.trans (congrArg List.toFinset sameOrder.symm))
  · exact (congrArg (fun history => history.ledger.executed) history).trans executed

theorem handle_ping (n : ℕ) : echoHook.handle echoLibrary 1700000100000 (pingRequest n) =
    .verified (.object [("ok", .bool true), ("status", .str "accepted")])
      (some (pingEnvelope n)) := by
  have stamp : (pingRequest n).headerStr "x-slack-request-timestamp" = some "1700000000" := by
    change (pingRequest 0).headerStr _ = _
    decide +kernel
  have signature : (pingRequest n).headerStr "x-slack-signature" = some "v0=abcd" := by
    change (pingRequest 0).headerStr _ = _
    decide +kernel
  have parsed : parseI64 "1700000000" = some 1700000000 := by
    decide +kernel
  have inside : ¬ SlackWebhook.Outside ⟨some "secret", 300⟩ 1700000100000 1700000000 := by
    decide +kernel
  have hex : decodeHex "abcd" = .ok [0xAB, 0xCD] := by decide +kernel
  have stripped : SlackWebhook.stripPrefix "v0=" "v0=abcd" = some "abcd" := by decide +kernel
  have body : (pingRequest n).body = List.replicate n 97 := rfl
  have text : trim "/ping" = "/ping" := by decide
  simp [echoHook, Webhook.handle, SlackWebhook.handle, SlackWebhook.check, stamp, signature, parsed,
    inside, orDeny, denyIf, denyWith, bind, Except.bind, SlackWebhook.verifySignature, hex,
    stripped, echoLibrary, body, SlackWebhook.intoAnswer, SlackWebhook.intoMessage,
    WebhookAnswer.ofExcept, pure, Except.pure, text]
  rfl

theorem echoed_snoc {s : WebhookRun} (reached : echoRuns.ReachableWhen Uncut s)
    (idle : s.spawned = []) (echoed : Echoed numbers s.run) (short : n ≤ 250)
    (few : numbers.length < 1000) (new : pingId n ∉ recent 128 (numbers.map pingId)) :
    ∃ t, echoRuns.ReachableWhen Uncut t ∧ t.spawned = [] ∧ Echoed (numbers ++ [n]) t.run := by
  let verified : WebhookRun :=
    ⟨s.run.complete echoContext (.recordWebhookVerified 200 false), [pingEnvelope n]⟩
  have receives : echoRuns.step s (.received 1700000100000 (pingRequest n)) = some verified := by
    have received : s.receive echoLibrary echoHook echoContext 1700000100000 (pingRequest n) =
        verified := by
      rw [WebhookRun.receive, handle_ping, idle]
      rfl
    exact congrArg some received
  have waiting : echoRuns.ReachableWhen Uncut verified :=
    .step reached (show Uncut s (.received 1700000100000 (pingRequest n)) from trivial) receives
  refine ⟨⟨verified.run.complete echoContext (.ingest (pingEnvelope n)), []⟩, ?_, rfl, ?_⟩
  · exact .step waiting (show Uncut verified (.task 0) from trivial) rfl
  · exact echoed.verified.complete short few new

theorem exists_echoed (count : ℕ) (short : count ≤ 250) :
    ∃ s, echoRuns.ReachableWhen Uncut s ∧ s.spawned = [] ∧ Echoed (List.range count) s.run := by
  induction count with
  | zero =>
    refine ⟨emptyWebhook, .init emptyWebhook_starts, rfl, ?_⟩
    exact ⟨Nat.zero_le _, rfl, rfl, rfl⟩
  | succ count ih =>
    obtain ⟨s, reached, idle, echoed⟩ := ih (by omega)
    rw [List.range_succ]
    refine echoed_snoc reached idle echoed (by omega) (by rw [List.length_range]; omega) ?_
    intro member
    have earlier := List.mem_dedup.mp (recent_suffix.subset member)
    rw [List.mem_map_of_injective pingId_injective] at earlier
    simp at earlier

/-- A message is executed, 128 other ones are, and its request is sent again within its window. -/
theorem replayed_after_retention : ¬ ∀ (library : WebhookLibrary Unit Unit) (hook : Webhook)
    (ctx : ChannelContext) (s : WebhookRun),
      (webhookRuns library hook ctx).ReachableWhen Uncut s →
        ∀ nowMs request envelope, hook.accepted library nowMs request = some envelope →
          s.run.history.ledger.executed.count (trim envelope.deliveryId) ≤ 1 := by
  intro once
  obtain ⟨s, reached, idle, echoed⟩ := exists_echoed 129 (by decide)
  have distinct : ((List.range 129).map pingId).Nodup := List.nodup_range.map pingId_injective
  have forgot : pingId 0 ∉ recent 128 ((List.range 129).map pingId) := by
    rw [recent_of_nodup distinct, List.rtake, List.length_map, List.length_range, ← List.map_drop,
      List.mem_map_of_injective pingId_injective]
    decide
  obtain ⟨t, reached, -, again⟩ :=
    echoed_snoc reached idle echoed (Nat.zero_le _) (by simp) forgot
  have accepted : echoHook.accepted echoLibrary 1700000100000 (pingRequest 0) =
      some (pingEnvelope 0) := congrArg WebhookAnswer.accepted (handle_ping 0)
  have atMostOne := once _ _ _ t reached _ _ _ accepted
  rw [again.executed, show (pingEnvelope 0).deliveryId = pingId 0 from rfl, trim_pingId,
    List.count_map_of_injective _ _ pingId_injective] at atMostOne
  revert atMostOne
  decide

end KelvinClaw.Ingress
