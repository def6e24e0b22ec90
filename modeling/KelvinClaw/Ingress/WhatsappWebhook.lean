import KelvinClaw.Ingress.Replays

/-!
# The webhook of WhatsApp

A signed request carries any number of messages. Its task takes the lock of the channels for one
message after the other, so that other tasks come between them, and goes on when the adapter
refuses one.
-/

namespace KelvinClaw.Ingress

open KelvinClaw.Core KelvinClaw.Channel Systems TransitionSystem
open DiscordWebhook (unauthorized invalidPayload)

/-! ### Payloads -/

structure WhatsappText where
  body : Option String

structure WhatsappMessage where
  id : Option String
  sender : Option String
  kind : Option String
  text : Option WhatsappText

structure WhatsappChangeValue where
  messages : Option (List WhatsappMessage)
  statuses : Option (List Value)

structure WhatsappChange where
  value : Option WhatsappChangeValue

structure WhatsappEntry where
  changes : Option (List WhatsappChange)

structure WhatsappWebhookPayload where
  entry : Option (List WhatsappEntry)

/-- The request for a text of a user, as `whatsapp_ingest` hands it to the adapter. -/
def WhatsappMessage.envelope (message : WhatsappMessage) : Option ChannelEnvelope :=
  let sender := message.sender.getD ""
  let text := ((message.text.bind (·.body)).map trim).getD ""
  if message.kind.getD "" ≠ "text" ∨ text = "" ∨ sender = "" then none
  else some ⟨"whatsapp:" ++ message.id.getD "", sender, sender, text, none, none, none, none⟩

def WhatsappChangeValue.requests (value : WhatsappChangeValue) : List ChannelEnvelope :=
  if value.messages.isNone ∧ value.statuses.isSome then []
  else (value.messages.getD []).filterMap (·.envelope)

def extractRequests (payload : WhatsappWebhookPayload) : List ChannelEnvelope :=
  (payload.entry.getD []).flatMap fun entry =>
    (entry.changes.getD []).flatMap fun change => change.value.elim [] (·.requests)

/-! ### The handler -/

/-- The app secret, and the HMAC and JSON libraries. -/
structure WhatsappWebhook where
  appSecret : Option String
  /-- HMAC-SHA256 of a key and a payload is the given tag. -/
  hmacVerify : (key payload tag : List UInt8) → Bool
  parsePayload : List UInt8 → Except String WhatsappWebhookPayload

variable (hook : WhatsappWebhook) (ctx : ChannelContext)

namespace WhatsappWebhook

def verifySignature (appSecret : String) (request : WebhookRequest) : Except Denial Unit := do
  let header ← orDeny (unauthorized "missing x-hub-signature-256 header for whatsapp webhook")
    (request.headerStr "x-hub-signature-256")
  let encoded ← orDeny (unauthorized "whatsapp signature must start with 'sha256='")
    (SlackWebhook.stripPrefix "sha256=" header)
  let signature ← denyWith unauthorized (decodeHex encoded)
  denyIf (hook.hmacVerify appSecret.toUTF8.data.toList request.body signature = false)
    (unauthorized "whatsapp webhook signature verification failed")

def check (request : WebhookRequest) : Except Denial (List ChannelEnvelope) := do
  let appSecret ← orDeny
    (.of 503 "verification_unavailable" "whatsapp app secret is not configured") hook.appSecret
  hook.verifySignature appSecret request
  let payload ← denyWith (fun err => invalidPayload s!"invalid whatsapp webhook payload: {err}")
    (hook.parsePayload request.body)
  return extractRequests payload

/-- `handle_post` on a channel that is on: the answer, and the messages for a task. -/
def handlePost (request : WebhookRequest) : WebhookAnswer × List ChannelEnvelope :=
  match hook.check request with
  | .error denial => (.denied denial, [])
  | .ok requests =>
    let status := if requests = [] then "ignored" else "accepted"
    (.verified (.object [("ok", .bool true), ("status", .str status)]) none, requests)

def Signed (body : List UInt8) (requests : List ChannelEnvelope) : Prop :=
  ∃ appSecret tag payload, hook.appSecret = some appSecret ∧
    hook.hmacVerify appSecret.toUTF8.data.toList body tag = true ∧
    hook.parsePayload body = .ok payload ∧ requests = extractRequests payload

variable {hook}

theorem signed_of_check {request : WebhookRequest} {requests : List ChannelEnvelope}
    (checked : hook.check request = .ok requests) : hook.Signed request.body requests := by
  simp only [check, verifySignature, bind_eq_ok, orDeny_eq_ok, denyIf_eq_ok, denyWith_eq_ok]
    at checked
  obtain ⟨appSecret, secret, _, ⟨_, -, _, -, tag, -, verified⟩, payload, parsed, same⟩ := checked
  exact ⟨appSecret, tag, payload, secret, by simpa using verified, parsed,
    (Except.ok.inj same).symm⟩

end WhatsappWebhook

/-! ### Runs -/

/-- An adapter with its history, the body of each task's request with what the task has left, and
what the tasks have handed on. -/
structure WhatsappRun where
  run : HistoryRun
  tasks : List (List UInt8 × List ChannelEnvelope)
  handed : List (ℕ × ChannelEnvelope)

inductive WhatsappEvent where
  | received (request : WebhookRequest)
  /-- A task gets the lock. -/
  | task (index : ℕ)
  /-- Anything else is done with the adapter. -/
  | other (operation : Operation)

namespace WhatsappRun

variable (s : WhatsappRun)

def receive (request : WebhookRequest) : WhatsappRun :=
  let (answer, requests) := hook.handlePost request
  { s with
    run := (answer.operation false).elim s.run (s.run.complete ctx)
    tasks := if requests = [] then s.tasks else s.tasks ++ [(request.body, requests)] }

def runTask (index : ℕ) : Option WhatsappRun :=
  match s.tasks[index]? with
  | some (body, envelope :: rest) =>
    some ⟨s.run.complete ctx (.ingest envelope), s.tasks.set index (body, rest),
      s.handed ++ [(index, envelope)]⟩
  | _ => none

/-- Each task has handed on the first messages of its signed body, in their order, and has the
others left; no other message was handed on. -/
structure InOrder : Prop where
  task : ∀ index body left, s.tasks[index]? = some (body, left) →
    hook.Signed body ((s.handed.filter (·.1 = index)).map (·.2) ++ left)
  handed : ∀ entry ∈ s.handed, entry.1 < s.tasks.length

variable {hook ctx s}

theorem InOrder.receive (ordered : s.InOrder hook) (request : WebhookRequest) :
    (s.receive hook ctx request).InOrder hook := by
  unfold WhatsappRun.receive WhatsappWebhook.handlePost
  cases checked : hook.check request with
  | error denial => exact ⟨ordered.task, ordered.handed⟩
  | ok requests =>
    dsimp only
    split_ifs
    · exact ⟨ordered.task, ordered.handed⟩
    refine ⟨fun index body left there => ?_, fun entry member => ?_⟩
    · rcases lt_or_ge index s.tasks.length with earlier | later
      · rw [List.getElem?_append_left earlier] at there
        exact ordered.task index body left there
      · have nothing : s.handed.filter (·.1 = index) = [] := List.filter_eq_nil_iff.mpr
          fun entry member => by simpa using ((ordered.handed entry member).trans_le later).ne
        rw [List.getElem?_append_right later] at there
        obtain ⟨rfl, rfl⟩ := Prod.mk.inj (List.mem_singleton.mp (List.mem_of_getElem? there))
        simpa [nothing] using WhatsappWebhook.signed_of_check checked
    · rw [List.length_append]
      exact Nat.lt_add_right _ (ordered.handed entry member)

theorem InOrder.runTask {t : WhatsappRun} {index : ℕ} (ordered : s.InOrder hook)
    (moves : s.runTask ctx index = some t) : t.InOrder hook := by
  unfold WhatsappRun.runTask at moves
  split at moves
  · rename_i body envelope rest found
    obtain rfl := Option.some_inj.mp moves
    have inside := (List.getElem?_eq_some_iff.mp found).1
    refine ⟨fun other body' left there => ?_, fun entry member => ?_⟩
    · by_cases same : index = other
      · subst same
        simp only [List.getElem?_set_self inside, Option.some.injEq, Prod.mk.injEq] at there
        obtain ⟨rfl, rfl⟩ := there
        simpa using ordered.task index body _ found
      · rw [List.getElem?_set_ne same] at there
        simpa [same] using ordered.task other body' left there
    · rw [List.length_set]
      rcases List.mem_append.mp member with earlier | last
      · exact ordered.handed entry earlier
      · rw [List.mem_singleton.mp last]
        exact inside
  · cases moves

end WhatsappRun

def whatsappRuns : TransitionSystem WhatsappRun WhatsappEvent where
  init s := (historyRuns ctx).init s.run ∧ s.tasks = [] ∧ s.handed = []
  step s
    | .received request => some (s.receive hook ctx request)
    | .task index => s.runTask ctx index
    | .other operation => some { s with run := s.run.complete ctx operation }

/-- **Messages of WhatsApp.** However the tasks of requests are interleaved, the messages of each
signed body are handed to the adapter once each and in their order, and no others are. -/
theorem whatsapp_messages_in_order (hook : WhatsappWebhook) (ctx : ChannelContext)
    (s : WhatsappRun) (reached : (whatsappRuns hook ctx).Reachable s) : s.InOrder hook := by
  apply reached.invariant fun s => s.InOrder hook
  · rintro s ⟨-, none, nothing⟩
    constructor <;> simp [none, nothing]
  · intro s event t ordered _ moves
    cases event with
    | received request =>
      obtain rfl := Option.some_inj.mp moves
      exact ordered.receive request
    | task index => exact ordered.runTask moves
    | other operation =>
      obtain rfl := Option.some_inj.mp moves
      exact ⟨ordered.task, ordered.handed⟩

/-! ### Two requests -/

def plainHook : WhatsappWebhook where
  appSecret := some "secret"
  hmacVerify _ _ tag := tag = [0xAB, 0xCD]
  parsePayload body := .ok ⟨some [⟨some [⟨some ⟨some (body.map fun byte =>
    ⟨some "wamid", some "15550001", some "text", some ⟨some (toString byte)⟩⟩), none⟩⟩]⟩]⟩

def signedRequest (body : List UInt8) : WebhookRequest :=
  ⟨[("x-hub-signature-256", some "sha256=abcd")], body⟩

/-- The tasks take turns, and the first one has a message left. -/
theorem tasks_take_turns : ∃ s : WhatsappRun,
    s.handed.map (fun entry => (entry.1, entry.2.text)) = [(0, "1"), (1, "3"), (0, "2")] ∧
      s.InOrder plainHook := by
  have ran : ((whatsappRuns plainHook echoContext).run? (fun _ _ => True) ⟨emptyWebhook.run, [], []⟩
      [.received (signedRequest [1, 2, 4]), .received (signedRequest [3]), .task 0, .task 1,
        .task 0]).map (fun s => s.handed.map fun entry => (entry.1, entry.2.text)) =
          some [(0, "1"), (1, "3"), (0, "2")] := by
    decide +kernel
  have starts : (whatsappRuns plainHook echoContext).init ⟨emptyWebhook.run, [], []⟩ :=
    ⟨⟨rfl, rfl⟩, rfl, rfl⟩
  obtain ⟨s, reached, seen⟩ := exists_of_run? (.init starts) ran
  exact ⟨s, seen, whatsapp_messages_in_order plainHook echoContext s reached⟩

end KelvinClaw.Ingress
