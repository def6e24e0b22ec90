import Mathlib.Algebra.Ring.Int.Defs
import KelvinClaw.Channel.Runs
import KelvinClaw.Ingress.DiscordGateway
import KelvinClaw.Plugin.TrustPolicy

/-!
# The webhooks of Discord and Slack

A handler checks the signature of a request and reads the message in it, for a task that hands the
message to the adapter of the channel. The handler of Slack refuses a request outside a window
around its timestamp; the one of Discord does not look at the timestamp that is signed.

The libraries for signatures and for JSON are parameters.
-/

namespace KelvinClaw.Ingress

open KelvinClaw.Core KelvinClaw.Channel KelvinClaw.Plugin

/-! ### Requests and answers -/

/-- A request. The value of a header is `none` when it is not visible ASCII. -/
structure WebhookRequest where
  headers : List (String × Option String)
  body : List UInt8

/-- `header_str`. -/
def WebhookRequest.headerStr (request : WebhookRequest) (name : String) : Option String :=
  let value := (request.headers.find? (·.1 = name)).bind Prod.snd
  (value.map trim).filter (· ≠ "")

def WebhookRequest.containsKey (request : WebhookRequest) (name : String) : Bool :=
  request.headers.any (·.1 = name)

/-- A refusal: the status, the code and the message of the answer, and the reason that is
recorded. -/
structure Denial where
  statusCode : ℕ
  code : String
  reason : String
  message : String

/-- A refusal whose recorded reason is its message. -/
def Denial.of (statusCode : ℕ) (code message : String) : Denial :=
  ⟨statusCode, code, message, message⟩

def orDeny {α : Type} (denial : Denial) : Option α → Except Denial α
  | some a => .ok a
  | none => .error denial

def denyWith {α : Type} (denial : String → Denial) : Except String α → Except Denial α
  | .ok a => .ok a
  | .error message => .error (denial message)

def denyIf (condition : Prop) [Decidable condition] (denial : Denial) : Except Denial Unit :=
  if condition then .error denial else .ok ()

/-- What a handler does: nothing is recorded of a channel that is off; a verified request is
answered with a payload, and its message goes to a task. -/
inductive WebhookAnswer where
  | disabled (message : String)
  | denied (denial : Denial)
  | verified (payload : Value) (accepted : Option ChannelEnvelope)

namespace WebhookAnswer

def accepted : WebhookAnswer → Option ChannelEnvelope
  | .verified _ accepted => accepted
  | _ => none

def operation (retryHint : Bool) : WebhookAnswer → Option Operation
  | .disabled _ => none
  | .denied denial => some (.recordWebhookDenied denial.statusCode retryHint denial.reason)
  | .verified .. => some (.recordWebhookVerified 200 retryHint)

/-- `json_error`. -/
def jsonError (code message : String) : Value :=
  .object [("ok", .bool false), ("error", .object [("code", .str code), ("message", .str message)])]

def response : WebhookAnswer → ℕ × Value
  | .disabled message => (404, jsonError "channel_disabled" message)
  | .denied denial => (denial.statusCode, jsonError denial.code denial.message)
  | .verified payload _ => (200, payload)

def ofExcept : Except Denial WebhookAnswer → WebhookAnswer
  | .ok answer => answer
  | .error denial => .denied denial

end WebhookAnswer

/-! ### Hex -/

def decodeHexNibble (value : UInt8) : Except String UInt8 :=
  if 48 ≤ value ∧ value ≤ 57 then .ok (value - 48)
  else if 97 ≤ value ∧ value ≤ 102 then .ok (value - 97 + 10)
  else if 65 ≤ value ∧ value ≤ 70 then .ok (value - 65 + 10)
  else .error "hex input contained a non-hex character"

def decodeHexPairs : List UInt8 → Except String (List UInt8)
  | first :: second :: rest => do
    let high ← decodeHexNibble first
    let low ← decodeHexNibble second
    let bytes ← decodeHexPairs rest
    return (high <<< 4 ||| low) :: bytes
  | _ => .ok []

def decodeHex (input : String) : Except String (List UInt8) :=
  let normalized := (trim input).toUTF8.data.toList
  if normalized.length % 2 ≠ 0 then .error "hex input must contain an even number of characters"
  else decodeHexPairs normalized

/-! ### Discord -/

/-- The options of a command: a value has a name and perhaps a value, a group has options of its
own too. -/
inductive DiscordCommandOptions where
  | nil
  | value (name : String) (value : Option Value) (rest : DiscordCommandOptions)
  | group (name : String) (value : Option Value) (options rest : DiscordCommandOptions)

structure DiscordCommandData where
  name : String
  options : Option DiscordCommandOptions

/-- An interaction; of users their ids are read, of the member its user. -/
structure DiscordInteraction where
  id : String
  kind : ℕ
  channelId : Option String
  user : Option String
  memberUser : Option String
  data : Option DiscordCommandData

structure SlackEvent where
  kind : String
  subtype : Option String
  botId : Option String
  channel : Option String
  user : Option String
  text : Option String

structure SlackWebhookEnvelope where
  kind : String
  challenge : Option String
  eventId : Option String
  event : Option SlackEvent

/-- The signature, HMAC and JSON libraries. -/
structure WebhookLibrary (κ ς : Type) extends SignatureLibrary κ ς where
  /-- HMAC-SHA256 of a key and a payload is the given tag. -/
  hmacVerify : (key payload tag : List UInt8) → Bool
  parseInteraction : List UInt8 → Except String DiscordInteraction
  parseEnvelope : List UInt8 → Except String SlackWebhookEnvelope
  /-- The text of a JSON value. -/
  display : Value → String

variable {κ ς : Type} (library : WebhookLibrary κ ς)

def optionText (name : String) : Option Value → List String
  | none => []
  | some value => [name ++ "=" ++ value.asStr.getD (library.display value)]

def appendOptions : DiscordCommandOptions → List String
  | .nil => []
  | .value name value rest => optionText library name value ++ appendOptions rest
  | .group name value options rest =>
    optionText library name value ++ [name] ++ appendOptions options ++ appendOptions rest

def renderCommand (data : DiscordCommandData) : String :=
  " ".intercalate (("/" ++ trim data.name) :: data.options.elim [] (appendOptions library))

/-- The envelope that `discord_ingest` hands to the adapter. -/
def DiscordIngressRequest.envelope (request : DiscordIngressRequest) : ChannelEnvelope where
  deliveryId := request.deliveryId
  senderId := request.userId
  accountId := request.channelId
  text := request.text
  timeoutMs := request.timeoutMs
  authToken := request.authToken
  sessionId := request.sessionId
  workspaceDir := request.workspaceDir

structure DiscordWebhook where
  publicKey : Option (List UInt8)

namespace DiscordWebhook

def unauthorized (message : String) : Denial := .of 401 "unauthorized" message

def invalidPayload (message : String) : Denial := .of 400 "invalid_payload" message

def missingHeader (reason header : String) : Denial :=
  ⟨401, "unauthorized", reason, s!"missing {header}"⟩

def verifySignature (publicKey : List UInt8) (timestamp signatureHeader : String)
    (body : List UInt8) : Except Denial Unit := do
  let verifyingKey ← denyWith (fun _ => unauthorized "invalid discord public key")
    (library.keyFromBytes publicKey)
  let signatureBytes ← denyWith (fun err => unauthorized s!"invalid discord signature: {err}")
    (decodeHex signatureHeader)
  let signature ← denyWith (fun _ => unauthorized "invalid discord signature")
    (library.signatureFromSlice signatureBytes)
  denyWith (fun _ => unauthorized "discord signature verification failed")
    (library.verify verifyingKey (timestamp.toUTF8.data.toList ++ body) signature)

def intoCommand (interaction : DiscordInteraction) : Except Denial DiscordIngressRequest := do
  let channelId ← orDeny (invalidPayload "discord interaction missing channel_id")
    interaction.channelId
  let userId ← orDeny (invalidPayload "discord interaction missing user id")
    ((interaction.memberUser <|> interaction.user).filter (trim · ≠ ""))
  let data ← orDeny (invalidPayload "discord interaction missing command data") interaction.data
  return {
    deliveryId := "discord:" ++ interaction.id
    channelId, userId
    text := renderCommand library data
    timeoutMs := none, authToken := none, sessionId := none, workspaceDir := none }

def contentAnswer (content : String) : Value :=
  .object [("type", .num 4), ("data", .object [("content", .str content), ("flags", .num 64)])]

def intoAnswer (interaction : DiscordInteraction) : Except Denial WebhookAnswer :=
  if interaction.kind = 1 then .ok (.verified (.object [("type", .num 1)]) none)
  else if interaction.kind = 2 then do
    let request ← intoCommand library interaction
    return .verified
      (contentAnswer "KelvinClaw accepted your request and will reply in-channel.")
      (some request.envelope)
  else
    .ok (.verified
      (contentAnswer "Discord interaction type is not handled by KelvinClaw.") none)

def check (config : DiscordWebhook) (request : WebhookRequest) : Except Denial WebhookAnswer := do
  let publicKey ← orDeny
    (.of 503 "verification_unavailable" "discord interactions public key is not configured")
    config.publicKey
  let timestamp ← orDeny
    (missingHeader "missing discord signature timestamp" "x-signature-timestamp")
    (request.headerStr "x-signature-timestamp")
  let signature ← orDeny (missingHeader "missing discord signature" "x-signature-ed25519")
    (request.headerStr "x-signature-ed25519")
  -- the timestamp is signed and not looked at
  verifySignature library publicKey timestamp signature request.body
  let interaction ← denyWith
    (fun err => invalidPayload s!"invalid discord interaction payload: {err}")
    (library.parseInteraction request.body)
  intoAnswer library interaction

def handle (config : DiscordWebhook) (enabled : Bool) (request : WebhookRequest) :
    WebhookAnswer :=
  if enabled then .ofExcept (config.check library request)
  else .disabled "discord channel is not enabled"

end DiscordWebhook

/-! ### Slack -/

/-- `str::parse::<i64>`: an optional sign and at least one decimal digit, the value in range. -/
def parseI64 (text : String) : Option ℤ :=
  let digits := text.toList.dropWhile fun c => c = '+' ∨ c = '-'
  let signs := text.toList.length - digits.length
  let value : ℤ := digits.foldl (fun value c => value * 10 + (c.toNat - '0'.toNat)) 0
  let signed := if text.toList.head? = some '-' then -value else value
  if signs ≤ 1 ∧ digits ≠ [] ∧ digits.all Char.isDigit ∧ -2 ^ 63 ≤ signed ∧ signed ≤ i64Max then
    some signed
  else none

/-- `(now_ms() / 1_000) as i64`. -/
def nowSecs (nowMs : ℕ) : ℤ := Int.bmod (nowMs / 1000) (2 ^ 64)

structure SlackIngressRequest where
  deliveryId : String
  channelId : String
  userId : String
  text : String
  timeoutMs : Option ℕ
  authToken : Option String
  sessionId : Option String
  workspaceDir : Option String

/-- The envelope that `slack_ingest` hands to the adapter. -/
def SlackIngressRequest.envelope (request : SlackIngressRequest) : ChannelEnvelope where
  deliveryId := request.deliveryId
  senderId := request.userId
  accountId := request.channelId
  text := request.text
  timeoutMs := request.timeoutMs
  authToken := request.authToken
  sessionId := request.sessionId
  workspaceDir := request.workspaceDir

structure SlackWebhook where
  signingSecret : Option String
  replayWindowSecs : ℕ

namespace SlackWebhook

open DiscordWebhook (unauthorized invalidPayload missingHeader)

def stripPrefix (start text : String) : Option String :=
  if start.toList <+: text.toList then
    some (String.ofList (text.toList.drop start.toList.length))
  else none

def verifySignature (signingSecret timestamp signatureHeader : String) (body : List UInt8) :
    Except Denial Unit := do
  let encodedSignature ← orDeny (unauthorized "slack signature must start with 'v0='")
    (stripPrefix "v0=" signatureHeader)
  let signature ← denyWith unauthorized (decodeHex encodedSignature)
  let payload := s!"v0:{timestamp}:".toUTF8.data.toList ++ body
  denyIf (library.hmacVerify signingSecret.toUTF8.data.toList payload signature = false)
    (unauthorized "slack signature verification failed")

def ignored : WebhookAnswer :=
  .verified (.object [("ok", .bool true), ("status", .str "ignored")]) none

def intoMessage (envelope : SlackWebhookEnvelope) (event : SlackEvent) :
    Except Denial WebhookAnswer := do
  let eventId ← orDeny (invalidPayload "slack event_callback request missing event_id")
    envelope.eventId
  let channelId ← orDeny (invalidPayload "slack message event missing channel") event.channel
  let userId ← orDeny (invalidPayload "slack message event missing user") event.user
  match (event.text.map trim).filter (· ≠ "") with
  | none => return ignored
  | some text =>
    let request : SlackIngressRequest :=
      { deliveryId := "slack:" ++ eventId
        channelId, userId, text
        timeoutMs := none, authToken := none, sessionId := none, workspaceDir := none }
    return .verified (.object [("ok", .bool true), ("status", .str "accepted")])
      (some request.envelope)

def intoAnswer (envelope : SlackWebhookEnvelope) : Except Denial WebhookAnswer :=
  if envelope.kind = "url_verification" then do
    let challenge ← orDeny (invalidPayload "slack url_verification request missing challenge")
      envelope.challenge
    return .verified (.object [("challenge", .str challenge)]) none
  else if envelope.kind = "event_callback" then do
    let event ← orDeny (invalidPayload "slack event_callback request missing event object")
      envelope.event
    if event.kind ≠ "message" ∨ event.subtype.isSome ∨ event.botId.isSome then return ignored
    else intoMessage envelope event
  else .ok ignored

/-- The window of a timestamp: `abs_diff` of the clock and the timestamp. -/
def Outside (config : SlackWebhook) (nowMs : ℕ) (timestampSecs : ℤ) : Prop :=
  config.replayWindowSecs < (nowSecs nowMs - timestampSecs).natAbs

instance (config : SlackWebhook) (nowMs : ℕ) (timestampSecs : ℤ) :
    Decidable (config.Outside nowMs timestampSecs) :=
  inferInstanceAs (Decidable (config.replayWindowSecs < _))

def check (config : SlackWebhook) (nowMs : ℕ) (request : WebhookRequest) :
    Except Denial WebhookAnswer := do
  let signingSecret ← orDeny
    (.of 503 "verification_unavailable" "slack signing secret is not configured")
    config.signingSecret
  let timestamp ← orDeny
    (missingHeader "missing slack request timestamp" "x-slack-request-timestamp")
    (request.headerStr "x-slack-request-timestamp")
  let signature ← orDeny (missingHeader "missing slack signature" "x-slack-signature")
    (request.headerStr "x-slack-signature")
  let timestampSecs ← orDeny (invalidPayload "invalid slack request timestamp")
    (parseI64 timestamp)
  denyIf (config.Outside nowMs timestampSecs)
    (unauthorized "slack request timestamp is outside the replay window")
  verifySignature library signingSecret timestamp signature request.body
  let envelope ← denyWith (fun err => invalidPayload s!"invalid slack webhook payload: {err}")
    (library.parseEnvelope request.body)
  intoAnswer envelope

def handle (config : SlackWebhook) (enabled : Bool) (nowMs : ℕ) (request : WebhookRequest) :
    WebhookAnswer :=
  if enabled then .ofExcept (config.check library nowMs request)
  else .disabled "slack channel is not enabled"

end SlackWebhook

/-! ### Resent requests -/

/-- One of the two webhooks. -/
inductive Webhook where
  | discord (config : DiscordWebhook)
  | slack (config : SlackWebhook)

namespace Webhook

variable (hook : Webhook)

def handle (nowMs : ℕ) (request : WebhookRequest) : WebhookAnswer :=
  match hook with
  | .discord config => config.handle library true request
  | .slack config => config.handle library true nowMs request

def retryHint (request : WebhookRequest) : Bool :=
  match hook with
  | .discord _ => false
  | .slack _ => request.containsKey "x-slack-retry-num"

def accepted (nowMs : ℕ) (request : WebhookRequest) : Option ChannelEnvelope :=
  (hook.handle library nowMs request).accepted

def InWindow (nowMs : ℕ) (request : WebhookRequest) : Prop :=
  match hook with
  | .discord _ => True
  | .slack config => ∃ timestampSecs,
    (request.headerStr "x-slack-request-timestamp").bind parseI64 = some timestampSecs ∧
      ¬ config.Outside nowMs timestampSecs

end Webhook

section Handlers

variable {library}

@[simp] theorem orDeny_eq_ok {α : Type} {denial : Denial} {value : Option α} {a : α} :
    orDeny denial value = .ok a ↔ value = some a := by
  cases value <;> simp [orDeny]

@[simp] theorem denyWith_eq_ok {α : Type} {denial : String → Denial} {result : Except String α}
    {a : α} : denyWith denial result = .ok a ↔ result = .ok a := by
  cases result <;> simp [denyWith]

@[simp] theorem denyIf_eq_ok {condition : Prop} [Decidable condition] {denial : Denial} {u : Unit} :
    denyIf condition denial = .ok u ↔ ¬ condition := by
  unfold denyIf
  split <;> simp_all

theorem accepted_ofExcept {result : Except Denial WebhookAnswer} {envelope : ChannelEnvelope}
    (accepted : (WebhookAnswer.ofExcept result).accepted = some envelope) :
    ∃ answer, result = .ok answer ∧ answer.accepted = some envelope := by
  cases result with
  | error denial => cases accepted
  | ok answer => exact ⟨answer, rfl, accepted⟩

/-- What an accepted request of Slack passed: the window, and then checks that do not look at the
clock. -/
theorem SlackWebhook.check_eq_ok {config : SlackWebhook} {nowMs : ℕ} {request : WebhookRequest}
    {answer : WebhookAnswer} (checked : config.check library nowMs request = .ok answer) :
    (Webhook.slack config).InWindow nowMs request ∧
      ∃ envelope, library.parseEnvelope request.body = .ok envelope ∧
        SlackWebhook.intoAnswer envelope = .ok answer := by
  simp only [check, bind_eq_ok, orDeny_eq_ok, denyIf_eq_ok, denyWith_eq_ok] at checked
  obtain ⟨secret, -, timestamp, stamped, signature, -, secs, parsed, -, inside, -, -, envelope,
    read, answered⟩ := checked
  refine ⟨⟨secs, ?_, inside⟩, envelope, read, answered⟩
  rw [stamped]
  exact parsed

/-- **The window.** An accepted request is in the window of its webhook. -/
theorem inWindow_of_accepted {hook : Webhook} {nowMs : ℕ} {request : WebhookRequest}
    {envelope : ChannelEnvelope} (accepted : hook.accepted library nowMs request = some envelope) :
    hook.InWindow nowMs request := by
  cases hook with
  | discord config => trivial
  | slack config =>
    obtain ⟨answer, checked, -⟩ := accepted_ofExcept accepted
    exact (SlackWebhook.check_eq_ok checked).1

/-- **The same delivery.** Whenever a request is sent, its message is the same. -/
theorem accepted_unique {hook : Webhook} {nowMs laterMs : ℕ} {request : WebhookRequest}
    {envelope again : ChannelEnvelope}
    (accepted : hook.accepted library nowMs request = some envelope)
    (resent : hook.accepted library laterMs request = some again) : again = envelope := by
  cases hook with
  | discord config => exact Option.some_inj.mp (resent.symm.trans accepted)
  | slack config =>
    obtain ⟨first, checked, message⟩ := accepted_ofExcept accepted
    obtain ⟨second, checkedAgain, messageAgain⟩ := accepted_ofExcept resent
    obtain ⟨-, body, read, answered⟩ := SlackWebhook.check_eq_ok checked
    obtain ⟨-, bodyAgain, readAgain, answeredAgain⟩ := SlackWebhook.check_eq_ok checkedAgain
    obtain rfl := Except.ok.inj (read.symm.trans readAgain)
    obtain rfl := Except.ok.inj (answered.symm.trans answeredAgain)
    exact Option.some_inj.mp (messageAgain.symm.trans message)

end Handlers

end KelvinClaw.Ingress
