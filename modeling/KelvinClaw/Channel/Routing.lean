import KelvinClaw.Channel.Policy

/-!
# Channel routing

Rules that send the messages of a channel to a session, a workspace and a system
prompt. The first rule of the table that matches decides.
-/

namespace KelvinClaw.Channel

open KelvinClaw.Core

structure RouteRule where
  id : String
  priority : ℤ
  channel : Option String
  accountId : Option String
  senderTier : Option SenderTrustTier
  sessionId : Option String
  workspaceDir : Option String
  routeSessionId : Option String
  routeWorkspaceDir : Option String
  routeSystemPrompt : Option String
  deriving DecidableEq, Repr

structure RouteInput where
  channel : String
  accountId : String
  requestedSessionId : Option String
  requestedWorkspaceDir : Option String
  senderTier : SenderTrustTier
  deriving DecidableEq, Repr

structure RouteDecision where
  matchedRuleId : Option String
  sessionId : String
  workspaceDir : Option String
  systemPrompt : Option String
  senderTier : String
  deriving DecidableEq, Repr

/-- `RouteRule::matches`: every field that is set agrees with the input. -/
def RouteRule.matches (rule : RouteRule) (input : RouteInput) : Bool :=
  (rule.channel.all fun channel =>
    let normalized := toAsciiLowercase (trim channel)
    normalized = "*" || normalized = toAsciiLowercase input.channel) &&
  (rule.accountId.all fun accountId => trim accountId = input.accountId) &&
  (rule.senderTier.all fun senderTier => senderTier = input.senderTier) &&
  (rule.sessionId.all fun sessionId => input.requestedSessionId = some (trim sessionId)) &&
  (rule.workspaceDir.all fun workspaceDir =>
    input.requestedWorkspaceDir = some (trim workspaceDir))

def defaultSessionId (channel accountId : String) : String := s!"{trim channel}:{trim accountId}"

/-- The rules, in the order in which they are tried. -/
structure ChannelRoutingTable where
  rules : List RouteRule

def ChannelRoutingTable.decide (table : ChannelRoutingTable) (input : RouteInput) :
    RouteDecision :=
  match table.rules.find? (·.matches input) with
  | some rule =>
    { matchedRuleId := some rule.id
      sessionId := rule.routeSessionId.getD (defaultSessionId input.channel input.accountId)
      workspaceDir := rule.routeWorkspaceDir.or input.requestedWorkspaceDir
      systemPrompt := rule.routeSystemPrompt
      senderTier := input.senderTier.asStr }
  | none =>
    { matchedRuleId := none
      sessionId := input.requestedSessionId.getD (defaultSessionId input.channel input.accountId)
      workspaceDir := input.requestedWorkspaceDir
      systemPrompt := none
      senderTier := input.senderTier.asStr }

/-- `RouteDecision::apply_wasm_overrides`: a text that is blank overrides nothing. -/
def RouteDecision.applyWasmOverrides (route : RouteDecision) (decision : WasmPolicyDecision) :
    RouteDecision :=
  { route with
    sessionId := (trimOption decision.routeSessionId).getD route.sessionId
    workspaceDir := (trimOption decision.routeWorkspaceDir).or route.workspaceDir
    systemPrompt := (trimOption decision.routeSystemPrompt).or route.systemPrompt }

end KelvinClaw.Channel
