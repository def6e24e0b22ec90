import Mathlib.Data.Finset.Basic
import KelvinClaw.Core.Text

/-!
# Channel policy

What a channel adapter is configured with, and the messages that come in: the kind of
the channel, the trust tiers of senders, the limits and lists of the policy, the
envelope of a message, and the checks that need no state.
-/

namespace KelvinClaw.Channel

open KelvinClaw.Core

/-! ### Channels and tiers -/

inductive ChannelKind where
  | telegram
  | slack
  | discord
  | whatsApp
  deriving DecidableEq, Repr

def ChannelKind.asStr : ChannelKind → String
  | .telegram => "telegram"
  | .slack => "slack"
  | .discord => "discord"
  | .whatsApp => "whatsapp"

/-- The privilege of a sender, from lowest to highest. -/
inductive SenderTrustTier where
  | blocked
  | probation
  | standard
  | trusted
  | owner
  deriving DecidableEq, Repr

namespace SenderTrustTier

def asStr : SenderTrustTier → String
  | .owner => "owner"
  | .trusted => "trusted"
  | .standard => "standard"
  | .probation => "probation"
  | .blocked => "blocked"

def rank : SenderTrustTier → ℕ
  | .blocked => 0
  | .probation => 1
  | .standard => 2
  | .trusted => 3
  | .owner => 4

instance : LT SenderTrustTier := ⟨fun a b => a.rank < b.rank⟩

instance (a b : SenderTrustTier) : Decidable (a < b) :=
  inferInstanceAs (Decidable (a.rank < b.rank))

end SenderTrustTier

/-! ### Configuration -/

def channelMaxSeenDeliveryIdsMin : ℕ := 128

def channelMaxQueueDepthMin : ℕ := 1

def maxChannelIdentifierBytes : ℕ := 256

/-- The limits and lists of a channel. The bounds are those of `from_env`. -/
structure ChannelPolicy where
  ingressToken : Option String
  allowAccounts : Finset String
  allowSenders : Finset String
  ownerSenders : Finset String
  trustedSenders : Finset String
  probationSenders : Finset String
  blockedSenders : Finset String
  quotaOwnerPerMinute : ℕ
  quotaStandardPerMinute : ℕ
  quotaTrustedPerMinute : ℕ
  quotaProbationPerMinute : ℕ
  cooldownProbationMs : ℕ
  maxSeenDeliveryIds : ℕ
  maxQueueDepth : ℕ
  maxTextBytes : ℕ
  seenBound : channelMaxSeenDeliveryIdsMin ≤ maxSeenDeliveryIds
  queueBound : channelMaxQueueDepthMin ≤ maxQueueDepth

theorem ChannelPolicy.maxSeenDeliveryIds_pos (policy : ChannelPolicy) :
    0 < policy.maxSeenDeliveryIds :=
  Nat.lt_of_lt_of_le (by decide) policy.seenBound

structure ChannelTransportConfig where
  botToken : Option String
  outboundMaxRetries : ℕ

/-- The configuration of an adapter; the policy module itself is part of the adapter's
surroundings. -/
structure TextChannelConfig where
  kind : ChannelKind
  pairingEnabled : Bool
  policy : ChannelPolicy
  transport : ChannelTransportConfig
  hasWasmPolicyPlugin : Bool

def tierFromPolicy (policy : ChannelPolicy) (senderId : String) : SenderTrustTier :=
  if senderId ∈ policy.blockedSenders then .blocked
  else if senderId ∈ policy.ownerSenders then .owner
  else if senderId ∈ policy.trustedSenders then .trusted
  else if senderId ∈ policy.probationSenders then .probation
  else .standard

def ChannelPolicy.quotaPerMinute (policy : ChannelPolicy) : SenderTrustTier → ℕ
  | .owner => policy.quotaOwnerPerMinute
  | .trusted => policy.quotaTrustedPerMinute
  | .standard => policy.quotaStandardPerMinute
  | .probation => policy.quotaProbationPerMinute
  | .blocked => 0

/-! ### Messages -/

structure ChannelEnvelope where
  deliveryId : String
  senderId : String
  accountId : String
  text : String
  timeoutMs : Option ℕ
  authToken : Option String
  sessionId : Option String
  workspaceDir : Option String
  deriving DecidableEq, Repr

/-- The answer of a policy module. -/
structure WasmPolicyDecision where
  allow : Bool
  reason : Option String
  trustTier : Option SenderTrustTier
  overrideText : Option String
  routeSessionId : Option String
  routeWorkspaceDir : Option String
  routeSystemPrompt : Option String
  deriving DecidableEq, Repr

/-- `normalize_identifier`. -/
def normalizeIdentifier (label value : String) (maxLen : ℕ) : KelvinResult String := do
  let normalized := trim value
  refuseIf (normalized = "") (.invalidInput s!"{label} must not be empty")
  refuseIf (maxLen < normalized.utf8ByteSize) (.invalidInput s!"{label} exceeds {maxLen} bytes")
  refuseIf (normalized.toList.any isControl)
    (.invalidInput s!"{label} must not include control characters")
  return normalized

/-- An accepted identifier is the trimmed text, which is not empty, not longer than the
bound and free of control characters. -/
theorem normalizeIdentifier_eq_ok {label value normalized : String} {maxLen : ℕ} :
    normalizeIdentifier label value maxLen = .ok normalized ↔
      (trim value ≠ "" ∧ (trim value).utf8ByteSize ≤ maxLen ∧
        ∀ c ∈ (trim value).toList, isControl c = false) ∧ trim value = normalized := by
  simp only [normalizeIdentifier, bind_unit_eq_ok, refuseIf_eq_ok, pure_eq_ok, not_lt,
    List.any_eq_true, not_exists, not_and, Bool.not_eq_true, and_assoc, ne_eq]

end KelvinClaw.Channel
