import KelvinClaw.Core.Basic
import KelvinClaw.Library.BoundedMap

/-!
# Connect tokens and the failures of an address

The gateway expects a connect request as the first message of a socket and verifies
the token in it. Failed verifications are counted for each client address; from a
threshold on, a failure blocks the address for a time that grows with the number of
failures. The tracker holds a bounded number of addresses and forgets the oldest.
-/

namespace KelvinClaw.Gateway

open KelvinClaw.Core Systems

variable {κ : Type} [DecidableEq κ]

/-! ### Configuration -/

/-- The part of `GatewaySecurityConfig` that governs authentication failures. -/
structure GatewaySecurityConfig where
  authFailureThreshold : ℕ
  authFailureBackoffMs : ℕ

def defaultAuthFailureThreshold : ℕ := 3

def defaultAuthFailureBackoffMs : ℕ := 1500

def minAuthFailureBackoffMs : ℕ := 100

def authFailureMaxEntries : ℕ := 512

def GatewaySecurityConfig.default : GatewaySecurityConfig where
  authFailureThreshold := defaultAuthFailureThreshold
  authFailureBackoffMs := defaultAuthFailureBackoffMs

/-- The checks of `validate_gateway_security` on these fields. -/
def validateGatewaySecurity (security : GatewaySecurityConfig) : Except String Unit :=
  if security.authFailureThreshold = 0 then
    .error "gateway auth_failure_threshold must be >= 1"
  else if security.authFailureBackoffMs < minAuthFailureBackoffMs then
    .error s!"gateway auth_failure_backoff_ms must be >= {minAuthFailureBackoffMs}"
  else .ok ()

/-! ### The tracker -/

structure AuthFailureEntry where
  failures : ℕ
  blockedUntilMs : ℕ

abbrev AuthFailureTracker (κ : Type) := BoundedMap κ AuthFailureEntry

namespace AuthFailureTracker

def new (maxEntries : ℕ) : AuthFailureTracker κ :=
  .empty (max maxEntries 32)

def backoffRemainingMs (tracker : AuthFailureTracker κ) (peerIp : κ) (nowMs : ℕ) :
    Option ℕ × AuthFailureTracker κ :=
  match tracker.map peerIp with
  | none => (none, tracker)
  | some entry =>
    if entry.blockedUntilMs ≤ nowMs then
      (none, tracker.put peerIp { entry with blockedUntilMs := 0 })
    else (some (min (entry.blockedUntilMs - nowMs) u64Max), tracker)

/-- Make the address the youngest one, evicting the oldest of a full tracker. -/
def touch (tracker : AuthFailureTracker κ) (peerIp : κ) (entry : AuthFailureEntry) :
    AuthFailureTracker κ :=
  (tracker.erase peerIp).put peerIp entry

def entryOf (tracker : AuthFailureTracker κ) (peerIp : κ) : AuthFailureEntry :=
  (tracker.map peerIp).getD ⟨0, 0⟩

/-- The end of the block that the `failures`-th failure sets, if it sets one. -/
def blockEnd (security : GatewaySecurityConfig) (failures nowMs : ℕ) : Option ℕ :=
  if security.authFailureThreshold ≤ failures then
    let multiplier := saturatingAdd u32Max (failures - security.authFailureThreshold) 1
    some (saturatingAdd u128Max nowMs (security.authFailureBackoffMs * multiplier))
  else none

def recordFailure (security : GatewaySecurityConfig) (tracker : AuthFailureTracker κ)
    (peerIp : κ) (nowMs : ℕ) : AuthFailureTracker κ :=
  let entry := tracker.entryOf peerIp
  let failures := saturatingAdd u32Max entry.failures 1
  tracker.touch peerIp
    { failures := failures
      blockedUntilMs := (blockEnd security failures nowMs).getD entry.blockedUntilMs }

def clear (tracker : AuthFailureTracker κ) (peerIp : κ) : AuthFailureTracker κ :=
  tracker.erase peerIp

def blockedUntilMs (tracker : AuthFailureTracker κ) (peerIp : κ) : ℕ :=
  (tracker.entryOf peerIp).blockedUntilMs

/-- The block that the next failure of an address sets, if it sets one. -/
def nextBlock (security : GatewaySecurityConfig) (tracker : AuthFailureTracker κ)
    (peerIp : κ) (nowMs : ℕ) : Option ℕ :=
  blockEnd security (saturatingAdd u32Max (tracker.entryOf peerIp).failures 1) nowMs

/-! ### What the operations do to the blocks -/

variable (tracker : AuthFailureTracker κ) (peerIp : κ) (nowMs : ℕ)

omit [DecidableEq κ] in
theorem blockedUntilMs_eq_zero {tracker : AuthFailureTracker κ} {peerIp : κ}
    (absent : tracker.map peerIp = none) :
    tracker.blockedUntilMs peerIp = 0 := by
  rw [blockedUntilMs, entryOf, absent, Option.getD_none]

/-- A check finds no backoff exactly when the block of the address has ended. -/
theorem backoffRemainingMs_eq_none :
    (tracker.backoffRemainingMs peerIp nowMs).1 = none ↔
      tracker.blockedUntilMs peerIp ≤ nowMs := by
  cases present : tracker.map peerIp with
  | none => simp [backoffRemainingMs, blockedUntilMs_eq_zero, present]
  | some entry =>
    by_cases ended : entry.blockedUntilMs ≤ nowMs <;>
      simp [backoffRemainingMs, blockedUntilMs, entryOf, present, ended]

/-- A check erases the block of its address when it has ended, and changes no other. -/
theorem blockedUntilMs_backoffRemainingMs (other : κ) :
    (tracker.backoffRemainingMs peerIp nowMs).2.blockedUntilMs other =
      if other = peerIp ∧ tracker.blockedUntilMs peerIp ≤ nowMs then 0
      else tracker.blockedUntilMs other := by
  cases present : tracker.map peerIp with
  | none =>
    simp only [backoffRemainingMs, present, blockedUntilMs_eq_zero, Nat.zero_le, and_true]
    split_ifs with same
    · rw [same, blockedUntilMs_eq_zero present]
    · rfl
  | some entry =>
    have block : tracker.blockedUntilMs peerIp = entry.blockedUntilMs := by
      rw [blockedUntilMs, entryOf, present, Option.getD_some]
    rw [block, backoffRemainingMs, present]
    by_cases ended : entry.blockedUntilMs ≤ nowMs
    · by_cases same : other = peerIp
      · simp [ended, same, blockedUntilMs, entryOf]
      · simp [ended, same, blockedUntilMs, entryOf, BoundedMap.map_put,
          BoundedMap.evicts_of_present present]
    · simp [ended]

/-- A failure sets the block of its address once the threshold is reached; the block of
another address stays, unless the address is evicted. -/
theorem blockedUntilMs_recordFailure (security : GatewaySecurityConfig) (other : κ) :
    (recordFailure security tracker peerIp nowMs).blockedUntilMs other =
      if other = peerIp then
        (nextBlock security tracker peerIp nowMs).getD (tracker.blockedUntilMs peerIp)
      else if (recordFailure security tracker peerIp nowMs).map other = none then 0
      else tracker.blockedUntilMs other := by
  by_cases same : other = peerIp
  · simp [same, recordFailure, touch, blockedUntilMs, nextBlock, entryOf]
  · rw [if_neg same]
    split_ifs with evicted
    · exact blockedUntilMs_eq_zero evicted
    · have kept : (recordFailure security tracker peerIp nowMs).map other =
          tracker.map other := by
        simp only [recordFailure, touch, BoundedMap.map_put, if_neg same] at evicted ⊢
        split_ifs at evicted ⊢ with gone
        · exact absurd rfl evicted
        · rw [BoundedMap.map_erase, if_neg same]
      rw [blockedUntilMs, blockedUntilMs, entryOf, entryOf, kept]

theorem blockedUntilMs_clear (other : κ) :
    (tracker.clear peerIp).blockedUntilMs other =
      if other = peerIp then 0 else tracker.blockedUntilMs other := by
  by_cases same : other = peerIp <;>
    simp [same, clear, blockedUntilMs, entryOf, BoundedMap.map_erase]

end AuthFailureTracker

/-! ### The connect request -/

structure GatewayErrorPayload where
  code : String
  message : String
  deriving DecidableEq, Repr

/-- `map_kelvin_error`. -/
def mapKelvinError (err : KelvinError) : GatewayErrorPayload :=
  let code := match err with
    | .invalidInput _ => "invalid_input"
    | .notFound _ => "not_found"
    | .timeout _ => "timeout"
    | .backend _ => "backend_error"
    | .io _ => "io_error"
  { code, message := err.toString }

structure ConnectAuth where
  token : String
  deriving DecidableEq, Repr

structure ConnectParams where
  auth : Option ConnectAuth
  clientId : Option String
  deriving DecidableEq, Repr

/-- What a socket delivers first. A text message is already parsed: it is malformed, or
a request whose parameters did or did not decode as those of a connect request. -/
inductive FirstMessage where
  | timedOut
  | notText
  | receiveFailed
  | ended
  | malformed (error : String)
  | request (id method : String) (params : Except String ConnectParams)

/-- An error reply to the request with the given id. -/
structure ErrorReply where
  id : String
  error : GatewayErrorPayload
  deriving DecidableEq, Repr

def connectRequest : FirstMessage → Except (Option ErrorReply) (String × ConnectParams)
  | .timedOut => .error (some ⟨"", "timeout", "connect handshake timed out"⟩)
  | .notText =>
    .error (some ⟨"", "handshake_required", "first frame must be a connect request"⟩)
  | .receiveFailed | .ended => .error none
  | .malformed error => .error (some ⟨"", "invalid_request", error⟩)
  | .request id method params =>
    if method ≠ "connect" then
      .error (some ⟨id, "handshake_required", "first method must be connect"⟩)
    else
      match params with
      | .error error =>
        .error (some ⟨id, "invalid_input", "invalid params for connect: " ++ error⟩)
      | .ok params => .ok (id, params)

def verifyAuthToken (requiredToken : Option String) (providedAuth : Option ConnectAuth) :
    Except GatewayErrorPayload Unit :=
  match requiredToken with
  | none => .ok ()
  | some requiredToken =>
    match providedAuth with
    | none => .error ⟨"unauthorized", "missing auth token"⟩
    | some provided =>
      if provided.token ≠ requiredToken then .error ⟨"unauthorized", "invalid auth token"⟩
      else .ok ()

end KelvinClaw.Gateway
