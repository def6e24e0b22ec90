import KelvinClaw.Core.Text

/-!
# The memory service: messages, claims and tokens

The five operations of the memory service, their requests and responses, and the
delegation claims that every request carries in a signed token. The token library is a
parameter: it decodes a token under a validation and a clock reading.
-/

namespace KelvinClaw.Memory

open KelvinClaw.Core

/-! ### Operations and claims -/

inductive MemoryOperation where
  | upsert
  | query
  | read
  | delete
  | health
  deriving DecidableEq, Repr

def MemoryOperation.asStr : MemoryOperation → String
  | .upsert => "upsert"
  | .query => "query"
  | .read => "read"
  | .delete => "delete"
  | .health => "health"

structure RequestLimits where
  timeoutMs : ℕ
  maxBytes : ℕ
  maxResults : ℕ
  deriving DecidableEq, Repr

structure DelegationClaims where
  iss : String
  sub : String
  aud : String
  jti : String
  exp : ℕ
  nbf : ℕ
  tenantId : String
  workspaceId : String
  sessionId : String
  moduleId : String
  allowedOps : List String
  allowedCapabilities : List String
  requestLimits : RequestLimits
  deriving DecidableEq, Repr

def DelegationClaims.allowsOperation (claims : DelegationClaims) (op : MemoryOperation) : Bool :=
  claims.allowedOps.any (· = op.asStr)

/-! ### Messages -/

structure RequestContext where
  delegationToken : String
  requestId : String
  tenantId : String
  workspaceId : String
  sessionId : String
  moduleId : String
  deriving DecidableEq, Repr

structure UpsertRequest where
  context : Option RequestContext
  key : String
  value : List UInt8
  metadata : List (String × String)
  deriving DecidableEq, Repr

structure QueryRequest where
  context : Option RequestContext
  query : String
  maxResults : ℕ
  deriving DecidableEq, Repr

structure ReadRequest where
  context : Option RequestContext
  key : String
  deriving DecidableEq, Repr

structure DeleteRequest where
  context : Option RequestContext
  key : String
  deriving DecidableEq, Repr

structure HealthRequest where
  context : Option RequestContext
  deriving DecidableEq, Repr

structure SearchHit where
  path : String
  snippet : String
  score : Float32
  startLine : ℕ
  endLine : ℕ
  deriving DecidableEq

structure HealthResponse where
  ok : Bool
  provider : String
  enabledFeatures : List String
  loadedModules : List String
  deriving DecidableEq, Repr

/-- The response of an operation, as the idempotency cache keeps it. -/
inductive CachedResponse where
  | upsert (stored : Bool)
  | query (hits : List SearchHit)
  | read (found : Bool) (value : List UInt8)
  | delete (deleted : Bool)
  | health (response : HealthResponse)
  deriving DecidableEq

def CachedResponse.operation : CachedResponse → MemoryOperation
  | .upsert _ => .upsert
  | .query _ => .query
  | .read _ _ => .read
  | .delete _ => .delete
  | .health _ => .health

/-! ### Tokens -/

/-- The `Validation` of the token library, for the algorithm EdDSA. -/
structure Validation where
  leeway : ℕ
  validateNbf : Bool
  iss : String
  aud : String
  deriving DecidableEq, Repr

/-- The token library with the decoding key of the controller: the claims of a token that
is valid at a clock reading. -/
abbrev TokenDecoder := Validation → ℕ → String → Except String DelegationClaims

inductive ApiError where
  | invalidInput (message : String)
  | token (message : String)
  | serialization (message : String)
  deriving DecidableEq, Repr

/-- `impl Display for ApiError`. -/
def ApiError.toString : ApiError → String
  | .invalidInput message => "invalid input: " ++ message
  | .token message => "token error: " ++ message
  | .serialization message => "serialization error: " ++ message

def verifyDelegationToken (decode : TokenDecoder) (now : ℕ) (token expectedIssuer
    expectedAudience : String) (clockSkewSecs : ℕ) : Except ApiError DelegationClaims :=
  let validation : Validation := ⟨clockSkewSecs, true, expectedIssuer, expectedAudience⟩
  match decode validation now token with
  | .error err => .error (.token err)
  | .ok claims => .ok claims

/-! ### Issued tokens -/

/-- A token library that knows the tokens of a list: it checks the issuer, the audience, the
expiry and the start of the validity as the real one does, the last two with the leeway. -/
def issuedTokens (issued : List (String × DelegationClaims)) : TokenDecoder :=
  fun validation now token =>
    match issued.lookup token with
    | none => .error "InvalidSignature"
    | some claims =>
      if claims.exp < now - validation.leeway then .error "ExpiredSignature"
      else if validation.validateNbf ∧ now + validation.leeway < claims.nbf then
        .error "ImmatureSignature"
      else if claims.iss ≠ validation.iss then .error "InvalidIssuer"
      else if claims.aud ≠ validation.aud then .error "InvalidAudience"
      else .ok claims

end KelvinClaw.Memory
