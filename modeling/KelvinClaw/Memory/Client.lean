import KelvinClaw.Memory.SearchHits
import KelvinClaw.Memory.Tenancy

/-!
# The memory client

A client mints a delegation token for every call, sends its request to the controller, and reads
the response. Between the call and the store stand the token, the replay cache, the cache of the
responses, the module of the request and the provider. When the request ids are fresh, none of
them shows: any number of clients see one map.

The signer of the tokens and the decoding of texts are parameters. The request id and the clock
reading of a call come with it.
-/

namespace KelvinClaw.Memory

open KelvinClaw.Core Systems

/-! ### The client -/

/-- What the calls read of the configuration. -/
structure MemoryClientConfig where
  issuer : String
  audience : String
  subject : String
  tenantId : String
  workspaceId : String
  sessionId : String
  moduleId : String
  timeoutMs : ℕ
  maxBytes : ℕ
  maxResults : ℕ

def MemoryClientConfig.default : MemoryClientConfig where
  issuer := "kelvin-root"
  audience := "kelvin-memory-controller"
  subject := "kelvin-root-memory-client"
  tenantId := "default"
  workspaceId := "default"
  sessionId := "default"
  moduleId := "memory.echo"
  timeoutMs := 2000
  maxBytes := 1024 * 1024
  maxResults := 20

def tokenExpiryOffsetSecs : ℕ := 60

/-- `DelegationTokenSigner::mint_token`. -/
abbrev DelegationTokenSigner := DelegationClaims → KelvinResult String

def allowedCapabilities : MemoryOperation → List String
  | .upsert | .delete => ["memory_crud"]
  | .query | .read => ["memory_read"]
  | .health => ["memory_health"]

def MemoryClientConfig.claims (cfg : MemoryClientConfig) (now : ℕ) (op : MemoryOperation)
    (requestId : String) : DelegationClaims where
  iss := cfg.issuer
  sub := cfg.subject
  aud := cfg.audience
  jti := op.asStr ++ "-" ++ requestId
  exp := saturatingAdd usizeMax now tokenExpiryOffsetSecs
  nbf := now - 1
  tenantId := cfg.tenantId
  workspaceId := cfg.workspaceId
  sessionId := cfg.sessionId
  moduleId := cfg.moduleId
  allowedOps := [op.asStr]
  allowedCapabilities := allowedCapabilities op
  requestLimits := ⟨cfg.timeoutMs, cfg.maxBytes, cfg.maxResults⟩

def MemoryClientConfig.buildContext (cfg : MemoryClientConfig) (mintToken : DelegationTokenSigner)
    (now : ℕ) (op : MemoryOperation) (requestId : String) : KelvinResult RequestContext := do
  let token ← mintToken (cfg.claims now op requestId)
  return ⟨token, requestId, cfg.tenantId, cfg.workspaceId, cfg.sessionId, cfg.moduleId⟩

def mapStatus (status : Status) : KelvinError :=
  match status.code with
  | .deadlineExceeded => .timeout status.message
  | .invalidArgument => .invalidInput status.message
  | .notFound => .notFound status.message
  | .unavailable | .internal => .backend ("memory controller unavailable: " ++ status.message)

def mapSearchHit (hit : SearchHit) : MemorySearchResult Float32 where
  path := hit.path
  startLine := hit.startLine
  endLine := hit.endLine
  score := hit.score
  snippet := hit.snippet
  source := .memory
  citation := none

/-- The calls that reach the controller. -/
inductive ClientCall where
  | upsert (key : String) (value : List UInt8)
  | search (query : String) (opts : MemorySearchOptions)
  | readFile (params : MemoryReadParams)
  | sync

inductive ClientAnswer where
  | stored
  | found (results : List (MemorySearchResult Float32))
  | text (result : MemoryReadResult)
  | synced
  deriving DecidableEq

/-! The fields of the responses; a field that is not there has its default. -/

def CachedResponse.hits : CachedResponse → List SearchHit
  | .query hits => hits
  | _ => []

def CachedResponse.readResponse : CachedResponse → ReadResponse
  | .read found value => ⟨found, value⟩
  | _ => ⟨false, []⟩

namespace ClientCall

def operation : ClientCall → MemoryOperation
  | upsert .. => .upsert
  | search .. => .query
  | readFile _ => .read
  | sync => .health

/-- `u32::try_from(opts.max_results).unwrap_or(max_results).min(max_results)`. -/
def maxResults (cfg : MemoryClientConfig) (opts : MemorySearchOptions) : ℕ :=
  min (if opts.maxResults ≤ u32Max then opts.maxResults else cfg.maxResults) cfg.maxResults

def request (cfg : MemoryClientConfig) (context : RequestContext) : ClientCall → MemoryRequest
  | upsert key value => .upsert ⟨some context, key, value, []⟩
  | search query opts => .query ⟨some context, query, maxResults cfg opts⟩
  | readFile params => .read ⟨some context, params.relPath⟩
  | sync => .health ⟨some context⟩

def answer (describe : List UInt8 → String) :
    ClientCall → CachedResponse → KelvinResult ClientAnswer
  | upsert .., _ => .ok .stored
  | search .., response => .ok (.found (response.hits.map mapSearchHit))
  | readFile params, response => do
    let text ← responseText describe response.readResponse
    return .text ⟨text, params.relPath⟩
  | sync, _ => .ok .synced

end ClientCall

/-- A call of a client, with what comes with it. -/
structure ClientRequest where
  cfg : MemoryClientConfig
  call : ClientCall
  requestId : String
  nowSecs : ℕ
  env : Environment

namespace ClientRequest

variable (request : ClientRequest)

def claims : DelegationClaims :=
  request.cfg.claims request.nowSecs request.call.operation request.requestId

def perform {π : Type} (mintToken : DelegationTokenSigner) (describe : List UInt8 → String)
    (ctx : ControllerContext π) (state : ControllerState π) :
    KelvinResult ClientAnswer × ControllerState π :=
  match request.cfg.buildContext mintToken request.nowSecs request.call.operation
      request.requestId with
  | .error err => (.error err, state)
  | .ok context =>
    let (response, state) :=
      handle ctx ⟨request.call.request request.cfg context, request.env⟩ state
    (response.mapError mapStatus >>= request.call.answer describe, state)

end ClientRequest

/-! ### The map behind the service -/

def answerLimit (config : MemoryControllerConfig) (cfg : MemoryClientConfig) : ℕ :=
  min config.defaultMaxResponseBytes (usizeOrMax cfg.maxBytes)

def refuseAnswer (config : MemoryControllerConfig) (cfg : MemoryClientConfig) (dataLen : ℕ) :
    KelvinResult Unit :=
  refuseIf (answerLimit config cfg < dataLen)
    (.invalidInput s!"response payload {dataLen} bytes exceeds limit {answerLimit config cfg}")

/-- What a call does to a map: it is read and written at once, within the limits. -/
def ClientRequest.onMap (config : MemoryControllerConfig) (text : TextLibrary)
    (describe : List UInt8 → String) (request : ClientRequest) (entries : MemoryMap) :
    KelvinResult ClientAnswer × MemoryMap :=
  match request.call with
  | .upsert key value =>
    let limit := usizeOrMax request.cfg.maxBytes
    if limit < value.length then
      (.error (.invalidInput s!"upsert payload {value.length} exceeds limit {limit}"), entries)
    else (.ok .stored, entries.insert key value)
  | .search query opts =>
    let hits := ((searchHits text query entries).insertionSort hitLe).take
      (ClientCall.maxResults request.cfg opts)
    ((refuseAnswer config request.cfg (hitBytes hits)).map fun _ =>
      .found (hits.map mapSearchHit), entries)
  | .readFile params =>
    let value := entries.lookup params.relPath
    (do
      refuseAnswer config request.cfg ((value.map List.length).getD 0)
      let text ← responseText describe ⟨value.isSome, value.getD []⟩
      return .text ⟨text, params.relPath⟩, entries)
  | .sync => (.ok .synced, entries)

/-! ### Calls that are served -/

/-- The keys of the signer and of the controller belong together: a token is verified with the
claims it was minted for, for its issuer and its audience, while it is valid. -/
def TokensVerify (mintToken : DelegationTokenSigner) (decode : TokenDecoder) : Prop :=
  ∀ claims token, mintToken claims = .ok token → ∀ validation now,
    validation.iss = claims.iss → validation.aud = claims.aud →
    claims.nbf ≤ now + validation.leeway → now - validation.leeway ≤ claims.exp →
      decode validation now token = .ok claims

def moduleOperation : MemoryOperation → ModuleOperation
  | .upsert => .upsert
  | .query => .query
  | .read => .read
  | .delete => .delete
  | .health => .health

/-- The module of the client is loaded, may do what is asked, and does it. -/
def ModuleRuns (config : MemoryControllerConfig) (request : ClientRequest) : Prop :=
  ∃ loaded, request.env.modules.find? (·.moduleId = request.cfg.moduleId) = some loaded ∧
    (∀ capability ∈ allowedCapabilities request.call.operation,
      capability ∈ loaded.capabilities) ∧
    loaded.execute (moduleOperation request.call.operation)
      (min request.cfg.timeoutMs config.defaultTimeoutMs) config.defaultFuel = .ok ()

/-- The client is configured for the controller, its token is signed and arrives in time, and its
module runs. -/
structure Served (config : MemoryControllerConfig) (mintToken : DelegationTokenSigner)
    (request : ClientRequest) : Prop where
  issuer : request.cfg.issuer = config.issuer
  audience : request.cfg.audience = config.audience
  id_filled : trim request.requestId ≠ ""
  id_short : request.requestId.utf8ByteSize ≤ maxRequestIdLength
  signed : ∃ token, mintToken request.claims = .ok token
  early : request.claims.nbf ≤ request.env.verifiedAt + config.clockSkewSecs
  late : request.env.verifiedAt - config.clockSkewSecs ≤ request.claims.exp
  module : ModuleRuns config request

def ClientRequest.event (request : ClientRequest) (token : String) : Event :=
  ⟨request.call.request request.cfg ⟨token, request.requestId, request.cfg.tenantId,
    request.cfg.workspaceId, request.cfg.sessionId, request.cfg.moduleId⟩, request.env⟩

def ClientRequest.validated (request : ClientRequest) : ValidatedContext :=
  ⟨request.requestId, request.cfg.moduleId, request.claims⟩

section Serving

variable {ctx : ControllerContext MemoryMap} {text : TextLibrary}
  {mintToken : DelegationTokenSigner} {describe : List UInt8 → String}
  {request other : ClientRequest} {state : ControllerState MemoryMap} {token : String}

theorem perform_of_signed (signed : mintToken request.claims = .ok token) :
    request.perform mintToken describe ctx state =
      ((handle ctx (request.event token) state).1.mapError mapStatus >>=
        request.call.answer describe, (handle ctx (request.event token) state).2) := by
  rw [ClientRequest.claims] at signed
  simp only [ClientRequest.perform, MemoryClientConfig.buildContext, signed, bind, Except.bind,
    pure, Except.pure]
  rfl

theorem requestId_of_jti (same : request.claims.jti = other.claims.jti) :
    request.requestId = other.requestId := by
  have letters := congrArg String.toList same
  simp only [ClientRequest.claims, MemoryClientConfig.claims, String.toList_append] at letters
  rw [← String.toList_inj]
  cases first : request.call.operation <;> cases second : other.call.operation <;>
    simp [first, second, MemoryOperation.asStr] at letters
  all_goals exact letters

theorem handler_event (ctx : ControllerContext MemoryMap) (request : ClientRequest)
    (token : String) :
    let handler := (request.event token).request.handler ctx
    handler.context = some ⟨token, request.requestId, request.cfg.tenantId,
        request.cfg.workspaceId, request.cfg.sessionId, request.cfg.moduleId⟩ ∧
      handler.operation = request.call.operation ∧
      handler.moduleOperation = moduleOperation request.call.operation ∧
      allowedCapabilities request.call.operation = [handler.capability] := by
  unfold ClientRequest.event
  cases request.call <;> exact ⟨rfl, rfl, rfl, rfl⟩

theorem checkContext_of_served (verify : TokensVerify mintToken ctx.decode)
    (served : Served ctx.config mintToken request)
    (signed : mintToken request.claims = .ok token) :
    checkContext ctx.config ctx.decode request.env.verifiedAt
        ((request.event token).request.handler ctx).context
        ((request.event token).request.handler ctx).operation = .ok request.validated := by
  obtain ⟨context, operation, -, -⟩ := handler_event ctx request token
  have verified := verify _ _ signed
    ⟨ctx.config.clockSkewSecs, true, ctx.config.issuer, ctx.config.audience⟩
    request.env.verifiedAt served.issuer.symm served.audience.symm served.early served.late
  have allowed : request.claims.allowsOperation request.call.operation = true := by
    simp [DelegationClaims.allowsOperation, ClientRequest.claims, MemoryClientConfig.claims]
  have same : ¬ (request.cfg.tenantId ≠ request.claims.tenantId ∨
      request.cfg.workspaceId ≠ request.claims.workspaceId ∨
      request.cfg.sessionId ≠ request.claims.sessionId ∨
      request.cfg.moduleId ≠ request.claims.moduleId) := by
    simp [ClientRequest.claims, MemoryClientConfig.claims]
  rw [context, operation, checkContext]
  simp only [refuseIf, served.id_filled, Nat.not_lt.mpr served.id_short, verifyDelegationToken,
    verified, allowed, same, Bool.true_eq_false, if_false, bind, Except.bind, pure, Except.pure]
  rfl

/-- A call whose token id the replay cache does not hold is authorized. -/
theorem authorize_of_served (verify : TokensVerify mintToken ctx.decode)
    (served : Served ctx.config mintToken request)
    (signed : mintToken request.claims = .ok token) (cache : ReplayCache)
    (fresh : cache request.claims.jti = none) :
    ∃ after, authorize ctx (request.event token) cache = (.ok request.validated, after) ∧
      ∀ jti, jti ≠ request.claims.jti → cache jti = none → after jti = none := by
  have checked := checkContext_of_served verify served signed
  have free : cache.prune request.env.prunedAt request.claims.jti = none := by
    rw [ExpiringSet.prune, fresh]
    rfl
  refine ⟨Function.update (cache.prune request.env.prunedAt) request.claims.jti
    (some (replayExp ctx.config request.env.checkedAt request.claims)), ?_, ?_⟩
  · have env : (request.event token).env = request.env := rfl
    simp only [authorize, validateContext, env, checked, ReplayCache.insertOrReject,
      ExpiringSet.insertOrReject, ClientRequest.validated, free, Option.isSome_none,
      Bool.false_eq_true, if_false]
    rfl
  · intro jti differ absent
    rw [Function.update_of_ne differ, ExpiringSet.prune, absent]
    rfl

theorem prepare_of_served (served : Served ctx.config mintToken request)
    (store : ctx.provider = some (inMemoryProvider text)) (token : String) :
    prepare ctx ((request.event token).request.handler ctx) request.env request.validated =
      (((request.event token).request.handler ctx).precheck request.claims).map
        fun _ => inMemoryProvider text := by
  obtain ⟨-, -, operation, capability⟩ := handler_event ctx request token
  obtain ⟨loaded, found, capable, runs⟩ := served.module
  rw [capability] at capable
  have allowed := List.forall_mem_singleton.mp capable
  have claimed : ((request.event token).request.handler ctx).capability ∈
      request.claims.allowedCapabilities := by
    simp [ClientRequest.claims, MemoryClientConfig.claims, capability]
  have ran : runModule ctx.config request.env request.cfg.moduleId
      ((request.event token).request.handler ctx).moduleOperation request.claims
      ((request.event token).request.handler ctx).capability = .ok () := by
    simp only [runModule, operation, found, refuseIf, allowed, claimed, not_true_eq_false,
      if_false, bind, Except.bind]
    exact runs
  have primary : ctx.primary = .ok (inMemoryProvider text) := by
    simp only [ControllerContext.primary, store]
  simp only [prepare, ClientRequest.validated, ran, primary]
  cases ((request.event token).request.handler ctx).precheck request.claims <;> rfl

theorem execute_of_served (served : Served ctx.config mintToken request)
    (store : ctx.provider = some (inMemoryProvider text)) (describe : List UInt8 → String)
    (token : String) (entries : MemoryMap) :
    (((execute ctx ((request.event token).request.handler ctx) request.env request.validated
        entries).1.mapError fun err => mapStatus (toStatus err)) >>= request.call.answer describe,
      (execute ctx ((request.event token).request.handler ctx) request.env request.validated
        entries).2) = request.onMap ctx.config text describe entries := by
  rw [execute, prepare_of_served served store token, ClientRequest.onMap]
  simp only [ClientRequest.event]
  have limit : hardLimit ctx.config request.validated.claims =
    answerLimit ctx.config request.cfg := rfl
  cases call : request.call with
  | upsert key value =>
    have maxBytes : request.claims.requestLimits.maxBytes = request.cfg.maxBytes := rfl
    simp only [ClientCall.request, MemoryRequest.handler, upsert, refuseIf, maxBytes]
    by_cases long : usizeOrMax request.cfg.maxBytes < value.length
    · simp only [long, if_true]
      rfl
    · simp only [long, if_false]
      rfl
  | search asked opts =>
    have within : ClientCall.maxResults request.cfg opts ≤
        request.claims.requestLimits.maxResults := min_le_right _ _
    simp only [ClientCall.request, MemoryRequest.handler, query, refuseIf, Nat.not_lt.mpr within,
      if_false, Except.map, inMemoryProvider, andThen, enforceResponseSize, limit, refuseAnswer]
    generalize ((searchHits text asked entries).insertionSort hitLe).take
      (ClientCall.maxResults request.cfg opts) = hits
    by_cases long : answerLimit ctx.config request.cfg < hitBytes hits
    · simp only [bind, Except.bind, long, if_true]
      rfl
    · simp only [bind, Except.bind, long, if_false]
      rfl
  | readFile params =>
    simp only [ClientCall.request, MemoryRequest.handler, read, Except.map,
      inMemoryProvider, andThen, enforceResponseSize, limit, refuseAnswer, refuseIf]
    generalize entries.lookup params.relPath = value
    by_cases long : answerLimit ctx.config request.cfg < (value.map List.length).getD 0
    · simp only [bind, Except.bind, long, if_true]
      rfl
    · simp only [bind, Except.bind, long, if_false]
      rfl
  | sync => rfl

/-- The state of a controller and the map that it stands for, before some calls: nothing that
their clients have chosen is known yet. -/
structure StandsFor (ctx : ControllerContext MemoryMap) (mintToken : DelegationTokenSigner)
    (requests : List ClientRequest) (state : ControllerState MemoryMap) (entries : MemoryMap) :
    Prop where
  provider : state.provider = entries
  fresh : ∀ request ∈ requests, state.idempotency request.requestId = none ∧
    state.replayCache request.claims.jti = none
  distinct : (requests.map (·.requestId)).Nodup
  served : ∀ request ∈ requests, Served ctx.config mintToken request

/-- **One call.** It is answered as by the map, and the state stands for what becomes of it. -/
theorem standsFor_perform {requests : List ClientRequest} {entries : MemoryMap}
    (verify : TokensVerify mintToken ctx.decode)
    (store : ctx.provider = some (inMemoryProvider text))
    (stands : StandsFor ctx mintToken (request :: requests) state entries) :
    (request.perform mintToken describe ctx state).1 =
        (request.onMap ctx.config text describe entries).1 ∧
      StandsFor ctx mintToken requests (request.perform mintToken describe ctx state).2
        (request.onMap ctx.config text describe entries).2 := by
  obtain ⟨provider, fresh, distinct, all⟩ := stands
  obtain ⟨⟨unknown, unused⟩, freshLater⟩ := List.forall_mem_cons.mp fresh
  obtain ⟨served, servedLater⟩ := List.forall_mem_cons.mp all
  obtain ⟨others, distinct⟩ := List.nodup_cons.mp distinct
  obtain ⟨token, signed⟩ := served.signed
  obtain ⟨cache, authorized, keeps⟩ := authorize_of_served verify served signed _ unused
  obtain ⟨answered, left⟩ := handle_of_authorized authorized
  have replayed : (handle ctx (request.event token) state).2.replayCache = cache := by
    rw [replayCache_handle, authorized]
  have executed := execute_of_served served store describe token entries
  have missed : checkCached state.idempotency request.validated.requestId
      ((request.event token).request.handler ctx).operation = none := by
    rw [ClientRequest.validated, checkCached, unknown]
    rfl
  have env : (request.event token).env = request.env := rfl
  rw [perform_of_signed signed]
  simp only [serveAuthorized_eq, missed, env, provider] at answered left
  generalize execute ctx ((request.event token).request.handler ctx) request.env
    request.validated entries = outcome at executed answered left
  generalize handle ctx (request.event token) state = handled at replayed answered left ⊢
  rw [← executed]
  have freshCache (other : ClientRequest) (member : other ∈ requests) :
      handled.2.replayCache other.claims.jti = none := by
    rw [replayed]
    refine keeps _ (fun same => others ?_) (freshLater other member).2
    exact List.mem_map.mpr ⟨other, member, requestId_of_jti same⟩
  obtain ⟨_ | response, after⟩ := outcome
  · obtain ⟨idempotency, provided⟩ := Prod.mk.inj left
    refine ⟨by rw [answered]; rfl, provided, fun other member => ⟨?_, freshCache other member⟩,
      distinct, servedLater⟩
    rw [idempotency]
    exact (freshLater other member).1
  · obtain ⟨idempotency, provided⟩ := Prod.mk.inj left
    refine ⟨by rw [answered]; rfl, provided, fun other member => ⟨?_, freshCache other member⟩,
      distinct, servedLater⟩
    have differ : other.requestId ≠ request.requestId :=
      fun same => others (List.mem_map.mpr ⟨other, member, same⟩)
    rw [idempotency, cacheResponse]
    exact (Function.update_of_ne differ ..).trans (freshLater other member).1

/-- **One map.** Any number of clients call one new controller over the in-memory provider, in any
order, with request ids that differ. Then every call is answered as by a map that all of them
share: no call is refused or answered for another one. -/
theorem clients_share_map (config : MemoryControllerConfig) (decode : TokenDecoder)
    (features : List String) (text : TextLibrary) (mintToken : DelegationTokenSigner)
    (describe : List UInt8 → String) (requests : List ClientRequest)
    (verify : TokensVerify mintToken decode)
    (served : ∀ request ∈ requests, Served config mintToken request)
    (distinct : (requests.map (·.requestId)).Nodup) :
    outputs (fun request => request.perform mintToken describe
        (.withDefaultInMemory config decode features text)) (.start []) requests =
      outputs (fun request => request.onMap config text describe) [] requests := by
  apply outputs_eq_of_simulation
    (StandsFor (.withDefaultInMemory config decode features text) mintToken)
  · intro request rest state entries stands
    exact standsFor_perform verify rfl stands
  · exact ⟨rfl, fun _ _ => ⟨rfl, rfl⟩, distinct, served⟩

end Serving

/-! ### Two clients -/

def knownTokens (known : List (String × DelegationClaims)) : DelegationTokenSigner := fun claims =>
  if known.lookup claims.jti = some claims then .ok claims.jti else .error (.backend "no signature")

theorem tokensVerify_known (known : List (String × DelegationClaims)) :
    TokensVerify (knownTokens known) (issuedTokens known) := by
  intro claims token minted validation now iss aud early late
  unfold knownTokens at minted
  split_ifs at minted with found
  obtain rfl := Except.ok.inj minted
  simp only [issuedTokens, found, Nat.not_lt.mpr late, Nat.not_lt.mpr early, and_false, iss, aud,
    if_false, ne_eq, not_true_eq_false]

/-- One client writes a text, another one reads it two seconds later. -/
def twoCalls : List ClientRequest :=
  [⟨.default, .upsert memoryFile [104, 105], "req-1", 1735689600, echoAt 1735689600⟩,
    ⟨{ MemoryClientConfig.default with tenantId := "tenant-b" },
      .readFile ⟨memoryFile, none, none⟩, "req-2", 1735689602, echoAt 1735689602⟩]

def twoTokens : List (String × DelegationClaims) :=
  twoCalls.map fun request => (request.claims.jti, request.claims)

theorem second_client_reads_first :
    (outputs (fun request => request.perform (knownTokens twoTokens) (fun _ => "")
        (.withDefaultInMemory .default (issuedTokens twoTokens) [] asciiText)) (.start [])
          twoCalls).map Prod.snd =
      [.ok .stored, .ok (.text ⟨"hi", memoryFile⟩)] := by
  have served : ∀ request ∈ twoCalls, Served .default (knownTokens twoTokens) request := by
    refine List.forall_mem_cons.mpr ⟨?_, List.forall_mem_singleton.mpr ?_⟩
    all_goals
      exact ⟨rfl, rfl, by decide +kernel, by decide +kernel, ⟨_, rfl⟩, by decide, by decide,
        echoModule, rfl, by decide, rfl⟩
  rw [clients_share_map .default (issuedTokens twoTokens) [] asciiText (knownTokens twoTokens)
    (fun _ => "") twoCalls (tokensVerify_known twoTokens) served (by decide)]
  decide +kernel

end KelvinClaw.Memory
