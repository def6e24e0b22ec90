import KelvinClaw.Library.ExpiringSet
import KelvinClaw.Memory.Provider

/-!
# The memory controller

Every request of the memory service is authorized by its delegation token, looked up in
the idempotency cache under its request id, and otherwise executed: the WASM module of the
request runs, then the provider. The five handlers differ in their operation, in what they
check before the module runs, and in what they ask of the provider.

The token library, the modules and the primary provider are parameters. The clock readings
of a request and the modules that are loaded when it runs come with the request.
-/

namespace KelvinClaw.Memory

open KelvinClaw.Core Systems

/-! ### Configuration -/

structure MemoryControllerConfig where
  issuer : String
  audience : String
  clockSkewSecs : ℕ
  maxModuleBytes : ℕ
  maxMemoryPages : ℕ
  defaultFuel : ℕ
  defaultTimeoutMs : ℕ
  defaultMaxResponseBytes : ℕ
  replayWindowSecs : ℕ
  deriving DecidableEq, Repr

def maxClockSkewSecs : ℕ := 300

def maxReplayWindowSecs : ℕ := 3600

def maxRequestIdLength : ℕ := 256

def MemoryControllerConfig.default : MemoryControllerConfig where
  issuer := "kelvin-root"
  audience := "kelvin-memory-controller"
  clockSkewSecs := 30
  maxModuleBytes := 2 * 1024 * 1024
  maxMemoryPages := 64
  defaultFuel := 100000
  defaultTimeoutMs := 2000
  defaultMaxResponseBytes := 1024 * 1024
  replayWindowSecs := 120

def validateNonEmpty (label value : String) : KelvinResult Unit :=
  refuseIf (trim value = "") (.invalidInput (label ++ " must not be empty"))

def MemoryControllerConfig.validate (config : MemoryControllerConfig) : KelvinResult Unit := do
  validateNonEmpty "memory issuer" config.issuer
  validateNonEmpty "memory audience" config.audience
  refuseIf (maxClockSkewSecs < config.clockSkewSecs)
    (.invalidInput "memory clock skew must be <= 300 seconds")
  refuseIf (config.maxModuleBytes = 0) (.invalidInput "memory max module bytes must be > 0")
  refuseIf (config.maxMemoryPages = 0) (.invalidInput "memory max memory pages must be > 0")
  refuseIf (config.defaultFuel = 0) (.invalidInput "memory default fuel must be > 0")
  refuseIf (config.defaultTimeoutMs = 0) (.invalidInput "memory default timeout must be > 0")
  refuseIf (config.defaultMaxResponseBytes = 0)
    (.invalidInput "memory max response bytes must be > 0")
  refuseIf (maxReplayWindowSecs < config.replayWindowSecs)
    (.invalidInput "memory replay window must be <= 3600 seconds")

/-- `usize::try_from(value).unwrap_or(usize::MAX)`. -/
def usizeOrMax (value : ℕ) : ℕ := if value ≤ usizeMax then value else usizeMax

/-! ### The surroundings of a request -/

inductive ModuleOperation where
  | upsert
  | query
  | read
  | delete
  | health
  deriving DecidableEq, Repr

/-- A loaded module: the capabilities of its manifest, and the outcome of running the export
of an operation with a timeout and fuel. -/
structure LoadedMemoryModule where
  moduleId : String
  capabilities : List String
  execute : ModuleOperation → ℕ → ℕ → KelvinResult Unit

/-- What a request meets: the clock readings of the token library, of the computation of the
replay expiry and of the replay cache, and the modules that are loaded. -/
structure Environment where
  verifiedAt : ℕ
  checkedAt : ℕ
  prunedAt : ℕ
  modules : List LoadedMemoryModule

/-- `loaded_modules`. -/
def Environment.loadedModules (env : Environment) : List String :=
  (env.modules.map (·.moduleId)).insertionSort (· ≤ ·)

/-- What does not change while a controller lives. -/
structure ControllerContext (π : Type) where
  config : MemoryControllerConfig
  decode : TokenDecoder
  provider : Option (MemoryProvider π)
  availableFeatures : List String

/-! ### Authorization -/

/-- The replay cache: the time until which each token id is remembered. -/
abbrev ReplayCache := ExpiringSet String ℕ

def ReplayCache.insertOrReject (cache : ReplayCache) (now : ℕ) (jti : String) (exp : ℕ) :
    KelvinResult Unit × ReplayCache :=
  match ExpiringSet.insertOrReject cache ⟨jti, exp, now⟩ with
  | (true, cache) => (.ok (), cache)
  | (false, cache) =>
    (.error (.invalidInput s!"replayed delegation token jti '{jti}'"), cache)

structure ValidatedContext where
  requestId : String
  moduleId : String
  claims : DelegationClaims
  deriving DecidableEq, Repr

/-- The checks of `validate_context` up to the replay cache. -/
def checkContext (config : MemoryControllerConfig) (decode : TokenDecoder) (now : ℕ)
    (context : Option RequestContext) (operation : MemoryOperation) :
    KelvinResult ValidatedContext :=
  match context with
  | none => .error (.invalidInput "request context is required for memory rpc")
  | some context => do
    refuseIf (trim context.requestId = "") (.invalidInput "request_id must not be empty")
    refuseIf (maxRequestIdLength < context.requestId.utf8ByteSize)
      (.invalidInput "request_id exceeds 256 chars")
    let claims ← match verifyDelegationToken decode now context.delegationToken config.issuer
        config.audience config.clockSkewSecs with
      | .ok claims => pure claims
      | .error err => .error (.invalidInput ("delegation token rejected: " ++ err.toString))
    refuseIf (claims.allowsOperation operation = false)
      (.invalidInput s!"delegation token does not allow operation '{operation.asStr}'")
    refuseIf (context.tenantId ≠ claims.tenantId ∨ context.workspaceId ≠ claims.workspaceId ∨
        context.sessionId ≠ claims.sessionId ∨ context.moduleId ≠ claims.moduleId)
      (.invalidInput "request context does not match delegation claims")
    return ⟨context.requestId, context.moduleId, claims⟩

/-- The time until which an accepted token id is remembered. -/
def replayExp (config : MemoryControllerConfig) (now : ℕ) (claims : DelegationClaims) : ℕ :=
  if config.replayWindowSecs = 0 then claims.exp
  else min claims.exp (saturatingAdd usizeMax now config.replayWindowSecs)

def validateContext (config : MemoryControllerConfig) (decode : TokenDecoder) (env : Environment)
    (context : Option RequestContext) (operation : MemoryOperation) (cache : ReplayCache) :
    KelvinResult ValidatedContext × ReplayCache :=
  match checkContext config decode env.verifiedAt context operation with
  | .error err => (.error err, cache)
  | .ok validated =>
    let (inserted, cache) := cache.insertOrReject env.prunedAt validated.claims.jti
      (replayExp config env.checkedAt validated.claims)
    (inserted.map fun _ => validated, cache)

/-! ### Modules, limits and the cache -/

def runModule (config : MemoryControllerConfig) (env : Environment) (moduleId : String)
    (operation : ModuleOperation) (claims : DelegationClaims) (requiredCapability : String) :
    KelvinResult Unit := do
  refuseIf (requiredCapability ∉ claims.allowedCapabilities)
    (.invalidInput s!"delegation token missing capability '{requiredCapability}'")
  match env.modules.find? fun loaded => loaded.moduleId = moduleId with
  | none => .error (.notFound ("memory module not found: " ++ moduleId))
  | some loaded => do
    refuseIf (requiredCapability ∉ loaded.capabilities)
      (.invalidInput s!"module '{moduleId}' missing required capability '{requiredCapability}'")
    loaded.execute operation (min claims.requestLimits.timeoutMs config.defaultTimeoutMs)
      config.defaultFuel

def hardLimit (config : MemoryControllerConfig) (claims : DelegationClaims) : ℕ :=
  min config.defaultMaxResponseBytes (usizeOrMax claims.requestLimits.maxBytes)

def enforceResponseSize (config : MemoryControllerConfig) (dataLen : ℕ)
    (claims : DelegationClaims) : KelvinResult Unit :=
  refuseIf (hardLimit config claims < dataLen)
    (.invalidInput
      s!"response payload {dataLen} bytes exceeds limit {hardLimit config claims}")

abbrev IdempotencyCache := String → Option CachedResponse

/-- `check_cached` with the filter of a handler, which takes the responses of its operation. -/
def checkCached (cache : IdempotencyCache) (requestId : String) (operation : MemoryOperation) :
    Option CachedResponse :=
  (cache requestId).filter (·.operation = operation)

def cacheResponse (cache : IdempotencyCache) (requestId : String) (response : CachedResponse) :
    IdempotencyCache :=
  Function.update cache requestId (some response)

/-- A controller over `ProviderRegistry::with_default_in_memory`. -/
def ControllerContext.withDefaultInMemory (config : MemoryControllerConfig)
    (decode : TokenDecoder) (availableFeatures : List String) (text : TextLibrary) :
    ControllerContext MemoryMap :=
  ⟨config, decode, some (inMemoryProvider text), availableFeatures⟩

/-- `providers.primary()`. -/
def ControllerContext.primary {π : Type} (ctx : ControllerContext π) :
    KelvinResult (MemoryProvider π) :=
  match ctx.provider with
  | some provider => .ok provider
  | none => .error (.invalidInput "no memory providers registered")

/-! ### The five handlers -/

/-- What tells the handlers apart: the operation, the checks before the module runs, and the
call of the provider with what is made of its result. -/
structure Handler (π : Type) where
  context : Option RequestContext
  operation : MemoryOperation
  moduleOperation : ModuleOperation
  capability : String
  precheck : DelegationClaims → KelvinResult Unit
  call : Environment → DelegationClaims → MemoryProvider π → π → KelvinResult CachedResponse × π

section Handlers

variable {π : Type} (ctx : ControllerContext π)

def andThen {α β : Type} (outcome : KelvinResult α × π) (next : α → KelvinResult β) :
    KelvinResult β × π :=
  (outcome.1 >>= next, outcome.2)

def upsert (request : UpsertRequest) : Handler π where
  context := request.context
  operation := .upsert
  moduleOperation := .upsert
  capability := "memory_crud"
  precheck claims :=
    let maxBytes := usizeOrMax claims.requestLimits.maxBytes
    refuseIf (maxBytes < request.value.length)
      (.invalidInput s!"upsert payload {request.value.length} exceeds limit {maxBytes}")
  call _ _ provider store :=
    andThen (provider.upsert request.key request.value request.metadata store) fun _ =>
      .ok (.upsert true)

def hitBytes (hits : List SearchHit) : ℕ :=
  (hits.map fun hit => hit.path.utf8ByteSize + hit.snippet.utf8ByteSize).sum

def query (request : QueryRequest) : Handler π where
  context := request.context
  operation := .query
  moduleOperation := .query
  capability := "memory_read"
  precheck claims :=
    refuseIf (claims.requestLimits.maxResults < request.maxResults)
      (.invalidInput
        s!"max_results {request.maxResults} exceeds limit {claims.requestLimits.maxResults}")
  call _ claims provider store :=
    andThen (provider.query request.query request.maxResults store) fun hits => do
      enforceResponseSize ctx.config (hitBytes hits) claims
      return .query hits

def read (request : ReadRequest) : Handler π where
  context := request.context
  operation := .read
  moduleOperation := .read
  capability := "memory_read"
  precheck _ := .ok ()
  call _ claims provider store :=
    andThen (provider.read request.key store) fun value => do
      enforceResponseSize ctx.config ((value.map List.length).getD 0) claims
      return .read value.isSome (value.getD [])

def delete (request : DeleteRequest) : Handler π where
  context := request.context
  operation := .delete
  moduleOperation := .delete
  capability := "memory_crud"
  precheck _ := .ok ()
  call _ _ provider store :=
    andThen (provider.delete request.key store) fun deleted => .ok (.delete deleted)

def health (request : HealthRequest) : Handler π where
  context := request.context
  operation := .health
  moduleOperation := .health
  capability := "memory_health"
  precheck _ := .ok ()
  call env _ provider store :=
    andThen (provider.health store) fun healthy =>
      .ok (.health ⟨healthy, provider.id, ctx.availableFeatures, env.loadedModules⟩)

end Handlers

/-- A request of the memory service. -/
inductive MemoryRequest where
  | upsert (request : UpsertRequest)
  | query (request : QueryRequest)
  | read (request : ReadRequest)
  | delete (request : DeleteRequest)
  | health (request : HealthRequest)
  deriving DecidableEq, Repr

def MemoryRequest.handler {π : Type} (ctx : ControllerContext π) : MemoryRequest → Handler π
  | .upsert request => Memory.upsert request
  | .query request => Memory.query ctx request
  | .read request => Memory.read ctx request
  | .delete request => Memory.delete request
  | .health request => Memory.health ctx request

/-! ### Serving a request -/

/-- The status codes that errors are mapped to. -/
inductive StatusCode where
  | invalidArgument
  | notFound
  | deadlineExceeded
  | unavailable
  | internal
  deriving DecidableEq, Repr

structure Status where
  code : StatusCode
  message : String
  deriving DecidableEq, Repr

def toStatus : KelvinError → Status
  | .invalidInput message => ⟨.invalidArgument, message⟩
  | .notFound message => ⟨.notFound, message⟩
  | .timeout message => ⟨.deadlineExceeded, message⟩
  | .backend message => ⟨.unavailable, message⟩
  | .io message => ⟨.internal, message⟩

/-- The state of a controller: the replay cache, the responses by request id, and the state
of the provider. -/
structure ControllerState (π : Type) where
  replayCache : ReplayCache
  idempotency : IdempotencyCache
  provider : π

def ControllerState.start {π : Type} (provider : π) : ControllerState π :=
  ⟨fun _ => none, fun _ => none, provider⟩

/-- A request with what it meets. -/
structure Event where
  request : MemoryRequest
  env : Environment

section Serving

variable {π : Type} (ctx : ControllerContext π)

/-- What happens before the provider is called: the checks of the handler, the module, and
the choice of the provider. -/
def prepare (handler : Handler π) (env : Environment) (validated : ValidatedContext) :
    KelvinResult (MemoryProvider π) := do
  handler.precheck validated.claims
  runModule ctx.config env validated.moduleId handler.moduleOperation validated.claims
    handler.capability
  ctx.primary

def execute (handler : Handler π) (env : Environment) (validated : ValidatedContext) (store : π) :
    KelvinResult CachedResponse × π :=
  match prepare ctx handler env validated with
  | .error err => (.error err, store)
  | .ok provider => handler.call env validated.claims provider store

/-- A request after its authorization: the cached response, or the response of the execution,
which is cached when it is one. -/
def serve (event : Event) (validated : ValidatedContext) (state : ControllerState π) :
    KelvinResult CachedResponse × ControllerState π :=
  let handler := event.request.handler ctx
  match checkCached state.idempotency validated.requestId handler.operation with
  | some cached => (.ok cached, state)
  | none =>
    match execute ctx handler event.env validated state.provider with
    | (.ok response, store) =>
      (.ok response, { state with
        idempotency := cacheResponse state.idempotency validated.requestId response
        provider := store })
    | (.error err, store) => (.error err, { state with provider := store })

def authorize (event : Event) (cache : ReplayCache) :
    KelvinResult ValidatedContext × ReplayCache :=
  let handler := event.request.handler ctx
  validateContext ctx.config ctx.decode event.env handler.context handler.operation cache

def handle (event : Event) (state : ControllerState π) :
    Except Status CachedResponse × ControllerState π :=
  match authorize ctx event state.replayCache with
  | (.error err, cache) => (.error (toStatus err), { state with replayCache := cache })
  | (.ok validated, cache) =>
    let (result, state) := serve ctx event validated { state with replayCache := cache }
    (result.mapError toStatus, state)

/-- A request of a run, with the state before it. -/
structure Exchange (π : Type) where
  event : Event
  before : ControllerState π

namespace Exchange

variable {ctx} (exchange : Exchange π)

def authorized (ctx : ControllerContext π) : Option ValidatedContext :=
  (authorize ctx exchange.event exchange.before.replayCache).1.toOption

def answer (ctx : ControllerContext π) : Except Status CachedResponse :=
  (handle ctx exchange.event exchange.before).1

end Exchange

def exchanges : ControllerState π → List Event → List (Exchange π)
  | _, [] => []
  | state, event :: rest => ⟨event, state⟩ :: exchanges (handle ctx event state).2 rest

variable {ctx}

theorem serve_of_cached {event : Event} {validated : ValidatedContext}
    (state : ControllerState π) {cached : CachedResponse}
    (found : checkCached state.idempotency validated.requestId
      (event.request.handler ctx).operation = some cached) :
    serve ctx event validated state = (.ok cached, state) := by
  simp only [serve, found]

/-- A request that is not found and whose execution succeeds is cached. -/
theorem serve_of_executed {event : Event} {validated : ValidatedContext}
    (state : ControllerState π) {response : CachedResponse} {store : π}
    (missed : checkCached state.idempotency validated.requestId
      (event.request.handler ctx).operation = none)
    (executed : execute ctx (event.request.handler ctx) event.env validated state.provider =
      (.ok response, store)) :
    serve ctx event validated state = (.ok response,
      ⟨state.replayCache, cacheResponse state.idempotency validated.requestId response,
        store⟩) := by
  simp only [serve, missed, executed]

theorem serve_of_failed {event : Event} {validated : ValidatedContext}
    (state : ControllerState π) {err : KelvinError} {store : π}
    (missed : checkCached state.idempotency validated.requestId
      (event.request.handler ctx).operation = none)
    (failed : execute ctx (event.request.handler ctx) event.env validated state.provider =
      (.error err, store)) :
    serve ctx event validated state = (.error err, { state with provider := store }) := by
  simp only [serve, missed, failed]

theorem checked_of_prepare {handler : Handler π} {env : Environment}
    {validated : ValidatedContext} {provider : MemoryProvider π}
    (prepared : prepare ctx handler env validated = .ok provider) :
    handler.precheck validated.claims = .ok () ∧
      handler.capability ∈ validated.claims.allowedCapabilities ∧
      ctx.provider = some provider := by
  obtain ⟨checked, ran⟩ := bind_unit_eq_ok.mp prepared
  obtain ⟨ran, primary⟩ := bind_unit_eq_ok.mp ran
  refine ⟨checked, ?_, ?_⟩
  · have capable := (bind_unit_eq_ok.mp ran).1
    exact not_not.mp (refuseIf_eq_ok.mp capable)
  · unfold ControllerContext.primary at primary
    split at primary
    · rename_i found
      rw [found, Except.ok.inj primary]
    · cases primary

theorem prepared_of_execute {handler : Handler π} {env : Environment}
    {validated : ValidatedContext} {store after : π} {response : CachedResponse}
    (executed : execute ctx handler env validated store = (.ok response, after)) :
    ∃ provider, prepare ctx handler env validated = .ok provider ∧
      handler.call env validated.claims provider store = (.ok response, after) := by
  unfold execute at executed
  split at executed
  · cases executed
  · rename_i provider prepared
    exact ⟨provider, prepared, executed⟩

theorem andThen_eq_ok {α β : Type} {outcome : KelvinResult α × π} {next : α → KelvinResult β}
    {result : β} {after : π} (succeeded : andThen outcome next = (.ok result, after)) :
    ∃ a, outcome = (.ok a, after) ∧ next a = .ok result := by
  obtain ⟨ran, rfl⟩ := Prod.mk.inj succeeded
  obtain ⟨a, first, second⟩ := bind_eq_ok.mp ran
  exact ⟨a, Prod.ext first rfl, second⟩

theorem operation_of_execute {request : MemoryRequest} {env : Environment}
    {validated : ValidatedContext} {store after : π} {response : CachedResponse}
    (executed : execute ctx (request.handler ctx) env validated store = (.ok response, after)) :
    response.operation = (request.handler ctx).operation := by
  obtain ⟨provider, -, called⟩ := prepared_of_execute executed
  cases request with
  | upsert request =>
    obtain ⟨stored, -, answered⟩ := andThen_eq_ok called
    obtain rfl := Except.ok.inj answered
    rfl
  | query request =>
    obtain ⟨hits, -, answered⟩ := andThen_eq_ok called
    obtain rfl := pure_eq_ok.mp (bind_unit_eq_ok.mp answered).2
    rfl
  | read request =>
    obtain ⟨value, -, answered⟩ := andThen_eq_ok called
    obtain rfl := pure_eq_ok.mp (bind_unit_eq_ok.mp answered).2
    rfl
  | delete request =>
    obtain ⟨deleted, -, answered⟩ := andThen_eq_ok called
    obtain rfl := Except.ok.inj answered
    rfl
  | health request =>
    obtain ⟨healthy, -, answered⟩ := andThen_eq_ok called
    obtain rfl := Except.ok.inj answered
    rfl

theorem replayCache_serve (event : Event) (validated : ValidatedContext)
    (state : ControllerState π) :
    (serve ctx event validated state).2.replayCache = state.replayCache := by
  unfold serve
  dsimp only
  split
  · rfl
  · split <;> rfl

theorem replayCache_handle (event : Event) (state : ControllerState π) :
    (handle ctx event state).2.replayCache = (authorize ctx event state.replayCache).2 := by
  unfold handle
  split
  · rename_i refused
    rw [refused]
  · rename_i authorized
    rw [authorized]
    exact replayCache_serve event _ _

theorem Exchange.answer_eq_serve {exchange : Exchange π} {validated : ValidatedContext}
    (authorized : exchange.authorized ctx = some validated) :
    exchange.answer ctx = (serve ctx exchange.event validated
      { exchange.before with
        replayCache :=
          (authorize ctx exchange.event exchange.before.replayCache).2 }).1.mapError toStatus := by
  unfold Exchange.authorized at authorized
  unfold Exchange.answer handle
  generalize authorize ctx exchange.event exchange.before.replayCache = outcome at authorized ⊢
  obtain ⟨result, cache⟩ := outcome
  cases result with
  | error err => cases authorized
  | ok found =>
    obtain rfl := Option.some_inj.mp authorized
    rfl

end Serving

/-! ### A controller with one module -/

def asciiText : TextLibrary where
  fromUtf8Lossy bytes := String.ofList (bytes.map fun byte => Char.ofNat byte.toNat)
  toLowercase := toAsciiLowercase

def echoModule : LoadedMemoryModule where
  moduleId := "memory.echo"
  capabilities := ["memory_crud", "memory_read", "memory_health"]
  execute _ _ _ := .ok ()

def echoClaims (tenantId jti : String) (allowedOps : List String) : DelegationClaims where
  iss := "kelvin-root"
  sub := "run-1"
  aud := "kelvin-memory-controller"
  jti := jti
  exp := 4102444800
  nbf := 1700000000
  tenantId := tenantId
  workspaceId := "workspace-a"
  sessionId := "session-a"
  moduleId := "memory.echo"
  allowedOps := allowedOps
  allowedCapabilities := ["memory_crud", "memory_read", "memory_health"]
  requestLimits := ⟨300, 1024, 5⟩

def echoRequest (tenantId token requestId : String) : RequestContext :=
  ⟨token, requestId, tenantId, "workspace-a", "session-a", "memory.echo"⟩

def echoController (issued : List (String × DelegationClaims)) : ControllerContext MemoryMap :=
  .withDefaultInMemory .default (issuedTokens issued) [] asciiText

/-- The surroundings of a request that is handled at once. -/
def echoAt (now : ℕ) : Environment := ⟨now, now, now, [echoModule]⟩

end KelvinClaw.Memory
