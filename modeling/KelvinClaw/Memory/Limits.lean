import KelvinClaw.Memory.Idempotency

/-!
# The limits of a token

A token allows capabilities and bounds the bytes and the hits of a response. A request that
is executed passes checks against its own token; a request that is answered from the
idempotency cache passes none, and the texts of a health response are not measured. What is
answered from the cache is what an earlier request found, with the token that it had.
-/

namespace KelvinClaw.Memory

open KelvinClaw.Core

/-! ### Responses and limits -/

def textBytes (texts : List String) : ℕ := (texts.map String.utf8ByteSize).sum

def HealthResponse.bytes (response : HealthResponse) : ℕ :=
  response.provider.utf8ByteSize + textBytes response.enabledFeatures +
    textBytes response.loadedModules

def CachedResponse.size : CachedResponse → ℕ
  | .upsert _ => 0
  | .query hits => hitBytes hits
  | .read _ value => value.length
  | .delete _ => 0
  | .health response => response.bytes

def CachedResponse.hitCount : CachedResponse → ℕ
  | .query hits => hits.length
  | _ => 0

/-- A response respects the limits of a token. -/
structure WithinLimits (config : MemoryControllerConfig) (claims : DelegationClaims)
    (capability : String) (response : CachedResponse) : Prop where
  allowed : capability ∈ claims.allowedCapabilities
  size_le : response.size ≤ min config.defaultMaxResponseBytes claims.requestLimits.maxBytes
  hitCount_le : response.hitCount ≤ claims.requestLimits.maxResults

instance (config : MemoryControllerConfig) (claims : DelegationClaims) (capability : String)
    (response : CachedResponse) : Decidable (WithinLimits config claims capability response) :=
  decidable_of_iff (_ ∧ _ ∧ _) ⟨fun ⟨a, b, c⟩ => ⟨a, b, c⟩, fun ⟨a, b, c⟩ => ⟨a, b, c⟩⟩

def MemoryRequest.held (text : TextLibrary) (features : List String) (env : Environment)
    (store : MemoryMap) : MemoryRequest → ℕ × ℕ
  | .upsert _ | .delete _ => (0, 0)
  | .query request =>
    let hits := ((searchHits text request.query store).insertionSort hitLe).take request.maxResults
    (hitBytes hits, hits.length)
  | .read request => (((store.lookup request.key).getD []).length, 0)
  | .health _ => (HealthResponse.bytes ⟨true, inMemoryProviderId, features, env.loadedModules⟩, 0)

theorem usizeOrMax_le (value : ℕ) : usizeOrMax value ≤ value := by
  unfold usizeOrMax
  split <;> omega

theorem le_of_enforceResponseSize {config : MemoryControllerConfig} {claims : DelegationClaims}
    {size : ℕ} {u : Unit} (passed : enforceResponseSize config size claims = .ok u) :
    size ≤ min config.defaultMaxResponseBytes claims.requestLimits.maxBytes := by
  have fits := Nat.le_of_not_lt (refuseIf_eq_ok.mp passed)
  exact le_min (fits.trans (min_le_left _ _))
    ((fits.trans (min_le_right _ _)).trans (usizeOrMax_le _))

section InMemory

variable {config : MemoryControllerConfig} {decode : TokenDecoder} {features : List String}
  {text : TextLibrary} {env : Environment} {validated : ValidatedContext} {store after : MemoryMap}
  {response : CachedResponse}

def healthResponse (features : List String) (env : Environment) : HealthResponse :=
  ⟨true, inMemoryProviderId, features, env.loadedModules⟩

/-- An execution respects the limits of the token; of a health response only the capability
is checked. -/
theorem withinLimits_of_execute (request : MemoryRequest)
    (executed : execute (.withDefaultInMemory config decode features text)
      (request.handler (.withDefaultInMemory config decode features text)) env validated store =
        (.ok response, after))
    (healthFits : response = .health (healthResponse features env) →
      (healthResponse features env).bytes ≤
        min config.defaultMaxResponseBytes validated.claims.requestLimits.maxBytes) :
    WithinLimits config validated.claims
      (request.handler (.withDefaultInMemory config decode features text)).capability response := by
  obtain ⟨provider, prepared, called⟩ := prepared_of_execute executed
  obtain ⟨checked, allowed, primary⟩ := checked_of_prepare prepared
  obtain rfl : inMemoryProvider text = provider := Option.some_inj.mp primary
  cases request with
  | upsert request =>
    obtain ⟨-, -, answered⟩ := andThen_eq_ok called
    obtain rfl := Except.ok.inj answered
    exact ⟨allowed, Nat.zero_le _, Nat.zero_le _⟩
  | query request =>
    obtain ⟨hits, found, answered⟩ := andThen_eq_ok called
    obtain ⟨measured, answered⟩ := bind_unit_eq_ok.mp answered
    obtain rfl := pure_eq_ok.mp answered
    refine ⟨allowed, le_of_enforceResponseSize measured, ?_⟩
    -- the provider keeps to the number asked for, which the token allows
    have asked := Nat.le_of_not_lt (refuseIf_eq_ok.mp checked)
    exact (length_le_of_query found).trans asked
  | read request =>
    obtain ⟨value, -, answered⟩ := andThen_eq_ok called
    obtain ⟨measured, answered⟩ := bind_unit_eq_ok.mp answered
    obtain rfl := pure_eq_ok.mp answered
    refine ⟨allowed, ?_, Nat.zero_le _⟩
    have fits := le_of_enforceResponseSize measured
    cases value with
    | none => exact Nat.zero_le _
    | some value => exact fits
  | delete request =>
    obtain ⟨deleted, -, answered⟩ := andThen_eq_ok called
    obtain rfl := Except.ok.inj answered
    exact ⟨allowed, Nat.zero_le _, Nat.zero_le _⟩
  | health request =>
    obtain ⟨healthy, found, answered⟩ := andThen_eq_ok called
    obtain rfl : true = healthy := Except.ok.inj (congrArg Prod.fst found)
    obtain rfl := Except.ok.inj answered
    exact ⟨allowed, healthFits rfl, Nat.zero_le _⟩

theorem held_of_execute {request : MemoryRequest}
    (executed : execute (.withDefaultInMemory config decode features text)
      (request.handler (.withDefaultInMemory config decode features text)) env validated store =
        (.ok response, after)) :
    request.held text features env store = (response.size, response.hitCount) := by
  obtain ⟨provider, prepared, called⟩ := prepared_of_execute executed
  obtain ⟨-, -, primary⟩ := checked_of_prepare prepared
  obtain rfl : inMemoryProvider text = provider := Option.some_inj.mp primary
  cases request with
  | upsert request =>
    obtain ⟨-, -, answered⟩ := andThen_eq_ok called
    obtain rfl := Except.ok.inj answered
    rfl
  | query request =>
    obtain ⟨hits, found, answered⟩ := andThen_eq_ok called
    obtain rfl := pure_eq_ok.mp (bind_unit_eq_ok.mp answered).2
    obtain rfl := Except.ok.inj (congrArg Prod.fst found)
    rfl
  | read request =>
    obtain ⟨value, found, answered⟩ := andThen_eq_ok called
    obtain rfl := pure_eq_ok.mp (bind_unit_eq_ok.mp answered).2
    obtain rfl := Except.ok.inj (congrArg Prod.fst found)
    rfl
  | delete request =>
    obtain ⟨deleted, -, answered⟩ := andThen_eq_ok called
    obtain rfl := Except.ok.inj answered
    rfl
  | health request =>
    obtain ⟨healthy, found, answered⟩ := andThen_eq_ok called
    obtain rfl : true = healthy := Except.ok.inj (congrArg Prod.fst found)
    obtain rfl := Except.ok.inj answered
    rfl

theorem execute_health_of_prepare {request : HealthRequest} {provider : MemoryProvider MemoryMap}
    (prepared : prepare (.withDefaultInMemory config decode features text)
      (health (.withDefaultInMemory config decode features text) request) env validated =
        .ok provider) :
    execute (.withDefaultInMemory config decode features text)
      (health (.withDefaultInMemory config decode features text) request) env validated store =
        (.ok (.health (healthResponse features env)), store) := by
  obtain ⟨-, -, primary⟩ := checked_of_prepare prepared
  obtain rfl : inMemoryProvider text = provider := Option.some_inj.mp primary
  simp only [execute, prepared]
  rfl

end InMemory

/-! ### Exchanges -/

section Exchanges

variable {π : Type} (ctx : ControllerContext π) (exchange : Exchange π)

def Exchange.RespectsLimits : Prop :=
  ∀ validated ∈ exchange.authorized ctx, ∀ response ∈ (exchange.answer ctx).toOption,
    WithinLimits ctx.config validated.claims (exchange.event.request.handler ctx).capability
      response

instance : Decidable (exchange.RespectsLimits ctx) := by
  unfold Exchange.RespectsLimits
  infer_instance

/-- The texts of the answer to a health request that the module and its capability let through
are within the limits of the token. -/
def Exchange.HealthFits (validated : ValidatedContext) : Prop :=
  (exchange.event.request.handler ctx).operation = .health →
    (prepare ctx (exchange.event.request.handler ctx) exchange.event.env validated).isOk →
    (healthResponse ctx.availableFeatures exchange.event.env).bytes ≤
      min ctx.config.defaultMaxResponseBytes validated.claims.requestLimits.maxBytes

/-- A response cached for the request respects the limits of its token; a health response fits
where none is cached. -/
def Exchange.Fits : Prop :=
  ∀ validated ∈ exchange.authorized ctx,
    match checkCached exchange.before.idempotency validated.requestId
      (exchange.event.request.handler ctx).operation with
    | some cached =>
      WithinLimits ctx.config validated.claims (exchange.event.request.handler ctx).capability
        cached
    | none => exchange.HealthFits ctx validated

variable {ctx exchange}

/-- What an authorized request is answered, if not an error, is what it is served. -/
theorem Exchange.toOption_answer {validated : ValidatedContext}
    (authorized : exchange.authorized ctx = some validated) :
    (exchange.answer ctx).toOption = (serve ctx exchange.event validated
      { exchange.before with
        replayCache :=
          (authorize ctx exchange.event exchange.before.replayCache).2 }).1.toOption := by
  rw [Exchange.answer_eq_serve authorized]
  generalize (serve ctx exchange.event validated _).1 = served
  cases served <;> rfl

end Exchanges

section InMemory

variable {config : MemoryControllerConfig} {decode : TokenDecoder} {features : List String}
  {text : TextLibrary} {env : Environment} {validated : ValidatedContext} {store after : MemoryMap}
  {response : CachedResponse}

theorem execute_eq_health_iff (config : MemoryControllerConfig) (decode : TokenDecoder)
    (features : List String) (text : TextLibrary) (request : MemoryRequest) (env : Environment)
    (validated : ValidatedContext) (store : MemoryMap) :
    (request.handler (.withDefaultInMemory config decode features text)).operation = .health ∧
        (prepare (.withDefaultInMemory config decode features text)
          (request.handler (.withDefaultInMemory config decode features text)) env
          validated).isOk ↔
      ∃ after, execute (.withDefaultInMemory config decode features text)
        (request.handler (.withDefaultInMemory config decode features text)) env validated store =
          (.ok (.health (healthResponse features env)), after) := by
  constructor
  · rintro ⟨isHealth, prepared⟩
    cases request with
    | health request =>
      refine ⟨store, ?_⟩
      cases preparation : prepare (.withDefaultInMemory config decode features text)
          (health (.withDefaultInMemory config decode features text) request) env validated with
      | error err =>
        simp only [MemoryRequest.handler] at prepared
        rw [preparation] at prepared
        cases prepared
      | ok provider => exact execute_health_of_prepare preparation
    | upsert _ | query _ | read _ | delete _ => cases isHealth
  · rintro ⟨after, executed⟩
    obtain ⟨provider, prepared, -⟩ := prepared_of_execute executed
    exact ⟨(operation_of_execute executed).symm, by rw [prepared]; rfl⟩

/-- **One request.** Over the in-memory provider, the answer respects the limits of the token
exactly when what the cache holds for the request, or the health response, fits the token. -/
theorem respectsLimits_iff_fits (exchange : Exchange MemoryMap) :
    exchange.RespectsLimits (.withDefaultInMemory config decode features text) ↔
      exchange.Fits (.withDefaultInMemory config decode features text) := by
  refine forall₂_congr fun validated authorized => ?_
  rw [Exchange.toOption_answer authorized]
  generalize (authorize (.withDefaultInMemory config decode features text) exchange.event
    exchange.before.replayCache).2 = cache
  cases found : checkCached exchange.before.idempotency validated.requestId
      (exchange.event.request.handler
        (.withDefaultInMemory config decode features text)).operation with
  | some cached =>
    rw [serve_of_cached { exchange.before with replayCache := cache } found]
    simp [Except.toOption]
  | none =>
    have healthy := execute_eq_health_iff config decode features text exchange.event.request
      exchange.event.env validated exchange.before.provider
    simp only [Exchange.HealthFits, ← and_imp]
    rw [healthy]
    cases executed : execute (.withDefaultInMemory config decode features text)
        (exchange.event.request.handler (.withDefaultInMemory config decode features text))
        exchange.event.env validated exchange.before.provider with
    | mk result after =>
      cases result with
      | error err =>
        rw [serve_of_failed { exchange.before with replayCache := cache } found executed]
        simp [Except.toOption]
      | ok response =>
        rw [serve_of_executed { exchange.before with replayCache := cache } found executed]
        simp only [Except.toOption, Option.mem_some_iff, forall_eq', Prod.mk.injEq, Except.ok.injEq,
          exists_eq_right']
        constructor
        · rintro within rfl
          exact within.size_le
        · intro fits
          exact withinLimits_of_execute exchange.event.request executed fits

end InMemory

/-! ### The request that was executed -/

section Earlier

variable {π : Type} (ctx : ControllerContext π)

def lastExecuted (requestId : String) (run : List (Exchange π)) : Option (Exchange π) :=
  (run.filter fun exchange => (exchange.executed ctx).any (·.1 = requestId)).getLast?

/-- The request to which the cache owes what it holds for a request: the latest one that was
executed under its id, if it was of its operation. -/
def Exchange.source (store : π) (earlier : List Event) (event : Event) (requestId : String) :
    Option (Exchange π) :=
  (lastExecuted ctx requestId (exchanges ctx (.start store) earlier)).filter fun prior =>
    (prior.event.request.handler ctx).operation = (event.request.handler ctx).operation

variable {ctx}

theorem getLast?_executedUnder (requestId : String) (run : List (Exchange π)) :
    (executedUnder ctx requestId run).getLast? =
      (lastExecuted ctx requestId run).bind fun prior => (prior.executed ctx).map Prod.snd := by
  induction run using List.reverseRecOn with
  | nil => rfl
  | append_singleton run exchange ih =>
    have split : executedUnder ctx requestId (run ++ [exchange]) =
        executedUnder ctx requestId run ++ executedUnder ctx requestId [exchange] := by
      simp only [executedUnder, List.filterMap_append]
    rw [split, lastExecuted, List.filter_append, List.getLast?_append, List.getLast?_append, ih]
    cases executed : exchange.executed ctx with
    | none => simp [executedUnder, executed, lastExecuted]
    | some done =>
      by_cases same : done.1 = requestId
      · simp [executedUnder, executed, same]
      · simp [executedUnder, executed, same, lastExecuted]

theorem of_lastExecuted {requestId : String} {run : List (Exchange π)} {prior : Exchange π}
    (last : lastExecuted ctx requestId run = some prior) :
    prior ∈ run ∧ ∃ response, prior.executed ctx = some (requestId, response) := by
  obtain ⟨member, executed⟩ := List.mem_filter.mp (List.mem_of_getLast? last)
  obtain ⟨⟨_, response⟩, done, same⟩ := (Option.any_eq_true ..).mp executed
  obtain rfl := of_decide_eq_true same
  exact ⟨member, response, done⟩

theorem Exchange.of_executed {exchange : Exchange π} {requestId : String}
    {response : CachedResponse} (done : exchange.executed ctx = some (requestId, response)) :
    ∃ validated after, exchange.authorized ctx = some validated ∧
      checkCached exchange.before.idempotency validated.requestId
        (exchange.event.request.handler ctx).operation = none ∧
      execute ctx (exchange.event.request.handler ctx) exchange.event.env validated
        exchange.before.provider = (.ok response, after) := by
  obtain ⟨validated, authorized, served⟩ := Option.bind_eq_some_iff.mp done
  cases found : checkCached exchange.before.idempotency validated.requestId
      (exchange.event.request.handler ctx).operation with
  | some cached =>
    rw [found] at served
    cases served
  | none =>
    simp only [found] at served
    obtain ⟨answered, executed, same⟩ := Option.map_eq_some_iff.mp served
    obtain ⟨-, rfl⟩ := Prod.mk.inj same
    refine ⟨validated, _, authorized, found, Prod.ext ?_ rfl⟩
    cases result : (execute ctx (exchange.event.request.handler ctx) exchange.event.env validated
        exchange.before.provider).1 with
    | error err =>
      rw [result] at executed
      cases executed
    | ok response =>
      rw [result] at executed
      rw [Option.some_inj.mp executed]

/-- The source of a cached response was executed, for the same operation. -/
theorem Exchange.of_source {store : π} {earlier : List Event} {event : Event}
    {requestId : String} {prior : Exchange π}
    (found : source ctx store earlier event requestId = some prior) :
    prior ∈ exchanges ctx (.start store) earlier ∧
      (prior.event.request.handler ctx).operation = (event.request.handler ctx).operation ∧
      ∃ response validated after, prior.executed ctx = some (requestId, response) ∧
        prior.authorized ctx = some validated ∧
        checkCached prior.before.idempotency validated.requestId
          (prior.event.request.handler ctx).operation = none ∧
        execute ctx (prior.event.request.handler ctx) prior.event.env validated
          prior.before.provider = (.ok response, after) := by
  obtain ⟨last, same⟩ := Option.filter_eq_some_iff.mp found
  obtain ⟨member, response, done⟩ := of_lastExecuted last
  obtain ⟨validated, after, authorized, missed, executed⟩ := of_executed done
  exact ⟨member, of_decide_eq_true same, response, validated, after, done, authorized, missed,
    executed⟩

theorem following_of_mem {store : π} {events : List Event} {exchange : Exchange π}
    (member : exchange ∈ exchanges ctx (.start store) events) :
    ∃ earlier event later, events = earlier ++ event :: later ∧
      exchange = .following ctx store earlier event := by
  suffices general : ∀ state : ControllerState π, exchange ∈ exchanges ctx state events →
      ∃ earlier event later, events = earlier ++ event :: later ∧
        exchange = ⟨event, finalState ctx state earlier⟩ from general _ member
  clear member
  induction events with
  | nil => exact fun _ member => absurd member List.not_mem_nil
  | cons event rest ih =>
    intro state member
    obtain rfl | member := List.mem_cons.mp member
    · exact ⟨[], event, rest, rfl, rfl⟩
    · obtain ⟨earlier, next, later, rfl, rfl⟩ := ih _ member
      exact ⟨event :: earlier, next, later, rfl, rfl⟩

theorem checkCached_following {store : π} {earlier : List Event} {event : Event}
    {validated : ValidatedContext}
    (authorized : (Exchange.following ctx store earlier event).authorized ctx = some validated) :
    checkCached (Exchange.following ctx store earlier event).before.idempotency
        validated.requestId (event.request.handler ctx).operation =
      (Exchange.source ctx store earlier event validated.requestId).bind fun prior =>
        (prior.executed ctx).map Prod.snd := by
  have held := Exchange.cached_following authorized
  rw [Exchange.cached, authorized, Option.bind_some, getLast?_executedUnder] at held
  refine held.trans ?_
  rw [Exchange.source]
  cases last : lastExecuted ctx validated.requestId (exchanges ctx (.start store) earlier) with
  | none => rfl
  | some prior =>
    obtain ⟨-, response, done⟩ := of_lastExecuted last
    obtain ⟨_, _, _, _, executed⟩ := Exchange.of_executed done
    have same := operation_of_execute executed
    by_cases ours : (prior.event.request.handler ctx).operation =
        (event.request.handler ctx).operation <;> simp [Option.filter, done, same, ours]

/-- A request that the cache does not answer owes it nothing. -/
theorem source_eq_none {store : π} {earlier : List Event} {event : Event}
    {validated : ValidatedContext}
    (authorized : (Exchange.following ctx store earlier event).authorized ctx = some validated)
    (missed : checkCached (Exchange.following ctx store earlier event).before.idempotency
      validated.requestId (event.request.handler ctx).operation = none) :
    Exchange.source ctx store earlier event validated.requestId = none := by
  cases source : Exchange.source ctx store earlier event validated.requestId with
  | none => rfl
  | some prior =>
    obtain ⟨-, -, response, _, _, done, -⟩ := Exchange.of_source source
    have held := checkCached_following authorized
    rw [source, Option.bind_some, done, Option.map_some] at held
    exact absurd (missed.symm.trans held) (Option.some_ne_none response).symm

end Earlier

/-! ### Tokens -/

/-- What a token allows of a request that finds so many bytes and hits. -/
def DelegationClaims.Admits (config : MemoryControllerConfig) (claims : DelegationClaims)
    (capability : String) (found : ℕ × ℕ) : Prop :=
  capability ∈ claims.allowedCapabilities ∧
    found.1 ≤ min config.defaultMaxResponseBytes claims.requestLimits.maxBytes ∧
    found.2 ≤ claims.requestLimits.maxResults

/-- A token allows what another one does. -/
structure DelegationClaims.Widens (narrow wide : DelegationClaims) : Prop where
  capabilities : narrow.allowedCapabilities ⊆ wide.allowedCapabilities
  maxBytes : narrow.requestLimits.maxBytes ≤ wide.requestLimits.maxBytes
  maxResults : narrow.requestLimits.maxResults ≤ wide.requestLimits.maxResults

instance (narrow wide : DelegationClaims) : Decidable (narrow.Widens wide) :=
  decidable_of_iff (_ ∧ _ ∧ _) ⟨fun ⟨a, b, c⟩ => ⟨a, b, c⟩, fun ⟨a, b, c⟩ => ⟨a, b, c⟩⟩

section InMemory

variable (config : MemoryControllerConfig) (decode : TokenDecoder) (features : List String)
  (text : TextLibrary) (store : MemoryMap)

/-- The token of a request allows what the request found that was executed under its id, where
the cache answers; a health response fits where it does not. -/
def FitsToken (earlier : List Event) (event : Event) : Prop :=
  let ctx := ControllerContext.withDefaultInMemory config decode features text
  let exchange := Exchange.following ctx store earlier event
  ∀ validated ∈ exchange.authorized ctx,
    (∀ prior ∈ Exchange.source ctx store earlier event validated.requestId,
      validated.claims.Admits config (event.request.handler ctx).capability
        (prior.event.request.held text features prior.event.env prior.before.provider)) ∧
    (Exchange.source ctx store earlier event validated.requestId = none →
      exchange.HealthFits ctx validated)

/-- The token of a request is at least as wide as the one of the request that was executed under
its id, where the cache answers; a health response fits where it does not. -/
def KeepsWidth (earlier : List Event) (event : Event) : Prop :=
  let ctx := ControllerContext.withDefaultInMemory config decode features text
  let exchange := Exchange.following ctx store earlier event
  ∀ validated ∈ exchange.authorized ctx,
    (∀ prior ∈ Exchange.source ctx store earlier event validated.requestId,
      ∀ before ∈ prior.authorized ctx, before.claims.Widens validated.claims) ∧
    (Exchange.source ctx store earlier event validated.requestId = none →
      exchange.HealthFits ctx validated)

instance (earlier : List Event) (event : Event) :
    Decidable (KeepsWidth config decode features text store earlier event) := by
  unfold KeepsWidth Exchange.HealthFits
  infer_instance

variable {config decode features text store}

theorem withinLimits_iff {claims : DelegationClaims} {capability : String}
    {response : CachedResponse} :
    WithinLimits config claims capability response ↔
      claims.Admits config capability (response.size, response.hitCount) :=
  ⟨fun within => ⟨within.allowed, within.size_le, within.hitCount_le⟩,
    fun admits => ⟨admits.1, admits.2.1, admits.2.2⟩⟩

theorem WithinLimits.widens {narrow wide : DelegationClaims} {capability : String}
    {response : CachedResponse} (within : WithinLimits config narrow capability response)
    (widens : narrow.Widens wide) : WithinLimits config wide capability response where
  allowed := widens.capabilities within.allowed
  size_le := le_min (within.size_le.trans (min_le_left _ _))
    ((within.size_le.trans (min_le_right _ _)).trans widens.maxBytes)
  hitCount_le := within.hitCount_le.trans widens.maxResults

theorem capability_of_operation {π : Type} {ctx : ControllerContext π}
    {request other : MemoryRequest}
    (same : (request.handler ctx).operation = (other.handler ctx).operation) :
    (request.handler ctx).capability = (other.handler ctx).capability := by
  cases request <;> cases other <;> first | rfl | cases same

theorem respectsLimits_iff_fitsToken (earlier : List Event) (event : Event) :
    (Exchange.following (.withDefaultInMemory config decode features text) store earlier
        event).RespectsLimits (.withDefaultInMemory config decode features text) ↔
      FitsToken config decode features text store earlier event := by
  rw [respectsLimits_iff_fits]
  refine forall₂_congr fun validated authorized => ?_
  rw [Exchange.following] at authorized ⊢
  rw [← Exchange.following] at authorized
  have held := checkCached_following authorized
  rw [Exchange.following] at held
  simp only [held]
  cases source : Exchange.source (.withDefaultInMemory config decode features text) store earlier
      event validated.requestId with
  | none => simp
  | some prior =>
    obtain ⟨-, -, response, _, _, done, -, -, executed⟩ := Exchange.of_source source
    simp only [Option.bind_some, done, Option.map_some, Option.mem_some_iff, forall_eq',
      held_of_execute executed, reduceCtorEq, IsEmpty.forall_iff, and_true]
    exact withinLimits_iff

/-- What was executed was within the limits of its own token, and so is what is answered from the
cache. -/
theorem respectsLimits_of_keepsWidth {events : List Event}
    (keeps : ∀ earlier event later, events = earlier ++ event :: later →
      KeepsWidth config decode features text store earlier event)
    {earlier later : List Event} {event : Event} (split : events = earlier ++ event :: later) :
    (Exchange.following (.withDefaultInMemory config decode features text) store earlier
      event).RespectsLimits (.withDefaultInMemory config decode features text) := by
  rw [respectsLimits_iff_fits]
  intro validated authorized
  obtain ⟨width, healthy⟩ := keeps earlier event later split validated authorized
  have held := checkCached_following authorized
  rw [Exchange.following] at held ⊢
  simp only [held]
  cases source : Exchange.source (.withDefaultInMemory config decode features text) store earlier
      event validated.requestId with
  | none => exact healthy source
  | some prior =>
    obtain ⟨member, same, response, before, after, done, authorizedBefore, missed, executed⟩ :=
      Exchange.of_source source
    obtain ⟨first, found, rest, rfl, rfl⟩ := following_of_mem member
    have healthyBefore := (keeps first found (rest ++ event :: later) (by simp [split]) before
      authorizedBefore).2
    obtain ⟨_, prepared, -⟩ := prepared_of_execute executed
    -- the source was within its own limits, which the repeated request does not narrow
    have within := withinLimits_of_execute found.request executed fun health =>
      healthyBefore (source_eq_none authorizedBefore missed)
        (by rw [← operation_of_execute executed, health]; rfl) (by rw [prepared]; rfl)
    simp only [Option.bind_some, done, Option.map_some]
    rw [← capability_of_operation same]
    exact within.widens (width _ source before authorizedBefore)

end InMemory

/-- **Answers within limits.** Over the in-memory provider, whatever a new controller has served
before, the answer to a request respects the limits of its token exactly when the token allows
what the request found that was executed under its id, or the health response fits. So every
answer of a run respects them, if no request that the cache answers has a narrower token than the
one that was executed, and the health responses fit. -/
theorem answers_respect_limits_iff (config : MemoryControllerConfig) (decode : TokenDecoder)
    (features : List String) (text : TextLibrary) (store : MemoryMap) :
    (∀ earlier event,
      (Exchange.following (.withDefaultInMemory config decode features text) store earlier
          event).RespectsLimits (.withDefaultInMemory config decode features text) ↔
        FitsToken config decode features text store earlier event) ∧
    ∀ events : List Event,
      (∀ earlier event later, events = earlier ++ event :: later →
        KeepsWidth config decode features text store earlier event) →
      ∀ exchange ∈ exchanges (.withDefaultInMemory config decode features text) (.start store)
        events, exchange.RespectsLimits (.withDefaultInMemory config decode features text) := by
  refine ⟨respectsLimits_iff_fitsToken, fun events keeps exchange member => ?_⟩
  obtain ⟨earlier, event, later, split, rfl⟩ := following_of_mem member
  exact respectsLimits_of_keepsWidth keeps split

/-! ### Answers from the cache -/

/-- A value is stored and found; then the search is repeated under the same request id with
another token. -/
def repeatedSearch : List Event :=
  [⟨.upsert ⟨some (echoRequest "tenant-a" "token-1" "req-1"), "MEMORY.md", [104, 105], []⟩,
      echoAt 1735689600⟩,
    ⟨.query ⟨some (echoRequest "tenant-a" "token-2" "req-2"), "hi", 5⟩, echoAt 1735689601⟩,
    ⟨.query ⟨some (echoRequest "tenant-a" "token-3" "req-2"), "hi", 5⟩, echoAt 1735689602⟩]

def repeatedSearchController (repeated : DelegationClaims) : ControllerContext MemoryMap :=
  echoController
    [("token-1", echoClaims "tenant-a" "jti-1" ["upsert"]),
      ("token-2", echoClaims "tenant-a" "jti-2" ["query"]), ("token-3", repeated)]

def wideClaims : DelegationClaims :=
  { echoClaims "tenant-a" "jti-3" ["query"] with requestLimits := ⟨300, 4096, 5⟩ }

/-- A token that allows the operation and no capability, no bytes and no hits. -/
def bareClaims : DelegationClaims :=
  { echoClaims "tenant-a" "jti-3" ["query"] with
    allowedCapabilities := []
    requestLimits := ⟨300, 0, 0⟩ }

theorem wide_repeat_respects_limits :
    (∀ exchange ∈ exchanges (repeatedSearchController wideClaims) (.start []) repeatedSearch,
      exchange.RespectsLimits (repeatedSearchController wideClaims)) ∧
    ((exchanges (repeatedSearchController wideClaims) (.start []) repeatedSearch).map fun
      exchange => (exchange.cached (repeatedSearchController wideClaims)).isSome) =
        [false, false, true] := by
  refine ⟨(answers_respect_limits_iff .default _ [] asciiText []).2 repeatedSearch ?_,
    by decide +kernel⟩
  intro earlier event later split
  -- each of the three requests in turn
  rcases earlier with _ | ⟨first, _ | ⟨second, _ | ⟨third, rest⟩⟩⟩ <;>
    simp only [repeatedSearch, List.nil_append, List.cons_append, List.cons.injEq,
      List.nil_eq_append_iff, reduceCtorEq, and_false] at split
  · obtain ⟨rfl, -⟩ := split
    decide +kernel
  · obtain ⟨rfl, rfl, -⟩ := split
    decide +kernel
  · obtain ⟨rfl, rfl, rfl, -⟩ := split
    decide +kernel

/-- **A cached answer beyond the limits.** The repeated search is answered with a hit, which
its token does not allow. -/
theorem cached_answer_exceeds_limits :
    ¬ ∀ exchange ∈ exchanges (repeatedSearchController bareClaims) (.start []) repeatedSearch,
      exchange.RespectsLimits (repeatedSearchController bareClaims) := by
  decide +kernel

end KelvinClaw.Memory
