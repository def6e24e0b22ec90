import KelvinClaw.Memory.Controller

/-!
# Responses by request id

The idempotency cache keeps one response for each request id, whoever made the request: the
response of the latest request with the id that was executed. A later request with the id is
answered from the cache when its operation is the one of that response.
-/

namespace KelvinClaw.Memory

open KelvinClaw.Core

variable {π : Type} (ctx : ControllerContext π)

def Exchange.cached (exchange : Exchange π) : Option CachedResponse :=
  (exchange.authorized ctx).bind fun validated =>
    checkCached exchange.before.idempotency validated.requestId
      (exchange.event.request.handler ctx).operation

/-- The request id and the response of an authorized request that is executed: it finds no
response in the cache, and the module and the provider succeed. -/
def Exchange.executed (exchange : Exchange π) : Option (String × CachedResponse) :=
  (exchange.authorized ctx).bind fun validated =>
    match checkCached exchange.before.idempotency validated.requestId
        (exchange.event.request.handler ctx).operation with
    | some _ => none
    | none =>
      (execute ctx (exchange.event.request.handler ctx) exchange.event.env validated
        exchange.before.provider).1.toOption.map (validated.requestId, ·)

def executedUnder (requestId : String) (run : List (Exchange π)) : List CachedResponse :=
  (run.filterMap (·.executed ctx)).filterMap fun done =>
    if done.1 = requestId then some done.2 else none

def finalState : ControllerState π → List Event → ControllerState π
  | state, [] => state
  | state, event :: rest => finalState (handle ctx event state).2 rest

variable {ctx}

theorem Exchange.answer_of_cached {exchange : Exchange π} {response : CachedResponse}
    (cached : exchange.cached ctx = some response) : exchange.answer ctx = .ok response := by
  obtain ⟨validated, authorized, found⟩ := Option.bind_eq_some_iff.mp cached
  rw [Exchange.answer_eq_serve authorized, serve_of_cached
    ⟨(authorize ctx exchange.event exchange.before.replayCache).2, _, _⟩ found]
  rfl

theorem idempotency_handle (event : Event) (state : ControllerState π) (requestId : String) :
    (handle ctx event state).2.idempotency requestId =
      ((executedUnder ctx requestId [⟨event, state⟩]).getLast?).or
        (state.idempotency requestId) := by
  unfold handle
  cases authorized : authorize ctx event state.replayCache with
  | mk result cache =>
    cases result with
    | error err =>
      simp [executedUnder, Exchange.executed, Exchange.authorized, authorized, Except.toOption]
    | ok validated =>
      simp only [executedUnder, Exchange.executed, Exchange.authorized, authorized,
        Except.toOption, List.filterMap_cons, List.filterMap_nil, Option.bind_some]
      cases found : checkCached state.idempotency validated.requestId
          (event.request.handler ctx).operation with
      | some response =>
        rw [serve_of_cached { state with replayCache := cache } found]
        rfl
      | none =>
        cases executed : execute ctx (event.request.handler ctx) event.env validated
            state.provider with
        | mk result store =>
          cases result with
          | error err =>
            rw [serve_of_failed { state with replayCache := cache } found executed]
            rfl
          | ok response =>
            rw [serve_of_executed { state with replayCache := cache } found executed]
            by_cases same : validated.requestId = requestId
            · simp [cacheResponse, same]
            · simp [cacheResponse, same, Function.update_of_ne (Ne.symm same)]

/-- **The cache after a run.** It holds the latest executed response of each request id. -/
theorem idempotency_finalState (ctx : ControllerContext π) (state : ControllerState π)
    (events : List Event) (requestId : String) :
    (finalState ctx state events).idempotency requestId =
      (executedUnder ctx requestId (exchanges ctx state events)).getLast?.or
        (state.idempotency requestId) := by
  induction events generalizing state with
  | nil => rfl
  | cons event rest ih =>
    rw [finalState, ih, idempotency_handle, exchanges]
    have split : executedUnder ctx requestId
        (⟨event, state⟩ :: exchanges ctx (handle ctx event state).2 rest) =
          executedUnder ctx requestId [⟨event, state⟩] ++
            executedUnder ctx requestId (exchanges ctx (handle ctx event state).2 rest) := by
      simp only [executedUnder, ← List.filterMap_append, List.singleton_append]
    rw [split, List.getLast?_append, Option.or_assoc]

def Exchange.following (ctx : ControllerContext π) (store : π) (earlier : List Event)
    (event : Event) : Exchange π :=
  ⟨event, finalState ctx (.start store) earlier⟩

/-- What a request finds after a run is the latest executed response under its request id,
if that one is of its operation. -/
theorem Exchange.cached_following {store : π} {earlier : List Event} {event : Event}
    {validated : ValidatedContext}
    (authorized : (following ctx store earlier event).authorized ctx = some validated) :
    (following ctx store earlier event).cached ctx =
      (executedUnder ctx validated.requestId
        (exchanges ctx (.start store) earlier)).getLast?.filter
          (·.operation = (event.request.handler ctx).operation) := by
  rw [cached, authorized, Option.bind_some]
  have held := idempotency_finalState ctx (.start store) earlier validated.requestId
  rw [ControllerState.start, Option.or_none] at held
  exact congrArg (Option.filter _) held

/-- **Cached answers by request id.** After any two runs in which the latest executed response
under the request id of a request is the same, whatever else happened in them, the request is
served the same from the cache: that response if it is of the operation of the request, and
nothing otherwise. -/
theorem cached_of_request_id (ctx : ControllerContext π) (store store' : π)
    (first second : List Event) (event : Event) (validated : ValidatedContext)
    (authorized : (Exchange.following ctx store first event).authorized ctx = some validated)
    (authorized' : (Exchange.following ctx store' second event).authorized ctx = some validated)
    (agree : (executedUnder ctx validated.requestId
        (exchanges ctx (.start store) first)).getLast? =
      (executedUnder ctx validated.requestId (exchanges ctx (.start store') second)).getLast?) :
    (∀ response, (Exchange.following ctx store first event).cached ctx = some response ↔
      (executedUnder ctx validated.requestId (exchanges ctx (.start store) first)).getLast? =
          some response ∧ response.operation = (event.request.handler ctx).operation) ∧
      (Exchange.following ctx store' second event).cached ctx =
        (Exchange.following ctx store first event).cached ctx ∧
      ∀ response ∈ (Exchange.following ctx store first event).cached ctx,
        (Exchange.following ctx store first event).answer ctx = .ok response ∧
          (Exchange.following ctx store' second event).answer ctx = .ok response := by
  have served := Exchange.cached_following authorized
  have same : (Exchange.following ctx store' second event).cached ctx =
      (Exchange.following ctx store first event).cached ctx := by
    rw [served, Exchange.cached_following authorized', agree]
  refine ⟨fun response => ?_, same, fun response found => ⟨?_, ?_⟩⟩
  · rw [served, Option.filter_eq_some_iff, decide_eq_true_eq]
  · exact Exchange.answer_of_cached found
  · exact Exchange.answer_of_cached (same.trans found)

/-! ### Requests of two tenants -/

/-- A controller that knows three tokens of one tenant and two of another. -/
def twoTenantsController : ControllerContext MemoryMap :=
  echoController
    [("a-1", echoClaims "tenant-a" "jti-a-1" ["upsert"]),
      ("a-2", echoClaims "tenant-a" "jti-a-2" ["read"]),
      ("a-3", echoClaims "tenant-a" "jti-a-3" ["read"]),
      ("b-1", echoClaims "tenant-b" "jti-b-1" ["read", "upsert"])]

def storesValue : Event :=
  ⟨.upsert ⟨some (echoRequest "tenant-a" "a-1" "req-1"), "MEMORY.md", [104, 105], []⟩,
    echoAt 1735689600⟩

/-- A read of the stored value under the request id `req-2`. -/
def readsValue (token : String) : Event :=
  ⟨.read ⟨some (echoRequest "tenant-a" token "req-2"), "MEMORY.md"⟩, echoAt 1735689602⟩

def otherReads (requestId : String) : Event :=
  ⟨.read ⟨some (echoRequest "tenant-b" "b-1" requestId), "notes.md"⟩, echoAt 1735689601⟩

/-- A request of another tenant under another request id makes no difference. -/
theorem repeated_read_served_from_cache :
    (Exchange.following twoTenantsController [] [storesValue, readsValue "a-2"]
        (readsValue "a-3")).cached twoTenantsController = some (.read true [104, 105]) ∧
      (Exchange.following twoTenantsController []
        [storesValue, otherReads "req-3", readsValue "a-2"]
        (readsValue "a-3")).cached twoTenantsController = some (.read true [104, 105]) := by
  obtain ⟨served, same, -⟩ := cached_of_request_id twoTenantsController [] []
    [storesValue, readsValue "a-2"] [storesValue, otherReads "req-3", readsValue "a-2"]
    (readsValue "a-3") ⟨"req-2", "memory.echo", echoClaims "tenant-a" "jti-a-3" ["read"]⟩
    (by decide +kernel) (by decide +kernel) (by decide +kernel)
  have found := (served (.read true [104, 105])).mpr (by decide +kernel)
  exact ⟨found, same.trans found⟩

/-- **Another tenant's response.** The runs differ only in a request of another tenant, for
another key, under the same request id; the answer to the read differs. -/
theorem other_tenant_answers :
    (Exchange.following twoTenantsController [] [storesValue] (readsValue "a-2")).answer
        twoTenantsController = .ok (.read true [104, 105]) ∧
      (Exchange.following twoTenantsController [] [storesValue, otherReads "req-2"]
        (readsValue "a-2")).answer twoTenantsController = .ok (.read false []) := by
  decide +kernel

end KelvinClaw.Memory
