import KelvinClaw.Library.Noninterference
import KelvinClaw.Memory.Controller

/-!
# Tenants that share a controller

The tenant of a token is compared with the context of the request and goes no further: the
provider has one key space and one index, and the cache one table of request ids. A tenant's
writes are invisible to the others as long as they have no request id and no written key in
common and the values it stores do not match what the others search for.
-/

namespace KelvinClaw.Memory

open KelvinClaw.Core Systems

/-! ### Parts of the map -/

namespace MemoryMap

variable {keys : List String} {entries : MemoryMap} {key : String}

def restrict (keys : List String) (entries : MemoryMap) : MemoryMap :=
  entries.filter (·.1 ∉ keys)

theorem restrict_remove (keys : List String) (key : String) (entries : MemoryMap) :
    restrict keys (remove key entries) = remove key (restrict keys entries) := by
  simp only [restrict, remove, List.filter_filter, Bool.and_comm]

theorem remove_restrict_of_mem (listed : key ∈ keys) (entries : MemoryMap) :
    remove key (restrict keys entries) = restrict keys entries := by
  unfold remove restrict
  rw [List.filter_filter]
  apply List.filter_congr
  intro entry _
  by_cases same : entry.1 = key
  · simp [same, listed]
  · simp [same]

theorem restrict_remove_of_mem (listed : key ∈ keys) (entries : MemoryMap) :
    restrict keys (remove key entries) = restrict keys entries := by
  rw [restrict_remove, remove_restrict_of_mem listed]

theorem restrict_insert_of_mem (listed : key ∈ keys) (value : List UInt8) (entries : MemoryMap) :
    restrict keys (insert key value entries) = restrict keys entries := by
  rw [insert, restrict, List.filter_cons_of_neg (by simpa using listed)]
  exact restrict_remove_of_mem listed entries

theorem restrict_insert_of_notMem (unlisted : key ∉ keys) (value : List UInt8)
    (entries : MemoryMap) :
    restrict keys (insert key value entries) = insert key value (restrict keys entries) := by
  rw [insert, restrict, List.filter_cons_of_pos (by simpa using unlisted), insert]
  exact congrArg _ (restrict_remove keys key entries)

theorem lookup_restrict (unlisted : key ∉ keys) (entries : MemoryMap) :
    (restrict keys entries).lookup key = entries.lookup key := by
  induction entries with
  | nil => rfl
  | cons entry rest ih =>
    obtain ⟨name, value⟩ := entry
    by_cases listed : name ∈ keys
    · have other : (key == name) = false := by
        rw [beq_eq_false_iff_ne]
        rintro rfl
        exact unlisted listed
      rw [restrict, List.filter_cons_of_neg (by simpa using listed), List.lookup_cons, other]
      exact ih
    · rw [restrict, List.filter_cons_of_pos (by simpa using listed), List.lookup_cons,
        List.lookup_cons]
      split
      · rfl
      · exact ih

theorem searchHits_restrict {text : TextLibrary} {query : String}
    (unmatched : ∀ entry ∈ entries, entry.1 ∈ keys → ¬ Matches text query entry.2) :
    searchHits text query (restrict keys entries) = searchHits text query entries := by
  unfold searchHits restrict
  rw [List.filter_filter]
  refine congrArg _ (List.filter_congr fun entry member => ?_)
  by_cases listed : entry.1 ∈ keys
  · simp [listed, unmatched entry member listed]
  · simp [listed]

end MemoryMap

/-! ### What a request uses -/

namespace MemoryRequest

def key : MemoryRequest → Option String
  | upsert request => some request.key
  | read request => some request.key
  | delete request => some request.key
  | query _ => none
  | health _ => none

def writtenKey : MemoryRequest → Option String
  | upsert request => some request.key
  | delete request => some request.key
  | _ => none

def upsertedValue : MemoryRequest → Option (List UInt8)
  | upsert request => some request.value
  | _ => none

def searchedText : MemoryRequest → Option String
  | query request => some request.query
  | _ => none

end MemoryRequest

section Execution

variable {config : MemoryControllerConfig} {decode : TokenDecoder} {features : List String}
  {text : TextLibrary} {request : MemoryRequest} {env : Environment}
  {validated : ValidatedContext} {keys : List String} {entries : MemoryMap}

def MemoryRequest.effect : MemoryRequest → MemoryMap → MemoryMap
  | .upsert request => MemoryMap.insert request.key request.value
  | .delete request => MemoryMap.remove request.key
  | _ => id

theorem execute_inMemory {handler : Handler MemoryMap} :
    execute (.withDefaultInMemory config decode features text) handler env validated entries =
      match prepare (.withDefaultInMemory config decode features text) handler env validated with
      | .error err => (.error err, entries)
      | .ok _ => handler.call env validated.claims (inMemoryProvider text) entries := by
  unfold execute
  cases prepared : prepare (.withDefaultInMemory config decode features text) handler env
      validated with
  | error err => rfl
  | ok provider =>
    obtain ⟨-, -, primary⟩ := checked_of_prepare prepared
    rw [← Option.some_inj.mp primary]

theorem store_execute (config : MemoryControllerConfig) (decode : TokenDecoder)
    (features : List String) (text : TextLibrary) (request : MemoryRequest) (env : Environment)
    (validated : ValidatedContext) (entries : MemoryMap) :
    (execute (.withDefaultInMemory config decode features text)
        (request.handler (.withDefaultInMemory config decode features text)) env validated
        entries).2 ∈ [entries, request.effect entries] := by
  rw [execute_inMemory]
  split
  · exact List.mem_cons_self
  · cases request <;> exact List.mem_cons_of_mem _ List.mem_cons_self

/-- **A request does not see keys it has nothing in common with.** Without these entries its
result is the same, and so is what it makes of the others. -/
theorem execute_restrict (config : MemoryControllerConfig) (decode : TokenDecoder)
    (features : List String) (env : Environment) (validated : ValidatedContext)
    (unlisted : ∀ key ∈ request.key, key ∉ keys)
    (unmatched : ∀ query ∈ request.searchedText, ∀ entry ∈ entries, entry.1 ∈ keys →
      ¬ Matches text query entry.2) :
    execute (.withDefaultInMemory config decode features text)
        (request.handler (.withDefaultInMemory config decode features text)) env validated
        (entries.restrict keys) =
      ((execute (.withDefaultInMemory config decode features text)
          (request.handler (.withDefaultInMemory config decode features text)) env validated
          entries).1,
        (execute (.withDefaultInMemory config decode features text)
          (request.handler (.withDefaultInMemory config decode features text)) env validated
          entries).2.restrict keys) := by
  rw [execute_inMemory, execute_inMemory]
  split
  · rfl
  · cases request with
    | upsert request =>
      have inserted := MemoryMap.restrict_insert_of_notMem (unlisted request.key rfl)
        request.value entries
      simp only [MemoryRequest.handler, upsert, andThen, inMemoryProvider, inserted]
    | query request =>
      have found := MemoryMap.searchHits_restrict (unmatched request.query rfl)
      simp only [MemoryRequest.handler, query, andThen, inMemoryProvider, found]
    | read request =>
      have found := MemoryMap.lookup_restrict (unlisted request.key rfl) entries
      simp only [MemoryRequest.handler, read, andThen, inMemoryProvider, found]
    | delete request =>
      have found := MemoryMap.lookup_restrict (unlisted request.key rfl) entries
      have removed := MemoryMap.restrict_remove keys request.key entries
      simp only [MemoryRequest.handler, delete, andThen, inMemoryProvider, found, removed]
    | health request => rfl

theorem restrict_effect (listed : ∀ key ∈ request.writtenKey, key ∈ keys) :
    (request.effect entries).restrict keys = entries.restrict keys := by
  cases request with
  | upsert request => exact MemoryMap.restrict_insert_of_mem (listed request.key rfl) _ _
  | delete request => exact MemoryMap.restrict_remove_of_mem (listed request.key rfl) _
  | query _ | read _ | health _ => rfl

theorem mem_effect {entry : String × List UInt8} (member : entry ∈ request.effect entries) :
    entry ∈ entries ∨ request.key = some entry.1 ∧ request.upsertedValue = some entry.2 := by
  cases request with
  | upsert request =>
    rcases List.mem_cons.mp member with rfl | kept
    · exact .inr ⟨rfl, rfl⟩
    · exact .inl (List.mem_of_mem_filter kept)
  | delete request => exact .inl (List.mem_of_mem_filter member)
  | query _ | read _ | health _ => exact .inl member

end Execution

/-! ### Authorized requests -/

section Runs

variable {π : Type} (ctx : ControllerContext π)

structure AuthorizedRequest where
  event : Event
  validated : ValidatedContext

def AuthorizedRequest.tenantId (authorized : AuthorizedRequest) : String :=
  authorized.validated.claims.tenantId

def responses (state : ControllerState π) (events : List Event) :
    List (AuthorizedRequest × Except Status CachedResponse) :=
  (exchanges ctx state events).filterMap fun exchange =>
    (exchange.authorized ctx).map fun validated =>
      (⟨exchange.event, validated⟩, exchange.answer ctx)

def serveAuthorized (authorized : AuthorizedRequest) (state : IdempotencyCache × π) :
    Except Status CachedResponse × IdempotencyCache × π :=
  let (result, after) := serve ctx authorized.event authorized.validated
    ⟨fun _ => none, state.1, state.2⟩
  (result.mapError toStatus, after.idempotency, after.provider)

variable {ctx}

theorem serveAuthorized_eq (authorized : AuthorizedRequest) (cache : IdempotencyCache)
    (store : π) :
    serveAuthorized ctx authorized (cache, store) =
      match checkCached cache authorized.validated.requestId
        (authorized.event.request.handler ctx).operation with
      | some cached => (.ok cached, cache, store)
      | none =>
        match execute ctx (authorized.event.request.handler ctx) authorized.event.env
          authorized.validated store with
        | (.ok response, after) =>
          (.ok response, cacheResponse cache authorized.validated.requestId response, after)
        | (.error err, after) => (.error (toStatus err), cache, after) := by
  unfold serveAuthorized serve
  dsimp only
  cases checkCached cache authorized.validated.requestId
      (authorized.event.request.handler ctx).operation with
  | some cached => rfl
  | none =>
    rcases execute ctx (authorized.event.request.handler ctx) authorized.event.env
      authorized.validated store with ⟨_ | _, after⟩ <;> rfl

theorem serve_withReplayCache (ctx : ControllerContext π) (event : Event)
    (validated : ValidatedContext) (state : ControllerState π) (cache : ReplayCache) :
    serve ctx event validated { state with replayCache := cache } =
      ((serve ctx event validated state).1,
        { (serve ctx event validated state).2 with replayCache := cache }) := by
  unfold serve
  dsimp only
  split
  · rfl
  · split <;> rfl

theorem handle_of_authorized {event : Event} {state : ControllerState π}
    {validated : ValidatedContext} {cache : ReplayCache}
    (authorization : authorize ctx event state.replayCache = (.ok validated, cache)) :
    (handle ctx event state).1 =
        (serveAuthorized ctx ⟨event, validated⟩ (state.idempotency, state.provider)).1 ∧
      ((handle ctx event state).2.idempotency, (handle ctx event state).2.provider) =
        (serveAuthorized ctx ⟨event, validated⟩ (state.idempotency, state.provider)).2 := by
  have same := serve_withReplayCache ctx event validated
    ⟨fun _ => none, state.idempotency, state.provider⟩ cache
  simp only [handle, authorization, serveAuthorized, same, and_self]

/-- A request that is not authorized changes neither the cache nor the provider. -/
theorem handle_of_refused {event : Event} {state : ControllerState π} {err : KelvinError}
    {cache : ReplayCache}
    (authorization : authorize ctx event state.replayCache = (.error err, cache)) :
    ((handle ctx event state).2.idempotency, (handle ctx event state).2.provider) =
      (state.idempotency, state.provider) := by
  simp only [handle, authorization]

/-- **A run answers its authorized requests one after the other.** -/
theorem responses_eq_outputs (state : ControllerState π) (events : List Event) :
    responses ctx state events =
      outputs (serveAuthorized ctx) (state.idempotency, state.provider)
        ((responses ctx state events).map Prod.fst) := by
  induction events generalizing state with
  | nil => rfl
  | cons event rest ih =>
    have served := ih (handle ctx event state).2
    unfold responses at served ⊢
    rw [exchanges, List.filterMap_cons]
    cases authorization : authorize ctx event state.replayCache with
    | mk result cache =>
      cases result with
      | error err =>
        simp only [Exchange.authorized, authorization, Except.toOption, Option.map_none]
        rw [← handle_of_refused authorization]
        exact served
      | ok validated =>
        obtain ⟨answered, after⟩ := handle_of_authorized authorization
        simp only [Exchange.authorized, Exchange.answer, authorization, Except.toOption,
          Option.map_some, List.map_cons, outputs, answered]
        rw [← after]
        exact congrArg _ served

end Runs

/-! ### Isolation -/

def WriteOf (tenantId : String) (authorized : AuthorizedRequest) : Prop :=
  authorized.tenantId = tenantId ∧ authorized.event.request.writtenKey.isSome

instance (tenantId : String) : DecidablePred (WriteOf tenantId) := fun authorized => by
  unfold WriteOf
  infer_instance

/-- Two requests have nothing in common: they differ in their request ids, the second does not
name a key that the first one writes, and does not find a value that the first one stores. -/
structure Apart (text : TextLibrary) (mine theirs : AuthorizedRequest) : Prop where
  requestId : theirs.validated.requestId ≠ mine.validated.requestId
  key : ∀ key ∈ mine.event.request.writtenKey, key ∉ theirs.event.request.key
  value : ∀ value ∈ mine.event.request.upsertedValue, ∀ query ∈ theirs.event.request.searchedText,
    ¬ Matches text query value

instance (text : TextLibrary) (mine theirs : AuthorizedRequest) :
    Decidable (Apart text mine theirs) :=
  decidable_of_iff (_ ∧ _ ∧ _) ⟨fun ⟨a, b, c⟩ => ⟨a, b, c⟩, fun ⟨a, b, c⟩ => ⟨a, b, c⟩⟩

/-- The request ids and written keys of a tenant, and what the others search for. -/
structure Footprint where
  requestIds : List String
  keys : List String
  queries : List String

namespace Footprint

variable (footprint : Footprint) (text : TextLibrary) (tenantId : String)

/-- The tenant keeps to its request ids and keys and stores nothing the others search for; the
others keep off its request ids and keys, and search for the listed texts. -/
structure Allows (authorized : AuthorizedRequest) : Prop where
  mine : authorized.tenantId = tenantId →
    authorized.validated.requestId ∈ footprint.requestIds ∧
      (∀ key ∈ authorized.event.request.writtenKey, key ∈ footprint.keys) ∧
      ∀ value ∈ authorized.event.request.upsertedValue, ∀ query ∈ footprint.queries,
        ¬ Matches text query value
  theirs : authorized.tenantId ≠ tenantId →
    authorized.validated.requestId ∉ footprint.requestIds ∧
      (∀ key ∈ authorized.event.request.key, key ∉ footprint.keys) ∧
      ∀ query ∈ authorized.event.request.searchedText, query ∈ footprint.queries

def Safe (state : IdempotencyCache × MemoryMap) : Prop :=
  ∀ entry ∈ state.2, entry.1 ∈ footprint.keys → ∀ query ∈ footprint.queries,
    ¬ Matches text query entry.2

/-- What the others can see: the state without the tenant's request ids and keys. -/
def view (state : IdempotencyCache × MemoryMap) : IdempotencyCache × MemoryMap :=
  (fun requestId => if requestId ∈ footprint.requestIds then none else state.1 requestId,
    state.2.restrict footprint.keys)

theorem view_cacheResponse_of_mem {requestId : String}
    (listed : requestId ∈ footprint.requestIds) (cache : IdempotencyCache)
    (response : CachedResponse) (entries : MemoryMap) :
    footprint.view (cacheResponse cache requestId response, entries) =
      footprint.view (cache, entries) := by
  refine Prod.ext (funext fun other => ?_) rfl
  by_cases same : other = requestId
  · subst same
    simp [view, listed]
  · simp [view, cacheResponse, Function.update_of_ne same]

theorem view_cacheResponse_of_notMem {requestId : String}
    (unlisted : requestId ∉ footprint.requestIds) (cache : IdempotencyCache)
    (response : CachedResponse) (entries : MemoryMap) :
    footprint.view (cacheResponse cache requestId response, entries) =
      (cacheResponse (footprint.view (cache, entries)).1 requestId response,
        entries.restrict footprint.keys) := by
  refine Prod.ext (funext fun other => ?_) rfl
  by_cases same : other = requestId
  · subst same
    simp [view, cacheResponse, unlisted]
  · simp [view, cacheResponse, Function.update_of_ne same]

variable {footprint text tenantId} {config : MemoryControllerConfig} {decode : TokenDecoder}
  {features : List String} {authorized : AuthorizedRequest}
  {state : IdempotencyCache × MemoryMap}

theorem store_serveAuthorized (config : MemoryControllerConfig) (decode : TokenDecoder)
    (features : List String) (text : TextLibrary) (authorized : AuthorizedRequest)
    (state : IdempotencyCache × MemoryMap) :
    (serveAuthorized (.withDefaultInMemory config decode features text) authorized state).2.2 ∈
      [state.2, authorized.event.request.effect state.2] := by
  obtain ⟨cache, entries⟩ := state
  rw [serveAuthorized_eq]
  split
  · exact List.mem_cons_self
  · have stored := store_execute config decode features text authorized.event.request
      authorized.event.env authorized.validated entries
    split <;> (rename_i executed; rw [executed] at stored; exact stored)

theorem safe_serveAuthorized (allows : footprint.Allows text tenantId authorized)
    (safe : footprint.Safe text state) :
    footprint.Safe text
      (serveAuthorized (.withDefaultInMemory config decode features text) authorized state).2 := by
  intro entry member listed query searched
  rcases List.mem_pair.mp (store_serveAuthorized config decode features text authorized state)
    with same | changed
  · exact safe entry (same ▸ member) listed query searched
  · rcases mem_effect (changed ▸ member) with old | ⟨key, value⟩
    · exact safe entry old listed query searched
    · -- only the tenant itself stores under its keys
      by_cases owner : authorized.tenantId = tenantId
      · exact (allows.mine owner).2.2 entry.2 value query searched
      · exact absurd listed ((allows.theirs owner).2.1 entry.1 key)

theorem view_of_mine (allows : footprint.Allows text tenantId authorized)
    (owner : authorized.tenantId = tenantId) :
    footprint.view (serveAuthorized (.withDefaultInMemory config decode features text)
      authorized state).2 = footprint.view state := by
  obtain ⟨listed, written, -⟩ := allows.mine owner
  have seen : (serveAuthorized (.withDefaultInMemory config decode features text) authorized
      state).2.2.restrict footprint.keys = state.2.restrict footprint.keys := by
    rcases List.mem_pair.mp (store_serveAuthorized config decode features text authorized state)
      with same | changed
    · rw [same]
    · rw [changed, restrict_effect written]
  refine Prod.ext ?_ seen
  obtain ⟨cache, entries⟩ := state
  rw [serveAuthorized_eq]
  split
  · rfl
  · split
    · rename_i response after _
      have kept := congrArg Prod.fst
        (view_cacheResponse_of_mem footprint listed cache response after)
      exact kept
    · rfl

theorem serveAuthorized_view (config : MemoryControllerConfig) (decode : TokenDecoder)
    (features : List String) (allows : footprint.Allows text tenantId authorized)
    (other : authorized.tenantId ≠ tenantId) (safe : footprint.Safe text state) :
    serveAuthorized (.withDefaultInMemory config decode features text) authorized
        (footprint.view state) =
      ((serveAuthorized (.withDefaultInMemory config decode features text) authorized state).1,
        footprint.view (serveAuthorized (.withDefaultInMemory config decode features text)
          authorized state).2) := by
  obtain ⟨unlisted, unnamed, searched⟩ := allows.theirs other
  obtain ⟨cache, entries⟩ := state
  have looked : checkCached (footprint.view (cache, entries)).1 authorized.validated.requestId =
      checkCached cache authorized.validated.requestId := by
    funext operation
    simp [checkCached, view, unlisted]
  have executed := execute_restrict config decode features authorized.event.env authorized.validated
    unnamed fun query sought entry member listed =>
      safe entry member listed query (searched query sought)
  rw [show footprint.view (cache, entries) =
    ((footprint.view (cache, entries)).1, entries.restrict footprint.keys) from rfl,
    serveAuthorized_eq, serveAuthorized_eq, looked, executed]
  split
  · rfl
  · generalize execute (.withDefaultInMemory config decode features text)
      (authorized.event.request.handler (.withDefaultInMemory config decode features text))
      authorized.event.env authorized.validated entries = outcome
    obtain ⟨result, after⟩ := outcome
    cases result with
    | error err => rfl
    | ok response =>
      refine Prod.ext rfl ?_
      exact (view_cacheResponse_of_notMem footprint unlisted cache response after).symm

theorem unwinding : Unwinding
    (serveAuthorized (.withDefaultInMemory config decode features text)) footprint.view
    (WriteOf tenantId) (·.tenantId ≠ tenantId) (footprint.Allows text tenantId)
    (footprint.Safe text) where
  hidden_keeps _ _ allows _ hides := view_of_mine allows hides.1
  shown_agrees authorized s t allows safeS safeT _ agree := by
    by_cases owner : authorized.tenantId = tenantId
    · rw [view_of_mine allows owner, view_of_mine allows owner, agree]
    · have seen := serveAuthorized_view config decode features allows owner safeS
      rw [agree, serveAuthorized_view _ _ _ allows owner safeT] at seen
      exact (congrArg Prod.snd seen).symm
  observed_agrees authorized s t allows safeS safeT other agree := by
    have seen := serveAuthorized_view config decode features allows other safeS
    rw [agree, serveAuthorized_view _ _ _ allows other safeT] at seen
    exact (congrArg Prod.fst seen).symm
  safe_keeps _ _ allows safe := safe_serveAuthorized allows safe
  observed_shown _ other hides := other hides.1

def ofRequests (tenantId : String) (requests : List AuthorizedRequest) : Footprint where
  requestIds := (requests.filter (·.tenantId = tenantId)).map (·.validated.requestId)
  keys := (requests.filter (·.tenantId = tenantId)).filterMap (·.event.request.writtenKey)
  queries := (requests.filter (·.tenantId ≠ tenantId)).filterMap (·.event.request.searchedText)

/-- Requests that have nothing in common with the tenant's keep to its footprint. -/
theorem allows_ofRequests {requests : List AuthorizedRequest}
    (apart : ∀ mine ∈ requests, ∀ theirs ∈ requests, mine.tenantId = tenantId →
      theirs.tenantId ≠ tenantId → Apart text mine theirs) :
    ∀ authorized ∈ requests, (ofRequests tenantId requests).Allows text tenantId authorized := by
  intro authorized member
  constructor
  · intro owner
    have listed : authorized ∈ requests.filter (·.tenantId = tenantId) :=
      List.mem_filter.mpr ⟨member, decide_eq_true owner⟩
    refine ⟨List.mem_map_of_mem listed, fun key written => ?_,
      fun value stored query searched => ?_⟩
    · exact List.mem_filterMap.mpr ⟨authorized, listed, written⟩
    · obtain ⟨theirs, other, sought⟩ := List.mem_filterMap.mp searched
      obtain ⟨otherMember, other⟩ := List.mem_filter.mp other
      exact (apart authorized member theirs otherMember owner (of_decide_eq_true other)).value
        value stored query sought
  · intro other
    refine ⟨fun listed => ?_, fun key named listed => ?_, fun query sought => ?_⟩
    · obtain ⟨mine, owned, same⟩ := List.mem_map.mp listed
      obtain ⟨mineMember, owner⟩ := List.mem_filter.mp owned
      exact (apart mine mineMember authorized member (of_decide_eq_true owner) other).requestId
        same.symm
    · obtain ⟨mine, owned, written⟩ := List.mem_filterMap.mp listed
      obtain ⟨mineMember, owner⟩ := List.mem_filter.mp owned
      exact (apart mine mineMember authorized member (of_decide_eq_true owner) other).key
        key written named
    · exact List.mem_filterMap.mpr
        ⟨authorized, List.mem_filter.mpr ⟨member, decide_eq_true other⟩, sought⟩

end Footprint

def authorizedRequests {π : Type} (ctx : ControllerContext π) (state : ControllerState π)
    (events : List Event) : List AuthorizedRequest :=
  (responses ctx state events).map Prod.fst

theorem authorizedRequests_of_all {π : Type} (ctx : ControllerContext π)
    (state : ControllerState π) (events : List Event) (contexts : List ValidatedContext)
    (all : (exchanges ctx state events).map (·.authorized ctx) = contexts.map some) :
    authorizedRequests ctx state events = List.zipWith AuthorizedRequest.mk events contexts := by
  induction events generalizing state contexts with
  | nil => rfl
  | cons event rest ih =>
    cases contexts with
    | nil => cases all
    | cons context contexts =>
      obtain ⟨here, later⟩ := List.cons.inj all
      simp only at here
      rw [authorizedRequests, responses, exchanges, List.filterMap_cons, here,
        List.zipWith_cons_cons, ← ih _ _ later]
      rfl

/-- **Tenant isolation.** Two runs of a new controller over the in-memory provider differ in
authorized upserts and deletes of a tenant only, and the tenant's requests have nothing in
common with those of the others. Then the answers to the others are the same. -/
theorem tenant_isolated_of_apart (config : MemoryControllerConfig) (decode : TokenDecoder)
    (features : List String) (text : TextLibrary) (tenantId : String) (first second : List Event)
    (differ : (authorizedRequests (.withDefaultInMemory config decode features text)
        (.start []) first).filter (¬ WriteOf tenantId ·) =
      (authorizedRequests (.withDefaultInMemory config decode features text)
        (.start []) second).filter (¬ WriteOf tenantId ·))
    (apart : ∀ mine ∈ authorizedRequests (.withDefaultInMemory config decode features text)
        (.start []) first ++ authorizedRequests (.withDefaultInMemory config decode features text)
        (.start []) second,
      ∀ theirs ∈ authorizedRequests (.withDefaultInMemory config decode features text)
        (.start []) first ++ authorizedRequests (.withDefaultInMemory config decode features text)
        (.start []) second,
      mine.tenantId = tenantId → theirs.tenantId ≠ tenantId → Apart text mine theirs) :
    (responses (.withDefaultInMemory config decode features text) (.start []) first).filter
        (·.1.tenantId ≠ tenantId) =
      (responses (.withDefaultInMemory config decode features text) (.start []) second).filter
        (·.1.tenantId ≠ tenantId) := by
  have allowed := Footprint.allows_ofRequests apart
  rw [responses_eq_outputs, responses_eq_outputs _ second]
  apply Footprint.unwinding.outputs_agree
  · exact fun authorized member => allowed authorized (List.mem_append_left _ member)
  · exact fun authorized member => allowed authorized (List.mem_append_right _ member)
  · exact differ
  · exact fun entry member => nomatch member
  · exact fun entry member => nomatch member
  · rfl

/-! ### Two tenants -/

/-- A controller that knows a token of one tenant and two of another. -/
def sharedController : ControllerContext MemoryMap :=
  echoController
    [("a-1", echoClaims "tenant-a" "jti-a-1" ["upsert", "delete"]),
      ("b-1", echoClaims "tenant-b" "jti-b-1" ["upsert"]),
      ("b-2", echoClaims "tenant-b" "jti-b-2" ["query", "read", "delete"])]

def firstStores : Event :=
  ⟨.upsert ⟨some (echoRequest "tenant-a" "a-1" "req-1"), "MEMORY.md", [104, 105], []⟩,
    echoAt 1735689600⟩

def firstDeletes (requestId : String) : Event :=
  ⟨.delete ⟨some (echoRequest "tenant-a" "a-1" requestId), "MEMORY.md"⟩, echoAt 1735689600⟩

def secondStores : Event :=
  ⟨.upsert ⟨some (echoRequest "tenant-b" "b-1" "req-2"), "notes.md", [111, 107], []⟩,
    echoAt 1735689601⟩

def secondReads (key : String) : Event :=
  ⟨.read ⟨some (echoRequest "tenant-b" "b-2" "req-3"), key⟩, echoAt 1735689602⟩

def secondSearches (query : String) : Event :=
  ⟨.query ⟨some (echoRequest "tenant-b" "b-2" "req-3"), query, 5⟩, echoAt 1735689602⟩

def secondDeletes : Event :=
  ⟨.delete ⟨some (echoRequest "tenant-b" "b-2" "req-3"), "notes.md"⟩, echoAt 1735689602⟩

/-- A tenant that stores and searches for a text of its own does not notice the other one. -/
theorem search_isolated :
    (responses sharedController (.start []) [firstStores, secondStores, secondSearches "ok"]).filter
        (·.1.tenantId ≠ "tenant-a") =
      (responses sharedController (.start []) [secondStores, secondSearches "ok"]).filter
        (·.1.tenantId ≠ "tenant-a") := by
  have run := authorizedRequests_of_all sharedController (.start [])
    [firstStores, secondStores, secondSearches "ok"]
    [⟨"req-1", "memory.echo", echoClaims "tenant-a" "jti-a-1" ["upsert", "delete"]⟩,
      ⟨"req-2", "memory.echo", echoClaims "tenant-b" "jti-b-1" ["upsert"]⟩,
      ⟨"req-3", "memory.echo", echoClaims "tenant-b" "jti-b-2" ["query", "read", "delete"]⟩]
    (by decide +kernel)
  have run' := authorizedRequests_of_all sharedController (.start [])
    [secondStores, secondSearches "ok"]
    [⟨"req-2", "memory.echo", echoClaims "tenant-b" "jti-b-1" ["upsert"]⟩,
      ⟨"req-3", "memory.echo", echoClaims "tenant-b" "jti-b-2" ["query", "read", "delete"]⟩]
    (by decide +kernel)
  apply tenant_isolated_of_apart
  · rw [show ControllerContext.withDefaultInMemory _ _ _ _ = sharedController from rfl, run, run']
    rfl
  · decide +kernel

def lastAnswer (events : List Event) : Option (Except Status CachedResponse) :=
  (exchanges sharedController (.start []) events).getLast?.map (·.answer sharedController)

/-- **A shared store.** A write of the first tenant changes what the second one reads under
its key, finds in a search, and is answered under its request id. -/
theorem tenants_share_store :
    lastAnswer [secondReads "MEMORY.md"] = some (.ok (.read false [])) ∧
      lastAnswer [firstStores, secondReads "MEMORY.md"] = some (.ok (.read true [104, 105])) ∧
      lastAnswer [secondSearches "hi"] = some (.ok (.query [])) ∧
      lastAnswer [firstStores, secondSearches "hi"] =
        some (.ok (.query [⟨"MEMORY.md", "hi", 1, 1, 1⟩])) ∧
      lastAnswer [secondStores, secondDeletes] = some (.ok (.delete true)) ∧
      lastAnswer [firstDeletes "req-3", secondStores, secondDeletes] =
        some (.ok (.delete false)) := by
  decide +kernel

end KelvinClaw.Memory
