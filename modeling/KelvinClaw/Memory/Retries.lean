import Mathlib.Data.Fintype.Basic
import KelvinClaw.Library.TransitionSystem
import KelvinClaw.Memory.Controller

/-!
# Retried requests

The requests of a controller run at the same time. After its authorization a request looks
its id up in the idempotency cache, calls the provider when it finds no response, and inserts
the response: three steps, between which other requests take theirs. A response stays in the
cache until another one is inserted under its request id.
-/

namespace KelvinClaw.Memory

open KelvinClaw.Core Systems

variable {ι π : Type}

/-! ### The steps of a request -/

inductive RequestPhase where
  | authorized
  | missed
  | called (response : CachedResponse)
  deriving DecidableEq

/-- A request under way. -/
structure Underway where
  event : Event
  validated : ValidatedContext
  phase : RequestPhase

def Underway.tag (ctx : ControllerContext π) (request : Underway) : MemoryOperation × String :=
  ((request.event.request.handler ctx).operation, request.validated.requestId)

/-- A request that has looked its id up and not inserted its response yet. -/
def Underway.InFlight (request : Underway) : Prop := request.phase ≠ .authorized

instance (request : Underway) : Decidable request.InFlight := by
  unfold Underway.InFlight
  infer_instance

/-- The controller, the request of each client, and the calls of the provider that have
succeeded, in their order. -/
structure RetryState (ι π : Type) where
  controller : ControllerState π
  underway : ι → Option Underway
  applied : List (MemoryOperation × String)

/-- A step of a client's request. -/
inductive RetryMove (ι : Type) where
  | authorize (client : ι) (event : Event)
  | lookUp (client : ι)
  | call (client : ι)
  | insert (client : ι)

namespace RetryState

variable [DecidableEq ι] (ctx : ControllerContext π) (s : RetryState ι π) (client : ι)
  (request : Underway)

/-- The client's request, or `none` after its answer. -/
def setRequest (next : Option Underway) : RetryState ι π :=
  { s with underway := Function.update s.underway client next }

@[simp] theorem underway_setRequest_self (next : Option Underway) :
    (s.setRequest client next).underway client = next :=
  Function.update_self ..

theorem underway_setRequest_of_ne (next : Option Underway) {other : ι} (others : other ≠ client) :
    (s.setRequest client next).underway other = s.underway other :=
  Function.update_of_ne others ..

def authorize (event : Event) : RetryState ι π :=
  match Memory.authorize ctx event s.controller.replayCache with
  | (.error _, cache) => { s with controller := { s.controller with replayCache := cache } }
  | (.ok validated, cache) =>
    { s with controller := { s.controller with replayCache := cache } }.setRequest client
      (some ⟨event, validated, .authorized⟩)

/-- `check_cached`: a response that is found is the answer. -/
def lookUp : RetryState ι π :=
  match checkCached s.controller.idempotency request.validated.requestId
      (request.tag ctx).1 with
  | some _ => s.setRequest client none
  | none => s.setRequest client (some { request with phase := .missed })

/-- The checks, the module and the provider. An error is the answer. -/
def call : RetryState ι π :=
  match execute ctx (request.event.request.handler ctx) request.event.env request.validated
      s.controller.provider with
  | (.error _, store) =>
    { s with controller := { s.controller with provider := store } }.setRequest client none
  | (.ok response, store) =>
    { s with
      controller := { s.controller with provider := store }
      applied := s.applied ++ [request.tag ctx] }.setRequest client
        (some { request with phase := .called response })

/-- `cache_response`, and the answer. -/
def insert (response : CachedResponse) : RetryState ι π :=
  { s with
    controller := { s.controller with
      idempotency := cacheResponse s.controller.idempotency request.validated.requestId
        response } }.setRequest client none

def step : RetryMove ι → Option (RetryState ι π)
  | .authorize client event =>
    match s.underway client with
    | none => some (s.authorize ctx client event)
    | some _ => none
  | .lookUp client =>
    match s.underway client with
    | some ⟨event, validated, .authorized⟩ =>
      some (s.lookUp ctx client ⟨event, validated, .authorized⟩)
    | _ => none
  | .call client =>
    match s.underway client with
    | some ⟨event, validated, .missed⟩ => some (s.call ctx client ⟨event, validated, .missed⟩)
    | _ => none
  | .insert client =>
    match s.underway client with
    | some ⟨event, validated, .called response⟩ =>
      some (s.insert client ⟨event, validated, .called response⟩ response)
    | _ => none

end RetryState

/-- Any number of clients of a new controller, with one request at a time each. -/
def requests (ι : Type) [DecidableEq ι] (ctx : ControllerContext π) (store : π) :
    TransitionSystem (RetryState ι π) (RetryMove ι) where
  init s := s = ⟨.start store, fun _ => none, []⟩
  step := RetryState.step ctx

/-- The steps of a request that nothing interrupts do to the controller what serving the
request does. -/
theorem serve_of_steps [DecidableEq ι] {ctx : ControllerContext π} {store : π}
    {s : RetryState ι π} {client : ι} {event : Event} {validated : ValidatedContext}
    (held : s.underway client = some ⟨event, validated, .authorized⟩) :
    ∃ moves, ((requests ι ctx store).run? (fun _ _ => True) s moves).map
        (fun t => (t.controller, t.underway client)) =
      some ((serve ctx event validated s.controller).2, none) := by
  cases found : checkCached s.controller.idempotency validated.requestId
      (event.request.handler ctx).operation with
  | some cached =>
    refine ⟨[.lookUp client], ?_⟩
    rw [serve_of_cached _ found]
    simp [TransitionSystem.run?, requests, RetryState.step, RetryState.lookUp, held, found,
      Underway.tag]
    rfl
  | none =>
    cases executed : execute ctx (event.request.handler ctx) event.env validated
        s.controller.provider with
    | mk result after =>
      cases result with
      | error err =>
        refine ⟨[.lookUp client, .call client], ?_⟩
        rw [serve_of_failed _ found executed]
        simp [TransitionSystem.run?, requests, RetryState.step, RetryState.lookUp, held, found,
          Underway.tag, RetryState.call, RetryState.setRequest, executed]
      | ok response =>
        refine ⟨[.lookUp client, .call client, .insert client], ?_⟩
        rw [serve_of_executed _ found executed]
        simp [TransitionSystem.run?, requests, RetryState.step, RetryState.lookUp, held, found,
          Underway.tag, RetryState.call, RetryState.insert, RetryState.setRequest, executed]

/-! ### Applied once -/

/-- The operations that change what the provider stores. -/
def MemoryOperation.Mutates (operation : MemoryOperation) : Prop :=
  operation = .upsert ∨ operation = .delete

instance (operation : MemoryOperation) : Decidable operation.Mutates := by
  unfold MemoryOperation.Mutates
  infer_instance

def AppliedOnce (s : RetryState ι π) : Prop :=
  ∀ operation : MemoryOperation, operation.Mutates → ∀ requestId,
    s.applied.count (operation, requestId) ≤ 1

/-- An upsert or delete that finds no response is the only one of its operation and request id
between look-up and insertion; a response is not inserted over that of an upsert or delete,
unless it is one of the same operation. -/
def Orderly (ctx : ControllerContext π) (s : RetryState ι π) : RetryMove ι → Prop
  | .lookUp client => ∀ request ∈ s.underway client, (request.tag ctx).1.Mutates →
    checkCached s.controller.idempotency request.validated.requestId (request.tag ctx).1 = none →
    ∀ other, ∀ overlapping ∈ s.underway other, overlapping.InFlight →
      overlapping.tag ctx ≠ request.tag ctx
  | .insert client => ∀ request ∈ s.underway client,
    ∀ cached ∈ s.controller.idempotency request.validated.requestId,
      cached.operation.Mutates → cached.operation = (request.tag ctx).1
  | .authorize _ _ | .call _ => True

/-- What orderly runs keep. -/
structure RetryInvariant (ctx : ControllerContext π) (s : RetryState ι π) : Prop where
  /-- Upserts and deletes of one request id do not overlap. -/
  alone : ∀ client request other overlapping, s.underway client = some request →
    s.underway other = some overlapping → request.InFlight → overlapping.InFlight →
    (request.tag ctx).1.Mutates → overlapping.tag ctx = request.tag ctx → other = client
  /-- What is about to be applied has not been applied. -/
  fresh : ∀ client request, s.underway client = some request → request.phase = .missed →
    (request.tag ctx).1.Mutates → request.tag ctx ∉ s.applied
  /-- A response is one of the operation of its request. -/
  response : ∀ client request response, s.underway client = some request →
    request.phase = .called response → response.operation = (request.tag ctx).1
  /-- What has been applied is in the cache, or on its way there. -/
  remembered : ∀ tag ∈ s.applied, tag.1.Mutates →
    (∃ cached, s.controller.idempotency tag.2 = some cached ∧ cached.operation = tag.1) ∨
      ∃ client request response, s.underway client = some request ∧
        request.phase = .called response ∧ request.tag ctx = tag
  once : AppliedOnce s

section Invariant

variable [DecidableEq ι] {ctx : ControllerContext π} {s t : RetryState ι π} {client : ι}
  {request : Underway} {controller : ControllerState π}

/-- The requests after one of them has moved on: that one, and the others as they were. -/
theorem underway_setRequest {next : Option Underway} {other : ι} {found : Underway}
    (held : (s.setRequest client next).underway other = some found) :
    other = client ∧ next = some found ∨ other ≠ client ∧ s.underway other = some found := by
  by_cases same : other = client
  · subst same
    rw [RetryState.underway_setRequest_self] at held
    exact .inl ⟨rfl, held⟩
  · rw [RetryState.underway_setRequest_of_ne _ _ _ same] at held
    exact .inr ⟨same, held⟩

omit [DecidableEq ι] in
theorem uncalled_of_phase {phase : RequestPhase} (held : s.underway client = some request)
    (at_ : request.phase = phase) (open_ : ∀ response, phase ≠ .called response) :
    ∀ found ∈ s.underway client, ∀ response, found.phase ≠ .called response := by
  intro found member response called
  obtain rfl := Option.some_inj.mp (held.symm.trans member)
  exact open_ response (at_.symm.trans called)

/-- A request that is about to insert its response stays when a client moves that is not. -/
theorem underway_of_called {next : Option Underway} {other : ι} {found : Underway}
    {response : CachedResponse}
    (uncalled : ∀ request ∈ s.underway client, ∀ response, request.phase ≠ .called response)
    (before : s.underway other = some found) (called : found.phase = .called response) :
    (s.setRequest client next).underway other = some found := by
  have others : other ≠ client := by
    rintro rfl
    exact uncalled found before response called
  rwa [RetryState.underway_setRequest_of_ne _ _ _ others]

/-- Requests of one tag still do not overlap when the request of a client in flight is the only
one of its tag. -/
theorem RetryInvariant.alone_setRequest {next : Option Underway} (inv : RetryInvariant ctx s)
    (sole : ∀ request ∈ next, request.InFlight → (request.tag ctx).1.Mutates →
      ∀ other overlapping, s.underway other = some overlapping → overlapping.InFlight →
        overlapping.tag ctx = request.tag ctx → other = client) :
    ∀ mover request other overlapping,
      (s.setRequest client next).underway mover = some request →
      (s.setRequest client next).underway other = some overlapping → request.InFlight →
      overlapping.InFlight → (request.tag ctx).1.Mutates →
      overlapping.tag ctx = request.tag ctx → other = mover := by
  intro mover request other overlapping held held' flying flying' mutates same
  rcases underway_setRequest held with ⟨rfl, now⟩ | ⟨-, before⟩
  · rcases underway_setRequest held' with ⟨rfl, -⟩ | ⟨-, before'⟩
    · rfl
    · exact sole request now flying mutates other overlapping before' flying' same
  · rcases underway_setRequest held' with ⟨rfl, now⟩ | ⟨-, before'⟩
    · exact (sole overlapping now flying' (same ▸ mutates) mover request before flying
        same.symm).symm
    · exact inv.alone mover request other overlapping before before' flying flying' mutates same

/-- A client that had nothing to insert and has nothing in flight now breaks nothing. -/
theorem RetryInvariant.setIdle {next : Option Underway} (inv : RetryInvariant ctx s)
    (cache : controller.idempotency = s.controller.idempotency)
    (uncalled : ∀ request ∈ s.underway client, ∀ response, request.phase ≠ .called response)
    (idle : ∀ request ∈ next, request.phase = .authorized) :
    RetryInvariant ctx ({ s with controller := controller }.setRequest client next) where
  alone := inv.alone_setRequest fun request now flying => absurd (idle request now) flying
  fresh mover request held missed mutates := by
    rcases underway_setRequest held with ⟨-, now⟩ | ⟨-, before⟩
    · rw [idle request now] at missed
      cases missed
    · exact inv.fresh mover request before missed mutates
  response mover request response held called := by
    rcases underway_setRequest held with ⟨-, now⟩ | ⟨-, before⟩
    · rw [idle request now] at called
      cases called
    · exact inv.response mover request response before called
  remembered tag applied mutates := by
    rcases inv.remembered tag applied mutates with
      cached | ⟨other, request, response, held, called, same⟩
    · left
      change ∃ cached, controller.idempotency tag.2 = some cached ∧ cached.operation = tag.1
      rwa [cache]
    · exact .inr ⟨other, request, response, underway_of_called uncalled held called, called, same⟩
  once := inv.once

theorem RetryInvariant.authorize (inv : RetryInvariant ctx s) (free : s.underway client = none)
    (event : Event) : RetryInvariant ctx (s.authorize ctx client event) := by
  have uncalled : ∀ request ∈ s.underway client, ∀ response, request.phase ≠ .called response := by
    rw [free]
    exact fun _ none => nomatch none
  unfold RetryState.authorize
  split
  · exact ⟨inv.alone, inv.fresh, inv.response, inv.remembered, inv.once⟩
  · refine inv.setIdle ?_ uncalled ?_
    · rfl
    · rintro request ⟨⟩
      rfl

theorem RetryInvariant.lookUp (inv : RetryInvariant ctx s)
    (held : s.underway client = some request) (phase : request.phase = .authorized)
    (orderly : Orderly ctx s (.lookUp client)) :
    RetryInvariant ctx (s.lookUp ctx client request) := by
  have uncalled := uncalled_of_phase held phase nofun
  unfold RetryState.lookUp
  split
  · exact inv.setIdle rfl uncalled fun _ none => nomatch none
  · rename_i missed
    have apart := fun mutates => orderly request held mutates missed
    constructor
    · apply inv.alone_setRequest
      intro found now _ mutates other overlapping before flying same
      obtain rfl := Option.some_inj.mp now
      exact absurd same (apart mutates other overlapping before flying)
    · intro mover found heldNow missedNow mutates applied
      rcases underway_setRequest heldNow with ⟨rfl, now⟩ | ⟨-, before⟩
      · obtain rfl := Option.some_inj.mp now
        -- what is applied is in the cache, or another request is about to put it there
        rcases inv.remembered _ applied mutates with
          ⟨cached, stored, same⟩ | ⟨other, overlapping, response, before, called, same⟩
        · have found : checkCached s.controller.idempotency request.validated.requestId
              (request.tag ctx).1 = some cached :=
            Option.filter_eq_some_iff.mpr ⟨stored, decide_eq_true same⟩
          rw [found] at missed
          cases missed
        · refine apart mutates other overlapping before ?_ same
          rw [Underway.InFlight, called]
          exact nofun
      · exact inv.fresh mover found before missedNow mutates applied
    · intro mover found response heldNow called
      rcases underway_setRequest heldNow with ⟨-, now⟩ | ⟨-, before⟩
      · obtain rfl := Option.some_inj.mp now
        cases called
      · exact inv.response mover found response before called
    · intro tag applied mutates
      rcases inv.remembered tag applied mutates with
        cached | ⟨other, found, response, before, called, same⟩
      · exact .inl cached
      · exact .inr ⟨other, found, response, underway_of_called uncalled before called, called, same⟩
    · exact inv.once

theorem RetryInvariant.call (inv : RetryInvariant ctx s)
    (held : s.underway client = some request) (phase : request.phase = .missed) :
    RetryInvariant ctx (s.call ctx client request) := by
  have uncalled := uncalled_of_phase held phase nofun
  have flies : request.InFlight := by
    rw [Underway.InFlight, phase]
    exact nofun
  -- a call that fails applies nothing and leaves its client idle
  unfold RetryState.call
  split
  · exact inv.setIdle rfl uncalled fun _ none => nomatch none
  · rename_i response store executed
    constructor
    · -- the request was in flight before, so no other of its tag was
      apply inv.alone_setRequest
      intro found now _ mutates other overlapping before flying same
      obtain rfl := Option.some_inj.mp now
      exact inv.alone client request other overlapping held before flies flying mutates same
    · intro mover found heldNow missed mutates applied
      rcases underway_setRequest heldNow with ⟨-, now⟩ | ⟨others, before⟩
      · obtain rfl := Option.some_inj.mp now
        cases missed
      · rcases List.mem_append.mp applied with earlier | latest
        · exact inv.fresh mover found before missed mutates earlier
        · -- only this request was in flight under its tag
          have same := List.mem_singleton.mp latest
          have flying : found.InFlight := by
            rw [Underway.InFlight, missed]
            exact nofun
          exact others (inv.alone client request mover found held before flies flying
            (same ▸ mutates) same)
    · intro mover found answer heldNow called
      rcases underway_setRequest heldNow with ⟨-, now⟩ | ⟨-, before⟩
      · obtain rfl := Option.some_inj.mp now
        obtain rfl := RequestPhase.called.inj called
        exact operation_of_execute executed
      · exact inv.response mover found answer before called
    · intro tag applied mutates
      rcases List.mem_append.mp applied with earlier | latest
      · rcases inv.remembered tag earlier mutates with
          cached | ⟨other, found, answer, before, called, same⟩
        · exact .inl cached
        · exact .inr ⟨other, found, answer, underway_of_called uncalled before called, called, same⟩
      · refine .inr ⟨client, { request with phase := .called response }, response, ?_, rfl,
          (List.mem_singleton.mp latest).symm⟩
        exact RetryState.underway_setRequest_self ..
    · intro operation mutates requestId
      change (s.applied ++ [request.tag ctx]).count (operation, requestId) ≤ 1
      rw [List.count_append, List.count_singleton]
      split
      · rename_i same
        have tag := eq_of_beq same
        have fresh := inv.fresh client request held phase (congrArg Prod.fst tag ▸ mutates)
        rw [← tag, List.count_eq_zero.mpr fresh]
      · exact inv.once operation mutates requestId

theorem RetryInvariant.insert {response : CachedResponse} (inv : RetryInvariant ctx s)
    (held : s.underway client = some request) (phase : request.phase = .called response)
    (orderly : Orderly ctx s (.insert client)) :
    RetryInvariant ctx (s.insert client request response) := by
  unfold RetryState.insert
  constructor
  · apply inv.alone_setRequest
    intro found none
    cases none
  · intro mover found heldNow missed mutates
    rcases underway_setRequest heldNow with ⟨-, now⟩ | ⟨-, before⟩
    · cases now
    · exact inv.fresh mover found before missed mutates
  · intro mover found answer heldNow called
    rcases underway_setRequest heldNow with ⟨-, now⟩ | ⟨-, before⟩
    · cases now
    · exact inv.response mover found answer before called
  · intro tag applied mutates
    have operation := inv.response client request response held phase
    change (∃ cached, cacheResponse s.controller.idempotency request.validated.requestId response
      tag.2 = some cached ∧ cached.operation = tag.1) ∨ _
    rcases inv.remembered tag applied mutates with
      ⟨cached, stored, same⟩ | ⟨other, found, answer, before, called, same⟩
    · left
      by_cases here : tag.2 = request.validated.requestId
      · -- the response that is replaced is one of the same operation
        rw [here] at stored
        have kept := orderly request held cached stored (same ▸ mutates)
        exact ⟨response, by rw [here]; exact Function.update_self ..,
          operation.trans (kept.symm.trans same)⟩
      · exact ⟨cached, by rw [← stored]; exact Function.update_of_ne here .., same⟩
    · by_cases mine : other = client
      · subst mine
        obtain rfl := Option.some_inj.mp (held.symm.trans before)
        left
        refine ⟨response, ?_, operation.trans (congrArg Prod.fst same)⟩
        rw [← congrArg Prod.snd same]
        exact Function.update_self ..
      · refine .inr ⟨other, found, answer, ?_, called, same⟩
        rwa [RetryState.underway_setRequest_of_ne _ _ _ mine]
  · exact inv.once

theorem RetryInvariant.step {move : RetryMove ι} (inv : RetryInvariant ctx s)
    (orderly : Orderly ctx s move) (moves : s.step ctx move = some t) : RetryInvariant ctx t := by
  cases move with
  | authorize client event =>
    simp only [RetryState.step] at moves
    split at moves
    · rename_i free
      cases moves
      exact inv.authorize free event
    · cases moves
  | lookUp client =>
    simp only [RetryState.step] at moves
    split at moves
    · rename_i held
      cases moves
      exact inv.lookUp held rfl orderly
    · cases moves
  | call client =>
    simp only [RetryState.step] at moves
    split at moves
    · rename_i held
      cases moves
      exact inv.call held rfl
    · cases moves
  | insert client =>
    simp only [RetryState.step] at moves
    split at moves
    · rename_i held
      cases moves
      exact inv.insert held rfl orderly
    · cases moves

end Invariant

/-- **Applied once.** In every run in which upserts and deletes of one request id do not
overlap and their responses are not displaced, each of them is applied at most once. -/
theorem appliedOnce_of_orderly [DecidableEq ι] (ctx : ControllerContext π) (store : π)
    {s : RetryState ι π}
    (reached : (requests ι ctx store).ReachableWhen (Orderly ctx) s) : AppliedOnce s := by
  refine (reached.invariant (RetryInvariant ctx) ?_ ?_).once
  · rintro _ rfl
    constructor
    · exact fun _ _ _ _ held => nomatch held
    · exact fun _ _ held => nomatch held
    · exact fun _ _ _ held => nomatch held
    · exact fun _ member => nomatch member
    · exact fun _ _ _ => Nat.zero_le _
  · exact fun s move t inv orderly moves => inv.step orderly moves

/-! ### Two retries -/

instance [Fintype ι] (ctx : ControllerContext π) (s : RetryState ι π) :
    ∀ move, Decidable (Orderly ctx s move)
  | .lookUp client => by
    unfold Orderly
    infer_instance
  | .insert client => by
    unfold Orderly
    infer_instance
  | .authorize _ _ | .call _ => .isTrue trivial

def retryController : ControllerContext MemoryMap :=
  echoController
    [("token-1", echoClaims "tenant-a" "jti-1" ["upsert"]),
      ("token-2", echoClaims "tenant-a" "jti-2" ["upsert"])]

/-- An upsert under the request id `req-1`. -/
def retriedUpsert (token : String) : Event :=
  ⟨.upsert ⟨some (echoRequest "tenant-a" token "req-1"), "MEMORY.md", [104, 105], []⟩,
    echoAt 1735689600⟩

/-- A retry that comes after the answer is answered from the cache. -/
theorem later_retry_applied_once :
    ∃ s, (requests Bool retryController []).ReachableWhen (Orderly retryController) s ∧
      s.applied = [(.upsert, "req-1")] ∧ s.underway true = none ∧ AppliedOnce s := by
  have ran : ((requests Bool retryController []).run? (Orderly retryController)
      ⟨.start [], fun _ => none, []⟩
      [.authorize false (retriedUpsert "token-1"), .lookUp false, .call false, .insert false,
        .authorize true (retriedUpsert "token-2"), .lookUp true]).map
      (fun s => (s.applied, (s.underway true).isNone)) = some ([(.upsert, "req-1")], true) := by
    decide +kernel
  obtain ⟨s, reached, seen⟩ := TransitionSystem.exists_of_run? (.init rfl) ran
  obtain ⟨applied, answered⟩ := Prod.mk.inj seen
  exact ⟨s, reached, applied, Option.isNone_iff_eq_none.mp answered,
    appliedOnce_of_orderly retryController [] reached⟩

/-- **Overlapping retries.** Both upserts look their request id up before one of them inserts
its response, and both are applied. -/
theorem overlapping_retries_apply_twice :
    ∃ s, (requests Bool retryController []).Reachable s ∧ ¬ AppliedOnce s := by
  have ran : ((requests Bool retryController []).run? (fun _ _ => True)
      ⟨.start [], fun _ => none, []⟩
      [.authorize false (retriedUpsert "token-1"), .lookUp false,
        .authorize true (retriedUpsert "token-2"), .lookUp true, .call false, .insert false,
        .call true]).map (·.applied) = some [(.upsert, "req-1"), (.upsert, "req-1")] := by
    decide +kernel
  obtain ⟨s, reached, applied⟩ := TransitionSystem.exists_of_run? (.init rfl) ran
  refine ⟨s, reached, fun once => ?_⟩
  have twice := once .upsert (.inl rfl) "req-1"
  rw [applied] at twice
  exact absurd twice (by decide)

end KelvinClaw.Memory
