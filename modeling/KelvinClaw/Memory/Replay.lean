import KelvinClaw.Memory.Controller

/-!
# Replayed tokens

An authorization that passes every check of the token presents the token id to the replay
cache, together with the time until which it is to be remembered: the expiry of the token,
or the end of the replay window if that is earlier. A token id that is remembered is refused.
-/

namespace KelvinClaw.Memory

open KelvinClaw.Core Systems

variable {π : Type} {ctx : ControllerContext π}

def ValidatedContext.attempt (config : MemoryControllerConfig) (env : Environment)
    (validated : ValidatedContext) : InsertAttempt String ℕ :=
  ⟨validated.claims.jti, replayExp config env.checkedAt validated.claims, env.prunedAt⟩

/-- What a request presents to the replay cache, if it gets that far. -/
def replayAttempt (ctx : ControllerContext π) (event : Event) : Option (InsertAttempt String ℕ) :=
  let handler := event.request.handler ctx
  (checkContext ctx.config ctx.decode event.env.verifiedAt handler.context
    handler.operation).toOption.map (·.attempt ctx.config event.env)

def Exchange.acceptance (ctx : ControllerContext π) (exchange : Exchange π) :
    Option (InsertAttempt String ℕ) :=
  (exchange.authorized ctx).map (·.attempt ctx.config exchange.event.env)

theorem ReplayCache.insertOrReject_eq (cache : ReplayCache) (now : ℕ) (jti : String) (exp : ℕ) :
    cache.insertOrReject now jti exp =
      (if (ExpiringSet.insertOrReject cache ⟨jti, exp, now⟩).1 then .ok ()
        else .error (.invalidInput s!"replayed delegation token jti '{jti}'"),
      (ExpiringSet.insertOrReject cache ⟨jti, exp, now⟩).2) := by
  unfold ReplayCache.insertOrReject
  generalize ExpiringSet.insertOrReject cache ⟨jti, exp, now⟩ = outcome
  rcases outcome with ⟨_ | _, after⟩ <;> rfl

/-- A request that does not reach the replay cache is refused and leaves it as it is. -/
theorem authorize_of_unchecked {event : Event} (cache : ReplayCache)
    (unchecked : replayAttempt ctx event = none) :
    (authorize ctx event cache).1.toOption = none ∧ (authorize ctx event cache).2 = cache := by
  simp only [replayAttempt] at unchecked
  simp only [authorize, validateContext]
  cases checked : checkContext ctx.config ctx.decode event.env.verifiedAt
      (event.request.handler ctx).context (event.request.handler ctx).operation with
  | error err => exact ⟨rfl, rfl⟩
  | ok validated =>
    rw [checked] at unchecked
    cases unchecked

theorem authorize_of_attempt {event : Event} {attempt : InsertAttempt String ℕ}
    (cache : ReplayCache) (presents : replayAttempt ctx event = some attempt) :
    (authorize ctx event cache).2 = (ExpiringSet.insertOrReject cache attempt).2 ∧
      (authorize ctx event cache).1.toOption.map (·.attempt ctx.config event.env) =
        if (ExpiringSet.insertOrReject cache attempt).1 then some attempt else none := by
  simp only [replayAttempt] at presents
  simp only [authorize, validateContext]
  cases checked : checkContext ctx.config ctx.decode event.env.verifiedAt
      (event.request.handler ctx).context (event.request.handler ctx).operation with
  | error err =>
    rw [checked] at presents
    cases presents
  | ok validated =>
    rw [checked] at presents
    obtain rfl := Option.some_inj.mp presents
    simp only [ReplayCache.insertOrReject_eq, ValidatedContext.attempt]
    constructor
    · trivial
    · split <;> simp_all [Except.map, Except.toOption]

theorem acceptances_exchanges (state : ControllerState π) (events : List Event) :
    (exchanges ctx state events).filterMap (·.acceptance ctx) =
      ExpiringSet.accepted state.replayCache (events.filterMap (replayAttempt ctx)) := by
  induction events generalizing state with
  | nil => rfl
  | cons event rest ih =>
    rw [exchanges, List.filterMap_cons, ih, replayCache_handle]
    cases presents : replayAttempt ctx event with
    | none =>
      obtain ⟨refused, unchanged⟩ := authorize_of_unchecked state.replayCache presents
      simp only [Exchange.acceptance, Exchange.authorized, refused, unchanged,
        List.filterMap_cons, presents, Option.map_none]
    | some attempt =>
      obtain ⟨cache, acceptance⟩ := authorize_of_attempt state.replayCache presents
      simp only [Exchange.acceptance, Exchange.authorized, cache, acceptance,
        List.filterMap_cons, presents, ExpiringSet.accepted]
      by_cases accepts : (ExpiringSet.insertOrReject state.replayCache attempt).1
      · simp only [accepts, if_true]
      · simp only [accepts, if_false, Bool.false_eq_true]

/-- A clock that does not go back: the readings of the replay cache come in order. -/
def NondecreasingClock (events : List Event) : Prop :=
  events.Pairwise (·.env.prunedAt ≤ ·.env.prunedAt)

instance (events : List Event) : Decidable (NondecreasingClock events) := by
  unfold NondecreasingClock
  infer_instance

theorem NondecreasingClock.attempts (ctx : ControllerContext π) {events : List Event}
    (clock : NondecreasingClock events) :
    (events.filterMap (replayAttempt ctx)).Pairwise (·.now ≤ ·.now) := by
  rw [List.pairwise_filterMap]
  refine clock.imp fun ordered first presents second presents' => ?_
  -- an attempt carries the reading of its request
  have reading : ∀ event attempt, replayAttempt ctx event = some attempt →
      attempt.now = event.env.prunedAt := by
    intro event attempt presents
    obtain ⟨validated, -, rfl⟩ := Option.map_eq_some_iff.mp presents
    rfl
  rw [reading _ _ presents, reading _ _ presents']
  exact ordered

/-- **No replay while remembered.** In every run with a clock that does not go back, a token
id that was accepted is not accepted again before the expiry of the token and the end of the
replay window (before the expiry alone, when the window is zero). -/
theorem accepted_once_while_remembered (ctx : ControllerContext π) (state : ControllerState π)
    (events : List Event) (clock : NondecreasingClock events) :
    (exchanges ctx state events).Pairwise fun earlier later =>
      ∀ first second, earlier.authorized ctx = some first → later.authorized ctx = some second →
        second.claims.jti = first.claims.jti →
        replayExp ctx.config earlier.event.env.checkedAt first.claims ≤
          later.event.env.prunedAt := by
  have once := ExpiringSet.pairwise_accepted state.replayCache (clock.attempts ctx)
  rw [← acceptances_exchanges, List.pairwise_filterMap] at once
  refine once.imp fun {earlier later} apart first second accepted accepted' same => ?_
  refine apart (first.attempt ctx.config earlier.event.env) ?_
    (second.attempt ctx.config later.event.env) ?_ same
  · rw [Exchange.acceptance, accepted, Option.map_some]
  · rw [Exchange.acceptance, accepted', Option.map_some]

/-! ### A token that is presented again -/

def repeatedRead (firstAt secondAt : ℕ) : List Event :=
  [firstAt, secondAt].map fun now =>
    ⟨.read ⟨some (echoRequest "tenant-a" "token-1" s!"req-{now}"), "a"⟩, echoAt now⟩

/-- A controller in its default configuration that knows one token, valid until 2100. -/
def oneTokenController : ControllerContext MemoryMap :=
  echoController [("token-1", echoClaims "tenant-a" "jti-1" ["read"])]

def acceptedIds (ctx : ControllerContext π) (state : ControllerState π) (events : List Event) :
    List String :=
  (exchanges ctx state events).filterMap fun exchange =>
    (exchange.authorized ctx).map (·.claims.jti)

/-- Within the replay window of 120 seconds the second request is refused. -/
example : acceptedIds oneTokenController (.start []) (repeatedRead 1735689600 1735689719) =
    ["jti-1"] := by
  decide +kernel

/-- In a run that repeats a token, the end of the replay window is between the acceptances. -/
theorem repeatedRead_accepted_once_while_remembered :
    NondecreasingClock (repeatedRead 1735689600 1735689720) ∧
      (exchanges oneTokenController (.start []) (repeatedRead 1735689600 1735689720)).Pairwise
        fun earlier later => ∀ first second,
          earlier.authorized oneTokenController = some first →
          later.authorized oneTokenController = some second →
          second.claims.jti = first.claims.jti →
          replayExp oneTokenController.config earlier.event.env.checkedAt first.claims ≤
            later.event.env.prunedAt :=
  ⟨by decide, accepted_once_while_remembered _ _ _ (by decide)⟩

/-- **A replayed token.** In the default configuration a token that is valid until 2100 is
accepted in 2025, and accepted once more 120 seconds later. -/
theorem replayed_after_window :
    MemoryControllerConfig.default.validate = .ok () ∧
      NondecreasingClock (repeatedRead 1735689600 1735689720) ∧
      acceptedIds oneTokenController (.start []) (repeatedRead 1735689600 1735689720) =
        ["jti-1", "jti-1"] := by
  decide +kernel

end KelvinClaw.Memory
