import KelvinClaw.Core.Basic
import KelvinClaw.Library.SlidingWindow
import KelvinClaw.Library.TransitionSystem

/-!
# The call budget of an installed plugin

An installed tool or model provider keeps, under a lock, the times of its last calls, a count of
failures and the time until which its circuit is open. A call is admitted under the lock, executes
without it, and reports its success or failure under it again, so that calls overlap. Times are
counted in nanoseconds.
-/

namespace KelvinClaw.Plugin

open KelvinClaw.Core Systems Systems.TransitionSystem

/-! ### Controls -/

def operationalMaxTimeout : ℕ := 600000

def operationalMaxRetries : ℕ := 5

def operationalMaxCallsPerMinute : ℕ := 10000

def operationalMaxCircuitBreakerFailures : ℕ := 100

def operationalMaxCircuitBreakerCooldown : ℕ := 600000

/-- The operational controls as the manifest has them. -/
structure OperationalControlsManifest where
  timeoutMs : ℕ
  maxRetries : ℕ
  maxCallsPerMinute : ℕ
  circuitBreakerFailures : ℕ
  circuitBreakerCooldownMs : ℕ
  deriving DecidableEq, Repr

/-- The operational controls of a plugin that is loaded. -/
structure OperationalControls where
  timeoutMs : ℕ
  maxRetries : ℕ
  maxCallsPerMinute : ℕ
  circuitBreakerFailures : ℕ
  circuitBreakerCooldownMs : ℕ
  failuresPos : 0 < circuitBreakerFailures
  failuresLe : circuitBreakerFailures ≤ operationalMaxCircuitBreakerFailures
  cooldownPos : 0 < circuitBreakerCooldownMs

def normalizeControls (pluginId : String) (controls : OperationalControlsManifest) :
    KelvinResult OperationalControls :=
  if controls.timeoutMs = 0 ∨ operationalMaxTimeout < controls.timeoutMs then
    .error (.invalidInput
      s!"plugin '{pluginId}' timeout_ms must be between 1 and {operationalMaxTimeout}")
  else if operationalMaxRetries < controls.maxRetries then
    .error (.invalidInput s!"plugin '{pluginId}' max_retries must be <= {operationalMaxRetries}")
  else if controls.maxCallsPerMinute = 0 ∨
      operationalMaxCallsPerMinute < controls.maxCallsPerMinute then
    .error (.invalidInput (s!"plugin '{pluginId}' max_calls_per_minute must be between 1 and " ++
      s!"{operationalMaxCallsPerMinute}"))
  else if failures : controls.circuitBreakerFailures = 0 ∨
      operationalMaxCircuitBreakerFailures < controls.circuitBreakerFailures then
    .error (.invalidInput (s!"plugin '{pluginId}' circuit_breaker_failures must be between 1 " ++
      s!"and {operationalMaxCircuitBreakerFailures}"))
  else if cooldown : controls.circuitBreakerCooldownMs < 100 ∨
      operationalMaxCircuitBreakerCooldown < controls.circuitBreakerCooldownMs then
    .error (.invalidInput (s!"plugin '{pluginId}' circuit_breaker_cooldown_ms must be between " ++
      s!"100 and {operationalMaxCircuitBreakerCooldown}"))
  else
    .ok
      { timeoutMs := controls.timeoutMs
        maxRetries := controls.maxRetries
        maxCallsPerMinute := controls.maxCallsPerMinute
        circuitBreakerFailures := controls.circuitBreakerFailures
        circuitBreakerCooldownMs := controls.circuitBreakerCooldownMs
        failuresPos := Nat.pos_of_ne_zero fun zero => failures (.inl zero)
        failuresLe := Nat.le_of_not_lt fun many => failures (.inr many)
        cooldownPos := Nat.pos_of_ne_zero fun zero => cooldown (.inl (by omega)) }

def nanosPerMilli : ℕ := 1000000

/-- The window of `MEMORY_WINDOW_SECS`. -/
def callWindow : ℕ := 60000 * nanosPerMilli

def OperationalControls.cooldown (controls : OperationalControls) : ℕ :=
  controls.circuitBreakerCooldownMs * nanosPerMilli

/-! ### Under the lock -/

/-- The state of a plugin. The oldest call stands first. -/
structure OperationalState where
  callTimestamps : List ℕ
  consecutiveFailures : ℕ
  circuitOpenUntil : Option ℕ
  deriving DecidableEq, Repr

def OperationalState.default : OperationalState := ⟨[], 0, none⟩

/-- The part of `reserve_call_budget` after the look at the circuit: the window. -/
def reserveInWindow (subject : String) (controls : OperationalControls) (now : ℕ)
    (state : OperationalState) : KelvinResult Unit × OperationalState :=
  let recent := dropOld callWindow now state.callTimestamps
  if controls.maxCallsPerMinute ≤ recent.length then
    (.error (.timeout
      s!"{subject} exceeded call budget ({controls.maxCallsPerMinute} calls/minute)"),
      { state with callTimestamps := recent })
  else (.ok (), { state with callTimestamps := recent ++ [now] })

/-- `reserve_call_budget` of a tool and of a model provider, which name themselves in the
errors. -/
def reserveCallBudget (subject : String) (controls : OperationalControls) (now : ℕ)
    (state : OperationalState) : KelvinResult Unit × OperationalState :=
  match state.circuitOpenUntil with
  | none => reserveInWindow subject controls now state
  | some openUntil =>
    if now < openUntil then
      (.error (.backend s!"{subject} circuit breaker is open; retry later"), state)
    else
      reserveInWindow subject controls now
        { state with circuitOpenUntil := none, consecutiveFailures := 0 }

def markSuccess (state : OperationalState) : OperationalState :=
  { state with consecutiveFailures := 0 }

def markFailure (controls : OperationalControls) (now : ℕ) (state : OperationalState) :
    OperationalState :=
  let failures := saturatingAdd u32Max state.consecutiveFailures 1
  if controls.circuitBreakerFailures ≤ failures then
    { state with
      consecutiveFailures := 0, circuitOpenUntil := some (now + controls.cooldown) }
  else { state with consecutiveFailures := failures }

section Lock

variable {subject : String} {controls : OperationalControls} {now : ℕ}
  {state after : OperationalState}

theorem reserveInWindow_ok
    (reserved : reserveInWindow subject controls now state = (.ok (), after)) :
    (dropOld callWindow now state.callTimestamps).length < controls.maxCallsPerMinute ∧
      after = { state with
        callTimestamps := dropOld callWindow now state.callTimestamps ++ [now] } := by
  simp only [reserveInWindow] at reserved
  split_ifs at reserved with full
  · cases (Prod.mk.inj reserved).1
  · exact ⟨Nat.lt_of_not_le full, (Prod.mk.inj reserved).2.symm⟩

theorem reserveInWindow_error {err : KelvinError}
    (refused : reserveInWindow subject controls now state = (.error err, after)) :
    after = { state with callTimestamps := dropOld callWindow now state.callTimestamps } := by
  simp only [reserveInWindow] at refused
  split_ifs at refused with full
  · exact (Prod.mk.inj refused).2.symm
  · cases (Prod.mk.inj refused).1

theorem reserveCallBudget_ok (reserved : reserveCallBudget subject controls now state =
    (.ok (), after)) :
    (∀ openUntil, state.circuitOpenUntil = some openUntil → openUntil ≤ now) ∧
      (dropOld callWindow now state.callTimestamps).length < controls.maxCallsPerMinute ∧
      after.callTimestamps = dropOld callWindow now state.callTimestamps ++ [now] ∧
      after.circuitOpenUntil = none ∧
      after.consecutiveFailures =
        if state.circuitOpenUntil.isSome then 0 else state.consecutiveFailures := by
  unfold reserveCallBudget at reserved
  cases circuit : state.circuitOpenUntil with
  | none =>
    rw [circuit] at reserved
    obtain ⟨room, rfl⟩ := reserveInWindow_ok reserved
    exact ⟨fun _ opened => (by cases opened), room, rfl, circuit, rfl⟩
  | some openUntil =>
    rw [circuit] at reserved
    dsimp only at reserved
    split_ifs at reserved with early
    · cases (Prod.mk.inj reserved).1
    · obtain ⟨room, rfl⟩ := reserveInWindow_ok reserved
      refine ⟨fun other opened => ?_, room, rfl, rfl, rfl⟩
      obtain rfl := Option.some_inj.mp opened
      exact Nat.le_of_not_lt early

theorem reserveCallBudget_error {err : KelvinError}
    (refused : reserveCallBudget subject controls now state = (.error err, after)) :
    (after.callTimestamps = state.callTimestamps ∨
      after.callTimestamps = dropOld callWindow now state.callTimestamps) ∧
    ((after.circuitOpenUntil = state.circuitOpenUntil ∧
        after.consecutiveFailures = state.consecutiveFailures) ∨
      ((∀ openUntil, state.circuitOpenUntil = some openUntil → openUntil ≤ now) ∧
        after.circuitOpenUntil = none ∧ after.consecutiveFailures = 0)) := by
  unfold reserveCallBudget at refused
  cases circuit : state.circuitOpenUntil with
  | none =>
    rw [circuit] at refused
    obtain rfl := reserveInWindow_error refused
    exact ⟨.inr rfl, .inl ⟨circuit, rfl⟩⟩
  | some openUntil =>
    rw [circuit] at refused
    dsimp only at refused
    split_ifs at refused with early
    · obtain rfl := (Prod.mk.inj refused).2
      exact ⟨.inl rfl, .inl ⟨circuit, rfl⟩⟩
    · obtain rfl := reserveInWindow_error refused
      refine ⟨.inr rfl, .inr ⟨fun other opened => ?_, rfl, rfl⟩⟩
      obtain rfl := Option.some_inj.mp opened
      exact Nat.le_of_not_lt early

theorem markFailure_cases :
    (markFailure controls now state =
        { state with
          consecutiveFailures := 0, circuitOpenUntil := some (now + controls.cooldown) } ∧
      controls.circuitBreakerFailures ≤ saturatingAdd u32Max state.consecutiveFailures 1) ∨
    (markFailure controls now state =
        { state with consecutiveFailures := saturatingAdd u32Max state.consecutiveFailures 1 } ∧
      saturatingAdd u32Max state.consecutiveFailures 1 < controls.circuitBreakerFailures) := by
  by_cases trips :
      controls.circuitBreakerFailures ≤ saturatingAdd u32Max state.consecutiveFailures 1
  · exact .inl ⟨if_pos trips, trips⟩
  · exact .inr ⟨if_neg trips, Nat.lt_of_not_le trips⟩

end Lock

/-! ### Overlapping calls -/

variable {ι : Type} [DecidableEq ι]

inductive CallPhase where
  | waiting
  | executing
  | finished
  deriving DecidableEq, Repr

/-- The calls of a plugin. Beside its state: the time that was read last under the lock, the times
of the calls that were admitted, and the ends of all the openings of the circuit. -/
structure PluginCalls (ι : Type) where
  state : OperationalState
  phase : ι → CallPhase
  clock : ℕ
  admitted : List ℕ
  openings : List ℕ

inductive CallEvent (ι : Type) where
  | reserve (call : ι) (now : ℕ)
  | succeed (call : ι)
  | fail (call : ι) (now : ℕ)
  /-- The call returns without a report. -/
  | leave (call : ι)

namespace PluginCalls

variable (subject : String) (controls : OperationalControls) (s : PluginCalls ι) (call : ι)

def reserve (now : ℕ) : PluginCalls ι :=
  match reserveCallBudget subject controls now s.state with
  | (.ok (), state) =>
    { s with
      state
      phase := Function.update s.phase call .executing
      clock := now
      admitted := s.admitted ++ [now] }
  | (.error _, state) =>
    { s with state, phase := Function.update s.phase call .finished, clock := now }

def succeed : PluginCalls ι :=
  { s with
    state := markSuccess s.state
    phase := Function.update s.phase call .finished }

def fail (now : ℕ) : PluginCalls ι :=
  let state := markFailure controls now s.state
  { s with
    state
    phase := Function.update s.phase call .finished
    clock := now
    openings :=
      if controls.circuitBreakerFailures ≤ saturatingAdd u32Max s.state.consecutiveFailures 1 then
        s.openings ++ [now + controls.cooldown]
      else s.openings }

def leave : PluginCalls ι := { s with phase := Function.update s.phase call .finished }

end PluginCalls

/-- Any number of calls of one plugin, which overlap between their steps under the lock. -/
def pluginCalls (subject : String) (controls : OperationalControls) :
    TransitionSystem (PluginCalls ι) (CallEvent ι) where
  init s := s.state = .default ∧ (∀ call, s.phase call = .waiting) ∧ s.admitted = [] ∧
    s.openings = []
  step s
    | .reserve call now =>
      if s.phase call = .waiting then some (s.reserve subject controls call now) else none
    | .succeed call => if s.phase call = .executing then some (s.succeed call) else none
    | .fail call now =>
      if s.phase call = .executing then some (s.fail controls call now) else none
    | .leave call => if s.phase call = .executing then some (s.leave call) else none

/-- The times that are read do not go back in the order of the lock. -/
def ClockForward (s : PluginCalls ι) : CallEvent ι → Prop
  | .reserve _ now | .fail _ now => s.clock ≤ now
  | .succeed _ | .leave _ => True

/-- What every step keeps. -/
structure Budgeted (controls : OperationalControls) (s : PluginCalls ι) : Prop where
  quota : WithinQuota callWindow controls.maxCallsPerMinute s.admitted
  covers : Covers callWindow s.clock s.state.callTimestamps s.admitted
  failures : s.state.consecutiveFailures < controls.circuitBreakerFailures
  /-- An opening is over, or the circuit is open for at least as long. -/
  openings : ∀ openUntil ∈ s.openings, openUntil ≤ s.clock ∨
    ∃ later, s.state.circuitOpenUntil = some later ∧ openUntil ≤ later
  /-- No opening lasts for longer than one that begins now. -/
  bounded : ∀ openUntil ∈ s.openings, openUntil ≤ s.clock + controls.cooldown

section Steps

variable {subject : String} {controls : OperationalControls} {s t : PluginCalls ι} {call : ι}
  {now : ℕ}

theorem Budgeted.reserve (budgeted : Budgeted controls s) (forward : s.clock ≤ now) :
    Budgeted controls (s.reserve subject controls call now) := by
  have later := budgeted.covers.later forward
  have bounded : ∀ openUntil ∈ s.openings, openUntil ≤ now + controls.cooldown :=
    fun openUntil member =>
      (budgeted.bounded openUntil member).trans (Nat.add_le_add_right forward _)
  have past : ∀ openUntil ∈ s.openings,
      (∀ later, s.state.circuitOpenUntil = some later → later ≤ now) → openUntil ≤ now := by
    intro openUntil member closed
    rcases budgeted.openings openUntil member with past | ⟨later, opened, le⟩
    · exact past.trans forward
    · exact le.trans (closed later opened)
  unfold PluginCalls.reserve
  cases ran : reserveCallBudget subject controls now s.state with
  | mk result after =>
    cases result with
    | ok done =>
      obtain ⟨closed, room, window, circuit, failures⟩ := reserveCallBudget_ok ran
      refine ⟨budgeted.quota.pass later.dropOld room, ?_, ?_, ?_, bounded⟩
      · simp only [window]
        exact later.dropOld.pass
      · simp only [failures]
        split_ifs
        · exact controls.failuresPos
        · exact budgeted.failures
      · exact fun openUntil member => .inl (past openUntil member closed)
    | error err =>
      obtain ⟨window, circuit⟩ := reserveCallBudget_error ran
      refine ⟨budgeted.quota, ?_, ?_, ?_, bounded⟩
      · rcases window with same | recent
        · simpa only [same] using later
        · simpa only [recent] using later.dropOld
      · rcases circuit with ⟨_, failures⟩ | ⟨_, _, failures⟩
        · simpa only [failures] using budgeted.failures
        · simpa only [failures] using controls.failuresPos
      · intro openUntil member
        rcases circuit with ⟨same, _⟩ | ⟨closed, _, _⟩
        · simp only [same]
          rcases budgeted.openings openUntil member with past | opened
          · exact .inl (past.trans forward)
          · exact .inr opened
        · exact .inl (past openUntil member closed)

theorem Budgeted.fail (budgeted : Budgeted controls s) (forward : s.clock ≤ now) :
    Budgeted controls (s.fail controls call now) := by
  have later := budgeted.covers.later forward
  have bounded : ∀ openUntil ∈ s.openings, openUntil ≤ now + controls.cooldown :=
    fun openUntil member =>
      (budgeted.bounded openUntil member).trans (Nat.add_le_add_right forward _)
  unfold PluginCalls.fail
  rcases @markFailure_cases controls now s.state with ⟨opens, trips⟩ | ⟨counts, below⟩
  · simp only [opens, if_pos trips]
    have all : ∀ openUntil ∈ s.openings ++ [now + controls.cooldown],
        openUntil ≤ now + controls.cooldown := by
      intro openUntil member
      rcases List.mem_append.mp member with earlier | new
      · exact bounded openUntil earlier
      · exact (List.mem_singleton.mp new).le
    exact ⟨budgeted.quota, later, controls.failuresPos,
      fun openUntil member => .inr ⟨_, rfl, all openUntil member⟩, all⟩
  · simp only [counts, if_neg (Nat.not_le.mpr below)]
    refine ⟨budgeted.quota, later, below, fun openUntil member => ?_, bounded⟩
    exact (budgeted.openings openUntil member).imp_left fun past => past.trans forward

theorem Budgeted.step {event : CallEvent ι} (budgeted : Budgeted controls s)
    (forward : ClockForward s event)
    (moves : (pluginCalls subject controls).step s event = some t) : Budgeted controls t := by
  cases event with
  | reserve call now =>
    simp only [pluginCalls] at moves
    split_ifs at moves
    obtain rfl := Option.some_inj.mp moves
    exact budgeted.reserve forward
  | succeed call =>
    simp only [pluginCalls] at moves
    split_ifs at moves
    obtain rfl := Option.some_inj.mp moves
    exact
      { budgeted with failures := controls.failuresPos }
  | fail call now =>
    simp only [pluginCalls] at moves
    split_ifs at moves
    obtain rfl := Option.some_inj.mp moves
    exact budgeted.fail forward
  | leave call =>
    simp only [pluginCalls] at moves
    split_ifs at moves
    obtain rfl := Option.some_inj.mp moves
    exact { budgeted with }

theorem budgeted_of_reachable
    (reached : (pluginCalls subject controls).ReachableWhen ClockForward s) :
    Budgeted controls s := by
  refine reached.invariant (Budgeted controls) ?_ fun s event t budgeted forward moves =>
    budgeted.step forward moves
  rintro s ⟨state, _, admitted, openings⟩
  constructor
  · rw [admitted]
    exact withinQuota_nil
  · rw [admitted]
    exact covers_nil
  · rw [state]
    exact controls.failuresPos
  · rw [openings]
    exact fun _ member => by cases member
  · rw [openings]
    exact fun _ member => by cases member

/-- **Admission.** In every interleaving of calls of one plugin, with times that do not go back in
the order of the lock: at most the allowed number of calls is admitted in any window; a call that
is admitted now comes after the end of the opening of the circuit, and of all openings before; and
the count of failures stays below the number that opens the circuit. -/
theorem admission_of_reachable (subject : String) (controls : OperationalControls)
    (s : PluginCalls ι) (reached : (pluginCalls subject controls).ReachableWhen ClockForward s) :
    (∀ start, s.admitted.countP (fun ts => start ≤ ts ∧ ts ≤ start + callWindow) ≤
      controls.maxCallsPerMinute) ∧
    (∀ call now t, s.clock ≤ now →
      (pluginCalls subject controls).step s (.reserve call now) = some t →
        t.phase call = .executing →
          (∀ openUntil, s.state.circuitOpenUntil = some openUntil → openUntil ≤ now) ∧
            ∀ openUntil ∈ s.openings, openUntil ≤ now) ∧
    s.state.consecutiveFailures < controls.circuitBreakerFailures := by
  have budgeted := budgeted_of_reachable reached
  refine ⟨budgeted.quota, fun call now t forward moves executes => ?_, budgeted.failures⟩
  simp only [pluginCalls] at moves
  split_ifs at moves
  obtain rfl := Option.some_inj.mp moves
  unfold PluginCalls.reserve at executes
  cases ran : reserveCallBudget subject controls now s.state with
  | mk result after =>
    rw [ran] at executes
    cases result with
    | error err =>
      simp only [Function.update_self] at executes
      cases executes
    | ok done =>
      have closed := (reserveCallBudget_ok ran).1
      refine ⟨closed, fun openUntil member => ?_⟩
      rcases budgeted.openings openUntil member with past | ⟨later, opened, le⟩
      · exact past.trans forward
      · exact le.trans (closed later opened)

end Steps

/-! ### Two calls that fail together -/

instance (s : PluginCalls ι) (event : CallEvent ι) : Decidable (ClockForward s event) :=
  match event with
  | .reserve _ now | .fail _ now => inferInstanceAs (Decidable (s.clock ≤ now))
  | .succeed _ | .leave _ => .isTrue trivial

/-- Three calls a minute, and two failures to open the circuit for a tenth of a second. -/
def strictControls : OperationalControls where
  timeoutMs := 1000
  maxRetries := 0
  maxCallsPerMinute := 3
  circuitBreakerFailures := 2
  circuitBreakerCooldownMs := 100
  failuresPos := by decide
  failuresLe := by decide
  cooldownPos := by decide

def noCalls : PluginCalls ℕ := ⟨.default, fun _ => .waiting, 0, [], []⟩

theorem noCalls_start (subject : String) (controls : OperationalControls) :
    (pluginCalls subject controls).init noCalls := ⟨rfl, fun _ => rfl, rfl, rfl⟩

/-- Two calls that overlap fail, a third one is refused, and one after the cooldown is admitted. -/
theorem overlapping_failures_refuse_calls : ∃ s : PluginCalls ℕ,
    s.admitted = [5, 6, 200000000] ∧
      s.admitted.countP (fun ts => 5 ≤ ts ∧ ts ≤ 5 + callWindow) ≤ 3 := by
  have ran : ((pluginCalls "tool 'clock'" strictControls).run? ClockForward noCalls
      [.reserve 0 5, .reserve 1 6, .fail 0 7, .fail 1 8, .reserve 2 9,
        .reserve 3 200000000]).map (·.admitted) = some [5, 6, 200000000] := by
    decide +kernel
  obtain ⟨s, reached, admitted⟩ := exists_of_run? (.init (noCalls_start _ _)) ran
  exact ⟨s, admitted, (admission_of_reachable _ _ s reached).1 5⟩

end KelvinClaw.Plugin
