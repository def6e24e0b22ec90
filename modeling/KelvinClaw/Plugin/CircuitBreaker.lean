import KelvinClaw.Plugin.Installed

/-!
# When the circuit of a plugin opens

Calls of one plugin that do not overlap. An admitted call whose attempts all fail is counted, and
a run of as many such calls as the limit opens the circuit. An opening starts the count anew, and
so does the first call after the cooldown: of the calls that follow an opening, each of the first
may be the last of as many failures without opening the circuit again.
-/

namespace KelvinClaw.Plugin

open KelvinClaw.Core KelvinClaw.Brain Systems

variable {ι α ρ : Type} {subject : String} {controls : OperationalControls}
  {state after : OperationalState}

/-! ### Streaks -/

section Streaks

variable (controls) (admits : Invocation ι α → OperationalState → Bool)

/-- The admitted calls among `window` and `last` are as many as open the circuit, `last` is one
of them, and all of them fail. -/
structure FailureStreak (fails : CallRecord ι α ρ → Prop) (window : List (CallRecord ι α ρ))
    (last : CallRecord ι α ρ) : Prop where
  last_admitted : admits last.invocation last.before = true
  count : (window.countP fun r => admits r.invocation r.before) + 1 =
    controls.circuitBreakerFailures
  fails : ∀ r ∈ window ++ [last], admits r.invocation r.before = true → fails r

/-- Whenever as many consecutive admitted calls as the limit have returned an error, the circuit
is open right after the last of them. -/
def TripsOnPersistentFailure (history : List (CallRecord ι α ρ)) : Prop :=
  ∀ earlier window last later, history = earlier ++ window ++ last :: later →
    FailureStreak controls admits (fun r => r.result.isOk = false) window last →
      last.after.circuitOpenUntil.isSome = true

/-- What a record of a streak is: a refused call leaves a closed circuit and its count alone, and
an admitted one reports a failure. -/
structure StreakStep (r : CallRecord ι α ρ) : Prop where
  refused : admits r.invocation r.before = false → r.before.circuitOpenUntil = none →
    r.after.circuitOpenUntil = none ∧
      r.after.consecutiveFailures = r.before.consecutiveFailures
  failed : admits r.invocation r.before = true → ∃ subject reserved,
    reserveCallBudget subject controls r.invocation.reservedAt r.before = (.ok (), reserved) ∧
      r.after = markFailure controls r.invocation.markedAt reserved

end Streaks

/-- At least so many failures have been counted since the circuit closed. -/
def Counted (failures : ℕ) (state : OperationalState) : Prop :=
  failures = 0 ∨ state.circuitOpenUntil = none ∧ failures ≤ state.consecutiveFailures

theorem Counted.reserve {failures now : ℕ} (counted : Counted failures state)
    (reserved : reserveCallBudget subject controls now state = (.ok (), after)) :
    after.circuitOpenUntil = none ∧ failures ≤ after.consecutiveFailures := by
  obtain ⟨_, _, _, closed, kept⟩ := reserveCallBudget_ok reserved
  refine ⟨closed, ?_⟩
  rcases counted with rfl | ⟨none, le⟩
  · exact Nat.zero_le _
  · rw [kept, none]
    exact le

theorem counted_markFailure {failures now : ℕ} (le : failures ≤ state.consecutiveFailures)
    (closed : (markFailure controls now state).circuitOpenUntil = none) :
    Counted (failures + 1) (markFailure controls now state) := by
  rcases @markFailure_cases controls now state with ⟨opens, _⟩ | ⟨counts, below⟩
  · rw [opens] at closed
    cases closed
  · refine .inr ⟨closed, ?_⟩
    have limit := controls.failuresLe
    rw [counts]
    simp only [saturatingAdd, u32Max, operationalMaxCircuitBreakerFailures] at below limit ⊢
    omega

theorem markFailure_opens {failures now : ℕ} (le : failures ≤ state.consecutiveFailures)
    (complete : failures + 1 = controls.circuitBreakerFailures) :
    (markFailure controls now state).circuitOpenUntil = some (now + controls.cooldown) := by
  rcases @markFailure_cases controls now state with ⟨opens, _⟩ | ⟨_, below⟩
  · rw [opens]
  · have limit := controls.failuresLe
    simp only [saturatingAdd, u32Max, operationalMaxCircuitBreakerFailures] at below limit
    omega

theorem reserveCallBudget_error_of_closed {now : ℕ} {err : KelvinError}
    (closed : state.circuitOpenUntil = none)
    (refused : reserveCallBudget subject controls now state = (.error err, after)) :
    after.circuitOpenUntil = none ∧ after.consecutiveFailures = state.consecutiveFailures := by
  unfold reserveCallBudget at refused
  rw [closed] at refused
  obtain rfl := reserveInWindow_error refused
  exact ⟨closed, rfl⟩

/-! ### Histories -/

section Histories

variable {call : Invocation ι α → OperationalState → KelvinResult ρ × OperationalState}
  {invocations : List (Invocation ι α)}

theorem ran_of_mem_callHistory {r : CallRecord ι α ρ}
    (member : r ∈ callHistory call state invocations) :
    call r.invocation r.before = (r.result, r.after) := by
  induction invocations generalizing state with
  | nil => cases member
  | cons invocation rest ih =>
    rcases List.mem_cons.mp member with rfl | later
    · rfl
    · exact ih later

theorem callHistory_split {earlier rest : List (CallRecord ι α ρ)}
    (split : callHistory call state invocations = earlier ++ rest) :
    ∃ between left, callHistory call between left = rest := by
  induction earlier generalizing state invocations with
  | nil => exact ⟨state, invocations, split⟩
  | cons r earlier ih =>
    cases invocations with
    | nil => cases split
    | cons invocation left => exact ih (List.cons.inj split).2

theorem mem_of_streak {window later : List (CallRecord ι α ρ)} {last r : CallRecord ι α ρ}
    (member : r ∈ window ++ [last]) : r ∈ window ++ last :: later := by
  rcases List.mem_append.mp member with inside | final
  · exact List.mem_append_left _ inside
  · obtain rfl := List.mem_singleton.mp final
    exact List.mem_append_right _ List.mem_cons_self

theorem opens_of_steps {admits : Invocation ι α → OperationalState → Bool}
    {window later : List (CallRecord ι α ρ)} {last : CallRecord ι α ρ} {failures : ℕ}
    (split : callHistory call state invocations = window ++ last :: later)
    (steps : ∀ r ∈ window ++ [last], StreakStep controls admits r)
    (closed : ∀ r ∈ window, admits r.invocation r.before = true →
      r.after.circuitOpenUntil = none)
    (admitted : admits last.invocation last.before = true)
    (counted : Counted failures state)
    (complete : failures + (window.countP fun r => admits r.invocation r.before) + 1 =
      controls.circuitBreakerFailures) :
    last.after.circuitOpenUntil = some (last.invocation.markedAt + controls.cooldown) := by
  induction window generalizing state invocations failures with
  | nil =>
    cases invocations with
    | nil => cases split
    | cons invocation left =>
      obtain ⟨rfl, _⟩ := List.cons.inj split
      obtain ⟨_, _, reserved, marked⟩ := (steps _ (List.mem_singleton_self _)).failed admitted
      rw [marked]
      exact markFailure_opens (counted.reserve reserved).2 complete
  | cons r window ih =>
    cases invocations with
    | nil => cases split
    | cons invocation left =>
      obtain ⟨rfl, rest⟩ := List.cons.inj split
      have step := steps _ List.mem_cons_self
      have laterSteps : ∀ r ∈ window ++ [last], StreakStep controls admits r :=
        fun r member => steps r (List.mem_cons_of_mem _ member)
      have laterClosed : ∀ r ∈ window, admits r.invocation r.before = true →
          r.after.circuitOpenUntil = none :=
        fun r member => closed r (List.mem_cons_of_mem _ member)
      -- a refused call counts nothing, a failed one counts one more
      cases passes : admits invocation state with
      | false =>
        rw [List.countP_cons_of_neg (by simp [passes])] at complete
        refine ih rest laterSteps laterClosed ?_ complete
        rcases counted with rfl | ⟨none, le⟩
        · exact .inl rfl
        · obtain ⟨still, kept⟩ := step.refused passes none
          exact .inr ⟨still, le.trans kept.ge⟩
      | true =>
        rw [List.countP_cons_of_pos (by simp [passes])] at complete
        obtain ⟨_, _, reserved, marked⟩ := step.failed passes
        have stays := closed _ List.mem_cons_self passes
        have next : Counted (failures + 1) (call invocation state).2 := by
          simp only at marked stays
          rw [marked] at stays ⊢
          exact counted_markFailure (counted.reserve reserved).2 stays
        exact ih rest laterSteps laterClosed next (by omega)

end Histories

/-! ### Tools and model providers -/

section Calls

variable {serialize : Value → Except String String} {toText : Value → String}
  {serializeInput : ModelInput → Except String String}

theorem InstalledWasmTool.streakStep {tool : InstalledWasmTool}
    {r : CallRecord ToolCallInput SkillExecution ToolCallResult}
    (ran : tool.call serialize toText r.invocation r.before = (r.result, r.after))
    (fails : tool.admits r.invocation r.before = true → r.result.isOk = false) :
    StreakStep tool.controls tool.admits r := by
  unfold InstalledWasmTool.call at ran
  -- a call refused by its arguments or its budget leaves the count alone
  cases checked : tool.enforceScopedArguments r.invocation.input.arguments with
  | error err =>
    rw [checked] at ran
    obtain ⟨_, same⟩ := Prod.mk.inj ran
    constructor
    · intro _ closed
      rw [← same]
      exact ⟨closed, rfl⟩
    · intro admitted
      simp [InstalledWasmTool.admits, checked, Except.isOk, Except.toBool] at admitted
  | ok done =>
    rw [checked] at ran
    simp only at ran
    cases reserves : reserveCallBudget tool.subject tool.controls r.invocation.reservedAt
        r.before with
    | mk result reserved =>
      rw [reserves] at ran
      cases result with
      | error err =>
        obtain ⟨_, same⟩ := Prod.mk.inj ran
        constructor
        · intro _ closed
          rw [← same]
          exact reserveCallBudget_error_of_closed closed reserves
        · intro admitted
          simp [InstalledWasmTool.admits, checked, reserves, Except.isOk, Except.toBool] at admitted
      | ok done =>
        have admitted : tool.admits r.invocation r.before = true := by
          simp [InstalledWasmTool.admits, checked, reserves, Except.isOk, Except.toBool]
        constructor
        · intro refused
          rw [admitted] at refused
          cases refused
        · intro _
          refine ⟨tool.subject, reserved, reserves, ?_⟩
          have failed := fails admitted
          simp only at ran
          split at ran
          · obtain ⟨ok, _⟩ := Prod.mk.inj ran
            rw [← ok] at failed
            cases failed
          · exact (Prod.mk.inj ran).2.symm

theorem InstalledWasmModelProvider.streakStep {provider : InstalledWasmModelProvider}
    {r : CallRecord ModelInput String ModelOutput}
    (ran : provider.infer serializeInput r.invocation r.before = (r.result, r.after))
    (fails : provider.admits r.invocation r.before = true →
      provider.AttemptsFail serializeInput r.invocation) :
    StreakStep provider.controls provider.admits r := by
  unfold InstalledWasmModelProvider.infer at ran
  cases reserves : reserveCallBudget provider.subject provider.controls r.invocation.reservedAt
      r.before with
  | mk result reserved =>
    rw [reserves] at ran
    cases result with
    | error err =>
      obtain ⟨_, same⟩ := Prod.mk.inj ran
      constructor
      · intro _ closed
        rw [← same]
        exact reserveCallBudget_error_of_closed closed reserves
      · intro admitted
        simp [InstalledWasmModelProvider.admits, reserves, Except.isOk, Except.toBool] at admitted
    | ok done =>
      have admitted : provider.admits r.invocation r.before = true := by
        simp [InstalledWasmModelProvider.admits, reserves, Except.isOk, Except.toBool]
      constructor
      · intro refused
        rw [admitted] at refused
        cases refused
      · intro _
        refine ⟨provider.subject, reserved, reserves, ?_⟩
        obtain ⟨inputJson, serialized, attempts⟩ := fails admitted
        obtain ⟨lastError, exhausted⟩ : ∃ lastError, firstSuccess
            (fun attempt => provider.executeOnce (r.invocation.host attempt inputJson))
            (provider.controls.maxRetries + 1) 0 none = .inl lastError :=
          firstSuccess_of_errors fun index _ below => attempts index (by omega)
        simp only [serialized, exhausted] at ran
        exact (Prod.mk.inj ran).2.symm

/-- **The circuit opens.** For calls that do not overlap, of a plugin in any state: after as many
consecutive admitted calls as the limit, all of which failed and none of which but the last opened
the circuit, the circuit is open, until the cooldown after the last of them ends. A call of a tool
fails when it returns an error, one of a model provider when all its attempts fail. -/
theorem opens_of_streak :
    (∀ (tool : InstalledWasmTool) (serialize : Value → Except String String)
      (toText : Value → String) (state : OperationalState)
      (invocations : List (Invocation ToolCallInput SkillExecution)) (earlier window later)
      (last : CallRecord ToolCallInput SkillExecution ToolCallResult),
      callHistory (tool.call serialize toText) state invocations =
          earlier ++ window ++ last :: later →
        FailureStreak tool.controls tool.admits (fun r => r.result.isOk = false) window last →
          (∀ r ∈ window, tool.admits r.invocation r.before = true →
            r.after.circuitOpenUntil = none) →
            last.after.circuitOpenUntil =
              some (last.invocation.markedAt + tool.controls.cooldown)) ∧
    (∀ (provider : InstalledWasmModelProvider) (serialize : ModelInput → Except String String)
      (state : OperationalState) (invocations : List (Invocation ModelInput String))
      (earlier window later) (last : CallRecord ModelInput String ModelOutput),
      callHistory (provider.infer serialize) state invocations =
          earlier ++ window ++ last :: later →
        FailureStreak provider.controls provider.admits
            (fun r => provider.AttemptsFail serialize r.invocation) window last →
          (∀ r ∈ window, provider.admits r.invocation r.before = true →
            r.after.circuitOpenUntil = none) →
            last.after.circuitOpenUntil =
              some (last.invocation.markedAt + provider.controls.cooldown)) := by
  constructor
  · intro tool serialize toText state invocations earlier window later last history streak closed
    rw [List.append_assoc] at history
    obtain ⟨between, left, rest⟩ := callHistory_split history
    refine opens_of_steps rest (fun r member => ?_) closed streak.last_admitted (.inl rfl)
      (by rw [Nat.zero_add, streak.count])
    have inRest : r ∈ callHistory (tool.call serialize toText) between left := by
      rw [rest]
      exact mem_of_streak member
    exact InstalledWasmTool.streakStep (ran_of_mem_callHistory inRest) (streak.fails r member)
  · intro provider serialize state invocations earlier window later last history streak closed
    rw [List.append_assoc] at history
    obtain ⟨between, left, rest⟩ := callHistory_split history
    refine opens_of_steps rest (fun r member => ?_) closed streak.last_admitted (.inl rfl)
      (by rw [Nat.zero_add, streak.count])
    have inRest : r ∈ callHistory (provider.infer serialize) between left := by
      rw [rest]
      exact mem_of_streak member
    exact InstalledWasmModelProvider.streakStep (ran_of_mem_callHistory inRest)
      (streak.fails r member)

end Calls

/-! ### Streaks that leave the circuit closed -/

def clockTool : InstalledWasmTool where
  pluginId := "acme.clock"
  pluginVersion := "1.0.0"
  toolName := "clock"
  entrypointAbs := "/plugins/acme.clock/1.0.0/clock.wasm"
  allowFsRead := false
  scopes := ⟨[], []⟩
  controls := strictControls

def garbledProvider : InstalledWasmModelProvider where
  pluginId := "acme.model"
  pluginVersion := "1.0.0"
  providerName := "acme"
  modelName := "small"
  reading := ⟨fun _ => .error "expected value at line 1 column 1", fun _ => none,
    fun _ => .ok (), none⟩
  controls := strictControls

def trappingCall (reservedAt markedAt : ℕ) : Invocation ToolCallInput SkillExecution where
  input := ⟨"run", "main", "/work", .obj []⟩
  reservedAt
  host := fun _ _ => .returned (.error (.backend "wasm trap"))
  markedAt

def modelCall (returned : KelvinResult String) (reservedAt markedAt : ℕ) :
    Invocation ModelInput String where
  input := ⟨"run", "main", "", "hello", [], [], []⟩
  reservedAt
  host := fun _ _ => .returned returned
  markedAt

/-- The second call opens the circuit and the third comes after the cooldown. -/
def trappingHistory : List (CallRecord ToolCallInput SkillExecution ToolCallResult) :=
  callHistory (clockTool.call (fun _ => .ok "{}") fun _ => "") .default
    [trappingCall 5 6, trappingCall 10 11, trappingCall 200000000 200000001]

def garbledHistory : List (CallRecord ModelInput String ModelOutput) :=
  callHistory (garbledProvider.infer fun _ => .ok "{}") .default
    [modelCall (.ok "<html>") 5 6, modelCall (.ok "<html>") 10 11]

def brokenHistory : List (CallRecord ModelInput String ModelOutput) :=
  callHistory (garbledProvider.infer fun _ => .ok "{}") .default
    [modelCall (.error (.backend "wasm trap")) 5 6, modelCall (.error (.backend "wasm trap")) 10 11]

theorem broken_attemptsFail {r : CallRecord ModelInput String ModelOutput}
    (member : r ∈ brokenHistory) :
    garbledProvider.AttemptsFail (fun _ => .ok "{}") r.invocation := by
  refine ⟨"{}", rfl, fun attempt _ => ⟨.backend "wasm trap", ?_⟩⟩
  rcases List.mem_cons.mp member with rfl | member
  · rfl
  · obtain rfl := List.mem_singleton.mp member
    rfl

/-- Two failures in a row open the circuit of the tool and of the model. -/
theorem two_failures_open_circuit :
    (trappingHistory.get ⟨1, by decide⟩).after.circuitOpenUntil =
        some (11 + strictControls.cooldown) ∧
      (brokenHistory.get ⟨1, by decide⟩).after.circuitOpenUntil =
        some (11 + strictControls.cooldown) :=
  ⟨opens_of_streak.1 clockTool (fun _ => .ok "{}") (fun _ => "") .default
      [trappingCall 5 6, trappingCall 10 11, trappingCall 200000000 200000001] []
      (trappingHistory.take 1) (trappingHistory.drop 2) (trappingHistory.get ⟨1, by decide⟩) rfl
      ⟨by decide, by decide, by decide +revert⟩ (by decide +revert),
    opens_of_streak.2 garbledProvider (fun _ => .ok "{}") .default
      [modelCall (.error (.backend "wasm trap")) 5 6,
        modelCall (.error (.backend "wasm trap")) 10 11] []
      (brokenHistory.take 1) [] (brokenHistory.get ⟨1, by decide⟩) rfl
      ⟨by decide, by decide, fun r member _ => broken_attemptsFail member⟩ (by decide +revert)⟩

/-- A tool fails three times in a row, the third time after a cooldown, and a model answers twice
with an output that cannot be decoded: two failures open the circuit, and it is closed after the
last one. -/
theorem failures_leave_circuit_closed :
    ¬ TripsOnPersistentFailure clockTool.controls clockTool.admits trappingHistory ∧
      ¬ TripsOnPersistentFailure garbledProvider.controls garbledProvider.admits
        garbledHistory := by
  constructor
  · intro trips
    have opened := trips (trappingHistory.take 1) ((trappingHistory.drop 1).take 1)
      (trappingHistory.get ⟨2, by decide⟩) [] rfl
      ⟨by decide, by decide, by decide +revert⟩
    revert opened
    decide
  · intro trips
    have opened := trips [] (garbledHistory.take 1) (garbledHistory.get ⟨1, by decide⟩) [] rfl
      ⟨by decide, by decide, by decide +revert⟩
    revert opened
    decide

end KelvinClaw.Plugin
