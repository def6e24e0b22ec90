import KelvinClaw.Gateway.AuthFailures
import KelvinClaw.Library.TransitionSystem
import KelvinClaw.Sdk.Submit

/-!
# Agent submissions of the gateway

`submit_agent` looks the request id up in a bounded cache of accepted submissions; on a
miss it submits the run and puts the acceptance into the cache. The cache is locked for
the look-up and for the insertion, not in between, and any number of calls interleave.
-/

namespace KelvinClaw.Gateway

open KelvinClaw.Core KelvinClaw.Sdk Systems Systems.TransitionSystem

variable {ι ρ : Type} [DecidableEq ι]

/-! ### The cache -/

structure CachedAgentAcceptance where
  runId : String
  acceptedAtMs : ℕ
  cliPluginPreflight : Option String
  deriving DecidableEq, Repr

abbrev IdempotencyCache := BoundedMap String CachedAgentAcceptance

def idempotencyCacheMaxEntries : ℕ := 2048

/-! ### Requests and responses -/

structure AgentParams where
  requestId : String
  prompt : String
  sessionId : Option String
  workspaceDir : Option String
  timeoutMs : Option ℕ
  systemPrompt : Option String
  memoryQuery : Option String
  runId : Option String
  deriving DecidableEq, Repr

def AgentParams.runRequest (params : AgentParams) : KelvinSdkRunRequest where
  prompt := params.prompt
  sessionId := params.sessionId
  workspaceDir := params.workspaceDir
  timeoutMs := params.timeoutMs
  systemPrompt := params.systemPrompt
  memoryQuery := params.memoryQuery
  runId := params.runId

/-- A successful response: an acceptance, and whether it came from the cache. -/
structure AgentResponse where
  acceptance : CachedAgentAcceptance
  deduped : Bool
  deriving DecidableEq, Repr

def AgentResponse.payload (response : AgentResponse) : Value :=
  .object [("run_id", .str response.acceptance.runId), ("status", .str "accepted"),
    ("accepted_at_ms", .num response.acceptance.acceptedAtMs), ("deduped", .bool response.deduped),
    ("cli_plugin_preflight", Value.ofOption response.acceptance.cliPluginPreflight)]

/-! ### Calls -/

/-- How far a call of `submit_agent` has come. -/
inductive CallPhase where
  | waiting
  | missed (requestId : String)
  | accepted (requestId : String) (acceptance : CachedAgentAcceptance)
  | answered (response : Except GatewayErrorPayload AgentResponse)

def CallPhase.acceptedFor : CallPhase → Option String
  | .accepted requestId _ => some requestId
  | .waiting | .missed _ | .answered _ => none

def CallPhase.missedFor : CallPhase → Option String
  | .missed requestId => some requestId
  | .waiting | .accepted .. | .answered _ => none

/-- The cache, the runtime and the calls, with history variables: the runs started and the
run ids answered for each request id, the request ids whose submission failed after its run
had started, the request ids evicted, and the calls that were overtaken: an acceptance of their
request id was inserted after their look-up. -/
structure SubmitState (ι ρ : Type) where
  cache : IdempotencyCache
  runtime : RuntimeState ρ
  phase : ι → CallPhase
  started : List (String × String)
  answered : List (String × String)
  lost : List String
  evicted : List String
  overtaken : ι → Bool

/-- A step of a call, or of another user of the runtime. -/
inductive SubmitEvent (ι ρ : Type) where
  | lookUp (call : ι)
  | submit (call : ι) (env : SubmitEnv)
  | insert (call : ι)
  | elsewhere (runtime : RuntimeState ρ)

namespace SubmitState

variable (config : KelvinSdkRuntime) (params : ι → AgentParams) (s : SubmitState ι ρ) (call : ι)

def setPhase (phase : CallPhase) : SubmitState ι ρ :=
  { s with phase := Function.update s.phase call phase }

def respond (requestId : String) (response : AgentResponse) : SubmitState ι ρ :=
  { s with
    phase := Function.update s.phase call (.answered (.ok response))
    answered := s.answered ++ [(requestId, response.acceptance.runId)] }

/-- The checks of `submit_agent` and its look-up. -/
def lookUp : SubmitState ι ρ :=
  let requestId := trim (params call).requestId
  if requestId = "" then
    s.setPhase call (.answered (.error ⟨"invalid_input", "request_id must not be empty"⟩))
  else
    match s.cache.map requestId with
    | some cached => s.respond call requestId ⟨cached, true⟩
    | none => s.setPhase call (.missed requestId)

def submit (requestId : String) (env : SubmitEnv) : SubmitState ι ρ :=
  let submitted := config.submit env (params call).runRequest s.runtime
  let newRuns := submitted.2.core.spawned.drop s.runtime.core.spawned.length
  let after := { s with
    runtime := submitted.2
    started := s.started ++ newRuns.map fun (run : AgentRunRequest) => (requestId, run.runId) }
  match submitted.1 with
  | .error err =>
    { after.setPhase call (.answered (.error (mapKelvinError err))) with
      lost := s.lost ++ newRuns.map fun _ => requestId }
  | .ok run =>
    after.setPhase call
      (.accepted requestId ⟨run.runId, run.acceptedAtMs, run.cliPluginPreflight⟩)

def insert (requestId : String) (acceptance : CachedAgentAcceptance) : SubmitState ι ρ :=
  { s.respond call requestId ⟨acceptance, false⟩ with
    cache := s.cache.put requestId acceptance
    evicted := s.evicted ++ (s.cache.evicts requestId).toList
    overtaken := fun other => s.overtaken other || (s.phase other).missedFor == some requestId }

def runsFor (requestId : String) : List String :=
  (s.started.filter (·.1 = requestId)).map Prod.snd

/-- The run ids in the successful responses for a request id. -/
def answersFor (requestId : String) : List String :=
  (s.answered.filter (·.1 = requestId)).map Prod.snd

end SubmitState

/-- Any number of calls of `submit_agent`, each with its parameters. -/
def submissions (config : KelvinSdkRuntime) (params : ι → AgentParams) :
    TransitionSystem (SubmitState ι ρ) (SubmitEvent ι ρ) where
  init s := s.cache = .empty idempotencyCacheMaxEntries ∧ (∀ call, s.phase call = .waiting) ∧
    s.started = [] ∧ s.answered = [] ∧ s.lost = [] ∧ s.evicted = [] ∧
    ∀ call, s.overtaken call = false
  step s event :=
    match event with
    | .lookUp call =>
      match s.phase call with
      | .waiting => some (s.lookUp params call)
      | _ => none
    | .submit call env =>
      match s.phase call with
      | .missed requestId => some (s.submit config params call requestId env)
      | _ => none
    | .insert call =>
      match s.phase call with
      | .accepted requestId acceptance => some (s.insert call requestId acceptance)
      | _ => none
    | .elsewhere runtime => some { s with runtime := runtime }

/-- For every request id that was not evicted, at most one run was started, and all
successful responses carry the same run id. -/
def SubmittedOnce (s : SubmitState ι ρ) : Prop :=
  ∀ requestId ∉ s.evicted, (s.runsFor requestId).length ≤ 1 ∧
    ∀ runId ∈ s.answersFor requestId, ∀ other ∈ s.answersFor requestId, runId = other

/-- No acceptance of the request id was inserted since the look-up of the call, no other call has
one to insert, and no submission for the id has failed after its run had started. -/
def SubmitsInOrder (s : SubmitState ι ρ) (call : ι) (requestId : String) : Prop :=
  s.overtaken call = false ∧ (∀ other, (s.phase other).acceptedFor ≠ some requestId) ∧
    requestId ∉ s.lost

def StartsInOrder (config : KelvinSdkRuntime) (params : ι → AgentParams)
    (s : SubmitState ι ρ) : SubmitEvent ι ρ → Prop
  | .submit call env =>
    match s.phase call with
    | .missed requestId =>
      config.Starts env (params call).runRequest s.runtime → requestId ∉ s.evicted →
        SubmitsInOrder s call requestId
    | .waiting | .accepted .. | .answered _ => True
  | .lookUp _ | .insert _ | .elsewhere _ => True

/-! ### The life of a request id -/

section Invariant

variable {config : KelvinSdkRuntime} {params : ι → AgentParams} {s t : SubmitState ι ρ}
  {requestId : String}

/-- The request id has no acceptance, in the cache or on its way there, and no submission
for it has failed after its run had started. -/
def Unsettled (s : SubmitState ι ρ) (requestId : String) : Prop :=
  s.cache.map requestId = none ∧ (∀ call, (s.phase call).acceptedFor ≠ some requestId) ∧
    requestId ∉ s.lost

def Tracked (s : SubmitState ι ρ) : Prop :=
  ∀ call requestId, (s.phase call).missedFor = some requestId →
    s.cache.map requestId ≠ none → s.overtaken call = true

/-- How far a request id has come. -/
inductive Status (s : SubmitState ι ρ) (requestId : String) : Prop
  /-- No run was started. -/
  | fresh (unsettled : Unsettled s requestId) (runs : s.runsFor requestId = [])
    (answers : s.answersFor requestId = [])
  /-- A run was started, and its acceptance is on its way to the cache. -/
  | pending (call : ι) (acceptance : CachedAgentAcceptance)
    (accepted : s.phase call = .accepted requestId acceptance)
    (alone : ∀ other, (s.phase other).acceptedFor = some requestId → other = call)
    (missing : s.cache.map requestId = none) (runs : s.runsFor requestId = [acceptance.runId])
    (answers : s.answersFor requestId = [])
  /-- The acceptance of the run is in the cache. -/
  | cached (acceptance : CachedAgentAcceptance) (found : s.cache.map requestId = some acceptance)
    (settled : ∀ call, (s.phase call).acceptedFor ≠ some requestId)
    (runs : s.runsFor requestId = [acceptance.runId])
    (answers : ∀ runId ∈ s.answersFor requestId, runId = acceptance.runId)
  /-- A run was started, and its submission failed. -/
  | lost (runId : String) (recorded : requestId ∈ s.lost)
    (missing : s.cache.map requestId = none)
    (settled : ∀ call, (s.phase call).acceptedFor ≠ some requestId)
    (runs : s.runsFor requestId = [runId]) (answers : s.answersFor requestId = [])

omit [DecidableEq ι] in
theorem Status.once (status : Status s requestId) : (s.runsFor requestId).length ≤ 1 ∧
    ∀ runId ∈ s.answersFor requestId, ∀ other ∈ s.answersFor requestId, runId = other := by
  cases status with
  | fresh _ runs answers => simp [runs, answers]
  | pending _ _ _ _ _ runs answers => simp [runs, answers]
  | lost _ _ _ _ runs answers => simp [runs, answers]
  | cached acceptance _ _ runs answers =>
    refine ⟨by simp [runs], ?_⟩
    intro runId member other otherMember
    rw [answers runId member, answers other otherMember]

/-- What a step leaves alone when it is about another request id. -/
structure Unaffected (s t : SubmitState ι ρ) (requestId : String) : Prop where
  runs : t.runsFor requestId = s.runsFor requestId
  answers : t.answersFor requestId = s.answersFor requestId
  cache : t.cache.map requestId = s.cache.map requestId
  lost : requestId ∈ t.lost ↔ requestId ∈ s.lost
  calls : ∀ call, t.phase call = s.phase call ∨
    ((t.phase call).acceptedFor ≠ some requestId ∧ (s.phase call).acceptedFor ≠ some requestId)

omit [DecidableEq ι] in
theorem Status.unaffected (status : Status s requestId) (same : Unaffected s t requestId) :
    Status t requestId := by
  have none_accepted : (∀ call, (s.phase call).acceptedFor ≠ some requestId) →
      ∀ call, (t.phase call).acceptedFor ≠ some requestId := by
    intro settled call
    obtain equal | apart := same.calls call
    · rw [equal]
      exact settled call
    · exact apart.1
  cases status with
  | fresh unsettled runs answers =>
    exact .fresh ⟨same.cache ▸ unsettled.1, none_accepted unsettled.2.1,
      mt same.lost.mp unsettled.2.2⟩ (same.runs ▸ runs) (same.answers ▸ answers)
  | pending call acceptance accepted alone missing runs answers =>
    refine .pending call acceptance ?_ ?_ (same.cache ▸ missing) (same.runs ▸ runs)
      (same.answers ▸ answers)
    · obtain equal | apart := same.calls call
      · rw [equal, accepted]
      · exact absurd (congrArg CallPhase.acceptedFor accepted) apart.2
    · intro other acceptedToo
      obtain equal | apart := same.calls other
      · exact alone other (equal ▸ acceptedToo)
      · exact absurd acceptedToo apart.1
  | cached acceptance found settled runs answers =>
    exact .cached acceptance (same.cache ▸ found) (none_accepted settled) (same.runs ▸ runs)
      (same.answers ▸ answers)
  | lost runId recorded missing settled runs answers =>
    exact .lost runId (same.lost.mpr recorded) (same.cache ▸ missing) (none_accepted settled)
      (same.runs ▸ runs) (same.answers ▸ answers)

theorem calls_of_update {phases : ι → CallPhase} {call : ι} {next : CallPhase}
    (before : (phases call).acceptedFor ≠ some requestId)
    (after : next.acceptedFor ≠ some requestId) (other : ι) :
    Function.update phases call next other = phases other ∨
      ((Function.update phases call next other).acceptedFor ≠ some requestId ∧
        (phases other).acceptedFor ≠ some requestId) := by
  by_cases same : other = call
  · subst same
    exact .inr ⟨by rwa [Function.update_self], before⟩
  · exact .inl (Function.update_of_ne same ..)

theorem settled_update {phases : ι → CallPhase} {call : ι} {next : CallPhase}
    (others : ∀ other, other ≠ call → (phases other).acceptedFor ≠ some requestId)
    (after : next.acceptedFor ≠ some requestId) (other : ι) :
    (Function.update phases call next other).acceptedFor ≠ some requestId := by
  by_cases same : other = call
  · rwa [same, Function.update_self]
  · rw [Function.update_of_ne same]
    exact others other same

/-- A call that moves to a phase without an acceptance affects no request id, except by
what it held before. -/
theorem unaffected_setPhase {call : ι} {next : CallPhase}
    (before : (s.phase call).acceptedFor ≠ some requestId)
    (after : next.acceptedFor ≠ some requestId) :
    Unaffected s (s.setPhase call next) requestId :=
  ⟨rfl, rfl, rfl, .rfl, calls_of_update before after⟩

theorem answersFor_respond (call : ι) (answered : String) (response : AgentResponse) :
    (s.respond call answered response).answersFor requestId = s.answersFor requestId ++
      if answered = requestId then [response.acceptance.runId] else [] := by
  by_cases same : answered = requestId <;> simp [SubmitState.respond, SubmitState.answersFor, same]

theorem status_lookUp {call : ι} (status : Status s requestId) (waits : s.phase call = .waiting) :
    Status (s.lookUp params call) requestId := by
  have before : (s.phase call).acceptedFor ≠ some requestId := by
    rw [waits]
    exact nofun
  unfold SubmitState.lookUp
  by_cases blank : trim (params call).requestId = ""
  · rw [if_pos blank]
    exact status.unaffected (unaffected_setPhase before nofun)
  · rw [if_neg blank]
    cases found : s.cache.map (trim (params call).requestId) with
    | none => exact status.unaffected (unaffected_setPhase before nofun)
    | some hit =>
      by_cases same : trim (params call).requestId = requestId
      · -- a hit means that the acceptance is in the cache, and it is answered again
        rw [same] at found ⊢
        cases status with
        | fresh unsettled _ _ => exact absurd (found.symm.trans unsettled.1) (by simp)
        | pending _ _ _ _ missing _ _ => exact absurd (found.symm.trans missing) (by simp)
        | lost _ _ missing _ _ _ => exact absurd (found.symm.trans missing) (by simp)
        | cached acceptance inCache settled runs answers =>
          obtain rfl := Option.some_inj.mp (inCache.symm.trans found)
          refine .cached acceptance inCache (settled_update (fun other _ => settled other) nofun)
            runs ?_
          rw [answersFor_respond, if_pos rfl, List.forall_mem_append, List.forall_mem_singleton]
          exact ⟨answers, rfl⟩
      · refine status.unaffected ⟨rfl, ?_, rfl, .rfl, calls_of_update before nofun⟩
        rw [answersFor_respond, if_neg same, List.append_nil]

def SubmitState.start (s : SubmitState ι ρ) (runtime : RuntimeState ρ)
    (submitted runId : String) : SubmitState ι ρ :=
  { s with runtime := runtime, started := s.started ++ [(submitted, runId)] }

omit [DecidableEq ι] in
theorem runsFor_start (runtime : RuntimeState ρ) (submitted runId : String) :
    (s.start runtime submitted runId).runsFor requestId =
      s.runsFor requestId ++ if submitted = requestId then [runId] else [] := by
  by_cases same : submitted = requestId <;> simp [SubmitState.start, SubmitState.runsFor, same]

theorem submit_of_not_starts (call : ι) (submitted : String) {env : SubmitEnv}
    (stops : ¬ config.Starts env (params call).runRequest s.runtime) :
    ∃ err, s.submit config params call submitted env =
      s.setPhase call (.answered (.error (mapKelvinError err))) := by
  obtain ⟨err, unchanged⟩ := KelvinSdkRuntime.submit_of_not_starts stops
  exact ⟨err, by simp [SubmitState.submit, unchanged, SubmitState.setPhase]⟩

theorem submit_of_starts (call : ι) (submitted : String) {env : SubmitEnv}
    (starts : config.Starts env (params call).runRequest s.runtime) :
    ∃ runtime runId,
      (∃ acceptance : CachedAgentAcceptance, acceptance.runId = runId ∧
        s.submit config params call submitted env =
          (s.start runtime submitted runId).setPhase call (.accepted submitted acceptance)) ∨
      ∃ err, s.submit config params call submitted env =
        { (s.start runtime submitted runId).setPhase call (.answered (.error err)) with
          lost := s.lost ++ [submitted] } := by
  obtain ⟨spawned, _, carries⟩ := KelvinSdkRuntime.submit_of_starts starts
  have newRun : (config.submit env (params call).runRequest s.runtime).2.core.spawned.drop
      s.runtime.core.spawned.length = [config.coreRequest env (params call).runRequest] := by
    rw [spawned, List.drop_left]
  refine ⟨(config.submit env (params call).runRequest s.runtime).2,
    KelvinSdkRuntime.runIdFor env (params call).runRequest, ?_⟩
  unfold SubmitState.submit SubmitState.start
  cases result : (config.submit env (params call).runRequest s.runtime).1 with
  | ok run =>
    exact .inl ⟨⟨run.runId, run.acceptedAtMs, run.cliPluginPreflight⟩, carries run result,
      by simp [newRun, result]⟩
  | error err => exact .inr ⟨mapKelvinError err, by simp [newRun, result]⟩

theorem status_submit {call : ι} {submitted : String} {env : SubmitEnv}
    (status : Status s requestId) (missed : s.phase call = .missed submitted)
    (retained : requestId ∉ s.evicted) (tracked : Tracked s)
    (meets : StartsInOrder config params s (.submit call env)) :
    Status (s.submit config params call submitted env) requestId := by
  have before (other : String) : (s.phase call).acceptedFor ≠ some other := by
    rw [missed]
    exact nofun
  by_cases starts : config.Starts env (params call).runRequest s.runtime
  · obtain ⟨runtime, runId, outcome⟩ := submit_of_starts call submitted starts
    by_cases same : submitted = requestId
    · subst same
      simp only [StartsInOrder, missed] at meets
      obtain ⟨first, settledElsewhere, kept⟩ := meets starts retained
      have unsettled : Unsettled s submitted := by
        refine ⟨?_, settledElsewhere, kept⟩
        by_contra found
        have overtaken := tracked call submitted (by rw [missed]; rfl) found
        exact absurd (overtaken.symm.trans first) (by decide)
      -- the guard leaves a request id without any run so far
      cases status with
      | pending other _ accepted _ _ _ _ =>
        exact absurd (congrArg CallPhase.acceptedFor accepted) (unsettled.2.1 other)
      | cached _ found _ _ _ => exact absurd (found.symm.trans unsettled.1) (by simp)
      | lost _ recorded _ _ _ _ => exact absurd recorded unsettled.2.2
      | fresh _ runs answers =>
        obtain ⟨missing, settled, _⟩ := unsettled
        have oneRun : (s.start runtime submitted runId).runsFor submitted = [runId] := by
          rw [runsFor_start, runs, if_pos rfl, List.nil_append]
        obtain ⟨acceptance, rfl, moves⟩ | ⟨err, moves⟩ := outcome
        · rw [moves]
          refine .pending call acceptance (Function.update_self ..) ?_ missing oneRun answers
          intro other accepted
          by_contra distinct
          apply settled other
          simpa [SubmitState.setPhase, SubmitState.start, distinct] using accepted
        · rw [moves]
          exact .lost runId (by simp) missing (settled_update (fun other _ => settled other) nofun)
            oneRun answers
    · have sameRuns : (s.start runtime submitted runId).runsFor requestId =
          s.runsFor requestId := by
        rw [runsFor_start, if_neg same, List.append_nil]
      obtain ⟨acceptance, rfl, moves⟩ | ⟨err, moves⟩ := outcome
      · rw [moves]
        exact status.unaffected ⟨sameRuns, rfl, rfl, .rfl,
          calls_of_update (before requestId) (by simpa [CallPhase.acceptedFor] using same)⟩
      · rw [moves]
        refine status.unaffected ⟨sameRuns, rfl, rfl, ?_, calls_of_update (before requestId) nofun⟩
        simp [Ne.symm same]
  · obtain ⟨err, unchanged⟩ := submit_of_not_starts call submitted starts
    rw [unchanged]
    exact status.unaffected (unaffected_setPhase (before requestId) nofun)

theorem status_insert {call : ι} {inserted : String} {acceptance : CachedAgentAcceptance}
    (status : Status s requestId) (accepted : s.phase call = .accepted inserted acceptance)
    (retained : requestId ∉ (s.insert call inserted acceptance).evicted) :
    Status (s.insert call inserted acceptance) requestId := by
  have holds : (s.phase call).acceptedFor = some inserted := by rw [accepted]; rfl
  have answers : (s.insert call inserted acceptance).answersFor requestId =
      s.answersFor requestId ++ if inserted = requestId then [acceptance.runId] else [] :=
    answersFor_respond call inserted ⟨acceptance, false⟩
  by_cases same : inserted = requestId
  · subst same
    cases status with
    | fresh unsettled _ _ => exact absurd holds (unsettled.2.1 call)
    | cached _ _ settled _ _ => exact absurd holds (settled call)
    | lost _ _ _ settled _ _ => exact absurd holds (settled call)
    | pending other pendingOne itsAcceptance alone _ runs noAnswers =>
      obtain rfl := alone call holds
      obtain ⟨-, rfl⟩ := CallPhase.accepted.inj (itsAcceptance.symm.trans accepted)
      refine .cached pendingOne (BoundedMap.map_put_self ..) (settled_update ?_ nofun) runs ?_
      · exact fun other distinct acceptedToo => distinct (alone other acceptedToo)
      · rw [answers, noAnswers, if_pos rfl]
        simp
  · refine status.unaffected ⟨rfl, ?_, ?_, .rfl, calls_of_update (by simpa [holds]) nofun⟩
    · rw [answers, if_neg same, List.append_nil]
    · -- the other request id keeps its entry, as it is not the one evicted
      simp only [SubmitState.insert, List.mem_append, Option.mem_toList, not_or] at retained
      simp only [SubmitState.insert, BoundedMap.map_put, if_neg (Ne.symm same), if_neg retained.2]

/-- What an enabled step does. -/
inductive SubmitMoves (config : KelvinSdkRuntime) (params : ι → AgentParams)
    (s : SubmitState ι ρ) : SubmitEvent ι ρ → SubmitState ι ρ → Prop
  | lookUp {call : ι} (waits : s.phase call = .waiting) :
    SubmitMoves config params s (.lookUp call) (s.lookUp params call)
  | submit {call : ι} {env : SubmitEnv} {submitted : String}
    (missed : s.phase call = .missed submitted) :
    SubmitMoves config params s (.submit call env) (s.submit config params call submitted env)
  | insert {call : ι} {inserted : String} {acceptance : CachedAgentAcceptance}
    (accepted : s.phase call = .accepted inserted acceptance) :
    SubmitMoves config params s (.insert call) (s.insert call inserted acceptance)
  | elsewhere {runtime : RuntimeState ρ} :
    SubmitMoves config params s (.elsewhere runtime) { s with runtime := runtime }

theorem submitMoves_of_step {event : SubmitEvent ι ρ}
    (moves : (submissions config params).step s event = some t) :
    SubmitMoves config params s event t := by
  simp only [submissions] at moves
  cases event with
  | elsewhere runtime =>
    obtain rfl := Option.some_inj.mp moves
    exact .elsewhere
  | lookUp call | submit call env | insert call =>
    simp only at moves
    split at moves
    · obtain rfl := Option.some_inj.mp moves
      constructor
      assumption
    · cases moves

theorem evicted_lookUp (call : ι) : (s.lookUp params call).evicted = s.evicted := by
  simp only [SubmitState.lookUp]
  split
  · rfl
  · split <;> rfl

theorem evicted_submit (call : ι) (submitted : String) (env : SubmitEnv) :
    (s.submit config params call submitted env).evicted = s.evicted := by
  simp only [SubmitState.submit, SubmitState.setPhase]
  cases (config.submit env (params call).runRequest s.runtime).1 <;> simp only

theorem evicted_of_moves {event : SubmitEvent ι ρ} (moves : SubmitMoves config params s event t)
    (gone : requestId ∈ s.evicted) : requestId ∈ t.evicted := by
  cases moves with
  | lookUp _ => rwa [evicted_lookUp]
  | submit _ => rwa [evicted_submit]
  | insert _ => exact List.mem_append_left _ gone
  | elsewhere => exact gone

theorem tracked_setPhase {call : ι} {next : CallPhase} (tracked : Tracked s)
    (missing : ∀ requestId, next.missedFor = some requestId → s.cache.map requestId = none) :
    Tracked (s.setPhase call next) := by
  intro other requestId missed found
  by_cases same : other = call
  · subst same
    exact absurd (missing requestId (by simpa [SubmitState.setPhase] using missed)) found
  · exact tracked other requestId (by simpa [SubmitState.setPhase, same] using missed) found

theorem tracked_moves {event : SubmitEvent ι ρ} (tracked : Tracked s)
    (moves : SubmitMoves config params s event t) : Tracked t := by
  cases moves with
  | elsewhere => exact tracked
  | lookUp waits =>
    simp only [SubmitState.lookUp]
    split_ifs with blank
    · exact tracked_setPhase tracked fun _ missed => by cases missed
    · cases found : s.cache.map _ with
      | none =>
        refine tracked_setPhase tracked fun requestId missed => ?_
        rwa [← Option.some_inj.mp missed]
      | some hit => exact tracked_setPhase tracked fun _ missed => by cases missed
  | submit _ =>
    simp only [SubmitState.submit]
    split <;> exact tracked_setPhase tracked fun _ missed => by cases missed
  | @insert call inserted acceptance accepted =>
    intro other requestId missed found
    simp only [SubmitState.insert, Bool.or_eq_true, beq_iff_eq]
    have missedBefore : (s.phase other).missedFor = some requestId := by
      by_cases same : other = call
      · subst same
        simp [SubmitState.insert, SubmitState.respond, CallPhase.missedFor] at missed
      · simpa [SubmitState.insert, SubmitState.respond, same] using missed
    by_cases same : requestId = inserted
    · exact .inr (same ▸ missedBefore)
    · simp only [SubmitState.insert, BoundedMap.map_put, if_neg same] at found
      refine .inl (tracked other requestId missedBefore fun missing => found ?_)
      split_ifs <;> simp [missing]

/-- A step in which no overtaken call starts a run keeps the life of every request id. -/
theorem status_step {event : SubmitEvent ι ρ} (tracked : Tracked s)
    (statuses : ∀ requestId ∉ s.evicted, Status s requestId)
    (meets : StartsInOrder config params s event) (moves : SubmitMoves config params s event t) :
    ∀ requestId ∉ t.evicted, Status t requestId := by
  intro requestId retained
  have retainedBefore := mt (evicted_of_moves moves) retained
  have status := statuses requestId retainedBefore
  cases moves with
  | lookUp waits => exact status_lookUp status waits
  | submit missed => exact status_submit status missed retainedBefore tracked meets
  | insert accepted => exact status_insert status accepted retained
  | elsewhere => exact status.unaffected ⟨rfl, rfl, rfl, .rfl, fun _ => .inl rfl⟩

/-- **One run for a request id.** In runs in which no call that starts a run was overtaken,
a request id that was not evicted has one run, and one run id in all its responses. -/
theorem submittedOnce_of_startsInOrder (config : KelvinSdkRuntime) (params : ι → AgentParams)
    (s : SubmitState ι ρ)
    (reached : (submissions config params).ReachableWhen (StartsInOrder config params) s) :
    SubmittedOnce s := by
  suffices invariant : Tracked s ∧ ∀ requestId ∉ s.evicted, Status s requestId by
    intro requestId retained
    exact (invariant.2 requestId retained).once
  refine reached.invariant (fun s => Tracked s ∧ ∀ requestId ∉ s.evicted, Status s requestId)
    ?_ ?_
  · intro s ⟨cache, phase, started, answered, lost, _⟩
    refine ⟨?_, fun requestId _ => .fresh ⟨?_, ?_, ?_⟩ ?_ ?_⟩
    · intro call requestId missed
      rw [phase call] at missed
      cases missed
    · rw [cache]
      rfl
    · intro call
      rw [phase call]
      exact nofun
    · simp [lost]
    · simp [SubmitState.runsFor, started]
    · simp [SubmitState.answersFor, answered]
  · intro s event t ⟨tracked, statuses⟩ meets moves
    have moved := submitMoves_of_step moves
    exact ⟨tracked_moves tracked moved, status_step tracked statuses meets moved⟩

end Invariant

/-! ### A retry before the first answer -/

def retries (_call : Fin 2) : AgentParams where
  requestId := "request-1"
  prompt := "hello"
  sessionId := none
  workspaceDir := none
  timeoutMs := none
  systemPrompt := none
  memoryQuery := none
  runId := none

instance (s : SubmitState (Fin 2) Unit) (call : Fin 2) (requestId : String) :
    Decidable (SubmitsInOrder s call requestId) :=
  inferInstanceAs (Decidable (_ ∧ _ ∧ _))

instance (s : SubmitState (Fin 2) Unit) :
    ∀ event, Decidable (StartsInOrder plainRuntime retries s event)
  | .submit call env =>
    match phase : s.phase call with
    | .missed requestId =>
      decidable_of_iff (plainRuntime.Starts env (retries call).runRequest s.runtime →
        requestId ∉ s.evicted → SubmitsInOrder s call requestId)
        (by simp only [StartsInOrder, phase])
    | .waiting | .accepted .. | .answered _ => .isTrue (by simp only [StartsInOrder, phase])
  | .lookUp _ | .insert _ | .elsewhere _ => inferInstanceAs (Decidable True)

def quiet : SubmitState (Fin 2) Unit :=
  ⟨.empty idempotencyCacheMaxEntries, idle, fun _ => .waiting, [], [], [], [], fun _ => false⟩

theorem quiet_starts : (submissions (ρ := Unit) plainRuntime retries).init quiet :=
  ⟨rfl, fun _ => rfl, rfl, rfl, rfl, rfl, fun _ => rfl⟩

/-- The second call comes after the answer to the first. -/
def laterRetry : List (SubmitEvent (Fin 2) Unit) :=
  [.lookUp 0, .submit 0 (submitAt 1000 "a" .healthy), .insert 0, .lookUp 1]

def overlappingCalls : List (SubmitEvent (Fin 2) Unit) :=
  [.lookUp 0, .lookUp 1, .submit 0 (submitAt 1000 "a" .healthy),
    .submit 1 (submitAt 1001 "b" .healthy), .insert 0, .insert 1]

def runsAndAnswers (s : SubmitState (Fin 2) Unit) : List String × List String × List String :=
  (s.runsFor "request-1", s.answersFor "request-1", s.evicted)

theorem laterRetry_submits_once : ∃ s : SubmitState (Fin 2) Unit,
    runsAndAnswers s = (["run-a"], ["run-a", "run-a"], []) ∧ SubmittedOnce s := by
  have ran : ((submissions plainRuntime retries).run? (StartsInOrder plainRuntime retries) quiet
      laterRetry).map runsAndAnswers = some (["run-a"], ["run-a", "run-a"], []) := by
    decide +kernel
  obtain ⟨s, reached, seen⟩ := exists_of_run? (.init quiet_starts) ran
  exact ⟨s, seen, submittedOnce_of_startsInOrder _ _ s reached⟩

/-- Two overlapping calls with one request id start two runs, and each is answered with a
run id of its own. -/
theorem overlapping_calls_submit_twice :
    ¬ ∀ s : SubmitState (Fin 2) Unit, (submissions plainRuntime retries).Reachable s →
      SubmittedOnce s := by
  intro once
  have ran : ((submissions plainRuntime retries).run? (fun _ _ => True) quiet
      overlappingCalls).map runsAndAnswers =
        some (["run-a", "run-b"], ["run-a", "run-b"], []) := by
    decide +kernel
  obtain ⟨s, reached, seen⟩ := exists_of_run? (.init quiet_starts) ran
  obtain ⟨runs, answers, evicted⟩ : s.runsFor "request-1" = ["run-a", "run-b"] ∧
      s.answersFor "request-1" = ["run-a", "run-b"] ∧ s.evicted = [] := by
    simpa [runsAndAnswers] using seen
  have single := (once s reached "request-1" (by simp [evicted])).1
  rw [runs] at single
  exact absurd single (by decide)

end KelvinClaw.Gateway
