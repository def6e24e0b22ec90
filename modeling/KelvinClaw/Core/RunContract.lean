import KelvinClaw.Core.RunLanes

/-!
# The contract of the run registry

What a caller of the runtime relies on, over any interleaving of submissions, tasks, aborted
tasks and waiters: run ids are registered once, phases move forward, results stay, and what
`state` and the waits answer agrees with them. The one exception are waits that miss the
notification of their run.
-/

namespace KelvinClaw.Core

open Systems Systems.TransitionSystem

variable {ω ρ : Type}

/-! ### The contract of the registry -/

def LaneState.phase (s : LaneState ω ρ) (runId : String) : Option RunPhase :=
  (s.base.registry runId).map (·.status.phase)

def RunStatus.error : RunStatus ρ → Option String
  | .failed error => some error
  | .accepted | .running | .completed _ => none

/-- What every run keeps: each run id is registered once, its phase moves forward, it has an
end in its terminal phases, its terminal record stays whatever follows, `state` and the answers
with a result agree with the record, a wait fails only if no run has its id, and the runs of a
session are in the brain one at a time. -/
structure RunsKept [DecidableEq ω] (calls : ω → WaitCall) (s : LaneState ω ρ) : Prop where
  registered : s.registered.Nodup
  advances : ∀ event t, (lanes calls).step s event = some t →
    ∀ runId, PhaseAdvances (s.phase runId) (t.phase runId)
  ended : ∀ runId, ∀ record ∈ s.base.registry runId,
    (record.endedAtMs.isSome ↔ record.status.phase.Terminal)
  settled : ∀ events t, (lanes calls).run? (fun _ _ => True) s events = some t →
    ∀ runId, ∀ record ∈ s.base.registry runId, record.status.phase.Terminal →
      t.base.registry runId = some record
  state : ∀ runId, ∀ record ∈ s.base.registry runId, s.base.registry.state runId = .ok
    ⟨runId, record.status.phase, record.startedAtMs, record.endedAtMs, record.status.error⟩
  answers : ∀ waiter, AnswerAgrees calls s.base waiter
  fails : ∀ event t, (lanes calls).step s event = some t → FailsUnknown calls s.base t.base
  exclusive : ∀ sessionKey runId other, Inside s sessionKey runId → Inside s sessionKey other →
    runId = other

/-- The whole contract: the waits do not time out on a run that ended before their deadline
either. -/
structure RunContract [DecidableEq ω] (calls : ω → WaitCall) (s : LaneState ω ρ) : Prop
    extends RunsKept calls s where
  reports : ∀ waiter, Reports calls s.base waiter

section Contract

variable {calls : ω → WaitCall} {s t : LaneState ω ρ} {runId other : String}

theorem RecordAgrees.wellFormed {task : TaskPhase} {record : RunRecord ρ}
    (agrees : RecordAgrees task (some record) runId) : record.WellFormed runId := by
  cases task with
  | unspawned => cases agrees
  | spawned | running =>
    obtain ⟨startedAtMs, found⟩ := agrees
    obtain rfl := Option.some_inj.mp found
    exact ⟨rfl, by simp [RunStatus.phase, RunPhase.Terminal]⟩
  | stored | notified =>
    obtain ⟨same, found, wellFormed, -⟩ := agrees
    obtain rfl := Option.some_inj.mp found
    exact wellFormed

theorem RunRecord.WellFormed.state {registry : RunRegistry ρ} {record : RunRecord ρ}
    (wellFormed : record.WellFormed runId) (found : registry runId = some record) :
    registry.state runId = .ok
      ⟨runId, record.status.phase, record.startedAtMs, record.endedAtMs, record.status.error⟩ := by
  rw [RunRegistry.state, RunRegistry.getRecord, found, ← wellFormed.runId_eq]
  cases status : record.status <;> simp [Except.map, status, RunStatus.phase, RunStatus.error]

variable [DecidableEq ω]

theorem recordMoves_lanes {event : LaneEvent ω ρ} (agrees : RecordsAgree s.base)
    (moves : (lanes calls).step s event = some t) (runId : String) :
    RecordMoves runId (s.base.task runId) (s.base.registry runId) (t.base.task runId)
      (t.base.registry runId) := by
  obtain same | ⟨below, moved, -⟩ := base_step moves
  · rw [same]
    exact .stays
  · exact recordMoves_step agrees moved runId

theorem recordsAgree_lanes {event : LaneEvent ω ρ} (agrees : RecordsAgree s.base)
    (moves : (lanes calls).step s event = some t) : RecordsAgree t.base :=
  fun runId => (recordMoves_lanes agrees moves runId).agrees (agrees runId)

/-- **Results stay.** Whatever follows, a terminal record is kept. -/
theorem terminal_of_run? {events : List (LaneEvent ω ρ)} {record : RunRecord ρ}
    (agrees : RecordsAgree s.base)
    (follows : (lanes calls).run? (fun _ _ => True) s events = some t)
    (found : s.base.registry runId = some record) (ended : record.status.phase.Terminal) :
    t.base.registry runId = some record := by
  induction events generalizing s with
  | nil =>
    obtain rfl := Option.some_inj.mp follows
    exact found
  | cons event rest ih =>
    simp only [run?, if_true] at follows
    obtain ⟨between, moves, follows⟩ := Option.bind_eq_some_iff.mp follows
    have kept := (recordMoves_lanes agrees moves runId).terminal found ended
    exact ih (recordsAgree_lanes agrees moves) follows kept

theorem RecordMoves.isSome {task task' : TaskPhase} {record record' : Option (RunRecord ρ)}
    (moves : RecordMoves runId task record task' record') (known : record.isSome) :
    record'.isSome := by
  cases moves with
  | stays | notifies => exact known
  | registers | runs | completes | fails => rfl

/-- The log has each run id once, and each is known to the registry. -/
structure RegisteredOnce (s : LaneState ω ρ) : Prop where
  nodup : s.registered.Nodup
  known : ∀ runId ∈ s.registered, (s.base.registry runId).isSome

theorem registered_step {event : LaneEvent ω ρ} (moves : (lanes calls).step s event = some t) :
    t.registered = s.registered ∨ ∃ runId startedAtMs, t.registered = s.registered ++ [runId] ∧
      s.base.submit runId startedAtMs = some t.base := by
  cases laneMoves_of_step moves with
  | submit submits => exact .inr ⟨_, _, rfl, submits⟩
  | reject | markRunning | getSessionLane | lockSession | enter | leave | release | store
  | notify | abort | waiter => exact .inl rfl

theorem registeredOnce_step {event : LaneEvent ω ρ} (agrees : RecordsAgree s.base)
    (once : RegisteredOnce s) (moves : (lanes calls).step s event = some t) :
    RegisteredOnce t := by
  have known : ∀ runId ∈ s.registered, (t.base.registry runId).isSome := by
    intro runId member
    exact (recordMoves_lanes agrees moves runId).isSome (once.known runId member)
  obtain same | ⟨runId, startedAtMs, appended, submits⟩ := registered_step moves
  · constructor
    · rw [same]
      exact once.nodup
    · rwa [same]
  · obtain ⟨unknown, base⟩ := WaitState.eq_advance_of_submit submits
    have fresh : runId ∉ s.registered := by
      intro member
      simpa [unknown] using once.known runId member
    constructor
    · rw [appended]
      apply List.nodup_append.mpr
      refine ⟨once.nodup, by simp, ?_⟩
      intro before member added new same
      rw [List.mem_singleton.mp new] at same
      exact fresh (same ▸ member)
    · intro other member
      rw [appended, List.mem_append, List.mem_singleton] at member
      obtain before | rfl := member
      · exact known other before
      · simp [base, WaitState.advance, WaitState.setTask]

theorem failsUnknown_lanes {event : LaneEvent ω ρ} (moves : (lanes calls).step s event = some t) :
    FailsUnknown calls s.base t.base := by
  obtain same | ⟨below, moved, -⟩ := base_step moves
  · rw [same]
    exact fun _ _ failed => .inl failed
  · exact failsUnknown_step moved

/-- **What every run keeps.** -/
theorem runsKept_of_reachable (reached : (lanes calls).Reachable s) : RunsKept calls s := by
  have agrees : RecordsAgree s.base := recordsAgree_of_reachable (base_reachable reached)
  have once : RegisteredOnce s := by
    refine (reached.invariant (fun s => RecordsAgree s.base ∧ RegisteredOnce s) ?_ ?_).2
    · rintro s ⟨starts, -, -, none⟩
      refine ⟨recordsAgree_of_reachable (.init starts), ?_, ?_⟩
      · rw [none]
        exact List.nodup_nil
      · rw [none]
        exact nofun
    · rintro s event t ⟨agrees, once⟩ - moves
      exact ⟨recordsAgree_lanes agrees moves, registeredOnce_step agrees once moves⟩
  have wellFormed : ∀ runId, ∀ record ∈ s.base.registry runId, record.WellFormed runId := by
    intro runId record found
    have agreesThere := agrees runId
    rw [found] at agreesThere
    exact agreesThere.wellFormed
  exact {
    registered := once.nodup
    advances := fun event t moves runId => (recordMoves_lanes agrees moves runId).advances
    ended := fun runId record found => (wellFormed runId record found).ended_iff
    settled := fun events t follows runId record found => terminal_of_run? agrees follows found
    state := fun runId record found => (wellFormed runId record found).state found
    answers := answerAgrees_of_reachable (base_reachable reached)
    fails := fun event t => failsUnknown_lanes
    exclusive := fun sessionKey runId other => (lanesAgree_of_reachable reached).exclusive }

/-- **The contract of the registry.** In attended runs it holds in every state. -/
theorem runContract_of_attended (calls : ω → WaitCall) (s : LaneState ω ρ)
    (reached : (lanes calls).ReachableWhen (LaneAttended calls) s) : RunContract calls s where
  toRunsKept := runsKept_of_reachable reached.reachable
  reports := (consistent_of_attended (base_attended reached)).reportsOutcomes.reports

end Contract

/-! ### Two runs of one session -/

instance {n : ℕ} (calls : Fin n → WaitCall) (s : LaneState (Fin n) ρ) :
    ∀ event, Decidable (LaneAttended calls s event)
  | .notify runId => inferInstanceAs (Decidable (Attended calls s.base (.notify runId)))
  | .waiter event => inferInstanceAs (Decidable (Attended calls s.base event))
  | .submit .. | .markRunning _ | .getSessionLane _ | .lockSession _ | .enter _ | .leave ..
  | .release _ | .store .. | .abort _ => inferInstanceAs (Decidable True)

def sessionRequest (runId : String) : AgentRunRequest :=
  ⟨runId, "session-a", "session-a", ".", "hello", none, none, none, none⟩

def idleRuntime : LaneState (Fin 1) String := ⟨noRuns, .new false, fun _ => none, []⟩

theorem idleRuntime_starts : (lanes patientCall).init idleRuntime :=
  ⟨noRuns_starts, ⟨false, rfl⟩, fun _ => rfl, rfl⟩

/-- The second run waits for the lane while the first is in the brain, and then enters. -/
def serializedRun : List (LaneEvent (Fin 1) String) :=
  [.submit (sessionRequest "run-1") 1000, .submit (sessionRequest "run-1") 1001,
    .submit (sessionRequest "run-2") 1002, .waiter (.call (.last 0)),
    .waiter (.readStatus (.last 0)), .waiter (.register (.last 0)),
    .markRunning "run-1", .markRunning "run-2",
    .getSessionLane "run-1", .getSessionLane "run-2", .lockSession "run-1", .enter "run-1",
    .leave "run-1" (.ok "done"), .release "run-1", .lockSession "run-2", .enter "run-2",
    .store "run-1" 1500, .notify "run-1", .waiter (.readStatus (.last 0)),
    .waiter (.readResult (.last 0))]

/-- The first run ends between the waiter's look at its status and its registration. -/
def unnoticedRun : List (LaneEvent (Fin 1) String) :=
  [.submit (sessionRequest "run-1") 1000, .markRunning "run-1", .getSessionLane "run-1",
    .lockSession "run-1", .enter "run-1", .waiter (.call (.last 0)),
    .waiter (.readStatus (.last 0)), .leave "run-1" (.ok "done"), .release "run-1",
    .store "run-1" 1500, .notify "run-1", .waiter (.register (.last 0)), .waiter (.tick 30000),
    .waiter (.expire (.last 0))]

theorem serializedRun_keeps_contract : ∃ s : LaneState (Fin 1) String,
    s.registered = ["run-1", "run-2"] ∧ s.base.waiter 0 = .outcome (.ok (.completed "done")) ∧
      s.scheduler.holder 0 = some "run-2" ∧ RunContract patientCall s := by
  have ran : ((lanes patientCall).run? (LaneAttended patientCall) idleRuntime serializedRun).map
      (fun s => (s.registered, s.base.waiter 0, s.scheduler.holder 0)) =
        some (["run-1", "run-2"], .outcome (.ok (.completed "done")), some "run-2") := by
    decide +kernel
  obtain ⟨s, reached, seen⟩ := exists_of_run? (.init idleRuntime_starts) ran
  simp only [Prod.mk.injEq] at seen
  obtain ⟨registered, answer, holder⟩ := seen
  exact ⟨s, registered, answer, holder, runContract_of_attended patientCall s reached⟩

/-- The run ended, and `wait_for_outcome` does not agree with its result. -/
theorem unnoticed_run_times_out :
    ¬ ∀ s : LaneState (Fin 1) String, (lanes patientCall).Reachable s →
      RunContract patientCall s := by
  intro contract
  have ran : ((lanes patientCall).run? (fun _ _ => True) idleRuntime unnoticedRun).map
      (fun s => (s.base.waiter 0, s.base.deadlineMs 0, s.base.storedAtMs "run-1")) =
        some (.returned (.timedOut 1000), 30000, some 0) := by
    decide +kernel
  obtain ⟨s, reached, seen⟩ := exists_of_run? (.init idleRuntime_starts) ran
  simp only [Prod.mk.injEq] at seen
  obtain ⟨answer, deadline, stored⟩ := seen
  have right := (contract s reached).reports 0
  rw [Reports, answer] at right
  have late := right.2 0 stored
  rw [deadline] at late
  omega

end KelvinClaw.Core
