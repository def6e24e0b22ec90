import KelvinClaw.Core.RunPhases

/-!
# The lanes of the sessions

The task of a run enters the brain inside the lane of its session: it looks the lane's mutex up
under its session key, locks it, locks the global lane as well where the scheduler has one, runs
the brain, and releases both before it stores the result. Any number of tasks and waiters
interleave, and a task may be aborted anywhere, which drops the locks it holds.
-/

namespace KelvinClaw.Core

open Systems Systems.TransitionSystem

variable {ω ρ : Type}

/-! ### The scheduler -/

/-- The mutexes are numbered in the order of their creation; a mutex is held by a run. -/
structure LaneScheduler where
  useGlobalLane : Bool
  globalLane : Option String
  sessionLanes : String → Option ℕ
  created : ℕ
  holder : ℕ → Option String

namespace LaneScheduler

variable (lanes : LaneScheduler)

def new (useGlobalLane : Bool) : LaneScheduler :=
  ⟨useGlobalLane, none, fun _ => none, 0, fun _ => none⟩

def getSessionLane (laneKey : String) : ℕ × LaneScheduler :=
  match lanes.sessionLanes laneKey with
  | some lane => (lane, lanes)
  | none =>
    (lanes.created,
      { lanes with
        sessionLanes := Function.update lanes.sessionLanes laneKey (some lanes.created)
        created := lanes.created + 1 })

def lockSession (lane : ℕ) (runId : String) : Option LaneScheduler :=
  if lanes.holder lane = none then
    some { lanes with holder := Function.update lanes.holder lane (some runId) }
  else none

def unlockSession (lane : ℕ) : LaneScheduler :=
  { lanes with holder := Function.update lanes.holder lane none }

/-- Lock the global lane, where there is one, once nobody holds it. -/
def lockGlobal (runId : String) : Option LaneScheduler :=
  if lanes.useGlobalLane then
    if lanes.globalLane = none then some { lanes with globalLane := some runId } else none
  else some lanes

def unlockGlobal : LaneScheduler :=
  if lanes.useGlobalLane then { lanes with globalLane := none } else lanes

end LaneScheduler

/-! ### Tasks -/

/-- How far the task of a run has come. -/
inductive LanePhase (ρ : Type) where
  | spawned
  | marked
  | queued (lane : ℕ)
  | holding (lane : ℕ)
  | inside (lane : ℕ)
  | left (lane : ℕ) (result : KelvinResult ρ)
  | finished (result : KelvinResult ρ)
  | ended
  | aborted

def LanePhase.lane : LanePhase ρ → Option ℕ
  | .queued lane | .holding lane | .inside lane | .left lane _ => some lane
  | .spawned | .marked | .finished _ | .ended | .aborted => none

def LanePhase.held : LanePhase ρ → Option ℕ
  | .holding lane | .inside lane | .left lane _ => some lane
  | .spawned | .marked | .queued _ | .finished _ | .ended | .aborted => none

/-- The task is in `Brain::run`. -/
def LanePhase.isInside : LanePhase ρ → Bool
  | .inside _ => true
  | .spawned | .marked | .queued _ | .holding _ | .left .. | .finished _ | .ended
  | .aborted => false

structure LaneTask (ρ : Type) where
  req : AgentRunRequest
  phase : LanePhase ρ

def LaneScheduler.drop (lanes : LaneScheduler) : LanePhase ρ → LaneScheduler
  | .inside lane => lanes.unlockGlobal.unlockSession lane
  | .holding lane | .left lane _ => lanes.unlockSession lane
  | .spawned | .marked | .queued _ | .finished _ | .ended | .aborted => lanes

/-- The runs and the waiters below, the scheduler, the spawned tasks, and a log of the run ids
that were registered. -/
structure LaneState (ω ρ : Type) where
  base : WaitState ω ρ
  scheduler : LaneScheduler
  tasks : String → Option (LaneTask ρ)
  registered : List String

inductive LaneEvent (ω ρ : Type) where
  | submit (req : AgentRunRequest) (startedAtMs : ℕ)
  | markRunning (runId : String)
  | getSessionLane (runId : String)
  | lockSession (runId : String)
  | enter (runId : String)
  | leave (runId : String) (result : KelvinResult ρ)
  | release (runId : String)
  | store (runId : String) (endedAtMs : ℕ)
  | notify (runId : String)
  | abort (runId : String)
  | waiter (event : WaitEvent ω ρ)

namespace LaneState

variable (s : LaneState ω ρ)

def setTask (runId : String) (req : AgentRunRequest) (phase : LanePhase ρ) : LaneState ω ρ :=
  { s with tasks := Function.update s.tasks runId (some ⟨req, phase⟩) }

def submit (req : AgentRunRequest) (startedAtMs : ℕ) : LaneState ω ρ :=
  match s.base.submit req.runId startedAtMs with
  | none => s
  | some base =>
    { s.setTask req.runId req .spawned with
      base := base
      registered := s.registered ++ [req.runId] }

end LaneState

def lanes [DecidableEq ω] (calls : ω → WaitCall) :
    TransitionSystem (LaneState ω ρ) (LaneEvent ω ρ) where
  init s := (waiting calls).init s.base ∧ (∃ useGlobalLane, s.scheduler = .new useGlobalLane) ∧
    (∀ runId, s.tasks runId = none) ∧ s.registered = []
  step s event :=
    match event with
    | .submit req startedAtMs => some (s.submit req startedAtMs)
    | .markRunning runId =>
      match s.tasks runId with
      | some ⟨req, .spawned⟩ =>
        ((waiting calls).step s.base (.markRunning runId)).map fun base =>
          { s.setTask runId req .marked with base := base }
      | _ => none
    | .getSessionLane runId =>
      match s.tasks runId with
      | some ⟨req, .marked⟩ =>
        some { s.setTask runId req (.queued (s.scheduler.getSessionLane req.sessionKey).1) with
          scheduler := (s.scheduler.getSessionLane req.sessionKey).2 }
      | _ => none
    | .lockSession runId =>
      match s.tasks runId with
      | some ⟨req, .queued lane⟩ =>
        (s.scheduler.lockSession lane runId).map fun scheduler =>
          { s.setTask runId req (.holding lane) with scheduler := scheduler }
      | _ => none
    | .enter runId =>
      match s.tasks runId with
      | some ⟨req, .holding lane⟩ =>
        (s.scheduler.lockGlobal runId).map fun scheduler =>
          { s.setTask runId req (.inside lane) with scheduler := scheduler }
      | _ => none
    | .leave runId result =>
      match s.tasks runId with
      | some ⟨req, .inside lane⟩ =>
        some { s.setTask runId req (.left lane result) with
          scheduler := s.scheduler.unlockGlobal }
      | _ => none
    | .release runId =>
      match s.tasks runId with
      | some ⟨req, .left lane result⟩ =>
        some { s.setTask runId req (.finished result) with
          scheduler := s.scheduler.unlockSession lane }
      | _ => none
    | .store runId endedAtMs =>
      match s.tasks runId with
      | some ⟨req, .finished result⟩ =>
        ((waiting calls).step s.base (.store runId result endedAtMs)).map fun base =>
          { s.setTask runId req .ended with base := base }
      | _ => none
    | .notify runId =>
      match s.tasks runId with
      | some ⟨_, .ended⟩ =>
        ((waiting calls).step s.base (.notify runId)).map fun base => { s with base := base }
      | _ => none
    | .abort runId =>
      match s.tasks runId with
      | some ⟨req, phase⟩ =>
        some { s.setTask runId req .aborted with scheduler := s.scheduler.drop phase }
      | none => none
    | .waiter event =>
      if event.ofWaiter then
        ((waiting calls).step s.base event).map fun base => { s with base := base }
      else none

def LaneAttended (calls : ω → WaitCall) (s : LaneState ω ρ) : LaneEvent ω ρ → Prop
  | .notify runId => Attended calls s.base (.notify runId)
  | .waiter event => Attended calls s.base event
  | _ => True

/-! ### The runs below the lanes -/

section Base

variable [DecidableEq ω] {calls : ω → WaitCall} {s t : LaneState ω ρ} {event : LaneEvent ω ρ}

/-- What each event does, and when. -/
inductive LaneMoves (calls : ω → WaitCall) (s : LaneState ω ρ) :
    LaneEvent ω ρ → LaneState ω ρ → Prop
  | reject {req : AgentRunRequest} {startedAtMs : ℕ}
      (rejects : s.base.submit req.runId startedAtMs = none) :
    LaneMoves calls s (.submit req startedAtMs) s
  | submit {req : AgentRunRequest} {startedAtMs : ℕ} {base : WaitState ω ρ}
      (submits : s.base.submit req.runId startedAtMs = some base) :
    LaneMoves calls s (.submit req startedAtMs)
      { s.setTask req.runId req .spawned with
        base := base
        registered := s.registered ++ [req.runId] }
  | markRunning {runId : String} {req : AgentRunRequest} {base : WaitState ω ρ}
      (found : s.tasks runId = some ⟨req, .spawned⟩)
      (below : (waiting calls).step s.base (.markRunning runId) = some base) :
    LaneMoves calls s (.markRunning runId) { s.setTask runId req .marked with base := base }
  | getSessionLane {runId : String} {req : AgentRunRequest}
      (found : s.tasks runId = some ⟨req, .marked⟩) :
    LaneMoves calls s (.getSessionLane runId)
      { s.setTask runId req (.queued (s.scheduler.getSessionLane req.sessionKey).1) with
        scheduler := (s.scheduler.getSessionLane req.sessionKey).2 }
  | lockSession {runId : String} {req : AgentRunRequest} {lane : ℕ} {scheduler : LaneScheduler}
      (found : s.tasks runId = some ⟨req, .queued lane⟩)
      (locks : s.scheduler.lockSession lane runId = some scheduler) :
    LaneMoves calls s (.lockSession runId)
      { s.setTask runId req (.holding lane) with scheduler := scheduler }
  | enter {runId : String} {req : AgentRunRequest} {lane : ℕ} {scheduler : LaneScheduler}
      (found : s.tasks runId = some ⟨req, .holding lane⟩)
      (locks : s.scheduler.lockGlobal runId = some scheduler) :
    LaneMoves calls s (.enter runId)
      { s.setTask runId req (.inside lane) with scheduler := scheduler }
  | leave {runId : String} {req : AgentRunRequest} {lane : ℕ} {result : KelvinResult ρ}
      (found : s.tasks runId = some ⟨req, .inside lane⟩) :
    LaneMoves calls s (.leave runId result)
      { s.setTask runId req (.left lane result) with scheduler := s.scheduler.unlockGlobal }
  | release {runId : String} {req : AgentRunRequest} {lane : ℕ} {result : KelvinResult ρ}
      (found : s.tasks runId = some ⟨req, .left lane result⟩) :
    LaneMoves calls s (.release runId)
      { s.setTask runId req (.finished result) with scheduler := s.scheduler.unlockSession lane }
  | store {runId : String} {req : AgentRunRequest} {result : KelvinResult ρ} {endedAtMs : ℕ}
      {base : WaitState ω ρ} (found : s.tasks runId = some ⟨req, .finished result⟩)
      (below : (waiting calls).step s.base (.store runId result endedAtMs) = some base) :
    LaneMoves calls s (.store runId endedAtMs) { s.setTask runId req .ended with base := base }
  | notify {runId : String} {base : WaitState ω ρ}
      (below : (waiting calls).step s.base (.notify runId) = some base) :
    LaneMoves calls s (.notify runId) { s with base := base }
  | abort {runId : String} {req : AgentRunRequest} {phase : LanePhase ρ}
      (found : s.tasks runId = some ⟨req, phase⟩) :
    LaneMoves calls s (.abort runId)
      { s.setTask runId req .aborted with scheduler := s.scheduler.drop phase }
  | waiter {event : WaitEvent ω ρ} {base : WaitState ω ρ}
      (below : (waiting calls).step s.base event = some base) :
    LaneMoves calls s (.waiter event) { s with base := base }

theorem laneMoves_of_step (moves : (lanes calls).step s event = some t) :
    LaneMoves calls s event t := by
  simp only [lanes] at moves
  -- a step finds its task in one phase, or does nothing
  cases event with
  | submit req startedAtMs =>
    obtain rfl := Option.some_inj.mp moves
    unfold LaneState.submit
    cases submits : s.base.submit req.runId startedAtMs with
    | none => exact .reject submits
    | some base => exact .submit submits
  | markRunning runId =>
    simp only at moves
    split at moves
    · next found =>
      obtain ⟨base, below, rfl⟩ := Option.map_eq_some_iff.mp moves
      exact .markRunning found below
    · cases moves
  | getSessionLane runId =>
    simp only at moves
    split at moves
    · next found =>
      obtain rfl := Option.some_inj.mp moves
      exact .getSessionLane found
    · cases moves
  | lockSession runId =>
    simp only at moves
    split at moves
    · next found =>
      obtain ⟨scheduler, locks, rfl⟩ := Option.map_eq_some_iff.mp moves
      exact .lockSession found locks
    · cases moves
  | enter runId =>
    simp only at moves
    split at moves
    · next found =>
      obtain ⟨scheduler, locks, rfl⟩ := Option.map_eq_some_iff.mp moves
      exact .enter found locks
    · cases moves
  | leave runId result =>
    simp only at moves
    split at moves
    · next found =>
      obtain rfl := Option.some_inj.mp moves
      exact .leave found
    · cases moves
  | release runId =>
    simp only at moves
    split at moves
    · next found =>
      obtain rfl := Option.some_inj.mp moves
      exact .release found
    · cases moves
  | store runId endedAtMs =>
    simp only at moves
    split at moves
    · next found =>
      obtain ⟨base, below, rfl⟩ := Option.map_eq_some_iff.mp moves
      exact .store found below
    · cases moves
  | notify runId =>
    simp only at moves
    split at moves
    · obtain ⟨base, below, rfl⟩ := Option.map_eq_some_iff.mp moves
      exact .notify below
    · cases moves
  | abort runId =>
    simp only at moves
    split at moves
    · next found =>
      obtain rfl := Option.some_inj.mp moves
      exact .abort found
    · cases moves
  | waiter event =>
    simp only at moves
    split at moves
    · obtain ⟨base, below, rfl⟩ := Option.map_eq_some_iff.mp moves
      exact .waiter below
    · cases moves

/-- **Below the lanes.** A step of the runtime is a step of the runs or leaves them alone. -/
theorem base_step (moves : (lanes calls).step s event = some t) :
    t.base = s.base ∨ ∃ below, (waiting calls).step s.base below = some t.base ∧
      (LaneAttended calls s event → Attended calls s.base below) := by
  cases laneMoves_of_step moves with
  | reject | getSessionLane | lockSession | enter | leave | release | abort => exact .inl rfl
  | submit submits => exact .inr ⟨.submit _ _, submits, id⟩
  | markRunning _ below | store _ below | notify below | waiter below =>
    exact .inr ⟨_, below, id⟩

theorem base_reachable (reached : (lanes (ρ := ρ) calls).Reachable s) :
    (waiting calls).Reachable s.base := by
  refine reached.map LaneState.base ?_ ?_
  · exact fun s starts => starts.1
  · intro s event t _ _ moves
    obtain same | ⟨below, moved, -⟩ := base_step moves
    · exact .inl same
    · exact .inr ⟨below, trivial, moved⟩

theorem base_attended (reached : (lanes (ρ := ρ) calls).ReachableWhen (LaneAttended calls) s) :
    (waiting calls).ReachableWhen (Attended calls) s.base := by
  refine reached.map LaneState.base ?_ ?_
  · exact fun s starts => starts.1
  · intro s event t _ meets moves
    obtain same | ⟨below, moved, attended⟩ := base_step moves
    · exact .inl same
    · exact .inr ⟨below, attended meets, moved⟩

end Base

/-! ### Exclusion -/

/-- A task has the mutex of its session's lane, and holds it where it says so. -/
structure TaskHolds (scheduler : LaneScheduler) (runId : String) (task : LaneTask ρ) : Prop where
  lane : ∀ lane, task.phase.lane = some lane →
    scheduler.sessionLanes task.req.sessionKey = some lane
  held : ∀ lane, task.phase.held = some lane → scheduler.holder lane = some runId
  entered : task.phase.isInside → scheduler.useGlobalLane → scheduler.globalLane = some runId

def LanesAgree (s : LaneState ω ρ) : Prop :=
  ∀ runId, ∀ task ∈ s.tasks runId, TaskHolds s.scheduler runId task

/-- A change of the scheduler in which every other run keeps what it has. -/
structure LaneScheduler.KeepsOthers (before after : LaneScheduler) (runId : String) : Prop where
  lanes : ∀ key lane, before.sessionLanes key = some lane → after.sessionLanes key = some lane
  holders : ∀ other, other ≠ runId → ∀ lane, before.holder lane = some other →
    after.holder lane = some other
  global : ∀ other, other ≠ runId → before.useGlobalLane → before.globalLane = some other →
    after.globalLane = some other
  useGlobalLane : after.useGlobalLane = before.useGlobalLane

theorem TaskHolds.keepsOthers {before after : LaneScheduler} {runId other : String}
    {task : LaneTask ρ} (holds : TaskHolds before other task)
    (keeps : before.KeepsOthers after runId) (differ : other ≠ runId) :
    TaskHolds after other task where
  lane lane has := keeps.lanes _ _ (holds.lane lane has)
  held lane has := keeps.holders other differ _ (holds.held lane has)
  entered inside global := by
    rw [keeps.useGlobalLane] at global
    exact keeps.global other differ global (holds.entered inside global)

section Exclusion

variable {s : LaneState ω ρ} {scheduler : LaneScheduler} {runId : String} {req : AgentRunRequest}
  {phase : LanePhase ρ} {base : WaitState ω ρ} {registered : List String}

theorem LanesAgree.setTask (agrees : LanesAgree s)
    (keeps : s.scheduler.KeepsOthers scheduler runId)
    (holds : TaskHolds scheduler runId ⟨req, phase⟩) :
    LanesAgree ⟨base, scheduler, (s.setTask runId req phase).tasks, registered⟩ := by
  intro other task found
  by_cases same : other = runId
  · subst same
    obtain rfl : ⟨req, phase⟩ = task := by simpa [LaneState.setTask] using found
    exact holds
  · apply TaskHolds.keepsOthers (agrees other task _) keeps same
    simpa [LaneState.setTask, same] using found

/-! What each change of the scheduler leaves to the others, and gives to the run. -/

theorem keepsOthers_refl : scheduler.KeepsOthers scheduler runId :=
  ⟨fun _ _ has => has, fun _ _ _ has => has, fun _ _ _ has => has, rfl⟩

theorem keepsOthers_getSessionLane (key : String) :
    scheduler.KeepsOthers (scheduler.getSessionLane key).2 runId := by
  unfold LaneScheduler.getSessionLane
  split
  · exact keepsOthers_refl
  · rename_i absent
    refine ⟨fun other lane has => ?_, fun _ _ _ has => has, fun _ _ _ has => has, rfl⟩
    have differ : other ≠ key := by
      rintro rfl
      rw [absent] at has
      cases has
    simpa [differ] using has

theorem sessionLanes_getSessionLane (key : String) :
    (scheduler.getSessionLane key).2.sessionLanes key =
      some (scheduler.getSessionLane key).1 := by
  unfold LaneScheduler.getSessionLane
  split
  · assumption
  · simp

variable {locked : LaneScheduler} {lane : ℕ}

theorem keepsOthers_lockSession (locks : scheduler.lockSession lane runId = some locked) :
    scheduler.KeepsOthers locked runId := by
  unfold LaneScheduler.lockSession at locks
  split_ifs at locks with free
  obtain rfl := Option.some_inj.mp locks
  refine ⟨fun _ _ has => has, fun other _ held has => ?_, fun _ _ _ has => has, rfl⟩
  have differ : held ≠ lane := by
    rintro rfl
    rw [free] at has
    cases has
  simpa [differ] using has

theorem holder_lockSession (locks : scheduler.lockSession lane runId = some locked) :
    locked.sessionLanes = scheduler.sessionLanes ∧ locked.holder lane = some runId := by
  unfold LaneScheduler.lockSession at locks
  split_ifs at locks
  obtain rfl := Option.some_inj.mp locks
  simp

theorem keepsOthers_unlockSession (held : scheduler.holder lane = some runId) :
    scheduler.KeepsOthers (scheduler.unlockSession lane) runId := by
  refine ⟨fun _ _ has => has, fun other notRun kept has => ?_, fun _ _ _ has => has, rfl⟩
  have differ : kept ≠ lane := by
    rintro rfl
    rw [held] at has
    exact notRun (Option.some_inj.mp has).symm
  simpa [LaneScheduler.unlockSession, differ] using has

theorem keepsOthers_lockGlobal (locks : scheduler.lockGlobal runId = some locked) :
    scheduler.KeepsOthers locked runId := by
  unfold LaneScheduler.lockGlobal at locks
  split_ifs at locks with global free
  · obtain rfl := Option.some_inj.mp locks
    refine ⟨fun _ _ has => has, fun _ _ _ has => has, fun _ _ _ has => ?_, rfl⟩
    rw [free] at has
    cases has
  · obtain rfl := Option.some_inj.mp locks
    exact keepsOthers_refl

theorem globalLane_lockGlobal (locks : scheduler.lockGlobal runId = some locked) :
    locked.sessionLanes = scheduler.sessionLanes ∧ locked.holder = scheduler.holder ∧
      (locked.useGlobalLane → locked.globalLane = some runId) := by
  unfold LaneScheduler.lockGlobal at locks
  split_ifs at locks with global free
  · obtain rfl := Option.some_inj.mp locks
    simp
  · obtain rfl := Option.some_inj.mp locks
    simp [global]

theorem keepsOthers_unlockGlobal
    (entered : scheduler.useGlobalLane → scheduler.globalLane = some runId) :
    scheduler.KeepsOthers scheduler.unlockGlobal runId := by
  unfold LaneScheduler.unlockGlobal
  split_ifs with global
  · refine ⟨fun _ _ has => has, fun _ _ _ has => has, fun other notRun _ has => ?_, rfl⟩
    rw [entered global] at has
    exact absurd (Option.some_inj.mp has).symm notRun
  · exact keepsOthers_refl

@[simp] theorem sessionLanes_unlockGlobal :
    scheduler.unlockGlobal.sessionLanes = scheduler.sessionLanes := by
  unfold LaneScheduler.unlockGlobal
  split <;> rfl

@[simp] theorem holder_unlockGlobal : scheduler.unlockGlobal.holder = scheduler.holder := by
  unfold LaneScheduler.unlockGlobal
  split <;> rfl

theorem LaneScheduler.KeepsOthers.trans {before between after : LaneScheduler}
    (first : before.KeepsOthers between runId) (second : between.KeepsOthers after runId) :
    before.KeepsOthers after runId where
  lanes key lane has := second.lanes key lane (first.lanes key lane has)
  holders other differ lane has :=
    second.holders other differ lane (first.holders other differ lane has)
  global other differ uses has :=
    second.global other differ (first.useGlobalLane ▸ uses) (first.global other differ uses has)
  useGlobalLane := second.useGlobalLane.trans first.useGlobalLane

theorem keepsOthers_drop (holds : TaskHolds scheduler runId ⟨req, phase⟩) :
    scheduler.KeepsOthers (scheduler.drop phase) runId := by
  cases phase with
  | inside lane =>
    apply (keepsOthers_unlockGlobal (holds.entered rfl)).trans
    apply keepsOthers_unlockSession
    rw [holder_unlockGlobal]
    exact holds.held lane rfl
  | holding lane | left lane result => exact keepsOthers_unlockSession (holds.held lane rfl)
  | spawned | marked | queued lane | finished result | ended | aborted => exact keepsOthers_refl

end Exclusion

/-! ### Steps -/

section Steps

variable [DecidableEq ω] {calls : ω → WaitCall} {s t : LaneState ω ρ} {event : LaneEvent ω ρ}

theorem TaskHolds.of_lane_eq_none {scheduler : LaneScheduler} {runId : String}
    {req : AgentRunRequest} {phase : LanePhase ρ} (none : phase.lane = none) :
    TaskHolds scheduler runId ⟨req, phase⟩ := by
  cases phase with
  | queued | holding | inside | left => cases none
  | spawned | marked | finished | ended | aborted => exact ⟨nofun, nofun, nofun⟩

theorem lanesAgree_step (agrees : LanesAgree s) (moves : (lanes calls).step s event = some t) :
    LanesAgree t := by
  cases laneMoves_of_step moves with
  | reject | notify | waiter => exact agrees
  | submit | markRunning | store => exact agrees.setTask keepsOthers_refl (.of_lane_eq_none rfl)
  | @getSessionLane _ req _ =>
    apply agrees.setTask (keepsOthers_getSessionLane req.sessionKey)
    refine ⟨fun lane queued => ?_, nofun, nofun⟩
    rw [sessionLanes_getSessionLane]
    exact queued
  | @lockSession runId _ _ _ found locks =>
    obtain ⟨sessionLanes, holder⟩ := holder_lockSession locks
    apply agrees.setTask (keepsOthers_lockSession locks)
    refine ⟨fun held holding => ?_, fun held holding => ?_, nofun⟩
    · rw [sessionLanes]
      exact (agrees runId _ found).lane held holding
    · obtain rfl := Option.some_inj.mp holding
      exact holder
  | @enter runId _ _ _ found locks =>
    obtain ⟨sessionLanes, holder, global⟩ := globalLane_lockGlobal locks
    apply agrees.setTask (keepsOthers_lockGlobal locks)
    have holds := agrees runId _ found
    refine ⟨fun held inside => ?_, fun held inside => ?_, fun _ => global⟩
    · rw [sessionLanes]
      exact holds.lane held inside
    · rw [holder]
      exact holds.held held inside
  | @leave runId _ _ _ found =>
    have holds := agrees runId _ found
    apply agrees.setTask (keepsOthers_unlockGlobal (holds.entered rfl))
    refine ⟨fun held left => ?_, fun held left => ?_, nofun⟩
    · rw [sessionLanes_unlockGlobal]
      exact holds.lane held left
    · rw [holder_unlockGlobal]
      exact holds.held held left
  | @release runId _ lane _ found =>
    have held := (agrees runId _ found).held lane rfl
    exact agrees.setTask (keepsOthers_unlockSession held) (.of_lane_eq_none rfl)
  | @abort runId _ _ found =>
    exact agrees.setTask (keepsOthers_drop (agrees runId _ found)) (.of_lane_eq_none rfl)

/-- **Lanes are held.** In every run a task inside its lane holds the mutex of its session. -/
theorem lanesAgree_of_reachable (reached : (lanes (ρ := ρ) calls).Reachable s) :
    LanesAgree s := by
  refine reached.invariant LanesAgree ?_ ?_
  · rintro s ⟨-, -, spawned, -⟩ runId task found
    rw [spawned runId] at found
    cases found
  · intro s event t agrees _ moves
    exact lanesAgree_step agrees moves

end Steps

/-! ### One run at a time -/

/-- The run is in `Brain::run` under the given session key. -/
def Inside (s : LaneState ω ρ) (sessionKey runId : String) : Prop :=
  ∃ task ∈ s.tasks runId, task.req.sessionKey = sessionKey ∧ task.phase.isInside

section OneAtATime

variable {s : LaneState ω ρ} {runId other : String}

/-- **One at a time.** Two runs of a session hold the same mutex in the brain. -/
theorem LanesAgree.exclusive (agrees : LanesAgree s) {sessionKey : String}
    (inside : Inside s sessionKey runId) (insideToo : Inside s sessionKey other) :
    runId = other := by
  obtain ⟨⟨req, phase⟩, found, rfl, isInside⟩ := inside
  obtain ⟨⟨req', phase'⟩, found', key, isInside'⟩ := insideToo
  cases phase with
  | inside lane =>
    cases phase' with
    | inside lane' =>
      have holds := agrees runId _ found
      have holds' := agrees other _ found'
      have same : lane = lane' := by
        have looked := holds.lane lane rfl
        have looked' := holds'.lane lane' rfl
        simp only at key looked looked'
        rw [← key, looked'] at looked
        exact (Option.some_inj.mp looked).symm
      subst same
      exact Option.some_inj.mp ((holds.held lane rfl).symm.trans (holds'.held lane rfl))
    | spawned | marked | queued | holding | left | finished | ended | aborted => cases isInside'
  | spawned | marked | queued | holding | left | finished | ended | aborted => cases isInside

theorem LanesAgree.exclusive_of_useGlobalLane (agrees : LanesAgree s)
    (global : s.scheduler.useGlobalLane) {sessionKey sessionKey' : String}
    (inside : Inside s sessionKey runId) (insideToo : Inside s sessionKey' other) :
    runId = other := by
  obtain ⟨task, found, -, isInside⟩ := inside
  obtain ⟨task', found', -, isInside'⟩ := insideToo
  have entered := (agrees runId _ found).entered isInside global
  have entered' := (agrees other _ found').entered isInside' global
  exact Option.some_inj.mp (entered.symm.trans entered')

end OneAtATime

end KelvinClaw.Core
