import Mathlib.Algebra.Order.BigOperators.Group.List
import Mathlib.Algebra.Order.Ring.Nat
import KelvinClaw.Core.RunContract
import KelvinClaw.Library.Quiescence

/-!
# Progress of the lanes

A task waits for the mutex of its session and, holding that, for the global lane. Every lock is
held by a task that goes on, so no order of steps leaves tasks waiting for each other: while a
task is not through, some task can take a step, and each step brings one task closer to its end.
-/

namespace KelvinClaw.Core

open Systems Systems.TransitionSystem

variable {ω ρ : Type}

/-! ### Steps of the tasks -/

def LaneEvent.ofTask : LaneEvent ω ρ → Bool
  | .markRunning _ | .getSessionLane _ | .lockSession _ | .enter _ | .leave .. | .release _
  | .store .. | .notify _ => true
  | .submit .. | .abort _ | .waiter _ => false

/-- The steps of the tasks and of the waiters: no request comes in and no task is aborted. -/
def LaneEvent.undisturbed : LaneEvent ω ρ → Bool
  | .submit .. | .abort _ => false
  | .markRunning _ | .getSessionLane _ | .lockSession _ | .enter _ | .leave .. | .release _
  | .store .. | .notify _ | .waiter _ => true

/-- How many steps a task has ahead of it; the last one notifies the waiters of its run. -/
def LanePhase.stepsLeft (task : TaskPhase) : LanePhase ρ → ℕ
  | .spawned => 8
  | .marked => 7
  | .queued _ => 6
  | .holding _ => 5
  | .inside _ => 4
  | .left .. => 3
  | .finished _ => 2
  | .ended => if task = .stored then 1 else 0
  | .aborted => 0

namespace LaneState

variable (s : LaneState ω ρ)

def runSteps (runId : String) : ℕ :=
  ((s.tasks runId).map fun task => task.phase.stepsLeft (s.base.task runId)).getD 0

def stepsLeft : ℕ := (s.registered.map s.runSteps).sum

end LaneState

def LaneState.Through (s : LaneState ω ρ) (runId : String) (task : LaneTask ρ) : Prop :=
  match task.phase with
  | .ended => s.base.task runId = .notified
  | .aborted => True
  | _ => False

def LaneState.AllThrough (s : LaneState ω ρ) : Prop :=
  ∀ runId, ∀ task ∈ s.tasks runId, s.Through runId task

/-! ### Locks and their holders -/

def LanePhase.Fits (task : TaskPhase) : LanePhase ρ → Prop
  | .spawned => task = .spawned
  | .marked | .queued _ | .holding _ | .inside _ | .left .. | .finished _ => task = .running
  | .ended => task = .stored ∨ task = .notified
  | .aborted => task ≠ .unspawned

/-- Every lock is held by a task that says so. -/
structure LocksOwned (s : LaneState ω ρ) : Prop where
  session : ∀ lane, ∀ runId ∈ s.scheduler.holder lane,
    ∃ task ∈ s.tasks runId, task.phase.held = some lane
  global : ∀ runId ∈ s.scheduler.globalLane, s.scheduler.useGlobalLane ∧
    ∃ task ∈ s.tasks runId, task.phase.isInside
  fits : ∀ runId, ∀ task ∈ s.tasks runId, task.phase.Fits (s.base.task runId)
  registered : ∀ runId, ∀ task ∈ s.tasks runId, runId ∈ s.registered

/-! What a step leaves of the locks. -/

section Owned

variable {s : LaneState ω ρ} {scheduler : LaneScheduler} {runId : String} {req : AgentRunRequest}
  {phase next : LanePhase ρ} {base : WaitState ω ρ} {registered : List String}

theorem LocksOwned.setTask (owned : LocksOwned s) (at_ : ∀ task ∈ s.tasks runId, task.phase = phase)
    (session : ∀ lane, ∀ other ∈ scheduler.holder lane, other = runId ∧ next.held = some lane ∨
      s.scheduler.holder lane = some other ∧ (phase.held = some lane → next.held = some lane))
    (global : ∀ other ∈ scheduler.globalLane, scheduler.useGlobalLane ∧
      (other = runId ∧ next.isInside ∨
        s.scheduler.globalLane = some other ∧ (phase.isInside → next.isInside)))
    (fits : next.Fits (base.task runId))
    (others : ∀ other, other ≠ runId → base.task other = s.base.task other)
    (grows : s.registered ⊆ registered) (member : runId ∈ registered) :
    LocksOwned ⟨base, scheduler, (s.setTask runId req next).tasks, registered⟩ := by
  have mine : (s.setTask runId req next).tasks runId = some ⟨req, next⟩ := Function.update_self ..
  have theirs {other : String} (differ : other ≠ runId) :
      (s.setTask runId req next).tasks other = s.tasks other :=
    Function.update_of_ne differ ..
  refine ⟨fun lane other held => ?_, fun other held => ?_, fun other task found => ?_,
    fun other task found => ?_⟩
  · obtain ⟨rfl, holds⟩ | ⟨before, keeps⟩ := session lane other held
    · exact ⟨_, mine, holds⟩
    · obtain ⟨task, found, holds⟩ := owned.session lane other before
      by_cases same : other = runId
      · subst same
        exact ⟨_, mine, keeps (at_ task found ▸ holds)⟩
      · exact ⟨task, (theirs same).trans found, holds⟩
  · obtain ⟨uses, ⟨rfl, inside⟩ | ⟨before, keeps⟩⟩ := global other held
    · exact ⟨uses, _, mine, inside⟩
    · obtain ⟨-, task, found, inside⟩ := owned.global other before
      by_cases same : other = runId
      · subst same
        exact ⟨uses, _, mine, keeps (at_ task found ▸ inside)⟩
      · exact ⟨uses, task, (theirs same).trans found, inside⟩
  · by_cases same : other = runId
    · subst same
      obtain rfl := Option.some_inj.mp (mine.symm.trans found)
      exact fits
    · simp only [others other same]
      exact owned.fits other task ((theirs same).symm.trans found)
  · by_cases same : other = runId
    · exact same ▸ member
    · exact grows (owned.registered other task ((theirs same).symm.trans found))

theorem LocksOwned.goesOn (owned : LocksOwned s)
    (at_ : ∀ task ∈ s.tasks runId, task.phase = phase)
    (locks : scheduler.holder = s.scheduler.holder ∧
      scheduler.globalLane = s.scheduler.globalLane ∧
      scheduler.useGlobalLane = s.scheduler.useGlobalLane)
    (held : phase.held = next.held ∧ phase.isInside = next.isInside)
    (fits : next.Fits (base.task runId))
    (others : ∀ other, other ≠ runId → base.task other = s.base.task other)
    (grows : s.registered ⊆ registered) (member : runId ∈ registered) :
    LocksOwned ⟨base, scheduler, (s.setTask runId req next).tasks, registered⟩ := by
  obtain ⟨holder, globalLane, useGlobalLane⟩ := locks
  refine owned.setTask at_ ?_ ?_ fits others grows member
  · intro lane other has
    exact .inr ⟨holder ▸ has, held.1 ▸ id⟩
  · intro other has
    rw [globalLane] at has
    exact ⟨useGlobalLane ▸ (owned.global other has).1, .inr ⟨has, held.2 ▸ id⟩⟩

/-- The global lane is held only where there is one, so that it is free once it is unlocked. -/
theorem LocksOwned.globalLane_unlockGlobal (owned : LocksOwned s) :
    s.scheduler.unlockGlobal.globalLane = none := by
  unfold LaneScheduler.unlockGlobal
  split_ifs with uses
  · rfl
  · rw [Option.eq_none_iff_forall_not_mem]
    intro runId has
    exact uses (owned.global runId has).1

theorem holder_unlockSession {lane held : ℕ} {other : String}
    (has : other ∈ (scheduler.unlockSession lane).holder held) :
    held ≠ lane ∧ scheduler.holder held = some other := by
  by_cases this : held = lane
  · subst this
    simp [LaneScheduler.unlockSession] at has
  · exact ⟨this, by simpa [LaneScheduler.unlockSession, this] using has⟩

theorem LanePhase.Fits.isSpawned {task : TaskPhase} (fits : phase.Fits task) :
    task ≠ .unspawned := by
  rintro rfl
  cases phase with
  | ended => rcases fits with contradiction | contradiction <;> cases contradiction
  | aborted => exact fits rfl
  | spawned | marked | queued | holding | inside | left | finished => cases fits

theorem LanePhase.Fits.notified (fits : phase.Fits .stored) : phase.Fits .notified := by
  cases phase with
  | ended => exact .inr rfl
  | aborted => exact TaskPhase.noConfusion
  | spawned | marked | queued | holding | inside | left | finished => cases fits

theorem LocksOwned.tasks_eq_none (owned : LocksOwned s) (agrees : RecordsAgree s.base)
    (unknown : s.base.registry runId = none) : s.tasks runId = none := by
  cases found : s.tasks runId with
  | none => rfl
  | some task =>
    have recorded := agrees runId
    rw [unknown] at recorded
    cases at_ : s.base.task runId with
    | unspawned => exact absurd at_ (owned.fits runId task found).isSpawned
    | spawned | running | stored | notified =>
      rw [at_] at recorded
      obtain ⟨_, contradiction⟩ := recorded
      simp at contradiction

theorem LocksOwned.abort (owned : LocksOwned s) (found : s.tasks runId = some ⟨req, phase⟩) :
    LocksOwned { s.setTask runId req .aborted with scheduler := s.scheduler.drop phase } := by
  have at_ : ∀ task ∈ s.tasks runId, task.phase = phase := by simp [found]
  have member := owned.registered runId _ found
  have fits := (owned.fits runId _ found).isSpawned
  have leaves {lane : ℕ} (holds : phase.held = some lane) (held : ℕ) (other : String)
      (has : other ∈ (s.scheduler.unlockSession lane).holder held) :
      other = runId ∧ (none : Option ℕ) = some held ∨
        s.scheduler.holder held = some other ∧ (phase.held = some held → none = some held) := by
    obtain ⟨differ, before⟩ := holder_unlockSession has
    refine .inr ⟨before, fun names => ?_⟩
    exact absurd (Option.some_inj.mp (names.symm.trans holds)) differ
  cases phase with
  | inside lane =>
    refine owned.setTask at_ (fun held other has => leaves rfl held other ?_) ?_ fits
      (fun _ _ => rfl) (List.Subset.refl _) member
    · simpa [LaneScheduler.drop, LaneScheduler.unlockSession] using has
    · intro other has
      rw [LaneScheduler.drop, LaneScheduler.unlockSession, owned.globalLane_unlockGlobal] at has
      cases has
  | holding lane | left lane result =>
    refine owned.setTask at_ (leaves rfl) (fun other has => ?_) fits (fun _ _ => rfl)
      (List.Subset.refl _) member
    exact ⟨(owned.global other has).1, .inr ⟨has, fun inside => by cases inside⟩⟩
  | spawned | marked | queued | finished | ended | aborted =>
    exact owned.goesOn at_ ⟨rfl, rfl, rfl⟩ ⟨rfl, rfl⟩ fits (fun _ _ => rfl)
      (List.Subset.refl _) member

end Owned

/-! ### Steps -/

section Steps

variable [DecidableEq ω] {calls : ω → WaitCall} {s t : LaneState ω ρ} {event : LaneEvent ω ρ}
  {runId : String}

theorem sameTasks_of_waiter {event : WaitEvent ω ρ}
    (moves : (lanes calls).step s (.waiter event) = some t) :
    ∃ base, t = { s with base := base } ∧ base.task = s.base.task := by
  simp only [lanes] at moves
  split_ifs at moves with ofWaiter
  obtain ⟨base, below, rfl⟩ := Option.map_eq_some_iff.mp moves
  exact ⟨base, rfl, (sameRuns_of_ofWaiter ofWaiter below).2⟩

theorem locksOwned_step (agrees : RecordsAgree s.base) (owned : LocksOwned s)
    (moves : (lanes calls).step s event = some t) : LocksOwned t := by
  have at_ {runId : String} {task : LaneTask ρ} (found : s.tasks runId = some task) :
      ∀ task' ∈ s.tasks runId, task'.phase = task.phase := by
    simp [found]
  have member {runId : String} {task : LaneTask ρ} (found : s.tasks runId = some task) :
      runId ∈ s.registered :=
    owned.registered runId task found
  have moved (runId : String) (task : TaskPhase) (other : String) (differ : other ≠ runId) :
      Function.update s.base.task runId task other = s.base.task other :=
    Function.update_of_ne differ ..
  -- the steps at the two mutexes and aborts change an owner, the others move one task on
  cases laneMoves_of_step moves with
  | reject => exact owned
  | @submit req _ _ submits =>
    obtain ⟨unknown, rfl⟩ := WaitState.eq_advance_of_submit submits
    have fresh := owned.tasks_eq_none agrees unknown
    have none : ∀ task ∈ s.tasks req.runId, task.phase = .spawned := by simp [fresh]
    exact owned.goesOn none ⟨rfl, rfl, rfl⟩ ⟨rfl, rfl⟩ (Function.update_self ..) (moved _ _)
      (List.subset_append_left ..) (List.mem_append_right _ (List.mem_singleton_self _))
  | markRunning found below =>
    cases waitMoves_of_step below with
    | markRunning spawned recorded =>
      exact owned.goesOn (at_ found) ⟨rfl, rfl, rfl⟩ ⟨rfl, rfl⟩ (Function.update_self ..)
        (moved _ _) (List.Subset.refl _) (member found)
  | getSessionLane found =>
    refine owned.goesOn (at_ found) ?_ ⟨rfl, rfl⟩ (owned.fits _ _ found) (fun _ _ => rfl)
      (List.Subset.refl _) (member found)
    unfold LaneScheduler.getSessionLane
    split <;> exact ⟨rfl, rfl, rfl⟩
  | @lockSession runId req lane scheduler found locks =>
    unfold LaneScheduler.lockSession at locks
    split_ifs at locks with free
    obtain rfl := Option.some_inj.mp locks
    refine owned.setTask (at_ found) ?_
      (fun other has => ⟨(owned.global other has).1, .inr ⟨has, id⟩⟩)
      (owned.fits _ _ found) (fun _ _ => rfl) (List.Subset.refl _) (member found)
    intro held other has
    by_cases this : held = lane
    · subst this
      exact .inl ⟨by simpa [eq_comm] using has, rfl⟩
    · exact .inr ⟨by simpa [this] using has, fun names => by cases names⟩
  | @enter runId req lane scheduler found locks =>
    have holder := (globalLane_lockGlobal locks).2.1
    refine owned.setTask (at_ found) (fun held other has => .inr ⟨holder ▸ has, id⟩) ?_
      (owned.fits _ _ found) (fun _ _ => rfl) (List.Subset.refl _) (member found)
    intro other has
    unfold LaneScheduler.lockGlobal at locks
    split_ifs at locks with uses free
    · obtain rfl := Option.some_inj.mp locks
      exact ⟨uses, .inl ⟨(Option.some_inj.mp has).symm, rfl⟩⟩
    · obtain rfl := Option.some_inj.mp locks
      exact ⟨(owned.global other has).1, .inr ⟨has, fun inside => by cases inside⟩⟩
  | leave found =>
    refine owned.setTask (at_ found) (fun held other has => .inr ⟨?_, id⟩) (fun other has => ?_)
      (owned.fits _ _ found) (fun _ _ => rfl) (List.Subset.refl _) (member found)
    · rwa [holder_unlockGlobal] at has
    · rw [owned.globalLane_unlockGlobal] at has
      cases has
  | release found =>
    refine owned.setTask (at_ found) (fun held other has => ?_)
      (fun other has => ⟨(owned.global other has).1, .inr ⟨has, fun inside => by cases inside⟩⟩)
      (owned.fits _ _ found) (fun _ _ => rfl) (List.Subset.refl _) (member found)
    obtain ⟨differ, before⟩ := holder_unlockSession has
    exact .inr ⟨before, fun names => absurd (Option.some_inj.mp names).symm differ⟩
  | store found below =>
    cases waitMoves_of_step below with
    | store running recorded =>
      exact owned.goesOn (at_ found) ⟨rfl, rfl, rfl⟩ ⟨rfl, rfl⟩ (.inl (Function.update_self ..))
        (moved _ _) (List.Subset.refl _) (member found)
  | @notify runId base below =>
    cases waitMoves_of_step below with
    | notify stored =>
      refine ⟨owned.session, owned.global, fun other task found => ?_, owned.registered⟩
      have before := owned.fits other task found
      by_cases same : other = runId
      · subst same
        rw [stored] at before
        simpa [WaitState.notify, WaitState.setTask] using before.notified
      · simpa [WaitState.notify, WaitState.setTask, same] using before
  | abort found => exact owned.abort found
  | waiter =>
    obtain ⟨base, same, task⟩ := sameTasks_of_waiter moves
    rw [same]
    exact ⟨owned.session, owned.global,
      fun runId found member => task ▸ owned.fits runId found member, owned.registered⟩

/-- **Locks have owners.** In every run a lock that is taken is held by a task. -/
theorem locksOwned_of_reachable (reached : (lanes (ρ := ρ) calls).Reachable s) :
    RecordsAgree s.base ∧ LocksOwned s := by
  refine reached.invariant (fun s => RecordsAgree s.base ∧ LocksOwned s) ?_ ?_
  · rintro s ⟨starts, ⟨useGlobalLane, new⟩, none, -⟩
    refine ⟨recordsAgree_of_reachable (.init starts), ?_, ?_, ?_, ?_⟩
    · intro lane runId held
      rw [new] at held
      cases held
    · intro runId held
      rw [new] at held
      cases held
    · intro runId task found
      rw [none] at found
      cases found
    · intro runId task found
      rw [none] at found
      cases found
  · rintro s event t ⟨agrees, owned⟩ - moves
    exact ⟨recordsAgree_lanes agrees moves, locksOwned_step agrees owned moves⟩

/-! ### Some task can go on -/

theorem through_of_free {task : LaneTask ρ} (agrees : RecordsAgree s.base) (owned : LocksOwned s)
    (rests : (lanes calls).Quiescent (·.ofTask) s) (found : s.tasks runId = some task)
    (free : ∀ lane, task.phase ≠ .queued lane ∧ task.phase ≠ .holding lane) :
    s.Through runId task := by
  obtain ⟨req, phase⟩ := task
  have fits := owned.fits runId _ found
  have record := agrees runId
  cases phase with
  | queued lane => exact absurd rfl (free lane).1
  | holding lane => exact absurd rfl (free lane).2
  | aborted => trivial
  | spawned =>
    obtain fits : s.base.task runId = .spawned := fits
    rw [fits] at record
    obtain ⟨startedAtMs, recorded⟩ := record
    have none := rests (.markRunning runId) rfl
    simp [lanes, waiting, found, fits, WaitState.markRunning, RunRegistry.markRunning,
      RunRegistry.modify, RunRegistry.getRecord, recorded, Except.map] at none
  | marked =>
    have none := rests (.getSessionLane runId) rfl
    simp [lanes, found] at none
  | inside lane =>
    have none := rests (.leave runId (.error (.timeout ""))) rfl
    simp [lanes, found] at none
  | left lane result =>
    have none := rests (.release runId) rfl
    simp [lanes, found] at none
  | finished result =>
    obtain fits : s.base.task runId = .running := fits
    rw [fits] at record
    obtain ⟨startedAtMs, recorded⟩ := record
    have none := rests (.store runId 0) rfl
    cases result <;> simp [lanes, waiting, found, fits, WaitState.store, recorded,
      RunRegistry.markCompleted, RunRegistry.markFailed, RunRegistry.modify,
      RunRegistry.getRecord, Except.map] at none
  | ended =>
    rcases fits with fits | fits
    · have none := rests (.notify runId) rfl
      simp [lanes, waiting, found, fits] at none
    · exact fits

theorem not_holding_of_quiescent (agrees : RecordsAgree s.base) (owned : LocksOwned s)
    (rests : (lanes calls).Quiescent (·.ofTask) s) {req : AgentRunRequest} {lane : ℕ} :
    s.tasks runId ≠ some ⟨req, .holding lane⟩ := by
  intro found
  have none := rests (.enter runId) rfl
  cases held : s.scheduler.globalLane with
  | none =>
    simp only [lanes, found, LaneScheduler.lockGlobal, held, if_true, Option.map_eq_none_iff]
      at none
    split_ifs at none
  | some other =>
    obtain ⟨-, ⟨req', phase⟩, found', inside⟩ := owned.global other held
    cases phase with
    | inside lane =>
      exact through_of_free agrees owned rests found' fun _ => by simp
    | spawned | marked | queued | holding | left | finished | ended | aborted => cases inside

/-- **No deadlock.** When no task can take a step, all of them are through. -/
theorem through_of_quiescent {task : LaneTask ρ} (agrees : RecordsAgree s.base)
    (owned : LocksOwned s) (rests : (lanes calls).Quiescent (·.ofTask) s)
    (found : s.tasks runId = some task) :
    s.Through runId task := by
  obtain ⟨req, phase⟩ := task
  cases phase with
  | holding lane => exact absurd found (not_holding_of_quiescent agrees owned rests)
  | queued lane =>
    have none := rests (.lockSession runId) rfl
    cases held : s.scheduler.holder lane with
    | none => simp [lanes, found, LaneScheduler.lockSession, held] at none
    | some other =>
      -- the holder of the mutex waits for the global lane at most
      obtain ⟨⟨req', phase⟩, found', holds⟩ := owned.session lane other held
      cases phase with
      | holding lane' => exact absurd found' (not_holding_of_quiescent agrees owned rests)
      | inside | left =>
        exact (through_of_free agrees owned rests found' fun _ => by simp).elim
      | spawned | marked | queued | finished | ended | aborted => cases holds
  | spawned | marked | inside | left | finished | ended | aborted =>
    exact through_of_free agrees owned rests found fun _ => by simp

/-! ### Every step counts -/

omit [DecidableEq ω] in
theorem sum_map_succ {α : Type} [DecidableEq α] {f g : α → ℕ} {a : α} {l : List α}
    (distinct : l.Nodup) (member : a ∈ l) (less : g a + 1 = f a) (same : ∀ b, b ≠ a → g b = f b) :
    (l.map g).sum + 1 = (l.map f).sum := by
  have parts := List.perm_cons_erase member
  rw [(parts.map g).sum_eq, (parts.map f).sum_eq, List.map_cons, List.map_cons, List.sum_cons,
    List.sum_cons, ← less, List.map_congr_left fun b others => same b ?_]
  · omega
  · rintro rfl
    exact distinct.not_mem_erase others

omit [DecidableEq ω] in
theorem stepsLeft_of_task {req : AgentRunRequest} {phase next : LanePhase ρ}
    {base : WaitState ω ρ} {scheduler : LaneScheduler} (distinct : s.registered.Nodup)
    (owned : LocksOwned s) (found : s.tasks runId = some ⟨req, phase⟩)
    (others : ∀ other, other ≠ runId → base.task other = s.base.task other)
    (less : next.stepsLeft (base.task runId) + 1 = phase.stepsLeft (s.base.task runId)) :
    LaneState.stepsLeft ⟨base, scheduler, (s.setTask runId req next).tasks, s.registered⟩ + 1 =
      s.stepsLeft := by
  apply sum_map_succ distinct (owned.registered runId _ found)
  · simpa [LaneState.runSteps, LaneState.setTask, found] using less
  · intro other differ
    simp [LaneState.runSteps, LaneState.setTask, differ, others other differ]

theorem ended_of_notify (moves : (lanes calls).step s (.notify runId) = some t) :
    ∃ req, s.tasks runId = some ⟨req, .ended⟩ := by
  simp only [lanes] at moves
  split at moves
  · next req found => exact ⟨req, found⟩
  · cases moves

/-- **Every step counts.** A step of a task is one less to go, and the waiters change nothing. -/
theorem stepsLeft_step (distinct : s.registered.Nodup) (owned : LocksOwned s)
    (undisturbed : event.undisturbed) (moves : (lanes calls).step s event = some t) :
    t.stepsLeft + event.ofTask.toNat = s.stepsLeft := by
  cases laneMoves_of_step moves with
  | reject | submit | abort => cases undisturbed
  | markRunning found below =>
    cases waitMoves_of_step below with
    | markRunning spawned recorded =>
      exact stepsLeft_of_task distinct owned found
        (fun other differ => Function.update_of_ne differ ..) rfl
  | getSessionLane found | lockSession found | enter found | leave found =>
    exact stepsLeft_of_task distinct owned found (fun _ _ => rfl) rfl
  | release found => exact stepsLeft_of_task distinct owned found (fun _ _ => rfl) rfl
  | @store runId _ _ _ _ found below =>
    cases waitMoves_of_step below with
    | store running recorded =>
      apply stepsLeft_of_task distinct owned found
        (fun other differ => Function.update_of_ne differ ..)
      simp [LanePhase.stepsLeft, WaitState.advance, WaitState.setTask]
  | @notify runId base below =>
    cases waitMoves_of_step below with
    | notify stored =>
      obtain ⟨req, found⟩ := ended_of_notify moves
      have same : (s.setTask runId req .ended).tasks = s.tasks := by
        rw [LaneState.setTask, ← found, Function.update_eq_self]
      rw [← same]
      apply stepsLeft_of_task distinct owned found
        (fun other differ => Function.update_of_ne differ ..)
      simp [LanePhase.stepsLeft, WaitState.notify, WaitState.setTask, stored]
  | @waiter event base below =>
    obtain ⟨base, same, task⟩ := sameTasks_of_waiter moves
    have unchanged : LaneState.runSteps { s with base := base } = s.runSteps := by
      funext runId
      simp only [LaneState.runSteps, task]
    rw [same, LaneState.stepsLeft, unchanged]
    rfl

omit [DecidableEq ω] in
theorem stepsLeft_le (s : LaneState ω ρ) : s.stepsLeft ≤ 8 * s.registered.length := by
  have each (runId : String) : s.runSteps runId ≤ 8 := by
    unfold LaneState.runSteps
    cases s.tasks runId with
    | none => exact Nat.zero_le 8
    | some task =>
      simp only [Option.map_some, Option.getD_some, LanePhase.stepsLeft]
      split <;> try split
      all_goals omega
  have total := List.sum_le_card_nsmul (s.registered.map s.runSteps) 8 fun n member => by
    obtain ⟨runId, -, rfl⟩ := List.mem_map.mp member
    exact each runId
  simpa [LaneState.stepsLeft, Nat.mul_comm] using total

omit [DecidableEq ω] in
theorem undisturbed_of_ofTask (ofTask : event.ofTask) : event.undisturbed := by
  cases event with
  | submit | abort | waiter => cases ofTask
  | markRunning | getSessionLane | lockSession | enter | leave | release | store | notify => rfl

theorem measured_lanes (calls : ω → WaitCall) :
    (lanes (ρ := ρ) calls).Measured (·.undisturbed) (·.ofTask) (lanes calls).Reachable
      (·.stepsLeft) where
  allowed_of_ofParty _ := undisturbed_of_ofTask
  kept _ _ _ reached _ moves := reached.step moves
  counted _ _ _ reached undisturbed moves :=
    stepsLeft_step (runsKept_of_reachable reached).registered (locksOwned_of_reachable reached).2
      undisturbed moves

theorem allThrough_of_quiescent (reached : (lanes calls).Reachable s)
    (rests : (lanes calls).Quiescent (·.ofTask) s) : s.AllThrough := by
  obtain ⟨agrees, owned⟩ := locksOwned_of_reachable reached
  exact fun runId task found => through_of_quiescent agrees owned rests found

/-- **The lanes make progress.** However the tasks and the waiters are interleaved from a state
that any run has reached, no task takes more than its eight steps, and the tasks rest only when
all of them are through. So they can be taken there from every state. -/
theorem lanes_make_progress (calls : ω → WaitCall) (s : LaneState ω ρ)
    (reached : (lanes calls).Reachable s) :
    (∀ events t, (∀ event ∈ events, event.undisturbed) →
      (lanes calls).run? (fun _ _ => True) s events = some t →
        events.countP (·.ofTask) ≤ 8 * s.registered.length ∧
          ((lanes calls).Quiescent (·.ofTask) t → t.AllThrough)) ∧
      ∃ events t, (∀ event ∈ events, event.undisturbed) ∧
        (lanes calls).run? (fun _ _ => True) s events = some t ∧ t.AllThrough := by
  constructor
  · intro events t undisturbed follows
    obtain ⟨ends, counted⟩ := (measured_lanes calls).run reached undisturbed follows
    have most := stepsLeft_le s
    exact ⟨by omega, allThrough_of_quiescent ends⟩
  · obtain ⟨events, t, undisturbed, follows, ends, rests⟩ :=
      (measured_lanes calls).exists_quiescent s reached
    exact ⟨events, t, undisturbed, follows, allThrough_of_quiescent ends rests⟩

/-- **One run in the global lane.** With a global lane the runs are in the brain one at a time,
whatever their sessions are and whichever tasks were aborted before. -/
theorem one_inside_with_global_lane (calls : ω → WaitCall) (s : LaneState ω ρ)
    (reached : (lanes calls).Reachable s) (global : s.scheduler.useGlobalLane)
    (runId other sessionKey sessionKey' : String) (inside : Inside s sessionKey runId)
    (insideToo : Inside s sessionKey' other) : runId = other :=
  (lanesAgree_of_reachable reached).exclusive_of_useGlobalLane global inside insideToo

end Steps

/-! ### A run that waits for another session -/

def otherRequest : AgentRunRequest := { sessionRequest "run-2" with sessionKey := "session-b" }

def globalRuntime : LaneState (Fin 1) String := ⟨noRuns, .new true, fun _ => none, []⟩

theorem globalRuntime_starts : (lanes patientCall).init globalRuntime :=
  ⟨noRuns_starts, ⟨true, rfl⟩, fun _ => rfl, rfl⟩

/-- Both runs hold the mutex of their sessions, and the first one is in the brain. -/
def contendedRun : List (LaneEvent (Fin 1) String) :=
  [.submit (sessionRequest "run-1") 1000, .submit otherRequest 1001, .markRunning "run-1",
    .markRunning "run-2", .getSessionLane "run-1", .getSessionLane "run-2",
    .lockSession "run-2", .lockSession "run-1", .enter "run-1"]

theorem contended_runs_make_progress : ∃ s : LaneState (Fin 1) String,
    s.registered = ["run-1", "run-2"] ∧ s.scheduler.globalLane = some "run-1" ∧
      ∃ events t, (∀ event ∈ events, event.undisturbed) ∧
        (lanes patientCall).run? (fun _ _ => True) s events = some t ∧ t.AllThrough := by
  have ran : ((lanes patientCall).run? (fun _ _ => True) globalRuntime contendedRun).map
      (fun s => (s.registered, s.scheduler.globalLane)) =
        some (["run-1", "run-2"], some "run-1") := by
    decide +kernel
  obtain ⟨s, reached, seen⟩ := exists_of_run? (.init globalRuntime_starts) ran
  simp only [Prod.mk.injEq] at seen
  exact ⟨s, seen.1, seen.2, (lanes_make_progress patientCall s reached).2⟩

theorem contended_runs_one_inside : ∃ s : LaneState (Fin 1) String,
    Inside s "session-a" "run-1" ∧
      ∀ runId sessionKey, Inside s sessionKey runId → runId = "run-1" := by
  have ran : ((lanes patientCall).run? (fun _ _ => True) globalRuntime contendedRun).map
      (fun s => (s.scheduler.useGlobalLane, (s.tasks "run-1").map fun task =>
        (task.req.sessionKey, task.phase.isInside))) =
          some (true, some ("session-a", true)) := by
    decide +kernel
  obtain ⟨s, reached, seen⟩ := exists_of_run? (.init globalRuntime_starts) ran
  simp only [Prod.mk.injEq] at seen
  obtain ⟨global, first⟩ := seen
  obtain ⟨task, found, same⟩ := Option.map_eq_some_iff.mp first
  obtain ⟨key, isInside⟩ := Prod.mk.inj same
  have inside : Inside s "session-a" "run-1" := ⟨task, found, key, isInside⟩
  exact ⟨s, inside, fun runId sessionKey insideToo =>
    one_inside_with_global_lane patientCall s reached global runId "run-1" sessionKey "session-a"
      insideToo inside⟩

end KelvinClaw.Core
