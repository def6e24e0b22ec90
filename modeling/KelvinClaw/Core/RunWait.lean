import KelvinClaw.Core.RunRegistry
import KelvinClaw.Library.TransitionSystem

/-!
# Waiting for a run

`RunRegistry::wait` reads the status of a run under its lock, and when the run has not
terminated it registers for a notification and sleeps until it is notified or its timer
ends. The task of the run stores the terminal status under the lock and then notifies
the waiters that are registered at that moment. Both are steps of their own, and any
number of waiters and runs interleave.
-/

namespace KelvinClaw.Core

open Systems Systems.TransitionSystem

variable {ω ρ : Type} [DecidableEq ω]

/-! ### Tasks and waiters -/

def minTimeoutMs : ℕ := 1

/-- How far the task of a run has come. -/
inductive TaskPhase where
  | unspawned
  | spawned
  | running
  | stored
  | notified
  deriving DecidableEq, Repr

inductive RunOutcome (ρ : Type) where
  | completed (result : ρ)
  | failed (error : String)
  | timeout
  deriving DecidableEq, Repr

/-- A call of `wait`, or of `wait_for_outcome`, which reads the result of the run after
its wait returned. -/
structure WaitCall where
  runId : String
  timeoutMs : ℕ
  forOutcome : Bool
  deriving DecidableEq, Repr

/-- How far a call has come. -/
inductive WaiterPhase (ρ : Type) where
  | idle
  | reading
  | observed (startedAtMs : ℕ)
  | sleeping (startedAtMs : ℕ)
  | returned (result : AgentWaitResult)
  | outcome (outcome : KelvinResult (RunOutcome ρ))
  | failed (error : KelvinError)
  deriving DecidableEq

/-- The call has read the status and not yet registered for the notification. -/
def WaiterPhase.isObserved : WaiterPhase ρ → Bool
  | .observed _ => true
  | .idle | .reading | .sleeping _ | .returned _ | .outcome _ | .failed _ => false

/-- The registry, the tasks, the waiters and the clock of the timers, with two history
variables: when the terminal status of each run was stored, and the deadline of the timer
that each waiter set last. -/
structure WaitState (ω ρ : Type) where
  registry : RunRegistry ρ
  task : String → TaskPhase
  waiter : ω → WaiterPhase ρ
  nowMs : ℕ
  storedAtMs : String → Option ℕ
  deadlineMs : ω → ℕ

inductive WaitEvent (ω ρ : Type) where
  | submit (runId : String) (startedAtMs : ℕ)
  | markRunning (runId : String)
  | store (runId : String) (result : KelvinResult ρ) (endedAtMs : ℕ)
  | notify (runId : String)
  | call (waiter : ω)
  | readStatus (waiter : ω)
  | register (waiter : ω)
  | expire (waiter : ω)
  | readResult (waiter : ω)
  | tick (elapsedMs : ℕ)

namespace WaitState

variable (calls : ω → WaitCall) (s : WaitState ω ρ) (runId : String) (waiter : ω)

def setTask (phase : TaskPhase) : WaitState ω ρ :=
  { s with task := Function.update s.task runId phase }

def setWaiter (phase : WaiterPhase ρ) : WaitState ω ρ :=
  { s with waiter := Function.update s.waiter waiter phase }

def submit (startedAtMs : ℕ) : Option (WaitState ω ρ) :=
  match s.registry.register runId startedAtMs with
  | .error _ => none
  | .ok registry => some { s.setTask runId .spawned with registry := registry }

def markRunning : Option (WaitState ω ρ) :=
  match s.registry.markRunning runId with
  | .error _ => none
  | .ok registry => some { s.setTask runId .running with registry := registry }

/-- The part of `mark_completed` or `mark_failed` under the lock. -/
def store (result : KelvinResult ρ) (endedAtMs : ℕ) : Option (WaitState ω ρ) :=
  let marked := match result with
    | .ok result => s.registry.markCompleted runId result endedAtMs
    | .error err => s.registry.markFailed runId err.toString endedAtMs
  match marked with
  | .error _ => none
  | .ok registry =>
    some { s.setTask runId .stored with
      registry := registry
      storedAtMs := Function.update s.storedAtMs runId (some s.nowMs) }

/-- `notify_waiters`: the waiters that are registered go back to reading the status. -/
def notify : WaitState ω ρ :=
  { s.setTask runId .notified with
    waiter := fun waiter =>
      match s.waiter waiter with
      | .sleeping startedAtMs =>
        if (calls waiter).runId = runId then .reading else .sleeping startedAtMs
      | phase => phase }

def call : WaitState ω ρ :=
  match s.registry.getRecord (calls waiter).runId with
  | .error err => s.setWaiter waiter (.failed err)
  | .ok _ => s.setWaiter waiter .reading

def readStatus : WaitState ω ρ :=
  match s.registry.getRecord (calls waiter).runId with
  | .error err => s.setWaiter waiter (.failed err)
  | .ok record =>
    match record.waitResult with
    | some result => s.setWaiter waiter (.returned result)
    | none => s.setWaiter waiter (.observed record.startedAtMs)

def register (startedAtMs : ℕ) : WaitState ω ρ :=
  let deadlineMs := s.nowMs + max (calls waiter).timeoutMs minTimeoutMs
  { s.setWaiter waiter (.sleeping startedAtMs) with
    deadlineMs := Function.update s.deadlineMs waiter deadlineMs }

/-- The rest of `wait_for_outcome` after its wait returned. -/
def readResult (result : AgentWaitResult) : WaitState ω ρ :=
  s.setWaiter waiter <| .outcome <|
    match result.status with
    | .timeout => .ok .timeout
    | .ok | .error =>
      (s.registry.result (calls waiter).runId).map fun stored =>
        match stored with
        | some (.completed run) => .completed run
        | some (.failed error) => .failed error
        | none => .timeout

end WaitState

def waiting (calls : ω → WaitCall) : TransitionSystem (WaitState ω ρ) (WaitEvent ω ρ) where
  init s := (∀ runId, s.registry runId = none ∧ s.task runId = .unspawned ∧
    s.storedAtMs runId = none) ∧ ∀ waiter, s.waiter waiter = .idle
  step s event :=
    match event with
    | .submit runId startedAtMs => s.submit runId startedAtMs
    | .markRunning runId =>
      if s.task runId = .spawned then s.markRunning runId else none
    | .store runId result endedAtMs =>
      if s.task runId = .running then s.store runId result endedAtMs else none
    | .notify runId => if s.task runId = .stored then some (s.notify calls runId) else none
    | .call waiter =>
      match s.waiter waiter with
      | .idle => some (s.call calls waiter)
      | _ => none
    | .readStatus waiter =>
      match s.waiter waiter with
      | .reading => some (s.readStatus calls waiter)
      | _ => none
    | .register waiter =>
      match s.waiter waiter with
      | .observed startedAtMs => some (s.register calls waiter startedAtMs)
      | _ => none
    | .expire waiter =>
      match s.waiter waiter with
      | .sleeping startedAtMs =>
        if s.deadlineMs waiter ≤ s.nowMs then
          some (s.setWaiter waiter (.returned (.timedOut startedAtMs)))
        else none
      | _ => none
    | .readResult waiter =>
      match s.waiter waiter with
      | .returned result =>
        if (calls waiter).forOutcome then some (s.readResult calls waiter result) else none
      | _ => none
    | .tick elapsedMs => some { s with nowMs := s.nowMs + elapsedMs }

/-! ### Reports -/

variable (calls : ω → WaitCall)

/-- The deadline of the waiter has passed, and the terminal status of its run was not
stored before. -/
def Overdue (s : WaitState ω ρ) (waiter : ω) : Prop :=
  s.deadlineMs waiter ≤ s.nowMs ∧
    ∀ storedMs ∈ s.storedAtMs (calls waiter).runId, s.deadlineMs waiter ≤ storedMs

def Recorded (s : WaitState ω ρ) (waiter : ω) (property : RunRecord ρ → Prop) : Prop :=
  ∃ record, s.registry (calls waiter).runId = some record ∧ property record

def Reports (s : WaitState ω ρ) (waiter : ω) : Prop :=
  match s.waiter waiter with
  | .returned result =>
    if result.status = .timeout then Overdue calls s waiter
    else Recorded calls s waiter fun record => record.waitResult = some result
  | .outcome (.ok .timeout) => Overdue calls s waiter
  | .outcome (.ok (.completed run)) =>
    Recorded calls s waiter fun record => record.storedResult = some (.completed run)
  | .outcome (.ok (.failed error)) =>
    Recorded calls s waiter fun record => record.storedResult = some (.failed error)
  | .outcome (.error _) => False
  | .idle | .reading | .observed _ | .sleeping _ | .failed _ => True

/-- The calls that fail between two states had ids of which no run was registered. -/
def FailsUnknown (s t : WaitState ω ρ) : Prop :=
  ∀ waiter err, t.waiter waiter = .failed err → s.waiter waiter = .failed err ∨
    s.registry (calls waiter).runId = none ∧
      err = .notFound s!"unknown run id: {(calls waiter).runId}"

/-- Every answer is right, no call fails whose run is registered, and a waiter whose run has
notified is not about to sleep: its next step reads the terminal status. -/
structure ReportsOutcomes (s : WaitState ω ρ) : Prop where
  reports : ∀ waiter, Reports calls s waiter
  fails : ∀ event t, (waiting calls).step s event = some t → FailsUnknown calls s t
  awake : ∀ waiter startedAtMs, s.task (calls waiter).runId = .notified →
    s.waiter waiter ≠ .observed startedAtMs ∧ s.waiter waiter ≠ .sleeping startedAtMs

/-- No run notifies while one of its waiters has read the status and not yet registered,
and no timer ends while a status stored before its deadline is not notified yet. -/
def Attended (s : WaitState ω ρ) : WaitEvent ω ρ → Prop
  | .notify runId =>
    ∀ waiter, (calls waiter).runId = runId → ¬ (s.waiter waiter).isObserved
  | .expire waiter =>
    s.task (calls waiter).runId = .stored →
      ∀ storedMs ∈ s.storedAtMs (calls waiter).runId, s.deadlineMs waiter ≤ storedMs
  | _ => True

/-! ### Invariants -/

def TaskAgrees (s : WaitState ω ρ) (runId : String) : Prop :=
  match s.task runId with
  | .unspawned => s.registry runId = none ∧ s.storedAtMs runId = none
  | .spawned | .running =>
    (∃ record, s.registry runId = some record ∧ record.waitResult = none) ∧
      s.storedAtMs runId = none
  | .stored | .notified => ∃ record, s.registry runId = some record ∧ record.waitResult ≠ none

def WaiterAgrees (s : WaitState ω ρ) (waiter : ω) : Prop :=
  match s.waiter waiter with
  | .idle | .failed _ => True
  | .reading => Recorded calls s waiter fun _ => True
  | .observed _ | .sleeping _ =>
    (Recorded calls s waiter fun _ => True) ∧ s.task (calls waiter).runId ≠ .notified
  | .returned _ | .outcome _ => Reports calls s waiter

/-- The invariant of attended runs. -/
structure Consistent (s : WaitState ω ρ) : Prop where
  tasks : ∀ runId, TaskAgrees s runId
  waiters : ∀ waiter, WaiterAgrees calls s waiter

/-- What every step leaves of a run: terminal records stay, and no terminal status is
stored in the past. -/
structure Extends (s t : WaitState ω ρ) : Prop where
  kept : ∀ runId record, s.registry runId = some record →
    ∃ later, t.registry runId = some later ∧ (record.waitResult ≠ none → later = record)
  stored : ∀ runId, ∀ storedMs ∈ t.storedAtMs runId,
    storedMs ∈ s.storedAtMs runId ∨ s.nowMs ≤ storedMs
  clock : s.nowMs ≤ t.nowMs

section Invariant

variable {calls} {s t : WaitState ω ρ} {runId : String} {waiter : ω}

omit [DecidableEq ω] in
theorem Overdue.extends (overdue : Overdue calls s waiter) (later : Extends s t)
    (deadline : t.deadlineMs waiter = s.deadlineMs waiter) : Overdue calls t waiter := by
  obtain ⟨passed, unstored⟩ := overdue
  constructor
  · rw [deadline]
    exact passed.trans later.clock
  · intro storedMs stored
    rw [deadline]
    obtain before | new := later.stored _ storedMs stored
    · exact unstored storedMs before
    · exact passed.trans new

omit [DecidableEq ω] in
theorem Recorded.extends {property : RunRecord ρ → Prop}
    (recorded : Recorded calls s waiter property) (later : Extends s t)
    (terminal : ∀ record, property record → record.waitResult ≠ none) :
    Recorded calls t waiter property := by
  obtain ⟨record, found, holds⟩ := recorded
  obtain ⟨kept, foundLater, same⟩ := later.kept _ record found
  obtain rfl := same (terminal record holds)
  exact ⟨kept, foundLater, holds⟩

omit [DecidableEq ω] in
theorem Recorded.exists_extends (recorded : Recorded calls s waiter fun _ => True)
    (later : Extends s t) : Recorded calls t waiter fun _ => True := by
  obtain ⟨record, found, _⟩ := recorded
  obtain ⟨kept, foundLater, _⟩ := later.kept _ record found
  exact ⟨kept, foundLater, trivial⟩

omit [DecidableEq ω] in
theorem Reports.extends (reports : Reports calls s waiter) (later : Extends s t)
    (phase : t.waiter waiter = s.waiter waiter)
    (deadline : t.deadlineMs waiter = s.deadlineMs waiter) : Reports calls t waiter := by
  have stored {result : StoredRunResult ρ} (record : RunRecord ρ)
      (found : record.storedResult = some result) : record.waitResult ≠ none := by
    rw [Ne, ← RunRecord.storedResult_eq_none, found]
    exact Option.some_ne_none result
  unfold Reports at reports ⊢
  rw [phase]
  cases at_ : s.waiter waiter with
  | returned result =>
    rw [at_] at reports
    simp only at reports ⊢
    split_ifs at reports ⊢ with timedOut
    · exact reports.extends later deadline
    · refine reports.extends later ?_
      intro record found
      rw [found]
      exact Option.some_ne_none result
  | outcome answer =>
    rw [at_] at reports
    cases answer with
    | error err => exact reports
    | ok answer =>
      cases answer with
      | timeout => exact Overdue.extends reports later deadline
      | completed run => exact Recorded.extends reports later stored
      | failed error => exact Recorded.extends reports later stored
  | idle | reading | observed _ | sleeping _ | failed _ => trivial

omit [DecidableEq ω] in
/-- A waiter that does not move stays consistent, unless it is about to sleep and its run
notifies. -/
theorem WaiterAgrees.extends (agrees : WaiterAgrees calls s waiter) (later : Extends s t)
    (phase : t.waiter waiter = s.waiter waiter)
    (deadline : t.deadlineMs waiter = s.deadlineMs waiter)
    (silent : t.task (calls waiter).runId = .notified → s.task (calls waiter).runId = .notified ∨
      ∀ startedAtMs, s.waiter waiter ≠ .observed startedAtMs ∧
        s.waiter waiter ≠ .sleeping startedAtMs) :
    WaiterAgrees calls t waiter := by
  unfold WaiterAgrees at agrees ⊢
  rw [phase]
  cases at_ : s.waiter waiter with
  | idle | failed _ => trivial
  | reading =>
    rw [at_] at agrees
    exact agrees.exists_extends later
  | observed startedAtMs | sleeping startedAtMs =>
    rw [at_] at agrees
    refine ⟨agrees.1.exists_extends later, ?_⟩
    intro notified
    obtain before | elsewhere := silent notified
    · exact agrees.2 before
    · have := elsewhere startedAtMs
      simp_all
  | returned _ | outcome _ =>
    rw [at_] at agrees
    exact agrees.extends later phase deadline

/-! ### Steps of a task -/

def WaitState.advance (s : WaitState ω ρ) (runId : String) (phase : TaskPhase)
    (record : RunRecord ρ) (storedMs : Option ℕ) : WaitState ω ρ :=
  { s.setTask runId phase with
    registry := Function.update s.registry runId (some record)
    storedAtMs := Function.update s.storedAtMs runId storedMs }

omit [DecidableEq ω] in
theorem WaitState.eq_advance_of_submit {startedAtMs : ℕ}
    (moves : s.submit runId startedAtMs = some t) :
    s.registry runId = none ∧
      t = s.advance runId .spawned ⟨runId, startedAtMs, none, .accepted⟩ (s.storedAtMs runId) := by
  unfold WaitState.submit RunRegistry.register at moves
  cases found : s.registry runId with
  | some record => simp [found] at moves
  | none =>
    simp only [found, Option.isSome_none, Bool.false_eq_true, if_false, Option.some_inj] at moves
    refine ⟨rfl, ?_⟩
    rw [← moves, WaitState.advance, Function.update_eq_self]
    rfl

omit [DecidableEq ω] in
theorem WaitState.eq_advance_of_markRunning (moves : s.markRunning runId = some t) :
    ∃ record, s.registry runId = some record ∧
      t = s.advance runId .running { record with status := .running } (s.storedAtMs runId) := by
  unfold WaitState.markRunning RunRegistry.markRunning RunRegistry.modify
    RunRegistry.getRecord at moves
  cases found : s.registry runId with
  | none => simp [found, Except.map] at moves
  | some record =>
    simp only [found, Except.map, Option.some_inj] at moves
    refine ⟨record, rfl, ?_⟩
    rw [← moves, WaitState.advance, Function.update_eq_self]
    rfl

def RunStatus.ofResult : KelvinResult ρ → RunStatus ρ
  | .ok result => .completed result
  | .error err => .failed err.toString

omit [DecidableEq ω] in
theorem WaitState.eq_advance_of_store {result : KelvinResult ρ} {endedAtMs : ℕ}
    (moves : s.store runId result endedAtMs = some t) :
    ∃ record, s.registry runId = some record ∧
      t = s.advance runId .stored
        { record with endedAtMs := some endedAtMs, status := .ofResult result } (some s.nowMs) := by
  cases found : s.registry runId with
  | none =>
    cases result <;> simp [WaitState.store, RunRegistry.markCompleted, RunRegistry.markFailed,
      RunRegistry.modify, RunRegistry.getRecord, found, Except.map] at moves
  | some record =>
    refine ⟨record, rfl, ?_⟩
    cases result with
    | ok run =>
      simp only [WaitState.store, RunRegistry.markCompleted, RunRegistry.modify,
        RunRegistry.getRecord, found, Except.map, Option.some_inj] at moves
      exact moves.symm
    | error err =>
      simp only [WaitState.store, RunRegistry.markFailed, RunRegistry.modify,
        RunRegistry.getRecord, found, Except.map, Option.some_inj] at moves
      exact moves.symm

/-- What each event does, and when. -/
inductive WaitMoves (calls : ω → WaitCall) (s : WaitState ω ρ) :
    WaitEvent ω ρ → WaitState ω ρ → Prop
  | submit {runId : String} {startedAtMs : ℕ} (unknown : s.registry runId = none) :
    WaitMoves calls s (.submit runId startedAtMs)
      (s.advance runId .spawned ⟨runId, startedAtMs, none, .accepted⟩ (s.storedAtMs runId))
  | markRunning {runId : String} {record : RunRecord ρ}
      (spawned : s.task runId = .spawned) (found : s.registry runId = some record) :
    WaitMoves calls s (.markRunning runId)
      (s.advance runId .running { record with status := .running } (s.storedAtMs runId))
  | store {runId : String} {record : RunRecord ρ} {result : KelvinResult ρ} {endedAtMs : ℕ}
      (running : s.task runId = .running) (found : s.registry runId = some record) :
    WaitMoves calls s (.store runId result endedAtMs)
      (s.advance runId .stored
        { record with endedAtMs := some endedAtMs, status := .ofResult result } (some s.nowMs))
  | notify {runId : String} (stored : s.task runId = .stored) :
    WaitMoves calls s (.notify runId) (s.notify calls runId)
  | call {waiter : ω} (idle : s.waiter waiter = .idle) :
    WaitMoves calls s (.call waiter) (s.call calls waiter)
  | readStatus {waiter : ω} (reads : s.waiter waiter = .reading) :
    WaitMoves calls s (.readStatus waiter) (s.readStatus calls waiter)
  | register {waiter : ω} {startedAtMs : ℕ} (observed : s.waiter waiter = .observed startedAtMs) :
    WaitMoves calls s (.register waiter) (s.register calls waiter startedAtMs)
  | expire {waiter : ω} {startedAtMs : ℕ} (sleeps : s.waiter waiter = .sleeping startedAtMs)
      (passed : s.deadlineMs waiter ≤ s.nowMs) :
    WaitMoves calls s (.expire waiter) (s.setWaiter waiter (.returned (.timedOut startedAtMs)))
  | readResult {waiter : ω} {result : AgentWaitResult}
      (returned : s.waiter waiter = .returned result) :
    WaitMoves calls s (.readResult waiter) (s.readResult calls waiter result)
  | tick {elapsedMs : ℕ} :
    WaitMoves calls s (.tick elapsedMs) { s with nowMs := s.nowMs + elapsedMs }

theorem waitMoves_of_step {event : WaitEvent ω ρ}
    (moves : (waiting calls).step s event = some t) : WaitMoves calls s event t := by
  -- what a step has found is what its move records
  cases event with
  | submit runId startedAtMs =>
    obtain ⟨unknown, rfl⟩ := WaitState.eq_advance_of_submit moves
    exact .submit unknown
  | markRunning runId =>
    simp only [waiting, Option.ite_none_right_eq_some] at moves
    obtain ⟨spawned, moves⟩ := moves
    obtain ⟨record, found, rfl⟩ := WaitState.eq_advance_of_markRunning moves
    exact .markRunning spawned found
  | store runId result endedAtMs =>
    simp only [waiting, Option.ite_none_right_eq_some] at moves
    obtain ⟨running, moves⟩ := moves
    obtain ⟨record, found, rfl⟩ := WaitState.eq_advance_of_store moves
    exact .store running found
  | notify runId =>
    simp only [waiting, Option.ite_none_right_eq_some, Option.some_inj] at moves
    obtain ⟨stored, rfl⟩ := moves
    exact .notify stored
  | tick elapsedMs =>
    obtain rfl := Option.some_inj.mp moves
    exact .tick
  | call waiter =>
    simp only [waiting] at moves
    split at moves
    · next idle =>
      obtain rfl := Option.some_inj.mp moves
      exact .call idle
    · cases moves
  | readStatus waiter =>
    simp only [waiting] at moves
    split at moves
    · next reads =>
      obtain rfl := Option.some_inj.mp moves
      exact .readStatus reads
    · cases moves
  | register waiter =>
    simp only [waiting] at moves
    split at moves
    · next observed =>
      obtain rfl := Option.some_inj.mp moves
      exact .register observed
    · cases moves
  | expire waiter =>
    simp only [waiting] at moves
    split at moves
    · next sleeps =>
      simp only [Option.ite_none_right_eq_some, Option.some_inj] at moves
      obtain ⟨passed, rfl⟩ := moves
      exact .expire sleeps passed
    · cases moves
  | readResult waiter =>
    simp only [waiting] at moves
    split at moves
    · next returned =>
      simp only [Option.ite_none_right_eq_some, Option.some_inj] at moves
      obtain ⟨_, rfl⟩ := moves
      exact .readResult returned
    · cases moves

omit [DecidableEq ω] in
/-- A step of a task on a record that is not terminal keeps the invariant, when it does not
notify and leaves the record as far as the task. -/
theorem Consistent.advance (consistent : Consistent calls s) {phase : TaskPhase}
    {record : RunRecord ρ} {storedMs : Option ℕ}
    (open_ : ∀ before, s.registry runId = some before → before.waitResult = none)
    (stored : ∀ ms ∈ storedMs, ms ∈ s.storedAtMs runId ∨ s.nowMs ≤ ms)
    (silent : phase ≠ .notified)
    (agrees : TaskAgrees (s.advance runId phase record storedMs) runId) :
    Consistent calls (s.advance runId phase record storedMs) := by
  have later : Extends s (s.advance runId phase record storedMs) := by
    refine ⟨?_, ?_, le_refl _⟩
    · intro other before found
      by_cases same : other = runId
      · subst same
        refine ⟨record, Function.update_self .., fun terminal => ?_⟩
        exact absurd (open_ before found) terminal
      · exact ⟨before, (Function.update_of_ne same ..).trans found, fun _ => rfl⟩
    · intro other ms member
      by_cases same : other = runId
      · subst same
        exact stored ms (by simpa [WaitState.advance] using member)
      · left
        simpa [WaitState.advance, same] using member
  constructor
  · intro other
    by_cases same : other = runId
    · rwa [same]
    · have before := consistent.tasks other
      simpa only [TaskAgrees, WaitState.advance, WaitState.setTask,
        Function.update_of_ne same] using before
  · intro waiter
    refine (consistent.waiters waiter).extends later rfl rfl ?_
    intro notified
    by_cases same : (calls waiter).runId = runId
    · rw [same] at notified
      exact absurd ((Function.update_self ..).symm.trans notified) silent
    · exact .inl ((Function.update_of_ne same ..).symm.trans notified)

omit [DecidableEq ω] in
theorem Consistent.notify (consistent : Consistent calls s) (stored : s.task runId = .stored)
    (meets : Attended calls s (.notify runId)) : Consistent calls (s.notify calls runId) := by
  have later : Extends s (s.notify calls runId) := by
    refine ⟨?_, ?_, le_refl _⟩
    · exact fun _ record found => ⟨record, found, fun _ => rfl⟩
    · exact fun _ _ before => .inl before
  constructor
  · intro other
    have before := consistent.tasks other
    by_cases same : other = runId
    · subst same
      unfold TaskAgrees at before ⊢
      rw [stored] at before
      simpa [WaitState.notify, WaitState.setTask] using before
    · simpa only [TaskAgrees, WaitState.notify, WaitState.setTask,
        Function.update_of_ne same] using before
  · intro waiter
    have agrees := consistent.waiters waiter
    by_cases sleeps : ∃ startedAtMs, s.waiter waiter = .sleeping startedAtMs ∧
        (calls waiter).runId = runId
    · -- a sleeper of this run wakes up and reads the status again
      obtain ⟨startedAtMs, phase, ours⟩ := sleeps
      rw [WaiterAgrees, phase] at agrees
      have awake : (s.notify calls runId).waiter waiter = .reading := by
        simp [WaitState.notify, phase, ours]
      rw [WaiterAgrees, awake]
      exact agrees.1.exists_extends later
    · have still : (s.notify calls runId).waiter waiter = s.waiter waiter := by
        simp only [WaitState.notify]
        split
        · next startedAtMs phase =>
          rw [if_neg fun ours => sleeps ⟨startedAtMs, phase, ours⟩, phase]
        · rfl
      refine agrees.extends later still rfl ?_
      intro notified
      by_cases ours : (calls waiter).runId = runId
      · right
        intro startedAtMs
        refine ⟨?_, fun phase => sleeps ⟨startedAtMs, phase, ours⟩⟩
        intro observed
        apply meets waiter ours
        rw [observed]
        rfl
      · left
        exact (Function.update_of_ne ours ..).symm.trans notified

/-! ### Failures -/

theorem failsUnknown_setWaiter {phase : WaiterPhase ρ} {deadlineMs : ω → ℕ}
    (right : ∀ err, phase = .failed err → s.registry (calls waiter).runId = none ∧
      err = .notFound s!"unknown run id: {(calls waiter).runId}") :
    FailsUnknown calls s { s.setWaiter waiter phase with deadlineMs } := by
  intro other err failed
  by_cases same : other = waiter
  · subst same
    exact .inr (right err (by simpa [WaitState.setWaiter] using failed))
  · exact .inl ((Function.update_of_ne same ..).symm.trans failed)

/-- **Failed calls.** A call fails only in a state that has no run of its id. -/
theorem failsUnknown_step {event : WaitEvent ω ρ} (moves : (waiting calls).step s event = some t) :
    FailsUnknown calls s t := by
  cases waitMoves_of_step moves with
  | submit | markRunning | store | tick => exact fun _ _ failed => .inl failed
  | notify stored =>
    intro waiter err failed
    left
    simp only [WaitState.notify] at failed
    split at failed
    · split_ifs at failed
    · exact failed
  | call idle =>
    unfold WaitState.call RunRegistry.getRecord
    cases found : s.registry _ with
    | none =>
      exact failsUnknown_setWaiter fun _ same => ⟨found, (WaiterPhase.failed.inj same).symm⟩
    | some record => exact failsUnknown_setWaiter fun err same => by cases same
  | @readStatus waiter reads =>
    unfold WaitState.readStatus RunRegistry.getRecord
    cases found : s.registry (calls waiter).runId with
    | none =>
      exact failsUnknown_setWaiter fun _ same => ⟨found, (WaiterPhase.failed.inj same).symm⟩
    | some record =>
      cases ended : record.waitResult with
      | none | some result =>
        simp only [ended]
        exact failsUnknown_setWaiter fun err same => by cases same
  | register observed => exact failsUnknown_setWaiter fun err same => by cases same
  | expire sleeps passed => exact failsUnknown_setWaiter fun err same => by cases same
  | readResult returned => exact failsUnknown_setWaiter fun err same => by cases same

theorem Consistent.reportsOutcomes (consistent : Consistent calls s) :
    ReportsOutcomes calls s := by
  constructor
  · intro waiter
    have agrees := consistent.waiters waiter
    unfold WaiterAgrees at agrees
    unfold Reports at agrees ⊢
    split at agrees <;> simp_all
  · exact fun _ _ moves => failsUnknown_step moves
  · intro waiter startedAtMs notified
    have agrees := consistent.waiters waiter
    constructor
    · intro phase
      rw [WaiterAgrees, phase] at agrees
      exact agrees.2 notified
    · intro phase
      rw [WaiterAgrees, phase] at agrees
      exact agrees.2 notified

/-! ### Steps of a waiter -/

theorem Consistent.move (consistent : Consistent calls s) {phase : WaiterPhase ρ}
    {deadlineMs : ω → ℕ} (others : ∀ other, other ≠ waiter → deadlineMs other = s.deadlineMs other)
    (agrees : WaiterAgrees calls { s.setWaiter waiter phase with deadlineMs } waiter) :
    Consistent calls { s.setWaiter waiter phase with deadlineMs } := by
  refine ⟨consistent.tasks, ?_⟩
  intro other
  by_cases same : other = waiter
  · rwa [same]
  · refine (consistent.waiters other).extends ⟨?_, ?_, le_refl _⟩ (Function.update_of_ne same ..)
      (others other same) .inl
    · exact fun _ record found => ⟨record, found, fun _ => rfl⟩
    · exact fun _ _ before => .inl before

omit [DecidableEq ω] in
theorem Consistent.not_notified (consistent : Consistent calls s) {record : RunRecord ρ}
    (found : s.registry runId = some record) (open_ : record.waitResult = none) :
    s.task runId ≠ .notified := by
  intro notified
  have agrees := consistent.tasks runId
  rw [TaskAgrees, notified] at agrees
  obtain ⟨terminal, foundToo, ended⟩ := agrees
  obtain rfl := Option.some_inj.mp (found.symm.trans foundToo)
  exact ended open_

theorem Consistent.call (consistent : Consistent calls s) :
    Consistent calls (s.call calls waiter) := by
  unfold WaitState.call RunRegistry.getRecord
  cases found : s.registry (calls waiter).runId with
  | none => exact consistent.move (fun _ _ => rfl) (by simp [WaiterAgrees, WaitState.setWaiter])
  | some record =>
    refine consistent.move (fun _ _ => rfl) ?_
    simpa [WaiterAgrees, WaitState.setWaiter] using ⟨record, found, trivial⟩

theorem Consistent.readStatus (consistent : Consistent calls s)
    (reads : s.waiter waiter = .reading) : Consistent calls (s.readStatus calls waiter) := by
  have agrees := consistent.waiters waiter
  rw [WaiterAgrees, reads] at agrees
  obtain ⟨record, found, _⟩ := agrees
  unfold WaitState.readStatus RunRegistry.getRecord
  simp only [found]
  cases ended : record.waitResult with
  | some result =>
    -- the run has terminated, and its stored result is returned
    simp only
    refine consistent.move (fun _ _ => rfl) ?_
    simpa [WaiterAgrees, Reports, WaitState.setWaiter,
      RunRecord.status_of_waitResult ended] using ⟨record, found, ended⟩
  | none =>
    -- the run has not terminated, so it has not notified either
    simp only
    refine consistent.move (fun _ _ => rfl) ?_
    simpa [WaiterAgrees, WaitState.setWaiter] using
      ⟨⟨record, found, trivial⟩, consistent.not_notified found ended⟩

theorem Consistent.register {startedAtMs : ℕ} (consistent : Consistent calls s)
    (observed : s.waiter waiter = .observed startedAtMs) :
    Consistent calls (s.register calls waiter startedAtMs) := by
  have agrees := consistent.waiters waiter
  rw [WaiterAgrees, observed] at agrees
  refine consistent.move (fun other distinct => Function.update_of_ne distinct ..) ?_
  simp only [WaiterAgrees, WaitState.setWaiter, Function.update_self]
  exact agrees

theorem Consistent.expire {startedAtMs : ℕ} (consistent : Consistent calls s)
    (sleeps : s.waiter waiter = .sleeping startedAtMs) (passed : s.deadlineMs waiter ≤ s.nowMs)
    (meets : Attended calls s (.expire waiter)) :
    Consistent calls (s.setWaiter waiter (.returned (.timedOut startedAtMs))) := by
  have overdue : Overdue calls s waiter := by
    refine ⟨passed, ?_⟩
    have awake := consistent.waiters waiter
    have agrees := consistent.tasks (calls waiter).runId
    rw [WaiterAgrees, sleeps] at awake
    unfold TaskAgrees at agrees
    cases task : s.task (calls waiter).runId with
    | unspawned | spawned | running =>
      rw [task] at agrees
      simp [agrees.2]
    | stored => exact meets task
    | notified => exact absurd task awake.2
  refine consistent.move (fun _ _ => rfl) ?_
  simp only [WaiterAgrees, Reports, WaitState.setWaiter, AgentWaitResult.timedOut,
    Function.update_self, if_true]
  exact overdue

theorem exists_result_of_waitResult {registry : RunRegistry ρ} {runId : String}
    {record : RunRecord ρ} {result : AgentWaitResult} (found : registry runId = some record)
    (ended : record.waitResult = some result) :
    ∃ outcome, record.storedResult = some outcome ∧ registry.result runId = .ok (some outcome) := by
  cases stored : record.storedResult with
  | none =>
    rw [RunRecord.storedResult_eq_none, ended] at stored
    cases stored
  | some outcome =>
    refine ⟨outcome, rfl, ?_⟩
    rw [RunRegistry.result, RunRegistry.getRecord, found, ← stored]
    rfl

theorem Consistent.readResult {result : AgentWaitResult} (consistent : Consistent calls s)
    (returned : s.waiter waiter = .returned result) :
    Consistent calls (s.readResult calls waiter result) := by
  have reports := consistent.waiters waiter
  rw [WaiterAgrees, returned] at reports
  simp only [Reports, returned] at reports
  refine consistent.move (fun _ _ => rfl) ?_
  simp only [WaiterAgrees, Reports, WaitState.setWaiter, Function.update_self]
  by_cases timedOut : result.status = .timeout
  · rw [if_pos timedOut] at reports
    simp only [timedOut]
    exact reports
  · rw [if_neg timedOut] at reports
    obtain ⟨record, found, ended⟩ := reports
    -- the record is still the terminal one that the wait returned
    obtain ⟨outcome, stored, reads⟩ := exists_result_of_waitResult found ended
    cases status : result.status with
    | timeout => exact absurd status timedOut
    | ok | error =>
      rw [reads]
      cases outcome <;> exact ⟨record, found, stored⟩

omit [DecidableEq ω] in
theorem Consistent.tick (consistent : Consistent calls s) (elapsedMs : ℕ) :
    Consistent calls { s with nowMs := s.nowMs + elapsedMs } := by
  refine ⟨consistent.tasks, ?_⟩
  intro waiter
  refine (consistent.waiters waiter).extends ⟨?_, ?_, Nat.le_add_right ..⟩ rfl rfl .inl
  · exact fun _ record found => ⟨record, found, fun _ => rfl⟩
  · exact fun _ _ before => .inl before

/-! ### Runs -/

omit [DecidableEq ω] in
theorem Consistent.submit (consistent : Consistent calls s) {startedAtMs : ℕ}
    (unknown : s.registry runId = none) :
    Consistent calls
      (s.advance runId .spawned ⟨runId, startedAtMs, none, .accepted⟩ (s.storedAtMs runId)) := by
  have agrees := consistent.tasks runId
  have unstored : s.storedAtMs runId = none := by
    unfold TaskAgrees at agrees
    split at agrees <;> simp_all
  apply consistent.advance
  · exact fun before found => absurd (unknown.symm.trans found) (by simp)
  · exact fun ms member => .inl member
  · exact nofun
  · simp [TaskAgrees, WaitState.advance, WaitState.setTask, RunRecord.waitResult, unstored]

omit [DecidableEq ω] in
theorem Consistent.unfinished (consistent : Consistent calls s)
    (begun : s.task runId = .spawned ∨ s.task runId = .running) {record : RunRecord ρ}
    (found : s.registry runId = some record) :
    record.waitResult = none ∧ s.storedAtMs runId = none := by
  have agrees := consistent.tasks runId
  obtain phase | phase := begun <;>
  · rw [TaskAgrees, phase] at agrees
    obtain ⟨⟨recordToo, foundToo, isOpen⟩, unstored⟩ := agrees
    obtain rfl := Option.some_inj.mp (found.symm.trans foundToo)
    exact ⟨isOpen, unstored⟩

omit [DecidableEq ω] in
theorem Consistent.markRunning (consistent : Consistent calls s) {record : RunRecord ρ}
    (spawned : s.task runId = .spawned) (found : s.registry runId = some record) :
    Consistent calls
      (s.advance runId .running { record with status := .running } (s.storedAtMs runId)) := by
  obtain ⟨isOpen, unstored⟩ := consistent.unfinished (.inl spawned) found
  apply consistent.advance
  · intro before foundToo
    obtain rfl := Option.some_inj.mp (found.symm.trans foundToo)
    exact isOpen
  · exact fun ms member => .inl member
  · exact nofun
  · simp [TaskAgrees, WaitState.advance, WaitState.setTask, RunRecord.waitResult, unstored]

omit [DecidableEq ω] in
theorem Consistent.store (consistent : Consistent calls s) {record : RunRecord ρ}
    {result : KelvinResult ρ} {endedAtMs : ℕ} (running : s.task runId = .running)
    (found : s.registry runId = some record) :
    Consistent calls (s.advance runId .stored
      { record with endedAtMs := some endedAtMs, status := .ofResult result } (some s.nowMs)) := by
  obtain ⟨isOpen, -⟩ := consistent.unfinished (.inr running) found
  have terminal : RunRecord.waitResult
      { record with endedAtMs := some endedAtMs, status := .ofResult result } ≠ none := by
    cases result <;> simp [RunRecord.waitResult, RunStatus.ofResult]
  apply consistent.advance
  · intro before foundToo
    obtain rfl := Option.some_inj.mp (found.symm.trans foundToo)
    exact isOpen
  · intro ms member
    obtain rfl := Option.some_inj.mp member
    exact .inr (le_refl _)
  · exact nofun
  · simpa [TaskAgrees, WaitState.advance, WaitState.setTask] using terminal

theorem consistent_step {event : WaitEvent ω ρ} (consistent : Consistent calls s)
    (meets : Attended calls s event) (moves : (waiting calls).step s event = some t) :
    Consistent calls t := by
  cases waitMoves_of_step moves with
  | submit unknown => exact consistent.submit unknown
  | markRunning spawned found => exact consistent.markRunning spawned found
  | store running found => exact consistent.store running found
  | notify stored => exact consistent.notify stored meets
  | call _ => exact consistent.call
  | readStatus reads => exact consistent.readStatus reads
  | register observed => exact consistent.register observed
  | expire sleeps passed => exact consistent.expire sleeps passed meets
  | readResult returned => exact consistent.readResult returned
  | tick => exact consistent.tick _

theorem consistent_of_attended (reached : (waiting calls).ReachableWhen (Attended calls) s) :
    Consistent calls s := by
  refine reached.invariant (Consistent calls) ?_ ?_
  · intro s ⟨runs, waiters⟩
    constructor
    · intro runId
      obtain ⟨unregistered, unspawned, unstored⟩ := runs runId
      rw [TaskAgrees, unspawned]
      exact ⟨unregistered, unstored⟩
    · intro waiter
      rw [WaiterAgrees, waiters waiter]
      trivial
  · intro s event t consistent meets moves
    exact consistent_step consistent meets moves

/-- **Finished runs are reported.** In attended runs a wait times out only when the run did
not terminate before its deadline, fails only when no run has its id, and returns what the run
stored otherwise; after the notification of a run none of its waiters sleeps or is about to. -/
theorem reportsOutcomes_of_attended (calls : ω → WaitCall) (s : WaitState ω ρ)
    (reached : (waiting calls).ReachableWhen (Attended calls) s) : ReportsOutcomes calls s :=
  (consistent_of_attended reached).reportsOutcomes

end Invariant

/-! ### A status that is stored between look and registration -/

instance {n : ℕ} (calls : Fin n → WaitCall) (s : WaitState (Fin n) ρ) :
    ∀ event, Decidable (Attended calls s event)
  | .notify runId => inferInstanceAs
      (Decidable (∀ waiter, (calls waiter).runId = runId → ¬ (s.waiter waiter).isObserved))
  | .expire waiter => inferInstanceAs
      (Decidable (s.task (calls waiter).runId = .stored →
        ∀ storedMs ∈ s.storedAtMs (calls waiter).runId, s.deadlineMs waiter ≤ storedMs))
  | .submit .. | .markRunning _ | .store .. | .call _ | .readStatus _ | .register _
  | .readResult _ | .tick _ => inferInstanceAs (Decidable True)

def patientCall (_waiter : Fin 1) : WaitCall := ⟨"run-1", 30000, true⟩

def noRuns : WaitState (Fin 1) String :=
  ⟨fun _ => none, fun _ => .unspawned, fun _ => .idle, 0, fun _ => none, fun _ => 0⟩

theorem noRuns_starts : (waiting patientCall).init noRuns :=
  ⟨fun _ => ⟨rfl, rfl, rfl⟩, fun _ => rfl⟩

def attendedRun : List (WaitEvent (Fin 1) String) :=
  [.submit "run-1" 1000, .markRunning "run-1", .call 0, .readStatus 0, .register 0,
    .tick 500, .store "run-1" (.ok "done") 1500, .notify "run-1", .readStatus 0, .readResult 0]

def missedRun : List (WaitEvent (Fin 1) String) :=
  [.submit "run-1" 1000, .markRunning "run-1", .call 0, .readStatus 0,
    .store "run-1" (.ok "done") 1500, .notify "run-1", .register 0, .tick 30000, .expire 0]

theorem attendedRun_reports : ∃ s : WaitState (Fin 1) String,
    s.waiter 0 = .outcome (.ok (.completed "done")) ∧ ReportsOutcomes patientCall s := by
  have ran : ((waiting patientCall).run? (Attended patientCall) noRuns attendedRun).map
      (fun s => s.waiter 0) = some (.outcome (.ok (.completed "done"))) := by
    decide +kernel
  obtain ⟨s, reached, answer⟩ := exists_of_run? (.init noRuns_starts) ran
  exact ⟨s, answer, reportsOutcomes_of_attended patientCall s reached⟩

/-- The run terminated thirty seconds before the deadline, and the wait returns a timeout. -/
theorem finished_run_times_out :
    ¬ ∀ s : WaitState (Fin 1) String, (waiting patientCall).Reachable s →
      ∀ waiter, Reports patientCall s waiter := by
  intro reports
  have ran : ((waiting patientCall).run? (fun _ _ => True) noRuns missedRun).map
      (fun s => (s.waiter 0, s.deadlineMs 0, s.storedAtMs "run-1")) =
        some (.returned (.timedOut 1000), 30000, some 0) := by
    decide +kernel
  obtain ⟨s, reached, seen⟩ := exists_of_run? (.init noRuns_starts) ran
  obtain ⟨answer, deadline, stored⟩ : s.waiter 0 = .returned (.timedOut 1000) ∧
      s.deadlineMs 0 = 30000 ∧ s.storedAtMs "run-1" = some 0 := by
    simpa using seen
  have right := reports s reached 0
  rw [Reports, answer] at right
  have late := right.2 0 stored
  rw [deadline] at late
  omega

end KelvinClaw.Core
