import KelvinClaw.Core.RunWait

/-!
# The phases of a run

Whatever the waiters do and whatever notifications they miss, the record of a run moves with
its task: it is registered as accepted, marked running, and stored as completed or failed with
the time of its end. A terminal record does not change, and every answer that reports a result
reports the one in the record.
-/

namespace KelvinClaw.Core

open Systems Systems.TransitionSystem

variable {ω ρ : Type}

/-! ### Records and tasks -/

def RunStatus.phase : RunStatus ρ → RunPhase
  | .accepted => .accepted
  | .running => .running
  | .completed _ => .completed
  | .failed _ => .failed

def RunPhase.Terminal (phase : RunPhase) : Prop := phase = .completed ∨ phase = .failed

instance (phase : RunPhase) : Decidable phase.Terminal := by
  unfold RunPhase.Terminal
  infer_instance

/-- A record keeps its run id and has an end exactly in the terminal phases. -/
structure RunRecord.WellFormed (record : RunRecord ρ) (runId : String) : Prop where
  runId_eq : record.runId = runId
  ended_iff : record.endedAtMs.isSome ↔ record.status.phase.Terminal

def RecordAgrees (task : TaskPhase) (record : Option (RunRecord ρ)) (runId : String) : Prop :=
  match task with
  | .unspawned => record = none
  | .spawned => ∃ startedAtMs, record = some ⟨runId, startedAtMs, none, .accepted⟩
  | .running => ∃ startedAtMs, record = some ⟨runId, startedAtMs, none, .running⟩
  | .stored | .notified => ∃ found, record = some found ∧ found.WellFormed runId ∧
      found.status.phase.Terminal

/-- What a step does to the task and the record of a run. -/
inductive RecordMoves (runId : String) : TaskPhase → Option (RunRecord ρ) →
    TaskPhase → Option (RunRecord ρ) → Prop
  | stays {task record} : RecordMoves runId task record task record
  | registers {startedAtMs} :
    RecordMoves runId .unspawned none .spawned (some ⟨runId, startedAtMs, none, .accepted⟩)
  | runs {startedAtMs} :
    RecordMoves runId .spawned (some ⟨runId, startedAtMs, none, .accepted⟩)
      .running (some ⟨runId, startedAtMs, none, .running⟩)
  | completes {startedAtMs endedAtMs result} :
    RecordMoves runId .running (some ⟨runId, startedAtMs, none, .running⟩)
      .stored (some ⟨runId, startedAtMs, some endedAtMs, .completed result⟩)
  | fails {startedAtMs endedAtMs error} :
    RecordMoves runId .running (some ⟨runId, startedAtMs, none, .running⟩)
      .stored (some ⟨runId, startedAtMs, some endedAtMs, .failed error⟩)
  | notifies {record} : RecordMoves runId .stored record .notified record

def PhaseAdvances : Option RunPhase → Option RunPhase → Prop
  | none, some .accepted => True
  | some .accepted, some .running => True
  | some .running, some .completed => True
  | some .running, some .failed => True
  | before, after => before = after

namespace RecordMoves

variable {runId : String} {task task' : TaskPhase} {record record' : Option (RunRecord ρ)}

theorem agrees (moves : RecordMoves runId task record task' record')
    (agrees : RecordAgrees task record runId) : RecordAgrees task' record' runId := by
  cases moves with
  | stays => exact agrees
  | registers => exact ⟨_, rfl⟩
  | runs => exact ⟨_, rfl⟩
  | completes => exact ⟨_, rfl, ⟨rfl, by simp [RunStatus.phase, RunPhase.Terminal]⟩, .inl rfl⟩
  | fails => exact ⟨_, rfl, ⟨rfl, by simp [RunStatus.phase, RunPhase.Terminal]⟩, .inr rfl⟩
  | notifies => exact agrees

/-- **Phases move forward.** -/
theorem advances (moves : RecordMoves runId task record task' record') :
    PhaseAdvances (record.map (·.status.phase)) (record'.map (·.status.phase)) := by
  cases moves with
  | stays | notifies =>
    unfold PhaseAdvances
    split <;> trivial
  | registers | runs | completes | fails => trivial

/-- **Terminal records stay.** -/
theorem terminal (moves : RecordMoves runId task record task' record') {found : RunRecord ρ}
    (holds : record = some found) (ended : found.status.phase.Terminal) : record' = some found := by
  cases moves with
  | stays | notifies => exact holds
  | registers => cases holds
  | runs | completes | fails =>
    cases holds
    rcases ended with contradiction | contradiction <;> cases contradiction

end RecordMoves

/-! ### Steps -/

section Steps

variable {calls : ω → WaitCall} {s t : WaitState ω ρ}

theorem recordMoves_advance {runId : String} {phase : TaskPhase} {record : RunRecord ρ}
    {storedMs : Option ℕ}
    (moves : RecordMoves runId (s.task runId) (s.registry runId) phase (some record))
    (other : String) :
    RecordMoves other (s.task other) (s.registry other)
      ((s.advance runId phase record storedMs).task other)
      ((s.advance runId phase record storedMs).registry other) := by
  by_cases same : other = runId
  · subst same
    simpa [WaitState.advance, WaitState.setTask] using moves
  · simp only [WaitState.advance, WaitState.setTask, Function.update_of_ne same]
    exact .stays

def RecordsAgree (s : WaitState ω ρ) : Prop :=
  ∀ runId, RecordAgrees (s.task runId) (s.registry runId) runId

variable [DecidableEq ω]

def WaitEvent.ofWaiter : WaitEvent ω ρ → Bool
  | .call _ | .readStatus _ | .register _ | .expire _ | .readResult _ | .tick _ => true
  | .submit .. | .markRunning _ | .store .. | .notify _ => false

theorem sameRuns_of_ofWaiter {event : WaitEvent ω ρ} (ofWaiter : event.ofWaiter)
    (moves : (waiting calls).step s event = some t) :
    t.registry = s.registry ∧ t.task = s.task := by
  cases waitMoves_of_step moves with
  | submit | markRunning | store | notify => cases ofWaiter
  | call _ =>
    unfold WaitState.call
    split <;> exact ⟨rfl, rfl⟩
  | readStatus _ =>
    unfold WaitState.readStatus
    split
    · exact ⟨rfl, rfl⟩
    · split <;> exact ⟨rfl, rfl⟩
  | register | expire | readResult | tick => exact ⟨rfl, rfl⟩

/-- **One step.** Each step moves the task and the record of at most one run. -/
theorem recordMoves_step {event : WaitEvent ω ρ} (agrees : RecordsAgree s)
    (moves : (waiting calls).step s event = some t) (runId : String) :
    RecordMoves runId (s.task runId) (s.registry runId) (t.task runId) (t.registry runId) := by
  by_cases ofWaiter : event.ofWaiter
  · obtain ⟨registry, task⟩ := sameRuns_of_ofWaiter ofWaiter moves
    rw [registry, task]
    exact .stays
  cases waitMoves_of_step moves with
  | @submit submitted _ unknown =>
    apply recordMoves_advance
    have unspawned := agrees submitted
    rw [unknown] at unspawned ⊢
    cases task : s.task submitted with
    | unspawned => exact .registers
    | spawned | running | stored | notified =>
      rw [task] at unspawned
      obtain ⟨_, contradiction⟩ := unspawned
      simp at contradiction
  | @markRunning marked _ spawned found =>
    apply recordMoves_advance
    have accepted := agrees marked
    rw [spawned, found] at accepted
    obtain ⟨startedAtMs, same⟩ := accepted
    obtain rfl := Option.some_inj.mp same
    rw [spawned, found]
    exact .runs
  | @store ended _ result _ running found =>
    apply recordMoves_advance
    have runs := agrees ended
    rw [running, found] at runs
    obtain ⟨startedAtMs, same⟩ := runs
    obtain rfl := Option.some_inj.mp same
    rw [running, found]
    cases result with
    | ok run => exact .completes
    | error err => exact .fails
  | @notify notified stored =>
    by_cases same : runId = notified
    · subst same
      simp only [WaitState.notify, WaitState.setTask, Function.update_self, stored]
      exact .notifies
    · simp only [WaitState.notify, WaitState.setTask, Function.update_of_ne same]
      exact .stays
  | call | readStatus | register | expire | readResult | tick => exact absurd rfl ofWaiter

theorem recordsAgree_step {event : WaitEvent ω ρ} (agrees : RecordsAgree s)
    (moves : (waiting calls).step s event = some t) : RecordsAgree t :=
  fun runId => (recordMoves_step agrees moves runId).agrees (agrees runId)

/-- **Runs and their records.** In every run, whatever the waiters miss. -/
theorem recordsAgree_of_reachable (reached : (waiting (ρ := ρ) calls).Reachable s) :
    RecordsAgree s := by
  refine reached.invariant RecordsAgree ?_ ?_
  · rintro s ⟨runs, -⟩ runId
    rw [(runs runId).2.1]
    exact (runs runId).1
  · exact fun s event t agrees _ moves => recordsAgree_step agrees moves

end Steps

/-! ### Answers -/

section Answers

variable {calls : ω → WaitCall} {s t : WaitState ω ρ} {waiter : ω}

def AnswerAgrees (calls : ω → WaitCall) (s : WaitState ω ρ) (waiter : ω) : Prop :=
  match s.waiter waiter with
  | .returned result => result.status ≠ .timeout →
    Recorded calls s waiter fun record => record.waitResult = some result
  | .outcome (.ok (.completed run)) =>
    Recorded calls s waiter fun record => record.storedResult = some (.completed run)
  | .outcome (.ok (.failed error)) =>
    Recorded calls s waiter fun record => record.storedResult = some (.failed error)
  | .outcome (.error _) => False
  | .outcome (.ok .timeout) | .idle | .reading | .observed _ | .sleeping _ | .failed _ => True

theorem RunRecord.terminal_of_waitResult {record : RunRecord ρ} {result : AgentWaitResult}
    (reported : record.waitResult = some result) : record.status.phase.Terminal := by
  unfold RunRecord.waitResult at reported
  split at reported
  · rename_i status
    rw [status]
    exact .inl rfl
  · rename_i status
    rw [status]
    exact .inr rfl
  · cases reported
  · cases reported

theorem RunRecord.terminal_of_storedResult {record : RunRecord ρ} {result : StoredRunResult ρ}
    (reported : record.storedResult = some result) : record.status.phase.Terminal := by
  cases waited : record.waitResult with
  | some answer => exact RunRecord.terminal_of_waitResult waited
  | none =>
    rw [RunRecord.storedResult_eq_none.mpr waited] at reported
    cases reported

theorem Recorded.of_terminal {property : RunRecord ρ → Prop}
    (recorded : Recorded calls s waiter property)
    (kept : ∀ runId record, s.registry runId = some record → record.status.phase.Terminal →
      t.registry runId = some record)
    (terminal : ∀ record, property record → record.status.phase.Terminal) :
    Recorded calls t waiter property := by
  obtain ⟨record, found, holds⟩ := recorded
  exact ⟨record, kept _ record found (terminal record holds), holds⟩

theorem AnswerAgrees.stays (agrees : AnswerAgrees calls s waiter)
    (kept : ∀ runId record, s.registry runId = some record → record.status.phase.Terminal →
      t.registry runId = some record)
    (still : t.waiter waiter = s.waiter waiter) : AnswerAgrees calls t waiter := by
  unfold AnswerAgrees at agrees ⊢
  rw [still]
  split at agrees
  · exact fun reports => (agrees reports).of_terminal kept fun _ => RunRecord.terminal_of_waitResult
  · exact agrees.of_terminal kept fun _ => RunRecord.terminal_of_storedResult
  · exact agrees.of_terminal kept fun _ => RunRecord.terminal_of_storedResult
  · exact agrees
  all_goals trivial

variable [DecidableEq ω]

theorem answerAgrees_setWaiter {phase : WaiterPhase ρ} {deadlineMs : ω → ℕ}
    (agrees : ∀ waiter, AnswerAgrees calls s waiter)
    (right : AnswerAgrees calls { s.setWaiter waiter phase with deadlineMs } waiter) :
    ∀ other, AnswerAgrees calls { s.setWaiter waiter phase with deadlineMs } other := by
  intro other
  by_cases same : other = waiter
  · rwa [same]
  · exact (agrees other).stays (fun _ _ found _ => found) (Function.update_of_ne same ..)

theorem answerAgrees_readStatus (agrees : ∀ waiter, AnswerAgrees calls s waiter) :
    ∀ other, AnswerAgrees calls (s.readStatus calls waiter) other := by
  unfold WaitState.readStatus RunRegistry.getRecord
  cases found : s.registry (calls waiter).runId with
  | none => exact answerAgrees_setWaiter agrees (by simp [AnswerAgrees, WaitState.setWaiter])
  | some record =>
    cases ended : record.waitResult with
    | none =>
      simp only [ended]
      exact answerAgrees_setWaiter agrees (by simp [AnswerAgrees, WaitState.setWaiter])
    | some result =>
      simp only [ended]
      apply answerAgrees_setWaiter agrees
      simp only [AnswerAgrees, WaitState.setWaiter, Function.update_self]
      exact fun _ => ⟨record, found, ended⟩

theorem answerAgrees_readResult {result : AgentWaitResult}
    (agrees : ∀ waiter, AnswerAgrees calls s waiter)
    (returned : s.waiter waiter = .returned result) :
    ∀ other, AnswerAgrees calls (s.readResult calls waiter result) other := by
  have reports := agrees waiter
  rw [AnswerAgrees, returned] at reports
  apply answerAgrees_setWaiter agrees
  simp only [AnswerAgrees, WaitState.setWaiter, Function.update_self]
  by_cases timedOut : result.status = .timeout
  · simp only [timedOut]
  · obtain ⟨record, found, ended⟩ := reports timedOut
    obtain ⟨outcome, stored, reads⟩ := exists_result_of_waitResult found ended
    cases status : result.status with
    | timeout => exact absurd status timedOut
    | ok | error =>
      rw [reads]
      cases outcome <;> exact ⟨record, found, stored⟩

theorem answerAgrees_step {event : WaitEvent ω ρ} (records : RecordsAgree s)
    (agrees : ∀ waiter, AnswerAgrees calls s waiter)
    (moves : (waiting calls).step s event = some t) : ∀ waiter, AnswerAgrees calls t waiter := by
  have kept : ∀ runId record, s.registry runId = some record → record.status.phase.Terminal →
      t.registry runId = some record :=
    fun runId record found ended => (recordMoves_step records moves runId).terminal found ended
  cases waitMoves_of_step moves with
  | submit | markRunning | store | tick => exact fun waiter => (agrees waiter).stays kept rfl
  | @notify notified _ =>
    intro waiter
    cases phase : s.waiter waiter with
    | sleeping startedAtMs =>
      -- a sleeper goes on sleeping or reads the status again
      by_cases wakes : (calls waiter).runId = notified
      · simp [AnswerAgrees, WaitState.notify, phase, wakes]
      · simp [AnswerAgrees, WaitState.notify, phase, wakes]
    | idle | reading | observed _ | returned _ | outcome _ | failed _ =>
      exact (agrees waiter).stays kept (by simp [WaitState.notify, phase])
  | call _ =>
    unfold WaitState.call
    split <;> exact answerAgrees_setWaiter agrees (by simp [AnswerAgrees, WaitState.setWaiter])
  | readStatus _ => exact answerAgrees_readStatus agrees
  | register _ =>
    exact answerAgrees_setWaiter agrees (by simp [AnswerAgrees, WaitState.setWaiter])
  | expire _ _ =>
    apply answerAgrees_setWaiter agrees
    simp [AnswerAgrees, WaitState.setWaiter, AgentWaitResult.timedOut]
  | readResult returned => exact answerAgrees_readResult agrees returned

/-- **Answers and records.** In every run an answer that reports a result has it from the
record of its run. -/
theorem answerAgrees_of_reachable (reached : (waiting (ρ := ρ) calls).Reachable s) :
    ∀ waiter, AnswerAgrees calls s waiter := by
  refine (reached.invariant (fun s => RecordsAgree s ∧ ∀ waiter, AnswerAgrees calls s waiter)
    ?_ ?_).2
  · rintro s ⟨runs, waiters⟩
    constructor
    · intro runId
      rw [(runs runId).2.1]
      exact (runs runId).1
    · intro waiter
      rw [AnswerAgrees, waiters waiter]
      trivial
  · rintro s event t ⟨records, agrees⟩ - moves
    exact ⟨recordsAgree_step records moves, answerAgrees_step records agrees moves⟩

end Answers

end KelvinClaw.Core
