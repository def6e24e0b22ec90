import KelvinClaw.Core.RunWait
import KelvinClaw.Library.ReadModifyWrite
import KelvinClaw.Sdk.Submit

/-!
# Run records under concurrent calls

`submit`, `state`, `wait` and `wait_for_outcome` each read the record file of their run, merge
their own fields into it and write it back. Nothing is locked in between, so a call may write
back a record that lacks what another call has written since it read.
-/

namespace KelvinClaw.Sdk

open KelvinClaw.Core Systems Systems.TransitionSystem Systems.ReadModifyWrite

variable {ι : Type}

/-! ### Results as JSON -/

structure AgentPayload where
  text : String
  isError : Bool
  deriving DecidableEq, Repr

structure AgentRunMeta where
  durationMs : ℕ
  provider : String
  model : String
  stopReason : Option String
  error : Option String
  toolIterations : ℕ
  deriving DecidableEq, Repr

structure AgentRunResult where
  payloads : List AgentPayload
  agentMeta : AgentRunMeta
  deriving DecidableEq, Repr

/-- `json!` of an optional number. -/
def numOrNull : Option ℕ → Value
  | none => .null
  | some n => .num n

def AgentPayload.toJson (payload : AgentPayload) : Value :=
  .object [("text", .str payload.text), ("is_error", .bool payload.isError)]

def AgentRunMeta.toJson (agentMeta : AgentRunMeta) : Value :=
  .object [("duration_ms", .num agentMeta.durationMs), ("provider", .str agentMeta.provider),
    ("model", .str agentMeta.model), ("stop_reason", .ofOption agentMeta.stopReason),
    ("error", .ofOption agentMeta.error), ("tool_iterations", .num agentMeta.toolIterations)]

def AgentRunResult.toJson (result : AgentRunResult) : Value :=
  .object [("payloads", .arr (result.payloads.map AgentPayload.toJson)),
    ("meta", result.agentMeta.toJson)]

def phaseLabel : RunPhase → String
  | .accepted => "accepted"
  | .running => "running"
  | .completed => "completed"
  | .failed => "failed"

def runStateJson (state : RunState) : Value :=
  .object [("run_id", .str state.runId), ("phase", .str (phaseLabel state.phase)),
    ("started_at_ms", .num state.startedAtMs), ("ended_at_ms", numOrNull state.endedAtMs),
    ("error", .ofOption state.error)]

def waitStatusLabel : WaitStatus → String
  | .ok => "ok"
  | .error => "error"
  | .timeout => "timeout"

def waitResultJson (wait : AgentWaitResult) : Value :=
  .object [("status", .str (waitStatusLabel wait.status)),
    ("started_at_ms", .num wait.startedAtMs), ("ended_at_ms", numOrNull wait.endedAtMs),
    ("error", .ofOption wait.error)]

def outcomeJson : RunOutcome AgentRunResult → Value
  | .completed result => .object [("status", .str "completed"), ("result", result.toJson)]
  | .failed error => .object [("status", .str "failed"), ("error", .str error)]
  | .timeout => .object [("status", .str "timeout")]

/-! ### Calls -/

/-- What an operation got from the core runtime and is about to record. -/
inductive RunOperation where
  | submit (runtime : KelvinSdkRuntime) (request : KelvinSdkRunRequest) (acceptedAtMs : ℕ)
  | state (state : RunState)
  | wait (wait : AgentWaitResult)
  | waitForOutcome (outcome : RunOutcome AgentRunResult)

def RunOperation.record : RunOperation → List (String × Value)
  | .submit runtime request acceptedAtMs => runtime.acceptedRecord request acceptedAtMs
  | .state found => [("last_state", runStateJson found)]
  | .wait result => [("last_wait", waitResultJson result)]
  | .waitForOutcome outcome => [("last_outcome", outcomeJson outcome)]

/-- An operation with the time of its record, the error of reading the file, if it exists, and
the error of its write, if that fails. -/
structure RunCall where
  operation : RunOperation
  nowMs : ℕ
  readError : Option String
  writeFailure : WriteStep × String

def RunCall.fields (runId : String) (call : RunCall) : List (String × Value) :=
  ("run_id", .str runId) :: ("updated_at_ms", .num call.nowMs) :: call.operation.record

def mergeFields (fields members : List (String × Value)) : List (String × Value) :=
  fields.foldl (fun members field => Value.insertMember field.1 field.2 members) members

/-- `persist_run_record` on the content of the run's file. -/
def runRecord (runId : String) : Protocol (Option (Option Value)) RunCall (KelvinResult Unit) where
  load call current :=
    match current, call.readError with
    | some _, some err => .answer (.error (.io s!"read run record: {err}"))
    | current, _ =>
      let (step, err) := call.writeFailure
      .store
        (some (some (.obj (mergeFields (call.fields runId)
          (RuntimePersistence.currentMembers current)))))
        (.ok ()) (.error (.io s!"{step.label}: {err}"))

/-- **Calls run alone.** They do what `persist_run_record` does to the file of the run. -/
theorem persistRunRecord_eq_alone {persistence : RuntimePersistence} {runId path : String}
    (files : RunFiles) (call : RunCall) (stored : Bool) (enabled : persistence.persistRuns)
    (file : persistence.runFileFor runId = some path) :
    persistence.persistRunRecord ⟨call.readError, if stored then none else some call.writeFailure⟩
        files runId call.operation.record call.nowMs =
      (((runRecord runId).alone call stored (files path)).1,
        Function.update files path ((runRecord runId).alone call stored (files path)).2) := by
  simp only [RuntimePersistence.persistRunRecord, enabled, not_true_eq_false, if_false, file,
    Protocol.alone, runRecord]
  cases present : files path with
  | none =>
    cases stored with
    | true => simp [writeAtomic, mergeFields, RunCall.fields]
    | false => simp [writeAtomic, ← present]
  | some content =>
    cases call.readError with
    | none =>
      cases stored with
      | true => simp [writeAtomic, mergeFields, RunCall.fields]
      | false => simp [writeAtomic, ← present]
    | some err => simp [← present]

/-! ### Fields that are kept -/

def recordMembers (content : Option (Option Value)) : List (String × Value) :=
  RuntimePersistence.currentMembers content

def lastWritten (runId key : String) (log : List (Finished RunCall (KelvinResult Unit))) :
    Option Value :=
  log.reverse.findSome? fun done =>
    match done.reply with
    | .ok () => Value.lookup key (done.call.fields runId).reverse
    | .error _ => none

/-- Every field of a call that returned is in the record, as the last of them wrote it. -/
structure Retained (runId : String)
    (s : State ι (Option (Option Value)) RunCall (KelvinResult Unit)) : Prop where
  present : ∀ done ∈ s.log, done.reply = .ok () → ∀ field ∈ done.call.fields runId,
    (Value.lookup field.1 (recordMembers s.cell)).isSome
  lastValue : ∀ key value, lastWritten runId key s.log = some value →
    Value.lookup key (recordMembers s.cell) = some value

/-- A call that writes back its record finds the fields it does not write itself as it read
them. -/
def KeepsOthers (runId : String)
    (s : State ι (Option (Option Value)) RunCall (KelvinResult Unit)) : Move ι RunCall → Prop
  | .store client true => ∀ p ∈ s.pending client,
    ∀ key ∈ (recordMembers s.cell ++ recordMembers p.loaded).map Prod.fst,
      Value.lookup key (recordMembers s.cell) = Value.lookup key (recordMembers p.loaded) ∨
        key ∈ (p.call.fields runId).map Prod.fst
  | .store _ false | .load .. => True

instance (runId : String) (s : State ι (Option (Option Value)) RunCall (KelvinResult Unit)) :
    ∀ move, Decidable (KeepsOthers runId s move)
  | .store client true => inferInstanceAs (Decidable (∀ p ∈ s.pending client,
      ∀ key ∈ (recordMembers s.cell ++ recordMembers p.loaded).map Prod.fst,
        Value.lookup key (recordMembers s.cell) = Value.lookup key (recordMembers p.loaded) ∨
          key ∈ (p.call.fields runId).map Prod.fst))
  | .store _ false | .load .. => inferInstanceAs (Decidable True)

section Fields

variable {key runId : String} {fields members : List (String × Value)}

theorem lookup_append (rest : List (String × Value)) :
    Value.lookup key (members ++ rest) = (Value.lookup key members).or (Value.lookup key rest) := by
  unfold Value.lookup
  rw [List.find?_append]
  cases members.find? _ <;> rfl

/-- A merged record has the fields that were merged in last, and else those it had. -/
theorem lookup_mergeFields :
    Value.lookup key (mergeFields fields members) =
      (Value.lookup key fields.reverse).or (Value.lookup key members) := by
  induction fields generalizing members with
  | nil => rfl
  | cons field rest ih =>
    obtain ⟨name, value⟩ := field
    rw [mergeFields, List.foldl_cons, ← mergeFields, ih, List.reverse_cons, lookup_append,
      Option.or_assoc]
    congr 1
    by_cases same : key = name
    · subst same
      rw [Value.lookup_insertMember_self]
      simp [Value.lookup]
    · rw [Value.lookup_insertMember_of_ne value members same]
      simp [Value.lookup, Ne.symm same]

theorem lookup_isSome_iff :
    (Value.lookup key members).isSome ↔ key ∈ members.map Prod.fst := by
  simp [Value.lookup]

theorem lookup_eq_of_keys {loaded : List (String × Value)}
    (keeps : ∀ key ∈ (members ++ loaded).map Prod.fst,
      Value.lookup key members = Value.lookup key loaded ∨ key ∈ fields.map Prod.fst)
    (notWritten : key ∉ fields.map Prod.fst) :
    Value.lookup key members = Value.lookup key loaded := by
  by_cases known : key ∈ (members ++ loaded).map Prod.fst
  · exact (keeps key known).resolve_right notWritten
  · rw [List.map_append, List.mem_append, not_or] at known
    rw [← lookup_isSome_iff, ← lookup_isSome_iff] at known
    rw [Option.not_isSome_iff_eq_none, Option.not_isSome_iff_eq_none] at known
    rw [known.1, known.2]

end Fields

section Runs

variable [DecidableEq ι] {runId : String} {initial : Option (Option Value)}
  {s t : State ι (Option (Option Value)) RunCall (KelvinResult Unit)}

theorem lastWritten_append (key : String) (log : List (Finished RunCall (KelvinResult Unit)))
    (done : Finished RunCall (KelvinResult Unit)) :
    lastWritten runId key (log ++ [done]) =
      (match done.reply with
        | .ok () => Value.lookup key (done.call.fields runId).reverse
        | .error _ => none).or (lastWritten runId key log) := by
  simp only [lastWritten, List.reverse_append, List.reverse_singleton, List.singleton_append,
    List.findSome?_cons]
  split
  · rename_i value found
    rw [found]
    rfl
  · rename_i none
    rw [none]
    rfl

theorem isSome_lastWritten {log : List (Finished RunCall (KelvinResult Unit))}
    {done : Finished RunCall (KelvinResult Unit)} {field : String × Value} (member : done ∈ log)
    (returned : done.reply = .ok ()) (written : field ∈ done.call.fields runId) :
    (lastWritten runId field.1 log).isSome := by
  rw [lastWritten, List.findSome?_isSome_iff]
  refine ⟨done, List.mem_reverse.mpr member, ?_⟩
  rw [returned]
  exact lookup_isSome_iff.mpr (List.mem_map.mpr ⟨field, List.mem_reverse.mpr written, rfl⟩)

def LastKept (runId : String)
    (s : State ι (Option (Option Value)) RunCall (KelvinResult Unit)) : Prop :=
  ∀ key value, lastWritten runId key s.log = some value →
    Value.lookup key (recordMembers s.cell) = some value

omit [DecidableEq ι] in
theorem LastKept.retained (kept : LastKept runId s) : Retained runId s := by
  refine ⟨fun done member returned field written => ?_, kept⟩
  obtain ⟨value, last⟩ := Option.isSome_iff_exists.mp (isSome_lastWritten member returned written)
  rw [kept field.1 value last]
  rfl

/-- A call that loads a record has either not been able to, or merges into what it read. -/
theorem load_runRecord (runId : String) (call : RunCall) (current : Option (Option Value)) :
    (∃ err, (runRecord runId).load call current = .answer (.error err)) ∨
      ∃ err, (runRecord runId).load call current =
        .store (some (some (.obj (mergeFields (call.fields runId) (recordMembers current)))))
          (.ok ()) (.error err) := by
  obtain ⟨operation, nowMs, readError, writeFailure⟩ := call
  cases current with
  | none => exact .inr ⟨_, rfl⟩
  | some content =>
    cases readError with
    | none => exact .inr ⟨_, rfl⟩
    | some err => exact .inl ⟨_, rfl⟩

omit [DecidableEq ι] in
theorem LastKept.snoc_error (kept : LastKept runId s) {call : RunCall} {stored : Bool}
    {err : KelvinError} (cell : t.cell = s.cell)
    (log : t.log = s.log ++ [⟨call, stored, .error err⟩]) : LastKept runId t := by
  intro key value last
  rw [log, lastWritten_append] at last
  rw [cell]
  exact kept key value last

/-- **One step.** A call that keeps the others' fields keeps what was written last. -/
theorem lastKept_step {move : Move ι RunCall} (sound : PendingSound (runRecord runId) s)
    (kept : LastKept runId s) (keeps : KeepsOthers runId s move)
    (moves : (runRecord runId).step s move = some t) : LastKept runId t := by
  cases move with
  | load client call =>
    simp only [Protocol.step] at moves
    split at moves
    · cases moves
    · obtain ⟨err, loads⟩ | ⟨err, loads⟩ := load_runRecord runId call s.cell
      · rw [loads] at moves
        obtain rfl := Option.some_inj.mp moves
        exact kept.snoc_error rfl rfl
      · rw [loads] at moves
        obtain rfl := Option.some_inj.mp moves
        exact kept
  | store client succeeds =>
    obtain ⟨p, held, rfl⟩ := Option.map_eq_some_iff.mp moves
    obtain ⟨err, loads⟩ | ⟨err, loads⟩ := load_runRecord runId p.call p.loaded
    · rw [sound client p held] at loads
      cases loads
    · rw [sound client p held, Prepared.store.injEq] at loads
      obtain ⟨next, reply, failed⟩ := loads
      cases succeeds with
      | false =>
        rw [failed]
        exact kept.snoc_error rfl rfl
      | true =>
        intro key value last
        simp only [if_true, next, reply] at last ⊢
        rw [lastWritten_append] at last
        show Value.lookup key (mergeFields _ _) = _
        rw [lookup_mergeFields]
        cases written : Value.lookup key (p.call.fields runId).reverse with
        | some own => simpa [written] using last
        | none =>
          -- the call does not write the key, so the record it read has it as it is now
          have notWritten : key ∉ (p.call.fields runId).map Prod.fst := by
            rw [← List.mem_reverse, ← List.map_reverse, ← lookup_isSome_iff, written]
            simp
          have same := lookup_eq_of_keys (keeps p held) notWritten
          rw [Option.none_or, ← same]
          exact kept key value (by simpa [written] using last)

/-- **Fields are kept.** When no call writes back a record that lacks what others wrote since it
read, every field of a call that returned is in the record. -/
theorem retained_of_keepsOthers (runId : String) (initial : Option (Option Value))
    (s : State ι (Option (Option Value)) RunCall (KelvinResult Unit))
    (reached : ((runRecord runId).system ι initial).ReachableWhen (KeepsOthers runId) s) :
    Retained runId s := by
  apply LastKept.retained
  refine (reached.invariant
    (fun s => PendingSound (runRecord runId) s ∧ LastKept runId s) ?_ ?_).2
  · rintro _ rfl
    refine ⟨by simp [PendingSound], fun key value last => ?_⟩
    simp [lastWritten] at last
  · rintro s move t ⟨sound, kept⟩ keeps moves
    exact ⟨pendingSound_step sound moves, lastKept_step sound kept keeps moves⟩

end Runs

/-! ### A state and a wait -/

def stateCall : RunCall :=
  ⟨.state ⟨"run-1", .running, 1000, none, none⟩, 1500, none, (.writeTempFile, "disk full")⟩

def waitCall : RunCall :=
  ⟨.wait ⟨.timeout, 1000, none, none⟩, 1600, none, (.writeTempFile, "disk full")⟩

def acceptedFile : Option (Option Value) :=
  some (some (.object [("run_id", .str "run-1"), ("accepted_at_ms", .num 1000)]))

def successiveCalls : List (Move Bool RunCall) :=
  [.load false stateCall, .store false true, .load true waitCall, .store true true]

/-- Both calls read the record before either writes. -/
def overlappingCalls : List (Move Bool RunCall) :=
  [.load false stateCall, .load true waitCall, .store false true, .store true true]

theorem successive_calls_keep_fields :
    ∃ s : State Bool (Option (Option Value)) RunCall (KelvinResult Unit),
      s.log.map (·.reply) = [.ok (), .ok ()] ∧ Retained "run-1" s := by
  have ran : (((runRecord "run-1").system Bool acceptedFile).run? (KeepsOthers "run-1")
      ⟨acceptedFile, fun _ => none, []⟩ successiveCalls).map (fun s => s.log.map (·.reply)) =
        some [.ok (), .ok ()] := by
    decide +kernel
  obtain ⟨s, reached, replies⟩ := exists_of_run? (.init rfl) ran
  exact ⟨s, replies, retained_of_keepsOthers "run-1" acceptedFile s reached⟩

/-- Both calls returned, and the state that was recorded is gone. -/
theorem overlapping_calls_lose_field :
    ¬ ∀ s : State Bool (Option (Option Value)) RunCall (KelvinResult Unit),
      ((runRecord "run-1").system Bool acceptedFile).Reachable s →
        (∀ client, (s.pending client).isNone) → ∀ done ∈ s.log, done.reply = .ok () →
          ∀ field ∈ done.call.fields "run-1",
            (Value.lookup field.1 (recordMembers s.cell)).isSome := by
  intro present
  have ran : (((runRecord "run-1").system Bool acceptedFile).run? (fun _ _ => True)
      ⟨acceptedFile, fun _ => none, []⟩ overlappingCalls).map (fun s =>
        (decide (∀ client, (s.pending client).isNone),
          decide (∀ done ∈ s.log, done.reply = .ok () → ∀ field ∈ done.call.fields "run-1",
            (Value.lookup field.1 (recordMembers s.cell)).isSome))) =
        some (true, false) := by
    decide +kernel
  obtain ⟨s, reached, seen⟩ := exists_of_run? (.init rfl) ran
  simp only [Prod.mk.injEq, decide_eq_true_eq, decide_eq_false_iff_not] at seen
  exact seen.2 (present s reached seen.1)

end KelvinClaw.Sdk
