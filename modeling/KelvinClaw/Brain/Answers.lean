import Mathlib.Data.List.Forall2
import KelvinClaw.Brain.KelvinBrain

/-!
# Answered tool calls

The history of a session is to hold one tool message for each tool call of the model, when the
model is asked again. A call whose tool failed, or returned nothing visible, has its message. A
call that names no registered tool is the exception: its exit appends none.
-/

namespace KelvinClaw.Brain

open KelvinClaw.Core KelvinClaw.Sdk Systems Systems.Action

/-! ### Rounds -/

/-- The tool calls of an answer of the model, and the tool messages appended since. -/
structure Round where
  calls : List ToolCall
  messages : List SessionMessage
  deriving DecidableEq, Repr

/-- The rounds that the model was asked after, and the one under way. -/
structure Rounds where
  closed : List Round
  current : Option Round
  deriving DecidableEq, Repr

namespace Rounds

def record (rounds : Rounds) : BrainEvent → Rounds
  | .executing calls => { rounds with current := some ⟨calls, []⟩ }
  | .appended message =>
    if message.role = .tool then
      { rounds with
        current := rounds.current.map fun round =>
          { round with messages := round.messages ++ [message] } }
    else rounds
  | .inferring _ => ⟨rounds.closed ++ rounds.current.toList, none⟩
  | _ => rounds

def ofJournal (journal : List BrainEvent) : Rounds := journal.foldl record ⟨[], none⟩

theorem record_replies {event : BrainEvent} (replies : Replies event) (rounds : Rounds) :
    rounds.record event = rounds := by
  cases event with
  | appended message =>
    have role : message.role = .assistant := replies
    simp [record, role]
  | emitted event => rfl
  | _ => exact replies.elim

theorem record_setsUp {event : BrainEvent} (setsUp : SetsUp event) (rounds : Rounds) :
    rounds.record event = rounds := by
  cases event with
  | appended message =>
    have role : message.role = .user := setsUp
    simp [record, role]
  | emitted event => rfl
  | _ => exact setsUp.elim

end Rounds

section Triples

variable (brain : KelvinBrain)

def Registered (call : ToolCall) : Prop := (brain.tools.get call.name).isSome

instance : DecidablePred (Registered brain) := fun _ => inferInstanceAs (Decidable (_ = true))

def reportedName (call : ToolCall) : String :=
  (brain.tools.get call.name).elim call.name Tool.name

def Answers (call : ToolCall) (message : SessionMessage) : Prop :=
  message.role = .tool ∧
    ∃ members, message.metadata = .obj members ∧
      Value.lookup "tool" members = some (.str (reportedName brain call))

def Served (round : Round) : Prop :=
  List.Forall₂ (Answers brain) (round.calls.filter (Registered brain ·)) round.messages

def Settled (rounds : Rounds) : Prop := ∀ round ∈ rounds.closed, Served brain round

def Complete (rounds : Rounds) : Prop :=
  Settled brain rounds ∧ ∀ round ∈ rounds.current, Served brain round

/-- Of the calls of the round under way, those in `done` have been carried out. -/
def Serving (calls done : List ToolCall) (rounds : Rounds) : Prop :=
  Settled brain rounds ∧ ∃ messages, rounds.current = some ⟨calls, messages⟩ ∧
    Served brain ⟨done, messages⟩

def roundsObserver : Observer Rounds BrainEvent := ⟨Rounds.record, Settled brain, Settled brain⟩

variable {brain} {req : AgentRunRequest} {calls done : List ToolCall} {call : ToolCall}

theorem safe_complete : Safe (roundsObserver brain) (Complete brain) :=
  fun _ complete => ⟨complete.1, complete.1⟩

theorem safe_serving : Safe (roundsObserver brain) (Serving brain calls done) :=
  fun _ serving => ⟨serving.1, serving.1⟩

theorem Serving.skip {rounds : Rounds} (serving : Serving brain calls done rounds)
    (unknown : brain.tools.get call.name = none) :
    Serving brain calls (done ++ [call]) rounds := by
  obtain ⟨settled, messages, current, served⟩ := serving
  refine ⟨settled, messages, current, ?_⟩
  simpa [Served, List.filter_append, Registered, unknown] using served

theorem Serving.serve {rounds : Rounds} {message : SessionMessage}
    (serving : Serving brain calls done rounds) (registered : Registered brain call)
    (answers : Answers brain call message) :
    Serving brain calls (done ++ [call]) (rounds.record (.appended message)) := by
  obtain ⟨settled, messages, current, served⟩ := serving
  refine ⟨?_, messages ++ [message], ?_, ?_⟩
  · simpa [Settled, Rounds.record, answers.1] using settled
  · simp [Rounds.record, answers.1, current]
  · simpa [Served, List.filter_append, registered] using
      List.rel_append served (List.Forall₂.cons answers .nil)

theorem triple_executeToolCall :
    Triple (roundsObserver brain) (Serving brain calls done) (executeToolCall brain req call)
      fun _ => Serving brain calls (done ++ [call]) := by
  have emits : ∀ {served : List ToolCall} {data : ℕ → AgentEventData},
      Triple (roundsObserver brain) (Serving brain calls served) (emit brain data)
        fun _ => Serving brain calls served :=
    triple_emit safe_serving.kept safe_serving fun _ _ _ serving => serving
  -- the receipt and the payload come after the message, and change nothing
  have concludes : ∀ {toolName resultClass reason : String} {startedToolAt : ℕ}
      {payload : Option (ToolCall × AgentPayload)},
      Triple (roundsObserver brain) (Serving brain calls (done ++ [call]))
        (do emitToolReceipt brain req toolName call resultClass reason startedToolAt
            return payload)
        fun _ => Serving brain calls (done ++ [call]) := by
    intros
    apply triple_bind (triple_emitToolReceipt safe_serving safe_serving fun _ _ serving => serving)
    exact fun _ => triple_pure fun _ serving => ⟨serving.1, serving⟩
  apply triple_bind (triple_ask safe_serving.kept _)
  intro startedToolAt
  apply triple_bind emits
  intro _
  cases found : brain.tools.get call.name with
  | none =>
    apply triple_bind (emits.mono (fun _ serving => serving.skip found) fun _ _ _ => id)
    exact fun _ => concludes
  | some tool =>
    have registered : Registered brain call := by simp [Registered, found]
    have named : reportedName brain call = tool.name := by simp [reportedName, found]
    have appends : ∀ {content : String} {members : List (String × Value)},
        Value.lookup "tool" members = some (.str tool.name) →
        Triple (roundsObserver brain) (Serving brain calls done)
          (appendMessage brain req (.tool content (.obj members)))
          fun _ => Serving brain calls (done ++ [call]) := by
      intro content members names
      apply triple_appendMessage safe_serving safe_serving
      exact fun _ serving => serving.serve registered ⟨rfl, members, rfl, named ▸ names⟩
    apply triple_bind (R := fun _ => Serving brain calls done)
    · exact triple_log (fun _ serving => serving.1) fun _ serving => ⟨serving.1, serving⟩
    intro _
    apply triple_bind (triple_ask safe_serving.kept _)
    intro toolResult
    cases toolResult with
    | error err =>
      apply triple_bind emits
      intro _
      exact triple_bind (appends (by simp [Value.lookup_insertMember_of_ne])) fun _ => concludes
    | ok result =>
      apply triple_bind emits
      intro _
      exact triple_bind (appends (by simp [Value.lookup_insertMember_of_ne])) fun _ => concludes

theorem triple_executeEach (rest : List ToolCall) :
    Triple (roundsObserver brain) (Serving brain calls done) (executeEach brain req rest)
      fun _ => Serving brain calls (done ++ rest) := by
  induction rest generalizing done with
  | nil =>
    apply triple_pure
    intro _ serving
    exact ⟨serving.1, by rwa [List.append_nil]⟩
  | cons call rest ih =>
    apply triple_bind triple_executeToolCall
    intro _
    apply triple_bind ih
    intro _
    apply triple_pure
    intro _ serving
    exact ⟨serving.1, by rwa [List.append_assoc] at serving⟩

theorem Serving.complete {rounds : Rounds} (serving : Serving brain calls calls rounds) :
    Complete brain rounds := by
  obtain ⟨settled, messages, current, served⟩ := serving
  refine ⟨settled, fun round under => ?_⟩
  obtain rfl := Option.some_inj.mp (current.symm.trans (Option.mem_def.mp under))
  exact served

theorem Complete.question {rounds : Rounds} (complete : Complete brain rounds)
    (input : ModelInput) : Complete brain (rounds.record (.inferring input)) := by
  refine ⟨fun round closed => ?_, fun _ => nofun⟩
  rcases List.mem_append.mp closed with before | under
  · exact complete.1 round before
  · exact complete.2 round (Option.mem_toList.mp under)

theorem complete_replies {rounds : Rounds} {event : BrainEvent} (complete : Complete brain rounds)
    (replies : Replies event) : Complete brain (rounds.record event) := by
  rwa [Rounds.record_replies replies]

theorem triple_complete_executeToolCalls (calls : List ToolCall) :
    Triple (roundsObserver brain) (Complete brain) (executeToolCalls brain req calls)
      fun _ => Complete brain := by
  have within : Safe (roundsObserver brain) (Serving brain calls []) := safe_serving
  apply triple_executeToolCalls safe_complete within (fun _ => safe_serving)
    (fun _ => safe_complete.kept) _ (triple_executeEach calls)
  · exact fun _ _ serving => serving.complete
  · exact fun _ complete => ⟨complete.1, [], rfl, .nil⟩

theorem triple_complete_iterate {turn : Turn} {maxIter limit : ℕ} {state : LoopState}
    (below : maxIter ≤ limit) :
    Triple (roundsObserver brain) (Complete brain) (iterate brain req turn maxIter state)
      fun pass => match pass with
        | .ends _ => Complete brain
        | .goesOn next => fun rounds =>
          Complete brain rounds ∧ next.iteration = state.iteration + 1 ∧ next.iteration < limit
        | .panics => Complete brain := by
  apply triple_iterate safe_complete safe_complete
  · exact fun _ input complete _ => complete.question input
  · exact fun _ _ => complete_replies
  · exact fun _ _ _ => id
  · exact fun calls _ => triple_complete_executeToolCalls calls
  · intro calls results
    apply triple_afterTools safe_complete.kept
    · intro reason payloads _ _ _
      apply Triple.mono (triple_finalAnswer safe_complete.kept safe_complete safe_complete _ _ _)
        (fun _ => id) fun _ _ _ => And.right
      · exact fun _ _ _ => id
      · exact fun _ input complete _ => complete.question input
      · exact fun _ _ => complete_replies
    · exact fun _ => safe_complete.kept
    · intro _ _ _ complete _ unforced
      exact ⟨complete, rfl, Nat.lt_of_lt_of_le (lt_of_forceReason unforced) below⟩
    · exact fun _ complete _ => complete

theorem triple_complete_runInner (detector : ToolLoopDetector) :
    Triple (roundsObserver brain) (Complete brain) (runInner brain req detector)
      fun finish => match finish with
        | .finished result => fun rounds => ∃ loopEnd : LoopEnd,
          result.agentMeta.toolIterations = loopEnd.toolIterations ∧ Complete brain rounds
        | .panicked => Complete brain
        | .unfinished => fun _ => False := by
  apply triple_runInner (I := fun _ => Complete brain) (fun _ => safe_complete) safe_complete
    fun _ => safe_complete.kept
  · apply triple_of_logs logs_prepare _ safe_complete
    intro rounds event complete setsUp
    have same : (roundsObserver brain).record rounds event = rounds :=
      Rounds.record_setsUp setsUp rounds
    rwa [same]
  · exact fun _ _ _ => triple_complete_iterate (Nat.le_max_right 1 _)
  · exact fun _ _ => triple_conclude safe_complete safe_complete fun _ _ _ => id

end Triples

/-! ### Answered calls -/

section Answered

variable (brain : KelvinBrain) (req : AgentRunRequest) (cut calls : ℕ)

def askedAfter : List Round :=
  (Rounds.ofJournal (run brain req cut calls).journal).closed

/-- Whenever the model is asked again, each of its tool calls has one tool message, in order. -/
def EveryCallAnswered : Prop :=
  ∀ round ∈ askedAfter brain req cut calls,
    List.Forall₂ (Answers brain) round.calls round.messages

variable {brain req cut calls}

theorem served_of_askedAfter {round : Round} (asked : round ∈ askedAfter brain req cut calls) :
    Served brain round := by
  have observed : Triple (roundsObserver brain) (Complete brain) (run brain req cut)
      fun _ => Settled brain := triple_run (triple_complete_runInner .new) fun _ _ _ _ => id
  have settled :=
    (observed calls ⟨[], none⟩ ⟨nofun, nofun⟩).1 (run brain req cut calls).journal.length
  rw [List.take_length] at settled
  exact settled round asked

theorem forall₂_answers_iff {round : Round} (served : Served brain round) :
    List.Forall₂ (Answers brain) round.calls round.messages ↔
      ∀ call ∈ round.calls, Registered brain call := by
  constructor
  · intro answered
    have long : (round.calls.filter (Registered brain ·)).length = round.calls.length :=
      served.length_eq.trans answered.length_eq.symm
    intro call member
    exact of_decide_eq_true (List.length_filter_eq_length_iff.mp long call member)
  · intro registered
    have all : round.calls.filter (Registered brain ·) = round.calls :=
      List.filter_eq_self.mpr fun call member => decide_eq_true (registered call member)
    rwa [Served, all] at served

/-- **Answered calls.** In a run, every tool call is answered before the model is asked again,
exactly when the calls of the answers after which it is asked again name registered tools. -/
theorem everyCallAnswered_iff (brain : KelvinBrain) (req : AgentRunRequest) (cut calls : ℕ) :
    EveryCallAnswered brain req cut calls ↔
      ∀ round ∈ askedAfter brain req cut calls, ∀ call ∈ round.calls,
        Registered brain call := by
  constructor
  · intro answered round asked
    exact (forall₂_answers_iff (served_of_askedAfter asked)).mp (answered round asked)
  · intro registered round asked
    exact (forall₂_answers_iff (served_of_askedAfter asked)).mpr (registered round asked)

end Answered

/-- A model that calls a tool that is not there, and then answers. -/
def strayBrain : KelvinBrain :=
  calmBrain
    (fun _ input => .ok (if input.userPrompt = followUpPrompt then ⟨"done", none, []⟩
      else ⟨"", none, [⟨"1", "teleport", .obj []⟩]⟩))
    ⟨fun _ => none, []⟩

/-- The model is asked again and its call of an unknown tool has no message. -/
theorem unknown_call_unanswered :
    ¬ ∀ brain req cut calls, EveryCallAnswered brain req cut calls := by
  intro answered
  have asked : askedAfter strayBrain plainRequest 0 0 = [⟨[⟨"1", "teleport", .obj []⟩], []⟩] := by
    decide +kernel
  have matched := answered strayBrain plainRequest 0 0 _ (asked ▸ List.mem_singleton_self _)
  cases matched

end KelvinClaw.Brain
