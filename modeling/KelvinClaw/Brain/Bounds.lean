import KelvinClaw.Brain.KelvinBrain

/-!
# The bounds of the tool loop

Each pass of the loop asks the model once and carries out tool calls at most once, and after the
iterations that a run is allowed it asks one last time, without tools. So a run ends by itself,
and its reported iterations are those in which tool calls were carried out.
-/

namespace KelvinClaw.Brain

open KelvinClaw.Core KelvinClaw.Sdk Systems Systems.Action

/-! ### Counted events -/

def isExecuting : BrainEvent → Bool
  | .executing _ => true
  | _ => false

def isInferring : BrainEvent → Bool
  | .inferring _ => true
  | _ => false

def isWarning : BrainEvent → Bool
  | .emitted ⟨_, .lifecycle _ .warning _ _⟩ => true
  | _ => false

/-- What may follow the warning: a question without tools, and no part of a tool call. -/
def FinalEvent : BrainEvent → Prop
  | .inferring input => input.tools = []
  | .executing _ | .executed _ _ | .called _ | .receipt _ | .emitted ⟨_, .tool ..⟩ => False
  | .appended message => message.role ≠ .tool
  | .emitted _ => True

def afterWarning (journal : List BrainEvent) : List BrainEvent :=
  (journal.dropWhile fun event => !isWarning event).tail

/-- After the warning the model is asked at most once. -/
def FinalCall (journal : List BrainEvent) : Prop :=
  (afterWarning journal).countP isInferring ≤ 1 ∧ ∀ event ∈ afterWarning journal, FinalEvent event

section Warnings

variable {past : List BrainEvent} {event : BrainEvent}

def Unwarned (past : List BrainEvent) : Prop := ∀ event ∈ past, isWarning event = false

theorem Unwarned.snoc (unwarned : Unwarned past) (other : isWarning event = false) :
    Unwarned (past ++ [event]) := by
  intro e member
  rcases List.mem_append.mp member with before | last
  · exact unwarned e before
  · obtain rfl := List.mem_singleton.mp last
    exact other

theorem afterWarning_of_unwarned (unwarned : Unwarned past) :
    afterWarning (past ++ [event]) = [] := by
  have none : past.dropWhile (fun event => !isWarning event) = [] :=
    List.dropWhile_eq_nil_iff.mpr fun e member => by simp [unwarned e member]
  rw [afterWarning, List.dropWhile_append, none]
  cases warns : isWarning event <;> simp [List.dropWhile, warns]

theorem afterWarning_of_warned {warning : BrainEvent} (member : warning ∈ past)
    (warns : isWarning warning = true) :
    afterWarning (past ++ [event]) = afterWarning past ++ [event] := by
  have some : past.dropWhile (fun event => !isWarning event) ≠ [] := by
    intro none
    have quiet := List.dropWhile_eq_nil_iff.mp none warning member
    simp [warns] at quiet
  rw [afterWarning, List.dropWhile_append, if_neg (by simpa using some),
    List.tail_append_of_ne_nil some]
  rfl

theorem finalCall_of_unwarned (unwarned : Unwarned past) : FinalCall (past ++ [event]) := by
  rw [FinalCall, afterWarning_of_unwarned unwarned]
  exact ⟨Nat.zero_le _, nofun⟩

/-- An event that may follow the warning keeps the last question the only one. -/
theorem FinalCall.snoc (final : FinalCall past) (follows : FinalEvent event)
    (other : isInferring event = false) : FinalCall (past ++ [event]) := by
  by_cases unwarned : Unwarned past
  · exact finalCall_of_unwarned unwarned
  · obtain ⟨warning, member, warns⟩ : ∃ warning ∈ past, isWarning warning = true := by
      simpa [Unwarned] using unwarned
    rw [FinalCall, afterWarning_of_warned member warns]
    refine ⟨by simpa [other] using final.1, fun e member => ?_⟩
    rcases List.mem_append.mp member with before | last
    · exact final.2 e before
    · obtain rfl := List.mem_singleton.mp last
      exact follows

end Warnings

/-! ### The bounds of a run so far -/

/-- A run so far has carried out the calls of `executions` answers and asked `inferences`
questions, both within the limit. -/
structure Within (limit executions inferences : ℕ) (past : List BrainEvent) : Prop where
  executions_eq : past.countP isExecuting = executions
  inferences_eq : past.countP isInferring = inferences
  executions_le : executions ≤ limit
  inferences_le : inferences ≤ limit + 1
  final : FinalCall past

/-- The same for a run without a warning. -/
structure Looping (limit executions inferences : ℕ) (past : List BrainEvent) : Prop extends
    Within limit executions inferences past where
  unwarned : Unwarned past

section Within

variable {limit executions inferences : ℕ} {past : List BrainEvent} {event : BrainEvent}

theorem Within.snoc (within : Within limit executions inferences past) (follows : FinalEvent event)
    (asks : isInferring event = false) : Within limit executions inferences (past ++ [event]) where
  executions_eq := by
    have executes : isExecuting event = false := by
      cases event <;> first | rfl | exact follows.elim
    simpa [executes] using within.executions_eq
  inferences_eq := by simpa [asks] using within.inferences_eq
  executions_le := within.executions_le
  inferences_le := within.inferences_le
  final := within.final.snoc follows asks

theorem Looping.snoc (looping : Looping limit executions inferences past)
    (executes : isExecuting event = false) (asks : isInferring event = false)
    (warns : isWarning event = false) : Looping limit executions inferences (past ++ [event]) where
  executions_eq := by simpa [executes] using looping.executions_eq
  inferences_eq := by simpa [asks] using looping.inferences_eq
  executions_le := looping.executions_le
  inferences_le := looping.inferences_le
  final := finalCall_of_unwarned looping.unwarned
  unwarned := looping.unwarned.snoc warns

theorem Looping.ask (looping : Looping limit executions inferences past)
    (room : inferences ≤ limit) (input : ModelInput) :
    Looping limit executions (inferences + 1) (past ++ [.inferring input]) where
  executions_eq := by simpa [isExecuting] using looping.executions_eq
  inferences_eq := by simpa [isInferring] using looping.inferences_eq
  executions_le := looping.executions_le
  inferences_le := Nat.add_le_add_right room 1
  final := finalCall_of_unwarned looping.unwarned
  unwarned := looping.unwarned.snoc rfl

theorem Looping.execute (looping : Looping limit executions inferences past)
    (room : executions < limit) (calls : List ToolCall) :
    Looping limit (executions + 1) inferences (past ++ [.executing calls]) where
  executions_eq := by simpa [isExecuting] using looping.executions_eq
  inferences_eq := by simpa [isInferring] using looping.inferences_eq
  executions_le := room
  inferences_le := looping.inferences_le
  final := finalCall_of_unwarned looping.unwarned
  unwarned := looping.unwarned.snoc rfl

/-- The warning was the last event, up to events that may follow it. -/
structure Warned (limit executions inferences : ℕ) (past : List BrainEvent) : Prop extends
    Within limit executions inferences past where
  warned : ∃ warning ∈ past, isWarning warning = true
  unasked : (afterWarning past).countP isInferring = 0

theorem Looping.warn (looping : Looping limit executions inferences past)
    (warns : isWarning event = true) : Warned limit executions inferences (past ++ [event]) where
  executions_eq := by
    have executes : isExecuting event = false := by
      cases event <;> first | rfl | cases warns
    simpa [executes] using looping.executions_eq
  inferences_eq := by
    have asks : isInferring event = false := by
      cases event <;> first | rfl | cases warns
    simpa [asks] using looping.inferences_eq
  executions_le := looping.executions_le
  inferences_le := looping.inferences_le
  final := finalCall_of_unwarned looping.unwarned
  warned := ⟨event, List.mem_append_right _ (List.mem_singleton_self _), warns⟩
  unasked := by rw [afterWarning_of_unwarned looping.unwarned]; rfl

/-- A loop has ended: if a warning was emitted, the last question was asked. -/
structure Ended (limit executions inferences : ℕ) (past : List BrainEvent) : Prop extends
    Within limit executions inferences past where
  asked : (∃ warning ∈ past, isWarning warning = true) →
    (afterWarning past).countP isInferring = 1

theorem Looping.ended (looping : Looping limit executions inferences past) :
    Ended limit executions inferences past where
  toWithin := looping.toWithin
  asked := by
    rintro ⟨warning, member, warns⟩
    simp [looping.unwarned warning member] at warns

theorem Ended.snoc (ended : Ended limit executions inferences past) (follows : FinalEvent event)
    (asks : isInferring event = false) (warns : isWarning event = false) :
    Ended limit executions inferences (past ++ [event]) where
  toWithin := ended.toWithin.snoc follows asks
  asked := by
    rintro ⟨warning, member, found⟩
    rcases List.mem_append.mp member with before | last
    · rw [afterWarning_of_warned before found]
      simpa [asks] using ended.asked ⟨warning, before, found⟩
    · obtain rfl := List.mem_singleton.mp last
      rw [warns] at found
      cases found

theorem Warned.ask (warned : Warned limit executions inferences past) (room : inferences ≤ limit)
    {input : ModelInput} (bare : input.tools = []) :
    Ended limit executions (inferences + 1) (past ++ [.inferring input]) where
  executions_eq := by simpa [isExecuting] using warned.executions_eq
  inferences_eq := by simpa [isInferring] using warned.inferences_eq
  executions_le := warned.executions_le
  inferences_le := Nat.add_le_add_right room 1
  final := by
    obtain ⟨warning, member, warns⟩ := warned.warned
    rw [FinalCall, afterWarning_of_warned member warns]
    refine ⟨by simp [warned.unasked, isInferring], fun event member => ?_⟩
    rcases List.mem_append.mp member with before | last
    · exact warned.final.2 event before
    · obtain rfl := List.mem_singleton.mp last
      exact bare
  asked := by
    intro _
    obtain ⟨warning, member, warns⟩ := warned.warned
    rw [afterWarning_of_warned member warns]
    simp [warned.unasked, isInferring]

end Within

/-! ### Passes -/

section Triples

variable {brain : KelvinBrain} {req : AgentRunRequest} {limit executions inferences : ℕ}

def Bounded (limit : ℕ) (past : List BrainEvent) : Prop :=
  ∃ executions inferences, Within limit executions inferences past

theorem foldl_snoc {ε : Type} (journal past : List ε) :
    journal.foldl (fun past event => past ++ [event]) past = past ++ journal := by
  induction journal generalizing past with
  | nil => exact (List.append_nil past).symm
  | cons event rest ih => rw [List.foldl_cons, ih, List.append_assoc, List.singleton_append]

def boundsObserver (limit : ℕ) : Observer (List BrainEvent) BrainEvent :=
  ⟨fun past event => past ++ [event], Bounded limit, Bounded limit⟩

theorem safe_within : Safe (boundsObserver limit) (Within limit executions inferences) :=
  fun _ within => ⟨⟨_, _, within⟩, _, _, within⟩

theorem safe_looping : Safe (boundsObserver limit) (Looping limit executions inferences) :=
  fun _ looping => safe_within _ looping.toWithin

theorem safe_warned : Safe (boundsObserver limit) (Warned limit executions inferences) :=
  fun _ warned => safe_within _ warned.toWithin

theorem safe_ended : Safe (boundsObserver limit) (Ended limit executions inferences) :=
  fun _ ended => safe_within _ ended.toWithin

theorem followsWarning_of_replies {event : BrainEvent} (replies : Replies event) :
    FinalEvent event ∧ isExecuting event = false ∧ isInferring event = false ∧
      isWarning event = false := by
  unfold Replies at replies
  split at replies
  · exact ⟨trivial, rfl, rfl, rfl⟩
  · exact ⟨by rw [FinalEvent, replies]; nofun, rfl, rfl, rfl⟩
  · exact replies.elim

theorem triple_looping_executeToolCalls (calls : List ToolCall) (room : executions < limit) :
    Triple (boundsObserver limit) (Looping limit executions inferences)
      (executeToolCalls brain req calls)
      fun _ => Looping limit (executions + 1) inferences := by
  apply triple_executeToolCalls safe_looping safe_looping (fun _ => safe_looping)
    fun _ => safe_looping.kept
  · exact fun _ looping => looping.execute room calls
  · apply triple_of_logs (logs_executeEach calls) _ safe_looping
    intro past event looping carriesOut
    unfold CarriesOut at carriesOut
    split at carriesOut
    · exact looping.snoc rfl rfl rfl
    · exact looping.snoc rfl rfl rfl
    · exact looping.snoc rfl rfl rfl
    · exact looping.snoc rfl rfl rfl
    · exact carriesOut.elim
  · exact fun results _ looping => looping.snoc rfl rfl rfl

theorem triple_looping_finalAnswer {turn : Turn} {reason : String} {payloads : List AgentPayload}
    {iteration : ℕ} (room : inferences ≤ limit) :
    Triple (boundsObserver limit) (Looping limit executions inferences)
      (finalAnswer brain req turn reason payloads iteration) fun loopEnd past =>
        loopEnd.toolIterations = iteration ∧ Ended limit executions (inferences + 1) past := by
  have warned : Safe (boundsObserver limit) (Warned limit executions inferences) := safe_warned
  apply triple_finalAnswer safe_looping.kept warned safe_ended
  · exact fun _ _ _ looping => looping.warn rfl
  · exact fun _ input warned bare => warned.ask room bare
  · intro past event ended replies
    obtain ⟨follows, _, asks, warns⟩ := followsWarning_of_replies replies
    exact ended.snoc follows asks warns

/-- A pass asks one question and carries out the calls of one answer, or ends the loop with at
most one more question. -/
theorem triple_within_iterate {turn : Turn} {maxIter : ℕ} {state : LoopState}
    (below : maxIter ≤ limit) (room : state.iteration < limit) :
    Triple (boundsObserver limit) (Looping limit state.iteration state.iteration)
      (iterate brain req turn maxIter state) fun pass => match pass with
        | .ends loopEnd => fun past => ∃ inferences,
          Ended limit loopEnd.toolIterations inferences past
        | .goesOn next => fun past =>
          Looping limit next.iteration next.iteration past ∧
            next.iteration = state.iteration + 1 ∧ next.iteration < limit
        | .panics => Bounded limit := by
  have asked : Safe (boundsObserver limit)
    (Looping limit state.iteration (state.iteration + 1)) := safe_looping
  apply triple_iterate safe_looping asked
  · exact fun _ input looping _ => looping.ask (Nat.le_of_lt room) input
  · intro past event looping replies
    obtain ⟨_, executes, asks, warns⟩ := followsWarning_of_replies replies
    exact looping.snoc executes asks warns
  · exact fun _ _ _ looping => ⟨_, looping.ended⟩
  · exact fun calls _ => triple_looping_executeToolCalls calls room
  · intro calls results
    apply triple_afterTools safe_looping.kept
    · intro reason payloads detection _ _
      apply (triple_looping_finalAnswer room).mono (fun _ => id)
      intro loopEnd past _ ⟨iterations, ended⟩
      exact ⟨_, iterations ▸ ended⟩
    · exact fun _ _ ⟨_, ended⟩ => safe_ended.kept _ ended
    · intro _ _ _ looping _ unforced
      exact ⟨looping, rfl, Nat.lt_of_lt_of_le (lt_of_forceReason unforced) below⟩
    · exact fun _ looping _ => ⟨_, _, looping.toWithin⟩

theorem triple_bounded_runInner (detector : ToolLoopDetector) :
    Triple (boundsObserver (max 1 (maxIterOf brain req)))
      (Looping (max 1 (maxIterOf brain req)) 0 0) (runInner brain req detector)
      fun finish => match finish with
        | .finished result => fun past => ∃ loopEnd : LoopEnd,
          result.agentMeta.toolIterations = loopEnd.toolIterations ∧ ∃ inferences,
            Ended (max 1 (maxIterOf brain req)) loopEnd.toolIterations inferences past
        | .panicked => Bounded (max 1 (maxIterOf brain req))
        | .unfinished => fun _ => False := by
  have safe : ∀ executions, Safe (boundsObserver (max 1 (maxIterOf brain req))) fun past =>
      ∃ inferences, Ended (max 1 (maxIterOf brain req)) executions inferences past :=
    fun _ past ⟨_, ended⟩ => safe_ended past ended
  apply triple_runInner
    (I := fun state => Looping (max 1 (maxIterOf brain req)) state.iteration state.iteration)
    (fun _ => safe _) (fun past bounded => ⟨bounded, bounded⟩) fun _ => (safe _).kept
  · apply triple_of_logs logs_prepare _ safe_looping
    intro past event looping setsUp
    unfold SetsUp at setsUp
    split at setsUp
    · exact looping.snoc rfl rfl rfl
    · exact looping.snoc rfl rfl rfl
    · exact setsUp.elim
  · exact fun _ _ room => triple_within_iterate (Nat.le_max_right 1 _) room
  · intro turn loopEnd
    apply triple_conclude (safe _) (safe _)
    exact fun _ _ _ ⟨_, ended⟩ => ⟨_, ended.snoc trivial rfl rfl⟩

end Triples

/-! ### The bounds -/

theorem bounded_of_runInner (brain : KelvinBrain) (req : AgentRunRequest)
    (detector : ToolLoopDetector) (calls : ℕ) :
    (∀ cut, Bounded (max 1 (maxIterOf brain req))
      ((runInner brain req detector calls).journal.take cut)) ∧
    (runInner brain req detector calls).result ≠ .ok .unfinished ∧
    ∀ result, (runInner brain req detector calls).result = .ok (.finished result) →
      ∃ inferences, Ended (max 1 (maxIterOf brain req)) result.agentMeta.toolIterations inferences
        (runInner brain req detector calls).journal := by
  have empty : Looping (max 1 (maxIterOf brain req)) 0 0 [] :=
    { executions_eq := rfl, inferences_eq := rfl, executions_le := Nat.zero_le _,
      inferences_le := Nat.zero_le _, final := ⟨Nat.zero_le _, nofun⟩, unwarned := nofun }
  have bounded := @triple_bounded_runInner brain req detector
  refine ⟨fun cut => ?_, bounded.of_ok empty, fun result finished => ?_⟩
  · have within := bounded.throughout calls empty cut
    rwa [boundsObserver, foldl_snoc, List.nil_append] at within
  · obtain ⟨loopEnd, iterations, inferences, ended⟩ := bounded.of_ok empty finished
    rw [boundsObserver, foldl_snoc, List.nil_append] at ended
    exact ⟨inferences, iterations ▸ ended⟩

/-! ### The forced question -/

section Forced

variable (brain : KelvinBrain) (detector : ToolLoopDetector) (limit : ℕ)

/-- What one more event makes of the detector and of what it says. -/
def recordDetection (state : ToolLoopDetector × Option LoopDetectionResult) :
    BrainEvent → ToolLoopDetector × Option LoopDetectionResult
  | .executed _ results => state.1.recordCall brain.toText (recordedCalls results)
  | _ => state

def detectionsOf (past : List BrainEvent) : ToolLoopDetector × Option LoopDetectionResult :=
  past.foldl (recordDetection brain) (detector, some .noIssue)

/-- The next question of a run is a forced one: the iterations are used up, or the detector has
found an issue. -/
def Forced (past : List BrainEvent) : Prop :=
  limit ≤ past.countP isExecuting ∨ (detectionsOf brain detector past).2 ≠ some .noIssue

def WarnsForced (past : List BrainEvent) : Prop :=
  ∀ before input rest, past = before ++ .inferring input :: rest →
    Forced brain detector limit before → ∃ warning ∈ before, isWarning warning = true

/-- A forced question comes after a warning and offers no tools, its answer is not carried out,
and it is the last one. -/
def ForcedLast (past : List BrainEvent) : Prop :=
  ∀ before input rest, past = before ++ .inferring input :: rest →
    Forced brain detector limit before →
      (∃ warning ∈ before, isWarning warning = true) ∧ input.tools = [] ∧
        rest.countP isInferring = 0 ∧ ∀ event ∈ rest, FinalEvent event

/-- So many iterations have been carried out, the detector is in this state and says this, and
every forced question so far came after a warning. -/
structure Reached (executions : ℕ) (seen : ToolLoopDetector × Option LoopDetectionResult)
    (past : List BrainEvent) : Prop where
  count : past.countP isExecuting = executions
  detected : detectionsOf brain detector past = seen
  warns : WarnsForced brain detector limit past

def forcedObserver : Observer (List BrainEvent) BrainEvent :=
  ⟨fun past event => past ++ [event], WarnsForced brain detector limit,
    WarnsForced brain detector limit⟩

variable {brain detector limit} {past : List BrainEvent} {event : BrainEvent}
  {req : AgentRunRequest} {state : LoopState} {executions : ℕ}
  {seen : ToolLoopDetector × Option LoopDetectionResult}

theorem noIssue_of_forceReason {maxIter iteration : ℕ} {detection : LoopDetectionResult}
    (unforced : forceReason maxIter iteration detection = none) : detection = .noIssue := by
  cases detection with
  | noIssue => rfl
  | suspectedLoop toolName repeatCount isAllErrors =>
    simp only [forceReason] at unforced
    split_ifs at unforced

theorem WarnsForced.forcedLast (warns : WarnsForced brain detector limit past)
    (final : FinalCall past) : ForcedLast brain detector limit past := by
  rintro before input rest rfl forced
  obtain ⟨warning, member, isIt⟩ := warns before input rest rfl forced
  have later : ∀ events, afterWarning (before ++ events) = afterWarning before ++ events := by
    intro events
    induction events using List.reverseRecOn with
    | nil => rw [List.append_nil, List.append_nil]
    | append_singleton events last ih =>
      rw [← List.append_assoc, afterWarning_of_warned (List.mem_append_left _ member) isIt, ih,
        List.append_assoc]
  obtain ⟨once, follows⟩ := final
  rw [later] at once follows
  rw [List.countP_append, List.countP_cons_of_pos rfl] at once
  refine ⟨⟨warning, member, isIt⟩, follows (.inferring input) (by simp), by omega, ?_⟩
  exact fun event found => follows event (by simp [found])

theorem WarnsForced.snoc (warns : WarnsForced brain detector limit past)
    (asks : isInferring event = true → Forced brain detector limit past →
      ∃ warning ∈ past, isWarning warning = true) :
    WarnsForced brain detector limit (past ++ [event]) := by
  intro before input rest split forced
  rcases List.eq_nil_or_concat rest with rfl | ⟨earlier, last, rfl⟩
  · obtain ⟨rfl, same⟩ := List.append_inj' split rfl
    obtain rfl := (List.cons.inj same).1
    exact asks rfl forced
  · rw [List.concat_eq_append, ← List.cons_append, ← List.append_assoc] at split
    obtain ⟨rfl, -⟩ := List.append_inj' split rfl
    exact warns before input earlier rfl forced

theorem detectionsOf_snoc :
    detectionsOf brain detector (past ++ [event]) =
      recordDetection brain (detectionsOf brain detector past) event := by
  rw [detectionsOf, List.foldl_append]
  rfl

theorem Reached.snoc (reached : Reached brain detector limit executions seen past)
    (executes : isExecuting event = false) (same : recordDetection brain seen event = seen)
    (asks : isInferring event = false) :
    Reached brain detector limit executions seen (past ++ [event]) where
  count := by simpa [executes] using reached.count
  detected := by rw [detectionsOf_snoc, reached.detected, same]
  warns := reached.warns.snoc fun asked => absurd (asked.symm.trans asks) (by decide)

theorem Reached.ask {now : ToolLoopDetector}
    (reached : Reached brain detector limit executions (now, some .noIssue) past)
    (below : executions < limit) (input : ModelInput) :
    Reached brain detector limit executions (now, some .noIssue)
      (past ++ [.inferring input]) where
  count := by simpa [isExecuting] using reached.count
  detected := by
    rw [detectionsOf_snoc, reached.detected]
    rfl
  warns := by
    refine reached.warns.snoc fun _ forced => ?_
    obtain full | issue := forced
    · exact absurd (reached.count ▸ full) (Nat.not_le.mpr below)
    · exact absurd (congrArg Prod.snd reached.detected) issue

theorem safe_reached : Safe (forcedObserver brain detector limit)
    (Reached brain detector limit executions seen) :=
  fun _ reached => ⟨reached.warns, reached.warns⟩

theorem safe_warnsForced : Safe (forcedObserver brain detector limit)
    (WarnsForced brain detector limit) := fun _ warns => ⟨warns, warns⟩

theorem triple_forced_executeToolCalls (calls : List ToolCall) :
    Triple (forcedObserver brain detector limit)
      (Reached brain detector limit state.iteration (state.detector, some .noIssue))
      (executeToolCalls brain req calls) fun results =>
        Reached brain detector limit (state.iteration + 1)
          (state.detector.recordCall brain.toText (recordedCalls results)) := by
  have within : Safe (forcedObserver brain detector limit)
      (Reached brain detector limit (state.iteration + 1) (state.detector, some .noIssue)) :=
    safe_reached
  apply triple_executeToolCalls safe_reached within (fun _ => safe_reached)
    fun _ => safe_reached.kept
  · exact fun past reached =>
      { count := by simpa [forcedObserver, isExecuting] using reached.count
        detected := by
          rw [forcedObserver, detectionsOf_snoc, reached.detected]
          rfl
        warns := reached.warns.snoc fun asked => by cases asked }
  · apply triple_of_logs (logs_executeEach calls) _ safe_reached
    intro past event reached carriesOut
    unfold CarriesOut at carriesOut
    split at carriesOut
    · exact reached.snoc rfl rfl rfl
    · exact reached.snoc rfl rfl rfl
    · exact reached.snoc rfl rfl rfl
    · exact reached.snoc rfl rfl rfl
    · exact carriesOut.elim
  · exact fun results past reached =>
      { count := by simpa [forcedObserver, isExecuting] using reached.count
        detected := by
          rw [forcedObserver, detectionsOf_snoc, reached.detected]
          rfl
        warns := reached.warns.snoc fun asked => by cases asked }

theorem triple_forced_finalAnswer {turn : Turn} {reason : String} {payloads : List AgentPayload}
    {iteration : ℕ} :
    Triple (forcedObserver brain detector limit) (WarnsForced brain detector limit)
      (finalAnswer brain req turn reason payloads iteration)
      fun _ => WarnsForced brain detector limit := by
  have warned : Safe (forcedObserver brain detector limit) fun past =>
      WarnsForced brain detector limit past ∧ ∃ warning ∈ past, isWarning warning = true :=
    fun _ holds => ⟨holds.1, holds.1⟩
  apply (triple_finalAnswer safe_warnsForced.kept warned safe_warnsForced _ _ _).mono
    (fun _ => id) fun _ _ _ => And.right
  · exact fun past seq tsMs warns => ⟨warns.snoc (fun asked => by cases asked), _,
      List.mem_append_right _ (List.mem_singleton_self _), rfl⟩
  · exact fun past input ⟨warns, found⟩ _ => warns.snoc fun _ _ => found
  · intro past event warns replies
    refine warns.snoc fun asked => ?_
    rw [(followsWarning_of_replies replies).2.2.1] at asked
    cases asked

theorem triple_forced_iterate {turn : Turn} {maxIter : ℕ} (below : maxIter ≤ limit)
    (room : state.iteration < limit) :
    Triple (forcedObserver brain detector limit)
      (Reached brain detector limit state.iteration (state.detector, some .noIssue))
      (iterate brain req turn maxIter state) fun pass => match pass with
        | .ends _ => WarnsForced brain detector limit
        | .goesOn next => fun past =>
          Reached brain detector limit next.iteration (next.detector, some .noIssue) past ∧
            next.iteration = state.iteration + 1 ∧ next.iteration < limit
        | .panics => WarnsForced brain detector limit := by
  apply triple_iterate safe_reached safe_reached
  · exact fun _ input reached _ => reached.ask room input
  · intro past event reached replies
    obtain ⟨_, executes, asks, _⟩ := followsWarning_of_replies replies
    refine reached.snoc executes ?_ asks
    cases event <;> first | rfl | exact replies.elim
  · exact fun _ _ _ reached => reached.warns
  · exact fun calls _ => triple_forced_executeToolCalls calls
  · intro calls results
    apply triple_afterTools safe_reached.kept
    · intro reason payloads detection _ _
      exact triple_forced_finalAnswer.mono (fun _ reached => reached.warns) fun _ _ _ => id
    · exact fun _ => safe_warnsForced.kept
    · intro past payloads detection reached detected unforced
      refine ⟨⟨reached.count, ?_, reached.warns⟩, rfl,
        Nat.lt_of_lt_of_le (lt_of_forceReason unforced) below⟩
      obtain rfl := noIssue_of_forceReason unforced
      rw [reached.detected]
      exact Prod.ext rfl detected
    · exact fun _ reached _ => reached.warns

/-- **Forced questions.** At every time of a run, each one so far came after a warning. -/
theorem warnsForced_of_runInner (brain : KelvinBrain) (req : AgentRunRequest)
    (detector : ToolLoopDetector) (calls cut : ℕ) :
    WarnsForced brain detector (max 1 (maxIterOf brain req))
      ((runInner brain req detector calls).journal.take cut) := by
  have triple : Triple (forcedObserver brain detector (max 1 (maxIterOf brain req)))
      (Reached brain detector (max 1 (maxIterOf brain req)) 0 (detector, some .noIssue))
      (runInner brain req detector) fun finish => match finish with
        | .finished result => fun past => ∃ loopEnd : LoopEnd,
          result.agentMeta.toolIterations = loopEnd.toolIterations ∧
            WarnsForced brain detector (max 1 (maxIterOf brain req)) past
        | .panicked => WarnsForced brain detector (max 1 (maxIterOf brain req))
        | .unfinished => fun _ => False := by
    apply triple_runInner (I := fun state => Reached brain detector
        (max 1 (maxIterOf brain req)) state.iteration (state.detector, some .noIssue))
      (fun _ => safe_warnsForced) safe_warnsForced fun _ => safe_warnsForced.kept
    · apply triple_of_logs logs_prepare _ safe_reached
      intro past event reached setsUp
      unfold SetsUp at setsUp
      split at setsUp
      · exact reached.snoc rfl rfl rfl
      · exact reached.snoc rfl rfl rfl
      · exact setsUp.elim
    · exact fun _ _ room => triple_forced_iterate (Nat.le_max_right 1 _) room
    · intro turn loopEnd
      apply triple_conclude safe_warnsForced safe_warnsForced
      exact fun _ _ _ warns => warns.snoc fun asked => by cases asked
  have start : Reached brain detector (max 1 (maxIterOf brain req)) 0 (detector, some .noIssue)
      [] := ⟨rfl, rfl, fun before input rest split => by simp at split⟩
  have within := triple.throughout calls start cut
  rwa [forcedObserver, foldl_snoc, List.nil_append] at within

end Forced

/-- **The bounds of a run.** In every run, up to any of its events, the calls of at most
`max 1 maxIter` answers are carried out, at most one more question is asked, and a forced question
is the last one, after a warning, without tools, and its answer is not carried out. The run does
not go on forever, and the iterations it reports are those whose calls were carried out. -/
theorem runInner_bounds (brain : KelvinBrain) (req : AgentRunRequest)
    (detector : ToolLoopDetector) (calls : ℕ) :
    let limit := max 1 (maxIterOf brain req)
    let outcome := runInner brain req detector calls
    (∀ cut, (outcome.journal.take cut).countP isExecuting ≤ limit ∧
      (outcome.journal.take cut).countP isInferring ≤ limit + 1 ∧
      FinalCall (outcome.journal.take cut) ∧
      ForcedLast brain detector limit (outcome.journal.take cut)) ∧
    outcome.result ≠ .ok .unfinished ∧
    ∀ result, outcome.result = .ok (.finished result) →
      result.agentMeta.toolIterations = outcome.journal.countP isExecuting := by
  intro limit outcome
  obtain ⟨always, finishes, atEnd⟩ := bounded_of_runInner brain req detector calls
  refine ⟨fun cut => ?_, finishes, fun result succeeded => ?_⟩
  · obtain ⟨executions, inferences, within⟩ := always cut
    exact ⟨within.executions_eq ▸ within.executions_le,
      within.inferences_eq ▸ within.inferences_le, within.final,
      (warnsForced_of_runInner brain req detector calls cut).forcedLast within.final⟩
  · obtain ⟨inferences, ended⟩ := atEnd result succeeded
    exact ended.executions_eq.symm

end KelvinClaw.Brain
