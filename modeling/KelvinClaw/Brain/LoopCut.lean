import KelvinClaw.Brain.Bounds

/-!
# Cutting tool loops

A model that asks for the same tool calls again and again is to be stopped: after as many
iterations as the threshold the run asks for a final answer. The detector does not see what the
model asked, but the calls that were answered with a payload. A tool that returns without a
visible text leaves its call out, and so hides a loop or makes one of iterations that differ.
-/

namespace KelvinClaw.Brain

open KelvinClaw.Core KelvinClaw.Sdk Systems Systems.Action ToolLoopDetector

/-! ### Iterations -/

def plainArguments : Value → Value
  | .obj members => .obj (members.filter fun member => member.1 ≠ "approval")
  | args => args

/-- An iteration of a run: the calls of the model, the payloads of those that were answered, and
whether a warning ended the loop with it. -/
structure Iteration where
  calls : List ToolCall
  results : List (ToolCall × AgentPayload)
  forced : Bool
  deriving DecidableEq, Repr

namespace Iteration

variable (iteration : Iteration)

def asked : List (String × Value) :=
  iteration.calls.map fun call => (call.name, plainArguments call.arguments)

def answered : List ToolCall := iteration.results.map Prod.fst

def printed (brain : KelvinBrain) : List (String × String) :=
  iteration.answered.map fun call => (call.name, brain.toText (plainArguments call.arguments))

def seen (brain : KelvinBrain) : Fingerprint :=
  fingerprint brain.toText (recordedCalls iteration.results)

theorem seen_eq_printed (brain : KelvinBrain) : iteration.seen brain = iteration.printed brain := by
  have same : ∀ args, withoutApproval args = plainArguments args := fun args => by
    cases args <;> rfl
  simp [seen, printed, answered, fingerprint, recordedCalls, canonicalArgs, same,
    Function.comp_def]

end Iteration

/-! ### Answers of tools -/

section Answers

variable (brain : KelvinBrain) (req : AgentRunRequest)

/-- A call, made at a time, has something to show: its tool is unknown, fails, or returns a
visible text. -/
def Shows (call : ToolCall) (time : ℕ) : Prop :=
  ∀ tool ∈ brain.tools.get call.name,
    ∀ result, tool.call time ⟨req.runId, req.sessionId, req.workspaceDir, call.arguments⟩ =
      .ok result → result.visibleText.isSome

/-- Of the calls, each made at some time, these have something to show. -/
inductive Shown : List ToolCall → List ToolCall → Prop
  | nil : Shown [] []
  | shows {call : ToolCall} {rest shown : List ToolCall} (time : ℕ)
      (shows : Shows brain req call time) (later : Shown rest shown) :
      Shown (call :: rest) (call :: shown)
  | silent {call : ToolCall} {rest shown : List ToolCall} (time : ℕ)
      (silent : ¬ Shows brain req call time) (later : Shown rest shown) : Shown (call :: rest) shown

variable {brain req}

theorem shows_of_executeToolCall {call : ToolCall} {payload : Option (ToolCall × AgentPayload)}
    {calls : ℕ} (ran : (executeToolCall brain req call calls).result = .ok payload) :
    ∃ time, (payload.map Prod.fst = some call ∧ Shows brain req call time) ∨
      payload = none ∧ ¬ Shows brain req call time := by
  obtain ⟨startedToolAt, -, ran⟩ := result_bind_ok.mp ran
  obtain ⟨_, -, ran⟩ := result_bind_ok.mp ran
  cases found : brain.tools.get call.name with
  | none =>
    rw [found] at ran
    obtain ⟨_, -, ran⟩ := result_bind_ok.mp ran
    obtain ⟨_, -, ran⟩ := result_bind_ok.mp ran
    obtain rfl := Except.ok.inj ran
    refine ⟨0, .inl ⟨rfl, fun tool registered => ?_⟩⟩
    rw [found] at registered
    cases registered
  | some tool =>
    rw [found] at ran
    obtain ⟨_, -, ran⟩ := result_bind_ok.mp ran
    obtain ⟨toolResult, called, ran⟩ := result_bind_ok.mp ran
    rw [ask_apply] at called
    generalize (log (BrainEvent.called call) _ : Outcome ℕ BrainEvent KelvinError PUnit).state =
      time at called
    have answers := Except.ok.inj called
    cases toolResult with
    | error err =>
      obtain ⟨_, -, ran⟩ := result_bind_ok.mp ran
      obtain ⟨_, -, ran⟩ := result_bind_ok.mp ran
      obtain ⟨_, -, ran⟩ := result_bind_ok.mp ran
      obtain rfl := Except.ok.inj ran
      refine ⟨time, .inl ⟨rfl, fun other registered result returned => ?_⟩⟩
      obtain rfl := Option.some_inj.mp (found.symm.trans registered)
      rw [answers] at returned
      cases returned
    | ok result =>
      obtain ⟨_, -, ran⟩ := result_bind_ok.mp ran
      obtain ⟨_, -, ran⟩ := result_bind_ok.mp ran
      obtain ⟨_, -, ran⟩ := result_bind_ok.mp ran
      obtain rfl := Except.ok.inj ran
      refine ⟨time, ?_⟩
      cases visible : result.visibleText with
      | some text =>
        refine .inl ⟨rfl, fun other registered shown returned => ?_⟩
        obtain rfl := Option.some_inj.mp (found.symm.trans registered)
        obtain rfl := Except.ok.inj (answers.symm.trans returned)
        exact visible ▸ rfl
      | none =>
        refine .inr ⟨rfl, fun shows => ?_⟩
        have hidden := shows tool found result answers
        rw [visible] at hidden
        cases hidden

theorem shown_of_executeEach {calls : List ToolCall} {results : List (ToolCall × AgentPayload)}
    {count : ℕ} (ran : (executeEach brain req calls count).result = .ok results) :
    Shown brain req calls (results.map Prod.fst) := by
  induction calls generalizing results count with
  | nil =>
    obtain rfl := Except.ok.inj ran
    exact .nil
  | cons call rest ih =>
    obtain ⟨payload, first, ran⟩ := result_bind_ok.mp ran
    obtain ⟨payloads, later, ran⟩ := result_bind_ok.mp ran
    obtain rfl := Except.ok.inj ran
    obtain ⟨time, ⟨made, shows⟩ | ⟨rfl, silent⟩⟩ := shows_of_executeToolCall first
    · obtain ⟨_, rfl, rfl⟩ := Option.map_eq_some_iff.mp made
      exact .shows time shows (ih later)
    · exact .silent time silent (ih later)

end Answers

def recordIteration (iterations : List Iteration) : BrainEvent → List Iteration
  | .executed calls results => ⟨calls, results, false⟩ :: iterations
  | .emitted ⟨_, .lifecycle _ .warning _ _⟩ =>
    match iterations with
    | [] => []
    | newest :: earlier => { newest with forced := true } :: earlier
  | _ => iterations

def iterationsOf (journal : List BrainEvent) : List Iteration := journal.foldl recordIteration []

/-- In the `k` newest iterations the model asked for the same calls. -/
def SameCalls (k : ℕ) : List Iteration → Prop
  | [] => False
  | newest :: earlier =>
    newest.calls ≠ [] ∧ k ≤ (newest :: earlier).length ∧
      ∀ other ∈ (newest :: earlier).take k, other.asked = newest.asked

theorem recordIteration_other {event : BrainEvent} (iterations : List Iteration)
    (other : Replies event ∨ SetsUp event ∨ CarriesOut event) :
    recordIteration iterations event = iterations := by
  cases event with
  | executed calls results => rcases other with no | no | no <;> exact no.elim
  | emitted event =>
    obtain ⟨seq, data⟩ := event
    cases data with
    | lifecycle runId phase message tsMs =>
      cases phase with
      | warning => rcases other with no | no | no <;> exact no.elim
      | _ => rfl
    | _ => rfl
  | _ => rfl

/-! ### What the detector decides -/

section Decisions

variable (brain : KelvinBrain) (req : AgentRunRequest) (k maxIter : ℕ)

/-- In the `k` newest iterations the same calls were answered, at least one each. -/
def AnsweredAlike : List Iteration → Prop
  | [] => False
  | newest :: earlier =>
    newest.answered ≠ [] ∧ k ≤ (newest :: earlier).length ∧
      ∀ other ∈ (newest :: earlier).take k, other.printed brain = newest.printed brain

/-- In the newest iterations of a run the same calls were answered, or the iterations are used
up. A threshold of one panics at an iteration that answers no call, whatever its number. -/
def Seen (iterations : List Iteration) : Prop :=
  (k ≠ 1 ∧ maxIter ≤ iterations.length) ∨ AnsweredAlike brain k iterations

theorem repeats_iff_answeredAlike (iterations : List Iteration) :
    Repeats k (iterations.map (·.seen brain)) ↔ AnsweredAlike brain k iterations := by
  cases iterations with
  | nil => exact Iff.rfl
  | cons newest earlier =>
    have empty : newest.printed brain = [] ↔ newest.answered = [] := List.map_eq_nil_iff
    have all : (∀ other ∈ ((newest :: earlier).map (·.printed brain)).take k,
        other = newest.printed brain) ↔
          ∀ other ∈ (newest :: earlier).take k, other.printed brain = newest.printed brain := by
      rw [← List.map_take, List.forall_mem_map]
    have same : (newest :: earlier).map (·.seen brain) =
        (newest :: earlier).map (·.printed brain) :=
      List.map_congr_left fun iteration _ => iteration.seen_eq_printed brain
    rw [same]
    exact and_congr (not_congr empty) (and_congr (by simp) all)

variable {brain k maxIter} in
theorem Seen.force {newest : Iteration} {earlier : List Iteration}
    (seen : Seen brain k maxIter (newest :: earlier)) :
    Seen brain k maxIter ({ newest with forced := true } :: earlier) := by
  refine seen.imp id fun alike => ?_
  have repeats : Repeats k (({ newest with forced := true } :: earlier).map (·.seen brain)) :=
    (repeats_iff_answeredAlike brain k (newest :: earlier)).mpr alike
  exact (repeats_iff_answeredAlike brain k _).mp repeats

/-- An iteration answered the calls that had something to show, and was the last of its run when
the newest iterations up to it answered alike or used up the iterations. -/
def Decided (iterations : List Iteration) : Prop :=
  ∀ newest earlier, newest :: earlier <:+ iterations →
    Shown brain req newest.calls newest.answered ∧
      (newest.forced = true ↔ Seen brain k maxIter (newest :: earlier))

/-- The loop between two passes. -/
structure Deciding (state : LoopState) (iterations : List Iteration) : Prop where
  decided : Decided brain req k maxIter iterations
  tracks : state.detector.Tracks (iterations.map (·.seen brain))
  count : state.iteration = iterations.length
  threshold : state.detector.repeatThreshold = k

def CarriedOut (state : LoopState) (calls : List ToolCall)
    (results : List (ToolCall × AgentPayload)) (iterations : List Iteration) : Prop :=
  ∃ earlier, iterations = ⟨calls, results, false⟩ :: earlier ∧
    Deciding brain req k maxIter state earlier ∧ Shown brain req calls (results.map Prod.fst)

def loopObserver : Observer (List Iteration) BrainEvent :=
  ⟨recordIteration, fun _ => True, Decided brain req k maxIter⟩

variable {brain req k maxIter} {state : LoopState} {calls : List ToolCall}
  {results : List (ToolCall × AgentPayload)} {earlier iterations : List Iteration}

theorem Decided.cons {newest : Iteration} (decided : Decided brain req k maxIter earlier)
    (shown : Shown brain req newest.calls newest.answered)
    (last : newest.forced = true ↔ Seen brain k maxIter (newest :: earlier)) :
    Decided brain req k maxIter (newest :: earlier) := by
  intro iteration before suffix
  rcases List.suffix_cons_iff.mp suffix with same | rest
  · obtain ⟨rfl, rfl⟩ := List.cons_eq_cons.mp same
    exact ⟨shown, last⟩
  · exact decided iteration before rest

theorem decided_nil : Decided brain req k maxIter [] :=
  fun _ _ suffix => absurd (List.suffix_nil.mp suffix) nofun

theorem Deciding.recorded (deciding : Deciding brain req k maxIter state earlier)
    (calls : List ToolCall) (results : List (ToolCall × AgentPayload)) :
    (state.detector.recordCall brain.toText (recordedCalls results)).1.Tracks
      ((⟨calls, results, false⟩ :: earlier : List Iteration).map (·.seen brain)) :=
  tracks_store deciding.tracks

section Detections

variable (deciding : Deciding brain req k maxIter state earlier) (positive : 0 < k)
include deciding positive

theorem not_seen_of_panic
    (panics : (state.detector.recordCall brain.toText (recordedCalls results)).2 = none) :
    ¬ Seen brain k maxIter (⟨calls, results, false⟩ :: earlier) := by
  have threshold := deciding.threshold
  subst threshold
  obtain ⟨one, empty⟩ :=
    (detection_eq_none_iff (deciding.recorded calls results) positive).mp panics
  rintro (⟨more, _⟩ | alike)
  · exact more one
  · exact ((repeats_iff_answeredAlike brain _ _).mpr alike).1 empty

theorem not_seen_of_unforced {detection : LoopDetectionResult}
    (detected :
      (state.detector.recordCall brain.toText (recordedCalls results)).2 = some detection)
    (unforced : forceReason maxIter (state.iteration + 1) detection = none) :
    ¬ Seen brain k maxIter (⟨calls, results, false⟩ :: earlier) := by
  have threshold := deciding.threshold
  subst threshold
  have below := lt_of_forceReason unforced
  cases detection with
  | suspectedLoop toolName repeatCount isAllErrors =>
    simp only [forceReason] at unforced
    split_ifs at unforced
  | noIssue =>
    obtain ⟨_, once⟩ :=
      (detection_eq_noIssue_iff (deciding.recorded calls results) positive).mp detected
    rintro (⟨_, spent⟩ | alike)
    · rw [deciding.count] at below
      exact absurd spent (Nat.not_le.mpr below)
    · exact once ((repeats_iff_answeredAlike brain _ _).mpr alike)

/-- An iteration after which the run goes for its final answer is seen to repeat, or the last. -/
theorem seen_of_forced {detection : LoopDetectionResult} {reason : String}
    (detected :
      (state.detector.recordCall brain.toText (recordedCalls results)).2 = some detection)
    (forced : forceReason maxIter (state.iteration + 1) detection = some reason) :
    Seen brain k maxIter (⟨calls, results, false⟩ :: earlier) := by
  have threshold := deciding.threshold
  subst threshold
  have sees := detection_eq_noIssue_iff (deciding.recorded calls results) positive
  have panics := detection_eq_none_iff (deciding.recorded calls results) positive
  cases detection with
  | noIssue =>
    simp only [forceReason] at forced
    split_ifs at forced with spent
    rw [deciding.count] at spent
    exact Or.inl ⟨(sees.mp detected).1, spent⟩
  | suspectedLoop toolName repeatCount isAllErrors =>
    refine Or.inr ((repeats_iff_answeredAlike brain _ _).mp (by_contra fun once => ?_))
    by_cases one : state.detector.repeatThreshold = 1
    · have empty : (⟨calls, results, false⟩ : Iteration).seen brain = [] := by
        by_contra some
        exact once ⟨some, by simp [one], by simp [one]⟩
      cases detected.symm.trans (panics.mpr ⟨one, empty⟩)
    · cases detected.symm.trans (sees.mpr ⟨one, once⟩)

end Detections

theorem safe_deciding :
    Safe (loopObserver brain req k maxIter) (Deciding brain req k maxIter state) :=
  fun _ deciding => ⟨trivial, deciding.decided⟩

theorem safe_decided : Safe (loopObserver brain req k maxIter) (Decided brain req k maxIter) :=
  fun _ decided => ⟨trivial, decided⟩

theorem kept_loop {pre : List Iteration → Prop} : Kept (loopObserver brain req k maxIter) pre :=
  fun _ _ => trivial

theorem triple_decided_finalAnswer {turn : Turn} {reason : String} {payloads : List AgentPayload}
    {iteration : ℕ} (seen : ∀ earlier, Deciding brain req k maxIter state earlier →
      Seen brain k maxIter (⟨calls, results, false⟩ :: earlier)) :
    Triple (loopObserver brain req k maxIter) (CarriedOut brain req k maxIter state calls results)
      (finalAnswer brain req turn reason payloads iteration)
      fun _ => Decided brain req k maxIter := by
  apply Triple.mono (triple_finalAnswer kept_loop safe_decided safe_decided _ _ _)
    (fun _ => id) fun _ _ _ => And.right
  · rintro iterations seq tsMs ⟨earlier, rfl, deciding, shown⟩
    exact deciding.decided.cons shown (iff_of_true rfl (seen earlier deciding).force)
  · exact fun _ _ decided _ => decided
  · intro iterations event decided replies
    have same : (loopObserver brain req k maxIter).record iterations event = iterations :=
      recordIteration_other iterations (Or.inl replies)
    rwa [same]

theorem triple_decided_iterate {turn : Turn} {limit : ℕ} (positive : 0 < k)
    (below : maxIter ≤ limit) :
    Triple (loopObserver brain req k maxIter) (Deciding brain req k maxIter state)
      (iterate brain req turn maxIter state) fun pass => match pass with
        | .ends _ => Decided brain req k maxIter
        | .goesOn next => fun iterations =>
          Deciding brain req k maxIter next iterations ∧ next.iteration = state.iteration + 1 ∧
            next.iteration < limit
        | .panics => Decided brain req k maxIter := by
  -- only carrying out calls adds an iteration, the other events of a pass leave the list as it is
  apply triple_iterate (E := CarriedOut brain req k maxIter state) safe_deciding safe_deciding
  · exact fun _ _ deciding _ => deciding
  · intro iterations event deciding replies
    have same : (loopObserver brain req k maxIter).record iterations event = iterations :=
      recordIteration_other iterations (Or.inl replies)
    rwa [same]
  · exact fun _ _ _ deciding => deciding.decided
  · intro calls _
    have logged : Triple (loopObserver brain req k maxIter)
        (Deciding brain req k maxIter state) (executeEach brain req calls)
        fun _ => Deciding brain req k maxIter state := by
      apply triple_of_logs (logs_executeEach calls) _ safe_deciding
      intro iterations event deciding carriesOut
      have same : (loopObserver brain req k maxIter).record iterations event = iterations :=
        recordIteration_other iterations (Or.inr (Or.inr carriesOut))
      rwa [same]
    apply triple_executeToolCalls safe_deciding safe_deciding
      (fun _ _ carried => safe_deciding _ carried.1) (fun _ => kept_loop)
      (fun _ deciding => deciding) (logged.and_result fun _ _ ran => shown_of_executeEach ran)
    exact fun results iterations carried => ⟨iterations, rfl, carried⟩
  · intro calls results
    apply triple_afterTools kept_loop
    · intro reason payloads detection detected forced
      exact triple_decided_finalAnswer fun earlier deciding =>
        seen_of_forced deciding positive detected forced
    · exact fun _ => kept_loop
    · rintro _ payloads detection ⟨earlier, rfl, deciding, shown⟩ detected unforced
      have unseen : ¬ Seen brain k maxIter (⟨calls, results, false⟩ :: earlier) :=
        not_seen_of_unforced deciding positive detected unforced
      refine ⟨?_, rfl, Nat.lt_of_lt_of_le (lt_of_forceReason unforced) below⟩
      exact
        { decided := deciding.decided.cons shown (iff_of_false (by simp) unseen)
          tracks := deciding.recorded calls results
          count := congrArg (· + 1) deciding.count
          threshold := deciding.threshold }
    · rintro _ ⟨earlier, rfl, deciding, shown⟩ panics
      exact deciding.decided.cons shown
        (iff_of_false (by simp) (not_seen_of_panic deciding positive panics))

theorem triple_decided_runInner (positive : 0 < k) :
    Triple (loopObserver brain req k (maxIterOf brain req))
      (Deciding brain req k (maxIterOf brain req) ⟨0, [], ofThreshold k⟩)
      (runInner brain req (ofThreshold k)) fun finish => match finish with
        | .finished result => fun iterations => ∃ loopEnd : LoopEnd,
          result.agentMeta.toolIterations = loopEnd.toolIterations ∧
            Decided brain req k (maxIterOf brain req) iterations
        | .panicked => Decided brain req k (maxIterOf brain req)
        | .unfinished => fun _ => False := by
  apply triple_runInner (I := Deciding brain req k (maxIterOf brain req)) (fun _ => safe_decided)
    safe_decided fun _ => safe_decided.kept
  · apply triple_of_logs logs_prepare _ safe_deciding
    intro iterations event deciding setsUp
    have same : (loopObserver brain req k (maxIterOf brain req)).record iterations event =
        iterations := recordIteration_other iterations (Or.inr (Or.inl setsUp))
    rwa [same]
  · exact fun _ _ _ => triple_decided_iterate positive (Nat.le_max_right 1 _)
  · exact fun _ _ => triple_conclude safe_decided safe_decided fun _ _ _ decided => decided

theorem decided_of_runInner (positive : 0 < k) (calls : ℕ) :
    Decided brain req k (maxIterOf brain req)
      (iterationsOf (runInner brain req (ofThreshold k) calls).journal) := by
  have start : Deciding brain req k (maxIterOf brain req) ⟨0, [], ofThreshold k⟩ [] :=
    { decided := decided_nil, tracks := tracks_ofThreshold k, count := rfl, threshold := rfl }
  have decides : Triple (loopObserver brain req k (maxIterOf brain req))
      (Deciding brain req k (maxIterOf brain req) ⟨0, [], ofThreshold k⟩)
      (runInner brain req (ofThreshold k)) _ := triple_decided_runInner positive
  cases ran : (runInner brain req (ofThreshold k) calls).result with
  | error err => exact decides.of_error start ran
  | ok finish =>
    have reached := decides.of_ok start ran
    cases finish with
    | finished result =>
      obtain ⟨_, _, decided⟩ := reached
      exact decided
    | panicked => exact reached
    | unfinished => exact reached.elim

end Decisions

/-! ### Loops that are cut -/

/-- The run goes for its final answer where the model has asked for the same calls in `k`
iterations: it warns, asks at most one more question, without tools, and carries out no more
calls. A run that finishes has asked it. -/
structure LoopsCut (brain : KelvinBrain) (req : AgentRunRequest) (k calls : ℕ) : Prop where
  forced : ∀ newest earlier,
    newest :: earlier <:+ iterationsOf (runInner brain req (ofThreshold k) calls).journal →
    SameCalls k (newest :: earlier) → newest.forced = true
  final : FinalCall (runInner brain req (ofThreshold k) calls).journal
  asked : ∀ result, (runInner brain req (ofThreshold k) calls).result = .ok (.finished result) →
    (∃ event ∈ (runInner brain req (ofThreshold k) calls).journal, isWarning event = true) →
    (afterWarning (runInner brain req (ofThreshold k) calls).journal).countP isInferring = 1

/-- **Tool loops.** For every threshold, a run answers the calls that have something to show, and
cuts the loops of the model exactly when these calls, up to the approval, repeat as well or the
iterations are used up. -/
theorem loopsCut_iff (brain : KelvinBrain) (req : AgentRunRequest) {k : ℕ} (positive : 1 ≤ k)
    (calls : ℕ) :
    (∀ iteration ∈ iterationsOf (runInner brain req (ofThreshold k) calls).journal,
        Shown brain req iteration.calls iteration.answered) ∧
      (LoopsCut brain req k calls ↔ ∀ newest earlier,
        newest :: earlier <:+ iterationsOf (runInner brain req (ofThreshold k) calls).journal →
        SameCalls k (newest :: earlier) →
        Seen brain k (maxIterOf brain req) (newest :: earlier)) := by
  have decided : Decided brain req k (maxIterOf brain req) _ := decided_of_runInner positive calls
  obtain ⟨always, -, atEnd⟩ := bounded_of_runInner brain req (ofThreshold k) calls
  constructor
  · intro iteration member
    obtain ⟨later, earlier, split⟩ := List.append_of_mem member
    exact (decided iteration earlier ⟨later, split.symm⟩).1
  constructor
  · intro cut newest earlier suffix same
    exact (decided newest earlier suffix).2.mp (cut.forced newest earlier suffix same)
  · intro seen
    refine ⟨fun newest earlier suffix same => ?_, ?_, fun result succeeded warned => ?_⟩
    · exact (decided newest earlier suffix).2.mpr (seen newest earlier suffix same)
    · obtain ⟨_, _, within⟩ := always (runInner brain req (ofThreshold k) calls).journal.length
      rw [List.take_length] at within
      exact within.final
    · obtain ⟨_, ended⟩ := atEnd result succeeded
      exact ended.asked warned

def pollCall : ToolCall := ⟨"1", "poll", .obj []⟩

def pollingBrain (visibleText : Option String) : KelvinBrain :=
  calmBrain
    (fun _ input => .ok (if input.tools = [] then ⟨"done", none, []⟩ else ⟨"", none, [pollCall]⟩))
    ⟨fun name => if name = "poll" then
        some ⟨"poll", "", .obj [], fun _ _ => .ok ⟨"ok", none, visibleText, false⟩⟩
      else none, ["poll"]⟩

/-- A loop of a tool with a visible text is cut at the threshold. -/
theorem visible_loop_cut : LoopsCut (pollingBrain (some "ok")) plainRequest 3 0 := by
  have polled : iterationsOf (runInner (pollingBrain (some "ok")) plainRequest (ofThreshold 3)
      0).journal =
      [⟨[pollCall], [(pollCall, ⟨"ok", false⟩)], true⟩,
        ⟨[pollCall], [(pollCall, ⟨"ok", false⟩)], false⟩,
        ⟨[pollCall], [(pollCall, ⟨"ok", false⟩)], false⟩] := by
    decide +kernel
  apply (loopsCut_iff (pollingBrain (some "ok")) plainRequest (by decide) 0).2.mpr
  intro newest earlier suffix same
  rw [polled] at suffix
  have whole := suffix.eq_of_length_le same.2.1
  rw [whole]
  exact Or.inr ⟨by decide, by decide, by decide⟩

/-- A loop of a tool without visible text goes on past the threshold. -/
theorem silent_tool_hides_loop :
    ¬ ∀ brain req k calls, 1 ≤ k → LoopsCut brain req k calls := by
  intro cut
  have polled : iterationsOf (runInner (pollingBrain none)
      { plainRequest with maxToolIterations := some 4 } (ofThreshold 3) 0).journal =
      [⟨[pollCall], [], true⟩, ⟨[pollCall], [], false⟩, ⟨[pollCall], [], false⟩,
        ⟨[pollCall], [], false⟩] := by
    decide +kernel
  have looped := cut (pollingBrain none) { plainRequest with maxToolIterations := some 4 } 3 0
    (by decide)
  have forced := looped.forced ⟨[pollCall], [], false⟩
    [⟨[pollCall], [], false⟩, ⟨[pollCall], [], false⟩] (polled ▸ List.suffix_cons _ _)
    ⟨by decide, by decide, by decide⟩
  cases forced

end KelvinClaw.Brain
