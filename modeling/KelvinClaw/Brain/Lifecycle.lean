import KelvinClaw.Brain.Bounds
import KelvinClaw.Library.Brackets

/-!
# The lifecycle events of a run

The events of a run are to be bracketed: it starts at most once and ends once, with its last
event, and each tool that starts ends before the next one does and before the run ends. The
exits of a tool call close its bracket, whatever the tool answers. Two things break it: a
timeout that drops the run while a tool is under way, since the report of the timeout ends the
run without an end of the tool, and a tool that is registered under another name than its own,
since the start of a call bears the name of the call and its end the name of the tool.
-/

namespace KelvinClaw.Brain

open KelvinClaw.Core KelvinClaw.Sdk Systems Systems.Action

/-! ### Bracketed runs -/

def startsRun : AgentEvent → Bool
  | ⟨_, .lifecycle _ .start _ _⟩ => true
  | _ => false

/-- The start of a tool opens a bracket under its name, its end or error closes one, and the end
or the error of the run ends the events. -/
def runBrackets : Brackets AgentEvent String where
  opens
    | ⟨_, .tool _ toolName .start _ _ _⟩ => some toolName
    | _ => none
  closes
    | ⟨_, .tool _ toolName .ended _ _ _⟩ | ⟨_, .tool _ toolName .error _ _ _⟩ => some toolName
    | _ => none
  ends
    | ⟨_, .lifecycle _ .ended _ _⟩ | ⟨_, .lifecycle _ .error _ _⟩ => true
    | _ => false

/-- A run starts at most once, it ends once and with its last event, and each tool that starts
ends once before the next one starts and before the run ends. -/
structure Bracketed (events : List AgentEvent) : Prop where
  starts : events.countP startsRun ≤ 1
  ends : runBrackets.Ends events
  tools : runBrackets.Matched events

def BrainEvent.emitted? : BrainEvent → Option AgentEvent
  | .emitted event => some event
  | _ => none

def eventsOf (journal : List BrainEvent) : List AgentEvent := journal.filterMap BrainEvent.emitted?

/-- The journal stops between the start of a tool and its end. -/
def underWay (past : List BrainEvent) : Bool :=
  match past.getLast? with
  | some (.emitted event) => (runBrackets.opens event).isSome
  | some (.called _) => true
  | _ => false

section Events

variable {event : AgentEvent} {name : String}

theorem of_opens (opens : runBrackets.opens event = some name) :
    startsRun event = false ∧ runBrackets.closes event = none ∧
      runBrackets.ends event = false := by
  obtain ⟨seq, data⟩ := event
  cases data with
  | lifecycle => cases opens
  | assistant => cases opens
  | tool runId toolName phase =>
    cases phase with
    | start => exact ⟨rfl, rfl, rfl⟩
    | ended => cases opens
    | error => cases opens

theorem of_closes (closes : runBrackets.closes event = some name) :
    startsRun event = false ∧ runBrackets.opens event = none ∧
      runBrackets.ends event = false := by
  obtain ⟨seq, data⟩ := event
  cases data with
  | lifecycle => cases closes
  | assistant => cases closes
  | tool runId toolName phase =>
    cases phase with
    | start => cases closes
    | ended => exact ⟨rfl, rfl, rfl⟩
    | error => exact ⟨rfl, rfl, rfl⟩

theorem of_ends (ends : runBrackets.ends event = true) :
    startsRun event = false ∧ runBrackets.opens event = none ∧
      runBrackets.closes event = none := by
  obtain ⟨seq, data⟩ := event
  cases data with
  | lifecycle runId phase =>
    cases phase with
    | start => cases ends
    | ended => exact ⟨rfl, rfl, rfl⟩
    | error => exact ⟨rfl, rfl, rfl⟩
    | warning => cases ends
  | assistant => cases ends
  | tool => cases ends

end Events

section Journals

variable {past : List BrainEvent} {event : AgentEvent}

theorem eventsOf_append (journal : List BrainEvent) :
    eventsOf (past ++ journal) = eventsOf past ++ eventsOf journal := List.filterMap_append

@[simp] theorem eventsOf_snoc_emitted :
    eventsOf (past ++ [.emitted event]) = eventsOf past ++ [event] := eventsOf_append _

theorem eventsOf_snoc_of_none {other : BrainEvent} (silent : other.emitted? = none) :
    eventsOf (past ++ [other]) = eventsOf past := by
  rw [eventsOf_append, eventsOf, eventsOf, List.filterMap_cons_none silent, List.filterMap_nil,
    List.append_nil]

@[simp] theorem underWay_snoc_emitted :
    underWay (past ++ [.emitted event]) = (runBrackets.opens event).isSome := by
  rw [underWay, List.getLast?_concat]

@[simp] theorem underWay_snoc_called {call : ToolCall} :
    underWay (past ++ [.called call]) = true := by
  rw [underWay, List.getLast?_concat]

end Journals

/-! ### Names of tools -/

variable (brain : KelvinBrain)

def Named (call : ToolCall) : Prop :=
  ∀ tool, brain.tools.get call.name = some tool → tool.name = call.name

def AllNamed (journal : List BrainEvent) : Prop := ∀ call, .called call ∈ journal → Named brain call

section Names

variable {brain} {past : List BrainEvent}

theorem allNamed_snoc_called {call : ToolCall} :
    AllNamed brain (past ++ [.called call]) ↔ AllNamed brain past ∧ Named brain call := by
  simp only [AllNamed, List.mem_append, List.mem_singleton, or_imp, forall_and,
    BrainEvent.called.injEq, forall_eq]

theorem allNamed_snoc {event : BrainEvent} (other : ∀ call, event ≠ .called call) :
    AllNamed brain (past ++ [event]) ↔ AllNamed brain past := by
  constructor
  · exact fun named call called => named call (List.mem_append_left _ called)
  · intro named call called
    rcases List.mem_append.mp called with before | last
    · exact named call before
    · exact absurd (List.mem_singleton.mp last).symm (other call)

theorem allNamed_snoc_emitted {event : AgentEvent} :
    AllNamed brain (past ++ [.emitted event]) ↔ AllNamed brain past := allNamed_snoc fun _ => nofun

end Names

/-! ### Runs so far -/

/-- A run so far that has not ended and has no tool under way. -/
structure Steady (past : List BrainEvent) : Prop where
  starts : (eventsOf past).countP startsRun ≤ 1
  going : ∀ event ∈ eventsOf past, runBrackets.ends event = false
  idle : underWay past = false
  matched : runBrackets.Matched (eventsOf past) ↔ AllNamed brain past

def Opened (call : ToolCall) (past : List BrainEvent) : Prop :=
  ∃ before opening, past = before ++ [.emitted opening] ∧ Steady brain before ∧
    runBrackets.opens opening = some call.name

def Called (call : ToolCall) (past : List BrainEvent) : Prop :=
  ∃ before, past = before ++ [.called call] ∧ Opened brain call before

def Over (past : List BrainEvent) : Prop :=
  ∃ before last, past = before ++ [.emitted last] ∧ Steady brain before ∧
    runBrackets.ends last = true

/-- What a run so far may be. -/
inductive Sound (past : List BrainEvent) : Prop where
  | steady (steady : Steady brain past)
  | opened (call : ToolCall) (opened : Opened brain call past)
  | called (call : ToolCall) (called : Called brain call past)
  | finished (finished : Over brain past)

def Inert : BrainEvent → Prop
  | .emitted event => startsRun event = false ∧ runBrackets.opens event = none ∧
      runBrackets.closes event = none ∧ runBrackets.ends event = false
  | .called _ => False
  | _ => True

section Steps

variable {brain} {past : List BrainEvent} {call : ToolCall} {event : AgentEvent}

theorem steady_nil : Steady brain [] where
  starts := Nat.zero_le _
  going := nofun
  idle := rfl
  matched := by simp [eventsOf, Brackets.Matched, AllNamed]

theorem steady_start {seq tsMs : ℕ} {runId : String} :
    Steady brain [.emitted ⟨seq, .lifecycle runId .start none tsMs⟩] where
  starts := Nat.le_refl 1
  going := by
    intro event member
    obtain rfl := List.mem_singleton.mp member
    rfl
  idle := rfl
  matched := by simp [eventsOf, BrainEvent.emitted?, Brackets.Matched, AllNamed, runBrackets]

theorem Steady.pass {other : BrainEvent} (steady : Steady brain past)
    (silent : other.emitted? = none) (calls : ∀ call, other ≠ .called call) :
    Steady brain (past ++ [other]) where
  starts := by rw [eventsOf_snoc_of_none silent]; exact steady.starts
  going := by rw [eventsOf_snoc_of_none silent]; exact steady.going
  idle := by
    rw [underWay, List.getLast?_concat]
    cases other with
    | emitted event => cases silent
    | called call => exact absurd rfl (calls call)
    | _ => rfl
  matched := by rw [eventsOf_snoc_of_none silent, allNamed_snoc calls]; exact steady.matched

theorem Steady.snoc {other : BrainEvent} (steady : Steady brain past) (inert : Inert other) :
    Steady brain (past ++ [other]) := by
  cases other with
  | emitted event =>
    obtain ⟨starts, opens, closes, ends⟩ := inert
    refine ⟨?_, ?_, ?_, ?_⟩
    · simpa [List.countP_append, starts] using steady.starts
    · rw [eventsOf_snoc_emitted]
      intro e member
      rcases List.mem_append.mp member with before | last
      · exact steady.going e before
      · obtain rfl := List.mem_singleton.mp last
        exact ends
    · rw [underWay_snoc_emitted, opens]
      rfl
    · rw [eventsOf_snoc_emitted, Brackets.matched_snoc opens closes, allNamed_snoc_emitted]
      exact steady.matched
  | called call => exact inert.elim
  | _ => exact steady.pass rfl nofun

theorem Steady.open (steady : Steady brain past)
    (opens : runBrackets.opens event = some call.name) :
    Opened brain call (past ++ [.emitted event]) := ⟨past, event, rfl, steady, opens⟩

theorem Steady.end (steady : Steady brain past) (ends : runBrackets.ends event = true) :
    Over brain (past ++ [.emitted event]) := ⟨past, event, rfl, steady, ends⟩

theorem Steady.close {opening : AgentEvent} {name other : String} (steady : Steady brain past)
    (opens : runBrackets.opens opening = some name)
    (closes : runBrackets.closes event = some other) {journal : List BrainEvent}
    (events : eventsOf journal = eventsOf past ++ [opening])
    (named : AllNamed brain journal ↔ AllNamed brain past ∧ other = name) :
    Steady brain (journal ++ [.emitted event]) := by
  obtain ⟨startsOpening, _, endsOpening⟩ := of_opens opens
  obtain ⟨starts, still, goes⟩ := of_closes closes
  have both : eventsOf (journal ++ [.emitted event]) = eventsOf past ++ [opening, event] := by
    rw [eventsOf_snoc_emitted, events, List.append_assoc]
    rfl
  refine ⟨?_, ?_, ?_, ?_⟩
  · rw [both]
    simpa [List.countP_append, List.countP_cons, startsOpening, starts] using steady.starts
  · rw [both]
    intro e member
    rcases List.mem_append.mp member with before | last
    · exact steady.going e before
    · rcases List.mem_pair.mp last with rfl | rfl
      · exact endsOpening
      · exact goes
  · rw [underWay_snoc_emitted, still]
    rfl
  · rw [both, Brackets.matched_pair opens still closes goes, steady.matched,
      allNamed_snoc_emitted, named]

theorem Opened.close (opened : Opened brain call past)
    (closes : runBrackets.closes event = some call.name) :
    Steady brain (past ++ [.emitted event]) := by
  obtain ⟨before, opening, rfl, steady, opens⟩ := opened
  apply steady.close opens closes eventsOf_snoc_emitted
  rw [allNamed_snoc_emitted]
  simp

theorem Called.close {tool : Tool} (called : Called brain call past)
    (found : brain.tools.get call.name = some tool)
    (closes : runBrackets.closes event = some tool.name) :
    Steady brain (past ++ [.emitted event]) := by
  obtain ⟨_, rfl, before, opening, rfl, steady, opens⟩ := called
  apply steady.close opens closes
  · rw [eventsOf_snoc_of_none rfl, eventsOf_snoc_emitted]
  · rw [allNamed_snoc_called, allNamed_snoc_emitted, Named, found]
    simp

theorem inert_of_replies {other : BrainEvent} (replies : Replies other) : Inert other := by
  unfold Replies at replies
  split at replies
  · exact ⟨rfl, rfl, rfl, rfl⟩
  · trivial
  · exact replies.elim

end Steps

/-! ### The parts of a run -/

/-- The observer of the whole journal. A run fails only where no tool is under way. -/
def lifecycleObserver : Observer (List BrainEvent) BrainEvent :=
  ⟨fun past event => past ++ [event], Sound brain, Steady brain⟩

/-- A loop of a run between two passes. Its detector asks for repetition and so never panics. -/
def Looks (state : LoopState) (past : List BrainEvent) : Prop :=
  Steady brain past ∧ state.detector.repeatThreshold = toolLoopDetectorThreshold ∧
    ∃ history, state.detector.Tracks history

section Triples

variable {brain} {req : AgentRunRequest}

theorem safe_steady : Safe (lifecycleObserver brain) (Steady brain) :=
  fun _ steady => ⟨.steady steady, steady⟩

theorem triple_steady_receipt {toolName resultClass reason : String} {call : ToolCall}
    {startedToolAt : ℕ} {payload : Option (ToolCall × AgentPayload)} :
    Triple (lifecycleObserver brain) (Steady brain)
      (do emitToolReceipt brain req toolName call resultClass reason startedToolAt
          return payload)
      fun _ => Steady brain := by
  apply triple_bind (triple_emitToolReceipt safe_steady safe_steady fun _ _ steady =>
    steady.snoc trivial)
  exact fun _ => triple_pure fun _ steady => ⟨.steady steady, steady⟩

/-- **A tool call opens and closes a bracket**, whether there is a tool, it fails or it
returns. -/
theorem triple_steady_executeToolCall (accepts : Accepts brain) (call : ToolCall) :
    Triple (lifecycleObserver brain) (Steady brain) (executeToolCall brain req call)
      fun _ => Steady brain := by
  have opened : Kept (lifecycleObserver brain) (Opened brain call) :=
    fun _ opened => .opened call opened
  have called : Kept (lifecycleObserver brain) (Called brain call) :=
    fun _ called => .called call called
  have appends : ∀ {message : SessionMessage}, Triple (lifecycleObserver brain) (Steady brain)
      (appendMessage brain req message) fun _ => Steady brain :=
    triple_appendMessage safe_steady safe_steady fun _ steady => steady.snoc trivial
  apply triple_bind (triple_ask safe_steady.kept _)
  intro startedToolAt
  apply triple_bind (triple_emit_of_accepts accepts safe_steady.kept opened fun _ _ _ steady =>
    steady.open rfl)
  intro _
  cases found : brain.tools.get call.name with
  | none =>
    apply triple_bind (triple_emit_of_accepts accepts opened safe_steady.kept
      fun _ _ _ opened => opened.close rfl)
    exact fun _ => triple_steady_receipt
  | some tool =>
    apply triple_bind (R := fun _ => Called brain call)
    · apply triple_log opened
      exact fun past opened => ⟨.called call ⟨past, rfl, opened⟩, past, rfl, opened⟩
    intro _
    apply triple_bind (triple_ask called _)
    intro toolResult
    cases toolResult with
    | error err =>
      apply triple_bind (triple_emit_of_accepts accepts called safe_steady.kept
        fun _ _ _ called => called.close found rfl)
      intro _
      exact triple_bind appends fun _ => triple_steady_receipt
    | ok result =>
      apply triple_bind (triple_emit_of_accepts accepts called safe_steady.kept
        fun _ seq tsMs called => called.close found (by cases result.isError <;> rfl))
      intro _
      exact triple_bind appends fun _ => triple_steady_receipt

theorem triple_steady_executeEach (accepts : Accepts brain) (calls : List ToolCall) :
    Triple (lifecycleObserver brain) (Steady brain) (executeEach brain req calls)
      fun _ => Steady brain := by
  induction calls with
  | nil => exact triple_pure fun _ steady => ⟨.steady steady, steady⟩
  | cons call rest ih =>
    apply triple_bind (triple_steady_executeToolCall accepts call)
    intro _
    apply triple_bind ih
    exact fun _ => triple_pure fun _ steady => ⟨.steady steady, steady⟩

theorem triple_steady_executeToolCalls (accepts : Accepts brain) (calls : List ToolCall) :
    Triple (lifecycleObserver brain) (Steady brain) (executeToolCalls brain req calls)
      fun _ => Steady brain := by
  have each : List (ToolCall × AgentPayload) → Safe (lifecycleObserver brain) (Steady brain) :=
    fun _ => safe_steady
  apply triple_executeToolCalls safe_steady safe_steady each (fun _ => safe_steady.kept) _
    (triple_steady_executeEach accepts calls)
  · exact fun _ _ steady => steady.snoc trivial
  · exact fun _ steady => steady.snoc trivial

theorem triple_steady_finalAnswer {turn : Turn} {reason : String} {payloads : List AgentPayload}
    {iteration : ℕ} :
    Triple (lifecycleObserver brain) (Steady brain)
      (finalAnswer brain req turn reason payloads iteration) fun _ => Steady brain := by
  apply Triple.mono (triple_finalAnswer safe_steady.kept safe_steady safe_steady _ _ _)
    (fun _ => id) fun _ _ _ => And.right
  · exact fun _ _ _ steady => steady.snoc ⟨rfl, rfl, rfl, rfl⟩
  · exact fun _ _ steady _ => steady.snoc trivial
  · exact fun _ _ steady replies => steady.snoc (inert_of_replies replies)

theorem safe_looks {state : LoopState} : Safe (lifecycleObserver brain) (Looks brain state) :=
  fun past looks => safe_steady past looks.1

theorem Looks.snoc {state : LoopState} {past : List BrainEvent} {other : BrainEvent}
    (looks : Looks brain state past) (inert : Inert other) :
    Looks brain state (past ++ [other]) := ⟨looks.1.snoc inert, looks.2⟩

theorem triple_looks_executeToolCalls (accepts : Accepts brain) {state : LoopState}
    (calls : List ToolCall) :
    Triple (lifecycleObserver brain) (Looks brain state) (executeToolCalls brain req calls)
      fun _ => Looks brain state := by
  intro s past ⟨steady, detects⟩
  apply (triple_steady_executeToolCalls accepts calls s past steady).mono
  intro result t after _ reached
  cases result with
  | ok results => exact ⟨reached, detects⟩
  | error err => exact reached

theorem triple_looks_iterate (accepts : Accepts brain) {turn : Turn} {maxIter limit : ℕ}
    {state : LoopState} (below : maxIter ≤ limit) :
    Triple (lifecycleObserver brain) (Looks brain state)
      (iterate brain req turn maxIter state) fun pass => match pass with
        | .ends _ => Steady brain
        | .goesOn next => fun past =>
          Looks brain next past ∧ next.iteration = state.iteration + 1 ∧ next.iteration < limit
        | .panics => fun _ => False := by
  apply triple_iterate safe_looks safe_looks
  · exact fun _ _ looks _ => looks.snoc trivial
  · exact fun _ _ looks replies => looks.snoc (inert_of_replies replies)
  · exact fun _ _ _ looks => looks.1
  · exact fun calls _ => triple_looks_executeToolCalls accepts calls
  · intro calls results
    apply triple_afterTools safe_looks.kept
    · intro reason payloads _ _ _
      exact triple_steady_finalAnswer.mono (fun _ looks => looks.1) fun _ _ _ => id
    · exact fun _ => safe_steady.kept
    · intro past payloads detection ⟨steady, threshold, history, tracks⟩ _ unforced
      refine ⟨⟨steady, threshold, _, ToolLoopDetector.tracks_store tracks⟩, rfl, ?_⟩
      exact Nat.lt_of_lt_of_le (lt_of_forceReason unforced) below
    · intro past ⟨_, threshold, history, tracks⟩ panicked
      have several : 1 < state.detector.repeatThreshold := by rw [threshold]; decide
      exact ToolLoopDetector.recordCall_ne_none tracks several panicked

theorem triple_over_conclude (accepts : Accepts brain) {turn : Turn} {loopEnd : LoopEnd} :
    Triple (lifecycleObserver brain) (Steady brain) (conclude brain req turn loopEnd)
      fun result past => result.agentMeta.toolIterations = loopEnd.toolIterations ∧
        Over brain past := by
  have finished : Kept (lifecycleObserver brain) (Over brain) := fun _ => .finished
  apply triple_bind (triple_emit_of_accepts accepts safe_steady.kept finished fun _ _ _ steady =>
    steady.end rfl)
  intro _
  apply triple_bind (triple_ask finished _)
  exact fun _ => triple_pure fun _ ended => ⟨.finished ended, rfl, ended⟩

theorem triple_lifecycle_runInner (accepts : Accepts brain) :
    Triple (lifecycleObserver brain) (· = []) (runInner brain req .new)
      fun finish => match finish with
        | .finished result => fun past => ∃ loopEnd : LoopEnd,
          result.agentMeta.toolIterations = loopEnd.toolIterations ∧ Over brain past
        | .panicked => fun _ => False
        | .unfinished => fun _ => False := by
  have fresh : Safe (lifecycleObserver brain) (· = []) := by
    rintro _ rfl
    exact safe_steady _ steady_nil
  have finished : LoopEnd → Kept (lifecycleObserver brain) (Over brain) := fun _ _ => .finished
  apply triple_runInner (I := Looks brain) (fun _ => safe_steady) (fun _ => False.elim) finished
  · apply Triple.mono (triple_prepare fresh safe_steady _ _) (fun _ => id)
    · intro _ past _ steady
      exact ⟨steady, rfl, [], ToolLoopDetector.tracks_ofThreshold _⟩
    · rintro _ seq tsMs rfl
      exact steady_start
    · exact fun _ steady => steady.snoc trivial
  · exact fun _ _ _ => triple_looks_iterate accepts (Nat.le_max_right 1 _)
  · exact fun _ _ => triple_over_conclude accepts

end Triples

/-! ### Ends of a run -/

section Ends

variable {brain} {req : AgentRunRequest} {cut calls : ℕ} {past : List BrainEvent}

theorem Over.bracketed (finished : Over brain past) :
    Bracketed (eventsOf past) ↔ AllNamed brain past := by
  obtain ⟨before, last, rfl, steady, ends⟩ := finished
  obtain ⟨starts, opens, closes⟩ := of_ends ends
  rw [allNamed_snoc_emitted, ← steady.matched, ← Brackets.matched_snoc opens closes,
    ← eventsOf_snoc_emitted]
  constructor
  · exact Bracketed.tools
  · intro matched
    refine ⟨?_, ?_, matched⟩
    · simpa [List.countP_append, starts] using steady.starts
    · rw [eventsOf_snoc_emitted]
      exact Brackets.ends_snoc ends steady.going

theorem not_bracketed_of_open {opening last : AgentEvent} {name : String}
    {events : List AgentEvent} (opens : runBrackets.opens opening = some name)
    (ends : runBrackets.ends last = true) (under : eventsOf past = events ++ [opening]) :
    ¬ Bracketed (eventsOf (past ++ [.emitted last])) := by
  intro bracketed
  have matched := bracketed.tools
  rw [eventsOf_snoc_emitted, under, List.append_assoc] at matched
  exact Brackets.not_matched_open opens (of_ends ends).2.2 matched

/-- A run that an error ends is bracketed up to the names of its tools, unless a tool is under
way. -/
theorem Sound.bracketed (sound : Sound brain past) {last : AgentEvent}
    (ends : runBrackets.ends last = true)
    (going : ∀ event ∈ eventsOf past, runBrackets.ends event = false) :
    Bracketed (eventsOf (past ++ [.emitted last])) ↔
      underWay past = false ∧ AllNamed brain (past ++ [.emitted last]) := by
  cases sound with
  | steady steady =>
    rw [(steady.end ends).bracketed]
    simp [steady.idle]
  | opened call opened =>
    obtain ⟨before, opening, rfl, steady, opens⟩ := opened
    apply iff_of_false (not_bracketed_of_open opens ends eventsOf_snoc_emitted)
    rw [underWay_snoc_emitted, opens]
    exact fun idle => nomatch idle.1
  | called call called =>
    obtain ⟨_, rfl, before, opening, rfl, steady, opens⟩ := called
    have under : eventsOf (before ++ [.emitted opening] ++ [.called call]) =
        eventsOf before ++ [opening] := by
      rw [eventsOf_snoc_of_none rfl, eventsOf_snoc_emitted]
    apply iff_of_false (not_bracketed_of_open opens ends under)
    rw [underWay_snoc_called]
    exact fun idle => nomatch idle.1
  | finished finished =>
    obtain ⟨before, early, rfl, steady, ended⟩ := finished
    have still := going early (by simp)
    rw [ended] at still
    cases still

/-- How `run_inner` ends. -/
def Concluded (brain : KelvinBrain)
    (outcome : Outcome ℕ BrainEvent KelvinError (Finish AgentRunResult)) : Prop :=
  (∃ result, outcome.result = .ok (.finished result) ∧ Over brain outcome.journal) ∨
    ∃ err, outcome.result = .error err ∧ Steady brain outcome.journal

theorem sound_of_runInner (accepts : Accepts brain) (req : AgentRunRequest) (calls : ℕ) :
    (∀ cut, Sound brain ((runInner brain req .new calls).journal.take cut)) ∧
      Concluded brain (runInner brain req .new calls) := by
  have observed : Triple (lifecycleObserver brain) (· = []) (runInner brain req .new) _ :=
    triple_lifecycle_runInner accepts
  refine ⟨fun cut => ?_, ?_⟩
  · have sound := observed.throughout calls rfl cut
    rwa [lifecycleObserver, foldl_snoc, List.nil_append] at sound
  cases ran : (runInner brain req .new calls).result with
  | error err =>
    have steady := observed.of_error rfl ran
    rw [lifecycleObserver, foldl_snoc, List.nil_append] at steady
    exact .inr ⟨err, ran, steady⟩
  | ok finish =>
    have reached := observed.of_ok rfl ran
    rw [lifecycleObserver, foldl_snoc, List.nil_append] at reached
    cases finish with
    | finished result =>
      obtain ⟨_, _, finished⟩ := reached
      exact .inl ⟨result, ran, finished⟩
    | panicked => exact reached.elim
    | unfinished => exact reached.elim

theorem Concluded.going {outcome : Outcome ℕ BrainEvent KelvinError (Finish AgentRunResult)}
    (concluded : Concluded brain outcome) (early : cut < cuts outcome) :
    ∀ event ∈ eventsOf (outcome.journal.take cut), runBrackets.ends event = false := by
  have earlier : ∀ journal : List BrainEvent, Steady brain journal →
      ∀ event ∈ eventsOf (journal.take cut), runBrackets.ends event = false :=
    fun journal steady event member =>
      steady.going event (((List.take_sublist cut journal).filterMap _).subset member)
  rcases concluded with ⟨result, succeeded, finished⟩ | ⟨err, failed, steady⟩
  · obtain ⟨before, last, journal, steady, _⟩ := finished
    have short : cut ≤ before.length := by
      rw [cuts, succeeded] at early
      simp only [journal, List.length_append, List.length_singleton] at early
      omega
    rw [journal, List.take_append_of_le_length short]
    exact earlier before steady
  · exact earlier outcome.journal steady

/-- The journal of a run that its timeout does not cut and that no error ends. -/
theorem journal_run_of_ok {finish : Finish AgentRunResult}
    (finished : (withTimeout req.timeoutMs cut (runInner brain req .new) calls).result =
      .ok finish) :
    (run brain req cut calls).journal =
      (withTimeout req.timeoutMs cut (runInner brain req .new) calls).journal := by
  rw [run, bind_apply_ok (attempt_apply _ _)]
  simp only [finished]
  exact List.append_nil _

theorem journal_emit (brain : KelvinBrain) (data : ℕ → AgentEventData) (calls : ℕ) :
    ∃ seq tsMs, (emit brain data calls).journal = [.emitted ⟨seq, data tsMs⟩] := by
  refine ⟨brain.nextSeq calls, brain.nowMs (calls + 1), ?_⟩
  rw [emit, bind_apply_ok (ask_apply _ _), bind_apply_ok (ask_apply _ _),
    bind_apply_ok (log_apply _ _), bind_apply_ok (ask_apply _ _), journal_ofExcept]
  rfl

theorem journal_run_of_error {err : KelvinError}
    (failed : (withTimeout req.timeoutMs cut (runInner brain req .new) calls).result =
      .error err) :
    ∃ last, runBrackets.ends last = true ∧ (run brain req cut calls).journal =
      (withTimeout req.timeoutMs cut (runInner brain req .new) calls).journal ++
        [.emitted last] := by
  rw [run, bind_apply_ok (attempt_apply _ _)]
  simp only [failed]
  rw [bind_apply_ok (attempt_apply _ _)]
  obtain ⟨seq, tsMs, reported⟩ := journal_emit brain
    (.lifecycle req.runId .error (some err.toString))
    (withTimeout req.timeoutMs cut (runInner brain req .new) calls).state
  refine ⟨⟨seq, .lifecycle req.runId .error (some err.toString) tsMs⟩, rfl, ?_⟩
  rw [emitLifecycle, reported]
  rfl

end Ends

/-! ### Bracketed and cut runs -/

def CutsTool (brain : KelvinBrain) (req : AgentRunRequest) (cut calls : ℕ) : Prop :=
  let inner := runInner brain req .new calls
  req.timeoutMs.isSome ∧ cut < cuts inner ∧ underWay (inner.journal.take cut) = true

/-- **Bracketed runs.** When the event sink takes every event, the events of a run are bracketed
exactly when its timeout drops no tool that is under way and the tools that it calls are
registered under their own names. -/
theorem bracketed_iff (brain : KelvinBrain) (accepts : Accepts brain) (req : AgentRunRequest)
    (cut calls : ℕ) :
    Bracketed (eventsOf (run brain req cut calls).journal) ↔
      ¬ CutsTool brain req cut calls ∧ AllNamed brain (run brain req cut calls).journal := by
  obtain ⟨sound, concluded⟩ := sound_of_runInner accepts req calls
  by_cases timesOut : req.timeoutMs.isSome ∧ cut < cuts (runInner brain req .new calls)
  · obtain ⟨timed, early⟩ := timesOut
    obtain ⟨err, dropped, kept⟩ := withTimeout_of_early timed early
    obtain ⟨last, ends, journal⟩ := journal_run_of_error dropped
    rw [journal, kept, (sound cut).bracketed ends (concluded.going early), CutsTool]
    simp [timed, early]
  · have whole := withTimeout_of_late timesOut
    have uncut : ¬ CutsTool brain req cut calls :=
      fun ⟨timed, early, _⟩ => timesOut ⟨timed, early⟩
    rcases concluded with ⟨result, succeeded, finished⟩ | ⟨err, failed, steady⟩
    · rw [journal_run_of_ok (by rw [whole]; exact succeeded), whole, finished.bracketed]
      exact (and_iff_right uncut).symm
    · obtain ⟨last, ends, journal⟩ := journal_run_of_error (by rw [whole]; exact failed)
      rw [journal, whole, (steady.end ends).bracketed]
      exact (and_iff_right uncut).symm

/-- A model that looks at the clock before it answers. -/
def clockBrain : KelvinBrain :=
  calmBrain
    (fun _ input => .ok (if input.userPrompt = followUpPrompt then ⟨"noon", none, []⟩
      else ⟨"", none, [⟨"1", "clock", .obj []⟩]⟩))
    ⟨fun name => if name = "clock" then
        some ⟨"clock", "", .obj [], fun _ _ => .ok ⟨"12:00", none, none, false⟩⟩
      else none, ["clock"]⟩

/-- A run without a timeout is bracketed. -/
theorem untimed_run_bracketed :
    Bracketed (eventsOf (run clockBrain plainRequest 0 0).journal) := by
  have named : AllNamed clockBrain (run clockBrain plainRequest 0 0).journal := by
    intro call _ tool found
    by_cases clock : call.name = "clock"
    · rw [show clockBrain.tools.get call.name = _ from if_pos clock] at found
      rw [clock, ← Option.some_inj.mp found]
    · rw [show clockBrain.tools.get call.name = _ from if_neg clock] at found
      cases found
  have uncut : ¬ CutsTool clockBrain plainRequest 0 0 := by
    rintro ⟨timed, _⟩
    cases timed
  exact (bracketed_iff clockBrain (fun _ _ => rfl) plainRequest 0 0).mpr ⟨uncut, named⟩

def timedRequest : AgentRunRequest := { plainRequest with timeoutMs := some 30000 }

/-- A run whose timeout runs out while it waits for the clock reports no end of the tool. -/
theorem dropped_tool_unbracketed :
    ¬ ∀ brain, Accepts brain → ∀ req cut calls,
      Bracketed (eventsOf (run brain req cut calls).journal) := by
  intro bracketed
  have events : eventsOf (run clockBrain timedRequest 6 0).journal =
      [⟨1, .lifecycle "run-1" .start none 2⟩] ++
        [⟨11, .tool "run-1" "clock" .start (some "tool execution started") none 12⟩,
          ⟨30, .lifecycle "run-1" .error
            (some "timeout: agent run exceeded timeout of 30000ms") 31⟩] := by
    decide +kernel
  have whole := bracketed clockBrain (fun _ _ => rfl) timedRequest 6 0
  rw [events] at whole
  have opens : runBrackets.opens ⟨11, .tool "run-1" "clock" .start
      (some "tool execution started") none 12⟩ = some "clock" := rfl
  exact Brackets.not_matched_open opens rfl whole.tools

end KelvinClaw.Brain
