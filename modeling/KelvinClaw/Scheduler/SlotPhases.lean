import KelvinClaw.Scheduler.ExecuteSlot

/-!
# The phases of a slot

An execution marks its slot with phases of increasing stages, and no other execution marks it: the
claim that started it moved the schedule past the slot. So the phase of a slot only moves forward,
and a phase that ends the slot stays.

A slot that was submitted may end as `SubmitFailed`, when the wait for its outcome fails, and one
that is still claimed may end at once, when the mark of the submission was not saved.
-/

namespace KelvinClaw.Scheduler

open KelvinClaw.Core KelvinClaw.Sdk Systems Systems.ReadModifyWrite

variable {calendar : UtcCalendar}

/-! ### Marks -/

def Mutator.pair? : Mutator → Option (String × ℕ)
  | .markSlotSubmitted scheduleId slotAtMs _ | .markSlotSubmitFailed scheduleId slotAtMs _
  | .markSlotOutcome scheduleId slotAtMs _ _ _ _ | .markReplyResult scheduleId slotAtMs _ _ =>
    some (scheduleId, slotAtMs)
  | .addSchedule _ | .removeSchedule _ _ _ | .claimDueSlots _ _ => none

def Mutator.phase? : Mutator → Option ScheduleSlotPhase
  | .markSlotSubmitted _ _ _ => some .submitted
  | .markSlotSubmitFailed _ _ _ => some .submitFailed
  | .markSlotOutcome _ _ phase _ _ _ => some phase
  | .markReplyResult _ _ _ _ | .addSchedule _ | .removeSchedule _ _ _ | .claimDueSlots _ _ => none

/-- What a mark makes of a record. -/
inductive Marked : Mutator → ScheduleSlotRecord → ScheduleSlotRecord → Prop
  | submitted {scheduleId runId : String} {slotAtMs : ℕ} {slot : ScheduleSlotRecord} :
      Marked (.markSlotSubmitted scheduleId slotAtMs runId) slot
        { slot with phase := .submitted, runId := some runId }
  | submitFailed {scheduleId error : String} {slotAtMs nowMs : ℕ} {slot : ScheduleSlotRecord} :
      Marked (.markSlotSubmitFailed scheduleId slotAtMs error) slot
        { slot with
          phase := .submitFailed
          finishedAtMs := some nowMs
          error := some (truncate error schedulerSlotErrorTruncate) }
  | outcome {scheduleId runId : String} {slotAtMs nowMs : ℕ} {phase : ScheduleSlotPhase}
      {responsePreview error : Option String} {slot : ScheduleSlotRecord} :
      Marked (.markSlotOutcome scheduleId slotAtMs phase runId responsePreview error) slot
        { slot with
          phase, runId := some runId, finishedAtMs := some nowMs
          responsePreview := responsePreview.map (truncate · schedulerSlotPreviewTruncate)
          error := error.map (truncate · schedulerSlotErrorTruncate) }
  | replied {scheduleId : String} {slotAtMs : ℕ} {delivered : Bool} {error : Option String}
      {slot : ScheduleSlotRecord} {reply : Option ScheduleReplyDelivery} :
      Marked (.markReplyResult scheduleId slotAtMs delivered error) slot { slot with reply }

section Marks

variable {mutator : Mutator} {slot changed : ScheduleSlotRecord} {file : SchedulerState}
  {pair : String × ℕ}

theorem Marked.pair_eq (marked : Marked mutator slot changed) : changed.pair = slot.pair := by
  cases marked <;> rfl

theorem Marked.phase_eq {phase : ScheduleSlotPhase} (marked : Marked mutator slot changed)
    (marks : mutator.phase? = some phase) : changed.phase = phase := by
  cases marked with
  | replied => cases marks
  | _ => exact Option.some.inj marks

theorem Marked.eq_of_no_phase (marked : Marked mutator slot changed)
    (marks : mutator.phase? = none) : changed = { slot with reply := changed.reply } := by
  cases marked with
  | replied => rfl
  | _ => cases marks

theorem mem_updateFirst {scheduleId : String} {slotAtMs : ℕ}
    {mutate : ScheduleSlotRecord → ScheduleSlotRecord × ScheduleAuditEntry}
    {slots later : List ScheduleSlotRecord} {entry : ScheduleAuditEntry}
    (found : updateFirst scheduleId slotAtMs mutate slots = some (later, entry))
    (member : changed ∈ later) :
    changed ∈ slots ∨ ∃ slot ∈ slots, slot.pair = (scheduleId, slotAtMs) ∧
      changed = (mutate slot).1 := by
  induction slots generalizing later with
  | nil => cases found
  | cons slot rest ih =>
    rw [updateFirst] at found
    split_ifs at found with here
    · obtain ⟨rfl, -⟩ := Prod.mk.injEq .. ▸ Option.some.inj found
      rcases List.mem_cons.mp member with rfl | member
      · exact .inr ⟨slot, List.mem_cons_self, Prod.ext here.1 here.2, rfl⟩
      · exact .inl (List.mem_cons_of_mem _ member)
    · obtain ⟨⟨others, _⟩, updated, same⟩ := Option.map_eq_some_iff.mp found
      obtain ⟨rfl, rfl⟩ := Prod.mk.injEq .. ▸ same
      rcases List.mem_cons.mp member with rfl | member
      · exact .inl List.mem_cons_self
      · rcases ih updated member with old | ⟨slot, listed, found⟩
        · exact .inl (List.mem_cons_of_mem _ old)
        · exact .inr ⟨slot, List.mem_cons_of_mem _ listed, found⟩

theorem mem_slots_saveState {state : SchedulerState} (member : slot ∈ (saveState state).slots) :
    slot ∈ state.slots :=
  (List.perm_insertionSort _ _).mem_iff.mp ((keepLast_sublist _ _).mem member)

theorem nodup_pairs_saveState {state : SchedulerState}
    (distinct : (state.slots.map (·.pair)).Nodup) :
    ((saveState state).slots.map (·.pair)).Nodup := by
  have sorted := ((List.perm_insertionSort ScheduleSlotRecord.Before state.slots).map
    (·.pair)).nodup_iff.mpr distinct
  exact sorted.sublist ((keepLast_sublist _ _).map _)

/-- What a mark makes of the file: it changes the record of its pair, or nothing. -/
structure MarkedFile (mutator : Mutator) (pair : String × ℕ) (file next : SchedulerState) :
    Prop where
  schedules : next.schedules = file.schedules
  pairs : next.slots.map (·.pair) = file.slots.map (·.pair)
  slots : ∀ changed ∈ next.slots, changed ∈ file.slots ∨
    ∃ slot ∈ file.slots, slot.pair = pair ∧ Marked mutator slot changed

theorem run_of_updateSlot {surroundings : CallSurroundings} {scheduleId : String} {slotAtMs : ℕ}
    {mutate : ScheduleSlotRecord → ScheduleSlotRecord × ScheduleAuditEntry}
    (loads : (store calendar).load ⟨mutator, surroundings.nowMs, surroundings.auditMs,
        surroundings.readError, surroundings.saveError.getD ""⟩ file =
      prepare (surroundings.saveError.getD "") .updated
        (withStateMut ⟨mutator, surroundings.nowMs, surroundings.auditMs, surroundings.readError,
          surroundings.saveError.getD ""⟩ file (updateSlot scheduleId slotAtMs mutate)))
    (marks : ∀ slot, Marked mutator slot (mutate slot).1) :
    (surroundings.run calendar mutator file).2 = file ∨
      ∃ next, (surroundings.run calendar mutator file).2 = saveState next ∧
        MarkedFile mutator (scheduleId, slotAtMs) file next := by
  rw [CallSurroundings.run, Protocol.alone, loads]
  generalize change_eq : withStateMut _ file (updateSlot scheduleId slotAtMs mutate) = change
  rcases change with e | ⟨_ | next, value⟩
  · exact .inl rfl
  · exact .inl rfl
  · cases surroundings.saveError with
    | some err => exact .inl rfl
    | none =>
      refine .inr ⟨next, rfl, ?_⟩
      have changed := withStateMut_eq_ok change_eq
      unfold updateSlot at changed
      split at changed
      · cases changed
      · next slots entry found =>
        obtain ⟨saved, -⟩ := Prod.mk.injEq .. ▸ Except.ok.inj changed
        obtain rfl := Option.some.inj saved
        refine ⟨rfl, ?_, fun changed member => ?_⟩
        · exact updateFirst_keys (fun slot => Prod.mk.injEq .. ▸ (marks slot).pair_eq) found
        · rcases mem_updateFirst found member with old | ⟨slot, listed, here, rfl⟩
          · exact .inl old
          · exact .inr ⟨slot, listed, here, marks slot⟩

theorem run_mark (surroundings : CallSurroundings) (asked : mutator.pair? = some pair) :
    (surroundings.run calendar mutator file).2 = file ∨
      ∃ next, (surroundings.run calendar mutator file).2 = saveState next ∧
        MarkedFile mutator pair file next := by
  cases mutator with
  | markSlotSubmitted scheduleId slotAtMs runId =>
    obtain rfl := Option.some.inj asked
    exact run_of_updateSlot rfl fun _ => .submitted
  | markSlotSubmitFailed scheduleId slotAtMs error =>
    obtain rfl := Option.some.inj asked
    exact run_of_updateSlot rfl fun _ => .submitFailed
  | markSlotOutcome scheduleId slotAtMs phase runId responsePreview error =>
    obtain rfl := Option.some.inj asked
    exact run_of_updateSlot rfl fun _ => .outcome
  | markReplyResult scheduleId slotAtMs delivered error =>
    obtain rfl := Option.some.inj asked
    exact run_of_updateSlot rfl fun _ => .replied
  | addSchedule | removeSchedule | claimDueSlots => cases asked

/-- A claim saves what it claims, or changes nothing and starts nothing. -/
theorem run_claim (surroundings : CallSurroundings) (nowMs maxPerSchedule : ℕ)
    (answers : ClaimedScheduleSlot → SlotAnswers) :
    (startExecutions answers
        (surroundings.run calendar (.claimDueSlots nowMs maxPerSchedule) file).1 = [] ∧
      (surroundings.run calendar (.claimDueSlots nowMs maxPerSchedule) file).2 = file) ∨
    ∃ next claimed, claimDueSlots calendar nowMs maxPerSchedule file = .ok (some next, claimed) ∧
      surroundings.run calendar (.claimDueSlots nowMs maxPerSchedule) file =
        (.claimed (.ok claimed), saveState next) := by
  have loads : (store calendar).load ⟨.claimDueSlots nowMs maxPerSchedule, surroundings.nowMs,
        surroundings.auditMs, surroundings.readError, surroundings.saveError.getD ""⟩ file =
      prepare (surroundings.saveError.getD "") .claimed
        (withStateMut ⟨.claimDueSlots nowMs maxPerSchedule, surroundings.nowMs,
          surroundings.auditMs, surroundings.readError, surroundings.saveError.getD ""⟩ file
          (claimDueSlots calendar nowMs maxPerSchedule)) := rfl
  rw [CallSurroundings.run, Protocol.alone, loads]
  generalize change_eq : withStateMut _ file (claimDueSlots calendar nowMs maxPerSchedule) = change
  rcases change with e | ⟨_ | next, claimed⟩
  · exact .inl ⟨rfl, rfl⟩
  · have nothing := (saved_of_claimDueSlots (withStateMut_eq_ok change_eq)).mp rfl
    rw [nothing]
    exact .inl ⟨rfl, rfl⟩
  · cases surroundings.saveError with
    | some err => exact .inl ⟨rfl, rfl⟩
    | none => exact .inr ⟨next, claimed, withStateMut_eq_ok change_eq, rfl⟩

end Marks

/-! ### The calls of an execution -/

def Mutator.stage? (mutator : Mutator) : Option ℕ := mutator.phase?.map (·.stage)

/-- Marks of one pair, with phases of increasing stages behind the claim. An outcome ends the
slot. -/
structure Ordered (pair : String × ℕ) (calls : List Mutator) : Prop where
  own : ∀ call ∈ calls, call.pair? = some pair
  positive : ∀ call ∈ calls, ∀ stage ∈ call.stage?, 0 < stage
  ends : ∀ call ∈ calls, ∀ scheduleId slotAtMs phase runId responsePreview error,
    call = .markSlotOutcome scheduleId slotAtMs phase runId responsePreview error → phase.Terminal
  rising : (calls.filterMap Mutator.stage?).Pairwise (· < ·)

section Executions

variable {pair : String × ℕ} {call : Mutator} {rest : List Mutator}

theorem Ordered.tail (ordered : Ordered pair (call :: rest)) : Ordered pair rest where
  own other member := ordered.own other (List.mem_cons_of_mem _ member)
  positive other member := ordered.positive other (List.mem_cons_of_mem _ member)
  ends other member := ordered.ends other (List.mem_cons_of_mem _ member)
  rising := ordered.rising.sublist ((List.sublist_cons_self _ _).filterMap _)

theorem Ordered.lt_of_mem_tail (ordered : Ordered pair (call :: rest)) {stage later : ℕ}
    (here : call.stage? = some stage) {other : Mutator} (member : other ∈ rest)
    (there : other.stage? = some later) : stage < later := by
  have rising := ordered.rising
  rw [List.filterMap_cons, here] at rising
  exact List.rel_of_pairwise_cons rising (List.mem_filterMap.mpr ⟨other, member, there⟩)

theorem deliverReply_eq (answers : SlotAnswers) (schedule : ScheduledTask) (slotAtMs : ℕ)
    (text : String) :
    deliverReply answers schedule slotAtMs text = [] ∨ ∃ delivered error,
      deliverReply answers schedule slotAtMs text =
        [.markReplyResult schedule.id slotAtMs delivered error] := by
  unfold deliverReply
  split
  · exact .inl rfl
  · split
    · exact .inr ⟨_, _, rfl⟩
    · exact .inr ⟨_, _, rfl⟩

theorem filterMap_stage_deliverReply (answers : SlotAnswers) (schedule : ScheduledTask)
    (slotAtMs : ℕ) (text : String) :
    (deliverReply answers schedule slotAtMs text).filterMap Mutator.stage? = [] := by
  rcases deliverReply_eq answers schedule slotAtMs text with none | ⟨delivered, error, one⟩
  · rw [none]
    rfl
  · rw [one]
    rfl

theorem Ordered.cons_deliverReply {answers : SlotAnswers} {schedule : ScheduledTask}
    {slotAtMs : ℕ} {text : String} {early : List Mutator}
    (ordered : Ordered (schedule.id, slotAtMs) early) :
    Ordered (schedule.id, slotAtMs) (early ++ deliverReply answers schedule slotAtMs text) := by
  rcases deliverReply_eq answers schedule slotAtMs text with none | ⟨delivered, error, one⟩
  · rwa [none, List.append_nil]
  · rw [one]
    refine ⟨?_, ?_, ?_, ?_⟩
    · exact List.forall_mem_append.mpr ⟨ordered.own, by simp [Mutator.pair?]⟩
    · exact List.forall_mem_append.mpr
        ⟨ordered.positive, by simp [Mutator.stage?, Mutator.phase?]⟩
    · exact List.forall_mem_append.mpr ⟨ordered.ends, by simp⟩
    · rw [List.filterMap_append]
      exact (List.append_nil (early.filterMap Mutator.stage?)).symm ▸ ordered.rising

theorem ordered_submitFailed (scheduleId error : String) (slotAtMs : ℕ) :
    Ordered (scheduleId, slotAtMs) [.markSlotSubmitFailed scheduleId slotAtMs error] where
  own := by simp [Mutator.pair?]
  positive := by simp [Mutator.stage?, Mutator.phase?, ScheduleSlotPhase.stage]
  ends := by simp
  rising := List.pairwise_singleton _ _

theorem ordered_outcome (scheduleId runId : String) (slotAtMs : ℕ) {phase : ScheduleSlotPhase}
    (terminal : phase.Terminal) (responsePreview error : Option String) :
    Ordered (scheduleId, slotAtMs)
      [.markSlotOutcome scheduleId slotAtMs phase runId responsePreview error] where
  own := by simp [Mutator.pair?]
  positive := by
    have ended : phase.stage = 2 := terminal
    simp [Mutator.stage?, Mutator.phase?, ended]
  ends := by
    rintro call here _ _ _ _ _ _ rfl
    obtain ⟨-, -, rfl, -⟩ := Mutator.markSlotOutcome.inj (List.mem_singleton.mp here)
    exact terminal
  rising := List.pairwise_singleton _ _

theorem ordered_submitted (scheduleId runId : String) (slotAtMs : ℕ) {calls : List Mutator}
    (ordered : Ordered (scheduleId, slotAtMs) calls)
    (later : ∀ stage ∈ calls.filterMap Mutator.stage?, 1 < stage) :
    Ordered (scheduleId, slotAtMs) (.markSlotSubmitted scheduleId slotAtMs runId :: calls) where
  own := List.forall_mem_cons.mpr ⟨rfl, ordered.own⟩
  positive := List.forall_mem_cons.mpr
    ⟨by simp [Mutator.stage?, Mutator.phase?, ScheduleSlotPhase.stage], ordered.positive⟩
  ends := List.forall_mem_cons.mpr ⟨by simp, ordered.ends⟩
  rising := List.pairwise_cons.mpr ⟨later, ordered.rising⟩

/-- The calls of an execution are ordered, whatever it is answered. -/
theorem ordered_executeSlot (answers : SlotAnswers) (claimed : ClaimedScheduleSlot) :
    Ordered (claimed.schedule.id, claimed.slotAtMs) (executeSlot answers claimed) := by
  have ended {runId text : String} {phase : ScheduleSlotPhase} (terminal : phase.Terminal)
      {responsePreview error : Option String} :
      Ordered (claimed.schedule.id, claimed.slotAtMs)
        (.markSlotSubmitted claimed.schedule.id claimed.slotAtMs runId ::
          .markSlotOutcome claimed.schedule.id claimed.slotAtMs phase runId responsePreview error ::
          deliverReply answers claimed.schedule claimed.slotAtMs text) := by
    refine ordered_submitted _ _ _
      (ordered_outcome _ _ _ terminal _ _).cons_deliverReply fun stage member => ?_
    have ended : phase.stage = 2 := terminal
    rw [List.filterMap_cons, filterMap_stage_deliverReply] at member
    simp [Mutator.stage?, Mutator.phase?, ended] at member
    omega
  unfold executeSlot
  split
  · exact ordered_submitFailed _ _ _
  · dsimp only
    split
    · exact ended (show ScheduleSlotPhase.completed.Terminal from rfl)
    · exact ended (show ScheduleSlotPhase.failed.Terminal from rfl)
    · exact ended (show ScheduleSlotPhase.timeout.Terminal from rfl)
    · refine ordered_submitted _ _ _ (ordered_submitFailed _ _ _) fun stage member => ?_
      simp [Mutator.stage?, Mutator.phase?, ScheduleSlotPhase.stage] at member
      omega

end Executions

/-! ### The invariant -/

/-- What may become of a record: its phase moves to a later stage or stays, and once the slot has
ended only the reply is added. -/
structure Follows (slot later : ScheduleSlotRecord) : Prop where
  forward : later.phase = slot.phase ∨ slot.phase.stage < later.phase.stage
  kept : slot.phase.Terminal → later = { slot with reply := later.reply }

theorem Follows.refl (slot : ScheduleSlotRecord) : Follows slot slot := ⟨.inl rfl, fun _ => rfl⟩

theorem Follows.trans {slot later last : ScheduleSlotRecord} (first : Follows slot later)
    (second : Follows later last) : Follows slot last := by
  constructor
  · rcases first.forward with same | before
    · exact same ▸ second.forward
    · rcases second.forward with same | after
      · exact .inr (same ▸ before)
      · exact .inr (before.trans after)
  · intro terminal
    have kept := first.kept terminal
    have terminal' : later.phase.Terminal := by
      rw [kept]
      exact terminal
    have kept' := second.kept terminal'
    rw [kept] at kept'
    exact kept'

/-- What holds of the file and the executions. No schedule will be claimed at the slot of an
execution again, and the marks that are left move the records of its pair forward. -/
structure Invariant (calendar : UtcCalendar) (s : SchedulerRun) : Prop where
  sound : s.file.Sound calendar
  passed : ∀ execution ∈ s.executions, Passed execution.pair s.file.schedules
  distinct : (s.executions.map (·.pair)).Nodup
  ordered : ∀ execution ∈ s.executions, Ordered execution.pair execution.calls
  ahead : ∀ execution ∈ s.executions, ∀ call ∈ execution.calls, ∀ stage ∈ call.stage?,
    ∀ slot ∈ s.file.slots, slot.pair = execution.pair → slot.phase.stage < stage

section Steps

variable {s t : SchedulerRun} {slot later : ScheduleSlotRecord} {pair : String × ℕ}

theorem Sound.saveState {next : SchedulerState} (sound : next.Sound calendar) :
    (saveState next).Sound calendar where
  wellFormed := sound.wellFormed.saveState
  pairs := nodup_pairs_saveState sound.pairs
  finished slot member := sound.finished slot (mem_slots_saveState member)

theorem Marked.follows {call : Mutator} {calls : List Mutator} (marked : Marked call slot later)
    (ordered : Ordered pair (call :: calls))
    (ahead : ∀ stage ∈ call.stage?, slot.phase.stage < stage)
    (finished : slot.finishedAtMs.isSome ↔ slot.phase.Terminal) :
    Follows slot later ∧ (later.finishedAtMs.isSome ↔ later.phase.Terminal) := by
  have forward {phase : ScheduleSlotPhase} (marks : call.phase? = some phase) :
      slot.phase.stage < phase.stage :=
    ahead _ (by rw [Mutator.stage?, marks]; rfl)
  have follows {phase : ScheduleSlotPhase} (marks : call.phase? = some phase)
      (small : phase.stage ≤ 2) : Follows slot later := by
    refine ⟨.inr ?_, fun terminal => ?_⟩
    · rw [marked.phase_eq marks]
      exact forward marks
    · have before := forward marks
      have ended : slot.phase.stage = 2 := terminal
      omega
  cases marked with
  | submitted =>
    refine ⟨follows rfl (by decide), ?_⟩
    -- the slot was claimed, so that it has no end yet
    have before : slot.phase.stage < 1 := forward rfl
    have unfinished : ¬ slot.phase.Terminal := by
      unfold ScheduleSlotPhase.Terminal
      omega
    rw [finished]
    exact iff_of_false unfinished (show ¬ ScheduleSlotPhase.submitted.Terminal by decide)
  | submitFailed => exact ⟨follows rfl (by decide), iff_of_true rfl rfl⟩
  | outcome =>
    have terminal := ordered.ends _ List.mem_cons_self _ _ _ _ _ _ rfl
    exact ⟨follows rfl (le_of_eq terminal), iff_of_true rfl terminal⟩
  | replied => exact ⟨⟨.inl rfl, fun _ => rfl⟩, finished⟩

/-- The state of the records after a move: one that was not there before was claimed just now, and
its pair was not passed. -/
def Earlier (s : SchedulerRun) (later : ScheduleSlotRecord) : Prop :=
  (∃ slot ∈ s.file.slots, slot.pair = later.pair ∧ Follows slot later) ∨
    (¬ Recorded s.file.slots later.scheduleId later.slotAtMs ∧
      ¬ Passed later.pair s.file.schedules ∧ later.phase = .claimed)

theorem Passed.saveState {next : SchedulerState} (passed : Passed pair next.schedules) :
    Passed pair (saveState next).schedules :=
  fun task member => passed task ((mem_schedules_saveState _).mp member)

theorem Invariant.saveState {next : SchedulerState} {executions : List Execution}
    (inv : Invariant calendar ⟨next, executions⟩) :
    Invariant calendar ⟨saveState next, executions⟩ where
  sound := Sound.saveState inv.sound
  passed execution started := (inv.passed execution started).saveState
  distinct := inv.distinct
  ordered := inv.ordered
  ahead execution started call left stage stages slot member :=
    inv.ahead execution started call left stage stages slot (mem_slots_saveState member)

/-! ### Scans -/

section Scan

variable {next : SchedulerState} {claimed : List ClaimedScheduleSlot} {nowMs maxPerSchedule : ℕ}

def claimedPair (slot : ClaimedScheduleSlot) : String × ℕ := (slot.schedule.id, slot.slotAtMs)

theorem recorded_iff {slots : List ScheduleSlotRecord} :
    Recorded slots pair.1 pair.2 ↔ pair ∈ slots.map (·.pair) := by
  rw [List.mem_map]
  refine exists_congr fun slot => and_congr_right fun _ => ?_
  exact (@Prod.ext_iff _ _ slot.pair pair).symm

theorem effect_of_ran (ran : claimDueSlots calendar nowMs maxPerSchedule s.file =
      .ok (some next, claimed)) :
    Effect calendar ((Mutator.claimDueSlots nowMs maxPerSchedule).at nowMs) s.file next
      (.claimed (.ok claimed)) :=
  .claimed rfl ran

/-- What is recorded after a claim was recorded before, or was claimed. -/
theorem mem_slots_claimed (wellFormed : WellFormed calendar s.file.schedules)
    (ran : claimDueSlots calendar nowMs maxPerSchedule s.file = .ok (some next, claimed)) :
    later ∈ next.slots ↔ later ∈ s.file.slots ∨
      ∃ slot ∈ claimed, slot.schedule.claimRecord nowMs slot.slotAtMs = later := by
  rw [((claimDueSlots_spec wellFormed ran).2 next rfl).2, List.mem_append, List.mem_map]

theorem pairs_claimed (wellFormed : WellFormed calendar s.file.schedules)
    (ran : claimDueSlots calendar nowMs maxPerSchedule s.file = .ok (some next, claimed)) :
    next.slots.map (·.pair) = s.file.slots.map (·.pair) ++ claimed.map claimedPair := by
  rw [((claimDueSlots_spec wellFormed ran).2 next rfl).2, List.map_append, List.map_map]
  rfl

theorem sound_claimed (sound : s.file.Sound calendar)
    (ran : claimDueSlots calendar nowMs maxPerSchedule s.file = .ok (some next, claimed)) :
    next.Sound calendar where
  wellFormed := sound.wellFormed.effect (effect_of_ran ran)
  pairs := by
    rw [pairs_claimed sound.wellFormed ran]
    refine sound.pairs.append (nodup_of_claimed sound.wellFormed (effect_of_ran ran)) ?_
    intro pair old new
    obtain ⟨slot, member, rfl⟩ := List.mem_map.mp new
    exact (not_passed_of_returned sound.wellFormed (effect_of_ran ran) member).2
      (recorded_iff.mpr old)
  finished slot member := by
    rcases (mem_slots_claimed sound.wellFormed ran).mp member with old | ⟨_, _, rfl⟩
    · exact sound.finished slot old
    · exact iff_of_false Bool.false_ne_true (show ¬ ScheduleSlotPhase.claimed.Terminal by decide)

/-- A record after a claim is one from before, or was claimed at a pair that was not passed. -/
theorem earlier_of_claimed (wellFormed : WellFormed calendar s.file.schedules)
    (ran : claimDueSlots calendar nowMs maxPerSchedule s.file = .ok (some next, claimed))
    (member : later ∈ next.slots) : Earlier s later := by
  rcases (mem_slots_claimed wellFormed ran).mp member with old | ⟨slot, fresh, rfl⟩
  · exact .inl ⟨later, old, rfl, .refl later⟩
  · obtain ⟨new, unknown⟩ := not_passed_of_returned wellFormed (effect_of_ran ran) fresh
    exact .inr ⟨unknown, new, rfl⟩

theorem Passed.afterClaim (passed : Passed pair s.file.schedules)
    (wellFormed : WellFormed calendar s.file.schedules)
    (ran : claimDueSlots calendar nowMs maxPerSchedule s.file = .ok (some next, claimed)) :
    Passed pair next.schedules := by
  refine passed.effect wellFormed (effect_of_ran ran) true ?_
  rintro ⟨_, added, _⟩
  cases added

theorem Invariant.scan (inv : Invariant calendar s)
    (ran : claimDueSlots calendar nowMs maxPerSchedule s.file = .ok (some next, claimed))
    (answers : ClaimedScheduleSlot → SlotAnswers) :
    Invariant calendar ⟨next,
      s.executions ++ claimed.map fun slot => ⟨slot, executeSlot (answers slot) slot⟩⟩ := by
  have wellFormed := inv.sound.wellFormed
  constructor
  · exact sound_claimed inv.sound ran
  · refine List.forall_mem_append.mpr ⟨fun execution started => ?_, List.forall_mem_map.mpr ?_⟩
    · exact (inv.passed execution started).afterClaim wellFormed ran
    · exact fun slot member => passed_of_returned wellFormed (effect_of_ran ran) member
  · rw [List.map_append, List.map_map]
    refine inv.distinct.append (nodup_of_claimed wellFormed (effect_of_ran ran)) ?_
    intro pair old new
    obtain ⟨execution, started, rfl⟩ := List.mem_map.mp old
    obtain ⟨slot, member, same⟩ := List.mem_map.mp new
    have passed := inv.passed execution started
    rw [← same] at passed
    exact (not_passed_of_returned wellFormed (effect_of_ran ran) member).1 passed
  · exact List.forall_mem_append.mpr
      ⟨inv.ordered, List.forall_mem_map.mpr fun slot _ => ordered_executeSlot (answers slot) slot⟩
  · refine List.forall_mem_append.mpr ⟨?_, List.forall_mem_map.mpr ?_⟩
    · intro execution started call left stage stages later member same
      rcases (mem_slots_claimed wellFormed ran).mp member with
        old | ⟨slot, fresh, rfl⟩
      · exact inv.ahead execution started call left stage stages later old same
      · have passed := inv.passed execution started
        rw [← same] at passed
        exact absurd passed (not_passed_of_returned wellFormed (effect_of_ran ran) fresh).1
    · intro slot fresh call left stage stages later member same
      rcases (mem_slots_claimed wellFormed ran).mp member with
        old | ⟨_, _, rfl⟩
      · have known := recorded_iff.mpr (List.mem_map.mpr ⟨later, old, same⟩)
        exact absurd known (not_passed_of_returned wellFormed (effect_of_ran ran) fresh).2
      · exact (ordered_executeSlot (answers slot) slot).positive call left stage stages

end Scan

/-! ### Marks of executions -/

section Mark

variable {position : ℕ} {claimed : ClaimedScheduleSlot} {call : Mutator} {rest : List Mutator}
  {next : SchedulerState}

/-- What a list with different keys holds after one entry is replaced. -/
theorem mem_set_of_nodup {α β : Type*} {entries : List α} {key : α → β} {a a' b : α} {n : ℕ}
    (distinct : (entries.map key).Nodup) (here : entries[n]? = some a)
    (member : b ∈ entries.set n a') : b = a' ∨ b ∈ entries ∧ key b ≠ key a := by
  obtain ⟨j, found⟩ := List.mem_iff_getElem?.mp member
  rw [List.getElem?_set] at found
  split_ifs at found with same inside
  · exact .inl (Option.some.inj found).symm
  · refine .inr ⟨List.mem_of_getElem? found, fun keys => same ?_⟩
    have at_n : (entries.map key)[n]? = some (key a) := by rw [List.getElem?_map, here]; rfl
    have at_j : (entries.map key)[j]? = some (key a) := by
      rw [List.getElem?_map, found, Option.map_some, keys]
    exact (List.getElem?_inj (List.getElem?_eq_some_iff.mp at_n).1 distinct).mp
      (at_n.trans at_j.symm)

theorem map_pair_set (here : s.executions[position]? = some ⟨claimed, call :: rest⟩) :
    (s.executions.set position ⟨claimed, rest⟩).map (·.pair) = s.executions.map (·.pair) := by
  refine List.ext_getElem? fun j => ?_
  rw [List.getElem?_map, List.getElem?_map, List.getElem?_set]
  split_ifs with same inside
  · rw [← same, here]
    rfl
  · exact absurd (List.getElem?_eq_some_iff.mp here).1 inside
  · rfl

theorem Invariant.ahead_marked (inv : Invariant calendar s)
    (here : s.executions[position]? = some ⟨claimed, call :: rest⟩)
    (marked : MarkedFile call (claimedPair claimed) s.file next) :
    ∀ execution ∈ s.executions.set position ⟨claimed, rest⟩, ∀ call ∈ execution.calls,
      ∀ stage ∈ call.stage?, ∀ slot ∈ next.slots, slot.pair = execution.pair →
        slot.phase.stage < stage := by
  have started := List.mem_of_getElem? here
  intro execution listed other left stage stages later member same
  rcases mem_set_of_nodup inv.distinct here listed with rfl | ⟨running, apart⟩
  · have before : ∀ slot ∈ s.file.slots, slot.pair = claimedPair claimed →
        slot.phase.stage < stage :=
      inv.ahead _ started other (List.mem_cons_of_mem _ left) stage stages
    rcases marked.slots later member with old | ⟨slot, old, pair_eq, marks⟩
    · exact before later old same
    · cases phase_eq : call.phase? with
      | none =>
        rw [marks.eq_of_no_phase phase_eq]
        exact before slot old pair_eq
      | some phase =>
        have moved : call.stage? = some later.phase.stage := by
          rw [Mutator.stage?, phase_eq, marks.phase_eq phase_eq]
          rfl
        exact (inv.ordered _ started).lt_of_mem_tail moved left stages
  · rcases marked.slots later member with old | ⟨slot, old, pair_eq, marks⟩
    · exact inv.ahead execution running other left stage stages later old same
    · exact absurd (same.symm.trans (marks.pair_eq.trans pair_eq)) apart

theorem Invariant.follows_marked (inv : Invariant calendar s)
    (here : s.executions[position]? = some ⟨claimed, call :: rest⟩)
    (marked : MarkedFile call (claimedPair claimed) s.file next) (member : later ∈ next.slots) :
    (∃ slot ∈ s.file.slots, slot.pair = later.pair ∧ Follows slot later) ∧
      (later.finishedAtMs.isSome ↔ later.phase.Terminal) := by
  have started := List.mem_of_getElem? here
  rcases marked.slots later member with old | ⟨slot, old, pair_eq, marks⟩
  · exact ⟨⟨later, old, rfl, .refl later⟩, inv.sound.finished later old⟩
  · have ahead : ∀ stage ∈ call.stage?, slot.phase.stage < stage := fun stage stages =>
      inv.ahead _ started call List.mem_cons_self stage stages slot old pair_eq
    obtain ⟨follows, finished⟩ :=
      marks.follows (inv.ordered _ started) ahead (inv.sound.finished slot old)
    exact ⟨⟨slot, old, marks.pair_eq.symm, follows⟩, finished⟩

theorem Invariant.mark (inv : Invariant calendar s)
    (here : s.executions[position]? = some ⟨claimed, call :: rest⟩)
    (marked : MarkedFile call (claimedPair claimed) s.file next) :
    Invariant calendar ⟨next, s.executions.set position ⟨claimed, rest⟩⟩ := by
  have started := List.mem_of_getElem? here
  have running : ∀ execution ∈ s.executions.set position ⟨claimed, rest⟩,
      execution = ⟨claimed, rest⟩ ∨ execution ∈ s.executions := fun execution member =>
    (List.mem_or_eq_of_mem_set member).symm
  constructor
  · refine ⟨?_, ?_, fun slot member => (inv.follows_marked here marked member).2⟩
    · rw [marked.schedules]
      exact inv.sound.wellFormed
    · rw [marked.pairs]
      exact inv.sound.pairs
  · intro execution member
    rw [marked.schedules]
    rcases running execution member with rfl | old
    · exact inv.passed ⟨claimed, call :: rest⟩ started
    · exact inv.passed execution old
  · rw [map_pair_set here]
    exact inv.distinct
  · intro execution member
    rcases running execution member with rfl | old
    · exact (inv.ordered _ started).tail
    · exact inv.ordered execution old
  · exact inv.ahead_marked here marked

theorem MarkedFile.refl (mutator : Mutator) (pair : String × ℕ) (file : SchedulerState) :
    MarkedFile mutator pair file file :=
  ⟨rfl, rfl, fun _ member => .inl member⟩

end Mark

/-! ### Runs -/

theorem step_scanOnce (nowMs maxClaimsPerSchedule : ℕ) (surroundings : CallSurroundings)
    (answers : ClaimedScheduleSlot → SlotAnswers) :
    s.step calendar (.scanOnce nowMs maxClaimsPerSchedule surroundings answers) =
      some ⟨(surroundings.run calendar (.claimDueSlots nowMs maxClaimsPerSchedule) s.file).2,
        s.executions ++ startExecutions answers
          (surroundings.run calendar (.claimDueSlots nowMs maxClaimsPerSchedule) s.file).1⟩ :=
  rfl

theorem of_step_mark {position : ℕ} {surroundings : CallSurroundings}
    (moves : s.step calendar (.mark position surroundings) = some t) :
    ∃ claimed call rest, s.executions[position]? = some ⟨claimed, call :: rest⟩ ∧
      t = ⟨(surroundings.run calendar call s.file).2,
        s.executions.set position ⟨claimed, rest⟩⟩ := by
  unfold SchedulerRun.step at moves
  dsimp only at moves
  split at moves
  · next claimed call rest here => exact ⟨claimed, call, rest, here, (Option.some.inj moves).symm⟩
  · cases moves
  · cases moves

/-- A move keeps the invariant, and every record after it is new or follows an earlier one. Slots
that were passed stay so. -/
theorem Invariant.step {move : SchedulerMove} (inv : Invariant calendar s)
    (moves : s.step calendar move = some t) :
    Invariant calendar t ∧ (∀ later ∈ t.file.slots, Earlier s later) ∧
      ∀ pair, Passed pair s.file.schedules → Passed pair t.file.schedules := by
  cases move with
  | scanOnce nowMs maxClaimsPerSchedule surroundings answers =>
    rw [step_scanOnce] at moves
    rcases @run_claim calendar s.file surroundings nowMs maxClaimsPerSchedule answers with
      ⟨none, same⟩ | ⟨next, claimed, ran, ends⟩
    · rw [none, same, List.append_nil] at moves
      obtain rfl : s = t := Option.some.inj moves
      exact ⟨inv, fun later member => .inl ⟨later, member, rfl, .refl later⟩, fun _ => id⟩
    · rw [ends] at moves
      obtain rfl := Option.some.inj moves
      refine ⟨(inv.scan ran answers).saveState, fun later member => ?_, fun pair passed => ?_⟩
      · exact earlier_of_claimed inv.sound.wellFormed ran (mem_slots_saveState member)
      · exact (passed.afterClaim inv.sound.wellFormed ran).saveState
  | mark position surroundings =>
    obtain ⟨claimed, call, rest, here, rfl⟩ := of_step_mark moves
    have own := (inv.ordered _ (List.mem_of_getElem? here)).own call List.mem_cons_self
    rcases @run_mark calendar call s.file _ surroundings own with same | ⟨next, ends, marked⟩
    · rw [same]
      refine ⟨inv.mark here (.refl _ _ _), fun later member => ?_, fun _ => id⟩
      exact .inl ⟨later, member, rfl, .refl later⟩
    · rw [ends]
      refine ⟨(inv.mark here marked).saveState, fun later member => ?_, fun pair passed => ?_⟩
      · exact .inl (inv.follows_marked here marked (mem_slots_saveState member)).1
      · exact Passed.saveState (marked.schedules ▸ passed)

end Steps

/-! ### Whole runs -/

section Runs

variable {s t : SchedulerRun}

theorem invariant_of_reachable (reached : (schedulerRuns calendar).Reachable s) :
    Invariant calendar s := by
  refine reached.invariant _ ?_ fun s move t inv _ moves => (inv.step moves).1
  rintro ⟨file, _⟩ ⟨sound, rfl⟩
  exact ⟨sound, List.forall_mem_nil _, List.nodup_nil, List.forall_mem_nil _, List.forall_mem_nil _⟩

theorem eq_of_pair {slots : List ScheduleSlotRecord} (distinct : (slots.map (·.pair)).Nodup)
    {slot other : ScheduleSlotRecord} (member : slot ∈ slots) (member' : other ∈ slots)
    (same : slot.pair = other.pair) : slot = other :=
  List.inj_on_of_nodup_map distinct member member' same

theorem follows_of_run (inv : Invariant calendar s) (run : (runsFrom calendar s).Reachable t)
    {slot : ScheduleSlotRecord} (member : slot ∈ s.file.slots)
    (passed : Passed slot.pair s.file.schedules) :
    ∀ later ∈ t.file.slots, later.pair = slot.pair → Follows slot later := by
  refine (run.invariant (fun t => Invariant calendar t ∧ Passed slot.pair t.file.schedules ∧
    ∀ later ∈ t.file.slots, later.pair = slot.pair → Follows slot later) ?_ ?_).2.2
  · rintro _ rfl
    refine ⟨inv, passed, fun later recorded same => ?_⟩
    obtain rfl := eq_of_pair inv.sound.pairs recorded member same
    exact .refl later
  · rintro t move u ⟨inv, passed, follows⟩ - moves
    obtain ⟨inv', earlier, stays⟩ := inv.step moves
    refine ⟨inv', stays _ passed, fun later recorded same => ?_⟩
    rcases earlier later recorded with ⟨middle, old, same', after⟩ | ⟨-, new, -⟩
    · exact (follows middle old (same'.trans same)).trans after
    · exact absurd (same ▸ passed) new

/-- **Phases move forward.** A slot has an end exactly when it has ended. A record follows the one
from before a move, in every state reached; a new one is claimed. The slots that executions were
started for were passed, and what is recorded for a slot that was passed follows what was recorded
before, over any run. -/
theorem slot_phases_move_forward (reached : (schedulerRuns calendar).Reachable s) :
    (∀ slot ∈ s.file.slots, slot.finishedAtMs.isSome ↔ slot.phase.Terminal) ∧
      (∀ move t, s.step calendar move = some t → ∀ later ∈ t.file.slots,
        (∀ slot ∈ s.file.slots, slot.pair = later.pair → Follows slot later) ∧
          (¬ Recorded s.file.slots later.scheduleId later.slotAtMs → later.phase = .claimed)) ∧
      (∀ execution ∈ s.executions, Passed execution.pair s.file.schedules) ∧
      ∀ t, (runsFrom calendar s).Reachable t → ∀ slot ∈ s.file.slots,
        Passed slot.pair s.file.schedules →
        ∀ later ∈ t.file.slots, later.pair = slot.pair → Follows slot later := by
  have inv := invariant_of_reachable reached
  refine ⟨inv.sound.finished, fun move t moves later recorded => ?_, inv.passed,
    fun t run slot member passed => follows_of_run inv run member passed⟩
  rcases (inv.step moves).2.1 later recorded with ⟨middle, old, same', after⟩ | ⟨unknown, -, new⟩
  · refine ⟨fun slot member same => ?_, fun unknown => ?_⟩
    · obtain rfl := eq_of_pair inv.sound.pairs member old (same.trans same'.symm)
      exact after
    · exact absurd (recorded_iff.mpr (List.mem_map.mpr ⟨middle, old, same'⟩)) unknown
  · refine ⟨fun slot member same => ?_, fun _ => new⟩
    exact absurd (recorded_iff.mpr (List.mem_map.mpr ⟨slot, member, same⟩)) unknown

end Runs

/-! ### A wait that fails -/

def calmAt (nowMs : ℕ) : CallSurroundings := ⟨nowMs, nowMs, none, none⟩

def lostOutcome : SlotAnswers where
  submit _ := .ok "schedule-a-60000"
  waitForOutcome _ _ := .error (.timeout "run wait timed out")
  deliverScheduledReply _ _ := .ok ()

def dueFile : SchedulerState := ⟨[everyMinuteTask "a"], [], []⟩

theorem sound_dueFile : dueFile.Sound gregorian := by
  refine ⟨⟨List.nodup_singleton _, ?_⟩, List.nodup_nil, List.forall_mem_nil _⟩
  intro task member
  obtain rfl := List.mem_singleton.mp member
  exact ⟨everyMinuteCron, parse_everyMinute, by decide, matches_everyMinuteCron (by decide)⟩

theorem exists_submitted : ∃ s, (schedulerRuns gregorian).Reachable s ∧
    s.file.slots.map (·.phase) = [.submitted] ∧
    (s.step gregorian (.mark 0 (calmAt 60000))).map (fun t => t.file.slots.map (·.phase)) =
      some [.submitFailed] := by
  have start : (schedulerRuns gregorian).Reachable ⟨dueFile, []⟩ := .init ⟨sound_dueFile, rfl⟩
  have ran : ((schedulerRuns gregorian).run? (fun _ _ => True) ⟨dueFile, []⟩
      [.scanOnce 60000 1 (calmAt 60000) fun _ => lostOutcome, .mark 0 (calmAt 60000)]).map
      (fun s => (s.file.slots.map (·.phase),
        (s.step gregorian (.mark 0 (calmAt 60000))).map fun t => t.file.slots.map (·.phase))) =
        some ([.submitted], some [.submitFailed]) := by
    decide +kernel
  obtain ⟨s, reached, seen⟩ := TransitionSystem.exists_of_run? start ran
  exact ⟨s, reached, (Prod.mk.inj seen).1, (Prod.mk.inj seen).2⟩

/-- A slot was submitted; whatever comes next, its record follows that. -/
theorem submitted_slot_follows : ∃ s, (schedulerRuns gregorian).Reachable s ∧
    s.file.slots.map (·.phase) = [.submitted] ∧
    ∀ move t, s.step gregorian move = some t → ∀ later ∈ t.file.slots, ∀ slot ∈ s.file.slots,
      slot.pair = later.pair → Follows slot later := by
  obtain ⟨s, reached, phases, -⟩ := exists_submitted
  obtain ⟨-, moves, -⟩ := slot_phases_move_forward reached
  refine ⟨s, reached, phases, fun move t moved later recorded => ?_⟩
  exact (moves move t moved later recorded).1

/-- A slot that was submitted is marked as one whose submission failed. -/
theorem submitted_slot_fails : ∃ s t, (schedulerRuns gregorian).Reachable s ∧
    s.step gregorian (.mark 0 (calmAt 60000)) = some t ∧
    s.file.slots.map (·.phase) = [.submitted] ∧ t.file.slots.map (·.phase) = [.submitFailed] := by
  obtain ⟨s, reached, submitted, failed⟩ := exists_submitted
  obtain ⟨t, moved, failed⟩ := Option.map_eq_some_iff.mp failed
  exact ⟨s, t, reached, moved, submitted, failed⟩

end KelvinClaw.Scheduler
