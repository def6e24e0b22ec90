import KelvinClaw.Scheduler.Effects

/-!
# Claimed slots over sequential runs

A slot of a schedule is a pair of its id and an instant. A claim moves the pointer of
the schedule past every slot it returns and records it. For a pair to be returned
again, the record has to be cut from the table by a save, and a schedule with the id
has to be added again that starts at or before the slot.
-/

namespace KelvinClaw.Scheduler

open KelvinClaw.Core Systems.ReadModifyWrite Protocol

variable {calendar : UtcCalendar}

def returned (done : Finished Call Reply) : List (String × ℕ) :=
  match done.reply with
  | .claimed (.ok slots) => slots.map fun slot => (slot.schedule.id, slot.slotAtMs)
  | _ => []

def Readds (done : Finished Call Reply) (pair : String × ℕ) : Prop :=
  ∃ task, done.reply = .task (.ok task) ∧ task.id = pair.1 ∧ task.nextSlotAtMs ≤ pair.2

/-- The save of a call run alone cuts the record of a pair from the slot table: the copy
to be saved has the record, the file afterwards does not. -/
def Cuts (calendar : UtcCalendar) (file : SchedulerState) (done : Finished Call Reply)
    (pair : String × ℕ) : Prop :=
  ∃ next, ((store calendar).alone done.call done.stored file).2 = saveState next ∧
    Recorded next.slots pair.1 pair.2 ∧ ¬ Recorded (saveState next).slots pair.1 pair.2

def LosesRecord (calendar : UtcCalendar) (file : SchedulerState)
    (log : List (Finished Call Reply)) (pair : String × ℕ) : Prop :=
  ∃ early done late, log = early ++ done :: late ∧
    Cuts calendar ((store calendar).serialState file early) done pair

def Passed (pair : String × ℕ) (schedules : List ScheduledTask) : Prop :=
  ∀ task ∈ schedules, task.id = pair.1 → pair.2 < task.nextSlotAtMs

section Steps

variable {call : Call} {file next : SchedulerState} {reply : Reply} {pair : String × ℕ}

/-- A pair stays passed unless a schedule with its id is added at or before it. -/
theorem Passed.effect (passed : Passed pair file.schedules)
    (wellFormed : WellFormed calendar file.schedules)
    (effect : Effect calendar call file next reply) (stored : Bool)
    (fresh : ¬ Readds ⟨call, stored, reply⟩ pair) : Passed pair next.schedules := by
  cases effect with
  | added _ _ _ schedules =>
    rw [schedules, Passed, List.forall_mem_append]
    refine ⟨passed, fun task member same => ?_⟩
    obtain rfl := List.mem_singleton.mp member
    exact not_le.mp fun early => fresh ⟨_, rfl, same, early⟩
  | removed _ schedules =>
    exact schedules ▸ fun task member => passed task (List.mem_of_mem_filter member)
  | claimed _ ran =>
    obtain ⟨_, saves⟩ := claimDueSlots_spec wellFormed ran
    intro later member same
    obtain ⟨task, found, moved⟩ := (saves _ rfl).1.exists_earlier member
    rw [moved.same, ScheduledTask.pointAt_id] at same
    exact (passed task found same).trans_le moved.forward
  | marked schedules => exact schedules ▸ passed

theorem passed_of_returned (wellFormed : WellFormed calendar file.schedules)
    {slots : List ClaimedScheduleSlot}
    (effect : Effect calendar call file next (.claimed (.ok slots)))
    {slot : ClaimedScheduleSlot} (member : slot ∈ slots) :
    Passed (slot.schedule.id, slot.slotAtMs) next.schedules := by
  cases effect with
  | claimed _ ran =>
    obtain ⟨rfl, saves⟩ := claimDueSlots_spec wellFormed ran
    obtain ⟨task, found, slotMs, fresh, rfl⟩ := mem_claimedSlots.mp member
    intro later mem same
    obtain ⟨source, mem', moved⟩ := (saves _ rfl).1.exists_earlier mem
    obtain rfl : source = task := wellFormed.eq_of_id mem' found (by
      rw [moved.same] at same
      exact same)
    exact moved.passes (wellFormed.pointers _ found) (List.mem_of_mem_filter fresh)

theorem lt_of_returned (wellFormed : WellFormed calendar file.schedules)
    {slots : List ClaimedScheduleSlot}
    (effect : Effect calendar call file next (.claimed (.ok slots))) {slot : ClaimedScheduleSlot}
    (member : slot ∈ slots) {earlierMs : ℕ}
    (passed : Passed (slot.schedule.id, earlierMs) file.schedules) : earlierMs < slot.slotAtMs := by
  cases effect with
  | claimed _ ran =>
    obtain ⟨rfl, _⟩ := claimDueSlots_spec wellFormed ran
    obtain ⟨task, found, slotMs, fresh, rfl⟩ := mem_claimedSlots.mp member
    obtain ⟨taken, -⟩ := List.mem_filter.mp fresh
    obtain ⟨_, _, due, _⟩ := ScheduledTask.mem_dueSlots.mp (List.mem_of_mem_take taken)
    exact (passed task found rfl).trans_le due

/-- A returned pair is a due slot without a record: no schedule has passed it. -/
theorem not_passed_of_returned (wellFormed : WellFormed calendar file.schedules)
    {slots : List ClaimedScheduleSlot}
    (effect : Effect calendar call file next (.claimed (.ok slots)))
    {slot : ClaimedScheduleSlot} (member : slot ∈ slots) :
    ¬ Passed (slot.schedule.id, slot.slotAtMs) file.schedules ∧
      ¬ Recorded file.slots slot.schedule.id slot.slotAtMs := by
  refine ⟨fun passed => (lt_of_returned wellFormed effect member passed).false, ?_⟩
  cases effect with
  | claimed _ ran =>
    obtain ⟨rfl, _⟩ := claimDueSlots_spec wellFormed ran
    obtain ⟨task, found, slotMs, fresh, rfl⟩ := mem_claimedSlots.mp member
    simpa using (List.mem_filter.mp fresh).2

theorem pairwise_of_claimed (wellFormed : WellFormed calendar file.schedules)
    {slots : List ClaimedScheduleSlot}
    (effect : Effect calendar call file next (.claimed (.ok slots))) :
    (slots.map fun slot => (slot.schedule.id, slot.slotAtMs)).Pairwise
      fun first second => first.1 = second.1 → first.2 < second.2 := by
  cases effect with
  | claimed _ ran =>
    obtain ⟨rfl, _⟩ := claimDueSlots_spec wellFormed ran
    rw [claimedSlots, List.map_flatMap, List.pairwise_flatMap]
    simp only [List.map_map]
    constructor
    · intro task _
      rw [List.pairwise_map]
      apply (ScheduledTask.pairwise_freshSlots file.slots).imp
      intro early late before _
      exact before
    · -- slots of different schedules have different ids
      have unique := wellFormed.uniqueIds
      rw [List.Nodup, List.pairwise_map] at unique
      refine unique.imp fun {first second} distinct => ?_
      intro early inFirst late inSecond same
      obtain ⟨_, _, rfl⟩ := List.mem_map.mp inFirst
      obtain ⟨_, _, rfl⟩ := List.mem_map.mp inSecond
      exact absurd same distinct

theorem nodup_of_claimed (wellFormed : WellFormed calendar file.schedules)
    {slots : List ClaimedScheduleSlot}
    (effect : Effect calendar call file next (.claimed (.ok slots))) :
    (slots.map fun slot => (slot.schedule.id, slot.slotAtMs)).Nodup := by
  refine (pairwise_of_claimed wellFormed effect).imp fun {first second} earlier same => ?_
  exact absurd (earlier (congrArg Prod.fst same)) (congrArg Prod.snd same).ge.not_gt

end Steps

/-! ### Sequential runs -/

section Runs

variable {file final : SchedulerState} {pair : String × ℕ}

/-- What holds of a returned pair at some point of the run after it was returned: it is
passed unless it was added again, and recorded unless its record was cut. -/
structure Spent (calendar : UtcCalendar) (start : SchedulerState)
    (log : List (Finished Call Reply)) (pair : String × ℕ) (file : SchedulerState) : Prop where
  passed : (∀ done ∈ log, ¬ Readds done pair) → Passed pair file.schedules
  recorded : ¬ LosesRecord calendar start log pair → Recorded file.slots pair.1 pair.2

theorem spent_snoc {start : SchedulerState} {log : List (Finished Call Reply)}
    {done : Finished Call Reply} (wellFormed : WellFormed calendar file.schedules)
    (replays : (store calendar).Replays start log file)
    (replied : done.reply = ((store calendar).alone done.call done.stored file).1)
    (spent : Spent calendar start log pair file) :
    Spent calendar start (log ++ [done]) pair
      ((store calendar).alone done.call done.stored file).2 := by
  have outcome := alone_outcome calendar done.call done.stored file
  constructor
  · intro fresh
    have passed := spent.passed fun earlier member => fresh earlier (List.mem_append_left _ member)
    have freshNow := fresh done (by simp)
    rw [Readds, replied] at freshNow
    generalize (store calendar).alone done.call done.stored file = result at outcome freshNow
    cases outcome with
    | saved effect =>
      exact fun task member => passed.effect wellFormed effect done.stored freshNow task
        ((mem_schedules_saveState _).mp member)
    | unchanged _ => exact passed
  · intro keeps
    have known := spent.recorded fun ⟨early, cutter, late, split, cut⟩ =>
      keeps ⟨early, cutter, late ++ [done], by simp [split], cut⟩
    by_contra lost
    refine keeps ⟨log, done, [], rfl, ?_⟩
    rw [replays.serialState_eq, Cuts]
    generalize (store calendar).alone done.call done.stored file = result at outcome lost
    cases outcome with
    | saved effect => exact ⟨_, rfl, effect.recorded wellFormed known, lost⟩
    | unchanged _ => exact absurd known lost

theorem spent_append {start : SchedulerState} {log more : List (Finished Call Reply)}
    (wellFormed : WellFormed calendar start.schedules)
    (replays : (store calendar).Replays start log file)
    (spent : Spent calendar start log pair file)
    (continues : (store calendar).Replays file more final) :
    Spent calendar start (log ++ more) pair final := by
  induction more generalizing log file with
  | nil =>
    obtain rfl : final = file := continues
    rwa [List.append_nil]
  | cons done more ih =>
    rw [← List.singleton_append, ← List.append_assoc]
    exact ih (replays.snoc continues.1 rfl)
      (spent_snoc (wellFormed.replays replays) replays continues.1 spent) continues.2

theorem effect_of_returned {done : Finished Call Reply}
    (replied : done.reply = ((store calendar).alone done.call done.stored file).1)
    (member : pair ∈ returned done) :
    ∃ next slots slot, Effect calendar done.call file next (.claimed (.ok slots)) ∧
      done.reply = .claimed (.ok slots) ∧ slot ∈ slots ∧
      pair = (slot.schedule.id, slot.slotAtMs) ∧
      ((store calendar).alone done.call done.stored file).2 = saveState next := by
  have outcome := alone_outcome calendar done.call done.stored file
  generalize (store calendar).alone done.call done.stored file = result at outcome replied
  unfold returned at member
  split at member
  · rename_i slots isClaim
    obtain ⟨slot, mem, rfl⟩ := List.mem_map.mp member
    cases outcome with
    | saved effect =>
      obtain rfl := replied.symm.trans isClaim
      exact ⟨_, slots, slot, effect, isClaim, mem, rfl, rfl⟩
    | unchanged quiet =>
      obtain rfl := replied.symm.trans isClaim
      rw [show slots = [] from quiet] at mem
      cases mem
  · cases member

/-- **A pair is claimed again only after a loss.** No claim returns a pair twice. When
two claims of a sequential run return the same pair, a call in between added a schedule
with its id that starts at or before the slot, and a save from the first claim on cut
the pair's record from the slot table. -/
theorem claimed_again {log : List (Finished Call Reply)}
    (replays : (store calendar).Replays .default log final) :
    (∀ done ∈ log, (returned done).Nodup) ∧
      ∀ before first middle second after pair,
        log = before ++ first :: (middle ++ second :: after) →
        pair ∈ returned first → pair ∈ returned second →
        (∃ done ∈ middle, Readds done pair) ∧
          LosesRecord calendar ((store calendar).serialState .default before)
            (first :: middle) pair := by
  constructor
  · intro done member
    obtain ⟨before, _, mid, _, earlier, replied, _⟩ := replays.exists_at member
    by_cases none : returned done = []
    · simp [none]
    · obtain ⟨pair, member⟩ := List.exists_mem_of_ne_nil _ none
      obtain ⟨_, slots, _, effect, isClaim, _⟩ := effect_of_returned replied member
      rw [returned, isClaim]
      exact nodup_of_claimed (wellFormed_default.replays earlier) effect
  · rintro before first middle second after pair rfl once again
    obtain ⟨mid, earlier, replied, later⟩ := replays_append.mp replays
    obtain ⟨mid', between, replied', _⟩ := replays_append.mp later
    have wellFormed := wellFormed_default.replays earlier
    obtain ⟨next, slots, slot, effect, isClaim, mem, rfl, saves⟩ := effect_of_returned replied once
    have start : Spent calendar mid [first] (slot.schedule.id, slot.slotAtMs)
        ((store calendar).alone first.call first.stored mid).2 := by
      refine ⟨fun _ => ?_, fun keeps => ?_⟩
      · rw [saves]
        exact fun task found => passed_of_returned wellFormed effect mem task
          ((mem_schedules_saveState _).mp found)
      · by_contra lost
        rw [saves] at lost
        exact keeps ⟨[], first, [], rfl, next, saves, effect.recorded_claimed wellFormed mem, lost⟩
    have single : (store calendar).Replays mid [first]
        ((store calendar).alone first.call first.stored mid).2 := ⟨replied, rfl⟩
    -- the first claim passes the slot and records it; what follows keeps both, or a loss has come
    have spent := spent_append wellFormed single start between
    obtain ⟨next', slots', slot', effect', _, mem', same, _⟩ := effect_of_returned replied' again
    obtain ⟨due, unknown⟩ := not_passed_of_returned
      ((wellFormed_alone _ _ wellFormed).replays between) effect' mem'
    rw [← same] at due
    obtain ⟨sameId, sameSlot⟩ := Prod.mk.injEq .. ▸ same
    rw [← sameId, ← sameSlot] at unknown
    constructor
    · by_contra none
      refine due (spent.passed fun done member readds => none ⟨done, ?_, readds⟩)
      rcases List.mem_cons.mp member with rfl | inside
      · obtain ⟨task, isTask, _⟩ := readds
        cases isClaim.symm.trans isTask
      · exact inside
    · rw [earlier.serialState_eq]
      by_contra keeps
      exact unknown (spent.recorded keeps)

end Runs

/-! ### A pair that is claimed twice -/

def claimAndRemove : List (Call × Bool) :=
  [.addSchedule (everyMinute "a"), .claimDueSlots 60000 1, .removeSchedule "a" "main" "approved",
    .addSchedule (everyMinute "b")].map fun mutator => (Mutator.at mutator 60000, true)

def afterRemoval (audit : List ScheduleAuditEntry) : SchedulerState :=
  ⟨[everyMinuteTask "b"], [(everyMinuteTask "a").claimRecord 60000 60000], audit⟩

/-- The time at which the schedule owes as many slots as the table holds. -/
def backlogMs : ℕ := maxSlotEntries * minuteMs

def backlog : List ℕ := (everyMinuteTask "b").dueSlots gregorian (minuteSlot backlogMs)

theorem length_backlog : backlog.length = maxSlotEntries := by
  rw [backlog, length_dueSlots_everyMinute rfl (by decide)]
  rfl

theorem claimed_backlog (audit : List ScheduleAuditEntry) :
    claimedSlots gregorian (afterRemoval audit).slots backlogMs maxSlotEntries
        (afterRemoval audit).schedules =
      backlog.map fun slotMs => ⟨(everyMinuteTask "b").pointAt slotMs, slotMs⟩ := by
  have fresh : (everyMinuteTask "b").freshSlots gregorian (afterRemoval audit).slots backlogMs
      (max maxSlotEntries 1) = backlog := by
    change (backlog.take (max maxSlotEntries 1)).filter _ = backlog
    rw [List.take_of_length_le (length_backlog.trans_le (le_max_left _ _)), List.filter_eq_self]
    intro slotMs _
    simp [Recorded, afterRemoval, ScheduledTask.claimRecord, everyMinuteTask]
  rw [claimedSlots, show (afterRemoval audit).schedules = [everyMinuteTask "b"] from rfl,
    List.flatMap_singleton, fresh]

theorem backlog_cuts {next : SchedulerState}
    (slots : next.slots = (everyMinuteTask "a").claimRecord 60000 60000 ::
      backlog.map ((everyMinuteTask "b").claimRecord backlogMs)) :
    ¬ Recorded (saveState next).slots "a" 60000 := by
  have sorted : next.slots.Pairwise ScheduleSlotRecord.Before := by
    rw [slots, List.pairwise_cons]
    constructor
    · rintro _ member
      obtain ⟨_, _, rfl⟩ := List.mem_map.mp member
      exact .inl (show "a" < "b" by decide)
    · exact ((everyMinuteTask "b").pairwise_dueSlots _ _).map _ fun _ _ less => .inr ⟨rfl, less.le⟩
  have kept : (saveState next).slots =
      backlog.map ((everyMinuteTask "b").claimRecord backlogMs) := by
    rw [saveState, sorted.insertionSort_eq, slots, keepLast, List.length_cons, List.length_map,
      length_backlog, if_pos (Nat.lt_succ_self _), Nat.add_sub_cancel_left]
    rfl
  rintro ⟨record, member, same, _⟩
  rw [kept] at member
  obtain ⟨_, _, rfl⟩ := List.mem_map.mp member
  exact absurd same (show "b" ≠ "a" by decide)

theorem wellFormed_afterRemoval (audit : List ScheduleAuditEntry) :
    WellFormed gregorian (afterRemoval audit).schedules :=
  ⟨by simp [afterRemoval], by
    simp only [afterRemoval, List.mem_singleton, forall_eq]
    exact ⟨everyMinuteCron, parse_everyMinute, by decide, matches_everyMinuteCron (by decide)⟩⟩

theorem claim_backlog (audit : List ScheduleAuditEntry) :
    ∃ next claimed, claimDueSlots gregorian backlogMs maxSlotEntries (afterRemoval audit) =
        .ok (some next, claimed) ∧
      (∀ task ∈ next.schedules, task.id = "b" ∧ task.cron = "* * * * *") ∧
      ¬ Recorded (saveState next).slots "a" 60000 := by
  have wellFormed := wellFormed_afterRemoval audit
  obtain ⟨⟨saved, claimed⟩, ran⟩ := (exists_claimDueSlots backlogMs maxSlotEntries
    wellFormed).mpr (by
      simp only [afterRemoval, List.mem_singleton, forall_eq]
      exact hasSuccessors_everyMinute rfl (by decide) _)
  obtain ⟨isClaimed, saves⟩ := claimDueSlots_spec wellFormed ran
  have some_saved : saved ≠ none := by
    rw [Ne, saved_of_claimDueSlots ran, isClaimed, claimed_backlog, List.map_eq_nil_iff,
      ← List.length_eq_zero_iff, length_backlog]
    decide
  obtain ⟨next, rfl⟩ := Option.ne_none_iff_exists'.mp some_saved
  obtain ⟨advanced, slots⟩ := saves next rfl
  refine ⟨next, claimed, ran, fun task member => ?_, backlog_cuts ?_⟩
  · obtain ⟨source, found, moved⟩ := advanced.exists_earlier member
    obtain rfl : source = everyMinuteTask "b" := by simpa [afterRemoval] using found
    rw [moved.same]
    exact ⟨rfl, rfl⟩
  · rw [slots, isClaimed, claimed_backlog, List.map_map]
    rfl

theorem claim_first_minute {file : SchedulerState}
    (wellFormed : WellFormed gregorian file.schedules)
    (everyMinute : ∀ task ∈ file.schedules, task.cron = "* * * * *")
    (stored : everyMinuteTask "a" ∈ file.schedules) (lost : ¬ Recorded file.slots "a" 60000) :
    ∃ next claimed, claimDueSlots gregorian 60000 1 file = .ok (some next, claimed) ∧
      ("a", 60000) ∈ claimed.map fun slot => (slot.schedule.id, slot.slotAtMs) := by
  obtain ⟨⟨saved, claimed⟩, ran⟩ := (exists_claimDueSlots 60000 1
    wellFormed).mpr fun task member =>
      hasSuccessors_everyMinute (everyMinute task member) (by decide) _
  have due : (everyMinuteTask "a").dueSlots gregorian (minuteSlot 60000) = [60000] := by
    decide +kernel
  have here : (⟨everyMinuteTask "a", 60000⟩ : ClaimedScheduleSlot) ∈ claimed := by
    rw [(claimDueSlots_spec wellFormed ran).1]
    refine mem_claimedSlots.mpr ⟨_, stored, 60000, List.mem_filter.mpr ⟨?_, ?_⟩, rfl⟩
    · rw [due]
      decide
    · exact decide_eq_true lost
  have some_saved : saved ≠ none := fun none =>
    List.ne_nil_of_mem here ((saved_of_claimDueSlots ran).mp none)
  obtain ⟨next, rfl⟩ := Option.ne_none_iff_exists'.mp some_saved
  exact ⟨next, claimed, ran, List.mem_map.mpr ⟨_, here, rfl⟩⟩

theorem claimed_after_removal (audit : List ScheduleAuditEntry) :
    ∃ log file, (store gregorian).Replays (afterRemoval audit) log file ∧
      ("a", 60000) ∈ log.flatMap returned := by
  obtain ⟨next, claimed, ran, schedules, lost⟩ := claim_backlog audit
  have saved : ∀ task ∈ (saveState next).schedules, task.id = "b" ∧ task.cron = "* * * * *" :=
    fun task member => schedules task ((mem_schedules_saveState _).mp member)
  have claims := alone_claim 60000 ran
  have isStored : (everyMinute "a").intoTask gregorian 60000 = .ok (everyMinuteTask "a") := rfl
  have adds := alone_add 60000 isStored fun other member =>
    (saved other member).1 ▸ show "b" ≠ "a" by decide
  have wellFormed := wellFormed_alone ((Mutator.claimDueSlots backlogMs maxSlotEntries).at 60000)
    true (wellFormed_afterRemoval audit)
  rw [claims] at wellFormed
  have wellFormed' := wellFormed_alone ((Mutator.addSchedule (everyMinute "a")).at 60000) true
    wellFormed
  rw [adds] at wellFormed'
  obtain ⟨final, again, ran', here⟩ := claim_first_minute wellFormed'
    (fun task member => by
      rcases List.mem_append.mp ((mem_schedules_saveState _).mp member) with old | new
      · exact (saved task old).2
      · exact List.mem_singleton.mp new ▸ rfl)
    ((mem_schedules_saveState _).mpr (List.mem_append_right _ (List.mem_singleton.mpr rfl)))
    (fun known => lost known.of_saveState)
  have claims' := alone_claim 60000 ran'
  exact ⟨_, _, Replays.cons claims (Replays.cons adds (Replays.cons claims' Replays.nil)),
    List.mem_flatMap.mpr
      ⟨_, List.mem_cons_of_mem _ (List.mem_cons_of_mem _ List.mem_cons_self), here⟩⟩

/-- A sequential run that claims a pair twice: its record is cut by the backlog of another schedule,
and its schedule is removed and added again. -/
theorem exists_claimed_twice : ∃ before first middle second after file,
    (store gregorian).Replays .default (before ++ first :: (middle ++ second :: after)) file ∧
      ("a", 60000) ∈ returned first ∧ ("a", 60000) ∈ returned second := by
  have early := replays_serialLog (store gregorian) .default claimAndRemove
  have schedules : ((store gregorian).serialState .default
      ((store gregorian).serialLog .default claimAndRemove)).schedules = [everyMinuteTask "b"] := by
    decide +kernel
  have slots : ((store gregorian).serialState .default
      ((store gregorian).serialLog .default claimAndRemove)).slots =
        [(everyMinuteTask "a").claimRecord 60000 60000] := by
    decide +kernel
  have claimed : ("a", 60000) ∈
      ((store gregorian).serialLog .default claimAndRemove).flatMap returned := by decide +kernel
  generalize (store gregorian).serialState .default
    ((store gregorian).serialLog .default claimAndRemove) = file at early schedules slots
  obtain ⟨log, final, late, again⟩ := claimed_after_removal file.audit
  have atRemoval : file = afterRemoval file.audit := SchedulerState.ext schedules slots rfl
  have replays := replays_append.mpr ⟨_, atRemoval ▸ early, late⟩
  obtain ⟨first, inEarly, once⟩ := List.mem_flatMap.mp claimed
  obtain ⟨second, inLate, again⟩ := List.mem_flatMap.mp again
  obtain ⟨before, rest, split⟩ := List.append_of_mem inEarly
  obtain ⟨middle, after, splitLate⟩ := List.append_of_mem inLate
  rw [split, splitLate, List.append_assoc, List.cons_append, ← List.append_assoc rest] at replays
  exact ⟨before, first, rest ++ middle, second, after, final, replays, once, again⟩

/-- Between the two claims of such a run the schedule was added again and the record was cut. -/
theorem second_claim_after_loss : ∃ before first middle second after,
    (∀ done ∈ before ++ first :: (middle ++ second :: after), (returned done).Nodup) ∧
      (∃ done ∈ middle, Readds done ("a", 60000)) ∧
        LosesRecord gregorian ((store gregorian).serialState .default before) (first :: middle)
          ("a", 60000) := by
  obtain ⟨before, first, middle, second, after, _, replays, once, again⟩ := exists_claimed_twice
  obtain ⟨nodup, loss⟩ := claimed_again replays
  exact ⟨before, first, middle, second, after, nodup, loss _ _ _ _ _ _ rfl once again⟩

/-- A pair is claimed twice. -/
theorem claimed_twice :
    ¬ ∀ log file, (store gregorian).Replays .default log file → (log.flatMap returned).Nodup := by
  intro distinct
  obtain ⟨before, first, middle, second, after, file, replays, once, again⟩ := exists_claimed_twice
  have nodup := distinct _ file replays
  rw [List.flatMap_append, List.flatMap_cons, List.flatMap_append, List.flatMap_cons] at nodup
  have apart := List.disjoint_of_nodup_append (List.nodup_append.mp nodup).2.1
  exact apart once (List.mem_append_right _ (List.mem_append_left _ again))

end KelvinClaw.Scheduler
