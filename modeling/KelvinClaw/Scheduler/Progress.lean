import KelvinClaw.Scheduler.Effects

/-!
# Repeated claims

Claims are repeated at one time, each with a save that succeeds. As long as each of them
takes at least one slot without a record, the backlog shrinks and is claimed in the end.
A claim that fails, or that finds only recorded slots among those it takes, saves
nothing, and every later claim does the same.
-/

namespace KelvinClaw.Scheduler

open KelvinClaw.Core Systems.ReadModifyWrite Protocol

variable (calendar : UtcCalendar) (nowMs maxPerSchedule : ℕ)

def claimOnce (file : SchedulerState) : Reply × SchedulerState :=
  (store calendar).alone ((Mutator.claimDueSlots nowMs maxPerSchedule).at nowMs) true file

def afterClaims (file : SchedulerState) : ℕ → SchedulerState
  | 0 => file
  | calls + 1 => (claimOnce calendar nowMs maxPerSchedule (afterClaims file calls)).2

def claimReply (file : SchedulerState) (calls : ℕ) : Reply :=
  (claimOnce calendar nowMs maxPerSchedule (afterClaims calendar nowMs maxPerSchedule file calls)).1

def Drained (file : SchedulerState) : Prop :=
  ∀ task ∈ file.schedules, unclaimed calendar file nowMs task = []

def ClaimedWithin (file : SchedulerState) (calls : ℕ) (scheduleId : String) (slotMs : ℕ) : Prop :=
  ∃ earlier < calls, ∃ slots,
    claimReply calendar nowMs maxPerSchedule file earlier = .claimed (.ok slots) ∧
      ∃ slot ∈ slots, slot.schedule.id = scheduleId ∧ slot.slotAtMs = slotMs

/-- After finitely many claims no unclaimed slot is due and every slot that was due and
unclaimed has been returned; and a claim that returns nothing finds none. -/
def EventuallyClaims (file : SchedulerState) : Prop :=
  (∃ calls, Drained calendar nowMs (afterClaims calendar nowMs maxPerSchedule file calls) ∧
    ∀ task ∈ file.schedules, ∀ slotMs ∈ unclaimed calendar file nowMs task,
      ClaimedWithin calendar nowMs maxPerSchedule file calls task.id slotMs) ∧
  ∀ calls, claimReply calendar nowMs maxPerSchedule file calls = .claimed (.ok []) →
    Drained calendar nowMs (afterClaims calendar nowMs maxPerSchedule file calls)

/-- No unclaimed slot is due; or the search finds a successor of each of the first due
slots of every schedule, and one of these slots has no record. -/
def Advances (file : SchedulerState) : Prop :=
  Drained calendar nowMs file ∨
    (∀ task ∈ file.schedules, task.HasSuccessors calendar nowMs (max maxPerSchedule 1)) ∧
      ∃ task ∈ file.schedules,
        task.freshSlots calendar file.slots nowMs (max maxPerSchedule 1) ≠ []

variable {calendar nowMs maxPerSchedule} {file : SchedulerState}

/-! ### One claim -/

inductive ClaimEnds (calendar : UtcCalendar) (nowMs maxPerSchedule : ℕ) (file : SchedulerState) :
    Reply × SchedulerState → Prop
  | fails {e : KelvinError}
      (stuck : ∃ task ∈ file.schedules,
        ¬ task.HasSuccessors calendar nowMs (max maxPerSchedule 1)) :
      ClaimEnds calendar nowMs maxPerSchedule file (.claimed (.error e), file)
  | claimsNothing
      (none : claimedSlots calendar file.slots nowMs maxPerSchedule file.schedules = []) :
      ClaimEnds calendar nowMs maxPerSchedule file (.claimed (.ok []), file)
  | claims {next : SchedulerState}
      (free : ∀ task ∈ file.schedules, task.HasSuccessors calendar nowMs (max maxPerSchedule 1))
      (some : claimedSlots calendar file.slots nowMs maxPerSchedule file.schedules ≠ [])
      (advanced : AdvancedAll calendar nowMs (max maxPerSchedule 1) file.schedules next.schedules)
      (slots : next.slots = file.slots ++
        (claimedSlots calendar file.slots nowMs maxPerSchedule file.schedules).map
          fun claimed => claimed.schedule.claimRecord nowMs claimed.slotAtMs) :
      ClaimEnds calendar nowMs maxPerSchedule file
        (.claimed (.ok (claimedSlots calendar file.slots nowMs maxPerSchedule file.schedules)),
          saveState next)

theorem claimOnce_ends (wellFormed : WellFormed calendar file.schedules) :
    ClaimEnds calendar nowMs maxPerSchedule file
      (claimOnce calendar nowMs maxPerSchedule file) := by
  have loads : (store calendar).load ((Mutator.claimDueSlots nowMs maxPerSchedule).at nowMs) file =
      prepare "save" .claimed (claimDueSlots calendar nowMs maxPerSchedule file) := rfl
  rw [claimOnce, Protocol.alone, loads]
  cases ran : claimDueSlots calendar nowMs maxPerSchedule file with
  | error e =>
    refine .fails ?_
    by_contra free
    simp only [not_exists, not_and, not_not] at free
    obtain ⟨_, succeeds⟩ := (exists_claimDueSlots _ _ wellFormed).mpr free
    cases ran.symm.trans succeeds
  | ok change =>
    obtain ⟨saved, claimed⟩ := change
    obtain ⟨rfl, saves⟩ := claimDueSlots_spec wellFormed ran
    cases saved with
    | none =>
      have none := (saved_of_claimDueSlots ran).mp rfl
      simp only [prepare, none]
      exact .claimsNothing none
    | some next =>
      have some := mt (saved_of_claimDueSlots ran).mpr (Option.some_ne_none next)
      obtain ⟨advanced, slots⟩ := saves next rfl
      exact .claims ((exists_claimDueSlots _ _ wellFormed).mp ⟨_, ran⟩) some advanced slots

theorem wellFormed_afterClaims (wellFormed : WellFormed calendar file.schedules) (calls : ℕ) :
    WellFormed calendar (afterClaims calendar nowMs maxPerSchedule file calls).schedules := by
  induction calls with
  | zero => exact wellFormed
  | succ calls ih => exact wellFormed_alone _ true ih

theorem claimOnce_afterClaims (nowMs maxPerSchedule : ℕ)
    (wellFormed : WellFormed calendar file.schedules) (calls : ℕ) :
    ClaimEnds calendar nowMs maxPerSchedule (afterClaims calendar nowMs maxPerSchedule file calls)
      (claimReply calendar nowMs maxPerSchedule file calls,
        afterClaims calendar nowMs maxPerSchedule file (calls + 1)) :=
  claimOnce_ends (wellFormed_afterClaims wellFormed calls)

theorem claimedSlots_of_drained (drained : Drained calendar nowMs file) :
    claimedSlots calendar file.slots nowMs maxPerSchedule file.schedules = [] := by
  rw [List.eq_nil_iff_forall_not_mem]
  intro slot member
  obtain ⟨task, found, slotMs, fresh, _⟩ := mem_claimedSlots.mp member
  obtain ⟨taken, unknown⟩ := List.mem_filter.mp fresh
  have due : slotMs ∈ unclaimed calendar file nowMs task :=
    List.mem_filter.mpr ⟨List.mem_of_mem_take taken, unknown⟩
  rw [drained task found] at due
  cases due

/-- Something is claimed when one of the slots a claim takes has no record. -/
theorem claimedSlots_ne_nil {task : ScheduledTask} (member : task ∈ file.schedules)
    (fresh : task.freshSlots calendar file.slots nowMs (max maxPerSchedule 1) ≠ []) :
    claimedSlots calendar file.slots nowMs maxPerSchedule file.schedules ≠ [] := by
  obtain ⟨slotMs, taken⟩ := List.exists_mem_of_ne_nil _ fresh
  exact List.ne_nil_of_mem (mem_claimedSlots.mpr ⟨task, member, slotMs, taken, rfl⟩)

theorem afterClaims_of_fixed {calls : ℕ}
    (fixed : afterClaims calendar nowMs maxPerSchedule file (calls + 1) =
      afterClaims calendar nowMs maxPerSchedule file calls) (more : ℕ) :
    afterClaims calendar nowMs maxPerSchedule file (calls + more) =
      afterClaims calendar nowMs maxPerSchedule file calls := by
  induction more with
  | zero => rfl
  | succ more ih =>
    rw [← Nat.add_assoc, afterClaims, ih]
    exact fixed

theorem afterClaims_of_drained (wellFormed : WellFormed calendar file.schedules) {calls : ℕ}
    (drained : Drained calendar nowMs (afterClaims calendar nowMs maxPerSchedule file calls)) :
    afterClaims calendar nowMs maxPerSchedule file (calls + 1) =
      afterClaims calendar nowMs maxPerSchedule file calls := by
  have ends := claimOnce_afterClaims nowMs maxPerSchedule
    wellFormed calls
  generalize claimReply calendar nowMs maxPerSchedule file calls = reply,
    afterClaims calendar nowMs maxPerSchedule file (calls + 1) = next at ends
  cases ends with
  | fails | claimsNothing => rfl
  | claims _ some => exact absurd (claimedSlots_of_drained drained) some

/-! ### The backlog shrinks -/

def owed (calendar : UtcCalendar) (nowMs : ℕ) (schedules : List ScheduledTask) : ℕ :=
  (schedules.map fun task => (task.dueSlots calendar (minuteSlot nowMs)).length).sum

theorem length_advanced {left : ℕ} {task advanced : ScheduledTask}
    (moved : task.Advanced calendar nowMs left advanced) :
    (advanced.dueSlots calendar (minuteSlot nowMs)).length =
      (task.dueSlots calendar (minuteSlot nowMs)).length - left := by
  rw [moved.remaining, List.length_drop]

theorem owed_le {left : ℕ} {schedules advanced : List ScheduledTask}
    (all : AdvancedAll calendar nowMs left schedules advanced) :
    owed calendar nowMs advanced ≤ owed calendar nowMs schedules := by
  induction all with
  | nil => exact le_rfl
  | cons first _ ih =>
    have shorter := length_advanced first
    simp only [owed, List.map_cons, List.sum_cons] at ih ⊢
    omega

theorem owed_lt {left : ℕ} (positive : 0 < left) {schedules advanced : List ScheduledTask}
    (all : AdvancedAll calendar nowMs left schedules advanced) {task : ScheduledTask}
    (member : task ∈ schedules) (due : task.dueSlots calendar (minuteSlot nowMs) ≠ []) :
    owed calendar nowMs advanced < owed calendar nowMs schedules := by
  induction all with
  | nil => cases member
  | cons first rest ih =>
    have shorter := length_advanced first
    have others := owed_le rest
    simp only [owed, List.map_cons, List.sum_cons] at ih others ⊢
    rcases List.mem_cons.mp member with rfl | later
    · have := List.length_pos_iff.mpr due
      omega
    · have := ih later
      omega

theorem owed_saveState_lt {next : SchedulerState}
    (advanced : AdvancedAll calendar nowMs (max maxPerSchedule 1) file.schedules next.schedules)
    (some : claimedSlots calendar file.slots nowMs maxPerSchedule file.schedules ≠ []) :
    owed calendar nowMs (saveState next).schedules < owed calendar nowMs file.schedules := by
  obtain ⟨slot, member⟩ := List.exists_mem_of_ne_nil _ some
  obtain ⟨task, found, slotMs, fresh, _⟩ := mem_claimedSlots.mp member
  have due := List.mem_of_mem_take (List.mem_filter.mp fresh).1
  calc owed calendar nowMs (saveState next).schedules
      = owed calendar nowMs next.schedules := ((schedules_saveState_perm next).map _).sum_nat
    _ < owed calendar nowMs file.schedules :=
      owed_lt (lt_max_of_lt_right one_pos) advanced found (List.ne_nil_of_mem due)

theorem exists_drained (wellFormed : WellFormed calendar file.schedules)
    (advances : ∀ calls, Advances calendar nowMs maxPerSchedule
      (afterClaims calendar nowMs maxPerSchedule file calls)) :
    ∃ calls, Drained calendar nowMs (afterClaims calendar nowMs maxPerSchedule file calls) := by
  by_contra never
  simp only [not_exists] at never
  have shrinks : ∀ calls, owed calendar nowMs
      (afterClaims calendar nowMs maxPerSchedule file calls).schedules + calls ≤
        owed calendar nowMs file.schedules := by
    intro calls
    induction calls with
    | zero => exact le_rfl
    | succ calls ih =>
      obtain ⟨successors, task, member, fresh⟩ := (advances calls).resolve_left (never calls)
      have ends := claimOnce_afterClaims nowMs maxPerSchedule
        wellFormed calls
      generalize claimReply calendar nowMs maxPerSchedule file calls = reply,
        afterClaims calendar nowMs maxPerSchedule file (calls + 1) = next at ends ⊢
      cases ends with
      | fails stuck =>
        obtain ⟨other, found, none⟩ := stuck
        exact absurd (successors other found) none
      | claimsNothing none => exact absurd none (claimedSlots_ne_nil member fresh)
      | claims _ some advanced =>
        have fewer := owed_saveState_lt advanced some
        omega
  have := shrinks (owed calendar nowMs file.schedules + 1)
  omega

/-! ### Every slot of the backlog is returned -/

theorem unclaimed_of_claim {next : SchedulerState} {task : ScheduledTask} {slotMs : ℕ}
    (member : task ∈ file.schedules) (due : slotMs ∈ unclaimed calendar file nowMs task)
    (advanced : AdvancedAll calendar nowMs (max maxPerSchedule 1) file.schedules next.schedules)
    (slots : next.slots = file.slots ++
      (claimedSlots calendar file.slots nowMs maxPerSchedule file.schedules).map
        fun claimed => claimed.schedule.claimRecord nowMs claimed.slotAtMs) :
    (∃ slot ∈ claimedSlots calendar file.slots nowMs maxPerSchedule file.schedules,
        slot.schedule.id = task.id ∧ slot.slotAtMs = slotMs) ∨
      ∃ later ∈ (saveState next).schedules,
        later.id = task.id ∧ slotMs ∈ unclaimed calendar (saveState next) nowMs later := by
  obtain ⟨isDue, unknown⟩ := List.mem_filter.mp due
  refine or_iff_not_imp_left.mpr fun notReturned => ?_
  obtain ⟨later, found, moved⟩ := advanced.exists_advanced member
  have sameId : later.id = task.id := by rw [moved.same, ScheduledTask.pointAt_id]
  refine ⟨later, (mem_schedules_saveState next).mpr found, sameId, List.mem_filter.mpr ⟨?_, ?_⟩⟩
  · rw [moved.remaining]
    rw [← List.take_append_drop (max maxPerSchedule 1) (task.dueSlots _ _)] at isDue
    refine (List.mem_append.mp isDue).resolve_left fun taken => notReturned ?_
    exact ⟨_,
      mem_claimedSlots.mpr ⟨task, member, slotMs, List.mem_filter.mpr ⟨taken, unknown⟩, rfl⟩,
      rfl, rfl⟩
  · refine decide_eq_true fun known => ?_
    have known := known.of_saveState
    rw [slots, recorded_append, sameId] at known
    rcases known with old | ⟨_, new, same, rfl⟩
    · exact absurd old (by simpa using unknown)
    · obtain ⟨slot, mem, rfl⟩ := List.mem_map.mp new
      exact notReturned ⟨slot, mem, same, rfl⟩

theorem claimedWithin_or_unclaimed (wellFormed : WellFormed calendar file.schedules)
    {task : ScheduledTask} (member : task ∈ file.schedules) {slotMs : ℕ}
    (due : slotMs ∈ unclaimed calendar file nowMs task) (calls : ℕ) :
    ClaimedWithin calendar nowMs maxPerSchedule file calls task.id slotMs ∨
      ∃ later ∈ (afterClaims calendar nowMs maxPerSchedule file calls).schedules,
        later.id = task.id ∧ slotMs ∈
          unclaimed calendar (afterClaims calendar nowMs maxPerSchedule file calls) nowMs
            later := by
  induction calls with
  | zero => exact .inr ⟨task, member, rfl, due⟩
  | succ calls ih =>
    rcases ih with ⟨earlier, before, returned⟩ | ⟨later, found, sameId, still⟩
    · exact .inl ⟨earlier, by omega, returned⟩
    · have ends := claimOnce_afterClaims nowMs maxPerSchedule
        wellFormed calls
      generalize replied : claimReply calendar nowMs maxPerSchedule file calls = reply,
        afterClaims calendar nowMs maxPerSchedule file (calls + 1) = next at ends ⊢
      cases ends with
      | fails | claimsNothing => exact .inr ⟨later, found, sameId, still⟩
      | claims _ _ advanced slots =>
        rcases unclaimed_of_claim found still advanced slots with returned | ⟨moved, member, kept⟩
        · exact .inl ⟨calls, by omega, _, replied, sameId ▸ returned⟩
        · exact .inr ⟨moved, member, kept.1.trans sameId, kept.2⟩

/-- **Claim progress.** Repeated claims claim the whole backlog in finitely many calls, and
a claim that returns nothing means that nothing is left, if and only if before every call
either nothing is left or the claim takes a slot without a record and no search runs out. -/
theorem eventuallyClaims_iff (reached : StoreState calendar file) (nowMs maxPerSchedule : ℕ) :
    EventuallyClaims calendar nowMs maxPerSchedule file ↔
      ∀ calls, Advances calendar nowMs maxPerSchedule
        (afterClaims calendar nowMs maxPerSchedule file calls) := by
  have wellFormed := reached.wellFormed
  constructor
  · rintro ⟨⟨calls, drained, _⟩, empty⟩ k
    have ends := claimOnce_afterClaims nowMs maxPerSchedule
      wellFormed k
    generalize replied : claimReply calendar nowMs maxPerSchedule file k = reply,
      same : afterClaims calendar nowMs maxPerSchedule file (k + 1) = next at ends
    cases ends with
    | fails =>
      -- the claim fails forever, so the drained file is this one
      refine .inl ?_
      rcases le_total calls k with before | after
      · obtain ⟨more, rfl⟩ := Nat.exists_eq_add_of_le before
        rw [afterClaims_of_fixed (afterClaims_of_drained wellFormed drained)]
        exact drained
      · obtain ⟨more, rfl⟩ := Nat.exists_eq_add_of_le after
        rwa [afterClaims_of_fixed same] at drained
    | claimsNothing => exact .inl (empty k replied)
    | claims free some =>
      obtain ⟨slot, member⟩ := List.exists_mem_of_ne_nil _ some
      obtain ⟨task, found, slotMs, fresh, _⟩ := mem_claimedSlots.mp member
      exact .inr ⟨free, task, found, List.ne_nil_of_mem fresh⟩
  · intro advances
    obtain ⟨calls, drained⟩ := exists_drained wellFormed advances
    refine ⟨⟨calls, drained, fun task member slotMs due => ?_⟩, fun k nothing => ?_⟩
    · refine (claimedWithin_or_unclaimed wellFormed member due calls).resolve_right ?_
      rintro ⟨later, found, _, still⟩
      rw [drained later found] at still
      cases still
    · refine (advances k).resolve_right ?_
      rintro ⟨_, task, found, fresh⟩
      have ends := claimOnce_afterClaims nowMs maxPerSchedule
        wellFormed k
      generalize claimReply calendar nowMs maxPerSchedule file k = reply,
        afterClaims calendar nowMs maxPerSchedule file (k + 1) = next at ends nothing
      have some := claimedSlots_ne_nil found fresh
      cases ends with
      | fails => cases nothing
      | claimsNothing none => exact some none
      | claims => exact some (Except.ok.inj (Reply.claimed.inj nothing))

/-- The one due slot of a new schedule is claimed. -/
theorem eventuallyClaims_everyMinute :
    ∃ file, StoreState gregorian file ∧ file.schedules = [everyMinuteTask "a"] ∧
      EventuallyClaims gregorian 60000 1 file := by
  have reached := StoreState.of_calls gregorian
    [((Mutator.addSchedule (everyMinute "a")).at 60000, true)]
  have schedules : ((store gregorian).serialState .default ((store gregorian).serialLog .default
      [((Mutator.addSchedule (everyMinute "a")).at 60000, true)])).schedules =
        [everyMinuteTask "a"] := by
    decide +kernel
  have fresh : (everyMinuteTask "a").freshSlots gregorian ((store gregorian).serialState .default
      ((store gregorian).serialLog .default
        [((Mutator.addSchedule (everyMinute "a")).at 60000, true)])).slots 60000 1 ≠ [] := by
    decide +kernel
  have drained : Drained gregorian 60000 (afterClaims gregorian 60000 1
      ((store gregorian).serialState .default ((store gregorian).serialLog .default
        [((Mutator.addSchedule (everyMinute "a")).at 60000, true)])) 1) := by
    unfold Drained
    decide +kernel
  refine ⟨_, reached, schedules, (eventuallyClaims_iff reached 60000 1).mpr fun calls => ?_⟩
  cases calls with
  | zero =>
    refine .inr ⟨fun task member => ?_, everyMinuteTask "a", ?_, fresh⟩
    · rw [afterClaims, schedules, List.mem_singleton] at member
      exact hasSuccessors_everyMinute (member ▸ rfl) (by decide) _
    · rw [afterClaims, schedules, List.mem_singleton]
  | succ calls =>
    rw [Nat.add_comm, afterClaims_of_fixed (afterClaims_of_drained reached.wellFormed drained)]
    exact .inl drained

/-! ### Recorded slots that stop the claims -/

/-- A schedule is added, its first two slots are claimed, and it is removed and added
again from its first slot on. -/
def readdedCalls : List (Call × Bool) :=
  [.addSchedule (everyMinute "a"), .claimDueSlots 120000 2,
    .removeSchedule "a" "main" "approved", .addSchedule (everyMinute "a")].map
    fun mutator => (Mutator.at mutator 120000, true)

/-- When the first slots of a schedule that was added again have records, a claim takes
nothing else, returns nothing and saves nothing, although a later slot is due. -/
theorem recorded_slots_stall_claims :
    ¬ ∀ file, StoreState gregorian file → ∀ nowMs maxPerSchedule,
      EventuallyClaims gregorian nowMs maxPerSchedule file := by
  intro progress
  have reached := StoreState.of_calls gregorian readdedCalls
  have schedules : ((store gregorian).serialState .default
      ((store gregorian).serialLog .default readdedCalls)).schedules = [everyMinuteTask "a"] := by
    decide +kernel
  have nothing : claimDueSlots gregorian 180000 2 ((store gregorian).serialState .default
      ((store gregorian).serialLog .default readdedCalls)) = .ok (none, []) := by
    decide +kernel
  have due : 180000 ∈ unclaimed gregorian ((store gregorian).serialState .default
      ((store gregorian).serialLog .default readdedCalls)) 180000 (everyMinuteTask "a") := by
    decide +kernel
  generalize (store gregorian).serialState .default
    ((store gregorian).serialLog .default readdedCalls) = file at *
  have replied : claimReply gregorian 180000 2 file 0 = .claimed (.ok []) := by
    have loads : (store gregorian).load ((Mutator.claimDueSlots 180000 2).at 180000) file =
        prepare "save" .claimed (claimDueSlots gregorian 180000 2 file) := rfl
    rw [claimReply, afterClaims, claimOnce, Protocol.alone, loads, nothing]
    rfl
  have drained := (progress file reached 180000 2).2 0 replied (everyMinuteTask "a")
    (by rw [afterClaims, schedules]; exact List.mem_singleton.mpr rfl)
  rw [afterClaims] at drained
  rw [drained] at due
  cases due

end KelvinClaw.Scheduler
