import Mathlib.Data.Prod.Lex
import KelvinClaw.Scheduler.Effects

/-!
# Which slot records a save keeps

A save sorts the slot table by schedule id first and by slot second, and keeps the last records
of this order. The records that it drops are those of the first schedule ids, whatever their
age: the newest slots of one schedule give way to old slots of another. So a slot can lose its
record in the very save of its claim.
-/

namespace KelvinClaw.Scheduler

open KelvinClaw.Core Systems Systems.ReadModifyWrite

/-! ### Places in a sorted list -/

section Sorted

variable {α : Type*} {r : α → α → Prop} [DecidableRel r] {entries : List α} {x : α}

/-- An entry is among the last ones, up to equivalence, when fewer entries come after it. -/
theorem exists_mem_drop_iff [Std.Total r] [IsTrans α r] (sorted : entries.Pairwise r)
    (member : x ∈ entries) (m : ℕ) :
    (∃ y ∈ entries.drop m, r x y ∧ r y x) ↔
      entries.countP (fun y => ¬ r y x) < entries.length - m := by
  have split := sorted
  rw [← List.take_append_drop m entries, List.pairwise_append] at split
  obtain ⟨-, -, across⟩ := split
  have counted : entries.countP (fun y => ¬ r y x) =
      (entries.take m).countP (fun y => ¬ r y x) + (entries.drop m).countP fun y => ¬ r y x := by
    rw [← List.countP_append, List.take_append_drop]
  rw [counted, ← List.length_drop]
  constructor
  · -- No entry before the cut comes after one of the last ones.
    rintro ⟨y, last, -, back⟩
    have none : (entries.take m).countP (fun y => ¬ r y x) = 0 := by
      rw [List.countP_eq_zero]
      intro z first
      simpa using IsTrans.trans _ _ _ (across z first y last) back
    have some : (entries.drop m).countP (fun y => ¬ r y x) ≠ (entries.drop m).length := by
      rw [Ne, List.countP_eq_length]
      intro all
      simpa [back] using all y last
    have le := (entries.drop m).countP_le_length (p := fun y => ¬ r y x)
    omega
  · -- Otherwise all of the last entries would come after it.
    intro few
    by_contra absent
    have all : (entries.drop m).countP (fun y => ¬ r y x) = (entries.drop m).length := by
      rw [List.countP_eq_length]
      intro z last
      rw [decide_eq_true_iff]
      intro back
      refine absent ⟨z, last, ?_, back⟩
      rw [← List.take_append_drop m entries, List.mem_append] at member
      rcases member with first | here
      · exact across x first z last
      · exact absurd ⟨x, here, refl x, refl x⟩ absent
    omega

/-- An entry is among the first ones, up to equivalence, when fewer entries come before it. -/
theorem exists_mem_take_iff [Std.Total r] [IsTrans α r] (sorted : entries.Pairwise r)
    (member : x ∈ entries) (m : ℕ) :
    (∃ y ∈ entries.take m, r x y ∧ r y x) ↔ entries.countP (fun y => ¬ r x y) < m := by
  -- The first entries are the last ones of the list from its end, in the order of its end.
  have mirrored := exists_mem_drop_iff (r := Function.swap r) (List.pairwise_reverse.mpr sorted)
    (List.mem_reverse.mpr member) (entries.length - m)
  rw [List.drop_reverse, List.length_reverse, List.countP_reverse] at mirrored
  simp only [List.mem_reverse, Function.swap] at mirrored
  rcases le_total m entries.length with short | long
  · rw [Nat.sub_sub_self short] at mirrored
    simpa only [and_comm] using mirrored
  · rw [Nat.sub_eq_zero_of_le long, Nat.sub_zero, List.take_length] at mirrored
    rw [List.take_of_length_le long]
    exact iff_of_true ⟨x, member, refl x, refl x⟩
      ((mirrored.mp ⟨x, member, refl x, refl x⟩).trans_le long)

end Sorted

/-! ### The order of the slot table -/

def ScheduleSlotRecord.place (slot : ScheduleSlotRecord) : String ×ₗ ℕ :=
  toLex (slot.scheduleId, slot.slotAtMs)

theorem ScheduleSlotRecord.before_iff {left right : ScheduleSlotRecord} :
    left.Before right ↔ left.place ≤ right.place := by
  rw [place, place, Prod.Lex.toLex_le_toLex]
  rfl

instance : Std.Total ScheduleSlotRecord.Before where
  total left right := by
    rw [ScheduleSlotRecord.before_iff, ScheduleSlotRecord.before_iff]
    exact le_total _ _

instance : IsTrans ScheduleSlotRecord ScheduleSlotRecord.Before where
  trans first second third early late := by
    rw [ScheduleSlotRecord.before_iff] at early late ⊢
    exact early.trans late

theorem ScheduleSlotRecord.Before.antisymm {left right : ScheduleSlotRecord}
    (forth : left.Before right) (back : right.Before left) :
    left.scheduleId = right.scheduleId ∧ left.slotAtMs = right.slotAtMs := by
  have same : left.place = right.place := le_antisymm (before_iff.mp forth) (before_iff.mp back)
  exact Prod.mk.inj (toLex_inj.mp same)

theorem ScheduleSlotRecord.Before.of_same {left right : ScheduleSlotRecord}
    (same : left.scheduleId = right.scheduleId ∧ left.slotAtMs = right.slotAtMs) :
    left.Before right :=
  .inr ⟨same.1, same.2.le⟩

def recordsBefore (slots : List ScheduleSlotRecord) (slot : ScheduleSlotRecord) : ℕ :=
  slots.countP fun other => ¬ slot.Before other

def recordsAfter (slots : List ScheduleSlotRecord) (slot : ScheduleSlotRecord) : ℕ :=
  slots.countP fun other => ¬ other.Before slot

/-! ### What a save should keep -/

/-- The kept slots are the newest ones, and no slot without an outcome is dropped for an older
one. -/
structure Retention (slots kept dropped : List ScheduleSlotRecord) : Prop where
  parts : (kept ++ dropped).Perm slots
  length : kept.length = min maxSlotEntries slots.length
  newest : ∀ slot ∈ dropped, ∀ other ∈ kept, slot.slotAtMs ≤ other.slotAtMs
  claimed : ∀ slot ∈ dropped, slot.phase = .claimed ∨ slot.phase = .submitted →
    ∀ other ∈ kept, ¬ other.slotAtMs < slot.slotAtMs

/-- The records around the cut are in the order of time: one with few enough records before it
is no newer than one with few enough records after it. -/
def CutFollowsTime (slots : List ScheduleSlotRecord) : Prop :=
  ∀ slot ∈ slots, ∀ other ∈ slots, recordsBefore slots slot < slots.length - maxSlotEntries →
    recordsAfter slots other < maxSlotEntries → slot.slotAtMs ≤ other.slotAtMs

/-- The marks that follow a claim find the record of a slot. -/
structure FindsSlot (file : SchedulerState) (slot : ClaimedScheduleSlot) : Prop where
  submitted : ∀ runId auditMs, ∃ saved,
    markSlotSubmitted slot.schedule.id slot.slotAtMs runId auditMs file = .ok (saved, ())
  outcome : ∀ phase runId responsePreview error nowMs auditMs, ∃ saved,
    markSlotOutcome slot.schedule.id slot.slotAtMs phase runId responsePreview error nowMs auditMs
      file = .ok (saved, ())

def Call.ClaimsNothing (call : Call) : Prop :=
  ∀ nowMs maxPerSchedule, call.mutator ≠ .claimDueSlots nowMs maxPerSchedule

/-- Every slot that a claim returns is found from its save on, whatever calls come between that
claim no more slots. -/
def FindsClaims (calendar : UtcCalendar) (nowMs maxPerSchedule : ℕ) (state : SchedulerState) :
    Prop :=
  ∀ next claimed, claimDueSlots calendar nowMs maxPerSchedule state = .ok (some next, claimed) →
    ∀ slot ∈ claimed, ∀ log : List (Finished Call Reply),
      (∀ done ∈ log, done.call.ClaimsNothing) →
        FindsSlot ((store calendar).serialState (saveState next) log) slot

/-! ### What a save keeps -/

section Saves

variable {state : SchedulerState}

def SchedulerState.table (state : SchedulerState) : List ScheduleSlotRecord :=
  state.slots.insertionSort ScheduleSlotRecord.Before

theorem SchedulerState.pairwise_table (state : SchedulerState) :
    state.table.Pairwise ScheduleSlotRecord.Before :=
  List.pairwise_insertionSort _ _

theorem SchedulerState.table_perm (state : SchedulerState) : state.table.Perm state.slots :=
  List.perm_insertionSort _ _

theorem slots_saveState (state : SchedulerState) :
    (saveState state).slots = state.table.drop (state.slots.length - maxSlotEntries) := by
  change keepLast maxSlotEntries state.table = _
  unfold keepLast
  rw [state.table_perm.length_eq]
  split_ifs with long
  · rfl
  · rw [Nat.sub_eq_zero_of_le (not_lt.mp long), List.drop_zero]

theorem recorded_saveState_iff {slot : ScheduleSlotRecord} (member : slot ∈ state.slots) :
    Recorded (saveState state).slots slot.scheduleId slot.slotAtMs ↔
      recordsAfter state.slots slot < maxSlotEntries := by
  have inTable : slot ∈ state.table := state.table_perm.mem_iff.mpr member
  have same : Recorded (saveState state).slots slot.scheduleId slot.slotAtMs ↔
      ∃ other ∈ state.table.drop (state.slots.length - maxSlotEntries),
        slot.Before other ∧ other.Before slot := by
    rw [Recorded, slots_saveState]
    refine exists_congr fun other => and_congr_right fun _ => ?_
    constructor
    · rintro ⟨isId, isSlot⟩
      exact ⟨.of_same ⟨isId.symm, isSlot.symm⟩, .of_same ⟨isId, isSlot⟩⟩
    · rintro ⟨forth, back⟩
      exact back.antisymm forth
  have after : state.table.countP (fun other => ¬ other.Before slot) =
      recordsAfter state.slots slot := state.table_perm.countP_eq _
  have before : recordsAfter state.slots slot < state.slots.length := by
    refine (List.countP_le_length).lt_of_ne fun all => ?_
    simpa [refl slot] using List.countP_eq_length.mp all slot member
  rw [same, exists_mem_drop_iff state.pairwise_table inTable, after, state.table_perm.length_eq]
  omega

theorem exists_retention_iff :
    (∃ dropped, Retention state.slots (saveState state).slots dropped) ↔
      CutFollowsTime state.slots := by
  have parts : ((saveState state).slots ++
      state.table.take (state.slots.length - maxSlotEntries)).Perm state.slots := by
    rw [slots_saveState]
    refine List.perm_append_comm.trans ?_
    rw [List.take_append_drop]
    exact state.table_perm
  constructor
  · rintro ⟨dropped, isPart, -, newest, -⟩ slot member other member' few few'
    -- A save drops a record at the place of the one slot, and keeps one at that of the other.
    have isDropped : dropped.Perm (state.table.take (state.slots.length - maxSlotEntries)) :=
      (List.perm_append_left_iff _).mp (isPart.trans parts.symm)
    obtain ⟨first, isFirst, forth, back⟩ := (exists_mem_take_iff state.pairwise_table
      (state.table_perm.mem_iff.mpr member) _).mpr ((state.table_perm.countP_eq _).trans_lt few)
    obtain ⟨last, isLast, _, same⟩ := (recorded_saveState_iff member').mpr few'
    have before := newest first (isDropped.mem_iff.mpr isFirst) last isLast
    rwa [← (forth.antisymm back).2, same] at before
  · intro follows
    have newest : ∀ slot ∈ state.table.take (state.slots.length - maxSlotEntries),
        ∀ other ∈ (saveState state).slots, slot.slotAtMs ≤ other.slotAtMs := by
      intro slot first other last
      have inTable := List.mem_of_mem_take first
      have member := state.table_perm.mem_iff.mp inTable
      have member' : other ∈ state.slots := by
        rw [slots_saveState] at last
        exact state.table_perm.mem_iff.mp (List.mem_of_mem_drop last)
      refine follows slot member other member' ?_ ?_
      · rw [recordsBefore, ← state.table_perm.countP_eq]
        exact (exists_mem_take_iff state.pairwise_table inTable _).mp
          ⟨slot, first, refl slot, refl slot⟩
      · exact (recorded_saveState_iff member').mp ⟨other, last, rfl, rfl⟩
    refine ⟨_, parts, ?_, newest, fun slot first _ other last =>
      not_lt.mpr (newest slot first other last)⟩
    rw [slots_saveState, List.length_drop, state.table_perm.length_eq]
    omega

end Saves

/-! ### Marks -/

section Marks

variable {calendar : UtcCalendar} {file : SchedulerState} {scheduleId : String} {slotAtMs : ℕ}

theorem exists_updateSlot_iff
    (mutate : ScheduleSlotRecord → ScheduleSlotRecord × ScheduleAuditEntry) :
    (∃ saved, updateSlot scheduleId slotAtMs mutate file = .ok (saved, ())) ↔
      Recorded file.slots scheduleId slotAtMs := by
  have found : ∀ slots : List ScheduleSlotRecord,
      (updateFirst scheduleId slotAtMs mutate slots).isSome ↔
        Recorded slots scheduleId slotAtMs := by
    intro slots
    induction slots with
    | nil => simp [updateFirst, Recorded]
    | cons slot rest ih =>
      rw [updateFirst, Recorded, List.exists_mem_cons_iff]
      split_ifs with here
      · simp [here]
      · rw [Option.isSome_map, ih, Recorded]
        simp [here]
  rw [← found, updateSlot]
  cases updateFirst scheduleId slotAtMs mutate file.slots with
  | none => simp
  | some result => simp

theorem findsSlot_iff {slot : ClaimedScheduleSlot} :
    FindsSlot file slot ↔ Recorded file.slots slot.schedule.id slot.slotAtMs := by
  constructor
  · intro finds
    exact (exists_updateSlot_iff _).mp (finds.submitted "" 0)
  · intro known
    exact ⟨fun _ _ => (exists_updateSlot_iff _).mpr known,
      fun _ _ _ _ _ _ => (exists_updateSlot_iff _).mpr known⟩

theorem recorded_alone {call : Call} {stored : Bool} (quiet : call.ClaimsNothing)
    (fits : file.slots.length ≤ maxSlotEntries) (known : Recorded file.slots scheduleId slotAtMs) :
    ((store calendar).alone call stored file).2.slots.length ≤ maxSlotEntries ∧
      Recorded ((store calendar).alone call stored file).2.slots scheduleId slotAtMs := by
  have outcome := alone_outcome calendar call stored file
  generalize (store calendar).alone call stored file = result at outcome
  cases outcome with
  | unchanged _ => exact ⟨fits, known⟩
  | @saved next reply effect =>
    have same : next.slots.map (fun slot => (slot.scheduleId, slot.slotAtMs)) =
        file.slots.map fun slot => (slot.scheduleId, slot.slotAtMs) := by
      -- Only a claim adds records, and only a save drops any.
      cases effect with
      | added _ _ _ _ slots => rw [slots]
      | removed _ _ slots => rw [slots]
      | claimed asked _ => exact absurd asked (quiet _ _)
      | marked _ slots => exact slots
    have fits' : next.slots.length ≤ maxSlotEntries := by
      rwa [← List.length_map, same, List.length_map]
    -- The next save drops nothing: the table was cut by the claim's own save.
    refine ⟨length_slots_saveState_le next, (recorded_saveState next fits' _ _).mpr ?_⟩
    rwa [recorded_iff_keys, same, ← recorded_iff_keys]

theorem recorded_serialState {log : List (Finished Call Reply)}
    (quiet : ∀ done ∈ log, done.call.ClaimsNothing) (fits : file.slots.length ≤ maxSlotEntries)
    (known : Recorded file.slots scheduleId slotAtMs) :
    Recorded ((store calendar).serialState file log).slots scheduleId slotAtMs := by
  induction log generalizing file with
  | nil => exact known
  | cons done log ih =>
    obtain ⟨fits', known'⟩ := @recorded_alone calendar file _ _ _ done.stored
      (quiet done List.mem_cons_self) fits known
    exact ih (fun other member => quiet other (List.mem_cons_of_mem _ member)) fits' known'

end Marks

/-! ### Claims -/

section Claims

variable {calendar : UtcCalendar} {state : SchedulerState} {nowMs maxPerSchedule : ℕ}

def Claims.Extends (nowMs : ℕ) (claims after : Claims) : Prop :=
  ∃ more : List ClaimedScheduleSlot, after.claimed = claims.claimed ++ more ∧
    after.slots = claims.slots ++ more.map fun slot => slot.schedule.claimRecord nowMs slot.slotAtMs

theorem Claims.Extends.refl (claims : Claims) : claims.Extends nowMs claims :=
  ⟨[], by simp, by simp⟩

theorem Claims.Extends.trans {claims mid after : Claims} (early : claims.Extends nowMs mid)
    (late : mid.Extends nowMs after) : claims.Extends nowMs after := by
  obtain ⟨more, isClaimed, isRecord⟩ := early
  obtain ⟨more', isClaimed', isRecord'⟩ := late
  exact ⟨more ++ more', by rw [isClaimed', isClaimed, List.append_assoc],
    by rw [isRecord', isRecord, List.map_append, List.append_assoc]⟩

theorem Claims.extends_claim (claims : Claims) (schedule : ScheduledTask) :
    claims.Extends nowMs (claims.claim nowMs schedule) :=
  ⟨[⟨schedule, schedule.nextSlotAtMs⟩], rfl, rfl⟩

theorem extends_claimLoop {cron : CronSchedule} {left : ℕ} {schedule advanced : ScheduledTask}
    {claims after : Claims}
    (ran : claimLoop calendar cron nowMs left schedule claims = .ok (advanced, after)) :
    claims.Extends nowMs after := by
  induction left generalizing schedule claims with
  | zero =>
    cases ran
    exact .refl _
  | succ left ih =>
    rw [claimLoop] at ran
    split_ifs at ran with early known
    · cases ran
      exact .refl _
    · obtain ⟨_, _, later⟩ := bind_eq_ok.mp ran
      exact ih later
    · obtain ⟨_, _, later⟩ := bind_eq_ok.mp ran
      exact (claims.extends_claim schedule).trans (ih later)

theorem extends_claimSchedules {schedules advanced : List ScheduledTask} {claims after : Claims}
    (ran : claimSchedules calendar nowMs maxPerSchedule schedules claims = .ok (advanced, after)) :
    claims.Extends nowMs after := by
  induction schedules generalizing claims advanced with
  | nil =>
    cases ran
    exact .refl _
  | cons schedule rest ih =>
    simp only [claimSchedules, bind_eq_ok, pure_eq_ok] at ran
    obtain ⟨_, _, ⟨_, mid⟩, loop, ⟨_, last⟩, others, same⟩ := ran
    cases same
    exact (extends_claimLoop loop).trans (ih others)

theorem slots_of_claimDueSlots {next : SchedulerState} {claimed : List ClaimedScheduleSlot}
    (ran : claimDueSlots calendar nowMs maxPerSchedule state = .ok (some next, claimed)) :
    next.slots = state.slots ++
      claimed.map fun slot => slot.schedule.claimRecord nowMs slot.slotAtMs := by
  simp only [claimDueSlots, bind_eq_ok, pure_eq_ok] at ran
  obtain ⟨⟨schedules, claims⟩, loops, result⟩ := ran
  obtain ⟨more, isClaimed, isRecord⟩ := extends_claimSchedules loops
  rw [List.nil_append] at isClaimed
  split_ifs at result with none
  · cases result
  · cases result
    change claims.slots = _
    rw [isRecord, isClaimed]

/-- The slots of a claim are found when each has few enough records after it in the table with
all of them. -/
theorem findsClaims_iff :
    FindsClaims calendar nowMs maxPerSchedule state ↔
      ∀ next claimed,
        claimDueSlots calendar nowMs maxPerSchedule state = .ok (some next, claimed) →
          ∀ slot ∈ claimed, recordsAfter
            (state.slots ++ claimed.map fun slot => slot.schedule.claimRecord nowMs slot.slotAtMs)
            (slot.schedule.claimRecord nowMs slot.slotAtMs) < maxSlotEntries := by
  refine forall_congr' fun next => forall_congr' fun claimed => forall_congr' fun ran =>
    forall_congr' fun slot => forall_congr' fun member => ?_
  have table := slots_of_claimDueSlots ran
  have isRecord : slot.schedule.claimRecord nowMs slot.slotAtMs ∈ next.slots := by
    rw [table]
    exact List.mem_append_right _ (List.mem_map_of_mem member)
  rw [← table, ← recorded_saveState_iff isRecord]
  constructor
  · intro finds
    exact findsSlot_iff.mp (finds [] (by simp))
  · intro known log quiet
    exact findsSlot_iff.mpr (recorded_serialState quiet (length_slots_saveState_le next) known)

end Claims

/-- A save keeps the newest slots exactly when the records around its cut are in the order of
time, and a claimed slot is found exactly when few enough records come after it. -/
theorem retention_iff (calendar : UtcCalendar) (nowMs maxPerSchedule : ℕ) (state : SchedulerState) :
    ((∃ dropped, Retention state.slots (saveState state).slots dropped) ↔
      CutFollowsTime state.slots) ∧
    (FindsClaims calendar nowMs maxPerSchedule state ↔
      ∀ next claimed,
        claimDueSlots calendar nowMs maxPerSchedule state = .ok (some next, claimed) →
          ∀ slot ∈ claimed, recordsAfter
            (state.slots ++ claimed.map fun slot => slot.schedule.claimRecord nowMs slot.slotAtMs)
            (slot.schedule.claimRecord nowMs slot.slotAtMs) < maxSlotEntries) :=
  ⟨exists_retention_iff, findsClaims_iff⟩

/-! ### A claim that is dropped by its own save -/

/-- The record of a finished run of the schedule `b`. -/
def finishedRecord (slotMs : ℕ) : ScheduleSlotRecord :=
  { (everyMinuteTask "b").claimRecord slotMs slotMs with phase := .completed }

/-- A table that is full of old records of the schedule `b`, with a due schedule `a`. -/
def fullTable : SchedulerState :=
  ⟨[everyMinuteTask "a"], (List.range maxSlotEntries).map finishedRecord, []⟩

theorem mem_slots_fullTable {record : ScheduleSlotRecord} :
    record ∈ fullTable.slots ↔ ∃ slotMs < maxSlotEntries, finishedRecord slotMs = record := by
  simp only [fullTable, List.mem_map, List.mem_range]

theorem length_slots_fullTable : fullTable.slots.length = maxSlotEntries := by
  simp only [fullTable, List.length_map, List.length_range]

theorem claim_fullTable : ∃ next, claimDueSlots gregorian 60000 1 fullTable =
    .ok (some next, [⟨everyMinuteTask "a", 60000⟩]) := by
  have wellFormed : WellFormed gregorian fullTable.schedules :=
    ⟨by simp [fullTable], by
      simp only [fullTable, List.mem_singleton, forall_eq]
      exact ⟨everyMinuteCron, parse_everyMinute, by decide, matches_everyMinuteCron (by decide)⟩⟩
  obtain ⟨⟨saved, claimed⟩, ran⟩ := (exists_claimDueSlots 60000 1 wellFormed).mpr (by
    simp only [fullTable, List.mem_singleton, forall_eq]
    exact hasSuccessors_everyMinute rfl (by decide) _)
  have due : (everyMinuteTask "a").dueSlots gregorian (minuteSlot 60000) = [60000] := by
    decide +kernel
  have unknown : ¬ Recorded fullTable.slots "a" 60000 := by
    rintro ⟨_, member, same, -⟩
    obtain ⟨_, -, rfl⟩ := mem_slots_fullTable.mp member
    exact absurd same (show "b" ≠ "a" by decide)
  have isClaimed : claimed = [⟨everyMinuteTask "a", 60000⟩] := by
    have fresh : (everyMinuteTask "a").freshSlots gregorian fullTable.slots 60000 (max 1 1) =
        [60000] := by
      rw [ScheduledTask.freshSlots, due]
      exact List.filter_eq_self.mpr fun _ member =>
        decide_eq_true ((List.mem_singleton.mp member).symm ▸ unknown)
    rw [(claimDueSlots_spec wellFormed ran).1, claimedSlots,
      show fullTable.schedules = [everyMinuteTask "a"] from rfl, List.flatMap_singleton, fresh]
    rfl
  subst isClaimed
  have saves : saved ≠ none := fun none => by simpa using (saved_of_claimDueSlots ran).mp none
  obtain ⟨next, rfl⟩ := Option.ne_none_iff_exists'.mp saves
  exact ⟨next, ran⟩

/-- The save of a claim drops the claimed slot and keeps older ones, so that the slot is not
found. -/
theorem fresh_claim_is_dropped : ∃ next,
    claimDueSlots gregorian 60000 1 fullTable =
      .ok (some next, [⟨everyMinuteTask "a", 60000⟩]) ∧
    (¬ ∃ dropped, Retention next.slots (saveState next).slots dropped) ∧
    ¬ FindsClaims gregorian 60000 1 fullTable := by
  obtain ⟨next, ran⟩ := claim_fullTable
  have table := slots_of_claimDueSlots ran
  have less : "a" < "b" := by decide
  -- The table is sorted by schedule first, so every record of `b` comes after that of `a`.
  have isLast : ∀ slotMs, ¬ (finishedRecord slotMs).Before
      ((everyMinuteTask "a").claimRecord 60000 60000) := by
    rintro slotMs (greater | ⟨same, -⟩)
    · exact less.asymm greater
    · exact less.ne' same
  have isFirst : ∀ other ∈ next.slots,
      ((everyMinuteTask "a").claimRecord 60000 60000).Before other := by
    intro other member
    rw [table] at member
    rcases List.mem_append.mp member with old | new
    · obtain ⟨slotMs, -, rfl⟩ := mem_slots_fullTable.mp old
      exact .inl less
    · obtain rfl := List.mem_singleton.mp new
      exact refl _
  refine ⟨next, ran, ?_, ?_⟩
  · rw [exists_retention_iff]
    intro follows
    have here : (everyMinuteTask "a").claimRecord 60000 60000 ∈ next.slots := by
      rw [table]
      exact List.mem_append_right _ List.mem_cons_self
    have old : finishedRecord 4095 ∈ next.slots := by
      rw [table]
      exact List.mem_append_left _ (mem_slots_fullTable.mpr ⟨4095, by decide, rfl⟩)
    have length : next.slots.length = maxSlotEntries + 1 := by
      rw [table, List.length_append, length_slots_fullTable, List.length_map, List.length_singleton]
    refine absurd (follows _ here _ old ?_ ?_) (by decide)
    · have none : recordsBefore next.slots ((everyMinuteTask "a").claimRecord 60000 60000) = 0 :=
        List.countP_eq_zero.mpr fun other member => by simpa using isFirst other member
      rw [none, length, Nat.add_sub_cancel_left]
      exact one_pos
    · have none : recordsAfter next.slots (finishedRecord 4095) = 0 := by
        refine List.countP_eq_zero.mpr fun other member => ?_
        rw [table] at member
        rcases List.mem_append.mp member with earlier | new
        · obtain ⟨slotMs, early, rfl⟩ := mem_slots_fullTable.mp earlier
          have before : (finishedRecord slotMs).Before (finishedRecord 4095) :=
            .inr ⟨rfl, Nat.le_of_lt_succ early⟩
          simpa using before
        · obtain rfl := List.mem_singleton.mp new
          have before : ((everyMinuteTask "a").claimRecord 60000 60000).Before
              (finishedRecord 4095) := .inl less
          simpa using before
      rw [none]
      decide
  · rw [findsClaims_iff]
    intro few
    refine absurd (few next _ ran _ List.mem_cons_self) (not_lt.mpr ?_)
    have all : recordsAfter fullTable.slots ((everyMinuteTask "a").claimRecord 60000 60000) =
        maxSlotEntries := by
      have every := List.countP_eq_length (p := fun other : ScheduleSlotRecord =>
        ¬ other.Before ((everyMinuteTask "a").claimRecord 60000 60000)) (l := fullTable.slots)
      rw [recordsAfter, every.mpr, length_slots_fullTable]
      intro other member
      obtain ⟨slotMs, -, rfl⟩ := mem_slots_fullTable.mp member
      simpa using isLast slotMs
    rw [recordsAfter, List.countP_append, ← recordsAfter, all]
    exact Nat.le_add_right _ _

end KelvinClaw.Scheduler
