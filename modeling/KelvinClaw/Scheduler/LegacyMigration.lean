import Mathlib.Logic.Relation
import KelvinClaw.Core.Tool
import KelvinClaw.Scheduler.Persistence

/-!
# The migration of legacy schedules

A store that is opened without a state file migrates the records of a legacy file: it passes over
the records with an empty field, makes a task of each of the others, saves the tasks and then
renames the legacy file. A record that makes no task fails the migration, and no schedule is looked
up before another one is added.

So the migration does what it is for exactly if every record that is not passed over makes a task,
and no two records that make one have the same id. When the process dies between the save and the
renaming, the state file keeps the migration from being done again.
-/

namespace KelvinClaw.Scheduler

open KelvinClaw.Core

/-! ### The records -/

/-- The text of a field, which is empty if there is none. -/
def legacyText (key : String) (item : Value) : String :=
  ((item.get key).bind Value.asStr).getD ""

def Incomplete (item : Value) : Prop :=
  legacyText "id" item = "" ∨ legacyText "cron" item = "" ∨ legacyText "task" item = "" ∨
    legacyText "approval_reason" item = ""

instance (item : Value) : Decidable (Incomplete item) := inferInstanceAs (Decidable (_ ∨ _))

/-- What the clock shows while one record is migrated. -/
structure ClockReadings where
  createdMs : ℕ
  nowMs : ℕ
  auditMs : ℕ
  deriving DecidableEq, Repr

/-- A record, with the clock readings of its round of the loop. -/
structure LegacyRecord where
  item : Value
  readings : ClockReadings
  deriving DecidableEq, Repr

def LegacyRecord.id (record : LegacyRecord) : String := legacyText "id" record.item

def LegacyRecord.newTask (workspaceDir : String) (record : LegacyRecord) : NewScheduledTask where
  id := legacyText "id" record.item
  cron := legacyText "cron" record.item
  prompt := legacyText "task" record.item
  sessionId := none
  workspaceDir := some workspaceDir
  timeoutMs := none
  systemPrompt := none
  memoryQuery := none
  replyTarget := none
  createdBySession :=
    ((record.item.get "created_by_session").bind Value.asStr).getD "legacy"
  createdAtMs := record.readings.createdMs
  approvalReason := legacyText "approval_reason" record.item

def ScheduledTask.migrationAudit (task : ScheduledTask) (auditMs : ℕ) : ScheduleAuditEntry where
  tsMs := auditMs
  kind := "legacy_migrated"
  scheduleId := some task.id
  slotAtMs := none
  runId := none
  actorSessionId := some task.createdBySession
  message := s!"migrated legacy schedule '{task.id}'"
  detail := Value.object []

def legacyRecords (clock : ℕ → ClockReadings) (items : List Value) : List LegacyRecord :=
  items.zipIdx.map fun (item, round) => ⟨item, clock round⟩

section Migration

variable (calendar : UtcCalendar) (workspaceDir : String)

/-- The task that `add_schedule` would store for the record. -/
def LegacyRecord.task (record : LegacyRecord) : KelvinResult ScheduledTask :=
  (record.newTask workspaceDir).intoTask calendar record.readings.nowMs

def migrateRecord (state : SchedulerState) (record : LegacyRecord) :
    KelvinResult SchedulerState :=
  if Incomplete record.item then .ok state
  else do
    let task ← record.task calendar workspaceDir
    return { state with
      schedules := state.schedules ++ [task]
      audit := state.audit ++ [task.migrationAudit record.readings.auditMs] }

/-! ### Opening a store -/

/-- The files of a store: its state, the legacy file, and the renamed legacy files with the time in
their names. -/
structure SchedulerDisk where
  state : Option SchedulerState
  legacy : Option (List UInt8)
  migrated : List (ℕ × List UInt8)

/-- `fs::rename` of the legacy file, which replaces a file of the same name. -/
def SchedulerDisk.renameLegacy (disk : SchedulerDisk) (renamedMs : ℕ) : SchedulerDisk :=
  match disk.legacy with
  | none => disk
  | some bytes =>
    { disk with
      legacy := none
      migrated := (renamedMs, bytes) :: disk.migrated.filter fun file => file.1 ≠ renamedMs }

/-- The clock and the outcomes of the file operations while a store is opened. -/
structure Opening where
  clock : ℕ → ClockReadings
  renamedMs : ℕ
  createError : Option String
  readError : Option String
  saveError : Option String
  renames : Bool

/-- The file operations succeed. The renaming of the legacy file may fail. -/
def Opening.Healthy (opening : Opening) : Prop :=
  opening.createError = none ∧ opening.readError = none ∧ opening.saveError = none

/-- What an opening returns, and the disks that its file operations leave. -/
structure Opened where
  result : KelvinResult Unit
  disks : List SchedulerDisk

variable (parseItems : List UInt8 → Except String (List Value)) (legacyPath : String)

def migratedState (opening : Opening) (bytes : List UInt8) : KelvinResult SchedulerState := do
  if let some err := opening.readError then
    .error (.io s!"read legacy scheduler state: {err}")
  let items ← match parseItems bytes with
    | .ok items => .ok items
    | .error err =>
      .error (.invalidInput s!"invalid legacy scheduler state '{legacyPath}': {err}")
  let state ← (legacyRecords opening.clock items).foldlM (migrateRecord calendar workspaceDir)
    .default
  if let some err := opening.saveError then
    .error (.io err)
  return saveState state

/-- `migrate_legacy_if_needed`. -/
def migrateLegacyIfNeeded (opening : Opening) (disk : SchedulerDisk) : Opened :=
  match disk.state, disk.legacy with
  | none, some bytes =>
    match migratedState calendar workspaceDir parseItems legacyPath opening bytes with
    | .error err => ⟨.error err, []⟩
    | .ok state =>
      let saved := { disk with state := some state }
      ⟨.ok (), saved :: if opening.renames then [saved.renameLegacy opening.renamedMs] else []⟩
  | _, _ => ⟨.ok (), []⟩

/-- `SchedulerStore::new`. -/
def openStore (opening : Opening) (disk : SchedulerDisk) : Opened :=
  match opening.createError with
  | some err => ⟨.error (.io s!"create scheduler dir: {err}"), []⟩
  | none => migrateLegacyIfNeeded calendar workspaceDir parseItems legacyPath opening disk

def Reopens (before after : SchedulerDisk) : Prop :=
  ∃ opening, after = before ∨
    after ∈ (openStore calendar workspaceDir parseItems legacyPath opening before).disks

def Reopened : SchedulerDisk → SchedulerDisk → Prop :=
  Relation.ReflTransGen (Reopens calendar workspaceDir parseItems legacyPath)

/-! ### What the migration is for -/

/-- `add_schedule` would accept the record. -/
def LegacyRecord.Accepted (record : LegacyRecord) : Prop :=
  ∃ task, record.task calendar workspaceDir = .ok task

/-- The schedules are those of the accepted records, one for each of their ids. -/
structure HoldsEach (records : List LegacyRecord) (schedules : List ScheduledTask) : Prop where
  once : (schedules.map (·.id)).Nodup
  ids : ∀ id, (∃ task ∈ schedules, task.id = id) ↔
    ∃ record ∈ records, record.Accepted calendar workspaceDir ∧ record.id = id
  made : ∀ task ∈ schedules, ∃ record ∈ records, record.task calendar workspaceDir = .ok task

/-- The opening migrates the items of the legacy file: it succeeds, and from the save on the
schedules are what they should be, also if it stops then and the store is opened again. -/
def Migrates (opening : Opening) (disk : SchedulerDisk) (items : List Value) : Prop :=
  let opened := openStore calendar workspaceDir parseItems legacyPath opening disk
  opened.result = .ok () ∧
    ∃ state, HoldsEach calendar workspaceDir (legacyRecords opening.clock items) state.schedules ∧
      opened.disks ≠ [] ∧
        ∀ left ∈ opened.disks, ∀ later,
          Reopened calendar workspaceDir parseItems legacyPath left later →
            later.state = some state ∧
              ∀ again : Opening, again.createError = none →
                (openStore calendar workspaceDir parseItems legacyPath again later).result = .ok ()

/-- Each record that is not passed over is accepted, and the accepted ones differ in their ids. -/
structure Migratable (records : List LegacyRecord) : Prop where
  accepted : ∀ record ∈ records, ¬ Incomplete record.item →
    record.Accepted calendar workspaceDir
  distinct : records.Pairwise fun record other => record.Accepted calendar workspaceDir →
    other.Accepted calendar workspaceDir → record.id ≠ other.id

end Migration

/-! ### The loop -/

section Loop

variable {calendar : UtcCalendar} {workspaceDir : String} {record : LegacyRecord}
  {records : List LegacyRecord} {start state : SchedulerState}

theorem LegacyRecord.id_of_task {task : ScheduledTask}
    (made : record.task calendar workspaceDir = .ok task) : task.id = record.id :=
  (NewScheduledTask.of_intoTask_eq_ok made).1

theorem filled_of_intoTask {new : NewScheduledTask} {nowMs : ℕ} {task : ScheduledTask}
    (accepted : new.intoTask calendar nowMs = .ok task) :
    trim new.id ≠ "" ∧ trim new.prompt ≠ "" ∧ trim new.approvalReason ≠ "" ∧
      ∃ cron, CronSchedule.parse new.cron = .ok cron := by
  simp only [NewScheduledTask.intoTask, bind_eq_ok, validateIdentifier, refuseIf_eq_ok] at accepted
  obtain ⟨_, ⟨_, named, _⟩, _, prompted, _, approved, _, _, cron, parsed, _⟩ := accepted
  exact ⟨named, prompted, approved, cron, parsed⟩

theorem LegacyRecord.Accepted.complete (accepted : record.Accepted calendar workspaceDir) :
    ¬ Incomplete record.item := by
  obtain ⟨task, made⟩ := accepted
  obtain ⟨named, prompted, approved, cron, parsed⟩ := filled_of_intoTask made
  have blank : trim "" = "" := by decide
  rintro (id | expression | prompt | reason)
  · exact named ((congrArg trim id).trans blank)
  · rw [show (record.newTask workspaceDir).cron = "" from expression] at parsed
    cases parsed
  · exact prompted ((congrArg trim prompt).trans blank)
  · exact approved ((congrArg trim reason).trans blank)

def legacyTasks (calendar : UtcCalendar) (workspaceDir : String) (records : List LegacyRecord) :
    List ScheduledTask :=
  records.filterMap fun record => (record.task calendar workspaceDir).toOption

theorem migrateRecord_eq_ok : migrateRecord calendar workspaceDir start record = .ok state ↔
    (Incomplete record.item ∧ start = state) ∨
      ∃ task, record.task calendar workspaceDir = .ok task ∧
        { start with
          schedules := start.schedules ++ [task]
          audit := start.audit ++ [task.migrationAudit record.readings.auditMs] } = state := by
  unfold migrateRecord
  by_cases incomplete : Incomplete record.item
  · rw [if_pos incomplete, Except.ok.injEq]
    constructor
    · exact fun same => .inl ⟨incomplete, same⟩
    · rintro (⟨-, same⟩ | ⟨task, made, -⟩)
      · exact same
      · exact absurd incomplete (LegacyRecord.Accepted.complete ⟨task, made⟩)
  · rw [if_neg incomplete, bind_eq_ok]
    constructor
    · rintro ⟨task, made, same⟩
      exact .inr ⟨task, made, pure_eq_ok.mp same⟩
    · rintro (⟨passed, -⟩ | ⟨task, made, same⟩)
      · exact absurd passed incomplete
      · exact ⟨task, made, pure_eq_ok.mpr same⟩

theorem schedules_of_foldlM
    (migrates : records.foldlM (migrateRecord calendar workspaceDir) start = .ok state) :
    state.schedules = start.schedules ++ legacyTasks calendar workspaceDir records := by
  induction records generalizing start with
  | nil =>
    obtain rfl := pure_eq_ok.mp migrates
    exact (List.append_nil _).symm
  | cons record rest ih =>
    rw [List.foldlM_cons] at migrates
    obtain ⟨next, round, migrates⟩ := bind_eq_ok.mp migrates
    rw [ih migrates, legacyTasks, legacyTasks, List.filterMap_cons]
    rcases migrateRecord_eq_ok.mp round with ⟨incomplete, rfl⟩ | ⟨task, made, rfl⟩
    · cases made : record.task calendar workspaceDir with
      | error err => rfl
      | ok task => exact absurd incomplete (LegacyRecord.Accepted.complete ⟨task, made⟩)
    · rw [made]
      exact List.append_assoc _ _ _

theorem schedules_perm_of_foldlM
    (migrates : records.foldlM (migrateRecord calendar workspaceDir) .default = .ok state) :
    (saveState state).schedules.Perm (legacyTasks calendar workspaceDir records) :=
  (schedules_saveState_perm state).trans
    (.of_eq ((schedules_of_foldlM migrates).trans (List.nil_append _)))

theorem exists_foldlM_iff :
    (∃ state, records.foldlM (migrateRecord calendar workspaceDir) start = .ok state) ↔
      ∀ record ∈ records, ¬ Incomplete record.item → record.Accepted calendar workspaceDir := by
  induction records generalizing start with
  | nil => exact iff_of_true ⟨start, rfl⟩ (List.forall_mem_nil _)
  | cons record rest ih =>
    rw [List.forall_mem_cons, List.foldlM_cons]
    constructor
    · rintro ⟨state, migrates⟩
      obtain ⟨next, round, migrates⟩ := bind_eq_ok.mp migrates
      refine ⟨fun complete => ?_, ih.mp ⟨state, migrates⟩⟩
      rcases migrateRecord_eq_ok.mp round with ⟨incomplete, -⟩ | ⟨task, made, -⟩
      · exact absurd incomplete complete
      · exact ⟨task, made⟩
    · rintro ⟨first, others⟩
      have round : ∃ next, migrateRecord calendar workspaceDir start record = .ok next := by
        by_cases incomplete : Incomplete record.item
        · exact ⟨start, migrateRecord_eq_ok.mpr (.inl ⟨incomplete, rfl⟩)⟩
        · obtain ⟨task, made⟩ := first incomplete
          exact ⟨_, migrateRecord_eq_ok.mpr (.inr ⟨task, made, rfl⟩)⟩
      obtain ⟨next, migrated⟩ := round
      obtain ⟨state, migrates⟩ := (@ih next).mpr others
      exact ⟨state, bind_eq_ok.mpr ⟨next, migrated, migrates⟩⟩

theorem mem_legacyTasks {task : ScheduledTask} :
    task ∈ legacyTasks calendar workspaceDir records ↔
      ∃ record ∈ records, record.task calendar workspaceDir = .ok task := by
  rw [legacyTasks, List.mem_filterMap]
  refine exists_congr fun record => and_congr_right fun _ => ?_
  cases record.task calendar workspaceDir with
  | error err => exact ⟨nofun, nofun⟩
  | ok made => exact ⟨fun same => congrArg _ (Option.some_inj.mp same),
      fun same => congrArg _ (Except.ok.inj same)⟩

theorem nodup_legacyTasks : ((legacyTasks calendar workspaceDir records).map (·.id)).Nodup ↔
    records.Pairwise fun record other => record.Accepted calendar workspaceDir →
      other.Accepted calendar workspaceDir → record.id ≠ other.id := by
  rw [List.Nodup, List.pairwise_map, legacyTasks, List.pairwise_filterMap]
  refine List.Pairwise.iff fun record other => ?_
  constructor
  · rintro apart ⟨task, made⟩ ⟨task', made'⟩
    rw [← LegacyRecord.id_of_task made, ← LegacyRecord.id_of_task made']
    exact apart task (by rw [made]; rfl) task' (by rw [made']; rfl)
  · intro apart task made task' made'
    have isTask {record : LegacyRecord} {task : ScheduledTask}
        (found : (record.task calendar workspaceDir).toOption = some task) :
        record.task calendar workspaceDir = .ok task := by
      cases result : record.task calendar workspaceDir with
      | error err =>
        rw [result] at found
        cases found
      | ok task' =>
        rw [result] at found
        exact congrArg _ (Option.some_inj.mp found)
    rw [LegacyRecord.id_of_task (isTask made), LegacyRecord.id_of_task (isTask made')]
    exact apart ⟨task, isTask made⟩ ⟨task', isTask made'⟩

/-- Saved in any order, the tasks of the records hold each id once if the ids differ. -/
theorem holdsEach_iff {schedules : List ScheduledTask}
    (saved : schedules.Perm (legacyTasks calendar workspaceDir records)) :
    HoldsEach calendar workspaceDir records schedules ↔
      records.Pairwise fun record other => record.Accepted calendar workspaceDir →
        other.Accepted calendar workspaceDir → record.id ≠ other.id := by
  rw [← nodup_legacyTasks, ← (saved.map (·.id)).nodup_iff]
  refine ⟨HoldsEach.once, fun once => ⟨once, fun id => ?_, fun task member => ?_⟩⟩
  · constructor
    · rintro ⟨task, member, rfl⟩
      obtain ⟨record, listed, made⟩ := mem_legacyTasks.mp (saved.mem_iff.mp member)
      exact ⟨record, listed, ⟨task, made⟩, (LegacyRecord.id_of_task made).symm⟩
    · rintro ⟨record, listed, ⟨task, made⟩, rfl⟩
      exact ⟨task, saved.mem_iff.mpr (mem_legacyTasks.mpr ⟨record, listed, made⟩),
        LegacyRecord.id_of_task made⟩
  · exact mem_legacyTasks.mp (saved.mem_iff.mp member)

end Loop

/-! ### Openings -/

section Openings

variable {calendar : UtcCalendar} {workspaceDir legacyPath : String}
  {parseItems : List UInt8 → Except String (List Value)} {opening : Opening}
  {disk later : SchedulerDisk} {state : SchedulerState} {bytes : List UInt8} {items : List Value}

theorem openStore_of_state (present : disk.state = some state)
    (created : opening.createError = none) :
    openStore calendar workspaceDir parseItems legacyPath opening disk = ⟨.ok (), []⟩ := by
  rw [openStore, created]
  simp only [migrateLegacyIfNeeded, present]

theorem state_of_reopens (present : disk.state = some state)
    (reopens : Reopens calendar workspaceDir parseItems legacyPath disk later) :
    later.state = some state := by
  obtain ⟨opening, rfl | left⟩ := reopens
  · exact present
  · cases created : opening.createError with
    | none =>
      rw [openStore_of_state present created] at left
      cases left
    | some err =>
      rw [openStore, created] at left
      cases left

theorem state_of_reopened (present : disk.state = some state)
    (reopened : Reopened calendar workspaceDir parseItems legacyPath disk later) :
    later.state = some state := by
  induction reopened with
  | refl => exact present
  | tail _ reopens before => exact state_of_reopens before reopens

theorem migratedState_eq_ok (healthy : opening.Healthy) (parses : parseItems bytes = .ok items) :
    migratedState calendar workspaceDir parseItems legacyPath opening bytes = .ok state ↔
      ∃ kept, (legacyRecords opening.clock items).foldlM (migrateRecord calendar workspaceDir)
        .default = .ok kept ∧ saveState kept = state := by
  obtain ⟨-, read, saved⟩ := healthy
  simp only [migratedState, read, saved, parses, bind_eq_ok, pure_eq_ok]
  constructor
  · rintro ⟨_, same, kept, migrates, isState⟩
    obtain rfl := Except.ok.inj same
    exact ⟨kept, migrates, isState⟩
  · rintro ⟨kept, migrates, isState⟩
    exact ⟨items, rfl, kept, migrates, isState⟩

theorem state_of_renameLegacy (renamedMs : ℕ) :
    (disk.renameLegacy renamedMs).state = disk.state := by
  unfold SchedulerDisk.renameLegacy
  split
  · rfl
  · rfl

theorem openStore_of_migratedState (fresh : disk.state = none) (legacy : disk.legacy = some bytes)
    (created : opening.createError = none)
    (migrated : migratedState calendar workspaceDir parseItems legacyPath opening bytes =
      .ok state) :
    let opened := openStore calendar workspaceDir parseItems legacyPath opening disk
    opened.result = .ok () ∧ opened.disks ≠ [] ∧
      ∀ left ∈ opened.disks, left.state = some state := by
  simp only [openStore, created, migrateLegacyIfNeeded, fresh, legacy, migrated]
  refine ⟨trivial, List.cons_ne_nil _ _, fun left member => ?_⟩
  rcases List.mem_cons.mp member with rfl | renamed
  · rfl
  · split at renamed
    · obtain rfl := List.mem_singleton.mp renamed
      exact state_of_renameLegacy _
    · cases renamed

theorem migratable_of_migrates (fresh : disk.state = none) (legacy : disk.legacy = some bytes)
    (parses : parseItems bytes = .ok items) (healthy : opening.Healthy)
    (migrates : Migrates calendar workspaceDir parseItems legacyPath opening disk items) :
    Migratable calendar workspaceDir (legacyRecords opening.clock items) := by
  obtain ⟨opens, state, holds, nonempty, stays⟩ := migrates
  cases migrated : migratedState calendar workspaceDir parseItems legacyPath opening bytes with
  | error err =>
    simp only [openStore, healthy.1, migrateLegacyIfNeeded, fresh, legacy, migrated] at opens
    cases opens
  | ok saved =>
    obtain ⟨-, -, saves⟩ := openStore_of_migratedState fresh legacy healthy.1 migrated
    obtain ⟨left, member⟩ := List.exists_mem_of_ne_nil _ nonempty
    obtain rfl : saved = state :=
      Option.some_inj.mp ((saves left member).symm.trans (stays left member left .refl).1)
    obtain ⟨kept, loop, rfl⟩ := (migratedState_eq_ok healthy parses).mp migrated
    refine ⟨exists_foldlM_iff.mp ⟨kept, loop⟩, (holdsEach_iff ?_).mp holds⟩
    exact schedules_perm_of_foldlM loop

theorem migrates_of_migratable (fresh : disk.state = none) (legacy : disk.legacy = some bytes)
    (parses : parseItems bytes = .ok items) (healthy : opening.Healthy)
    (migratable : Migratable calendar workspaceDir (legacyRecords opening.clock items)) :
    Migrates calendar workspaceDir parseItems legacyPath opening disk items := by
  obtain ⟨kept, loop⟩ := (@exists_foldlM_iff _ _ _ SchedulerState.default).mpr migratable.accepted
  obtain ⟨opens, nonempty, saves⟩ := @openStore_of_migratedState _ _ legacyPath parseItems _ _ _ _
    fresh legacy healthy.1 ((migratedState_eq_ok healthy parses).mpr ⟨kept, loop, rfl⟩)
  refine ⟨opens, saveState kept, (holdsEach_iff ?_).mpr migratable.distinct, nonempty,
    fun left member later reopened => ?_⟩
  · exact schedules_perm_of_foldlM loop
  · have present := state_of_reopened (saves left member) reopened
    refine ⟨present, fun again created => ?_⟩
    rw [openStore_of_state present created]

end Openings

/-- **Legacy schedules.** The first opening migrates the records for good exactly if all that are
not passed over are accepted, with different ids. -/
theorem legacy_migration_iff (calendar : UtcCalendar) (workspaceDir legacyPath : String)
    (parseItems : List UInt8 → Except String (List Value)) (opening : Opening)
    (disk : SchedulerDisk) (bytes : List UInt8) (items : List Value) (fresh : disk.state = none)
    (legacy : disk.legacy = some bytes) (parses : parseItems bytes = .ok items)
    (healthy : opening.Healthy) :
    Migrates calendar workspaceDir parseItems legacyPath opening disk items ↔
      Migratable calendar workspaceDir (legacyRecords opening.clock items) :=
  ⟨migratable_of_migrates fresh legacy parses healthy,
    migrates_of_migratable fresh legacy parses healthy⟩

/-! ### Two records -/

def reportRecord (id cron : String) : Value :=
  .obj [("approval_reason", .str "approved"), ("cron", .str cron), ("id", .str id),
    ("task", .str "report")]

def firstOpening : Opening := ⟨fun _ => ⟨60000, 60000, 60000⟩, 60000, none, none, none, true⟩

def legacyDisk : SchedulerDisk := ⟨none, some [], []⟩

theorem every_minute_accepted (id : String) (made :
    ((LegacyRecord.mk (reportRecord id "* * * * *") ⟨60000, 60000, 60000⟩).task gregorian
      "workspace").isOk = true) :
    (LegacyRecord.mk (reportRecord id "* * * * *") ⟨60000, 60000, 60000⟩).Accepted gregorian
      "workspace" := by
  unfold LegacyRecord.Accepted
  cases result : (LegacyRecord.mk (reportRecord id "* * * * *") ⟨60000, 60000, 60000⟩).task
      gregorian "workspace" with
  | error err =>
    rw [result] at made
    cases made
  | ok task => exact ⟨task, rfl⟩

/-- Two records with different ids are migrated. -/
theorem two_reports_migrate :
    Migrates gregorian "workspace"
      (fun _ => .ok [reportRecord "daily" "* * * * *", reportRecord "weekly" "* * * * *"])
      "tasks.json" firstOpening legacyDisk
      [reportRecord "daily" "* * * * *", reportRecord "weekly" "* * * * *"] := by
  refine (legacy_migration_iff gregorian "workspace" "tasks.json" _ firstOpening legacyDisk [] _
    rfl rfl rfl ⟨rfl, rfl, rfl⟩).mpr ⟨fun record member _ => ?_, ?_⟩
  · rcases List.mem_cons.mp member with rfl | member
    · exact every_minute_accepted "daily" (by decide +kernel)
    · obtain rfl := List.mem_singleton.mp member
      exact every_minute_accepted "weekly" (by decide +kernel)
  · refine List.pairwise_pair.mpr fun _ _ => ?_
    decide +kernel

/-- A repeated id is migrated twice, and one record with a bad expression keeps the other one from
being migrated. -/
theorem legacy_records_lost :
    ¬ Migrates gregorian "workspace"
        (fun _ => .ok [reportRecord "daily" "* * * * *", reportRecord "daily" "* * * * *"])
        "tasks.json" firstOpening legacyDisk
        [reportRecord "daily" "* * * * *", reportRecord "daily" "* * * * *"] ∧
      ¬ Migrates gregorian "workspace"
        (fun _ => .ok [reportRecord "daily" "* * * * *", reportRecord "weekly" "weekly"])
        "tasks.json" firstOpening legacyDisk
        [reportRecord "daily" "* * * * *", reportRecord "weekly" "weekly"] := by
  constructor
  · intro migrates
    have distinct := (migratable_of_migrates rfl rfl rfl ⟨rfl, rfl, rfl⟩ migrates).distinct
    have accepted := every_minute_accepted "daily" (by decide +kernel)
    exact List.pairwise_pair.mp distinct accepted accepted rfl
  · intro migrates
    obtain ⟨task, made⟩ := (migratable_of_migrates rfl rfl rfl ⟨rfl, rfl, rfl⟩ migrates).accepted
      ⟨reportRecord "weekly" "weekly", ⟨60000, 60000, 60000⟩⟩
      (List.mem_cons_of_mem _ List.mem_cons_self) (by decide +kernel)
    have refused : ((LegacyRecord.mk (reportRecord "weekly" "weekly") ⟨60000, 60000, 60000⟩).task
        gregorian "workspace").isOk = false := by decide +kernel
    rw [made] at refused
    cases refused

end KelvinClaw.Scheduler
