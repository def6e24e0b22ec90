import Mathlib.Data.List.Sort
import Mathlib.Data.String.Basic
import KelvinClaw.Scheduler.Task

/-!
# The persisted scheduler state

The whole state lives in one file. Saving sorts the three tables, keeps the last
entries of the slot table and of the audit trail, and replaces the file; a save
that fails leaves the file as it was. The file is modelled by the state it holds.
-/

namespace KelvinClaw.Scheduler

open KelvinClaw.Core

def maxAuditEntries : ℕ := 4096

def maxSlotEntries : ℕ := 4096

@[ext] structure SchedulerState where
  schedules : List ScheduledTask
  slots : List ScheduleSlotRecord
  audit : List ScheduleAuditEntry
  deriving DecidableEq

def SchedulerState.default : SchedulerState := ⟨[], [], []⟩

/-- `load_state`, which fails when the file cannot be read. -/
def loadState (readError : Option String) (file : SchedulerState) : KelvinResult SchedulerState :=
  match readError with
  | none => .ok file
  | some err => .error (.io s!"read scheduler state: {err}")

/-- `drain(..keep_from)`: keep the last `bound` entries. -/
def keepLast {α : Type*} (bound : ℕ) (entries : List α) : List α :=
  if bound < entries.length then entries.drop (entries.length - bound) else entries

def ScheduleSlotRecord.Before (left right : ScheduleSlotRecord) : Prop :=
  left.scheduleId < right.scheduleId ∨
    (left.scheduleId = right.scheduleId ∧ left.slotAtMs ≤ right.slotAtMs)

instance (left right : ScheduleSlotRecord) : Decidable (left.Before right) :=
  inferInstanceAs (Decidable (_ ∨ _))

/-- `save_state`: the state that is written. -/
def saveState (state : SchedulerState) : SchedulerState where
  schedules := state.schedules.insertionSort fun left right => left.id ≤ right.id
  slots := keepLast maxSlotEntries (state.slots.insertionSort ScheduleSlotRecord.Before)
  audit := keepLast maxAuditEntries (state.audit.insertionSort fun left right =>
    left.tsMs ≤ right.tsMs)

def Recorded (slots : List ScheduleSlotRecord) (scheduleId : String) (slotAtMs : ℕ) : Prop :=
  ∃ slot ∈ slots, slot.scheduleId = scheduleId ∧ slot.slotAtMs = slotAtMs

instance (slots : List ScheduleSlotRecord) (scheduleId : String) (slotAtMs : ℕ) :
    Decidable (Recorded slots scheduleId slotAtMs) :=
  inferInstanceAs (Decidable (∃ slot ∈ slots, _))

/-! ### What a save keeps -/

theorem keepLast_sublist {α : Type*} (bound : ℕ) (entries : List α) :
    (keepLast bound entries).Sublist entries := by
  unfold keepLast
  split
  · exact List.drop_sublist _ _
  · exact List.Sublist.refl _

theorem keepLast_eq_self {α : Type*} {bound : ℕ} {entries : List α}
    (fits : entries.length ≤ bound) : keepLast bound entries = entries :=
  if_neg (by omega)

theorem length_keepLast_le {α : Type*} (bound : ℕ) (entries : List α) :
    (keepLast bound entries).length ≤ bound := by
  unfold keepLast
  split
  · rw [List.length_drop]
    omega
  · omega

variable (state : SchedulerState)

theorem length_slots_saveState_le : (saveState state).slots.length ≤ maxSlotEntries :=
  length_keepLast_le _ _

theorem schedules_saveState_perm : (saveState state).schedules.Perm state.schedules :=
  List.perm_insertionSort _ _

theorem mem_schedules_saveState {task : ScheduledTask} :
    task ∈ (saveState state).schedules ↔ task ∈ state.schedules :=
  (schedules_saveState_perm state).mem_iff

theorem Recorded.of_saveState {scheduleId : String} {slotAtMs : ℕ}
    (recorded : Recorded (saveState state).slots scheduleId slotAtMs) :
    Recorded state.slots scheduleId slotAtMs := by
  obtain ⟨slot, kept, same⟩ := recorded
  exact ⟨slot, (List.perm_insertionSort _ _).mem_iff.mp
    ((keepLast_sublist _ _).subset kept), same⟩

theorem recorded_saveState (fits : state.slots.length ≤ maxSlotEntries) (scheduleId : String)
    (slotAtMs : ℕ) :
    Recorded (saveState state).slots scheduleId slotAtMs ↔
      Recorded state.slots scheduleId slotAtMs := by
  have kept : (saveState state).slots = state.slots.insertionSort ScheduleSlotRecord.Before :=
    keepLast_eq_self (by rwa [List.length_insertionSort])
  rw [kept, Recorded, Recorded]
  simp only [List.mem_insertionSort]

end KelvinClaw.Scheduler
