import Mathlib.Data.List.Sort
import KelvinClaw.Scheduler.Cron

/-!
# Due slots

What a schedule owes: the instants its expression accepts, in steps of a minute,
from its pointer to the start of the current minute. The search of the previous
module walks through exactly these.
-/

namespace KelvinClaw.Scheduler.CronSchedule

open KelvinClaw.Core

variable (calendar : UtcCalendar) (cron : CronSchedule)

/-- The accepted instants from `fromMs` up to `cutoff`, in steps of a minute. -/
def dueSlots (fromMs cutoff : ℕ) : List ℕ :=
  (List.range' fromMs ((cutoff + minuteMs - fromMs) / minuteMs) minuteMs).filter
    fun slotMs => cron.Matches calendar slotMs

/-- A pointer stands at the start of a minute that the fields accept. -/
def Aligned (slotMs : ℕ) : Prop := slotMs % minuteMs = 0 ∧ cron.Matches calendar slotMs

variable {calendar cron} {fromMs cutoff slotMs nextMs : ℕ}

theorem mem_dueSlots :
    slotMs ∈ cron.dueSlots calendar fromMs cutoff ↔
      fromMs ≤ slotMs ∧ slotMs ≤ cutoff ∧ minuteMs ∣ slotMs - fromMs ∧
        cron.Matches calendar slotMs := by
  rw [dueSlots, List.mem_filter, decide_eq_true_eq, List.mem_range', ← and_assoc, ← and_assoc]
  refine and_congr_left fun _ => ⟨?_, ?_⟩
  · rintro ⟨steps, few, rfl⟩
    rw [Nat.lt_div_iff_mul_lt (by decide)] at few
    exact ⟨by simp only [minuteMs] at *; omega, by simp⟩
  · rintro ⟨within, steps, distance⟩
    refine ⟨steps, ?_, by omega⟩
    rw [Nat.lt_div_iff_mul_lt (by decide)]
    simp only [minuteMs] at *
    omega

theorem pairwise_dueSlots : (cron.dueSlots calendar fromMs cutoff).Pairwise (· < ·) :=
  (List.pairwise_lt_range' minuteMs (by decide)).filter _

theorem dueSlots_of_lt (past : cutoff < fromMs) : cron.dueSlots calendar fromMs cutoff = [] := by
  rw [dueSlots, Nat.div_eq_of_lt (by simp only [minuteMs]; omega)]
  rfl

theorem dueSlots_of_le (reached : fromMs ≤ cutoff) :
    cron.dueSlots calendar fromMs cutoff =
      if cron.Matches calendar fromMs
        then fromMs :: cron.dueSlots calendar (fromMs + minuteMs) cutoff
        else cron.dueSlots calendar (fromMs + minuteMs) cutoff := by
  have count : (cutoff + minuteMs - fromMs) / minuteMs =
      (cutoff + minuteMs - (fromMs + minuteMs)) / minuteMs + 1 := by
    rw [← Nat.add_div_right _ (by decide)]
    congr 1
    omega
  rw [dueSlots, count, List.range'_succ, List.filter_cons]
  simp only [decide_eq_true_eq]
  rfl

theorem dueSlots_of_skipped {steps : ℕ}
    (skipped : ∀ k < steps, ¬ cron.Matches calendar (fromMs + k * minuteMs)) :
    cron.dueSlots calendar (fromMs + steps * minuteMs) cutoff =
      cron.dueSlots calendar fromMs cutoff := by
  induction steps with
  | zero => simp
  | succ steps ih =>
    rw [← ih fun k before => skipped k (by omega)]
    rcases Nat.lt_or_ge cutoff (fromMs + steps * minuteMs) with past | reached
    · rw [dueSlots_of_lt past, dueSlots_of_lt (by rw [Nat.succ_mul]; omega)]
    · rw [dueSlots_of_le reached, if_neg (skipped steps (by omega)), Nat.succ_mul, Nat.add_assoc]

theorem matches_of_nextSlotAfter (accepted : cron.Matches calendar slotMs)
    (next : cron.nextSlotAfter calendar slotMs = .ok nextMs) :
    slotMs < nextMs ∧ minuteMs ∣ nextMs - slotMs ∧ cron.Matches calendar nextMs := by
  obtain ⟨steps, _, rfl, matching, _⟩ := (nextSlotAfter_eq_ok accepted).mp next
  have positive : 0 < (steps + 1) * minuteMs := Nat.mul_pos (by omega) (by decide)
  exact ⟨by omega, by simp, matching⟩

theorem Aligned.next (aligned : cron.Aligned calendar slotMs)
    (next : cron.nextSlotAfter calendar slotMs = .ok nextMs) : cron.Aligned calendar nextMs := by
  obtain ⟨later, divides, matching⟩ := matches_of_nextSlotAfter aligned.2 next
  refine ⟨?_, matching⟩
  have := aligned.1
  simp only [minuteMs] at *
  omega

/-- **The search walks the due slots.** From a due slot it leads to the next one, or
past the cutoff when there is none. -/
theorem dueSlots_eq_cons (accepted : cron.Matches calendar slotMs) (due : slotMs ≤ cutoff)
    (next : cron.nextSlotAfter calendar slotMs = .ok nextMs) :
    cron.dueSlots calendar slotMs cutoff = slotMs :: cron.dueSlots calendar nextMs cutoff := by
  obtain ⟨steps, _, rfl, _, skipped⟩ := (nextSlotAfter_eq_ok accepted).mp next
  rw [dueSlots_of_le due, if_pos accepted]
  congr 1
  have shift : ∀ k, slotMs + (k + 1) * minuteMs = slotMs + minuteMs + k * minuteMs :=
    fun k => by rw [Nat.succ_mul]; omega
  simp only [shift] at skipped ⊢
  exact (dueSlots_of_skipped fun k before matching => by
    rw [Matches, skipped k before] at matching
    cases matching).symm

/-! ### Every minute -/

theorem hasSuccessor_everyMinuteCron (inRange : slotMs + minuteMs ≤ maxTimestampMillis) :
    everyMinuteCron.HasSuccessor gregorian slotMs :=
  ⟨0, by decide, matches_everyMinuteCron (by simpa using inRange), by simp⟩

theorem length_dueSlots_everyMinuteCron (inRange : cutoff ≤ maxTimestampMillis) :
    (everyMinuteCron.dueSlots gregorian fromMs cutoff).length =
      (cutoff + minuteMs - fromMs) / minuteMs := by
  rw [dueSlots, List.filter_eq_self.mpr, List.length_range']
  intro slotMs member
  obtain ⟨steps, few, rfl⟩ := List.mem_range'.mp member
  rw [Nat.lt_div_iff_mul_lt (by decide)] at few
  exact decide_eq_true (matches_everyMinuteCron (by simp only [minuteMs] at *; omega))

end KelvinClaw.Scheduler.CronSchedule
