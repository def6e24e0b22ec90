import Mathlib.Data.List.TakeWhile

/-!
# Streaks

A history lists values from the newest to the oldest. Its streak is the number of newest
values that are equal. A counter keeps it without the history: it needs the newest value
alone.
-/

namespace Systems

variable {α : Type*} [DecidableEq α] {a b : α} {earlier : List α} {n : ℕ}

/-- The number of newest values of a history that are equal. -/
def streak : List α → ℕ
  | [] => 0
  | newest :: earlier => (earlier.takeWhile (· = newest)).length + 1

/-- The value of before goes on with the streak. -/
theorem streak_cons_self (a : α) (earlier : List α) :
    streak (a :: a :: earlier) = streak (a :: earlier) + 1 := by
  simp [streak]

/-- Another value begins a new streak. -/
theorem streak_cons_of_ne (differ : b ≠ a) : streak (a :: b :: earlier) = 1 := by
  simp [streak, differ]

/-- A streak is at least `n` long when the `n` newest values are there and equal. -/
theorem le_streak_iff :
    n ≤ streak (a :: earlier) ↔
      n ≤ (a :: earlier).length ∧ ∀ b ∈ (a :: earlier).take n, b = a := by
  induction earlier generalizing n with
  | nil =>
    rcases n with _ | _ | n <;> simp [streak]
  | cons b earlier ih =>
    rcases n with _ | n
    · simp
    by_cases same : b = a
    · subst same
      rw [streak_cons_self, Nat.add_le_add_iff_right, ih]
      simp [List.take_succ_cons]
    · rw [streak_cons_of_ne same]
      rcases n with _ | n <;> simp [same]

end Systems
