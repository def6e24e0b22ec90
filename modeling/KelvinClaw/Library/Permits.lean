import Mathlib.Data.List.Basic

/-!
# Permits of a pool

A pool hands out a fixed number of permits. Every party either holds one or does not, and the
free permits and those held add up to the capacity as long as each party that stops holding gives
its permit back. What only holders do, at most as many parties do as the pool has permits.
-/

namespace Systems.Permits

variable {α : Type*} {holds acts : α → Bool} {capacity available : ℕ} {parties : List α}
  {index : ℕ} {old new : α}

/-- The free permits and those that parties hold add up to the capacity. -/
def Balanced (capacity available : ℕ) (holds : α → Bool) (parties : List α) : Prop :=
  available + parties.countP holds = capacity

/-- A party that held a permit and does not any more has given it back. -/
def released (holds : α → Bool) (old new : α) : ℕ :=
  if holds old = true ∧ holds new = false then 1 else 0

theorem balanced_nil (holds : α → Bool) : Balanced capacity capacity holds [] := by
  rfl

/-- A new party takes a free permit. -/
theorem Balanced.join (balanced : Balanced capacity available holds parties)
    (free : available ≠ 0) (held : holds new = true) :
    Balanced capacity (available - 1) holds (parties ++ [new]) := by
  unfold Balanced at balanced ⊢
  rw [List.countP_append, List.countP_singleton, if_pos held]
  omega

/-- A party changes without taking a permit, and gives back the one it does not hold any more. -/
theorem Balanced.set (balanced : Balanced capacity available holds parties)
    (found : parties[index]? = some old) (kept : holds new = true → holds old = true) :
    Balanced capacity (available + released holds old new) holds (parties.set index new) := by
  obtain ⟨inside, here⟩ := List.getElem?_eq_some_iff.mp found
  have counted : holds old = true → 0 < parties.countP holds := fun held =>
    List.countP_pos_iff.mpr ⟨old, List.mem_of_getElem? found, held⟩
  unfold Balanced released at *
  rw [List.countP_set inside, here]
  cases before : holds old with
  | false =>
    have after : holds new = false := Bool.eq_false_iff.mpr fun held =>
      Bool.false_ne_true (before ▸ kept held)
    simpa [after] using balanced
  | true =>
    have := counted before
    cases after : holds new with
    | false => simp only [and_self, if_true, Bool.false_eq_true, if_false]; omega
    | true => simp only [Bool.true_eq_false, and_false, if_false, if_true]; omega

theorem Balanced.countP_holds_le (balanced : Balanced capacity available holds parties) :
    parties.countP holds ≤ capacity :=
  balanced ▸ Nat.le_add_left _ _

/-- What only holders do, at most as many parties do as there are permits. -/
theorem Balanced.countP_le (balanced : Balanced capacity available holds parties)
    (only : ∀ party ∈ parties, acts party = true → holds party = true) :
    parties.countP acts ≤ capacity :=
  Nat.le_trans (List.countP_mono_left only) balanced.countP_holds_le

end Systems.Permits
