import Mathlib.Data.List.Basic

/-!
# Sliding windows

A limiter lets at most a quota of requests pass in any window of a given width. It keeps the
times of those that passed, drops the ones from the front that are too old, and lets another
one pass while fewer than the quota are left. Its list may hold more than the times of those
that passed, and a stale copy of it may be put back, as long as it *covers* what passed last.
-/

namespace Systems

variable (width quota : ℕ)

/-- Every window of the width, ends included, has at most a quota of the times. -/
def WithinQuota (times : List ℕ) : Prop :=
  ∀ start, times.countP (fun ts => start ≤ ts ∧ ts ≤ start + width) ≤ quota

def Covers (now : ℕ) (kept times : List ℕ) : Prop :=
  (times.filter fun ts => now - ts ≤ width).Sublist kept

def dropOld (now : ℕ) (kept : List ℕ) : List ℕ := kept.dropWhile fun ts => width < now - ts

variable {width quota} {now after : ℕ} {kept times : List ℕ}

theorem withinQuota_nil : WithinQuota width quota [] := fun _ => Nat.zero_le _

theorem covers_nil : Covers width now kept [] := List.nil_sublist kept

/-- What is too old stays too old. -/
theorem Covers.later (covers : Covers width now kept times) (passes : now ≤ after) :
    Covers width after kept times := by
  apply List.Sublist.trans _ covers
  apply List.monotone_filter_right
  intro ts recent
  simp only [decide_eq_true_eq] at recent ⊢
  omega

/-- Dropping what is too old drops nothing that has to be kept. -/
theorem filter_dropOld :
    (dropOld width now kept).filter (fun ts => now - ts ≤ width) =
      kept.filter fun ts => now - ts ≤ width := by
  unfold dropOld
  induction kept with
  | nil => rfl
  | cons ts rest ih =>
    by_cases old : width < now - ts
    · have dropped : ¬ now - ts ≤ width := by omega
      simp only [List.dropWhile_cons, decide_eq_true old, if_true, ih, List.filter_cons,
        decide_eq_false dropped, Bool.false_eq_true, if_false]
    · simp only [List.dropWhile_cons, decide_eq_false old, Bool.false_eq_true, if_false]

theorem Covers.dropOld (covers : Covers width now kept times) :
    Covers width now (Systems.dropOld width now kept) times := by
  have recent := covers.filter fun ts => now - ts ≤ width
  rw [List.filter_filter, ← filter_dropOld] at recent
  simp only [Bool.and_self] at recent
  exact recent.trans List.filter_sublist

theorem Covers.of_append {more : List ℕ} (covers : Covers width now kept (times ++ more)) :
    Covers width now kept times := by
  apply List.Sublist.trans _ covers
  rw [List.filter_append]
  exact List.sublist_append_left _ _

/-- The time of one more is put at the end. -/
theorem Covers.pass (covers : Covers width now kept times) :
    Covers width now (kept ++ [now]) (times ++ [now]) := by
  unfold Covers
  rw [List.filter_append]
  exact covers.append List.filter_sublist

/-- The first ones of those that passed are no more. -/
theorem WithinQuota.of_append {more : List ℕ} (within : WithinQuota width quota (times ++ more)) :
    WithinQuota width quota times := by
  intro start
  have all := within start
  rw [List.countP_append] at all
  exact Nat.le_trans (Nat.le_add_right _ _) all

/-- **The quota is kept.** One more may pass when the kept list covers those that passed and is
shorter than the quota. -/
theorem WithinQuota.pass (within : WithinQuota width quota times)
    (covers : Covers width now kept times) (room : kept.length < quota) :
    WithinQuota width quota (times ++ [now]) := by
  intro start
  rw [List.countP_append]
  by_cases inside : start ≤ now ∧ now ≤ start + width
  · -- those in the window with the new one are not too old now
    have recent : times.countP (fun ts => start ≤ ts ∧ ts ≤ start + width) ≤ kept.length := by
      rw [List.countP_eq_length_filter]
      apply Nat.le_trans _ covers.length_le
      apply List.Sublist.length_le
      apply List.monotone_filter_right
      intro ts window
      simp only [decide_eq_true_eq] at window ⊢
      omega
    simp only [List.countP_singleton, decide_eq_true_eq, if_pos inside]
    omega
  · simp only [List.countP_singleton, decide_eq_true_eq, if_neg inside]
    exact within start

end Systems
