import Mathlib.Data.List.Basic

/-!
# Logs that are compacted

A log grows by one entry at a time. When it exceeds its bound, all but the newest entries are
replaced by one entry that summarizes them. The summary counts as an entry like any other, so
a later compaction drops it together with the entries that follow it.

The policy keeps fewer entries than the bound. A compaction that starts with a summary then
drops the summary and at least one entry after it, and this is why one summary is all there
ever is.
-/

namespace Systems

/-- How long a log may grow, and how much of it survives when it has grown beyond that. -/
structure CompactionPolicy where
  bound : ℕ
  keep : ℕ
  keep_lt : keep < bound

namespace CompactionPolicy

variable {α : Type*} (policy : CompactionPolicy) (summarize : List α → α)

/-- Replace all but the newest entries of a log that is too long. -/
def compact (log : List α) : List α :=
  if log.length ≤ policy.bound then log
  else
    summarize (log.take (log.length - policy.keep)) :: log.drop (log.length - policy.keep)

/-- A log holds all the entries written, or a summary and the newest of them. -/
inductive Represents (written : List α) : List α → Prop
  | whole (fits : written.length ≤ policy.bound) : Represents written written
  | summarized (slice dropped kept : List α) (split : written = dropped ++ kept)
      (some_dropped : dropped ≠ []) (newest : policy.keep ≤ kept.length)
      (fits : kept.length < policy.bound) : Represents written (summarize slice :: kept)

variable {policy summarize} {written log : List α}

theorem Represents.length_le (represents : policy.Represents summarize written log) :
    log.length ≤ policy.bound := by
  cases represents with
  | whole fits => exact fits
  | summarized slice dropped kept split some_dropped newest fits => exact fits

theorem compact_of_le (fits : log.length ≤ policy.bound) : policy.compact summarize log = log :=
  if_pos fits

theorem compact_of_lt (exceeds : policy.bound < log.length) : policy.compact summarize log =
    summarize (log.take (log.length - policy.keep)) :: log.drop (log.length - policy.keep) :=
  if_neg (Nat.not_le.mpr exceeds)

/-- A compaction that drops `first` and some of the entries behind it keeps a suffix of these. -/
theorem Represents.of_drop {before entries : List α} {slice : List α} {n : ℕ}
    (split : written = before ++ entries) (some_dropped : before ≠ [] ∨ n ≠ 0)
    (kept : entries.length - n = policy.keep) (enough : n ≤ entries.length) :
    policy.Represents summarize written (summarize slice :: entries.drop n) := by
  have length : (entries.drop n).length = policy.keep := by
    rw [List.length_drop, kept]
  refine .summarized slice (before ++ entries.take n) _ ?_ ?_ (Nat.le_of_eq length.symm) ?_
  · rw [split, List.append_assoc, List.take_append_drop]
  · intro empty
    obtain ⟨noBefore, noTaken⟩ := List.append_eq_nil_iff.mp empty
    rcases some_dropped with nonempty | positive
    · exact nonempty noBefore
    · have := congrArg List.length noTaken
      rw [List.length_take, List.length_nil] at this
      omega
  · exact length ▸ policy.keep_lt

/-- **Appending an entry.** The compacted log holds the entries written so far, and the bound
is kept. -/
theorem Represents.append (represents : policy.Represents summarize written log) (entry : α) :
    policy.Represents summarize (written ++ [entry])
      (policy.compact summarize (log ++ [entry])) := by
  have smaller := policy.keep_lt
  cases represents with
  | whole fits =>
    by_cases exceeds : policy.bound < (written ++ [entry]).length
    · rw [compact_of_lt exceeds]
      apply Represents.of_drop (List.nil_append _).symm
      · right
        omega
      · omega
      · omega
    · rw [compact_of_le (Nat.not_lt.mp exceeds)]
      exact .whole (Nat.not_lt.mp exceeds)
  | summarized slice dropped kept split some_dropped newest fits =>
    have extended : written ++ [entry] = dropped ++ (kept ++ [entry]) := by
      rw [split, List.append_assoc]
    rw [List.cons_append]
    by_cases exceeds : policy.bound < (summarize slice :: (kept ++ [entry])).length
    · -- the old summary is dropped first, and the count of dropped entries is positive
      rw [compact_of_lt exceeds]
      simp only [List.length_cons, List.length_append, List.length_nil] at exceeds ⊢
      have count : kept.length + (0 + 1) + 1 - policy.keep =
          (kept.length + 1 - policy.keep) + 1 := by omega
      rw [count, List.drop_succ_cons]
      apply Represents.of_drop extended (Or.inl some_dropped)
      · rw [List.length_append, List.length_singleton]
        omega
      · rw [List.length_append, List.length_singleton]
        omega
    · rw [compact_of_le (Nat.not_lt.mp exceeds)]
      simp only [List.length_cons, List.length_append, List.length_nil, Nat.not_lt] at exceeds
      refine .summarized slice dropped _ extended some_dropped ?_ ?_
      · rw [List.length_append]
        omega
      · rw [List.length_append, List.length_singleton]
        omega

end CompactionPolicy

end Systems
