import Mathlib.Data.List.Dedup
import Mathlib.Data.List.DropRight

/-!
# The most recent distinct entries of a history

A queue of bounded length remembers the entries of a history that came last, each of them once.
It is kept by putting a new entry at its end and dropping the oldest ones above the bound; an
entry that it still remembers is not put in again.
-/

namespace Systems

variable {α : Type*} [DecidableEq α] (k : ℕ)

/-- The `k` most recent distinct entries of a history, at the place of their last occurrence. -/
def recent (history : List α) : List α := history.dedup.rtake k

variable {k} {history left right : List α} {a : α}

theorem recent_suffix : recent k history <:+ history.dedup := List.drop_suffix _ _

theorem nodup_recent : (recent k history).Nodup :=
  (List.nodup_dedup history).sublist recent_suffix.sublist

theorem length_recent_le : (recent k history).length ≤ k := by
  rw [recent, List.rtake, List.length_drop]
  omega

/-- As many as there are, up to the bound. -/
theorem length_recent : (recent k history).length = min history.dedup.length k := by
  rw [recent, List.rtake, List.length_drop]
  omega

omit [DecidableEq α] in
theorem rtake_of_length_le (short : history.length ≤ k) : history.rtake k = history := by
  rw [List.rtake, Nat.sub_eq_zero_of_le short, List.drop_zero]

omit [DecidableEq α] in
/-- What comes before enough newer entries does not matter. -/
theorem rtake_append_of_le_length (enough : k ≤ right.length) :
    (left ++ right).rtake k = right.rtake k := by
  rw [List.rtake, List.rtake, List.length_append, Nat.add_sub_assoc enough,
    List.drop_length_add_append]

/-- The queue of a history without repetitions is its end. -/
theorem recent_of_nodup (distinct : history.Nodup) : recent k history = history.rtake k := by
  rw [recent, distinct.dedup]

/-- The newest entry stands at the end, and nowhere else. -/
theorem dedup_snoc : (history ++ [a]).dedup = history.dedup.filter (· ≠ a) ++ [a] := by
  induction history with
  | nil => simp
  | cons b rest ih =>
    rw [List.cons_append, List.dedup_cons, List.dedup_cons, ih]
    by_cases same : b = a
    · subst same
      by_cases again : b ∈ rest <;> simp [again]
    · by_cases again : b ∈ rest <;> simp [again, same]

/-- **A new entry** is put at the end, and the oldest one above the bound is dropped. -/
theorem recent_snoc_of_not_mem (new : a ∉ recent k history) :
    recent k (history ++ [a]) = (recent k history ++ [a]).rtake k := by
  cases k with
  | zero => simp [recent]
  | succ k =>
    rw [recent, dedup_snoc, List.rtake_concat_succ, List.rtake_concat_succ]
    congr 1
    -- an older occurrence of the entry lies before the part that is remembered
    obtain ⟨older, split⟩ : recent (k + 1) history <:+ history.dedup := recent_suffix
    have remembered : (recent (k + 1) history).filter (· ≠ a) = recent (k + 1) history :=
      List.filter_eq_self.mpr fun b member => decide_eq_true fun same => new (same ▸ member)
    have filtered : history.dedup.filter (· ≠ a) =
        older.filter (· ≠ a) ++ recent (k + 1) history := by
      rw [← split, List.filter_append, remembered]
    rw [filtered]
    by_cases full : k ≤ (recent (k + 1) history).length
    · exact rtake_append_of_le_length full
    · have short : history.dedup.length ≤ k + 1 := by
        rw [length_recent] at full
        omega
      have whole : recent (k + 1) history = history.dedup := rtake_of_length_le short
      have none : older = [] := by
        rw [whole] at split
        simpa using split
      rw [none]
      rfl

/-! ### What is dropped -/

/-- After an entry of the history at least `k` other ones came. -/
def Displaced (k : ℕ) (history : List α) (a : α) : Prop :=
  ∃ newer : List α, newer.Nodup ∧ a ∉ newer ∧ k ≤ newer.length ∧ (a :: newer).Sublist history

omit [DecidableEq α] in
theorem Displaced.later {later : List α} (displaced : Displaced k history a)
    (grows : history.Sublist later) : Displaced k later a := by
  obtain ⟨newer, distinct, other, enough, behind⟩ := displaced
  exact ⟨newer, distinct, other, enough, behind.trans grows⟩

omit [DecidableEq α] in
/-- The entries of a queue that are above the bound are displaced. -/
theorem displaced_of_mem_take {queue : List α} (distinct : queue.Nodup)
    (queued : queue.Sublist history) (dropped : a ∈ queue.take (queue.length - k)) :
    Displaced k history a := by
  have split : queue.take (queue.length - k) ++ queue.drop (queue.length - k) = queue :=
    List.take_append_drop _ _
  refine ⟨queue.drop (queue.length - k), distinct.sublist (List.drop_sublist _ _), ?_, ?_, ?_⟩
  · apply List.disjoint_left.mp _ dropped
    rw [← split, List.nodup_append'] at distinct
    exact distinct.2.2
  · have some : 0 < (queue.take (queue.length - k)).length := List.length_pos_of_mem dropped
    rw [List.length_take] at some
    rw [List.length_drop]
    omega
  · have first : [a].Sublist (queue.take (queue.length - k)) := List.singleton_sublist.mpr dropped
    have both := first.append (List.Sublist.refl (queue.drop (queue.length - k)))
    rw [split] at both
    exact both.trans queued

end Systems
