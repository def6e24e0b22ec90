import Mathlib.Data.List.Basic

/-!
# Tasks behind a fair lock

Tasks are spawned in some order and first polled in any other. A task that is polled asks for a
lock, and those that wait for it get it in the order in which they asked. So the tasks come through
the lock in the order of their first polls, and a task that is polled before an earlier one stays
before it.
-/

namespace Systems

structure LockedTasks (α : Type) where
  /-- Not polled yet, in the order in which they were spawned. -/
  spawned : List α
  /-- The queue of the lock. -/
  waiting : List α
  holder : Option α
  /-- All that got the lock. -/
  entered : List α
  deriving DecidableEq

namespace LockedTasks

variable {α : Type} (s : LockedTasks α)

def none : LockedTasks α := ⟨[], [], .none, []⟩

def spawn (task : α) : LockedTasks α := { s with spawned := s.spawned ++ [task] }

/-- A task is polled for the first time. It gets the lock, or a place in the queue. -/
def poll (index : ℕ) : Option (LockedTasks α) :=
  s.spawned[index]?.map fun task =>
    if s.holder.isNone ∧ s.waiting = [] then
      { s with
        spawned := s.spawned.eraseIdx index, holder := some task, entered := s.entered ++ [task] }
    else { s with spawned := s.spawned.eraseIdx index, waiting := s.waiting ++ [task] }

/-- The lock is handed to the first one that waits. -/
def release : Option (LockedTasks α) :=
  s.holder.map fun _ =>
    match s.waiting with
    | [] => { s with holder := .none }
    | task :: rest =>
      { s with waiting := rest, holder := some task, entered := s.entered ++ [task] }

def queued : List α := s.entered ++ s.waiting

/-- All tasks, as they come through the lock if the rest is polled in order. -/
def line : List α := s.queued ++ s.spawned

variable {s} {t : LockedTasks α} {index : ℕ}

theorem line_spawn (task : α) : (s.spawn task).line = s.line ++ [task] := by
  rw [line, line, List.append_assoc]
  rfl

/-- A task that is polled goes to the end of the queue. -/
theorem poll_cases (polls : s.poll index = some t) :
    ∃ task, s.spawned[index]? = some task ∧ t.spawned = s.spawned.eraseIdx index ∧
      t.queued = s.queued ++ [task] := by
  obtain ⟨task, found, rfl⟩ := Option.map_eq_some_iff.mp polls
  refine ⟨task, found, ?_, ?_⟩
  · split
    · rfl
    · rfl
  · split
    · next free =>
      rw [queued, queued, free.2, List.append_nil, List.append_nil]
    · rw [queued, queued, List.append_assoc]

theorem release_cases (releases : s.release = some t) :
    t.spawned = s.spawned ∧ t.queued = s.queued := by
  obtain ⟨_, _, rfl⟩ := Option.map_eq_some_iff.mp releases
  cases waits : s.waiting with
  | nil => exact ⟨rfl, by rw [queued, queued, waits]⟩
  | cons task rest => exact ⟨rfl, by rw [queued, queued, waits, List.append_assoc]; rfl⟩

theorem line_release (releases : s.release = some t) : t.line = s.line := by
  obtain ⟨spawned, queued⟩ := release_cases releases
  rw [line, line, spawned, queued]

/-! ### Tasks in order -/

section Order

variable {R : α → α → Prop}

theorem pairwise_line_spawn {task : α} (ordered : s.line.Pairwise R)
    (last : ∀ other ∈ s.line, R other task) : (s.spawn task).line.Pairwise R := by
  rw [line_spawn]
  refine List.pairwise_append.mpr ⟨ordered, List.pairwise_singleton _ _, ?_⟩
  intro other member new isNew
  exact List.mem_singleton.mp isNew ▸ last other member

/-- A task that is polled comes before those that were spawned earlier and are not polled yet. -/
theorem pairwise_line_poll (ordered : s.line.Pairwise R) (polls : s.poll index = some t)
    (turn : ∀ task, s.spawned[index]? = some task → ∀ other ∈ s.spawned.take index, R task other) :
    t.line.Pairwise R := by
  obtain ⟨task, found, spawned, queued⟩ := poll_cases polls
  obtain ⟨inside, isTask⟩ := List.getElem?_eq_some_iff.mp found
  have split : s.spawned = s.spawned.take index ++ task :: s.spawned.drop (index + 1) := by
    rw [← isTask, List.getElem_cons_drop, List.take_append_drop]
  have turns := turn task found
  rw [line, split] at ordered
  rw [line, queued, spawned, List.eraseIdx_eq_take_drop_succ, List.append_assoc,
    List.singleton_append]
  obtain ⟨front, rest, across⟩ := List.pairwise_append.mp ordered
  obtain ⟨earlier, later, between⟩ := List.pairwise_append.mp rest
  obtain ⟨afterTask, later⟩ := List.pairwise_cons.mp later
  refine List.pairwise_append.mpr ⟨front, List.pairwise_cons.mpr ⟨fun other member => ?_, ?_⟩,
    fun first inFront other member => across first inFront other ?_⟩
  · rcases List.mem_append.mp member with before | after
    · exact turns other before
    · exact afterTask other after
  · exact List.pairwise_append.mpr ⟨earlier, later, fun first before other after =>
      between first before other (List.mem_cons_of_mem _ after)⟩
  · exact List.perm_middle.mem_iff.mpr member

theorem pairwise_entered (ordered : s.line.Pairwise R) : s.entered.Pairwise R :=
  ordered.sublist ((List.sublist_append_left _ _).trans (List.sublist_append_left _ _))

end Order

/-! ### Tasks out of order -/

/-- The task comes after the other one. -/
def Overtaken (task other : α) (s : LockedTasks α) : Prop :=
  other ∈ s.queued ∧ (task ∈ s.spawned ∨ [other, task].Sublist s.queued)

section Overtaken

variable {task other : α}

theorem overtaken_of_poll (polls : s.poll index = some t) (found : s.spawned[index]? = some other)
    (earlier : task ∈ s.spawned.take index) : Overtaken task other t := by
  obtain ⟨polled, isPolled, spawned, queued⟩ := poll_cases polls
  obtain rfl := Option.some_inj.mp (found.symm.trans isPolled)
  refine ⟨?_, .inl ?_⟩
  · rw [queued]
    exact List.mem_append_right _ (List.mem_singleton.mpr rfl)
  · rw [spawned, List.eraseIdx_eq_take_drop_succ]
    exact List.mem_append_left _ earlier

theorem Overtaken.spawn (after : Overtaken task other s) (new : α) :
    Overtaken task other (s.spawn new) :=
  ⟨after.1, after.2.imp_left (List.mem_append_left _)⟩

theorem Overtaken.poll (after : Overtaken task other s) (polls : s.poll index = some t) :
    Overtaken task other t := by
  obtain ⟨polled, found, spawned, queued⟩ := poll_cases polls
  obtain ⟨first, second⟩ := after
  rw [Overtaken, queued, spawned]
  refine ⟨List.mem_append_left _ first, ?_⟩
  rcases second with member | done
  · by_cases here : polled = task
    · subst here
      exact .inr (List.Sublist.append (List.singleton_sublist.mpr first) (.refl [polled]))
    · refine .inl ?_
      obtain ⟨i, isTask⟩ := List.mem_iff_getElem?.mp member
      rw [List.mem_eraseIdx_iff_getElem?]
      refine ⟨i, fun same => here ?_, isTask⟩
      exact Option.some_inj.mp (found.symm.trans (same ▸ isTask))
  · exact .inr (done.trans (List.sublist_append_left _ _))

theorem Overtaken.release (after : Overtaken task other s) (releases : s.release = some t) :
    Overtaken task other t := by
  obtain ⟨spawned, queued⟩ := release_cases releases
  rwa [Overtaken, spawned, queued]

/-- Once all tasks are through, the one that was overtaken came after the other. -/
theorem Overtaken.sublist_entered (after : Overtaken task other s) (spawned : s.spawned = [])
    (waiting : s.waiting = []) : [other, task].Sublist s.entered := by
  have queued : s.queued = s.entered := by rw [queued, waiting, List.append_nil]
  rcases after.2 with member | done
  · rw [spawned] at member
    cases member
  · rwa [queued] at done

end Overtaken

end LockedTasks

end Systems
