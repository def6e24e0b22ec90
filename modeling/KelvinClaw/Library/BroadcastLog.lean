import Mathlib.Data.List.Basic

/-!
# Broadcasts and their receivers

A broadcast channel is the log of what was sent, with a place in it for each receiver. It keeps
the newest values only. A receiver whose place is older than them is told that it lags, and goes
on with the oldest value that is kept.
-/

namespace Systems.BroadcastLog

variable {ε : Type*}

/-- What a receiver gets. -/
inductive Received (ε : Type*) where
  | ok (value : ε)
  | lagged (next : ℕ)
  | pending
  deriving DecidableEq, Repr

/-- The next value at a place of the log, of which the channel keeps `retained` values. -/
def receive (retained : ℕ) (log : List ε) (next : ℕ) : Received ε :=
  if next + retained < log.length then .lagged (log.length - retained)
  else
    match log[next]? with
    | some value => .ok value
    | none => .pending

/-- The values of the log between two places. -/
def window (log : List ε) (start next : ℕ) : List ε := (log.take next).drop start

variable {log : List ε} {start next retained : ℕ} {value : ε}

theorem receive_eq_ok (received : receive retained log next = .ok value) :
    log[next]? = some value := by
  unfold receive at received
  split at received
  · cases received
  · cases found : log[next]? with
    | none =>
      rw [found] at received
      cases received
    | some other =>
      rw [found] at received
      cases received
      rfl

theorem receive_eq_lagged {behind : ℕ} (received : receive retained log next = .lagged behind) :
    next + retained < log.length ∧ behind = log.length - retained := by
  unfold receive at received
  split at received
  · rename_i lags
    cases received
    exact ⟨lags, rfl⟩
  · cases found : log[next]? with
    | none =>
      rw [found] at received
      cases received
    | some other =>
      rw [found] at received
      cases received

@[simp] theorem window_self : window log next next = [] :=
  List.drop_eq_nil_of_le (List.length_take_le next log)

/-- A value that is sent comes after the places of the receivers. -/
theorem window_snoc (within : next ≤ log.length) :
    window (log ++ [value]) start next = window log start next := by
  rw [window, window, List.take_append_of_le_length within]

theorem window_of_receive (ordered : start ≤ next) (found : log[next]? = some value) :
    window log start (next + 1) = window log start next ++ [value] := by
  obtain ⟨within, _⟩ := List.getElem?_eq_some_iff.mp found
  have length : start ≤ (log.take next).length := by
    rw [List.length_take, Nat.min_eq_left (Nat.le_of_lt within)]
    exact ordered
  rw [window, window, List.take_add_one, found, Option.toList_some,
    List.drop_append_of_le_length length]

/-- What is received is a contiguous run of what was sent since the receiver is there. -/
theorem window_isInfix {since : ℕ} (later : since ≤ start) :
    window log start next <:+: log.drop since := by
  have suffix : log.drop start <:+ log.drop since := by
    rw [← Nat.add_sub_cancel' later, ← List.drop_drop]
    exact List.drop_suffix _ _
  have leading : window log start next <+: log.drop start := by
    rw [window, List.drop_take]
    exact List.take_prefix _ _
  exact leading.isInfix.trans suffix.isInfix

end Systems.BroadcastLog
