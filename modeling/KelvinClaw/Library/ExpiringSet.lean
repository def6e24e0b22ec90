import Mathlib.Data.List.Basic
import Mathlib.Logic.Function.Basic
import Mathlib.Order.Lattice

/-!
# Sets whose keys expire

A set that remembers each key until a time that came with it. An attempt to insert a key
first drops every key whose time has come, is refused when the key is still there, and
inserts it otherwise. Times are from any linear order.
-/

namespace Systems

variable {κ τ : Type*}

abbrev ExpiringSet (κ τ : Type*) := κ → Option τ

/-- An attempt to insert a key that is to be held until `expiry`, made at `now`. -/
structure InsertAttempt (κ τ : Type*) where
  key : κ
  expiry : τ
  now : τ

namespace ExpiringSet

variable [LinearOrder τ] [DecidableEq κ]

/-- Drop the keys whose time has come. -/
def prune (now : τ) (held : ExpiringSet κ τ) : ExpiringSet κ τ :=
  fun key => (held key).filter (now < ·)

def insertOrReject (held : ExpiringSet κ τ) (attempt : InsertAttempt κ τ) :
    Bool × ExpiringSet κ τ :=
  if (held.prune attempt.now attempt.key).isSome then (false, held.prune attempt.now)
  else (true, Function.update (held.prune attempt.now) attempt.key (some attempt.expiry))

def accepted : ExpiringSet κ τ → List (InsertAttempt κ τ) → List (InsertAttempt κ τ)
  | _, [] => []
  | held, attempt :: rest =>
    if (held.insertOrReject attempt).1 then
      attempt :: accepted (held.insertOrReject attempt).2 rest
    else accepted (held.insertOrReject attempt).2 rest

variable {held : ExpiringSet κ τ} {attempt : InsertAttempt κ τ}
  {attempts : List (InsertAttempt κ τ)} {key : κ} {expiry : τ}

theorem accepted_sublist (held : ExpiringSet κ τ) (attempts : List (InsertAttempt κ τ)) :
    (held.accepted attempts).Sublist attempts := by
  induction attempts generalizing held with
  | nil => exact .slnil
  | cons attempt rest ih =>
    rw [accepted]
    split
    · exact (ih _).cons_cons attempt
    · exact (ih _).cons attempt

omit [DecidableEq κ] in
theorem prune_of_lt (present : held key = some expiry) {now : τ} (early : now < expiry) :
    held.prune now key = some expiry := by
  simp [prune, present, early]

/-- Before its time has come a held key is refused, and it stays held. -/
theorem insertOrReject_held (present : held key = some expiry) (early : attempt.now < expiry) :
    (attempt.key = key → (held.insertOrReject attempt).1 = false) ∧
      (held.insertOrReject attempt).2 key = some expiry := by
  have kept := prune_of_lt present early
  by_cases same : attempt.key = key
  · subst same
    simp [insertOrReject, kept]
  · refine ⟨fun contradiction => absurd contradiction same, ?_⟩
    unfold insertOrReject
    split
    · exact kept
    · exact (Function.update_of_ne (Ne.symm same) _ _).trans kept

/-- An accepted attempt holds its key until its time. -/
theorem insertOrReject_accepted (accepts : (held.insertOrReject attempt).1) :
    (held.insertOrReject attempt).2 attempt.key = some attempt.expiry := by
  unfold insertOrReject at accepts ⊢
  split at accepts
  · cases accepts
  · rename_i free
    simp [free]

/-- A held key is accepted only after its time has come. -/
theorem le_now_of_accepted (present : held key = some expiry)
    (ordered : attempts.Pairwise (·.now ≤ ·.now)) :
    ∀ later ∈ held.accepted attempts, later.key = key → expiry ≤ later.now := by
  induction attempts generalizing held with
  | nil => exact fun _ member => nomatch member
  | cons attempt rest ih =>
    obtain ⟨first, ordered⟩ := List.pairwise_cons.mp ordered
    intro later member same
    rcases lt_or_ge attempt.now expiry with early | due
    · obtain ⟨refused, present⟩ := insertOrReject_held present early
      rw [accepted] at member
      split at member
      · rename_i accepts
        rcases List.mem_cons.mp member with rfl | member
        · rw [refused same] at accepts
          cases accepts
        · exact ih present ordered later member same
      · exact ih present ordered later member same
    · -- the clock has passed the time already, and it does not go back
      rcases List.mem_cons.mp ((accepted_sublist held _).mem member) with rfl | member
      · exact due
      · exact due.trans (first later member)

/-- **No early repetition.** When the clock does not go back, a key that was accepted is
not accepted again before its time has come. -/
theorem pairwise_accepted (held : ExpiringSet κ τ) (ordered : attempts.Pairwise (·.now ≤ ·.now)) :
    (held.accepted attempts).Pairwise fun earlier later =>
      later.key = earlier.key → earlier.expiry ≤ later.now := by
  induction attempts generalizing held with
  | nil => exact .nil
  | cons attempt rest ih =>
    have later := (List.pairwise_cons.mp ordered).2
    rw [accepted]
    split
    · rename_i accepts
      exact .cons (le_now_of_accepted (insertOrReject_accepted accepts) later) (ih _ later)
    · exact ih _ later

end ExpiringSet

end Systems
