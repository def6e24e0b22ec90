import Mathlib.Data.List.Basic

/-!
# Noninterference of hidden events

A machine answers events one after the other. Some events are hidden from an observer, who
sees the answers to others. The observer's view of the state is a function of it. When hidden
events keep the view, and the other events keep equal views equal and answer the observed
ones alike, then two runs that differ in hidden events only give the observer the same
answers.

Both conditions may rest on what events and states are allowed to be: on a predicate of the
events, and on one of the states that allowed events keep.
-/

namespace Systems

variable {σ ε ο υ : Type*}

/-- The events of a run, each with its answer. -/
def outputs (step : ε → σ → ο × σ) : σ → List ε → List (ε × ο)
  | _, [] => []
  | s, event :: rest => (event, (step event s).1) :: outputs step (step event s).2 rest

/-- Machines whose states stay related, by a relation that may look at the events to come, answer
alike. -/
theorem outputs_eq_of_simulation {τ : Type*} {step : ε → σ → ο × σ} {other : ε → τ → ο × τ}
    (related : List ε → σ → τ → Prop)
    (simulates : ∀ event rest s t, related (event :: rest) s t →
      (step event s).1 = (other event t).1 ∧ related rest (step event s).2 (other event t).2)
    {events : List ε} {s : σ} {t : τ} (start : related events s t) :
    outputs step s events = outputs other t events := by
  induction events generalizing s t with
  | nil => rfl
  | cons event rest ih =>
    obtain ⟨same, later⟩ := simulates event rest s t start
    rw [outputs, outputs, same, ih later]

/-- Hidden events keep the view; the other events keep equal views equal, and the observed
ones are answered alike in states with equal views. -/
structure Unwinding (step : ε → σ → ο × σ) (view : σ → υ) (hidden observed allowed : ε → Prop)
    (safe : σ → Prop) : Prop where
  hidden_keeps : ∀ event s, allowed event → safe s → hidden event →
    view (step event s).2 = view s
  shown_agrees : ∀ event s t, allowed event → safe s → safe t → ¬ hidden event →
    view s = view t → view (step event s).2 = view (step event t).2
  observed_agrees : ∀ event s t, allowed event → safe s → safe t → observed event →
    view s = view t → (step event s).1 = (step event t).1
  safe_keeps : ∀ event s, allowed event → safe s → safe (step event s).2
  observed_shown : ∀ event, observed event → ¬ hidden event

namespace Unwinding

variable {step : ε → σ → ο × σ} {view : σ → υ} {hidden observed allowed : ε → Prop}
  {safe : σ → Prop} [DecidablePred hidden] [DecidablePred observed] {s t : σ}
  {events first second : List ε}

/-- The observer cannot tell a run from the one without its hidden events. -/
theorem outputs_purge (unwinding : Unwinding step view hidden observed allowed safe)
    (allAllowed : ∀ event ∈ events, allowed event) (safeS : safe s) (safeT : safe t)
    (agree : view s = view t) :
    (outputs step s events).filter (observed ·.1) =
      (outputs step t (events.filter (¬ hidden ·))).filter (observed ·.1) := by
  induction events generalizing s t with
  | nil => rfl
  | cons event rest ih =>
    have here := allAllowed event List.mem_cons_self
    have later := fun other member => allAllowed other (List.mem_cons_of_mem event member)
    have safeS' := unwinding.safe_keeps event s here safeS
    by_cases hides : hidden event
    · -- the other run does not take the step
      have unseen : ¬ observed event := fun seen => unwinding.observed_shown event seen hides
      rw [List.filter_cons_of_neg (by simpa using hides), outputs,
        List.filter_cons_of_neg (by simpa using unseen)]
      exact ih later safeS' safeT ((unwinding.hidden_keeps event s here safeS hides).trans agree)
    · have next := ih later safeS' (unwinding.safe_keeps event t here safeT)
        (unwinding.shown_agrees event s t here safeS safeT hides agree)
      rw [List.filter_cons_of_pos (by simpa using hides), outputs, outputs]
      by_cases seen : observed event
      · rw [List.filter_cons_of_pos (by simpa using seen),
          List.filter_cons_of_pos (by simpa using seen), next,
          unwinding.observed_agrees event s t here safeS safeT seen agree]
      · rw [List.filter_cons_of_neg (by simpa using seen),
          List.filter_cons_of_neg (by simpa using seen), next]

/-- **Noninterference.** Two runs whose events differ in hidden ones only, from states with
equal views, give the observer the same answers. -/
theorem outputs_agree (unwinding : Unwinding step view hidden observed allowed safe)
    (firstAllowed : ∀ event ∈ first, allowed event)
    (secondAllowed : ∀ event ∈ second, allowed event)
    (differ : first.filter (¬ hidden ·) = second.filter (¬ hidden ·))
    (safeS : safe s) (safeT : safe t) (agree : view s = view t) :
    (outputs step s first).filter (observed ·.1) =
      (outputs step t second).filter (observed ·.1) := by
  rw [unwinding.outputs_purge firstAllowed safeS safeT agree, differ,
    unwinding.outputs_purge secondAllowed safeT safeT rfl]

end Unwinding

end Systems
