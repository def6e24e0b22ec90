import Mathlib.Data.Set.Basic

/-!
# Labelled transition systems with guarded runs

A system has initial states and a partial step function. A run is *guarded* when
every step it takes meets a condition on the label and on the state before the
step; the unrestricted runs are those guarded by the trivial condition. An
interleaving of several parties is a run whose labels name the party that moves.
-/

namespace Systems

/-- A labelled transition system: initial states and a partial step. -/
structure TransitionSystem (σ ℓ : Type*) where
  /-- The states a run may start in. -/
  init : σ → Prop
  /-- The state after a label, or `none` when the label is not enabled. -/
  step : σ → ℓ → Option σ

namespace TransitionSystem

variable {σ ℓ : Type*} {sys : TransitionSystem σ ℓ} {guard guard' : σ → ℓ → Prop} {s t : σ}

/-- The states reached by runs all of whose steps meet `guard`. -/
inductive ReachableWhen (sys : TransitionSystem σ ℓ) (guard : σ → ℓ → Prop) : σ → Prop
  | init {s : σ} (starts : sys.init s) : ReachableWhen sys guard s
  | step {s t : σ} {label : ℓ} (before : ReachableWhen sys guard s) (meets : guard s label)
      (moves : sys.step s label = some t) : ReachableWhen sys guard t

def Reachable (sys : TransitionSystem σ ℓ) : σ → Prop :=
  sys.ReachableWhen fun _ _ => True

/-- A property of the initial states that every guarded step preserves holds of
every state a guarded run reaches. -/
theorem ReachableWhen.invariant (P : σ → Prop) (base : ∀ s, sys.init s → P s)
    (preserved : ∀ s label t, P s → guard s label → sys.step s label = some t → P t)
    (reached : sys.ReachableWhen guard s) : P s := by
  induction reached with
  | init starts => exact base _ starts
  | step _ meets moves ih => exact preserved _ _ _ ih meets moves

/-- Weakening the guard keeps every run. -/
theorem ReachableWhen.mono (weaker : ∀ s label, guard s label → guard' s label)
    (reached : sys.ReachableWhen guard s) : sys.ReachableWhen guard' s := by
  induction reached with
  | init starts => exact .init starts
  | step _ meets moves ih => exact .step ih (weaker _ _ meets) moves

/-- A map of states under which every guarded step is a guarded step of another system, or
leaves its state alone, takes guarded runs to guarded runs. -/
theorem ReachableWhen.map {τ κ : Type*} {other : TransitionSystem τ κ}
    {guardOther : τ → κ → Prop} (f : σ → τ) (base : ∀ s, sys.init s → other.init (f s))
    (simulated : ∀ s label t, sys.ReachableWhen guard s → guard s label →
      sys.step s label = some t → f t = f s ∨
        ∃ below, guardOther (f s) below ∧ other.step (f s) below = some (f t))
    (reached : sys.ReachableWhen guard s) : other.ReachableWhen guardOther (f s) := by
  induction reached with
  | init starts => exact .init (base _ starts)
  | step before meets moves ih =>
    obtain same | ⟨below, meetsBelow, moved⟩ := simulated _ _ _ before meets moves
    · rwa [same]
    · exact .step ih meetsBelow moved

theorem ReachableWhen.reachable (reached : sys.ReachableWhen guard s) : sys.Reachable s :=
  reached.mono fun _ _ _ => trivial

theorem Reachable.step {label : ℓ} (before : sys.Reachable s)
    (moves : sys.step s label = some t) : sys.Reachable t :=
  ReachableWhen.step before trivial moves

/-- Follow a list of labels, checking the guard before each step. -/
def run? (sys : TransitionSystem σ ℓ) (guard : σ → ℓ → Prop)
    [∀ s label, Decidable (guard s label)] : σ → List ℓ → Option σ
  | s, [] => some s
  | s, label :: rest =>
    if guard s label then (sys.step s label).bind fun t => run? sys guard t rest else none

theorem reachableWhen_of_run? [∀ s label, Decidable (guard s label)] {labels : List ℓ}
    (start : sys.ReachableWhen guard s) (follows : sys.run? guard s labels = some t) :
    sys.ReachableWhen guard t := by
  induction labels generalizing s with
  | nil =>
    obtain rfl := Option.some_inj.mp follows
    exact start
  | cons label rest ih =>
    rw [run?] at follows
    split_ifs at follows with meets
    obtain ⟨u, moves, follows⟩ := Option.bind_eq_some_iff.mp follows
    exact ih (.step start meets moves) follows

/-- What is observed at the end of an executed list of labels is observed in a state
that a guarded run reaches. -/
theorem exists_of_run? {α : Type*} [∀ s label, Decidable (guard s label)] {labels : List ℓ}
    {observe : σ → α} {seen : α} (start : sys.ReachableWhen guard s)
    (ran : (sys.run? guard s labels).map observe = some seen) :
    ∃ t, sys.ReachableWhen guard t ∧ observe t = seen := by
  obtain ⟨t, follows, observed⟩ := Option.map_eq_some_iff.mp ran
  exact ⟨t, reachableWhen_of_run? start follows, observed⟩

/-! ### Properties along a run -/

/-- A property of every state that a list of labels passes through. -/
def Always (sys : TransitionSystem σ ℓ) (P : σ → Prop) : σ → List ℓ → Prop
  | s, [] => P s
  | s, label :: rest => P s ∧ ∀ t, sys.step s label = some t → sys.Always P t rest

def Meets (sys : TransitionSystem σ ℓ) (guard : σ → ℓ → Prop) : σ → List ℓ → Prop
  | _, [] => True
  | s, label :: rest =>
    ∀ t, sys.step s label = some t → guard s label ∧ sys.Meets guard t rest

/-- When an invariant is kept by the steps that meet the guard, and broken in the very next state
by the others, the property holds throughout a run exactly when all its steps meet the guard. -/
theorem always_iff_meets {Inv P : σ → Prop} {guard : σ → ℓ → Prop}
    (implies : ∀ s, Inv s → P s)
    (kept : ∀ s label t, Inv s → guard s label → sys.step s label = some t → Inv t)
    (broken : ∀ s label t, Inv s → ¬ guard s label → sys.step s label = some t → ¬ P t)
    {s : σ} (inv : Inv s) (labels : List ℓ) :
    sys.Always P s labels ↔ sys.Meets guard s labels := by
  induction labels generalizing s with
  | nil => exact ⟨fun _ => trivial, fun _ => implies s inv⟩
  | cons label rest ih =>
    have now (u : σ) (always : sys.Always P u rest) : P u := by
      cases rest with
      | nil => exact always
      | cons _ _ => exact always.1
    constructor
    · rintro ⟨_, later⟩ t moves
      have meets : guard s label := by
        by_contra fails
        exact broken s label t inv fails moves (now t (later t moves))
      exact ⟨meets, (ih (kept s label t inv meets moves)).mp (later t moves)⟩
    · intro steps
      refine ⟨implies s inv, fun t moves => ?_⟩
      obtain ⟨meets, rest⟩ := steps t moves
      exact (ih (kept s label t inv meets moves)).mpr rest

/-- A property of every state of a run holds of the state it leads to. -/
theorem Always.of_run? {P : σ → Prop} {s t : σ} {labels : List ℓ} (always : sys.Always P s labels)
    (follows : sys.run? (fun _ _ => True) s labels = some t) : P t := by
  induction labels generalizing s with
  | nil => exact Option.some_inj.mp follows ▸ always
  | cons label rest ih =>
    rw [run?, if_pos trivial] at follows
    obtain ⟨u, moves, follows⟩ := Option.bind_eq_some_iff.mp follows
    exact ih (always.2 u moves) follows

end TransitionSystem

end Systems
