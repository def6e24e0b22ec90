import Mathlib.Data.Set.Function
import KelvinClaw.Library.Journal

/-!
# Footprints of computations

The state of a computation is a map from places to what they hold. A computation is confined
to a set of places when it changes no place outside it, and when its result, its events and
its changes are the same in states that agree there. So it neither changes nor reads anything
else.
-/

namespace Systems

namespace Action

universe u

variable {κ ν ε err α β : Type u} {places : Set κ}

def look (place : κ) : Action (κ → ν) ε err ν := fun s => ⟨.ok (s place), s, []⟩

/-- Let a place hold a value. -/
def put [DecidableEq κ] (place : κ) (value : ν) : Action (κ → ν) ε err PUnit :=
  fun s => ⟨.ok ⟨⟩, Function.update s place value, []⟩

/-- A computation that reads and changes these places only. -/
def Confined (places : Set κ) (act : Action (κ → ν) ε err α) : Prop :=
  ∀ s t, Set.EqOn s t places →
    (act s).result = (act t).result ∧ (act s).journal = (act t).journal ∧
      Set.EqOn (act s).state (act t).state places ∧ ∀ place ∉ places, (act s).state place = s place

variable {act : Action (κ → ν) ε err α}

theorem confined_pure (a : α) : Confined places (pure a : Action (κ → ν) ε err α) :=
  fun _ _ same => ⟨rfl, rfl, same, fun _ _ => rfl⟩

theorem confined_fail (e : err) : Confined places (fail e : Action (κ → ν) ε err α) :=
  fun _ _ same => ⟨rfl, rfl, same, fun _ _ => rfl⟩

theorem confined_log (event : ε) : Confined places (log event : Action (κ → ν) ε err PUnit) :=
  fun _ _ same => ⟨rfl, rfl, same, fun _ _ => rfl⟩

theorem confined_ofExcept (result : Except err α) :
    Confined places (ofExcept result : Action (κ → ν) ε err α) := by
  cases result with
  | ok a => exact confined_pure a
  | error e => exact confined_fail e

theorem confined_look {place : κ} (inside : place ∈ places) :
    Confined places (look place : Action (κ → ν) ε err ν) :=
  fun _ _ same => ⟨congrArg Except.ok (same inside), rfl, same, fun _ _ => rfl⟩

theorem confined_put [DecidableEq κ] {place : κ} (inside : place ∈ places) (value : ν) :
    Confined places (put place value : Action (κ → ν) ε err PUnit) := by
  intro s t same
  refine ⟨rfl, rfl, fun other member => ?_, fun other outside => ?_⟩
  · by_cases here : other = place
    · subst here
      simp [put]
    · simpa [put, here] using same member
  · have elsewhere : other ≠ place := fun here => outside (here ▸ inside)
    simp [put, elsewhere]

theorem confined_attempt (confined : Confined places act) : Confined places (attempt act) := by
  intro s t same
  obtain ⟨result, journal, state, frame⟩ := confined s t same
  exact ⟨congrArg Except.ok result, journal, state, frame⟩

theorem confined_bind {next : α → Action (κ → ν) ε err β} (first : Confined places act)
    (second : ∀ a, Confined places (next a)) : Confined places (act >>= next) := by
  intro s t same
  obtain ⟨result, journal, state, frame⟩ := first s t same
  change (Action.bind act next s).result = (Action.bind act next t).result ∧
    (Action.bind act next s).journal = (Action.bind act next t).journal ∧
    Set.EqOn (Action.bind act next s).state (Action.bind act next t).state places ∧
    ∀ place ∉ places, (Action.bind act next s).state place = s place
  unfold Action.bind
  cases ranS : act s with
  | mk resultS s' logS =>
    cases ranT : act t with
    | mk resultT t' logT =>
      rw [ranS, ranT] at result journal state
      rw [ranS] at frame
      obtain rfl : resultS = resultT := result
      obtain rfl : logS = logT := journal
      cases resultS with
      | error e => exact ⟨rfl, rfl, state, frame⟩
      | ok a =>
        obtain ⟨resultToo, journalToo, stateToo, frameToo⟩ := second a s' t' state
        refine ⟨resultToo, congrArg (logS ++ ·) journalToo, stateToo, fun place outside => ?_⟩
        exact (frameToo place outside).trans (frame place outside)

/-- A computation leaves alone what lies outside its footprint. -/
theorem Confined.state_eq (confined : Confined places act) (s : κ → ν) {place : κ}
    (outside : place ∉ places) : (act s).state place = s place :=
  (confined s s fun _ _ => rfl).2.2.2 place outside

/-- What lies outside the footprint of a computation makes no difference to its result. -/
theorem Confined.agree (confined : Confined places act) {s t : κ → ν} {place : κ}
    (outside : place ∉ places) (same : ∀ other ≠ place, s other = t other) :
    (act s).result = (act t).result :=
  (confined s t fun other member => same other fun here => outside (here ▸ member)).1

end Action

end Systems
