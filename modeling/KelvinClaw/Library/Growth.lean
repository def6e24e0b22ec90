import Mathlib.Order.Defs.LinearOrder
import KelvinClaw.Library.TransitionSystem

/-!
# Growing quantities

Several quantities grow in steps. Each has a start, and may have a ceiling, up to which it can be
grown. Without a ceiling there is no bound to it: quantities that start below a limit and have
their ceilings below it stay below it exactly when every one of them has a ceiling.
-/

namespace Systems

structure Growable where
  start : ℕ
  ceiling : Option ℕ
  deriving DecidableEq, Repr

def Growable.Allows (item : Growable) (size : ℕ) : Prop := ∀ ceiling ∈ item.ceiling, size ≤ ceiling

instance (item : Growable) (size : ℕ) : Decidable (item.Allows size) := by
  unfold Growable.Allows
  infer_instance

def grow (items : List Growable) (sizes : List ℕ) : ℕ × ℕ → Option (List ℕ)
  | (i, amount) =>
    match items[i]?, sizes[i]? with
    | some item, some size =>
      if item.Allows (size + amount) then some (sizes.set i (size + amount)) else none
    | _, _ => none

def growth (items : List Growable) : TransitionSystem (List ℕ) (ℕ × ℕ) where
  init sizes := sizes = items.map Growable.start
  step := grow items

section Growth

variable {items : List Growable} {sizes : List ℕ}

def Fitting (items : List Growable) (sizes : List ℕ) : Prop :=
  ∀ (i : ℕ) (size : ℕ), sizes[i]? = some size →
    ∃ item ∈ items, size = item.start ∨ item.Allows size

theorem fitting_of_reachable (reached : (growth items).Reachable sizes) : Fitting items sizes := by
  refine reached.invariant (Fitting items) ?_ ?_
  · rintro _ rfl i size found
    rw [List.getElem?_map] at found
    obtain ⟨item, listed, rfl⟩ := Option.map_eq_some_iff.mp found
    exact ⟨item, List.mem_of_getElem? listed, .inl rfl⟩
  · rintro sizes ⟨i, amount⟩ after fits - moves j size found
    simp only [growth, grow] at moves
    split at moves
    · next item before listed _ =>
      split_ifs at moves with allowed
      obtain rfl := Option.some.inj moves
      by_cases same : i = j
      · subst same
        rw [List.getElem?_set_self'] at found
        obtain ⟨_, _, rfl⟩ := Option.map_eq_some_iff.mp found
        exact ⟨item, List.mem_of_getElem? listed, .inr allowed⟩
      · rw [List.getElem?_set_ne same] at found
        exact fits j size found
    · cases moves

/-- Quantities with ceilings stay below a limit on these and on the starts. -/
theorem le_of_reachable {limit : ℕ} (starts : ∀ item ∈ items, item.start ≤ limit)
    (ceilings : ∀ item ∈ items, ∃ ceiling ∈ item.ceiling, ceiling ≤ limit)
    (reached : (growth items).Reachable sizes) {size : ℕ} (member : size ∈ sizes) :
    size ≤ limit := by
  obtain ⟨i, found⟩ := List.mem_iff_getElem?.mp member
  obtain ⟨item, listed, rfl | allowed⟩ := fitting_of_reachable reached i size found
  · exact starts item listed
  · obtain ⟨ceiling, isCeiling, low⟩ := ceilings item listed
    exact (allowed ceiling isCeiling).trans low

/-- A quantity without a ceiling grows beyond every bound. -/
theorem exists_reachable_gt {item : Growable} (listed : item ∈ items) (free : item.ceiling = none)
    (bound : ℕ) :
    ∃ sizes, (growth items).Reachable sizes ∧ ∃ size ∈ sizes, bound < size := by
  obtain ⟨i, found⟩ := List.mem_iff_getElem?.mp listed
  have first : (items.map Growable.start)[i]? = some item.start := by
    rw [List.getElem?_map, found, Option.map_some]
  have allowed : item.Allows (item.start + (bound + 1)) := by
    intro ceiling isCeiling
    rw [free] at isCeiling
    cases isCeiling
  have moves : (growth items).step (items.map Growable.start) (i, bound + 1) =
      some ((items.map Growable.start).set i (item.start + (bound + 1))) := by
    simp only [growth, grow, found, first, if_pos allowed]
  have inside : i < (items.map Growable.start).length :=
    (List.getElem?_eq_some_iff.mp first).1
  exact ⟨_, TransitionSystem.Reachable.step (.init rfl) moves, _, List.mem_set inside _, by omega⟩

/-- A limit on the starts and on the ceilings holds throughout exactly when there is a ceiling for
every quantity. -/
theorem bounded_iff {limit : ℕ} (starts : ∀ item ∈ items, item.start ≤ limit)
    (ceilings : ∀ item ∈ items, ∀ ceiling ∈ item.ceiling, ceiling ≤ limit) :
    (∀ sizes, (growth items).Reachable sizes → ∀ size ∈ sizes, size ≤ limit) ↔
      ∀ item ∈ items, item.ceiling ≠ none := by
  constructor
  · intro bounded item listed free
    obtain ⟨sizes, reached, size, member, beyond⟩ := exists_reachable_gt listed free limit
    exact absurd (bounded sizes reached size member) (Nat.not_le.mpr beyond)
  · intro every sizes reached size member
    refine le_of_reachable starts (fun item listed => ?_) reached member
    obtain ⟨ceiling, isCeiling⟩ := Option.ne_none_iff_exists'.mp (every item listed)
    exact ⟨ceiling, isCeiling, ceilings item listed ceiling isCeiling⟩

end Growth

end Systems
