import Mathlib.Order.Basic
import Mathlib.Tactic.SplitIfs

/-!
# Steps that take memory from an arena

An arena has some cells, which are given away from its start on; nothing is taken back. A program
takes regions in its steps, and ends with an error when there is none left, or for a reason of its
own. With enough cells left it does what it would do if there were no end to the arena.
-/

namespace Systems.Arena

/-- Where a region of some length starts: at the next place that is aligned, if it ends inside of
the arena. There are no empty regions. -/
def alloc (size align len next : ℕ) : Option ℕ :=
  if len = 0 then none
  else
    let start := (next + (align - 1)) / align * align
    if size < start + len then none else some start

theorem le_start {align next : ℕ} (positive : 0 < align) :
    next ≤ (next + (align - 1)) / align * align := by
  have whole := Nat.div_add_mod (next + (align - 1)) align
  have rest := Nat.mod_lt (next + (align - 1)) positive
  rw [Nat.mul_comm] at whole
  omega

theorem start_le (align next : ℕ) :
    (next + (align - 1)) / align * align ≤ next + (align - 1) :=
  Nat.div_mul_le_self _ _

theorem alloc_eq_some {size align len next : ℕ} (positive : 0 < align) (nonempty : 0 < len)
    (room : next + (align - 1 + len) ≤ size) : ∃ start, alloc size align len next = some start ∧
      next ≤ start ∧ start ≤ next + (align - 1) := by
  refine ⟨_, ?_, le_start positive, start_le align next⟩
  have inside := start_le align next
  rw [alloc, if_neg (Nat.pos_iff_ne_zero.mp nonempty)]
  exact if_neg (by omega)

/-- A step begins at the next free cell, and goes on from another or ends there with an error. -/
abbrev Step (ε α : Type) := StateT ℕ (Except (ε × ℕ)) α

section Steps

variable {ε α β : Type} {size align : ℕ}

def fail (error : ε) : Step ε α := fun next => .error (error, next)

/-- What is decided without the arena. -/
def lift : Except ε α → Step ε α
  | .ok a => pure a
  | .error error => fail error

/-- What comes of one outcome after another comes of both. -/
theorem bind_eq_ok {first : Except ε α} {more : α → Except ε β} {result : β} :
    first >>= more = .ok result ↔ ∃ a, first = .ok a ∧ more a = .ok result := by
  cases first with
  | error error => exact iff_of_false nofun nofun
  | ok a =>
    refine ⟨fun same => ⟨a, rfl, same⟩, ?_⟩
    rintro ⟨_, ⟨⟩, same⟩
    exact same

def take (size align len : ℕ) (error : ε) : Step ε Unit := fun next =>
  match alloc size align len next with
  | none => .error (error, next)
  | some start => .ok ((), start + len)

/-- Take a region if there is one. -/
def tryTake (size align len : ℕ) : Step ε Unit := fun next =>
  match alloc size align len next with
  | none => .ok ((), next)
  | some start => .ok ((), start + len)

/-- What a step leaves. -/
def outcomeAt (outcome : Except ε α) (next : ℕ) : Except (ε × ℕ) (α × ℕ) :=
  match outcome with
  | .ok a => .ok (a, next)
  | .error error => .error (error, next)

/-- The step has an outcome if some number of cells is left, and takes no more than these. -/
def Yields (size : ℕ) (step : Step ε α) (cost : ℕ) (outcome : Except ε α) : Prop :=
  ∀ next, next + cost ≤ size →
    ∃ next', next ≤ next' ∧ next' ≤ next + cost ∧ step next = outcomeAt outcome next'

variable {step : Step ε α} {next : α → Step ε β} {cost more : ℕ} {outcome : Except ε α}

theorem Yields.mono (yields : Yields size step cost outcome) (le : cost ≤ more) :
    Yields size step more outcome := fun start room =>
  have ⟨stop, above, below, same⟩ := yields start (Nat.le_trans (Nat.add_le_add_left le start) room)
  ⟨stop, above, Nat.le_trans below (Nat.add_le_add_left le start), same⟩

theorem yields_lift (outcome : Except ε α) : Yields size (lift outcome) 0 outcome := by
  intro start room
  refine ⟨start, Nat.le_refl start, Nat.le_refl start, ?_⟩
  cases outcome <;> rfl

theorem yields_pure (a : α) : Yields size (pure a : Step ε α) 0 (.ok a) :=
  yields_lift (.ok a)

theorem yields_fail (error : ε) : Yields size (fail error : Step ε α) 0 (.error error) :=
  yields_lift (.error error)

theorem yields_take {len : ℕ} (positive : 0 < align) (nonempty : 0 < len) (error : ε) :
    Yields size (take size align len error) (align - 1 + len) (.ok ()) := by
  intro start room
  obtain ⟨region, found, above, below⟩ := alloc_eq_some positive nonempty room
  refine ⟨region + len, by omega, by omega, ?_⟩
  simp only [take, found, outcomeAt]

theorem yields_tryTake {len : ℕ} (positive : 0 < align) (nonempty : 0 < len) :
    Yields size (tryTake size align len : Step ε Unit) (align - 1 + len) (.ok ()) := by
  intro start room
  obtain ⟨region, found, above, below⟩ := alloc_eq_some positive nonempty room
  refine ⟨region + len, by omega, by omega, ?_⟩
  simp only [tryTake, found, outcomeAt]

/-- One step after another. -/
theorem Yields.bind {outcomes : α → Except ε β} (yields : Yields size step cost outcome)
    (yields' : ∀ a, outcome = .ok a → Yields size (next a) more (outcomes a)) :
    Yields size (step >>= next) (cost + more) (outcome >>= outcomes) := by
  intro start room
  obtain ⟨stop, above, below, same⟩ := yields start (by omega)
  cases outcome with
  | error error =>
    refine ⟨stop, above, by omega, ?_⟩
    change (step start >>= fun result => next result.1 result.2) = _
    rw [same]
    rfl
  | ok a =>
    obtain ⟨stop', above', below', same'⟩ := yields' a rfl stop (by omega)
    refine ⟨stop', by omega, by omega, ?_⟩
    change (step start >>= fun result => next result.1 result.2) = _
    rw [same]
    exact same'

/-- A step after one without a value. -/
theorem Yields.after {step : Step ε Unit} {next : Unit → Step ε β} {outcome : Except ε β}
    (yields : Yields size step cost (.ok ())) (yields' : Yields size (next ()) more outcome) :
    Yields size (step >>= next) (cost + more) outcome :=
  @Yields.bind ε Unit β size step next cost more (.ok ()) (fun _ => outcome) yields
    fun _ _ => yields'

end Steps

end Systems.Arena
