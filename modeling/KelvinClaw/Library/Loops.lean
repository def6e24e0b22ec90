import KelvinClaw.Library.Journal

/-!
# Loops that may return

A loop over a list whose body continues with a new accumulator or ends the loop with a
value, as a `return` inside a `for` does. A nested pair of such loops is one loop over the
pairs.
-/

namespace Systems.Action

universe u

variable {σ ε err β acc : Type u} {κ ι : Type*}

/-- Continue unless a value has been returned. -/
def orReturn (next : acc → Action σ ε err (β ⊕ acc)) : β ⊕ acc → Action σ ε err (β ⊕ acc)
  | .inl returned => pure (.inl returned)
  | .inr a => next a

/-- A loop over a list, whose body returns a value or goes on with an accumulator. -/
def loop (body : κ → acc → Action σ ε err (β ⊕ acc)) :
    List κ → acc → Action σ ε err (β ⊕ acc)
  | [], a => pure (.inr a)
  | x :: xs, a => body x a >>= orReturn (loop body xs)

variable (body : κ → acc → Action σ ε err (β ⊕ acc))

theorem orReturn_bind (next last : acc → Action σ ε err (β ⊕ acc)) :
    (fun step => orReturn next step >>= orReturn last) =
      orReturn fun a => next a >>= orReturn last := by
  funext step
  cases step <;> rfl

theorem loop_append (xs ys : List κ) (a : acc) :
    loop body (xs ++ ys) a = loop body xs a >>= orReturn (loop body ys) := by
  induction xs generalizing a with
  | nil => rfl
  | cons x xs ih =>
    have rest : loop body (xs ++ ys) = fun a => loop body xs a >>= orReturn (loop body ys) :=
      funext ih
    calc loop body (x :: xs ++ ys) a
        = body x a >>= orReturn (loop body (xs ++ ys)) := rfl
      _ = body x a >>= fun step => orReturn (loop body xs) step >>= orReturn (loop body ys) := by
        rw [rest, orReturn_bind]
      _ = loop body (x :: xs) a >>= orReturn (loop body ys) :=
        (Action.bind_assoc ..).symm

/-- A loop inside a loop is one loop over what the inner loops run through. -/
theorem loop_loop (inner : ι → List κ) (xs : List ι) (a : acc) :
    loop (fun x => loop body (inner x)) xs a = loop body (xs.flatMap inner) a := by
  induction xs generalizing a with
  | nil => rfl
  | cons x xs ih =>
    have rest : loop (fun x => loop body (inner x)) xs = loop body (xs.flatMap inner) := funext ih
    rw [List.flatMap_cons, loop_append, loop, rest]

end Systems.Action
