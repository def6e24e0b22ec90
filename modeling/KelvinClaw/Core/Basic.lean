import Mathlib.Algebra.Ring.Nat
import Mathlib.Data.Int.Basic
import Mathlib.Data.List.Basic

/-!
# Errors, JSON values and fixed-width arithmetic

The types every crate of the workspace shares: the error enumeration of
`kelvin-core`, the JSON values of `serde_json` (whose objects keep their members
sorted by key), and the saturating operations on unsigned integers.
-/

namespace KelvinClaw.Core

/-- The error type of the workspace. -/
inductive KelvinError where
  | invalidInput (message : String)
  | notFound (message : String)
  | timeout (message : String)
  | backend (message : String)
  | io (message : String)
  deriving DecidableEq, Repr

abbrev KelvinResult (α : Type) := Except KelvinError α

/-- `impl Display for KelvinError`. -/
def KelvinError.toString : KelvinError → String
  | .invalidInput message => "invalid input: " ++ message
  | .notFound message => "not found: " ++ message
  | .timeout message => "timeout: " ++ message
  | .backend message => "backend failure: " ++ message
  | .io message => "io failure: " ++ message

theorem bind_eq_ok {ε α β : Type} {first : Except ε α} {next : α → Except ε β} {result : β} :
    (first >>= next) = .ok result ↔ ∃ a, first = .ok a ∧ next a = .ok result := by
  cases first with
  | error e => simp [bind, Except.bind]
  | ok a => simp [bind, Except.bind]

theorem bind_unit_eq_ok {ε β : Type} {first : Except ε Unit} {next : Unit → Except ε β}
    {result : β} : (first >>= next) = .ok result ↔ first = .ok () ∧ next () = .ok result := by
  rw [bind_eq_ok]
  constructor
  · rintro ⟨⟨⟩, checked, continued⟩
    exact ⟨checked, continued⟩
  · rintro ⟨checked, continued⟩
    exact ⟨(), checked, continued⟩

@[simp] theorem pure_eq_ok {α : Type} {a result : α} :
    (pure a : KelvinResult α) = .ok result ↔ a = result := by
  simp [pure, Except.pure]

/-- An early return with an error: `if condition { return Err(error) }`. -/
def refuseIf (condition : Prop) [Decidable condition] (error : KelvinError) : KelvinResult Unit :=
  if condition then .error error else .ok ()

@[simp] theorem refuseIf_eq_ok {condition : Prop} [Decidable condition] {error : KelvinError}
    {u : Unit} : refuseIf condition error = .ok u ↔ ¬ condition := by
  unfold refuseIf
  split <;> simp_all

/-! ### Unsigned integers

A `usize`, `u32`, `u64` or `u128` is a natural number below its bound; the code
uses saturating operations wherever a result could leave the range. -/

def u32Max : ℕ := 2 ^ 32 - 1

def u64Max : ℕ := 2 ^ 64 - 1

def usizeMax : ℕ := u64Max

def u128Max : ℕ := 2 ^ 128 - 1

def i64Max : ℕ := 2 ^ 63 - 1

/-- `saturating_add` at a type with the given largest value. -/
def saturatingAdd (largest a b : ℕ) : ℕ := min (a + b) largest

theorem saturatingAdd_of_le {largest a b : ℕ} (fits : a + b ≤ largest) :
    saturatingAdd largest a b = a + b :=
  min_eq_left fits

/-! ### JSON -/

/-- A JSON value. The members of an object are sorted by key. -/
inductive Value where
  | null
  | bool (b : Bool)
  | num (n : ℤ)
  | str (s : String)
  | arr (items : List Value)
  | obj (members : List (String × Value))
  deriving Repr

namespace Value

mutual

def decEq : (a b : Value) → Decidable (a = b)
  | .null, b => match b with
    | .null => .isTrue rfl
    | .bool _ | .num _ | .str _ | .arr _ | .obj _ => .isFalse nofun
  | .bool x, b => match b with
    | .bool y => decidable_of_iff (x = y) ⟨congrArg _, fun h => by injection h⟩
    | .null | .num _ | .str _ | .arr _ | .obj _ => .isFalse nofun
  | .num x, b => match b with
    | .num y => decidable_of_iff (x = y) ⟨congrArg _, fun h => by injection h⟩
    | .null | .bool _ | .str _ | .arr _ | .obj _ => .isFalse nofun
  | .str x, b => match b with
    | .str y => decidable_of_iff (x = y) ⟨congrArg _, fun h => by injection h⟩
    | .null | .bool _ | .num _ | .arr _ | .obj _ => .isFalse nofun
  | .arr x, b => match b with
    | .arr y =>
      have := decEqItems x y
      decidable_of_iff (x = y) ⟨congrArg _, fun h => by injection h⟩
    | .null | .bool _ | .num _ | .str _ | .obj _ => .isFalse nofun
  | .obj x, b => match b with
    | .obj y =>
      have := decEqMembers x y
      decidable_of_iff (x = y) ⟨congrArg _, fun h => by injection h⟩
    | .null | .bool _ | .num _ | .str _ | .arr _ => .isFalse nofun

def decEqItems : (a b : List Value) → Decidable (a = b)
  | [], [] => .isTrue rfl
  | [], _ :: _ | _ :: _, [] => .isFalse nofun
  | x :: xs, y :: ys =>
    have := decEq x y
    have := decEqItems xs ys
    decidable_of_iff (x = y ∧ xs = ys) List.cons_eq_cons.symm

def decEqMembers : (a b : List (String × Value)) → Decidable (a = b)
  | [], [] => .isTrue rfl
  | [], _ :: _ | _ :: _, [] => .isFalse nofun
  | (k, x) :: xs, (l, y) :: ys =>
    have := decEq x y
    have := decEqMembers xs ys
    decidable_of_iff ((k = l ∧ x = y) ∧ xs = ys) (by rw [List.cons_eq_cons, Prod.mk.injEq])

end

instance : DecidableEq Value := decEq

/-- `json!` of an optional string. -/
def ofOption : Option String → Value
  | none => .null
  | some s => .str s

/-- `Map::insert`: replace the member with the key, or add it in key order. -/
def insertMember (key : String) (value : Value) : List (String × Value) → List (String × Value)
  | [] => [(key, value)]
  | (k, v) :: rest =>
    if key = k then (key, value) :: rest
    else if key < k then (key, value) :: (k, v) :: rest
    else (k, v) :: insertMember key value rest

/-- An object literal of `json!`. -/
def object (members : List (String × Value)) : Value :=
  .obj (members.foldl (fun sorted member => insertMember member.1 member.2 sorted) [])

/-- `Map::get`. -/
def lookup (key : String) (members : List (String × Value)) : Option Value :=
  (members.find? fun member => member.1 = key).map Prod.snd

@[simp] theorem lookup_insertMember_self (key : String) (value : Value)
    (members : List (String × Value)) :
    lookup key (insertMember key value members) = some value := by
  induction members with
  | nil => simp [insertMember, lookup]
  | cons member rest ih =>
    obtain ⟨k, v⟩ := member
    by_cases same : key = k
    · simp [insertMember, lookup, same]
    · by_cases before : key < k
      · simp [insertMember, lookup, same, before]
      · simpa [insertMember, lookup, same, before, Ne.symm same] using ih

theorem lookup_insertMember_of_ne {key other : String} (value : Value)
    (members : List (String × Value)) (distinct : other ≠ key) :
    lookup other (insertMember key value members) = lookup other members := by
  induction members with
  | nil => simp [insertMember, lookup, distinct.symm]
  | cons member rest ih =>
    obtain ⟨k, v⟩ := member
    by_cases same : key = k
    · subst same
      simp [insertMember, lookup, distinct.symm]
    · by_cases before : key < k
      · simp [insertMember, lookup, same, before, distinct.symm]
      · rw [insertMember, if_neg same, if_neg before]
        by_cases here : k = other
        · simp [lookup, here]
        · simpa [lookup, here] using ih

end Value

end KelvinClaw.Core
