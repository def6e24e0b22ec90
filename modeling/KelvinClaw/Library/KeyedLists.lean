import Mathlib.Data.List.Basic
import Mathlib.Data.List.Induction

/-!
# Lists with keys

Items are written into a list one after another. An item replaces the first one with its key, or is
appended. Of the items with a key, the last one that is written stands in the place of the first
one, and the others stay.

Where items may have no key at all, and the first item with a key says its value, a write may
replace all items with the key instead.
-/

namespace Systems

variable {α β : Type} [DecidableEq β] (key : α → β)

/-- Replace the first item with the key of the new one, or append the new one. -/
def upsertBy (item : α) : List α → List α
  | [] => [item]
  | head :: rest => if key head = key item then item :: rest else head :: upsertBy item rest

variable {key} {items : List α} {item : α} {k : β}

theorem mem_of_mem_upsertBy {other : α} (member : other ∈ upsertBy key item items) :
    other = item ∨ other ∈ items := by
  induction items with
  | nil => exact .inl (List.mem_singleton.mp member)
  | cons head rest ih =>
    rw [upsertBy] at member
    split at member
    · exact (List.mem_cons.mp member).imp_right (List.mem_cons_of_mem _)
    · rcases List.mem_cons.mp member with rfl | later
      · exact .inr List.mem_cons_self
      · exact (ih later).imp_right (List.mem_cons_of_mem _)

/-- The item takes the place of the first one with its key. -/
theorem filter_upsertBy_self (same : key item = k) :
    (upsertBy key item items).filter (fun other => key other = k) =
      item :: (items.filter fun other => key other = k).drop 1 := by
  subst same
  induction items with
  | nil => simp [upsertBy]
  | cons head rest ih =>
    rw [upsertBy]
    by_cases here : key head = key item
    · rw [if_pos here]
      simp [here]
    · rw [if_neg here, List.filter_cons_of_neg (by simpa using here), ih,
        List.filter_cons_of_neg (by simpa using here)]

/-- The items with other keys are left alone. -/
theorem filter_upsertBy_of_ne (other : key item ≠ k) :
    (upsertBy key item items).filter (fun other => key other = k) =
      items.filter fun other => key other = k := by
  induction items with
  | nil => simp [upsertBy, other]
  | cons head rest ih =>
    rw [upsertBy]
    by_cases here : key head = key item
    · rw [if_pos here, List.filter_cons_of_neg (by simpa using other),
        List.filter_cons_of_neg (by simpa [here] using other)]
    · rw [if_neg here, List.filter_cons, List.filter_cons, ih]

theorem mem_of_mem_foldl_upsertBy {writes : List α} {other : α}
    (member : other ∈ writes.foldl (fun items item => upsertBy key item items) items) :
    other ∈ writes ∨ other ∈ items := by
  induction writes generalizing items with
  | nil => exact .inr member
  | cons write rest ih =>
    rcases ih member with later | inside
    · exact .inl (List.mem_cons_of_mem _ later)
    · rcases mem_of_mem_upsertBy inside with rfl | before
      · exact .inl List.mem_cons_self
      · exact .inr before

/-- Of the items with a key, the last one that is written takes the place of the first one. -/
theorem filter_foldl_upsertBy (k : β) (writes items : List α) :
    (writes.foldl (fun items item => upsertBy key item items) items).filter
        (fun other => key other = k) =
      match (writes.filter fun other => key other = k).getLast? with
      | none => items.filter fun other => key other = k
      | some last => last :: (items.filter fun other => key other = k).drop 1 := by
  -- the last write decides
  induction writes using List.reverseRecOn with
  | nil => rfl
  | append_singleton before last ih =>
    rw [List.foldl_append, List.foldl_cons, List.foldl_nil, List.filter_append]
    by_cases here : key last = k
    · rw [filter_upsertBy_self here, ih, List.filter_cons_of_pos (by simpa using here),
        List.filter_nil, List.getLast?_concat]
      cases (before.filter fun other => key other = k).getLast? with
      | none => rfl
      | some other => rfl
    · rw [filter_upsertBy_of_ne here, ih, List.filter_cons_of_neg (by simpa using here),
        List.filter_nil, List.append_nil]

/-! ### Items that set a key to a value -/

section Assignments

variable {α β γ : Type} [DecidableEq β] (reads : α → Option (β × γ)) (sets : α → Bool)

/-- The value of the first item with the key. -/
def lookupBy (k : β) (items : List α) : Option γ :=
  items.findSome? fun item => (reads item).bind fun entry =>
    if entry.1 = k then some entry.2 else none

/-- Replace all items that set the key, or append one that does. -/
def assignBy (item : α) (items : List α) : List α :=
  (items.map fun old => if sets old then item else old) ++ if items.any sets then [] else [item]

variable {reads sets} {items : List α} {item : α} {k other : β} {value : γ}

theorem lookupBy_cons_self (here : reads item = some (k, value)) :
    lookupBy reads k (item :: items) = some value := by
  rw [lookupBy, List.findSome?_cons, here, Option.bind_some, if_pos rfl]

theorem lookupBy_cons_of_ne (elsewhere : ∀ value, reads item ≠ some (k, value)) :
    lookupBy reads k (item :: items) = lookupBy reads k items := by
  rw [lookupBy, lookupBy, List.findSome?_cons]
  cases read : reads item with
  | none => rfl
  | some entry =>
    have ne : entry.1 ≠ k := fun same => elsewhere entry.2 (by rw [read, ← same])
    rw [Option.bind_some, if_neg ne]

theorem lookupBy_cons_congr {change : α} {rest rest' : List α} (here : reads change = reads item)
    (later : lookupBy reads k rest' = lookupBy reads k rest) :
    lookupBy reads k (change :: rest') = lookupBy reads k (item :: rest) := by
  unfold lookupBy at later ⊢
  rw [List.findSome?_cons, List.findSome?_cons, here, later]

theorem lookupBy_concat_of_ne (elsewhere : ∀ value, reads item ≠ some (k, value)) :
    lookupBy reads k (items ++ [item]) = lookupBy reads k items := by
  induction items with
  | nil => exact lookupBy_cons_of_ne elsewhere
  | cons first rest ih => exact lookupBy_cons_congr rfl ih

theorem lookupBy_map {change : α → α} (same : ∀ item ∈ items, reads (change item) = reads item) :
    lookupBy reads k (items.map change) = lookupBy reads k items := by
  induction items with
  | nil => rfl
  | cons item rest ih =>
    obtain ⟨here, later⟩ := List.forall_mem_cons.mp same
    exact lookupBy_cons_congr here (ih later)

/-- The key has the value that it was given. -/
theorem lookupBy_assignBy_self (new : reads item = some (k, value))
    (exact : ∀ old ∈ items, sets old = true ↔ ∃ value, reads old = some (k, value)) :
    lookupBy reads k (assignBy sets item items) = some value := by
  induction items with
  | nil => exact lookupBy_cons_self new
  | cons old rest ih =>
    obtain ⟨here, later⟩ := List.forall_mem_cons.mp exact
    rw [assignBy, List.map_cons, List.any_cons, List.cons_append]
    cases replaced : sets old with
    | true =>
      rw [if_pos rfl]
      exact lookupBy_cons_self new
    | false =>
      have elsewhere : ∀ value, reads old ≠ some (k, value) := by
        intro value read
        rw [here.mpr ⟨value, read⟩] at replaced
        cases replaced
      rw [if_neg Bool.false_ne_true, lookupBy_cons_of_ne elsewhere, Bool.false_or]
      exact ih later

/-- Other keys keep their values. -/
theorem lookupBy_assignBy_of_ne (new : reads item = some (k, value)) (ne : other ≠ k)
    (only : ∀ old ∈ items, sets old = true → ∃ value, reads old = some (k, value)) :
    lookupBy reads other (assignBy sets item items) = lookupBy reads other items := by
  have skipped : ∀ {entry : α}, (∃ value, reads entry = some (k, value)) →
      ∀ value, reads entry ≠ some (other, value) := by
    rintro entry ⟨held, read⟩ value here
    rw [read] at here
    exact ne (congrArg Prod.fst (Option.some.inj here)).symm
  have mapped : lookupBy reads other (items.map fun old => if sets old then item else old) =
      lookupBy reads other items := by
    induction items with
    | nil => rfl
    | cons old rest ih =>
      obtain ⟨here, later⟩ := List.forall_mem_cons.mp only
      rw [List.map_cons]
      split_ifs with replaced
      · rw [lookupBy_cons_of_ne (skipped ⟨value, new⟩),
          lookupBy_cons_of_ne (skipped (here replaced))]
        exact ih later
      · exact lookupBy_cons_congr rfl (ih later)
  rw [assignBy]
  split_ifs
  · rw [List.append_nil, mapped]
  · rw [lookupBy_concat_of_ne (skipped ⟨value, new⟩), mapped]

end Assignments

end Systems
