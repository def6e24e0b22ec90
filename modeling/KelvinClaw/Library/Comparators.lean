import Mathlib.Data.List.Basic

/-!
# Comparators and what they sort

A comparator need not be transitive, and a list can still be sorted by it if it is transitive among
the members of the list. One that compares two items by their values, if both have one, and as they
are otherwise is such a comparator.
-/

namespace Systems

universe u v

variable {α : Type u} {β : Type v}

/-! ### Sorting -/

/-- The comparator is transitive among the items. -/
def ConsistentOn (cmp : α → α → Ordering) (items : List α) : Prop :=
  ∀ a ∈ items, ∀ b ∈ items, ∀ c ∈ items, (cmp a b).isLE → (cmp b c).isLE → (cmp a c).isLE

/-- `sort_by`, which is stable. -/
def sortBy (cmp : α → α → Ordering) (items : List α) : List α :=
  items.mergeSort fun a b => (cmp a b).isLE

section Sorted

variable {cmp : α → α → Ordering} {items : List α}

theorem sortBy_perm : (sortBy cmp items).Perm items := List.mergeSort_perm items _

@[simp] theorem mem_sortBy {a : α} : a ∈ sortBy cmp items ↔ a ∈ items := List.mem_mergeSort

theorem ConsistentOn.of_subset {fewer : List α} (consistent : ConsistentOn cmp items)
    (subset : ∀ a ∈ fewer, a ∈ items) : ConsistentOn cmp fewer :=
  fun a inA b inB c inC => consistent a (subset a inA) b (subset b inB) c (subset c inC)

theorem isLE_iff_not_lt [Std.OrientedCmp cmp] {a b : α} : (cmp a b).isLE ↔ cmp b a ≠ .lt := by
  rw [@Std.OrientedCmp.eq_swap _ cmp _ b a]
  cases cmp a b <;> simp

theorem isLE_total [Std.OrientedCmp cmp] (a b : α) : (cmp a b).isLE ∨ (cmp b a).isLE := by
  rw [@Std.OrientedCmp.eq_swap _ cmp _ b a]
  cases cmp a b <;> simp

theorem pairwise_sortBy [Std.OrientedCmp cmp] (consistent : ConsistentOn cmp items) :
    (sortBy cmp items).Pairwise fun a b => (cmp a b).isLE := by
  -- the sort of the members, which the comparator is transitive on
  let le : {a // a ∈ items} → {a // a ∈ items} → Bool := fun a b => (cmp a b).isLE
  have sorted : (items.attach.mergeSort le).Pairwise fun a b => le a b :=
    List.pairwise_mergeSort
      (fun a b c => consistent a.1 a.2 b.1 b.2 c.1 c.2)
      (fun a b => by
        rw [Bool.or_eq_true]
        exact isLE_total a.1 b.1) _
  have same : (items.attach.mergeSort le).map Subtype.val = sortBy cmp items := by
    have mapped := List.map_mergeSort (f := Subtype.val) (l := items.attach) (r := le)
      (s := fun a b => (cmp a b).isLE) fun a _ b _ => rfl
    rw [mapped, List.attach_map_subtype_val, sortBy]
  rw [← same, List.pairwise_map]
  exact sorted

theorem map_eq_of_pairwise {cmp : β → β → Ordering} [Std.OrientedCmp cmp] [Std.LawfulEqCmp cmp]
    {key : α → β} {left right : List α} (same : left.Perm right)
    (leftSorted : left.Pairwise fun a b => (cmp (key a) (key b)).isLE)
    (rightSorted : right.Pairwise fun a b => (cmp (key a) (key b)).isLE) :
    left.map key = right.map key := by
  have antisymm : ∀ a b, a ∈ left.map key → b ∈ right.map key → (cmp a b).isLE →
      (cmp b a).isLE → a = b := fun a b _ _ below above =>
    Std.LawfulEqCmp.eq_of_compare (Std.OrientedCmp.isLE_antisymm below above)
  exact List.Perm.eq_of_pairwise antisymm (List.pairwise_map.mpr leftSorted)
    (List.pairwise_map.mpr rightSorted) (same.map key)

end Sorted

/-! ### Comparing by values -/

variable [Ord α] [Ord β] {value : α → Option β}

/-- The values are compared if there are two, and the items themselves otherwise. -/
def compareByValue (value : α → Option β) (a b : α) : Ordering :=
  match value a, value b with
  | some x, some y => compare x y
  | _, _ => compare a b

theorem compareByValue_of_some {a b : α} {x y : β} (left : value a = some x)
    (right : value b = some y) : compareByValue value a b = compare x y := by
  simp only [compareByValue, left, right]

theorem compareByValue_of_none {a b : α} (without : value a = none ∨ value b = none) :
    compareByValue value a b = compare a b := by
  rcases without with left | right
  · simp only [compareByValue, left]
  · cases left : value a <;> simp only [compareByValue, left, right]

instance [Std.OrientedOrd α] [Std.OrientedOrd β] : Std.OrientedCmp (compareByValue value) where
  eq_swap {a b} := by
    cases left : value a with
    | none => rw [compareByValue_of_none (.inl left), compareByValue_of_none (.inr left),
        Std.OrientedOrd.eq_swap]
    | some x =>
      cases right : value b with
      | none => rw [compareByValue_of_none (.inr right), compareByValue_of_none (.inl right),
          Std.OrientedOrd.eq_swap]
      | some y => rw [compareByValue_of_some left right, compareByValue_of_some right left,
          Std.OrientedOrd.eq_swap]

/-- Items with the same value are one. -/
theorem compareByValue_eq_iff [Std.LawfulEqOrd α] [Std.LawfulEqOrd β]
    (injective : ∀ {a b x}, value a = some x → value b = some x → a = b) {a b : α} :
    compareByValue value a b = .eq ↔ a = b := by
  cases left : value a with
  | none => rw [compareByValue_of_none (.inl left), Std.compare_eq_iff_eq]
  | some x =>
    cases right : value b with
    | none => rw [compareByValue_of_none (.inr right), Std.compare_eq_iff_eq]
    | some y =>
      rw [compareByValue_of_some left right, Std.compare_eq_iff_eq]
      constructor
      · rintro rfl
        exact injective left right
      · rintro rfl
        exact Option.some.inj (left.symm.trans right)

/-- An item without a value lies between two items with values that lie the other way round. -/
structure Crossed (value : α → Option β) (low middle high : α) : Prop where
  without : value middle = none
  above : compare high middle = .lt
  below : compare middle low = .lt
  values : ∃ x y, value low = some x ∧ value high = some y ∧ compare x y = .lt

theorem compareByValue_of_crossed {low middle high : α} (crossed : Crossed value low middle high) :
    compareByValue value low high = .lt ∧ compareByValue value high middle = .lt ∧
      compareByValue value middle low = .lt := by
  obtain ⟨x, y, left, right, values⟩ := crossed.values
  refine ⟨?_, ?_, ?_⟩
  · rw [compareByValue_of_some left right, values]
  · rw [compareByValue_of_none (.inr crossed.without), crossed.above]
  · rw [compareByValue_of_none (.inl crossed.without), crossed.below]

section Circles

variable [Std.TransOrd α] [Std.LawfulEqOrd α] [Std.TransOrd β] [Std.LawfulEqOrd β]

/-- The comparator is transitive if no three items are crossed. -/
theorem consistentOn_compareByValue_iff
    (injective : ∀ {a b x}, value a = some x → value b = some x → a = b) {items : List α} :
    ConsistentOn (compareByValue value) items ↔
      ∀ low ∈ items, ∀ middle ∈ items, ∀ high ∈ items, ¬ Crossed value low middle high := by
  constructor
  · intro consistent low inLow middle inMiddle high inHigh crossed
    obtain ⟨first, second, third⟩ := compareByValue_of_crossed crossed
    have around := consistent low inLow high inHigh middle inMiddle
      (by rw [first]; rfl) (by rw [second]; rfl)
    rw [@Std.OrientedCmp.eq_swap _ (compareByValue value) _ low middle, third] at around
    cases around
  · intro uncrossed a inA b inB c inC
    have distinct : ∀ {a b : α} {x : β}, value a = some x → value b = none → a ≠ b := by
      rintro a b x valued without rfl
      rw [valued] at without
      cases without
    have strict : ∀ {a b : α}, (compare a b).isLE → a ≠ b → compare a b = .lt := by
      intro a b below different
      cases order : compare a b with
      | lt => rfl
      | eq => exact absurd (Std.compare_eq_iff_eq.mp order) different
      | gt => rw [order] at below; cases below
    -- two items in the order of their values, and one without a value that is between them
    have between : ∀ {low middle high : α} {x y : β}, low ∈ items → middle ∈ items →
        high ∈ items → value middle = none → value low = some x → value high = some y →
        (compare x y).isLE → compare middle low = .lt → compare high middle ≠ .lt := by
      intro low middle high x y inLow inMiddle inHigh without left right values below above
      cases order : compare x y with
      | lt =>
        exact uncrossed low inLow middle inMiddle high inHigh
          ⟨without, above, below, x, y, left, right, order⟩
      | eq =>
        obtain rfl := Std.compare_eq_iff_eq.mp order
        obtain rfl := injective left right
        rw [Std.OrientedOrd.eq_swap, below] at above
        cases above
      | gt => rw [order] at values; cases values
    intro below above
    cases middle : value b with
    | none =>
      rw [compareByValue_of_none (.inr middle)] at below
      rw [compareByValue_of_none (.inl middle)] at above
      cases left : value a with
      | none =>
        rw [compareByValue_of_none (.inl left)]
        exact Std.TransOrd.isLE_trans below above
      | some x =>
        cases right : value c with
        | none =>
          rw [compareByValue_of_none (.inr right)]
          exact Std.TransOrd.isLE_trans below above
        | some z =>
          rw [compareByValue_of_some left right, isLE_iff_not_lt]
          intro values
          exact between inC inB inA middle right left (by rw [values]; rfl)
            (strict above (distinct right middle).symm) (strict below (distinct left middle))
    | some y =>
      cases left : value a with
      | none =>
        rw [compareByValue_of_none (.inl left)] at below ⊢
        cases right : value c with
        | none =>
          rw [compareByValue_of_none (.inr right)] at above
          exact Std.TransOrd.isLE_trans below above
        | some z =>
          rw [compareByValue_of_some middle right] at above
          rw [isLE_iff_not_lt]
          exact between inB inA inC left middle right above
            (strict below (distinct middle left).symm)
      | some x =>
        rw [compareByValue_of_some left middle] at below
        cases right : value c with
        | none =>
          rw [compareByValue_of_none (.inr right)] at above ⊢
          rw [isLE_iff_not_lt]
          intro across
          exact between inA inC inB right left middle below across
            (strict above (distinct middle right))
        | some z =>
          rw [compareByValue_of_some middle right] at above
          rw [compareByValue_of_some left right]
          exact Std.TransOrd.isLE_trans below above

end Circles

end Systems
