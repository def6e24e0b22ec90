import Mathlib.Data.List.Forall2

/-!
# Lists that are read item by item

A list is read if each of its items is, and an entry of what is read is read from one of the items.
-/

namespace Systems

variable {α β : Type} {f : α → Option β} {items : List α} {entries : List β}

theorem mapM_eq_some_iff :
    items.mapM f = some entries ↔
      List.Forall₂ (fun item entry => f item = some entry) items entries := by
  induction items generalizing entries with
  | nil =>
    rw [List.mapM_nil, List.forall₂_nil_left_iff]
    exact ⟨fun same => (Option.some.inj same).symm, fun same => congrArg some same.symm⟩
  | cons item rest ih =>
    rw [List.mapM_cons, List.forall₂_cons_left_iff]
    constructor
    · intro reads
      obtain ⟨entry, first, reads⟩ := Option.bind_eq_some_iff.mp reads
      obtain ⟨others, later, made⟩ := Option.bind_eq_some_iff.mp reads
      exact ⟨entry, others, first, ih.mp later, (Option.some.inj made).symm⟩
    · rintro ⟨entry, others, first, later, rfl⟩
      rw [first, ih.mpr later]
      rfl

theorem mapM_eq_some_map {g : α → β} (each : ∀ item ∈ items, f item = some (g item)) :
    items.mapM f = some (items.map g) := by
  rw [mapM_eq_some_iff, List.forall₂_map_right_iff, List.forall₂_same]
  exact each

/-- A list is read if each of its items is. -/
theorem exists_mapM_iff :
    (∃ entries, items.mapM f = some entries) ↔ ∀ item ∈ items, ∃ entry, f item = some entry := by
  simp only [mapM_eq_some_iff]
  constructor
  · rintro ⟨entries, beside⟩
    induction beside with
    | nil => exact List.forall_mem_nil _
    | cons first _ ih => exact List.forall_mem_cons.mpr ⟨⟨_, first⟩, ih⟩
  · intro reads
    induction items with
    | nil => exact ⟨[], .nil⟩
    | cons item rest ih =>
      obtain ⟨⟨entry, first⟩, others⟩ := List.forall_mem_cons.mp reads
      obtain ⟨entries, later⟩ := ih others
      exact ⟨entry :: entries, .cons first later⟩

theorem mem_of_mem_mapM {entry : β} (reads : items.mapM f = some entries)
    (member : entry ∈ entries) : ∃ item ∈ items, f item = some entry := by
  have beside := mapM_eq_some_iff.mp reads
  clear reads
  induction beside with
  | nil => cases member
  | cons first _ ih =>
    rcases List.mem_cons.mp member with rfl | later
    · exact ⟨_, List.mem_cons_self, first⟩
    · obtain ⟨item, listed, read⟩ := ih later
      exact ⟨item, List.mem_cons_of_mem _ listed, read⟩

theorem mem_mapM_of_mem {item : α} {entry : β} (reads : items.mapM f = some entries)
    (member : item ∈ items) (read : f item = some entry) : entry ∈ entries := by
  have beside := mapM_eq_some_iff.mp reads
  clear reads
  induction beside with
  | nil => cases member
  | cons first _ ih =>
    rcases List.mem_cons.mp member with rfl | later
    · obtain rfl := Option.some_inj.mp (first.symm.trans read)
      exact List.mem_cons_self
    · exact List.mem_cons_of_mem _ (ih later)

theorem mem_mapM_iff {g : β → α} (spelled : ∀ a b, f a = some b ↔ a = g b)
    (reads : items.mapM f = some entries) (entry : β) : entry ∈ entries ↔ g entry ∈ items := by
  constructor
  · intro member
    obtain ⟨item, listed, read⟩ := mem_of_mem_mapM reads member
    rwa [← (spelled item entry).mp read]
  · intro member
    exact mem_mapM_of_mem reads member ((spelled _ entry).mpr rfl)

/-- A selection of what is read is read from a selection. -/
theorem mapM_filter {p : α → Bool} {q : β → Bool} (same : ∀ a b, f a = some b → q b = p a)
    (reads : items.mapM f = some entries) :
    (items.filter p).mapM f = some (entries.filter q) := by
  rw [mapM_eq_some_iff] at reads ⊢
  induction reads with
  | nil => exact .nil
  | cons first _ ih =>
    rw [List.filter_cons, List.filter_cons, same _ _ first]
    split_ifs
    · exact .cons first ih
    · exact ih

end Systems
