import Mathlib.Data.List.Nodup
import Mathlib.Logic.Function.Basic

/-!
# Bounded maps with oldest-first eviction

A map that remembers the order in which its keys came in. When a new key is put
into a full map, the key that has been there longest is evicted. A bound of zero
means that the map is not bounded.
-/

namespace Systems

variable {κ β : Type*}

/-- A map whose keys are listed in the order in which they came in. -/
structure BoundedMap (κ β : Type*) where
  maxEntries : ℕ
  map : κ → Option β
  order : List κ
  nodup : order.Nodup
  mem_order : ∀ key, key ∈ order ↔ (map key).isSome

namespace BoundedMap

def empty (maxEntries : ℕ) : BoundedMap κ β where
  maxEntries := maxEntries
  map _ := none
  order := []
  nodup := .nil
  mem_order _ := by simp

/-- The key to go when a new one comes in: the oldest one of a full map. -/
def oldest (table : BoundedMap κ β) : Option κ :=
  if 0 < table.maxEntries ∧ table.maxEntries ≤ table.order.length then table.order.head?
  else none

/-- The key that putting `key` evicts. A key that is present stays in its place. -/
def evicts (table : BoundedMap κ β) (key : κ) : Option κ :=
  if (table.map key).isSome then none else table.oldest

theorem evicts_of_present {table : BoundedMap κ β} {key : κ} {value : β}
    (present : table.map key = some value) : table.evicts key = none := by
  simp [evicts, present]

variable [DecidableEq κ]

def erase (table : BoundedMap κ β) (key : κ) : BoundedMap κ β where
  maxEntries := table.maxEntries
  map := Function.update table.map key none
  order := table.order.erase key
  nodup := table.nodup.erase key
  mem_order other := by
    rw [table.nodup.mem_erase_iff, table.mem_order]
    by_cases same : other = key <;> simp [same]

def makeRoom (table : BoundedMap κ β) : BoundedMap κ β :=
  match table.oldest with
  | some key => table.erase key
  | none => table

theorem map_makeRoom (table : BoundedMap κ β) (key : κ) :
    table.makeRoom.map key = if table.oldest = some key then none else table.map key := by
  unfold makeRoom
  cases table.oldest with
  | none => simp
  | some gone => simp [erase, Function.update_apply, eq_comm]

theorem map_makeRoom_eq_none {table : BoundedMap κ β} {key : κ} (absent : table.map key = none) :
    table.makeRoom.map key = none := by
  rw [map_makeRoom, absent, ite_self]

/-- Set the entry of a key that is present; add a key that is not at the end of the
order, after making room for it. -/
def put (table : BoundedMap κ β) (key : κ) (value : β) : BoundedMap κ β :=
  if present : (table.map key).isSome then
    { table with
      map := Function.update table.map key (some value)
      mem_order := fun other => by
        rw [table.mem_order]
        by_cases same : other = key <;> simp [same, present] }
  else
    { maxEntries := table.maxEntries
      map := Function.update table.makeRoom.map key (some value)
      order := table.makeRoom.order ++ [key]
      nodup := by
        have absent := map_makeRoom_eq_none (Option.not_isSome_iff_eq_none.mp present)
        refine table.makeRoom.nodup.append (List.nodup_singleton key) ?_
        rw [List.disjoint_singleton, table.makeRoom.mem_order, absent]
        exact Bool.false_ne_true
      mem_order := fun other => by
        rw [List.mem_append, List.mem_singleton, table.makeRoom.mem_order]
        by_cases same : other = key <;> simp [same] }

theorem map_erase (table : BoundedMap κ β) (key other : κ) :
    (table.erase key).map other = if other = key then none else table.map other := by
  simp [erase, Function.update_apply]

/-- What a put does to every key: its own gets the value, the evicted one goes, and
every other one keeps its entry. -/
theorem map_put (table : BoundedMap κ β) (key : κ) (value : β) (other : κ) :
    (table.put key value).map other =
      if other = key then some value
      else if table.evicts key = some other then none
      else table.map other := by
  by_cases present : (table.map key).isSome
  · simp [put, evicts, present, Function.update_apply]
  · simp only [put, evicts, present, dite_false, Function.update_apply, map_makeRoom, if_false,
      Bool.false_eq_true]

@[simp] theorem map_put_self (table : BoundedMap κ β) (key : κ) (value : β) :
    (table.put key value).map key = some value := by
  rw [map_put, if_pos rfl]

@[simp] theorem maxEntries_put (table : BoundedMap κ β) (key : κ) (value : β) :
    (table.put key value).maxEntries = table.maxEntries := by
  unfold put
  split <;> rfl

/-- Making room leaves a map that had no more keys than its bound with a free place. -/
theorem length_order_makeRoom_lt {table : BoundedMap κ β} (bounded : 0 < table.maxEntries)
    (fits : table.order.length ≤ table.maxEntries) :
    table.makeRoom.order.length < table.maxEntries := by
  cases keys : table.order with
  | nil => simpa [makeRoom, oldest, keys] using bounded
  | cons first rest =>
    by_cases full : table.maxEntries ≤ table.order.length
    · -- evicting the oldest key frees one place
      have firstGoes : table.oldest = some first := by
        rw [oldest, if_pos ⟨bounded, full⟩, keys, List.head?_cons]
      rw [keys] at fits
      simpa [makeRoom, firstGoes, erase, keys] using Nat.lt_of_succ_le fits
    · have unchanged : table.makeRoom = table := by simp [makeRoom, oldest, full]
      rw [unchanged]
      exact Nat.lt_of_not_le full

/-- A bounded map never holds more keys than its bound. -/
theorem length_order_put_le {table : BoundedMap κ β} (bounded : 0 < table.maxEntries)
    (fits : table.order.length ≤ table.maxEntries) (key : κ) (value : β) :
    (table.put key value).order.length ≤ table.maxEntries := by
  unfold put
  split
  · exact fits
  · rw [List.length_append]
    exact length_order_makeRoom_lt bounded fits

/-! ### Ages -/

section Ages

/-- The keys are listed by the time at which they came in, and all of them came in before
`now`. -/
structure Aged (table : BoundedMap κ β) (cameIn : κ → ℕ) (now : ℕ) : Prop where
  sorted : table.order.Pairwise fun older younger => cameIn older < cameIn younger
  past : ∀ key ∈ table.order, cameIn key < now

variable {table : BoundedMap κ β} {cameIn : κ → ℕ} {now : ℕ}

omit [DecidableEq κ] in
theorem Aged.later (aged : table.Aged cameIn now) {afterwards : ℕ} (le : now ≤ afterwards) :
    table.Aged cameIn afterwards where
  sorted := aged.sorted
  past := fun key present => Nat.lt_of_lt_of_le (aged.past key present) le

omit [DecidableEq κ] in
/-- The key that goes when a new one comes in is older than every other one. -/
theorem Aged.lt_of_oldest (aged : table.Aged cameIn now) {key other : κ}
    (goes : table.oldest = some key) (present : (table.map other).isSome) (ne : other ≠ key) :
    cameIn key < cameIn other := by
  rw [oldest] at goes
  split_ifs at goes
  obtain ⟨rest, listed⟩ := List.head?_eq_some_iff.mp goes
  have sorted := aged.sorted
  rw [listed, List.pairwise_cons] at sorted
  rw [← table.mem_order, listed, List.mem_cons] at present
  exact sorted.1 other (present.resolve_left ne)

theorem Aged.erase (aged : table.Aged cameIn now) (key : κ) :
    (table.erase key).Aged cameIn now where
  sorted := aged.sorted.sublist List.erase_sublist
  past := fun other present => aged.past other (List.mem_of_mem_erase present)

theorem Aged.makeRoom (aged : table.Aged cameIn now) : table.makeRoom.Aged cameIn now := by
  unfold BoundedMap.makeRoom
  split
  · exact aged.erase _
  · exact aged

/-- A key that is present keeps its age. -/
theorem Aged.put_of_present (aged : table.Aged cameIn now) {key : κ}
    (present : (table.map key).isSome) (value : β) : (table.put key value).Aged cameIn now := by
  rw [put, dif_pos present]
  exact ⟨aged.sorted, aged.past⟩

/-- A new key is the youngest one. -/
theorem Aged.put_of_absent (aged : table.Aged cameIn now) {key : κ}
    (absent : table.map key = none) (value : β) :
    (table.put key value).Aged (Function.update cameIn key now) (now + 1) := by
  have room := aged.makeRoom
  have new : key ∉ table.makeRoom.order := by
    rw [table.makeRoom.mem_order, map_makeRoom_eq_none absent]
    exact Bool.false_ne_true
  have same : ∀ other ∈ table.makeRoom.order,
      Function.update cameIn key now other = cameIn other := by
    intro other present
    apply Function.update_of_ne
    rintro rfl
    exact new present
  rw [put, dif_neg (by simp [absent])]
  constructor
  · refine List.pairwise_append.mpr ⟨?_, List.pairwise_singleton _ _, ?_⟩
    · exact room.sorted.imp_of_mem fun first second lt => by rwa [same _ first, same _ second]
    · intro older present younger last
      rw [List.mem_singleton.mp last, same older present, Function.update_self]
      exact room.past older present
  · intro other present
    rcases List.mem_append.mp present with earlier | last
    · rw [same other earlier]
      exact Nat.lt_succ_of_lt (room.past other earlier)
    · rw [List.mem_singleton.mp last, Function.update_self]
      exact Nat.lt_succ_self now

end Ages

end BoundedMap

end Systems
