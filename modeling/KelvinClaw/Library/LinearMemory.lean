import Mathlib.Data.List.Basic
import Mathlib.Order.Basic

/-!
# Linear memories

The cells of a memory are numbered from zero on. A read gives the cells of a region, a write puts
items in their place; both are refused if the region ends outside the memory. What is written is
what is read there, and the cells outside the region stay as they were.
-/

namespace Systems

/-- A memory of cells that hold values of type `α`. -/
structure LinearMemory (α : Type*) where
  cells : List α
  deriving DecidableEq, Repr

namespace LinearMemory

variable {α : Type*}

/-- The number of cells. -/
def size (memory : LinearMemory α) : ℕ := memory.cells.length

/-- The cells of a region, unless it ends outside the memory. -/
def read (memory : LinearMemory α) (start count : ℕ) : Option (List α) :=
  if start + count ≤ memory.size then some ((memory.cells.drop start).take count) else none

/-- Put items in the place of the cells from `start` on, unless there is no room for them. -/
def write (memory : LinearMemory α) (start : ℕ) (items : List α) : Option (LinearMemory α) :=
  if start + items.length ≤ memory.size then
    some ⟨memory.cells.take start ++ (items ++ memory.cells.drop (start + items.length))⟩
  else none

/-- Two memories of one size differ in a region, if anywhere. -/
structure AgreesOutside (start count : ℕ) (memory memory' : LinearMemory α) : Prop where
  size_eq : memory'.size = memory.size
  cells_eq : ∀ i, i < start ∨ start + count ≤ i → memory'.cells[i]? = memory.cells[i]?

variable {memory memory' : LinearMemory α} {start : ℕ} {items : List α}

theorem write_eq_some_iff :
    memory.write start items = some memory' ↔ start + items.length ≤ memory.size ∧ memory' =
      ⟨memory.cells.take start ++ (items ++ memory.cells.drop (start + items.length))⟩ := by
  unfold write
  split_ifs with fits
  · rw [Option.some.injEq, eq_comm, and_iff_right fits]
  · simp [fits]

theorem write_eq_some (fits : start + items.length ≤ memory.size) :
    ∃ memory', memory.write start items = some memory' :=
  ⟨_, write_eq_some_iff.mpr ⟨fits, rfl⟩⟩

theorem length_take_cells (fits : start + items.length ≤ memory.size) :
    (memory.cells.take start).length = start := by
  rw [List.length_take]
  exact Nat.min_eq_left (Nat.le_trans (Nat.le_add_right _ _) fits)

theorem size_of_write (written : memory.write start items = some memory') :
    memory'.size = memory.size := by
  obtain ⟨fits, rfl⟩ := write_eq_some_iff.mp written
  unfold size at fits ⊢
  simp only [List.length_append, List.length_take, List.length_drop]
  omega

theorem read_of_write (written : memory.write start items = some memory') :
    memory'.read start items.length = some items := by
  have same := size_of_write written
  obtain ⟨fits, rfl⟩ := write_eq_some_iff.mp written
  rw [read, if_pos (same ▸ fits), List.drop_left' (length_take_cells fits), List.take_left]

theorem read_zero (inside : start ≤ memory.size) : memory.read start 0 = some [] := by
  rw [read, Nat.add_zero, if_pos inside, List.take_zero]

/-- The front of a memory. -/
theorem read_append (items rest : List α) :
    (⟨items ++ rest⟩ : LinearMemory α).read 0 items.length = some items := by
  rw [read, if_pos, List.drop_zero, List.take_left]
  rw [size, Nat.zero_add, List.length_append]
  exact Nat.le_add_right _ _

/-- A write leaves the cells outside its region as they were. -/
theorem agreesOutside_of_write (written : memory.write start items = some memory') :
    AgreesOutside start items.length memory memory' := by
  refine ⟨size_of_write written, fun i outside => ?_⟩
  obtain ⟨fits, rfl⟩ := write_eq_some_iff.mp written
  have front := length_take_cells fits
  rcases outside with before | behind
  · rw [List.getElem?_append_left (front.symm ▸ before), List.getElem?_take_of_lt before]
  · rw [List.getElem?_append_right (by omega), List.getElem?_append_right (by omega),
      List.getElem?_drop, front]
    congr 1
    omega

theorem AgreesOutside.refl {count : ℕ} : AgreesOutside start count memory memory :=
  ⟨rfl, fun _ _ => rfl⟩

end LinearMemory

end Systems
