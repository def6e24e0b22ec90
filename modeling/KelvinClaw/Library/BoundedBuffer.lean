import Mathlib.Data.List.Infix
import Mathlib.Tactic.Common

/-!
# Buffers of a fixed size

A buffer is written from its start to its end. A write says whether there was room for all of its
text. If there was not, it has written the beginning of its text: nothing, or as much as there was
room for, or something between.
-/

namespace Systems

universe u

variable {α : Type u} {capacity : ℕ}

/-- A buffer, with what is written to it so far. -/
structure Buffer (α : Type u) (capacity : ℕ) where
  written : List α
  within : written.length ≤ capacity

namespace Buffer

def empty : Buffer α capacity := ⟨[], Nat.zero_le _⟩

def HasRoom (buf : Buffer α capacity) (text : List α) : Prop :=
  buf.written.length + text.length ≤ capacity

instance (buf : Buffer α capacity) (text : List α) : Decidable (buf.HasRoom text) :=
  inferInstanceAs (Decidable (_ ≤ _))

def append (buf : Buffer α capacity) (text : List α) (room : buf.HasRoom text) :
    Buffer α capacity :=
  ⟨buf.written ++ text, List.length_append.trans_le room⟩

@[ext] theorem ext {buf other : Buffer α capacity} (same : buf.written = other.written) :
    buf = other := by
  cases buf
  cases other
  simpa using same

@[simp] theorem written_append (buf : Buffer α capacity) (text : List α)
    (room : buf.HasRoom text) : (buf.append text room).written = buf.written ++ text := rfl

theorem hasRoom_append {buf : Buffer α capacity} {text more : List α} :
    buf.HasRoom (text ++ more) ↔
      ∃ room : buf.HasRoom text, (buf.append text room).HasRoom more := by
  have lengths : (text ++ more).length = text.length + more.length := List.length_append
  have grown : (buf.written ++ text).length = buf.written.length + text.length := List.length_append
  constructor
  · intro room
    have both : buf.written.length + (text ++ more).length ≤ capacity := room
    have first : buf.HasRoom text := show buf.written.length + text.length ≤ capacity by omega
    exact ⟨first, show (buf.written ++ text).length + more.length ≤ capacity by omega⟩
  · rintro ⟨_, room⟩
    have both : (buf.written ++ text).length + more.length ≤ capacity := room
    exact show buf.written.length + (text ++ more).length ≤ capacity by omega

end Buffer

/-- A write says whether there was room, and gives the buffer that it leaves. -/
abbrev Write (α : Type u) (capacity : ℕ) := Buffer α capacity → Bool × Buffer α capacity

def writeWord (text : List α) : Write α capacity := fun buf =>
  if room : buf.HasRoom text then (true, buf.append text room) else (false, buf)

namespace Write

def done : Write α capacity := fun buf => (true, buf)

def andThen (first second : Write α capacity) : Write α capacity := fun buf =>
  if (first buf).1 then second (first buf).2 else first buf

end Write

/-- The text of a write: all of it is written if there is room for it, and otherwise a beginning. -/
structure Writes (write : Write α capacity) (text : List α) : Prop where
  of_room : ∀ (buf : Buffer α capacity) (room : buf.HasRoom text),
    write buf = (true, buf.append text room)
  of_full : ∀ buf : Buffer α capacity, ¬ buf.HasRoom text →
    (write buf).1 = false ∧ ∃ start, start <+: text ∧ (write buf).2.written = buf.written ++ start

/-- A write with a text of which it writes as much as there is room for. -/
structure Fills (write : Write α capacity) (text : List α) : Prop extends Writes write text where
  filled : ∀ buf : Buffer α capacity, ¬ buf.HasRoom text →
    (write buf).2.written.length = capacity

section Writes

variable {write first second : Write α capacity} {text more : List α}

theorem Writes.ok_iff (writes : Writes write text) (buf : Buffer α capacity) :
    (write buf).1 = true ↔ buf.HasRoom text := by
  by_cases room : buf.HasRoom text
  · rw [writes.of_room buf room]
    exact iff_of_true rfl room
  · rw [(writes.of_full buf room).1]
    exact iff_of_false Bool.false_ne_true room

theorem writes_word (text : List α) : Writes (writeWord text : Write α capacity) text where
  of_room _ room := dif_pos room
  of_full buf full := by
    have same : writeWord text buf = (false, buf) := dif_neg full
    rw [same]
    exact ⟨rfl, [], List.nil_prefix, (List.append_nil _).symm⟩

theorem fills_done : Fills (Write.done : Write α capacity) [] where
  of_room _ _ := Prod.ext rfl (Buffer.ext (List.append_nil _).symm)
  of_full buf full := absurd buf.within full
  filled buf full := absurd buf.within full

/-- A single item is written, or there is no room at all. -/
theorem fills_item (a : α) : Fills (writeWord [a] : Write α capacity) [a] where
  toWrites := writes_word [a]
  filled buf full := by
    have same : writeWord [a] buf = (false, buf) := dif_neg full
    rw [same]
    exact Nat.le_antisymm buf.within (Nat.le_of_lt_succ (Nat.lt_of_not_le full))

theorem Writes.andThen (writes : Writes first text) (writes' : Writes second more) :
    Writes (first.andThen second) (text ++ more) where
  of_room buf room := by
    obtain ⟨roomFirst, roomSecond⟩ := Buffer.hasRoom_append.mp room
    rw [Write.andThen, writes.of_room buf roomFirst]
    simp only [if_true, writes'.of_room _ roomSecond]
    exact Prod.ext rfl (Buffer.ext (List.append_assoc _ _ _))
  of_full buf full := by
    rw [Write.andThen]
    by_cases room : buf.HasRoom text
    · -- the first text fits, so it is the second that does not
      have roomless : ¬ (buf.append text room).HasRoom more := fun rest =>
        full (Buffer.hasRoom_append.mpr ⟨room, rest⟩)
      obtain ⟨failed, start, isStart, written⟩ := writes'.of_full _ roomless
      simp only [writes.of_room buf room, if_true]
      refine ⟨failed, text ++ start, (List.prefix_append_right_inj text).mpr isStart, ?_⟩
      rw [written, Buffer.written_append, List.append_assoc]
    · obtain ⟨failed, start, isStart, written⟩ := writes.of_full buf room
      rw [failed, if_neg Bool.false_ne_true]
      exact ⟨failed, start, isStart.trans (List.prefix_append _ _), written⟩

theorem Fills.andThen (fills : Fills first text) (fills' : Fills second more) :
    Fills (first.andThen second) (text ++ more) where
  toWrites := fills.toWrites.andThen fills'.toWrites
  filled buf full := by
    rw [Write.andThen]
    by_cases room : buf.HasRoom text
    · have roomless : ¬ (buf.append text room).HasRoom more := fun rest =>
        full (Buffer.hasRoom_append.mpr ⟨room, rest⟩)
      simp only [fills.of_room buf room, if_true]
      exact fills'.filled _ roomless
    · rw [(fills.of_full buf room).1, if_neg Bool.false_ne_true]
      exact fills.filled buf room

/-- What is in the buffer afterwards is cut at its end. -/
theorem Fills.written_eq (fills : Fills write text) (buf : Buffer α capacity) :
    (write buf).2.written = (buf.written ++ text).take capacity := by
  by_cases room : buf.HasRoom text
  · rw [fills.of_room buf room, List.take_of_length_le (List.length_append.trans_le room)]
    rfl
  · obtain ⟨-, start, isStart, written⟩ := fills.of_full buf room
    have whole : (write buf).2.written <+: buf.written ++ text :=
      written ▸ (List.prefix_append_right_inj _).mpr isStart
    rw [List.prefix_iff_eq_take.mp whole, fills.filled buf room]

end Writes

end Systems
