import KelvinClaw.Library.BoundedBuffer

/-!
# Statements that write into a buffer

A program writes into a buffer in statements. Each has several writes, the next of which is done if
the one before it succeeded; whether a statement succeeded is ignored. What is in the buffer at the
end has gaps where words did not fit, and one text may be cut where the buffer ends.
-/

namespace Systems

universe u

variable {α : Type u} {capacity : ℕ}

/-! ### Statements -/

def Write.all (writes : List (Write α capacity)) : Write α capacity :=
  writes.foldr Write.andThen Write.done

/-- Statements one after the other. -/
def runAll (statements : List (List (Write α capacity))) (buf : Buffer α capacity) :
    Buffer α capacity :=
  statements.foldl (fun buf writes => (Write.all writes buf).2) buf

/-- A text that is written as a whole, or as far as there is room. -/
inductive Piece (α : Type u) where
  | word (text : List α)
  | fill (text : List α)

namespace Piece

def text : Piece α → List α
  | word text => text
  | fill text => text

def IsOf (write : Write α capacity) : Piece α → Prop
  | word text => write = writeWord text
  | fill text => Fills write text

def kept (room : ℕ) : Piece α → List α
  | word text => if text.length ≤ room then text else []
  | fill text => text.take room

variable {piece : Piece α} {write : Write α capacity}

theorem kept_of_fits {room : ℕ} (fits : piece.text.length ≤ room) :
    piece.kept room = piece.text := by
  cases piece with
  | word text => exact if_pos fits
  | fill text => exact List.take_of_length_le fits

theorem IsOf.writes (isOf : IsOf write piece) : Writes write piece.text := by
  cases piece with
  | word text => exact isOf ▸ writes_word text
  | fill text => exact Fills.toWrites isOf

theorem IsOf.written (isOf : IsOf write piece) (buf : Buffer α capacity) :
    (write buf).2.written = buf.written ++ piece.kept (capacity - buf.written.length) := by
  have within := buf.within
  by_cases room : buf.HasRoom piece.text
  · have fits : piece.text.length ≤ capacity - buf.written.length :=
      Nat.le_sub_of_add_le ((Nat.add_comm _ _).trans_le room)
    rw [isOf.writes.of_room buf room, kept_of_fits fits]
    rfl
  · have full : ¬ piece.text.length ≤ capacity - buf.written.length := fun fits =>
      room ((Nat.add_comm _ _).trans_le (Nat.add_le_of_le_sub within fits))
    cases piece with
    | word text =>
      have same : write buf = (false, buf) := isOf ▸ dif_neg room
      have nothing : (word text).kept (capacity - buf.written.length) = [] := if_neg full
      rw [same, nothing, List.append_nil]
    | fill text =>
      rw [Fills.written_eq isOf, List.take_append, List.take_of_length_le within]
      rfl

end Piece

/-! ### What is in the buffer -/

def keptAll : ℕ → List (Piece α) → List α
  | _, [] => []
  | room, piece :: rest => piece.kept room ++
      if piece.text.length ≤ room then keptAll (room - piece.text.length) rest else []

/-- What the buffer has of the pieces of several statements. -/
def keptRun : ℕ → List (List (Piece α)) → List α
  | _, [] => []
  | room, pieces :: more =>
    keptAll room pieces ++ keptRun (room - (keptAll room pieces).length) more

theorem written_all {writes : List (Write α capacity)} {pieces : List (Piece α)}
    (areOf : List.Forall₂ Piece.IsOf writes pieces) (buf : Buffer α capacity) :
    (Write.all writes buf).2.written =
      buf.written ++ keptAll (capacity - buf.written.length) pieces := by
  induction areOf generalizing buf with
  | nil => exact (List.append_nil _).symm
  | @cons write piece writes pieces isOf _ ih =>
    have within := buf.within
    have step : Write.all (write :: writes) buf =
        if (write buf).1 then Write.all writes (write buf).2 else write buf := rfl
    rw [step, keptAll]
    by_cases room : buf.HasRoom piece.text
    · have fits : piece.text.length ≤ capacity - buf.written.length :=
        Nat.le_sub_of_add_le ((Nat.add_comm _ _).trans_le room)
      have left : capacity - (buf.append piece.text room).written.length =
          capacity - buf.written.length - piece.text.length := by
        rw [Buffer.written_append, List.length_append, Nat.sub_add_eq]
      rw [if_pos ((isOf.writes.ok_iff buf).mpr room), ih, isOf.writes.of_room buf room, left,
        Buffer.written_append, if_pos fits, Piece.kept_of_fits fits, List.append_assoc]
    · have full : ¬ piece.text.length ≤ capacity - buf.written.length := fun fits =>
        room ((Nat.add_comm _ _).trans_le (Nat.add_le_of_le_sub within fits))
      rw [if_neg fun ok => room ((isOf.writes.ok_iff buf).mp ok), if_neg full, List.append_nil,
        isOf.written]

/-- What is in the buffer after some statements. -/
theorem written_runAll {statements : List (List (Write α capacity))}
    {pieces : List (List (Piece α))}
    (areOf : List.Forall₂ (List.Forall₂ Piece.IsOf) statements pieces)
    (buf : Buffer α capacity) :
    (runAll statements buf).written =
      buf.written ++ keptRun (capacity - buf.written.length) pieces := by
  induction areOf generalizing buf with
  | nil => exact (List.append_nil _).symm
  | @cons writes first statements pieces areFirst _ ih =>
    have step : runAll (writes :: statements) buf = runAll statements (Write.all writes buf).2 :=
      rfl
    have written := written_all areFirst buf
    rw [step, ih, written, keptRun, List.length_append, Nat.sub_add_eq, List.append_assoc]

theorem of_mem_kept {piece : Piece α} {room : ℕ} {a : α} (member : a ∈ piece.kept room) :
    a ∈ piece.text := by
  cases piece with
  | word text =>
    rw [Piece.kept] at member
    split_ifs at member
    · exact member
    · cases member
  | fill text => exact List.take_subset room text member

theorem of_mem_keptAll {room : ℕ} {pieces : List (Piece α)} {a : α}
    (member : a ∈ keptAll room pieces) : ∃ piece ∈ pieces, a ∈ piece.text := by
  induction pieces generalizing room with
  | nil => cases member
  | cons piece rest ih =>
    rw [keptAll, List.mem_append] at member
    rcases member with first | later
    · exact ⟨piece, List.mem_cons_self, of_mem_kept first⟩
    · split_ifs at later
      · obtain ⟨other, listed, inOther⟩ := ih later
        exact ⟨other, List.mem_cons_of_mem _ listed, inOther⟩
      · cases later

/-- What is in the buffer is of the pieces. -/
theorem of_mem_keptRun {room : ℕ} {pieces : List (List (Piece α))} {a : α}
    (member : a ∈ keptRun room pieces) : ∃ first ∈ pieces, ∃ piece ∈ first, a ∈ piece.text := by
  induction pieces generalizing room with
  | nil => cases member
  | cons first more ih =>
    rw [keptRun, List.mem_append] at member
    rcases member with here | later
    · exact ⟨first, List.mem_cons_self, of_mem_keptAll here⟩
    · obtain ⟨other, listed, inOther⟩ := ih later
      exact ⟨other, List.mem_cons_of_mem _ listed, inOther⟩

/-! ### Where pieces are cut -/

section Good

variable (Good : List α → Prop) (isFirst : α → Prop)

def AllGood : ℕ → List (Piece α) → Prop
  | _, [] => True
  | room, piece :: rest => Good (piece.kept room) ∧
      (piece.text.length ≤ room → AllGood (room - piece.text.length) rest)

/-- What is written of the pieces of some statements is good. -/
def RunGood : ℕ → List (List (Piece α)) → Prop
  | _, [] => True
  | room, pieces :: more =>
    AllGood Good room pieces ∧ RunGood (room - (keptAll room pieces).length) more

/-- A text does not begin in the middle of an item. -/
def BeginsWith (text : List α) : Prop := ∀ a ∈ text.head?, isFirst a

/-- Good texts are put together, and taken apart where an item begins. -/
structure Splits : Prop where
  nil : Good []
  append : ∀ {text more : List α}, Good text → Good more → Good (text ++ more)
  split : ∀ {text more : List α}, BeginsWith isFirst more → Good (text ++ more) →
    Good text ∧ Good more

variable {Good isFirst} {room : ℕ} {text more : List α}

theorem BeginsWith.append (begins : BeginsWith isFirst text) (begins' : BeginsWith isFirst more) :
    BeginsWith isFirst (text ++ more) := by
  cases text with
  | nil => exact begins'
  | cons a text => exact begins

theorem BeginsWith.kept {piece : Piece α} (begins : BeginsWith isFirst piece.text) (room : ℕ) :
    BeginsWith isFirst (piece.kept room) := by
  cases piece with
  | word text =>
    rw [Piece.kept]
    split_ifs
    · exact begins
    · exact nofun
  | fill text =>
    rw [Piece.kept]
    cases room with
    | zero => exact nofun
    | succ room =>
      cases text with
      | nil => exact nofun
      | cons a text => exact begins

theorem beginsWith_keptAll {pieces : List (Piece α)}
    (begins : ∀ piece ∈ pieces, BeginsWith isFirst piece.text) (room : ℕ) :
    BeginsWith isFirst (keptAll room pieces) := by
  induction pieces generalizing room with
  | nil => exact nofun
  | cons piece rest ih =>
    rw [List.forall_mem_cons] at begins
    refine (begins.1.kept room).append ?_
    split_ifs
    · exact ih begins.2 _
    · exact nofun

theorem beginsWith_keptRun {pieces : List (List (Piece α))}
    (begins : ∀ first ∈ pieces, ∀ piece ∈ first, BeginsWith isFirst piece.text) (room : ℕ) :
    BeginsWith isFirst (keptRun room pieces) := by
  induction pieces generalizing room with
  | nil => exact nofun
  | cons first more ih =>
    rw [List.forall_mem_cons] at begins
    exact (beginsWith_keptAll begins.1 room).append (ih begins.2 _)

theorem good_append_iff (splits : Splits Good isFirst) (begins : BeginsWith isFirst more) :
    Good (text ++ more) ↔ Good text ∧ Good more :=
  ⟨splits.split begins, fun good => splits.append good.1 good.2⟩

theorem good_keptAll_iff (splits : Splits Good isFirst) {pieces : List (Piece α)}
    (begins : ∀ piece ∈ pieces, BeginsWith isFirst piece.text) :
    Good (keptAll room pieces) ↔ AllGood Good room pieces := by
  induction pieces generalizing room with
  | nil => exact iff_of_true splits.nil trivial
  | cons piece rest ih =>
    rw [List.forall_mem_cons] at begins
    rw [keptAll, AllGood]
    by_cases fits : piece.text.length ≤ room
    · rw [if_pos fits, good_append_iff splits (beginsWith_keptAll begins.2 _), ih begins.2]
      exact and_congr_right fun _ => ⟨fun good _ => good, fun good => good fits⟩
    · rw [if_neg fits, List.append_nil]
      exact ⟨fun good => ⟨good, fun small => absurd small fits⟩, fun good => good.1⟩

/-- What is in the buffer is good exactly if no piece is cut at a bad place. -/
theorem good_keptRun_iff (splits : Splits Good isFirst) {pieces : List (List (Piece α))}
    (begins : ∀ first ∈ pieces, ∀ piece ∈ first, BeginsWith isFirst piece.text) :
    Good (keptRun room pieces) ↔ RunGood Good room pieces := by
  induction pieces generalizing room with
  | nil => exact iff_of_true splits.nil trivial
  | cons first more ih =>
    rw [List.forall_mem_cons] at begins
    rw [keptRun, RunGood, good_append_iff splits (beginsWith_keptRun begins.2 _), ih begins.2,
      good_keptAll_iff splits begins.1]

end Good

end Systems
