import Mathlib.Algebra.GroupWithZero.Nat
import Mathlib.Algebra.Order.BigOperators.Group.List
import Mathlib.Algebra.Order.Group.Nat
import Mathlib.Data.List.Chain

/-!
# The lines of a text

A line ends with a newline, which may have a carriage return in front of it, or with the text.
Neither is part of the line. Joining the lines of a text again leaves out the newline at the
end of the text and the carriage returns, so that the text comes back exactly when it has none
of these.
-/

namespace Systems

def dropReturn (line : List Char) : List Char :=
  if line.getLast? = some '\r' then line.dropLast else line

/-- The lines of a text whose first line has begun with some characters. -/
def linesFrom (line : List Char) : List Char → List (List Char)
  | [] => if line = [] then [] else [line]
  | c :: rest =>
    if c = '\n' then dropReturn line :: linesFrom [] rest else linesFrom (line ++ [c]) rest

def lines (text : List Char) : List (List Char) := linesFrom [] text

/-- Lines with a newline between each two. -/
def joinLines (list : List (List Char)) : List Char := ['\n'].intercalate list

/-! ### Line by line -/

theorem linesFrom_of_not_mem {line text : List Char} (plain : '\n' ∉ text) :
    linesFrom line text = if line ++ text = [] then [] else [line ++ text] := by
  induction text generalizing line with
  | nil => rw [linesFrom, List.append_nil]
  | cons c rest ih =>
    obtain ⟨here, later⟩ := List.ne_and_not_mem_of_not_mem_cons plain
    rw [linesFrom, if_neg (Ne.symm here), ih later, List.append_assoc, List.singleton_append]

theorem linesFrom_append {line text rest : List Char} (plain : '\n' ∉ text) :
    linesFrom line (text ++ '\n' :: rest) = dropReturn (line ++ text) :: lines rest := by
  induction text generalizing line with
  | nil => simp [linesFrom, lines]
  | cons c tail ih =>
    obtain ⟨here, later⟩ := List.ne_and_not_mem_of_not_mem_cons plain
    rw [List.cons_append, linesFrom, if_neg (Ne.symm here), ih later, List.append_assoc,
      List.singleton_append]

@[simp] theorem lines_nil : lines [] = [] := rfl

theorem lines_of_not_mem {text : List Char} (nonempty : text ≠ []) (plain : '\n' ∉ text) :
    lines text = [text] := by
  rw [lines, linesFrom_of_not_mem plain, List.nil_append, if_neg nonempty]

theorem lines_append {line rest : List Char} (plain : '\n' ∉ line) :
    lines (line ++ '\n' :: rest) = dropReturn line :: lines rest := by
  rw [lines, linesFrom_append plain, List.nil_append]

theorem lines_induction {motive : List Char → Prop} (nil : motive [])
    (last : ∀ text, text ≠ [] → '\n' ∉ text → motive text)
    (line : ∀ line rest, '\n' ∉ line → motive rest → motive (line ++ '\n' :: rest))
    (text : List Char) : motive text := by
  induction size : text.length using Nat.strong_induction_on generalizing text with
  | _ n ih =>
    by_cases newline : '\n' ∈ text
    · obtain ⟨first, rest, rfl, plain⟩ := List.eq_append_cons_of_mem newline
      exact line first rest plain (ih _ (by simp [← size]; omega) rest rfl)
    · by_cases empty : text = []
      · exact empty ▸ nil
      · exact last text empty newline

theorem lines_ne_nil {text : List Char} (nonempty : text ≠ []) : lines text ≠ [] := by
  induction text using lines_induction with
  | nil => exact absurd rfl nonempty
  | last text _ plain => rw [lines_of_not_mem nonempty plain]; exact List.cons_ne_nil _ _
  | line line rest plain _ => rw [lines_append plain]; exact List.cons_ne_nil _ _

theorem not_mem_of_mem_lines {text line : List Char} (member : line ∈ lines text) :
    '\n' ∉ line := by
  induction text using lines_induction with
  | nil => cases member
  | last text nonempty plain =>
    rw [lines_of_not_mem nonempty plain, List.mem_singleton] at member
    rwa [member]
  | line first rest plain ih =>
    rw [lines_append plain] at member
    rcases List.mem_cons.mp member with rfl | later
    · unfold dropReturn
      split_ifs
      · exact fun newline => plain ((List.dropLast_sublist _).subset newline)
      · exact plain
    · exact ih later

/-! ### Joining -/

@[simp] theorem joinLines_nil : joinLines [] = [] := rfl

@[simp] theorem joinLines_singleton (line : List Char) : joinLines [line] = line := by
  simp [joinLines]

theorem joinLines_cons {line : List Char} {rest : List (List Char)} (more : rest ≠ []) :
    joinLines (line :: rest) = line ++ '\n' :: joinLines rest := by
  cases rest with
  | nil => exact absurd rfl more
  | cons next rest => simp [joinLines, List.intercalate]

/-- Lines that are written out, each with a newline after it, are read back without the carriage
returns at their ends. -/
theorem lines_joinLines_concat {list : List (List Char)} (nonempty : list ≠ [])
    (plain : ∀ line ∈ list, '\n' ∉ line) :
    lines (joinLines list ++ ['\n']) = list.map dropReturn := by
  induction list with
  | nil => exact absurd rfl nonempty
  | cons line rest ih =>
    obtain ⟨here, later⟩ := List.forall_mem_cons.mp plain
    by_cases last : rest = []
    · subst last
      rw [joinLines_singleton, lines_append here, lines_nil, List.map_singleton]
    · rw [joinLines_cons last, List.append_assoc, List.cons_append, lines_append here,
        ih last later, List.map_cons]

theorem length_joinLines {list : List (List Char)} (nonempty : list ≠ []) :
    (joinLines list).length + 1 = (list.map List.length).sum + list.length := by
  induction list with
  | nil => exact absurd rfl nonempty
  | cons line rest ih =>
    cases rest with
    | nil => simp
    | cons next rest =>
      rw [joinLines_cons (List.cons_ne_nil _ _), List.map_cons, List.sum_cons, List.length_cons,
        List.length_append, List.length_cons]
      have later := ih (List.cons_ne_nil _ _)
      omega

/-- Fewer lines are shorter when they are joined, if there is one at all. -/
theorem length_joinLines_lt {part all : List (List Char)} (sub : part.Sublist all)
    (nonempty : part ≠ []) (fewer : part.length < all.length) :
    (joinLines part).length < (joinLines all).length := by
  have within : (part.map List.length).sum ≤ (all.map List.length).sum :=
    (sub.map List.length).sum_le_sum fun _ _ => Nat.zero_le _
  have short := length_joinLines nonempty
  have more : all ≠ [] := by
    rintro rfl
    simp at fewer
  have long := length_joinLines more
  omega

theorem length_dropReturn_le (line : List Char) : (dropReturn line).length ≤ line.length := by
  unfold dropReturn
  split_ifs
  · rw [List.length_dropLast]
    omega
  · exact Nat.le_refl _

theorem dropReturn_eq_self {line : List Char} :
    dropReturn line = line ↔ line.getLast? ≠ some '\r' := by
  unfold dropReturn
  split_ifs with ended
  · obtain ⟨front, rfl⟩ := List.getLast?_eq_some_iff.mp ended
    simp
  · simp [ended]

theorem length_joinLines_le (text : List Char) :
    (joinLines (lines text)).length ≤ text.length := by
  induction text using lines_induction with
  | nil => exact Nat.le_refl _
  | last text nonempty plain =>
    rw [lines_of_not_mem nonempty plain, joinLines_singleton]
  | line line rest plain ih =>
    rw [lines_append plain]
    have shorter := length_dropReturn_le line
    by_cases last : lines rest = []
    · rw [last, joinLines_singleton, List.length_append]
      omega
    · rw [joinLines_cons last, List.length_append, List.length_append, List.length_cons,
        List.length_cons]
      omega

/-- No carriage return stands before a newline. -/
def NoReturns (text : List Char) : Prop :=
  text.IsChain fun c next => ¬ (c = '\r' ∧ next = '\n')

instance (text : List Char) : Decidable (NoReturns text) :=
  inferInstanceAs (Decidable (text.IsChain _))

theorem noReturns_of_not_mem {text : List Char} (plain : '\n' ∉ text) : NoReturns text := by
  refine List.isChain_iff_getElem.mpr fun i inside => ?_
  rintro ⟨-, newline⟩
  exact plain (newline ▸ List.getElem_mem inside)

theorem noReturns_append {line rest : List Char} (plain : '\n' ∉ line) :
    NoReturns (line ++ '\n' :: rest) ↔ line.getLast? ≠ some '\r' ∧ NoReturns rest := by
  have first : NoReturns ('\n' :: rest) ↔ NoReturns rest := by
    cases rest with
    | nil => exact iff_of_true (List.isChain_singleton _) List.isChain_nil
    | cons c rest =>
      refine List.isChain_cons_cons.trans (and_iff_right ?_)
      exact fun same => absurd same.1 (by decide)
  unfold NoReturns at first ⊢
  rw [List.isChain_append, first]
  constructor
  · rintro ⟨-, later, apart⟩
    exact ⟨fun ended => apart _ ended _ rfl ⟨rfl, rfl⟩, later⟩
  · rintro ⟨ended, later⟩
    refine ⟨noReturns_of_not_mem plain, later, ?_⟩
    rintro c last _ - ⟨rfl, -⟩
    exact ended last

/-- The lines of a text make up the text exactly when no newline ends it and no carriage return
stands before a newline. -/
theorem joinLines_lines_iff {text : List Char} (nonempty : text ≠ []) :
    joinLines (lines text) = text ↔ text.getLast? ≠ some '\n' ∧ NoReturns text := by
  induction text using lines_induction with
  | nil => exact absurd rfl nonempty
  | last text _ plain =>
    rw [lines_of_not_mem nonempty plain, joinLines_singleton]
    exact iff_of_true rfl
      ⟨fun ends => plain (List.mem_of_getLast? ends), noReturns_of_not_mem plain⟩
  | line line rest plain ih =>
    rw [lines_append plain, noReturns_append plain]
    have shorter := length_dropReturn_le line
    by_cases ends : rest = []
    · -- the newline at the end is left out
      subst ends
      refine iff_of_false (fun same => ?_) (fun ⟨more, _⟩ => by simp at more)
      have lengths := congrArg List.length same
      rw [lines_nil, joinLines_singleton, List.length_append, List.length_singleton] at lengths
      omega
    · have last : (line ++ '\n' :: rest).getLast? = rest.getLast? := by
        rw [List.getLast?_append_of_ne_nil _ (List.cons_ne_nil _ _), List.getLast?_cons]
        cases rest with
        | nil => exact absurd rfl ends
        | cons c rest => simp [List.getLast?_cons]
      rw [joinLines_cons (lines_ne_nil ends), last, ← dropReturn_eq_self]
      constructor
      · intro same
        -- each part is at most as long as what it comes from
        have later := length_joinLines_le rest
        have lengths := congrArg List.length same
        simp only [List.length_append, List.length_cons] at lengths
        obtain ⟨kept, rest'⟩ := List.append_inj same (by omega)
        obtain ⟨newline, chain⟩ := (ih ends).mp (List.cons.inj rest').2
        exact ⟨newline, kept, chain⟩
      · rintro ⟨newline, kept, chain⟩
        rw [kept, (ih ends).mpr ⟨newline, chain⟩]

/-- Some lines in a row make up the text exactly when they are all of its lines and these make up
the text. -/
theorem joinLines_page_iff {text : List Char} (nonempty : text ≠ []) (start count : ℕ) :
    joinLines (((lines text).drop start).take count) = text ↔
      start = 0 ∧ (lines text).length ≤ count ∧ text.getLast? ≠ some '\n' ∧ NoReturns text := by
  rw [← joinLines_lines_iff nonempty]
  have first : 0 < (lines text).length := List.length_pos_iff.mpr (lines_ne_nil nonempty)
  constructor
  · intro same
    have sub : (((lines text).drop start).take count).Sublist (lines text) :=
      (List.take_sublist _ _).trans (List.drop_sublist _ _)
    have taken : ((lines text).drop start).take count ≠ [] := by
      intro empty
      rw [empty] at same
      exact nonempty same.symm
    -- a shorter page would be a shorter text
    have all : (lines text).length ≤ (((lines text).drop start).take count).length := by
      by_contra fewer
      have shorter := length_joinLines_lt sub taken (Nat.lt_of_not_le fewer)
      rw [same] at shorter
      exact absurd (length_joinLines_le text) (Nat.not_le.mpr shorter)
    have whole := sub.eq_of_length_le all
    rw [List.length_take, List.length_drop] at all
    exact ⟨by omega, by omega, whole ▸ same⟩
  · rintro ⟨rfl, covers, same⟩
    rw [List.drop_zero, List.take_of_length_le covers, same]

end Systems
