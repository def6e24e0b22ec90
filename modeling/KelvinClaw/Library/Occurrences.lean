import Mathlib.Data.List.Infix

/-!
# The first occurrence of a pattern

A text is cut at the first place where a pattern occurs in it. If the pattern is put behind a text,
it occurs there first unless it already occurs before its own last item.
-/

namespace Systems

section Cut

variable {α : Type*} [DecidableEq α] {pat text front rest : List α}

/-- What stands before and behind the first occurrence of the pattern. -/
def cutAt (pat : List α) : List α → Option (List α × List α)
  | [] => if pat = [] then some ([], []) else none
  | c :: text =>
    if pat <+: c :: text then some ([], (c :: text).drop pat.length)
    else (cutAt pat text).map fun parts => (c :: parts.1, parts.2)

theorem append_of_cutAt (cut : cutAt pat text = some (front, rest)) :
    text = front ++ (pat ++ rest) := by
  induction text generalizing front with
  | nil =>
    rw [cutAt] at cut
    split_ifs at cut with empty
    obtain ⟨rfl, rfl⟩ := Prod.mk.inj (Option.some_inj.mp cut)
    rw [empty]
    rfl
  | cons c text ih =>
    rw [cutAt] at cut
    split_ifs at cut with here
    · obtain ⟨rfl, rfl⟩ := Prod.mk.inj (Option.some_inj.mp cut)
      exact (List.prefix_iff_eq_append.mp here).symm
    · obtain ⟨⟨front', rest'⟩, later, same⟩ := Option.map_eq_some_iff.mp cut
      obtain ⟨rfl, rfl⟩ := Prod.mk.inj same
      exact congrArg (c :: ·) (ih later)

theorem cutAt_eq_none_iff : cutAt pat text = none ↔ ¬ pat <:+: text := by
  induction text with
  | nil =>
    rw [cutAt, List.infix_nil]
    split_ifs with empty
    · exact iff_of_false not_false (not_not.mpr empty)
    · exact iff_of_true rfl empty
  | cons c text ih =>
    rw [cutAt, List.infix_cons_iff, not_or, ← ih]
    split_ifs with here
    · exact iff_of_false not_false fun away => away.1 here
    · rw [Option.map_eq_none_iff]
      exact (and_iff_right here).symm

/-- A pattern behind a text is found there if it does not occur before its own last item. -/
theorem cutAt_append (nonempty : pat ≠ []) (free : ¬ pat <:+: front ++ pat.dropLast) :
    cutAt pat (front ++ (pat ++ rest)) = some (front, rest) := by
  induction front with
  | nil =>
    obtain ⟨c, tail, rfl⟩ := List.exists_cons_of_ne_nil nonempty
    rw [List.nil_append, List.cons_append, cutAt, ← List.cons_append,
      if_pos (List.prefix_append _ _), List.drop_left]
  | cons c front ih =>
    have before : ¬ pat <+: c :: (front ++ (pat ++ rest)) := by
      intro here
      have inside : c :: front ++ pat.dropLast <+: c :: (front ++ (pat ++ rest)) := by
        rw [← List.cons_append]
        refine List.prefix_append_right_inj _ |>.mpr ?_
        exact (List.dropLast_prefix pat).trans (List.prefix_append _ _)
      have short : pat.length ≤ (c :: front ++ pat.dropLast).length := by
        rw [List.length_append, List.length_dropLast, List.length_cons]
        omega
      exact free (List.prefix_of_prefix_length_le here inside short).isInfix
    rw [List.cons_append, cutAt, if_neg before, ih fun later => free ?_, Option.map_some]
    exact later.trans (List.suffix_cons _ _).isInfix

/-- A text is cut where the pattern occurs first. -/
theorem cutAt_eq_some_iff (nonempty : pat ≠ []) : cutAt pat text = some (front, rest) ↔
    text = front ++ (pat ++ rest) ∧ ¬ pat <:+: front ++ pat.dropLast := by
  constructor
  · intro cut
    refine ⟨append_of_cutAt cut, fun early => ?_⟩
    induction text generalizing front with
    | nil =>
      rw [cutAt, if_neg nonempty] at cut
      cases cut
    | cons c text ih =>
      rw [cutAt] at cut
      split_ifs at cut with here
      · obtain ⟨rfl, rfl⟩ := Prod.mk.inj (Option.some_inj.mp cut)
        have shorter := early.length_le
        rw [List.nil_append, List.length_dropLast] at shorter
        have positive := List.length_pos_iff.mpr nonempty
        omega
      · obtain ⟨⟨front', rest'⟩, later, same⟩ := Option.map_eq_some_iff.mp cut
        obtain ⟨rfl, rfl⟩ := Prod.mk.inj same
        rw [List.cons_append, List.infix_cons_iff] at early
        rcases early with first | early
        · refine here (first.trans ?_)
          rw [append_of_cutAt later, ← List.cons_append, ← List.cons_append]
          refine (List.prefix_append_right_inj _).mpr ?_
          exact (List.dropLast_prefix pat).trans (List.prefix_append _ _)
        · exact ih later early
  · rintro ⟨rfl, free⟩
    exact cutAt_append nonempty free

end Cut

section Free

variable {α : Type*} {pat text front : List α}

/-- A pattern does not begin where its first item does not occur. -/
theorem infix_of_append {c : α} (outside : c ∉ front) (occurs : c :: pat <:+: front ++ text) :
    c :: pat <:+: text := by
  induction front with
  | nil => exact occurs
  | cons d front ih =>
    rw [List.cons_append, List.infix_cons_iff] at occurs
    rcases occurs with here | later
    · exact absurd (List.cons_prefix_cons.mp here).1 fun same =>
        outside (same ▸ List.mem_cons_self)
    · exact ih (fun member => outside (List.mem_cons_of_mem _ member)) later

/-- A pattern whose last item occurs in it only there does not begin inside a text and end behind
it. -/
theorem free_of_last {first : List α} {c : α} (once : c ∉ first)
    (free : ¬ first ++ [c] <:+: front) : ¬ first ++ [c] <:+: front ++ (first ++ [c]).dropLast := by
  rw [List.dropLast_concat]
  rintro ⟨before, behind, same⟩
  -- the last item of the occurrence stands in the text
  have split : before ++ first ++ c :: behind = front ++ first := by
    rw [← same]
    simp
  rcases List.append_eq_append_iff.mp split with ⟨more, rfl, tail⟩ | ⟨more, whole, tail⟩
  · cases more with
    | nil =>
      rw [List.nil_append] at tail
      exact once (tail ▸ List.mem_cons_self)
    | cons d more =>
      obtain ⟨rfl, rfl⟩ := List.cons.inj tail
      exact free ⟨before, more, by simp⟩
  · exact once (tail ▸ List.mem_append_right _ List.mem_cons_self)

/-- A pair does not begin at the end of a text that does not end with its item. -/
theorem free_of_pair {c : α} (other : front.getLast? ≠ some c) (free : ¬ [c, c] <:+: front) :
    ¬ [c, c] <:+: front ++ [c, c].dropLast := by
  rintro ⟨before, behind, same⟩
  rcases List.eq_nil_or_concat behind with rfl | ⟨behind', d, rfl⟩
  · have split : before ++ [c] ++ [c] = front ++ [c] := by
      rw [List.append_nil] at same
      simpa using same
    have ends := (List.append_inj' split rfl).1
    exact other (by rw [← ends, List.getLast?_concat])
  · have split : before ++ [c, c] ++ behind' ++ [d] = front ++ [c] := by
      simpa using same
    exact free ⟨before, behind', (List.append_inj' split rfl).1⟩

end Free

end Systems
