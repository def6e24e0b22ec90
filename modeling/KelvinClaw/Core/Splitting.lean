import KelvinClaw.Core.Text

/-!
# Splitting and trimming

A text is split at the first place where a separator stands. White space at its ends is trimmed, and
separators are no white space.
-/

namespace KelvinClaw.Core

/-! ### Splitting -/

theorem forall_ne_of_not_mem {c : Char} {chars : List Char} (absent : c ∉ chars) :
    ∀ other ∈ chars, decide (other ≠ c) = true := by
  intro other member
  rw [decide_eq_true_iff]
  rintro rfl
  exact absent member

theorem takeWhile_append_cons {c : Char} {front rest : List Char} (absent : c ∉ front) :
    (front ++ c :: rest).takeWhile (· ≠ c) = front := by
  rw [List.takeWhile_append_of_pos (forall_ne_of_not_mem absent),
    List.takeWhile_cons_of_neg (by simp), List.append_nil]

theorem splitOnce_eq_some_iff {sep : Char} {chars left right : List Char} :
    splitOnce sep chars = some (left, right) ↔ sep ∉ left ∧ chars = left ++ sep :: right := by
  unfold splitOnce
  constructor
  · intro split
    split_ifs at split with member
    cases split
    refine ⟨fun inside => by simpa using List.mem_takeWhile_imp inside, ?_⟩
    have nonempty : chars.dropWhile (· ≠ sep) ≠ [] := by
      rw [ne_eq, List.dropWhile_eq_nil_iff]
      exact fun all => by simpa using all sep member
    have first : (chars.dropWhile (· ≠ sep)).head nonempty = sep := by
      simpa using List.head_dropWhile_not (· ≠ sep) nonempty
    conv_lhs => rw [← List.takeWhile_append_dropWhile (p := (· ≠ sep)) (l := chars)]
    rw [← List.cons_head_tail nonempty, first]
    rfl
  · rintro ⟨outside, rfl⟩
    rw [if_pos (by simp), takeWhile_append_cons outside,
      List.dropWhile_append_of_pos (forall_ne_of_not_mem outside)]
    simp

theorem splitOnce_eq_none_iff {sep : Char} {chars : List Char} :
    splitOnce sep chars = none ↔ sep ∉ chars := by
  simp [splitOnce]

section Splits

variable {sep : Char} {text left right left' right' : List Char}

theorem eq_of_splits (outside : sep ∉ left) (split : text = left ++ sep :: right)
    (outside' : sep ∉ left') (split' : text = left' ++ sep :: right') :
    (left, right) = (left', right') :=
  Option.some.inj ((splitOnce_eq_some_iff.mpr ⟨outside, split⟩).symm.trans
    (splitOnce_eq_some_iff.mpr ⟨outside', split'⟩))

theorem mem_of_split (split : text = left ++ sep :: right) : sep ∈ text := by
  rw [split]
  exact List.mem_append_right _ List.mem_cons_self

end Splits

/-! ### Trimming -/

theorem trim_eq_self {s : String} (plain : ∀ c ∈ s.toList, isWhitespace c = false) :
    trim s = s := by
  rw [trim, trimChars_eq_self, String.ofList_toList]
  · exact fun c first => plain c (List.mem_of_mem_head? first)
  · exact fun c last => plain c (List.mem_of_mem_getLast? last)

theorem mem_trimChars {chars : List Char} {c : Char} (member : c ∈ chars)
    (ink : isWhitespace c = false) : c ∈ trimChars chars := by
  have dropped : ∀ {list : List Char}, c ∈ list → c ∈ list.dropWhile isWhitespace := by
    intro list inside
    rw [← List.takeWhile_append_dropWhile (p := isWhitespace) (l := list)] at inside
    refine (List.mem_append.mp inside).resolve_left fun front => ?_
    rw [List.mem_takeWhile_imp front] at ink
    exact Bool.false_ne_true ink.symm
  rw [trimChars, List.rdropWhile, List.mem_reverse]
  exact dropped (List.mem_reverse.mpr (dropped member))

variable {chars front rest : List Char} {c : Char}

theorem rdropWhile_append_cons (ink : isWhitespace c = false) :
    (front ++ c :: rest).rdropWhile isWhitespace = front ++ c :: rest.rdropWhile isWhitespace := by
  induction rest using List.reverseRecOn with
  | nil => rw [List.rdropWhile_concat_neg _ _ _ (by simp [ink]), List.rdropWhile_nil]
  | append_singleton rest last ih =>
    have grouped : front ++ c :: (rest ++ [last]) = front ++ c :: rest ++ [last] := by simp
    rw [grouped, List.rdropWhile_concat, List.rdropWhile_concat, ih]
    split_ifs
    · rfl
    · exact grouped.symm

theorem trimChars_concat (blank : isWhitespace c = true) :
    trimChars (chars ++ [c]) = trimChars chars := by
  rw [trimChars, trimChars, List.dropWhile_append]
  split_ifs with empty
  · rw [List.isEmpty_iff.mp empty, List.dropWhile_cons_of_pos blank]
    rfl
  · exact List.rdropWhile_concat_pos _ _ _ blank

theorem trimChars_rdropWhile : trimChars (chars.rdropWhile isWhitespace) = trimChars chars := by
  induction chars using List.reverseRecOn with
  | nil => rfl
  | append_singleton front last ih =>
    rw [List.rdropWhile_concat]
    split_ifs with blank
    · rw [ih, trimChars_concat blank]
    · rfl

theorem trimChars_sublist (chars : List Char) : (trimChars chars).Sublist chars :=
  (List.rdropWhile_prefix _ _).sublist.trans (List.dropWhile_sublist _)

/-- What is cut off at a separator may be cut off before the text is trimmed. -/
theorem dropWhile_takeWhile (ink : isWhitespace c = false) :
    (chars.takeWhile (· ≠ c)).dropWhile isWhitespace =
      (chars.dropWhile isWhitespace).takeWhile (· ≠ c) := by
  induction chars with
  | nil => rfl
  | cons first rest ih =>
    by_cases blank : isWhitespace first
    · have other : first ≠ c := by
        rintro rfl
        rw [ink] at blank
        cases blank
      rw [List.takeWhile_cons_of_pos (by simpa using other), List.dropWhile_cons_of_pos blank,
        List.dropWhile_cons_of_pos blank, ih]
    · rw [List.dropWhile_cons_of_neg blank]
      by_cases here : first = c
      · rw [List.takeWhile_cons_of_neg (by simpa using here)]
        rfl
      · rw [List.takeWhile_cons_of_pos (by simpa using here), List.dropWhile_cons_of_neg blank]

end KelvinClaw.Core
