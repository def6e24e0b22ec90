import KelvinClaw.Tui.ChatLines

/-!
# Inline markdown

A source line is read by a loop that takes the first delimiter, the text up to its closing one, and
goes on behind it. Text between delimiters is emphasised; a pair with nothing inside and a delimiter
that is not closed are text. Apart from its stars a line keeps all its characters, in their order.
-/

namespace KelvinClaw.Tui

/-- What a delimiter adds to the base style. -/
inductive Emphasis where
  | italic
  | bold
  | boldItalic
  deriving DecidableEq, Repr

/-- A span of the base style, or with an emphasis. -/
structure MarkdownSpan where
  content : List Char
  emphasis : Option Emphasis
  deriving DecidableEq, Repr

def modifier : ℕ → Emphasis
  | 3 => .boldItalic
  | 2 => .bold
  | _ => .italic

def delimitedSpan (delim afterOpen : List Char) : MarkdownSpan × List Char :=
  match findText delim afterOpen with
  | none => (⟨delim, none⟩, afterOpen)
  | some closePos =>
    let inner := afterOpen.take closePos
    (if inner = [] then ⟨delim ++ delim, none⟩ else ⟨inner, some (modifier delim.length)⟩,
      afterOpen.drop (closePos + delim.length))

/-- The variables of the loop. -/
structure MarkdownLoop where
  spans : List MarkdownSpan
  plain : List Char
  remaining : List Char

namespace MarkdownLoop

def turn (l : MarkdownLoop) : MarkdownLoop :=
  match firstDelimiter l.remaining with
  | none => ⟨l.spans ++ [⟨l.remaining, none⟩], l.plain ++ l.remaining, []⟩
  | some (pos, delimLen) =>
    let before := l.remaining.take pos
    let (span, remaining) := delimitedSpan ((l.remaining.drop pos).take delimLen)
      (l.remaining.drop (pos + delimLen))
    ⟨l.spans ++ (if 0 < pos then [⟨before, none⟩] else []) ++ [span],
      l.plain ++ before ++ span.content, remaining⟩

/-- The loop ends when no text remains. -/
inductive Loops : MarkdownLoop → MarkdownLoop → Prop
  | done {l : MarkdownLoop} (empty : l.remaining = []) : Loops l l
  | turn {l last : MarkdownLoop} (nonempty : l.remaining ≠ []) (later : Loops l.turn last) :
    Loops l last

end MarkdownLoop

open MarkdownLoop

/-- The loop reads the source line as these spans and this plain text. -/
def Parses (src : List Char) (spans : List MarkdownSpan) (plain : List Char) : Prop :=
  ∃ last, Loops ⟨[], [], src⟩ last ∧ last.spans = spans ∧ last.plain = plain

def contents (spans : List MarkdownSpan) : List Char := spans.flatMap MarkdownSpan.content

def withoutStars (text : List Char) : List Char := text.filter (· ≠ '*')

/-! ### Delimiters -/

section Delimiters

variable {pattern text delim afterOpen remaining : List Char} {pos n : ℕ}

@[simp] theorem withoutStars_append (before after : List Char) :
    withoutStars (before ++ after) = withoutStars before ++ withoutStars after :=
  List.filter_append before after

theorem withoutStars_of_stars (stars : ∀ c ∈ text, c = '*') : withoutStars text = [] :=
  List.filter_eq_nil_iff.mpr fun c member => by simp [stars c member]

def better (remaining : List Char) (best : Option (ℕ × ℕ)) (delim : List Char) : Option (ℕ × ℕ) :=
  match findText delim remaining with
  | none => best
  | some pos =>
    match best with
    | none => some (pos, delim.length)
    | some (bestPos, bestLen) =>
      if pos < bestPos ∨ pos = bestPos ∧ bestLen < delim.length then some (pos, delim.length)
      else best

theorem firstDelimiter_eq : firstDelimiter remaining =
    ["***".toList, "**".toList, "*".toList].foldl (better remaining) none := rfl

theorem better_cases (best : Option (ℕ × ℕ)) : better remaining best delim = best ∨
    ∃ pos, findText delim remaining = some pos ∧
      better remaining best delim = some (pos, delim.length) := by
  unfold better
  cases findText delim remaining with
  | none => exact .inl rfl
  | some pos =>
    cases best with
    | none => exact .inr ⟨pos, rfl, rfl⟩
    | some best =>
      simp only
      split_ifs
      · exact .inr ⟨pos, rfl, rfl⟩
      · exact .inl rfl

theorem exists_of_foldl_better {delims : List (List Char)} {best : Option (ℕ × ℕ)}
    (found : delims.foldl (better remaining) best = some (pos, n)) : best = some (pos, n) ∨
      ∃ delim ∈ delims, findText delim remaining = some pos ∧ n = delim.length := by
  induction delims generalizing best with
  | nil => exact .inl found
  | cons delim rest ih =>
    rcases ih found with first | ⟨other, member, later⟩
    · rcases @better_cases delim remaining best with same | ⟨_, here, same⟩
      · exact .inl (same.symm.trans first)
      · obtain ⟨rfl, rfl⟩ := Prod.mk.inj (Option.some_inj.mp (same.symm.trans first))
        exact .inr ⟨delim, List.mem_cons_self, here, rfl⟩
    · exact .inr ⟨other, List.mem_cons_of_mem _ member, later⟩

theorem isSome_better {best : Option (ℕ × ℕ)} (found : (findText delim remaining).isSome) :
    (better remaining best delim).isSome := by
  obtain ⟨pos, here⟩ := Option.isSome_iff_exists.mp found
  rw [better, here]
  cases best with
  | none => rfl
  | some best =>
    simp only
    split_ifs <;> rfl

theorem findText_of_firstDelimiter (found : firstDelimiter remaining = some (pos, n)) :
    0 < n ∧ findText (List.replicate n '*') remaining = some pos := by
  have stars : ∀ delim ∈ ["***".toList, "**".toList, "*".toList],
      0 < delim.length ∧ delim = List.replicate delim.length '*' := by decide +kernel
  rw [firstDelimiter_eq] at found
  rcases exists_of_foldl_better found with same | ⟨delim, member, here, rfl⟩
  · cases same
  · rw [← (stars delim member).2]
    exact ⟨(stars delim member).1, here⟩

theorem firstDelimiter_eq_none_iff : firstDelimiter remaining = none ↔ '*' ∉ remaining := by
  constructor
  · intro unfound star
    obtain ⟨before, after, rfl⟩ := List.append_of_mem star
    have found : (findText "*".toList (before ++ '*' :: after)).isSome :=
      findText_isSome ⟨before, after, by rw [List.append_assoc]; rfl⟩
    rw [firstDelimiter_eq, List.foldl_cons, List.foldl_cons, List.foldl_cons, List.foldl_nil]
      at unfound
    rw [← Option.not_isSome_iff_eq_none] at unfound
    exact unfound (isSome_better found)
  · intro free
    cases found : firstDelimiter remaining with
    | none => rfl
    | some best =>
      obtain ⟨positive, here⟩ := findText_of_firstDelimiter found
      have member : '*' ∈ List.replicate best.2 '*' :=
        List.mem_replicate.mpr ⟨positive.ne', rfl⟩
      rw [findText_eq_none member free] at here
      cases here

theorem append_of_firstDelimiter (found : firstDelimiter remaining = some (pos, n)) :
    remaining.take pos ++ List.replicate n '*' ++ remaining.drop (pos + n) = remaining := by
  have joined := append_of_findText (findText_of_firstDelimiter found).2
  rwa [List.length_replicate] at joined

theorem take_of_firstDelimiter (found : firstDelimiter remaining = some (pos, n)) :
    (remaining.drop pos).take n = List.replicate n '*' := by
  have joined := (append_of_firstDelimiter found).trans (List.take_append_drop pos remaining).symm
  rw [List.append_assoc] at joined
  rw [← List.append_cancel_left joined, List.take_left' List.length_replicate]

theorem keeps_delimitedSpan (stars : withoutStars delim = []) :
    withoutStars (delimitedSpan delim afterOpen).1.content ++
      withoutStars (delimitedSpan delim afterOpen).2 = withoutStars afterOpen := by
  unfold delimitedSpan
  cases found : findText delim afterOpen with
  | none => simp only [stars, List.nil_append]
  | some closePos =>
    have joined := congrArg withoutStars (append_of_findText found)
    rw [withoutStars_append, withoutStars_append, stars, List.append_nil] at joined
    simp only
    split_ifs with empty
    · rw [empty] at joined
      rw [withoutStars_append, stars]
      exact joined
    · exact joined

theorem length_delimitedSpan_le :
    (delimitedSpan delim afterOpen).2.length ≤ afterOpen.length := by
  unfold delimitedSpan
  cases findText delim afterOpen with
  | none => exact le_rfl
  | some closePos => exact (List.length_drop ..).trans_le (Nat.sub_le _ _)

end Delimiters

/-! ### The loop -/

namespace MarkdownLoop

variable {l last : MarkdownLoop}

theorem length_turn (nonempty : l.remaining ≠ []) :
    l.turn.remaining.length < l.remaining.length := by
  unfold turn
  cases found : firstDelimiter l.remaining with
  | none => exact List.length_pos_iff.mpr nonempty
  | some best =>
    have joined := congrArg List.length (append_of_firstDelimiter found)
    have positive := (findText_of_firstDelimiter found).1
    rw [List.length_append, List.length_append, List.length_replicate] at joined
    exact length_delimitedSpan_le.trans_lt (by omega)

theorem exists_loops (l : MarkdownLoop) : ∃ last, Loops l last := by
  induction length : l.remaining.length using Nat.strong_induction_on generalizing l with
  | _ n ih =>
    by_cases empty : l.remaining = []
    · exact ⟨l, .done empty⟩
    · obtain ⟨last, later⟩ := ih _ (length ▸ length_turn empty) l.turn rfl
      exact ⟨last, .turn empty later⟩

/-- What every turn keeps: the plain text is what the spans hold, and it makes up the source with
what remains, but for stars. -/
def Keeps (src : List Char) (l : MarkdownLoop) : Prop :=
  l.plain = contents l.spans ∧
    withoutStars l.plain ++ withoutStars l.remaining = withoutStars src

theorem keeps_turn {src : List Char} (keeps : Keeps src l) : Keeps src l.turn := by
  obtain ⟨same, text⟩ := keeps
  unfold turn
  cases found : firstDelimiter l.remaining with
  | none =>
    refine ⟨?_, ?_⟩
    · simp [contents, same]
    · rw [withoutStars_append, text]
      exact List.append_nil _
  | some best =>
    obtain ⟨pos, n⟩ := best
    have joined := congrArg withoutStars (append_of_firstDelimiter found)
    have stars : withoutStars (List.replicate n '*') = [] :=
      withoutStars_of_stars fun c member => (List.mem_replicate.mp member).2
    rw [withoutStars_append, withoutStars_append, stars, List.append_nil] at joined
    simp only [take_of_firstDelimiter found]
    refine ⟨?_, ?_⟩
    · rw [same]
      -- the text before a delimiter has no span where there is none
      rcases Nat.eq_zero_or_pos pos with rfl | positive
      · simp [contents]
      · simp [contents, positive]
    · rw [← text, ← joined, withoutStars_append, withoutStars_append, List.append_assoc,
        keeps_delimitedSpan stars, List.append_assoc]

theorem keeps_of_loops {src : List Char} (keeps : Keeps src l) (ends : Loops l last) :
    Keeps src last ∧ last.remaining = [] := by
  induction ends with
  | done empty => exact ⟨keeps, empty⟩
  | turn _ _ ih => exact ih (keeps_turn keeps)

theorem eq_of_loops {other : MarkdownLoop} (ends : Loops l last) (also : Loops l other) :
    last = other := by
  induction ends with
  | done empty =>
    cases also with
    | done => rfl
    | turn nonempty => exact absurd empty nonempty
  | turn nonempty _ ih =>
    cases also with
    | done empty => exact absurd empty nonempty
    | turn _ later => exact ih later

end MarkdownLoop

/-! ### Source lines -/

section Lines

variable {src plain : List Char} {spans : List MarkdownSpan}

theorem parses_of_free (free : '*' ∉ src) (parses : Parses src spans plain) :
    plain = src ∧ spans = if src = [] then [] else [⟨src, none⟩] := by
  obtain ⟨last, ends, rfl, rfl⟩ := parses
  cases ends with
  | done empty =>
    rw [if_pos empty]
    exact ⟨empty.symm, rfl⟩
  | turn nonempty later =>
    have flushed : turn ⟨[], [], src⟩ = ⟨[⟨src, none⟩], src, []⟩ := by
      simp only [turn, firstDelimiter_eq_none_iff.mpr free, List.nil_append]
    rw [flushed] at later
    obtain rfl := eq_of_loops (.done rfl) later
    rw [if_neg nonempty]
    exact ⟨rfl, rfl⟩

end Lines

/-- **Inline markdown keeps the text.** For every source line the loop ends; the plain text is what
the spans hold, one after another, and is the source but for stars; and a source without a star is
returned as it is, as one span unless it is empty. -/
theorem inline_markdown_keeps_text (src : List Char) :
    (∃ spans plain, Parses src spans plain) ∧ ∀ spans plain, Parses src spans plain →
      plain = contents spans ∧ withoutStars plain = withoutStars src ∧
      ('*' ∉ src → plain = src ∧ spans = if src = [] then [] else [⟨src, none⟩]) := by
  constructor
  · obtain ⟨last, ends⟩ := exists_loops ⟨[], [], src⟩
    exact ⟨last.spans, last.plain, last, ends, rfl, rfl⟩
  · intro spans plain parses
    refine ⟨?_, ?_, fun free => parses_of_free free parses⟩
    all_goals
      obtain ⟨last, ends, rfl, rfl⟩ := parses
      obtain ⟨⟨same, text⟩, empty⟩ := @keeps_of_loops _ _ src ⟨rfl, List.nil_append _⟩ ends
    · exact same
    · rw [empty] at text
      exact (List.append_nil _).symm.trans text

/-- An empty source has no span. -/
theorem empty_source_without_span : ¬ ∀ src : List Char, '*' ∉ src →
    ∃ spans plain, Parses src spans plain ∧ plain = src ∧ ∃ style, spans = [⟨src, style⟩] := by
  intro law
  obtain ⟨spans, plain, parses, _, style, one⟩ := law [] List.not_mem_nil
  have none := (parses_of_free List.not_mem_nil parses).2
  rw [if_pos rfl, one] at none
  cases none

/-- A pair with nothing inside, and a delimiter that is not closed, are text. -/
example : parseInlineMarkdown "a ****** *b* **c".toList =
    (["a ", "******", " ", "b", " ", "**", "c"].map String.toList, "a ****** b **c".toList) := by
  decide +kernel

end KelvinClaw.Tui
