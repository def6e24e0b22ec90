import Mathlib.Data.List.Basic
import Mathlib.Algebra.Order.Group.Nat

/-!
# Text with atomic spans

A text is a list of characters, and a position in it counts the bytes of its UTF-8 encoding, so
that not every number is a position between two characters. An editor may keep parts of the text
as blocks that a cursor does not enter. The text is then a list of items, each a character or a
block, and the spans of the blocks follow from it. Texts and spans that come of items are those
whose spans are sorted, disjoint, not empty, and begin and end between two characters.
-/

namespace Systems.AtomicText

/-! ### Positions -/

def byteLength : List Char → ℕ
  | [] => 0
  | c :: rest => c.utf8Size + byteLength rest

/-- The parts before and after a position, if it is between two characters. -/
def splitAt : List Char → ℕ → Option (List Char × List Char)
  | text, 0 => some ([], text)
  | [], _ + 1 => none
  | c :: rest, n + 1 =>
    if c.utf8Size ≤ n + 1 then
      (splitAt rest (n + 1 - c.utf8Size)).map fun (before, after) => (c :: before, after)
    else none

/-- The position is between two characters, or at an end. -/
def IsBoundary (text : List Char) (position : ℕ) : Prop := (splitAt text position).isSome = true

instance (text : List Char) (position : ℕ) : Decidable (IsBoundary text position) :=
  inferInstanceAs (Decidable (_ = true))

def ceilBoundary (text : List Char) : ℕ → ℕ → ℕ
  | 0, position => position
  | steps + 1, position =>
    if IsBoundary text position then position else ceilBoundary text steps (position + 1)

/-- The last boundary up to a position. -/
def floorBoundary (text : List Char) : ℕ → ℕ
  | 0 => 0
  | position + 1 =>
    if IsBoundary text (position + 1) then position + 1 else floorBoundary text position

section Positions

variable {text before after : List Char} {c : Char} {n : ℕ}

@[simp] theorem byteLength_nil : byteLength [] = 0 := rfl

@[simp] theorem byteLength_cons (c : Char) (text : List Char) :
    byteLength (c :: text) = c.utf8Size + byteLength text := rfl

@[simp] theorem byteLength_append (before after : List Char) :
    byteLength (before ++ after) = byteLength before + byteLength after := by
  induction before with
  | nil => rw [List.nil_append, byteLength_nil, Nat.zero_add]
  | cons c rest ih => rw [List.cons_append, byteLength_cons, byteLength_cons, ih, Nat.add_assoc]

theorem byteLength_toList (s : String) : byteLength s.toList = s.utf8ByteSize := by
  suffices encoded : ∀ chars : List Char, byteLength chars = (String.ofList chars).utf8ByteSize by
    rw [encoded, String.ofList_toList]
  intro chars
  induction chars with
  | nil => rfl
  | cons c rest ih =>
    rw [← List.singleton_append, String.ofList_append, String.utf8ByteSize_append,
      byteLength_append, ih, ← String.singleton_eq_ofList, String.utf8ByteSize_singleton]
    rfl

theorem byteLength_pos (nonempty : text ≠ []) : 0 < byteLength text := by
  cases text with
  | nil => exact absurd rfl nonempty
  | cons c rest => exact Nat.add_pos_left (Char.utf8Size_pos c) _

theorem byteLength_eq_zero : byteLength text = 0 ↔ text = [] := by
  constructor
  · intro empty
    by_contra nonempty
    exact absurd empty (byteLength_pos nonempty).ne'
  · rintro rfl
    rfl

theorem splitAt_append (before after : List Char) :
    splitAt (before ++ after) (byteLength before) = some (before, after) := by
  induction before with
  | nil => cases after <;> rfl
  | cons c rest ih =>
    have size := Char.utf8Size_pos c
    obtain ⟨k, length⟩ : ∃ k, c.utf8Size + byteLength rest = k + 1 :=
      Nat.exists_eq_add_one_of_ne_zero (by omega)
    rw [byteLength_cons, length, List.cons_append, splitAt, if_pos (by omega),
      show k + 1 - c.utf8Size = byteLength rest by omega, ih]
    rfl

theorem splitAt_eq_some :
    splitAt text n = some (before, after) ↔ before ++ after = text ∧ byteLength before = n := by
  constructor
  · intro split
    induction text generalizing n before with
    | nil =>
      cases n with
      | zero =>
        obtain ⟨rfl, rfl⟩ := Prod.mk.inj (Option.some_inj.mp split)
        exact ⟨rfl, rfl⟩
      | succ n => cases split
    | cons c rest ih =>
      cases n with
      | zero =>
        obtain ⟨rfl, rfl⟩ := Prod.mk.inj (Option.some_inj.mp split)
        exact ⟨rfl, rfl⟩
      | succ n =>
        rw [splitAt] at split
        split_ifs at split with fits
        obtain ⟨⟨head, tail⟩, found, same⟩ := Option.map_eq_some_iff.mp split
        obtain ⟨rfl, rfl⟩ := Prod.mk.inj same
        obtain ⟨joined, length⟩ := ih found
        refine ⟨congrArg (c :: ·) joined, ?_⟩
        rw [byteLength_cons, length]
        omega
  · rintro ⟨rfl, rfl⟩
    exact splitAt_append before after

theorem isBoundary_iff :
    IsBoundary text n ↔ ∃ before after, before ++ after = text ∧ byteLength before = n := by
  rw [IsBoundary, Option.isSome_iff_exists]
  constructor
  · rintro ⟨⟨before, after⟩, split⟩
    exact ⟨before, after, splitAt_eq_some.mp split⟩
  · rintro ⟨before, after, divides⟩
    exact ⟨⟨before, after⟩, splitAt_eq_some.mpr divides⟩

theorem isBoundary_append (before after : List Char) :
    IsBoundary (before ++ after) (byteLength before) :=
  isBoundary_iff.mpr ⟨before, after, rfl, rfl⟩

theorem IsBoundary.le (boundary : IsBoundary text n) : n ≤ byteLength text := by
  obtain ⟨before, after, rfl, rfl⟩ := isBoundary_iff.mp boundary
  rw [byteLength_append]
  exact Nat.le_add_right _ _

/-- The boundaries of a text in two parts. -/
theorem isBoundary_append_iff : IsBoundary (before ++ after) n ↔
    IsBoundary before n ∨ byteLength before ≤ n ∧ IsBoundary after (n - byteLength before) := by
  constructor
  · intro boundary
    obtain ⟨head, tail, joined, rfl⟩ := isBoundary_iff.mp boundary
    rcases List.append_eq_append_iff.mp joined with ⟨middle, rfl, rfl⟩ | ⟨middle, rfl, rfl⟩
    · exact Or.inl (isBoundary_append head middle)
    · refine Or.inr ⟨by simp, ?_⟩
      rw [byteLength_append, Nat.add_sub_cancel_left]
      exact isBoundary_append middle tail
  · rintro (boundary | ⟨later, boundary⟩)
    · obtain ⟨head, tail, rfl, rfl⟩ := isBoundary_iff.mp boundary
      rw [List.append_assoc]
      exact isBoundary_append head (tail ++ after)
    · obtain ⟨head, tail, rfl, length⟩ := isBoundary_iff.mp boundary
      rw [← List.append_assoc, show n = byteLength (before ++ head) by simp; omega]
      exact isBoundary_append (before ++ head) tail

theorem isBoundary_nil : IsBoundary [] n ↔ n = 0 := by
  constructor
  · intro boundary
    simpa using boundary.le
  · rintro rfl
    rfl

/-- A character has no boundary inside. -/
theorem isBoundary_cons :
    IsBoundary (c :: after) n ↔ n = 0 ∨ c.utf8Size ≤ n ∧ IsBoundary after (n - c.utf8Size) := by
  have single : IsBoundary [c] n ↔ n = 0 ∨ n = c.utf8Size := by
    rw [isBoundary_iff]
    constructor
    · rintro ⟨head, tail, joined, rfl⟩
      rcases List.append_eq_singleton_iff.mp joined with ⟨rfl, _⟩ | ⟨rfl, _⟩
      · exact Or.inl rfl
      · exact Or.inr (by simp)
    · rintro (rfl | rfl)
      · exact ⟨[], [c], rfl, rfl⟩
      · exact ⟨[c], [], rfl, by simp⟩
  rw [← List.singleton_append, isBoundary_append_iff, single,
    show byteLength [c] = c.utf8Size by simp]
  constructor
  · rintro ((rfl | rfl) | later)
    · exact Or.inl rfl
    · refine Or.inr ⟨le_refl _, ?_⟩
      rw [Nat.sub_self]
      exact isBoundary_append [] after
    · exact Or.inr later
  · rintro (rfl | later)
    · exact Or.inl (Or.inl rfl)
    · exact Or.inr later

theorem not_isBoundary_inside (above : byteLength before < n)
    (below : n < byteLength before + c.utf8Size) : ¬ IsBoundary (before ++ c :: after) n := by
  rw [isBoundary_append_iff, isBoundary_cons]
  rintro (boundary | ⟨_, start | ⟨later, _⟩⟩)
  · exact absurd boundary.le (Nat.not_le.mpr above)
  · omega
  · omega

def LiesAcross (before : List Char) (c : Char) (position : ℕ) : Prop :=
  byteLength before < position ∧ position < byteLength before + c.utf8Size

/-- A position that is not a boundary is inside a character. -/
theorem exists_liesAcross (within : n ≤ byteLength text) (inside : ¬ IsBoundary text n) :
    ∃ before c after, text = before ++ c :: after ∧ LiesAcross before c n := by
  induction text generalizing n with
  | nil =>
    rw [isBoundary_nil] at inside
    exact absurd (Nat.le_zero.mp within) inside
  | cons c rest ih =>
    rw [isBoundary_cons] at inside
    push Not at inside
    obtain ⟨positive, later⟩ := inside
    by_cases here : n < c.utf8Size
    · exact ⟨[], c, rest, rfl, Nat.pos_of_ne_zero positive, by simpa using here⟩
    · have beyond := Nat.not_lt.mp here
      rw [byteLength_cons] at within
      obtain ⟨before, d, after, rfl, above, below⟩ := ih (by omega) (later beyond)
      refine ⟨c :: before, d, after, rfl, ?_, ?_⟩
      · rw [byteLength_cons]
        omega
      · rw [byteLength_cons]
        omega

theorem isBoundary_iff_forall (within : n ≤ byteLength text) : IsBoundary text n ↔
    ∀ before c after, text = before ++ c :: after → ¬ LiesAcross before c n := by
  constructor
  · rintro boundary before c after rfl ⟨above, below⟩
    exact not_isBoundary_inside above below boundary
  · intro apart
    by_contra inside
    obtain ⟨before, c, after, same, across⟩ := exists_liesAcross within inside
    exact apart before c after same across

theorem isBoundary_byteLength (text : List Char) : IsBoundary text (byteLength text) := by
  simpa using isBoundary_append text []

theorem ceilBoundary_of_not_isBoundary {steps : ℕ} (limit : n ≤ steps) {position : ℕ}
    (inside : ∀ k < n, ¬ IsBoundary text (position + k))
    (boundary : IsBoundary text (position + n)) :
    ceilBoundary text steps position = position + n := by
  induction n generalizing steps position with
  | zero =>
    cases steps with
    | zero => rfl
    | succ steps => exact if_pos boundary
  | succ n ih =>
    cases steps with
    | zero => exact absurd limit (Nat.not_succ_le_zero n)
    | succ steps =>
      have here : ¬ IsBoundary text position := inside 0 (Nat.succ_pos n)
      rw [ceilBoundary, if_neg here, ih (Nat.le_of_succ_le_succ limit)]
      · omega
      · intro k small
        have later := inside (k + 1) (Nat.succ_lt_succ small)
        rwa [show position + 1 + k = position + (k + 1) by omega]
      · rwa [show position + 1 + n = position + (n + 1) by omega]

/-- The boundary after the start of a character is its end. -/
theorem ceilBoundary_eq (before : List Char) (c : Char) (after : List Char) :
    ceilBoundary (before ++ c :: after)
      (byteLength (before ++ c :: after) - (byteLength before + 1)) (byteLength before + 1) =
        byteLength before + c.utf8Size := by
  have size := Char.utf8Size_pos c
  have ends : IsBoundary (before ++ c :: after) (byteLength before + c.utf8Size) := by
    rw [show before ++ c :: after = (before ++ [c]) ++ after by simp,
      show byteLength before + c.utf8Size = byteLength (before ++ [c]) by simp]
    exact isBoundary_append _ _
  have length : byteLength (before ++ c :: after) =
      byteLength before + (c.utf8Size + byteLength after) := by
    simp
  rw [show byteLength before + c.utf8Size = byteLength before + 1 + (c.utf8Size - 1) by omega]
    at ends ⊢
  apply ceilBoundary_of_not_isBoundary (by omega) _ ends
  intro k small
  exact not_isBoundary_inside (by omega) (by omega)

theorem floorBoundary_of_not_isBoundary {position : ℕ}
    (inside : ∀ k < n, ¬ IsBoundary text (position + k + 1)) (boundary : IsBoundary text position) :
    floorBoundary text (position + n) = position := by
  induction n with
  | zero =>
    cases position with
    | zero => rfl
    | succ position => exact if_pos boundary
  | succ n ih =>
    rw [← Nat.add_assoc, floorBoundary, if_neg (inside n (Nat.lt_succ_self n))]
    exact ih fun k small => inside k (Nat.lt_succ_of_lt small)

/-- The boundary before the end of a character is its start. -/
theorem floorBoundary_eq (before : List Char) (c : Char) (after : List Char) :
    floorBoundary (before ++ c :: after) (byteLength before + c.utf8Size - 1) =
      byteLength before := by
  have size := Char.utf8Size_pos c
  rw [show byteLength before + c.utf8Size - 1 = byteLength before + (c.utf8Size - 1) by omega]
  apply floorBoundary_of_not_isBoundary _ (isBoundary_append _ _)
  intro k small
  exact not_isBoundary_inside (by omega) (by omega)

end Positions

/-! ### Blocks -/

/-- A part of a text that is kept together, with a label. -/
structure Block (β : Type*) where
  text : List Char
  label : β
  nonempty : text ≠ []

inductive Item (β : Type*) where
  | char (c : Char)
  | block (b : Block β)

/-- The place of a block in the text. -/
structure Span (β : Type*) where
  start : ℕ
  stop : ℕ
  label : β
  deriving DecidableEq, Repr

variable {β : Type*}

def Item.chars : Item β → List Char
  | .char c => [c]
  | .block b => b.text

def chars (items : List (Item β)) : List Char := items.flatMap Item.chars

/-- The bytes of the items. -/
def size (items : List (Item β)) : ℕ := byteLength (chars items)

def spans : ℕ → List (Item β) → List (Span β)
  | _, [] => []
  | position, .char c :: rest => spans (position + c.utf8Size) rest
  | position, .block b :: rest =>
    ⟨position, position + byteLength b.text, b.label⟩ :: spans (position + byteLength b.text) rest

/-- The position is in the span, and at neither of its ends. -/
def Span.Inside (span : Span β) (position : ℕ) : Prop :=
  span.start < position ∧ position < span.stop

instance (span : Span β) (position : ℕ) : Decidable (span.Inside position) :=
  inferInstanceAs (Decidable (_ ∧ _))

section Items

variable {items before after : List (Item β)} {item : Item β} {b : Block β} {span : Span β}
  {position n : ℕ}

@[simp] theorem chars_nil : chars ([] : List (Item β)) = [] := rfl

@[simp] theorem chars_cons (item : Item β) (items : List (Item β)) :
    chars (item :: items) = item.chars ++ chars items := rfl

@[simp] theorem chars_append (before after : List (Item β)) :
    chars (before ++ after) = chars before ++ chars after :=
  List.flatMap_append

@[simp] theorem size_nil : size ([] : List (Item β)) = 0 := rfl

@[simp] theorem size_cons (item : Item β) (items : List (Item β)) :
    size (item :: items) = byteLength item.chars + size items :=
  byteLength_append _ _

@[simp] theorem size_append (before after : List (Item β)) :
    size (before ++ after) = size before + size after := by
  rw [size, chars_append, byteLength_append, size, size]

theorem Item.chars_ne_nil (item : Item β) : item.chars ≠ [] := by
  cases item with
  | char c => exact List.cons_ne_nil c []
  | block b => exact b.nonempty

theorem Item.byteLength_pos (item : Item β) : 0 < byteLength item.chars :=
  AtomicText.byteLength_pos item.chars_ne_nil

/-- Characters alone. -/
theorem chars_map_char (text : List Char) : chars (text.map (@Item.char β)) = text := by
  induction text with
  | nil => rfl
  | cons c rest ih => rw [List.map_cons, chars_cons, ih]; rfl

theorem spans_map_char (text : List Char) (position : ℕ) :
    spans position (text.map (@Item.char β)) = [] := by
  induction text generalizing position with
  | nil => rfl
  | cons c rest ih => exact ih _

theorem spans_append (before after : List (Item β)) (position : ℕ) :
    spans position (before ++ after) =
      spans position before ++ spans (position + size before) after := by
  induction before generalizing position with
  | nil => rfl
  | cons item rest ih =>
    have later : ∀ length, position + length + size rest = position + (length + size rest) :=
      fun length => Nat.add_assoc position length (size rest)
    cases item with
    | char c =>
      rw [List.cons_append, spans, ih, later, size_cons]
      rfl
    | block b =>
      rw [List.cons_append, spans, ih, later, size_cons]
      rfl

theorem exists_block_of_mem_spans (member : span ∈ spans position items) :
    ∃ before b after, items = before ++ .block b :: after ∧ span =
      ⟨position + size before, position + size before + byteLength b.text, b.label⟩ := by
  induction items generalizing position with
  | nil => cases member
  | cons item rest ih =>
    cases item with
    | char c =>
      obtain ⟨before, b, after, rfl, rfl⟩ := ih member
      refine ⟨.char c :: before, b, after, rfl, ?_⟩
      simp [Item.chars, Nat.add_assoc]
    | block found =>
      rcases List.mem_cons.mp member with rfl | member
      · exact ⟨[], found, rest, rfl, rfl⟩
      · obtain ⟨before, b, after, rfl, rfl⟩ := ih member
        refine ⟨.block found :: before, b, after, rfl, ?_⟩
        simp [Item.chars, Nat.add_assoc]

theorem bounds_of_mem_spans (member : span ∈ spans position items) :
    position ≤ span.start ∧ span.start < span.stop ∧ span.stop ≤ position + size items := by
  obtain ⟨before, b, after, rfl, rfl⟩ := exists_block_of_mem_spans member
  have length := byteLength_pos b.nonempty
  simp only [size_append, size_cons, Item.chars]
  omega

/-- Spans are sorted and disjoint. -/
theorem pairwise_spans (position : ℕ) (items : List (Item β)) :
    (spans position items).Pairwise fun span later => span.stop ≤ later.start := by
  induction items generalizing position with
  | nil => exact List.Pairwise.nil
  | cons item rest ih =>
    cases item with
    | char c => exact ih _
    | block b => exact List.Pairwise.cons (fun _ member => (bounds_of_mem_spans member).1) (ih _)

/-- The spans of items that begin later. -/
theorem spans_add (position k : ℕ) (items : List (Item β)) : spans (position + k) items =
    (spans position items).map fun span => ⟨span.start + k, span.stop + k, span.label⟩ := by
  induction items generalizing position with
  | nil => rfl
  | cons item rest ih =>
    have later : ∀ length, position + k + length = position + length + k :=
      fun length => Nat.add_right_comm position k length
    cases item with
    | char c => rw [spans, spans, later, ih]
    | block b => rw [spans, spans, later, ih, List.map_cons]

/-- A boundary that is in no span is a place between two items. -/
theorem exists_append_of_outside (boundary : IsBoundary (chars items) n)
    (outside : ∀ span ∈ spans position items, ¬ span.Inside (position + n)) :
    ∃ before after, before ++ after = items ∧ size before = n := by
  induction items generalizing position n with
  | nil => exact ⟨[], [], rfl, (isBoundary_nil.mp boundary).symm⟩
  | cons item rest ih =>
    rcases Nat.eq_zero_or_pos n with rfl | positive
    · exact ⟨[], item :: rest, rfl, rfl⟩
    · -- the boundary is not inside the first item
      have past : byteLength item.chars ≤ n := by
        cases item with
        | char c =>
          rcases isBoundary_cons.mp boundary with rfl | ⟨later, _⟩
          · exact absurd positive (lt_irrefl 0)
          · simpa [Item.chars] using later
        | block b =>
          have first := outside _ List.mem_cons_self
          by_contra within
          apply first
          constructor
          · exact Nat.lt_add_of_pos_right positive
          · exact Nat.add_lt_add_left (Nat.not_le.mp within) position
      have later : IsBoundary (chars rest) (n - byteLength item.chars) := by
        rcases isBoundary_append_iff.mp boundary with within | ⟨_, later⟩
        · rw [le_antisymm within.le past, Nat.sub_self]
          exact isBoundary_append [] _
        · exact later
      have outside' : ∀ span ∈ spans (position + byteLength item.chars) rest,
          ¬ span.Inside (position + byteLength item.chars + (n - byteLength item.chars)) := by
        intro span member
        rw [Nat.add_assoc, Nat.add_sub_cancel' past]
        apply outside
        cases item with
        | char c =>
          have same : byteLength (@Item.char β c).chars = c.utf8Size := by simp [Item.chars]
          rwa [same] at member
        | block b => exact List.mem_cons_of_mem _ member
      obtain ⟨before, after, rfl, length⟩ := ih later outside'
      refine ⟨item :: before, after, rfl, ?_⟩
      rw [size_cons, length, Nat.add_sub_cancel' past]

/-- A place between two items is a boundary that is in no span. -/
theorem outside_of_append (before after : List (Item β)) :
    IsBoundary (chars (before ++ after)) (size before) ∧
      ∀ span ∈ spans 0 (before ++ after), ¬ span.Inside (size before) := by
  constructor
  · rw [chars_append]
    exact isBoundary_append _ _
  · intro span member ⟨above, below⟩
    rw [spans_append, Nat.zero_add] at member
    rcases List.mem_append.mp member with earlier | later
    · have bounds := bounds_of_mem_spans earlier
      omega
    · have bounds := bounds_of_mem_spans later
      omega

end Items

end Systems.AtomicText
