import KelvinClaw.Tui.EditorLaws

/-!
# Runs of the input editor

A position on display is between two items of the input, in a label, or in a character of several
bytes. Home and End go to the beginning and the end of a row on the screen, counted in bytes: the
cursor comes to stand in a character exactly when one lies across this position. Every other key
keeps the cursor between two items.
-/

namespace KelvinClaw.Tui

open KelvinClaw.Core Systems Systems.AtomicText

/-! ### Display -/

section Display

variable {items : List (Item (List Char))}

def itemDisplay : Item (List Char) → List Char
  | .char c => [c]
  | .block b => b.label

def itemsDisplay (items : List (Item (List Char))) : List Char := items.flatMap itemDisplay

@[simp] theorem itemsDisplay_cons (item : Item (List Char)) (items : List (Item (List Char))) :
    itemsDisplay (item :: items) = itemDisplay item ++ itemsDisplay items := rfl

/-- The position in the text that a position on display stands for. -/
def actualPosition : List (Item (List Char)) → ℕ → ℕ
  | [], n => n
  | .char c :: rest, n =>
    if n < c.utf8Size then n else c.utf8Size + actualPosition rest (n - c.utf8Size)
  | .block b :: rest, n =>
    if n = 0 then 0
    else if n ≤ byteLength b.label then byteLength b.text
    else byteLength b.text + actualPosition rest (n - byteLength b.label)

/-- The position on display is between two items or in a label. -/
def OnItem : List (Item (List Char)) → ℕ → Prop
  | [], n => n = 0
  | .char c :: rest, n => n = 0 ∨ c.utf8Size ≤ n ∧ OnItem rest (n - c.utf8Size)
  | .block b :: rest, n =>
    n ≤ byteLength b.label ∨ byteLength b.label < n ∧ OnItem rest (n - byteLength b.label)

theorem buildDisplayFrom_spans (input before plain : List Char)
    (items : List (Item (List Char))) (same : input = before ++ plain ++ chars items) :
    buildDisplayFrom input (byteLength before) (spans (byteLength (before ++ plain)) items) =
      some (plain ++ itemsDisplay items) := by
  induction items generalizing before plain with
  | nil =>
    rw [spans, buildDisplayFrom, same, List.append_assoc, splitAt_append]
    rfl
  | cons item rest ih =>
    cases item with
    | char c =>
      have later := ih before (plain ++ [c]) (by simp [same, Item.chars])
      rw [spans, show byteLength (before ++ plain) + c.utf8Size =
        byteLength (before ++ (plain ++ [c])) by simp [Nat.add_assoc], later]
      simp [itemDisplay]
    | block b =>
      have later := ih (before ++ plain ++ b.text) [] (by simp [same, Item.chars])
      have cut : slice input (byteLength before) (byteLength (before ++ plain)) = some plain := by
        rw [same]
        exact slice_append before plain _
      rw [List.append_nil, byteLength_append _ b.text] at later
      simp only [spans, buildDisplayFrom, cut, later, Option.bind_eq_bind, Option.bind_some]
      simp [itemDisplay]

theorem buildDisplay_spans (items : List (Item (List Char))) :
    buildDisplay (chars items) (spans 0 items) = some (itemsDisplay items) :=
  buildDisplayFrom_spans (chars items) [] [] items rfl

theorem displayToActualFrom_of_before {disp i n k : ℕ} (before : n ≤ k) :
    displayToActualFrom (disp + n) disp i (spans (i + k) items) = i + n := by
  cases markers : spans (i + k) items with
  | nil => simp [displayToActualFrom]
  | cons m rest =>
    have bounds := bounds_of_mem_spans (markers ▸ List.mem_cons_self : m ∈ spans (i + k) items)
    rw [displayToActualFrom, if_pos (by omega), Nat.add_sub_cancel_left]

theorem displayToActualFrom_spans (disp i k n : ℕ) (items : List (Item (List Char))) :
    displayToActualFrom (disp + k + n) disp i (spans (i + k) items) =
      i + k + actualPosition items n := by
  induction items generalizing disp i k n with
  | nil =>
    rw [spans, displayToActualFrom, actualPosition]
    omega
  | cons item rest ih =>
    cases item with
    | char c =>
      rw [spans, actualPosition, Nat.add_assoc i k]
      split_ifs with inside
      · rw [Nat.add_assoc disp, displayToActualFrom_of_before (by omega), Nat.add_assoc]
      · have later := ih disp i (k + c.utf8Size) (n - c.utf8Size)
        rw [show disp + (k + c.utf8Size) + (n - c.utf8Size) = disp + k + n by omega] at later
        rw [later]
        omega
    | block b =>
      rw [spans, displayToActualFrom, actualPosition]
      simp only [Nat.add_sub_cancel_left]
      rcases Nat.eq_zero_or_pos n with rfl | positive
      · rw [if_pos (by omega), if_pos rfl]
        omega
      · rw [if_neg (by omega), if_neg positive.ne']
        by_cases inLabel : n ≤ byteLength b.label
        · rw [if_pos (by omega), if_pos inLabel]
        · rw [if_neg (by omega), if_neg inLabel]
          have later := ih (disp + k + byteLength b.label) (i + k + byteLength b.text) 0
            (n - byteLength b.label)
          rw [Nat.add_zero, Nat.add_zero, show disp + k + byteLength b.label +
            (n - byteLength b.label) = disp + k + n by omega] at later
          rw [later, Nat.add_assoc]

theorem displayToActual_spans (n : ℕ) (items : List (Item (List Char))) :
    displayToActual n (spans 0 items) = actualPosition items n := by
  have from_start := displayToActualFrom_spans 0 0 0 n items
  simpa [displayToActual] using from_start

/-- A position on an item is a place between two items, and no other is. -/
theorem onItem_iff {n : ℕ} : OnItem items n ↔
    ∃ before after, before ++ after = items ∧ size before = actualPosition items n := by
  induction items generalizing n with
  | nil =>
    constructor
    · rintro rfl
      exact ⟨[], [], rfl, rfl⟩
    · rintro ⟨before, after, joined, length⟩
      rw [(List.append_eq_nil_iff.mp joined).1] at length
      exact length.symm
  | cons item rest ih =>
    cases item with
    | char c =>
      have positive := Char.utf8Size_pos c
      have sized : byteLength (Item.char c : Item (List Char)).chars = c.utf8Size := by
        simp [Item.chars]
      rw [OnItem, actualPosition, ih]
      constructor
      · rintro (rfl | ⟨past, before, after, rfl, length⟩)
        · exact ⟨[], _, rfl, (if_pos positive).symm⟩
        · refine ⟨.char c :: before, after, rfl, ?_⟩
          rw [if_neg (Nat.not_lt.mpr past), size_cons, length, sized]
      · rintro ⟨before, after, joined, length⟩
        rcases List.append_eq_cons_iff.mp joined with ⟨rfl, _⟩ | ⟨middle, rfl, rfl⟩
        · left
          split_ifs at length with inside
          · exact length.symm
          · rw [size_nil] at length
            omega
        · right
          rw [size_cons, sized] at length
          split_ifs at length with inside
          · omega
          · exact ⟨Nat.not_lt.mp inside, middle, after, rfl, Nat.add_left_cancel length⟩
    | block b =>
      have positive := byteLength_pos b.nonempty
      rw [OnItem, actualPosition, ih]
      constructor
      · -- a position in a label stands for the end of its paste
        rintro (within | ⟨past, before, after, rfl, length⟩)
        · rcases Nat.eq_zero_or_pos n with rfl | inside
          · exact ⟨[], _, rfl, rfl⟩
          · refine ⟨[.block b], rest, rfl, ?_⟩
            rw [if_neg inside.ne', if_pos within, size_cons, size_nil]
            rfl
        · refine ⟨.block b :: before, after, rfl, ?_⟩
          rw [if_neg (by omega), if_neg (Nat.not_le.mpr past), size_cons, length]
          rfl
      · rintro ⟨before, after, joined, length⟩
        by_cases within : n ≤ byteLength b.label
        · exact Or.inl within
        · right
          rw [if_neg (by omega), if_neg within] at length
          rcases List.append_eq_cons_iff.mp joined with ⟨rfl, _⟩ | ⟨middle, rfl, rfl⟩
          · rw [size_nil] at length
            omega
          · rw [size_cons] at length
            exact ⟨Nat.not_le.mp within, middle, after, rfl, Nat.add_left_cancel length⟩

theorem lt_of_inLabel {disp i k pos : ℕ} (inLabel : InLabel pos disp i (spans (i + k) items)) :
    disp + k < pos := by
  induction items generalizing disp i k with
  | nil => exact inLabel.elim
  | cons item rest ih =>
    cases item with
    | char c =>
      rw [spans, Nat.add_assoc] at inLabel
      have later := ih inLabel
      omega
    | block b =>
      rw [spans, InLabel] at inLabel
      simp only [Nat.add_sub_cancel_left] at inLabel
      rcases inLabel with ⟨above, _⟩ | inLater
      · exact above
      · have later := @ih _ (i + k + byteLength b.text) 0 inLater
        omega

theorem onItem_iff_display (disp i k n : ℕ) (items : List (Item (List Char))) :
    OnItem items n ↔ IsBoundary (itemsDisplay items) n ∨
      InLabel (disp + k + n) disp i (spans (i + k) items) := by
  induction items generalizing disp i k n with
  | nil =>
    rw [OnItem, spans, InLabel, or_false]
    exact isBoundary_nil.symm
  | cons item rest ih =>
    cases item with
    | char c =>
      rw [OnItem, itemsDisplay_cons, spans, Nat.add_assoc i k]
      change _ ↔ IsBoundary (c :: itemsDisplay rest) n ∨ _
      rw [isBoundary_cons]
      -- a position after the character is one of the rest, with what it is from there on
      by_cases past : c.utf8Size ≤ n
      · have later := ih disp i (k + c.utf8Size) (n - c.utf8Size)
        rw [show disp + (k + c.utf8Size) + (n - c.utf8Size) = disp + k + n by omega] at later
        rw [later]
        have notStart : n ≠ 0 := by
          have positive := Char.utf8Size_pos c
          omega
        simp only [notStart, past, false_or, true_and]
      · have noLabel : ¬ InLabel (disp + k + n) disp i (spans (i + (k + c.utf8Size)) rest) := by
          intro inLabel
          have later := lt_of_inLabel inLabel
          omega
        simp only [past, noLabel, false_and, or_false]
    | block b =>
      rw [OnItem, itemsDisplay_cons, spans, InLabel]
      change _ ↔ IsBoundary (b.label ++ itemsDisplay rest) n ∨ _
      rw [isBoundary_append_iff]
      simp only [Nat.add_sub_cancel_left]
      have later := ih (disp + k + byteLength b.label) (i + k + byteLength b.text) 0
        (n - byteLength b.label)
      rcases Nat.lt_or_ge (byteLength b.label) n with past | within
      · rw [Nat.add_zero, Nat.add_zero, show disp + k + byteLength b.label +
          (n - byteLength b.label) = disp + k + n by omega] at later
        have notWithin : ¬ IsBoundary b.label n := fun boundary =>
          absurd boundary.le (Nat.not_le.mpr past)
        have notLabel : ¬ (disp + k < disp + k + n ∧
            disp + k + n < disp + k + byteLength b.label) := by
          omega
        rw [later]
        simp only [notWithin, notLabel, Nat.not_le.mpr past, past, past.le, true_and, false_or]
      · -- in the label or at one of its ends
        apply iff_of_true (Or.inl within)
        rcases Nat.eq_zero_or_pos n with rfl | positive
        · exact Or.inl (Or.inl (isBoundary_append [] b.label))
        · rcases Nat.lt_or_eq_of_le within with inside | rfl
          · exact Or.inr (Or.inl ⟨by omega, by omega⟩)
          · refine Or.inl (Or.inl ?_)
            have ended := isBoundary_append b.label []
            rwa [List.append_nil] at ended

end Display

namespace Editor

variable {e : Editor} {before after : List (Item (List Char))}

theorem displayInput_place :
    (e.place before after).displayInput = itemsDisplay (before ++ after) := by
  rw [displayInput]
  exact congrArg (Option.getD · []) (buildDisplay_spans (before ++ after))

variable (e) in
def OnCharacter (dispPos : ℕ) : Prop :=
  IsBoundary e.displayInput dispPos ∨ InLabel dispPos 0 0 e.pasteMarkers

/-- A position on display is between two characters or in a label exactly when it stands for a
place between two items. -/
theorem onCharacter_iff {n : ℕ} : (e.place before after).OnCharacter n ↔
    ∃ before' after', before' ++ after' = before ++ after ∧
      size before' = displayToActual n (e.place before after).pasteMarkers := by
  have items := onItem_iff_display 0 0 0 n (before ++ after)
  rw [Nat.zero_add, Nat.zero_add] at items
  rw [OnCharacter, displayInput_place]
  change (IsBoundary _ n ∨ InLabel n 0 0 (spans 0 (before ++ after))) ↔ ∃ before' after', _ ∧
    size before' = displayToActual n (spans 0 (before ++ after))
  rw [← items, onItem_iff, displayToActual_spans]

/-! ### Consistency -/

theorem consistent_place (e : Editor) (before after : List (Item (List Char))) :
    (e.place before after).Consistent := by
  obtain ⟨boundary, outside⟩ := outside_of_append before after
  have markers : ∀ m ∈ (e.place before after).pasteMarkers,
      IsBoundary (chars (before ++ after)) m.start ∧
        IsBoundary (chars (before ++ after)) m.stop := by
    intro m member
    obtain ⟨first, b, last, same, rfl⟩ := exists_block_of_mem_spans member
    have starts := (outside_of_append first (.block b :: last)).1
    have stops := (outside_of_append (first ++ [.block b]) last).1
    rw [same]
    constructor
    · simpa using starts
    · simpa [Item.chars] using stops
  constructor
  · exact boundary.le
  · exact boundary
  · exact outside
  · exact pairwise_spans 0 (before ++ after)
  · exact fun m member => (bounds_of_mem_spans member).2.1
  · exact fun m member => (markers m member).2.le
  · exact markers

theorem consistent_cursor_iff {pos : ℕ} :
    Consistent { e.place before after with cursorPos := pos } ↔
      ∃ before' after', before' ++ after' = before ++ after ∧ size before' = pos := by
  constructor
  · intro consistent
    have boundary : IsBoundary (chars (before ++ after)) pos := consistent.cursor_boundary
    have outside : ∀ m ∈ spans 0 (before ++ after), ¬ m.Inside (0 + pos) := by
      rw [Nat.zero_add]
      exact consistent.cursor_outside
    exact exists_append_of_outside boundary outside
  · rintro ⟨before', after', same, rfl⟩
    rw [place_cursor same]
    exact consistent_place e before' after'

theorem place_moveEnd : (e.place before after).moveEnd =
    some { e.place before after with
      cursorPos := displayToActual (visualLineEnd (e.place before after).displayCursor
        (byteLength (e.place before after).displayInput) (e.place before after).inputInnerWidth)
          (e.place before after).pasteMarkers } := by
  have shown : buildDisplay (e.place before after).input (e.place before after).pasteMarkers =
      some (e.place before after).displayInput := by
    rw [displayInput_place]
    exact buildDisplay_spans (before ++ after)
  rw [moveEnd, shown]
  rfl

/-! ### Rows on the screen -/

theorem onCharacter_iff_not_cuts {offset : ℕ} (within : offset ≤ byteLength e.displayInput) :
    e.OnCharacter offset ↔ ¬ e.Cuts offset := by
  rw [OnCharacter, Cuts, isBoundary_iff_forall within]
  by_cases labelled : InLabel offset 0 0 e.pasteMarkers
  · simp [labelled]
  · simp [labelled, not_exists]

theorem not_cuts_of_le {offset : ℕ} (beyond : byteLength e.displayInput ≤ offset) :
    ¬ e.Cuts offset := by
  rintro ⟨-, first, c, last, same, -, below⟩
  rw [same, byteLength_append, byteLength_cons] at beyond
  omega

theorem rowOffset_succ (innerWidth row : ℕ) :
    rowOffset innerWidth row + innerWidth = rowOffset innerWidth (row + 1) := by
  rw [rowOffset, rowOffset, Nat.add_mul, Nat.one_mul, Nat.add_assoc]

theorem lt_of_rowOffset_lt {innerWidth row other : ℕ}
    (before : rowOffset innerWidth row < rowOffset innerWidth other) : row < other :=
  Nat.lt_of_mul_lt_mul_right (Nat.lt_of_add_lt_add_left before)

section Rows

variable {pos innerWidth : ℕ}

/-- The beginning of the row is in no character exactly when none lies across it. -/
theorem onCharacter_lineStart_iff (onDisplay : IsBoundary e.displayInput pos) :
    e.OnCharacter (visualLineStart pos innerWidth) ↔
      (3 ≤ innerWidth → ∀ row, rowOffset innerWidth row < pos →
        pos < rowOffset innerWidth row + innerWidth → ¬ e.Cuts (rowOffset innerWidth row)) := by
  have zero : e.OnCharacter 0 := .inl (isBoundary_append [] e.displayInput)
  unfold visualLineStart
  dsimp only
  split_ifs with narrow first
  · exact iff_of_true zero fun wide => absurd wide (Nat.not_le.mpr narrow)
  · refine iff_of_true zero fun _ row above => absurd above (Nat.not_lt.mpr ?_)
    exact first.trans (Nat.le_add_right _ _)
  · have starts : rowOffset innerWidth ((pos - (innerWidth - 2)) / innerWidth) ≤ pos := by
      have whole := Nat.div_mul_le_self (pos - (innerWidth - 2)) innerWidth
      rw [rowOffset]
      omega
    have ends : pos < rowOffset innerWidth ((pos - (innerWidth - 2)) / innerWidth) +
        innerWidth := by
      have rest := Nat.lt_div_mul_add (a := pos - (innerWidth - 2)) (show 0 < innerWidth by omega)
      rw [rowOffset]
      omega
    change e.OnCharacter (rowOffset innerWidth _) ↔ _
    generalize (pos - (innerWidth - 2)) / innerWidth = found at starts ends ⊢
    rcases Nat.eq_or_lt_of_le starts with same | before
    · -- the cursor is at the beginning of a row
      refine iff_of_true (same ▸ .inl onDisplay) fun _ row above below => ?_
      rw [← same, rowOffset_succ] at below
      have later := lt_of_rowOffset_lt (above.trans_le same.ge)
      have notLater := lt_of_rowOffset_lt below
      omega
    · rw [onCharacter_iff_not_cuts (before.le.trans onDisplay.le)]
      constructor
      · intro apart _ row above below
        rw [rowOffset_succ] at below ends
        have first := lt_of_rowOffset_lt (above.trans ends)
        have second := lt_of_rowOffset_lt (before.trans below)
        obtain rfl : row = found := by omega
        exact apart
      · intro apart
        exact apart (by omega) found before ends

/-- The end of a row, or of the display, which is in no character when none lies across it. -/
theorem onCharacter_min_iff {found : ℕ} (wide : 3 ≤ innerWidth)
    (above : pos < rowOffset innerWidth found)
    (below : rowOffset innerWidth found ≤ pos + innerWidth) :
    e.OnCharacter (min (rowOffset innerWidth found) (byteLength e.displayInput)) ↔
      (3 ≤ innerWidth → ∀ row, pos < rowOffset innerWidth row →
        rowOffset innerWidth row ≤ pos + innerWidth → ¬ e.Cuts (rowOffset innerWidth row)) := by
  have only : (3 ≤ innerWidth → ∀ row, pos < rowOffset innerWidth row →
      rowOffset innerWidth row ≤ pos + innerWidth → ¬ e.Cuts (rowOffset innerWidth row)) ↔
        ¬ e.Cuts (rowOffset innerWidth found) := by
    constructor
    · intro apart
      exact apart wide found above below
    · intro apart _ row after before
      have next := rowOffset_succ innerWidth
      have first := lt_of_rowOffset_lt (next found ▸ before.trans_lt (Nat.add_lt_add_right above _))
      have second := lt_of_rowOffset_lt (next row ▸ below.trans_lt (Nat.add_lt_add_right after _))
      obtain rfl : row = found := by omega
      exact apart
  rw [only]
  rcases Nat.le_total (rowOffset innerWidth found) (byteLength e.displayInput) with inside | beyond
  · rw [Nat.min_eq_left inside, onCharacter_iff_not_cuts inside]
  · rw [Nat.min_eq_right beyond]
    exact iff_of_true (.inl (isBoundary_byteLength _)) (not_cuts_of_le beyond)

theorem onCharacter_lineEnd_iff :
    e.OnCharacter (visualLineEnd pos (byteLength e.displayInput) innerWidth) ↔
      (3 ≤ innerWidth → ∀ row, pos < rowOffset innerWidth row →
        rowOffset innerWidth row ≤ pos + innerWidth → ¬ e.Cuts (rowOffset innerWidth row)) := by
  unfold visualLineEnd
  split_ifs with narrow
  · exact iff_of_true (.inl (isBoundary_byteLength _)) fun wide =>
      absurd wide (Nat.not_le.mpr narrow)
  dsimp only
  split_ifs with first
  · have start : rowOffset innerWidth 0 = innerWidth - 2 := by simp [rowOffset]
    have ends := @onCharacter_min_iff e pos innerWidth 0 (by omega) (by omega) (by omega)
    rwa [start] at ends
  · have starts := Nat.div_mul_le_self (pos - (innerWidth - 2)) innerWidth
    have rest := Nat.lt_div_mul_add (a := pos - (innerWidth - 2)) (show 0 < innerWidth by omega)
    apply onCharacter_min_iff (by omega)
    · rw [← rowOffset_succ, rowOffset]
      omega
    · rw [← rowOffset_succ, rowOffset]
      omega

end Rows

/-! ### The row of the cursor -/

theorem actualToDisplayFrom_spans (disp i k : ℕ) (before after : List (Item (List Char))) :
    actualToDisplayFrom (i + k + size before) disp i (spans (i + k) (before ++ after)) =
      disp + k + byteLength (itemsDisplay before) := by
  induction before generalizing disp i k with
  | nil =>
    rw [List.nil_append, size_nil, Nat.add_zero]
    cases markers : spans (i + k) after with
    | nil =>
      rw [actualToDisplayFrom, Nat.add_sub_cancel_left]
      rfl
    | cons m rest =>
      have bounds := bounds_of_mem_spans (markers ▸ List.mem_cons_self : m ∈ spans (i + k) after)
      rw [actualToDisplayFrom, if_pos bounds.1, Nat.add_sub_cancel_left]
      rfl
  | cons item rest ih =>
    cases item with
    | char c =>
      have later := ih disp i (k + c.utf8Size)
      have sized : size (.char c :: rest) = c.utf8Size + size rest := by simp [Item.chars]
      have shown : byteLength (itemsDisplay (.char c :: rest)) =
          c.utf8Size + byteLength (itemsDisplay rest) := by
        simp [itemDisplay]
      rw [List.cons_append, spans, sized, shown, ← Nat.add_assoc, ← Nat.add_assoc, Nat.add_assoc i,
        later, ← Nat.add_assoc disp]
    | block b =>
      have positive := byteLength_pos b.nonempty
      have later := ih (disp + k + byteLength b.label) (i + k + byteLength b.text) 0
      rw [Nat.add_zero, Nat.add_zero] at later
      have sized : size (.block b :: rest) = byteLength b.text + size rest := size_cons ..
      have shown : byteLength (itemsDisplay (.block b :: rest)) =
          byteLength b.label + byteLength (itemsDisplay rest) := byteLength_append ..
      rw [List.cons_append, spans, sized, shown, ← Nat.add_assoc, ← Nat.add_assoc,
        actualToDisplayFrom]
      dsimp only
      rw [if_neg (by omega), if_neg (by omega), Nat.add_sub_cancel_left, later]

theorem displayCursor_place :
    (e.place before after).displayCursor = byteLength (itemsDisplay before) := by
  have from_start := actualToDisplayFrom_spans 0 0 0 before after
  rwa [Nat.zero_add, Nat.zero_add, Nat.zero_add] at from_start

theorem shownBefore_place :
    (e.place before after).shownBefore = byteLength (itemsDisplay before) := by
  have split : splitAt (e.place before after).input (e.place before after).cursorPos =
      some (chars before, chars after) := by
    rw [place, chars_append]
    exact splitAt_append _ _
  have markers : ((e.place before after).pasteMarkers.filter fun m =>
      m.stop ≤ (e.place before after).cursorPos) = spans 0 before := by
    have earlier : (spans 0 before).filter (fun m => m.stop ≤ size before) = spans 0 before :=
      List.filter_eq_self.mpr fun m member => decide_eq_true (before_of_mem member).2
    have later : (spans (size before) after).filter (fun m => m.stop ≤ size before) = [] := by
      refine List.filter_eq_nil_iff.mpr fun m member => ?_
      have bounds := bounds_of_mem_spans member
      rw [decide_eq_true_eq]
      omega
    simp only [place, spans_append, Nat.zero_add, List.filter_append, earlier, later,
      List.append_nil]
  simp only [shownBefore, split, markers, buildDisplay_spans, Option.getD_some]

theorem isBoundary_shownBefore : IsBoundary (e.place before after).displayInput
    (byteLength (itemsDisplay before)) := by
  rw [displayInput_place, itemsDisplay, List.flatMap_append]
  exact isBoundary_append _ _

/-- **Home** leaves a consistent cursor exactly when no character lies across the beginning of its
row on the screen. -/
theorem consistent_moveHome_iff : (e.place before after).moveHome.Consistent ↔
    (e.place before after).LandsOnCharacter .home := by
  have row := @onCharacter_lineStart_iff (e.place before after) _
    (e.place before after).inputInnerWidth isBoundary_shownBefore
  rw [LandsOnCharacter, shownBefore_place, ← row, onCharacter_iff, ← displayCursor_place]
  exact consistent_cursor_iff

/-- **End** leaves a consistent cursor exactly when no character lies across the end of its row on
the screen. -/
theorem consistent_moveEnd_iff : (∃ t, (e.place before after).moveEnd = some t ∧ t.Consistent) ↔
    (e.place before after).LandsOnCharacter .lineEnd := by
  have row := @onCharacter_lineEnd_iff (e.place before after) (byteLength (itemsDisplay before))
    (e.place before after).inputInnerWidth
  rw [LandsOnCharacter, shownBefore_place, ← row, onCharacter_iff, place_moveEnd,
    displayCursor_place, ← @consistent_cursor_iff e before after]
  simp

/-! ### Keys -/

def InOrder (e : Editor) : Prop :=
  (∃ before after, e = e.place before after) ∧ ∀ i ∈ e.historyIdx, i < e.inputHistory.length

theorem inOrder_place (indexed : ∀ i ∈ e.historyIdx, i < e.inputHistory.length)
    (before after : List (Item (List Char))) : (e.place before after).InOrder :=
  ⟨⟨before, after, rfl⟩, indexed⟩

theorem inOrder_replaceInput (indexed : ∀ i ∈ e.historyIdx, i < e.inputHistory.length)
    (input : List Char) : (e.replaceInput input).InOrder := by
  refine ⟨⟨input.map .char, [], ?_⟩, indexed⟩
  simp [replaceInput, place, chars_map_char, spans_map_char, size]

theorem inOrder_empty (inputHistory : List (List Char)) : (empty inputHistory).InOrder :=
  ⟨⟨[], [], rfl⟩, nofun⟩

theorem historyAt_eq_some {idx : ℕ} (indexed : idx < e.inputHistory.length) :
    ∃ t, e.historyAt idx = some t ∧ t.InOrder := by
  refine ⟨_, by rw [historyAt, List.getElem?_eq_getElem indexed]; rfl, ?_⟩
  apply inOrder_replaceInput
  intro i found
  obtain rfl := Option.some_inj.mp found
  exact indexed

theorem historyUp_eq_some (order : e.InOrder) : ∃ t, e.historyUp = some t ∧ t.InOrder := by
  unfold historyUp
  split_ifs with none
  · exact ⟨e, rfl, order⟩
  · have length := List.length_pos_iff.mpr none
    cases current : e.historyIdx with
    | none => exact historyAt_eq_some (Nat.sub_lt length Nat.one_pos)
    | some i =>
      have indexed := order.2 i current
      exact historyAt_eq_some ((Nat.sub_le i 1).trans_lt indexed)

theorem historyDown_eq_some (order : e.InOrder) : ∃ t, e.historyDown = some t ∧ t.InOrder := by
  unfold historyDown
  cases e.historyIdx with
  | none => exact ⟨e, rfl, order⟩
  | some i =>
    simp only
    split_ifs with last
    · refine ⟨_, rfl, inOrder_replaceInput ?_ _⟩
      intro i found
      cases found
    · exact historyAt_eq_some (Nat.not_le.mp last)

theorem inOrder_submit (order : e.InOrder) : e.submit.InOrder := by
  unfold submit
  split_ifs
  · exact order
  · refine ⟨⟨[], [], ?_⟩, ?_⟩
    · simp [place, spans]
    · intro i found
      cases found

theorem inOrder_enter (order : e.InOrder) (completion : Option (List Char)) :
    (e.enter completion).InOrder := by
  cases completion with
  | none => exact inOrder_submit order
  | some name =>
    have notBlank : ¬ ('/' :: name).all isWhitespace = true := by
      rw [List.all_cons, show isWhitespace '/' = false by decide]
      simp
    rw [enter, submit, if_neg notBlank]
    refine ⟨⟨[], [], ?_⟩, ?_⟩
    · simp [place, spans]
    · intro i found
      cases found

/-- No key panics, and every key keeps the editor in order, if no character lies across the
beginning or the end of a row that it goes to. -/
theorem handle_place {isAlphanumeric : Char → Bool} {event : EditorEvent}
    (indexed : ∀ i ∈ e.historyIdx, i < e.inputHistory.length)
    (lands : (e.place before after).LandsOnCharacter event) :
    ∃ t, (e.place before after).handle isAlphanumeric event = some t ∧ t.InOrder := by
  have order := inOrder_place indexed
  have boundary := (outside_of_append before after).1
  -- a key goes from one place between two items to another one
  cases event with
  | char c => exact ⟨_, place_insertChar c, order _ _⟩
  | paste text => exact ⟨_, place_doPaste text, order _ _⟩
  | delete =>
    cases after with
    | nil => exact ⟨_, place_doDelete_nil, order _ _⟩
    | cons item after => exact ⟨_, place_doDelete item, order _ _⟩
  | backspace =>
    rcases List.eq_nil_or_concat' before with rfl | ⟨before, item, rfl⟩
    · exact ⟨_, place_doBackspace_nil, order _ _⟩
    · exact ⟨_, place_doBackspace item, order _ _⟩
  | left =>
    rcases List.eq_nil_or_concat' before with rfl | ⟨before, item, rfl⟩
    · exact ⟨_, congrArg some place_moveLeft_nil, order _ _⟩
    · exact ⟨_, congrArg some (place_moveLeft item), order _ _⟩
  | right =>
    cases after with
    | nil => exact ⟨_, congrArg some place_moveRight_nil, order _ _⟩
    | cons item after => exact ⟨_, congrArg some (place_moveRight item), order _ _⟩
  | wordLeft =>
    obtain ⟨newPos, found, boundary⟩ := @wordLeft_eq_some isAlphanumeric _ _ boundary
    obtain ⟨before', after', same⟩ := @exists_place_snap e _ _ _ boundary Span.start (Or.inl rfl)
    refine ⟨e.place before' after', ?_, order _ _⟩
    have found : wordLeft isAlphanumeric (e.place before after).input
        (e.place before after).cursorPos = some newPos := found
    rw [handle, moveWordLeft, found]
    exact congrArg some same
  | wordRight =>
    obtain ⟨newPos, found, boundary⟩ := @wordRight_eq_some isAlphanumeric _ _ boundary
    obtain ⟨before', after', same⟩ := @exists_place_snap e _ _ _ boundary Span.stop (Or.inr rfl)
    refine ⟨e.place before' after', ?_, order _ _⟩
    have found : wordRight isAlphanumeric (e.place before after).input
        (e.place before after).cursorPos = some newPos := found
    rw [handle, moveWordRight, found]
    exact congrArg some same
  | home =>
    obtain ⟨before', after', same, length⟩ :=
      consistent_cursor_iff.mp (consistent_moveHome_iff.mpr lands)
    refine ⟨e.place before' after', congrArg some ?_, order _ _⟩
    rw [← place_cursor same, length]
    rfl
  | lineEnd =>
    obtain ⟨t, moved, consistent⟩ := consistent_moveEnd_iff.mpr lands
    obtain rfl := Option.some_inj.mp (place_moveEnd.symm.trans moved)
    obtain ⟨before', after', same, length⟩ := consistent_cursor_iff.mp consistent
    refine ⟨e.place before' after', ?_, order _ _⟩
    rw [handle, place_moveEnd, ← place_cursor same, length]
  | up => exact historyUp_eq_some (order _ _)
  | down => exact historyDown_eq_some (order _ _)
  | enter completion => exact ⟨_, rfl, inOrder_enter (order _ _) completion⟩
  | draw width => exact ⟨_, rfl, ⟨before, after, rfl⟩, indexed⟩

theorem InOrder.handle {isAlphanumeric : Char → Bool} {event : EditorEvent} (order : e.InOrder)
    (lands : e.LandsOnCharacter event) :
    ∃ t, e.handle isAlphanumeric event = some t ∧ t.InOrder := by
  obtain ⟨⟨before, after, same⟩, indexed⟩ := order
  rw [same] at lands ⊢
  exact handle_place indexed lands

end Editor

/-- **The editor stays intact** in every run of keys and frames in which no character lies across
the beginning of the row when Home comes, or across its end when End comes. -/
theorem intact_of_reachable (isAlphanumeric : Char → Bool) (s : Option Editor)
    (reached : (editorRuns isAlphanumeric).ReachableWhen Lands s) : Intact s := by
  have order := reached.invariant (fun s => ∃ e, s = some e ∧ e.InOrder) ?_ ?_
  · obtain ⟨e, rfl, ⟨before, after, same⟩, _⟩ := order
    refine ⟨e, rfl, ?_⟩
    rw [same]
    exact Editor.consistent_place e before after
  · rintro s ⟨inputHistory, rfl⟩
    exact ⟨_, rfl, Editor.inOrder_empty inputHistory⟩
  · rintro s event t ⟨e, rfl, order⟩ lands moves
    obtain ⟨next, handled, order⟩ := @Editor.InOrder.handle e isAlphanumeric event order
      (lands e rfl)
    obtain rfl := Option.some_inj.mp moves
    exact ⟨next, handled, order⟩

/-! ### A line that ends in a character -/

theorem Editor.cuts_iff {e : Editor} {offset : ℕ} : (¬ InLabel offset 0 0 e.pasteMarkers ∧
    offset < byteLength e.displayInput ∧ ¬ IsBoundary e.displayInput offset) ↔ e.Cuts offset := by
  refine and_congr_right fun _ => ⟨fun ⟨below, inside⟩ => exists_liesAcross below.le inside, ?_⟩
  rintro ⟨before, c, after, same, across⟩
  rw [same]
  refine ⟨?_, not_isBoundary_inside across.1 across.2⟩
  have below := across.2
  rw [byteLength_append, byteLength_cons]
  omega

theorem forall_row_iff {innerWidth limit : ℕ} {P : ℕ → Prop}
    (near : ∀ row, ¬ P row → rowOffset innerWidth row ≤ limit) :
    (3 ≤ innerWidth → ∀ row < limit + 1, P row) ↔ (3 ≤ innerWidth → ∀ row, P row) := by
  refine forall_congr' fun wide => ⟨fun each row => ?_, fun each row _ => each row⟩
  by_contra denied
  have le := near row denied
  have more := Nat.le_mul_of_pos_right row (show 0 < innerWidth by omega)
  rw [rowOffset] at le
  exact denied (each row (by omega))

instance (e : Editor) (offset : ℕ) : Decidable (e.Cuts offset) :=
  decidable_of_iff _ Editor.cuts_iff

instance : ∀ (e : Editor) event, Decidable (e.LandsOnCharacter event)
  | e, .home => decidable_of_iff (3 ≤ e.inputInnerWidth → ∀ row < e.shownBefore + 1,
      rowOffset e.inputInnerWidth row < e.shownBefore →
        e.shownBefore < rowOffset e.inputInnerWidth row + e.inputInnerWidth →
          ¬ e.Cuts (rowOffset e.inputInnerWidth row))
      (forall_row_iff fun _ denied => (Classical.not_imp.mp denied).1.le)
  | e, .lineEnd => decidable_of_iff (3 ≤ e.inputInnerWidth →
      ∀ row < e.shownBefore + e.inputInnerWidth + 1,
        e.shownBefore < rowOffset e.inputInnerWidth row →
          rowOffset e.inputInnerWidth row ≤ e.shownBefore + e.inputInnerWidth →
            ¬ e.Cuts (rowOffset e.inputInnerWidth row))
      (forall_row_iff fun _ denied => (Classical.not_imp.mp (Classical.not_imp.mp denied).2).1)
  | _, .char _ | _, .paste _ | _, .delete | _, .backspace | _, .left | _, .right | _, .wordLeft
  | _, .wordRight | _, .up | _, .down | _, .enter _ | _, .draw _ => .isTrue trivial

instance (s : Option Editor) (event : EditorEvent) : Decidable (Lands s event) :=
  inferInstanceAs (Decidable (∀ e ∈ s, e.LandsOnCharacter event))

theorem empty_reachable (guard : Option Editor → EditorEvent → Prop) :
    (editorRuns Char.isAlphanum).ReachableWhen guard (some (.empty [])) :=
  .init ⟨[], rfl⟩

/-- On a terminal of five columns, Home goes to the second byte of the first character, where the
next key panics. -/
theorem cursor_in_character :
    ¬ ∀ isAlphanumeric s, (editorRuns isAlphanumeric).Reachable s → Intact s := by
  intro law
  obtain ⟨s, reached, seen⟩ := TransitionSystem.exists_of_run? (empty_reachable fun _ _ => True)
    (show ((editorRuns Char.isAlphanum).run? (fun _ _ => True) (some (.empty []))
      [.draw 5, .char 'é', .home, .char 'x']).map Option.isNone = some true by decide +kernel)
  obtain ⟨e, rfl, _⟩ := law _ s reached
  cases seen

/-- The same keys on a wider terminal, with a large paste and keys around it. -/
theorem wide_line_intact : ∃ s, s.map (fun e : Editor => (e.input, e.cursorPos)) =
    some ("é\n\n\nx".toList, 2) ∧ Intact s := by
  obtain ⟨s, reached, seen⟩ := TransitionSystem.exists_of_run? (empty_reachable Lands)
    (show ((editorRuns Char.isAlphanum).run? Lands (some (.empty []))
      [.draw 80, .char 'é', .paste "\n\n\n".toList, .char 'x', .home, .lineEnd, .left,
        .left]).map (fun s => s.map fun e => (e.input, e.cursorPos)) =
          some (some ("é\n\n\nx".toList, 2)) by decide +kernel)
  exact ⟨s, seen, intact_of_reachable _ s reached⟩

end KelvinClaw.Tui
