import KelvinClaw.Tui.EditorRuns

/-!
# The input box

The input box shows the display string in rows. A row ends after as many bytes as the box is wide,
wherever that is: if a character of several bytes lies across the end of a row, the slice panics.
-/

namespace KelvinClaw.Tui

open Systems Systems.AtomicText

/-! ### The renderer -/

def inputBorderWidth : ℕ := 2

def inputPrefixWidth : ℕ := 2

/-- The styles of the prompt, of the label of a paste, and of anything else. -/
inductive SpanStyle where
  | prompt
  | label
  | plain
  deriving DecidableEq, Repr

structure RowSpan where
  style : SpanStyle
  text : List Char
  deriving DecidableEq, Repr

abbrev InputRow := List RowSpan

/-- A slice of the display has the style of a label if it is in one. The offsets are where the last
marker ends, on display and in the input. -/
def renderDisplaySpansFrom (display : List Char) (dispStart dispEnd : ℕ) :
    ℕ → ℕ → List PasteMarker → Option RowSpan
  | _, _, [] => (slice display dispStart dispEnd).map (⟨.plain, ·⟩)
  | dispOff, inpOff, m :: rest =>
    let labelDispStart := dispOff + (m.start - inpOff)
    let labelDispEnd := labelDispStart + byteLength m.label
    if labelDispStart ≤ dispStart ∧ dispEnd ≤ labelDispEnd then
      (slice display dispStart dispEnd).map (⟨.label, ·⟩)
    else renderDisplaySpansFrom display dispStart dispEnd labelDispEnd m.stop rest

def renderDisplaySpans (display : List Char) (markers : List PasteMarker) (dispStart dispEnd : ℕ) :
    Option RowSpan :=
  renderDisplaySpansFrom display dispStart dispEnd 0 0 markers

def laterRows (display : List Char) (markers : List PasteMarker) (innerWidth : ℕ) :
    ℕ → ℕ → Option (List InputRow)
  | 0, _ => some []
  | steps + 1, offset =>
    if offset < byteLength display then do
      let span ← renderDisplaySpans display markers offset
        (min (offset + innerWidth) (byteLength display))
      let rest ← laterRows display markers innerWidth steps (offset + innerWidth)
      return [span] :: rest
    else some []

def promptSpan : RowSpan := ⟨.prompt, "> ".toList⟩

def inputRows (display : List Char) (markers : List PasteMarker) (innerWidth : ℕ) :
    Option (List InputRow) :=
  let firstCap := innerWidth - inputPrefixWidth
  if innerWidth = 0 ∨ firstCap = 0 then do
    let span ← renderDisplaySpans display markers 0 (byteLength display)
    return [[promptSpan, span]]
  else do
    let span ← renderDisplaySpans display markers 0 (min (byteLength display) firstCap)
    let rest ← laterRows display markers innerWidth (byteLength display) firstCap
    return [promptSpan, span] :: rest

structure Rect where
  x : ℕ
  y : ℕ
  width : ℕ
  height : ℕ
  deriving DecidableEq, Repr

/-- The coordinates are `u16` numbers, and their sums wrap around. -/
def toU16 (n : ℕ) : ℕ := n % 2 ^ 16

def cursorPosition (area : Rect) (pos : ℕ) : ℕ × ℕ :=
  let innerWidth := area.width - inputBorderWidth
  let firstCap := innerWidth - inputPrefixWidth
  let rest := pos - firstCap
  let cell :=
    if innerWidth = 0 then (area.x + 1, area.y + 1)
    else if pos ≤ firstCap then (area.x + 1 + inputPrefixWidth + pos, area.y + 1)
    else (area.x + 1 + rest % innerWidth, area.y + 2 + rest / innerWidth)
  (min (toU16 cell.1) (toU16 (area.x + (area.width - 2))),
    min (toU16 cell.2) (toU16 (area.y + (area.height - 2))))

def render (area : Rect) (e : Editor) : Option (List InputRow × ℕ × ℕ) := do
  let display ← buildDisplay e.input e.pasteMarkers
  let rows ← inputRows display e.pasteMarkers (area.width - inputBorderWidth)
  return (rows, cursorPosition area e.displayCursor)

/-! ### What the box shows -/

def rowText (row : InputRow) : List Char :=
  (row.filter fun span => span.style ≠ .prompt).flatMap RowSpan.text

def shownText (rows : List InputRow) : List Char := rows.flatMap rowText

/-- The box is rendered, its rows together are the display string, and each of them ends between
two characters. -/
def RendersWhole (area : Rect) (e : Editor) : Prop :=
  ∃ rows cursor, render area e = some (rows, cursor) ∧ shownText rows = e.displayInput ∧
    ∀ n, IsBoundary e.displayInput (byteLength (shownText (rows.take n)))

/-- In a box with room for more than the prompt, no character of the display lies across the end of
a row. -/
def RowsFit (innerWidth : ℕ) (display : List Char) : Prop :=
  inputPrefixWidth < innerWidth → ∀ before c after, display = before ++ c :: after →
    ∀ row, ¬ LiesAcross before c (innerWidth - inputPrefixWidth + row * innerWidth)

/-- The markers of a paste are sorted, disjoint and not empty, and begin and end between two
characters of the input. -/
structure MarkersFit (input : List Char) (markers : List PasteMarker) : Prop where
  sorted : markers.Pairwise fun m later => m.stop ≤ later.start
  nonempty : ∀ m ∈ markers, m.start < m.stop
  boundaries : ∀ m ∈ markers, IsBoundary input m.start ∧ IsBoundary input m.stop

/-! ### Slices -/

section Slices

variable {text found : List Char} {start stop n : ℕ}

theorem slice_eq_some : slice text start stop = some found ↔
    ∃ before after, before ++ found ++ after = text ∧ byteLength before = start ∧
      byteLength (before ++ found) = stop := by
  constructor
  · intro cut
    obtain ⟨⟨head, after⟩, first, cut⟩ := Option.bind_eq_some_iff.mp cut
    obtain ⟨⟨before, middle⟩, second, same⟩ := Option.bind_eq_some_iff.mp cut
    obtain rfl := Option.some_inj.mp same
    obtain ⟨joined, ends⟩ := splitAt_eq_some.mp first
    obtain ⟨rfl, starts⟩ := splitAt_eq_some.mp second
    exact ⟨before, after, joined, starts, ends⟩
  · rintro ⟨before, after, rfl, rfl, rfl⟩
    exact slice_append before found after

theorem exists_slice_iff : (∃ found, slice text start stop = some found) ↔
    start ≤ stop ∧ IsBoundary text start ∧ IsBoundary text stop := by
  constructor
  · rintro ⟨found, cut⟩
    obtain ⟨before, after, rfl, rfl, rfl⟩ := slice_eq_some.mp cut
    refine ⟨?_, ?_, isBoundary_append _ _⟩
    · rw [byteLength_append]
      exact Nat.le_add_right _ _
    · rw [List.append_assoc]
      exact isBoundary_append _ _
  · rintro ⟨le, first, second⟩
    obtain ⟨head, after, rfl, rfl⟩ := isBoundary_iff.mp second
    have inHead : IsBoundary head start := by
      rcases isBoundary_append_iff.mp first with inside | ⟨ge, -⟩
      · exact inside
      · rw [le_antisymm le ge]
        simpa using isBoundary_append head []
    obtain ⟨before, found, rfl, rfl⟩ := isBoundary_iff.mp inHead
    exact ⟨found, slice_append before found after⟩

end Slices

/-! ### Rows -/

section Rows

variable {display : List Char} {markers : List PasteMarker} {innerWidth dispStart dispEnd : ℕ}

theorem exists_style : ∃ style ≠ SpanStyle.prompt,
    renderDisplaySpans display markers dispStart dispEnd =
      (slice display dispStart dispEnd).map (RowSpan.mk style) := by
  suffices from_any : ∀ dispOff inpOff, ∃ style ≠ SpanStyle.prompt,
      renderDisplaySpansFrom display dispStart dispEnd dispOff inpOff markers =
        (slice display dispStart dispEnd).map (RowSpan.mk style) from from_any 0 0
  induction markers with
  | nil => exact fun _ _ => ⟨.plain, SpanStyle.noConfusion, rfl⟩
  | cons m rest ih =>
    intro dispOff inpOff
    rw [renderDisplaySpansFrom]
    split
    · exact ⟨.label, SpanStyle.noConfusion, rfl⟩
    · exact ih _ _

theorem exists_renderDisplaySpans (le : dispStart ≤ dispEnd) (first : IsBoundary display dispStart)
    (second : IsBoundary display dispEnd) : ∃ span before after,
      renderDisplaySpans display markers dispStart dispEnd = some span ∧ span.style ≠ .prompt ∧
        before ++ span.text ++ after = display ∧ byteLength before = dispStart ∧
          byteLength (before ++ span.text) = dispEnd := by
  obtain ⟨found, cut⟩ := exists_slice_iff.mpr ⟨le, first, second⟩
  obtain ⟨before, after, joined, starts, ends⟩ := slice_eq_some.mp cut
  obtain ⟨style, shown, rendered⟩ := @exists_style display markers dispStart dispEnd
  refine ⟨⟨style, found⟩, before, after, ?_, shown, joined, starts, ends⟩
  rw [rendered, cut]
  rfl

theorem isBoundary_of_renderDisplaySpans {span : RowSpan}
    (rendered : renderDisplaySpans display markers dispStart dispEnd = some span) :
    IsBoundary display dispStart ∧ IsBoundary display dispEnd := by
  obtain ⟨style, -, asSlice⟩ := @exists_style display markers dispStart dispEnd
  rw [asSlice] at rendered
  obtain ⟨found, cut, -⟩ := Option.map_eq_some_iff.mp rendered
  exact (exists_slice_iff.mp ⟨found, cut⟩).2

theorem isBoundary_min {position : ℕ}
    (fits : position < byteLength display → IsBoundary display position) :
    IsBoundary display (min position (byteLength display)) := by
  rcases Nat.lt_or_ge position (byteLength display) with inside | beyond
  · rw [Nat.min_eq_left inside.le]
    exact fits inside
  · rw [Nat.min_eq_right beyond]
    exact isBoundary_byteLength display

theorem append_cancel {before after before' after' : List Char}
    (same : before ++ after = before' ++ after') (length : byteLength before = byteLength before') :
    before = before' := by
  have first := splitAt_append before after
  rw [same, length, splitAt_append] at first
  exact (congrArg Prod.fst (Option.some_inj.mp first)).symm

@[simp] theorem shownText_cons (row : InputRow) (rows : List InputRow) :
    shownText (row :: rows) = rowText row ++ shownText rows := rfl

theorem rowText_singleton {span : RowSpan} (shown : span.style ≠ .prompt) :
    rowText [span] = span.text := by
  simp [rowText, shown]

theorem rowText_prompt {span : RowSpan} (shown : span.style ≠ .prompt) :
    rowText [promptSpan, span] = span.text := by
  simp [rowText, promptSpan, shown]

theorem offset_succ (offset innerWidth row : ℕ) :
    offset + innerWidth + row * innerWidth = offset + (row + 1) * innerWidth := by
  rw [Nat.add_mul, Nat.one_mul, Nat.add_assoc, Nat.add_comm innerWidth]

theorem laterRows_eq_some {steps offset : ℕ} (wide : 0 < innerWidth)
    (enough : byteLength display ≤ offset + steps)
    (fits : ∀ row, offset + row * innerWidth < byteLength display →
      IsBoundary display (offset + row * innerWidth)) :
    ∃ rows, laterRows display markers innerWidth steps offset = some rows ∧
      ∃ before, before ++ shownText rows = display ∧
        byteLength before = min offset (byteLength display) := by
  induction steps generalizing offset with
  | zero =>
    exact ⟨[], rfl, display, List.append_nil _, (Nat.min_eq_right enough).symm⟩
  | succ steps ih =>
    rw [laterRows]
    by_cases inside : offset < byteLength display
    · obtain ⟨rows, later, head, rest, length⟩ := @ih (offset + innerWidth) (by omega) fun row => by
        rw [offset_succ]
        exact fits (row + 1)
      have ends : offset + innerWidth < byteLength display →
          IsBoundary display (offset + innerWidth) := by
        simpa using fits 1
      obtain ⟨span, before, after, rendered, shown, joined, starts, stops⟩ :=
        @exists_renderDisplaySpans display markers offset (min (offset + innerWidth)
          (byteLength display)) (by omega) (by simpa using fits 0 (by simpa using inside))
            (isBoundary_min ends)
      have isHead : before ++ span.text = head :=
        append_cancel (joined.trans rest.symm) (stops.trans length.symm)
      refine ⟨[span] :: rows, ?_, before, ?_, ?_⟩
      · rw [if_pos inside, rendered, later]
        rfl
      · rw [shownText_cons, rowText_singleton shown, ← List.append_assoc, isHead, rest]
      · rw [starts, Nat.min_eq_left inside.le]
    · rw [if_neg inside]
      exact ⟨[], rfl, display, List.append_nil _,
        (Nat.min_eq_right (Nat.not_lt.mp inside)).symm⟩

theorem fits_of_laterRows {steps offset : ℕ} {rows : List InputRow}
    (enough : byteLength display ≤ offset + steps) (wide : 0 < innerWidth)
    (rendered : laterRows display markers innerWidth steps offset = some rows) (row : ℕ)
    (inside : offset + row * innerWidth < byteLength display) :
    IsBoundary display (offset + row * innerWidth) := by
  induction steps generalizing offset rows row with
  | zero => omega
  | succ steps ih =>
    have starts : offset < byteLength display := by omega
    rw [laterRows, if_pos starts] at rendered
    obtain ⟨span, first, rendered⟩ := Option.bind_eq_some_iff.mp rendered
    obtain ⟨rest, later, -⟩ := Option.bind_eq_some_iff.mp rendered
    cases row with
    | zero => simpa using (isBoundary_of_renderDisplaySpans first).1
    | succ row =>
      rw [← offset_succ] at inside ⊢
      exact ih (by omega) later row inside

def EndsFit (innerWidth : ℕ) (display : List Char) : Prop :=
  ∀ row, innerWidth - inputPrefixWidth + row * innerWidth < byteLength display →
    IsBoundary display (innerWidth - inputPrefixWidth + row * innerWidth)

theorem narrow_iff : (innerWidth = 0 ∨ innerWidth - inputPrefixWidth = 0) ↔
    ¬ inputPrefixWidth < innerWidth := by
  rw [inputPrefixWidth]
  omega

theorem inputRows_eq_some (fits : inputPrefixWidth < innerWidth → EndsFit innerWidth display) :
    ∃ rows, inputRows display markers innerWidth = some rows ∧ shownText rows = display := by
  rw [inputRows]
  by_cases wide : inputPrefixWidth < innerWidth
  · have positive : 0 < inputPrefixWidth := by decide
    rw [if_neg (mt narrow_iff.mp (not_not.mpr wide))]
    have fits := fits wide
    obtain ⟨rows, later, head, rest, length⟩ := @laterRows_eq_some display markers innerWidth
      (byteLength display) (innerWidth - inputPrefixWidth) (by omega) (by omega) fits
    obtain ⟨span, before, after, rendered, shown, joined, starts, stops⟩ :=
      @exists_renderDisplaySpans display markers 0
        (min (innerWidth - inputPrefixWidth) (byteLength display)) (Nat.zero_le _)
          (isBoundary_append [] display) (isBoundary_min (by simpa using fits 0))
    obtain rfl := byteLength_eq_zero.mp starts
    refine ⟨[promptSpan, span] :: rows, ?_, ?_⟩
    · rw [Nat.min_comm, rendered, later]
      rfl
    · have isHead : [] ++ span.text = head :=
        append_cancel (joined.trans rest.symm) (stops.trans length.symm)
      rw [shownText_cons, rowText_prompt shown, ← rest, ← isHead, List.nil_append]
  · rw [if_pos (narrow_iff.mpr wide)]
    obtain ⟨span, before, after, rendered, shown, joined, starts, stops⟩ :=
      @exists_renderDisplaySpans display markers 0 (byteLength display) (Nat.zero_le _)
        (isBoundary_append [] display) (isBoundary_byteLength display)
    obtain rfl := byteLength_eq_zero.mp starts
    refine ⟨[[promptSpan, span]], ?_, ?_⟩
    · rw [rendered]
      rfl
    · rw [shownText_cons, rowText_prompt shown]
      have whole := append_cancel (joined.trans (List.append_nil display).symm) stops
      simpa [shownText] using whole

theorem endsFit_of_inputRows {rows : List InputRow} (wide : inputPrefixWidth < innerWidth)
    (rendered : inputRows display markers innerWidth = some rows) : EndsFit innerWidth display := by
  have positive : 0 < inputPrefixWidth := by decide
  rw [inputRows, if_neg (mt narrow_iff.mp (not_not.mpr wide))] at rendered
  obtain ⟨span, -, rendered⟩ := Option.bind_eq_some_iff.mp rendered
  obtain ⟨rest, later, -⟩ := Option.bind_eq_some_iff.mp rendered
  exact fun row inside => fits_of_laterRows (by omega) (by omega) later row inside

/-- Rows end between two characters if no character lies across an end. -/
theorem endsFit_iff : (inputPrefixWidth < innerWidth → EndsFit innerWidth display) ↔
    RowsFit innerWidth display := by
  refine forall_congr' fun wide => ?_
  constructor
  · rintro fits before c after rfl row across
    have within : innerWidth - inputPrefixWidth + row * innerWidth <
        byteLength (before ++ c :: after) := by
      have below := across.2
      rw [byteLength_append, byteLength_cons]
      omega
    exact not_isBoundary_inside across.1 across.2 (fits row within)
  · intro apart row inside
    refine (isBoundary_iff_forall inside.le).mpr fun before c after same => ?_
    exact apart before c after same row

end Rows

/-! ### The box -/

section Box

variable {input : List Char} {markers : List PasteMarker} {area : Rect} {e : Editor}

theorem buildDisplayFrom_eq_some {i : ℕ} (boundary : IsBoundary input i)
    (fit : MarkersFit input markers) (before : ∀ m ∈ markers, i ≤ m.start) :
    ∃ display, buildDisplayFrom input i markers = some display := by
  induction markers generalizing i with
  | nil =>
    obtain ⟨parts, split⟩ := Option.isSome_iff_exists.mp boundary
    exact ⟨parts.2, by rw [buildDisplayFrom, split]; rfl⟩
  | cons m rest ih =>
    obtain ⟨starts, stops⟩ := fit.boundaries m List.mem_cons_self
    obtain ⟨plain, cut⟩ :=
      exists_slice_iff.mpr ⟨before m List.mem_cons_self, boundary, starts⟩
    obtain ⟨disjoint, sorted⟩ := List.pairwise_cons.mp fit.sorted
    obtain ⟨later, built⟩ := ih stops
      ⟨sorted, fun m member => fit.nonempty m (List.mem_cons_of_mem _ member),
        fun m member => fit.boundaries m (List.mem_cons_of_mem _ member)⟩ disjoint
    exact ⟨plain ++ m.label ++ later, by rw [buildDisplayFrom, cut, built]; rfl⟩

theorem buildDisplay_eq_some (fit : MarkersFit e.input e.pasteMarkers) :
    buildDisplay e.input e.pasteMarkers = some e.displayInput := by
  obtain ⟨display, built⟩ := buildDisplayFrom_eq_some (isBoundary_append [] e.input) fit
    fun m _ => Nat.zero_le m.start
  rw [Editor.displayInput]
  change buildDisplay e.input e.pasteMarkers = some display at built
  rw [built, Option.getD_some]

theorem markersFit_of_consistent (consistent : e.Consistent) :
    MarkersFit e.input e.pasteMarkers :=
  ⟨consistent.sorted, consistent.nonempty, consistent.boundaries⟩

theorem isBoundary_shownText {rows : List InputRow} (n : ℕ) :
    IsBoundary (shownText rows) (byteLength (shownText (rows.take n))) := by
  have split : shownText rows = shownText (rows.take n) ++ shownText (rows.drop n) := by
    rw [shownText, shownText, shownText, ← List.flatMap_append, List.take_append_drop]
  rw [split]
  exact isBoundary_append _ _

end Box

/-- **The input box.** For every input, every list of markers that fit it, and every area, the box
shows the display string in rows if and only if no character lies across the end of a row. -/
theorem renders_whole_iff (area : Rect) (e : Editor) (fit : MarkersFit e.input e.pasteMarkers) :
    RendersWhole area e ↔ RowsFit (area.width - inputBorderWidth) e.displayInput := by
  have shown := buildDisplay_eq_some fit
  rw [← endsFit_iff]
  constructor
  · rintro ⟨rows, cursor, rendered, -⟩ wide
    obtain ⟨display, isDisplay, rendered⟩ := Option.bind_eq_some_iff.mp rendered
    obtain rfl := Option.some_inj.mp (shown.symm.trans isDisplay)
    obtain ⟨_, rowsRendered, -⟩ := Option.bind_eq_some_iff.mp rendered
    exact endsFit_of_inputRows wide rowsRendered
  · intro fits
    obtain ⟨rows, rendered, whole⟩ := @inputRows_eq_some e.displayInput e.pasteMarkers
      (area.width - inputBorderWidth) fits
    refine ⟨rows, cursorPosition area e.displayCursor, ?_, whole, ?_⟩
    · rw [render, shown]
      simp only [Option.bind_eq_bind, Option.bind_some, rendered]
      rfl
    · intro n
      rw [← whole]
      exact isBoundary_shownText n

/-! ### A character of two bytes -/

def accentEditor : Editor :=
  { Editor.empty [] with input := ['a', 'b', 'é'], cursorPos := 4 }

theorem markersFit_accentEditor : MarkersFit accentEditor.input accentEditor.pasteMarkers :=
  ⟨.nil, List.forall_mem_nil _, List.forall_mem_nil _⟩

def pastedEditor : Editor :=
  { Editor.empty [] with
    input := "é\n\n\nx".toList
    cursorPos := 6
    pasteMarkers := [⟨2, 5, pasteLabel "\n\n\n".toList⟩] }

theorem markersFit_pastedEditor : MarkersFit pastedEditor.input pastedEditor.pasteMarkers where
  sorted := List.pairwise_singleton _ _
  nonempty := List.forall_mem_singleton.mpr (by decide)
  boundaries := List.forall_mem_singleton.mpr (by decide)

/-- In a box of fourteen columns the label of the paste takes three rows, which do not end inside of
its dot. -/
theorem paste_rendered : RendersWhole ⟨0, 0, 14, 5⟩ pastedEditor ∧
    (render ⟨0, 0, 14, 5⟩ pastedEditor).map (fun shown => shown.1.length) = some 3 := by
  refine ⟨(renders_whole_iff ⟨0, 0, 14, 5⟩ pastedEditor markersFit_pastedEditor).mpr ?_,
    by decide +kernel⟩
  refine endsFit_iff.mp fun _ row inside => ?_
  have length : byteLength pastedEditor.displayInput = 26 := by decide +kernel
  rw [length] at inside
  change 10 + row * 12 < 26 at inside
  have ends : ∀ row < 2, IsBoundary pastedEditor.displayInput (10 + row * 12) := by
    decide +kernel
  exact ends row (by omega)

/-- In a box of seven columns it lies across the end of the row, and the slice panics. -/
theorem accent_panics : ¬ ∀ (area : Rect) (e : Editor), MarkersFit e.input e.pasteMarkers →
    RendersWhole area e := by
  intro law
  obtain ⟨rows, cursor, rendered, -⟩ := law ⟨0, 0, 7, 3⟩ accentEditor markersFit_accentEditor
  have panics : render ⟨0, 0, 7, 3⟩ accentEditor = none := by decide
  rw [panics] at rendered
  cases rendered

end KelvinClaw.Tui
