import KelvinClaw.Library.ReadLists
import KelvinClaw.Tui.Editor

/-!
# What keys do to the input

The input with its markers comes of a list of items, characters and pastes that are kept together,
and the cursor stands between two of them. A key inserts or removes an item at the cursor, or moves
the cursor past items.
-/

namespace KelvinClaw.Tui

open KelvinClaw.Core Systems Systems.AtomicText

/-! ### Markers -/

section Markers

variable {before after items : List (Item (List Char))} {input : List Char} {k position : ℕ}

theorem markersValid_spans (room : position + size items ≤ byteLength input) :
    markersValid input (spans position items) = true := by
  induction items generalizing position with
  | nil => rfl
  | cons item rest ih =>
    rw [size_cons, ← Nat.add_assoc] at room
    cases item with
    | char c => exact ih room
    | block b =>
      have later : ∀ next ∈ (spans (position + byteLength b.text) rest).head?,
          position + byteLength b.text ≤ next.start := by
        intro next first
        exact (bounds_of_mem_spans (List.mem_of_mem_head? first)).1
      have valid := ih room
      have length := byteLength_pos b.nonempty
      simp only [spans, markersValid, Bool.decide_and, Bool.and_eq_true, decide_eq_true_eq]
      refine ⟨Nat.lt_add_of_pos_right length, ?_, later, valid⟩
      exact (Nat.le_add_right _ _).trans room

theorem before_of_mem {m : PasteMarker} (member : m ∈ spans 0 before) :
    m.start < size before ∧ m.stop ≤ size before := by
  have bounds := bounds_of_mem_spans member
  omega

theorem map_eq_self {f : PasteMarker → PasteMarker} {markers : List PasteMarker}
    (each : ∀ m ∈ markers, f m = m) : markers.map f = markers :=
  (List.map_congr_left each).trans (List.map_id' markers)

theorem move_spans (before after : List (Item (List Char))) (k : ℕ) :
    ((spans 0 (before ++ after)).map fun m => if size before ≤ m.start then moveBy k m else m) =
      spans 0 before ++ spans (size before + k) after := by
  rw [spans_append, Nat.zero_add, List.map_append, spans_add (size before) k after]
  congr 1
  · apply map_eq_self
    intro m member
    exact if_neg (Nat.not_le.mpr (before_of_mem member).1)
  · apply List.map_congr_left
    intro m member
    exact if_pos (bounds_of_mem_spans member).1

theorem insertMarker_spans (before after : List (Item (List Char))) (k : ℕ) (m : PasteMarker)
    (start : m.start = size before) :
    insertMarker m (spans 0 before ++ spans (size before + k) after) =
      spans 0 before ++ m :: spans (size before + k) after := by
  have earlier : ∀ other ∈ spans 0 before, decide (other.start < m.start) = true := by
    intro other member
    rw [start]
    exact decide_eq_true (before_of_mem member).1
  have first : ∀ {rest : List PasteMarker}, (∀ other ∈ rest, size before ≤ other.start) →
      rest.takeWhile (fun other => decide (other.start < m.start)) = [] ∧
        rest.dropWhile (fun other => decide (other.start < m.start)) = rest := by
    intro rest later
    cases rest with
    | nil => exact ⟨rfl, rfl⟩
    | cons other rest =>
      have stays : decide (other.start < m.start) = false := by
        rw [start]
        exact decide_eq_false (Nat.not_lt.mpr (later other List.mem_cons_self))
      simp [stays]
  obtain ⟨none, all⟩ := @first (spans (size before + k) after) fun other member =>
    (Nat.le_add_right _ _).trans (bounds_of_mem_spans member).1
  rw [insertMarker, List.takeWhile_append_of_pos earlier, List.dropWhile_append_of_pos earlier,
    none, all, List.append_nil]

/-- The markers after the cursor close up, when the text at the cursor is removed. -/
theorem moveBackIf_spans (before after : List (Item (List Char))) (k : ℕ)
    {test : PasteMarker → Bool} (stays : ∀ m ∈ spans 0 before, test m = false)
    (moves : ∀ m ∈ spans (size before + k) after, test m = true) :
    moveBackIf test k (spans 0 before ++ spans (size before + k) after) =
      some (spans 0 (before ++ after)) := by
  let closed : PasteMarker → PasteMarker := fun m =>
    if test m then ⟨m.start - k, m.stop - k, m.label⟩ else m
  have each : ∀ m ∈ spans 0 before ++ spans (size before + k) after,
      (if test m then moveBack k m else some m) = some (closed m) := by
    intro m member
    rcases List.mem_append.mp member with earlier | later
    · simp [closed, stays m earlier]
    · have bounds := bounds_of_mem_spans later
      have fits : k ≤ m.start ∧ k ≤ m.stop := by omega
      simp [closed, moves m later, moveBack, fits]
  rw [moveBackIf, mapM_eq_some_map each, List.map_append, spans_append, Nat.zero_add,
    spans_add (size before) k after, List.map_map]
  congr 2
  · apply map_eq_self
    intro m member
    simp [closed, stays m member]
  · apply map_eq_self
    intro m member
    have moved : test ⟨m.start + k, m.stop + k, m.label⟩ = true := by
      apply moves
      rw [spans_add]
      exact List.mem_map_of_mem member
    simp [closed, moved]

end Markers

/-! ### Text -/

section Text

variable {before middle after : List Char}

theorem insertStr_append (before after text : List Char) :
    insertStr (before ++ after) (byteLength before) text = some (before ++ text ++ after) := by
  rw [insertStr, splitAt_append]
  rfl

theorem slice_append (before middle after : List Char) :
    slice (before ++ middle ++ after) (byteLength before) (byteLength (before ++ middle)) =
      some middle := by
  simp only [slice, splitAt_append, Option.bind_eq_bind, Option.bind_some]
  rfl

theorem drain_append (before middle after : List Char) :
    drain (before ++ middle ++ after) (byteLength before) (byteLength (before ++ middle)) =
      some (before ++ after) := by
  simp only [drain, splitAt_append, Option.bind_eq_bind, Option.bind_some]
  rfl

end Text

namespace Editor

variable (e : Editor) (before after : List (Item (List Char)))

def place : Editor :=
  { e with
    input := chars (before ++ after)
    cursorPos := size before
    pasteMarkers := spans 0 (before ++ after) }

theorem asserted_place : (e.place before after).asserted = some (e.place before after) :=
  if_pos (markersValid_spans (Nat.zero_add _).le)

/-! ### Insertion -/

theorem place_insert (new : List (Item (List Char))) :
    { e.place before after with
      input := chars before ++ chars new ++ chars after
      cursorPos := size before + size new
      pasteMarkers :=
        spans 0 before ++ (spans (size before) new ++ spans (size before + size new) after) } =
      e.place (before ++ new) after := by
  simp [place, spans_append]

variable {e before after}

theorem insertStr_place (text : List Char) :
    insertStr (e.place before after).input (e.place before after).cursorPos text =
      some (chars before ++ text ++ chars after) := by
  rw [place, chars_append]
  exact insertStr_append (chars before) (chars after) text

theorem move_place (k : ℕ) : ((e.place before after).pasteMarkers.map fun m =>
    if (e.place before after).cursorPos ≤ m.start then moveBy k m else m) =
      spans 0 before ++ spans (size before + k) after :=
  move_spans before after k

theorem place_insertChar (c : Char) :
    (e.place before after).insertChar c = some (e.place (before ++ [.char c]) after) := by
  have inserted := e.place_insert before after [.char c]
  have length : size [@Item.char (List Char) c] = c.utf8Size := by simp [Item.chars]
  simp only [length, chars_cons, chars_nil, List.append_nil, spans, List.nil_append,
    Item.chars] at inserted
  rw [insertChar, move_place, insertStr_place]
  exact (congrArg asserted inserted).trans (asserted_place ..)

def pasted (text : List Char) : List (Item (List Char)) :=
  if large : isLargePaste text = true ∧ text ≠ [] then
    [.block ⟨text, pasteLabel text, large.2⟩]
  else text.map .char

theorem isLargePaste_nil : isLargePaste [] = false := by decide

theorem chars_pasted (text : List Char) : chars (pasted text) = text := by
  unfold pasted
  split_ifs
  · simp [Item.chars]
  · exact chars_map_char text

theorem place_doPaste (text : List Char) :
    (e.place before after).doPaste text = some (e.place (before ++ pasted text) after) := by
  have retained : (e.place before after).pasteMarkers.filter (fun m =>
      m.stop ≤ (e.place before after).cursorPos ∨ (e.place before after).cursorPos ≤ m.start) =
        (e.place before after).pasteMarkers := by
    apply List.filter_eq_self.mpr
    intro m member
    have outside := (outside_of_append before after).2 m member
    simp only [Span.Inside] at outside
    apply decide_eq_true
    change m.stop ≤ size before ∨ size before ≤ m.start
    omega
  have length : byteLength text = size (pasted text) := by rw [size, chars_pasted]
  have markers : (if isLargePaste text = true then
      insertMarker ⟨size before, size before + byteLength text, pasteLabel text⟩
        (spans 0 before ++ spans (size before + byteLength text) after)
      else spans 0 before ++ spans (size before + byteLength text) after) =
      spans 0 before ++
        (spans (size before) (pasted text) ++ spans (size before + byteLength text) after) := by
    by_cases large : isLargePaste text = true
    · have nonempty : text ≠ [] := by
        rintro rfl
        rw [isLargePaste_nil] at large
        cases large
      rw [if_pos large, insertMarker_spans _ _ _ _ rfl, pasted, dif_pos ⟨large, nonempty⟩]
      rfl
    · rw [if_neg large, pasted, dif_neg fun both => large both.1, spans_map_char]
      rfl
  have inserted := e.place_insert before after (pasted text)
  rw [← length, chars_pasted] at inserted
  rw [← markers] at inserted
  simp only [doPaste, retained, move_place, insertStr_place, Option.bind_eq_bind,
    Option.bind_some]
  exact (congrArg asserted inserted).trans (asserted_place ..)

/-! ### Removal -/

theorem drain_place (item : Item (List Char)) :
    drain (chars (before ++ item :: after)) (size before) (size before + byteLength item.chars) =
      some (chars (before ++ after)) := by
  have drained := drain_append (chars before) item.chars (chars after)
  rwa [byteLength_append, List.append_assoc, ← chars_cons, ← chars_append, ← chars_append]
    at drained

theorem spans_around (item : Item (List Char)) :
    spans 0 (before ++ item :: after) = spans 0 before ++ (spans (size before) [item] ++
      spans (size before + byteLength item.chars) after) := by
  rw [spans_append, Nat.zero_add, ← List.singleton_append, spans_append, size_cons, size_nil,
    Nat.add_zero]

theorem removeMarker_place (cursor : ℕ) (b : Block (List Char)) :
    ({ e.place before (.block b :: after) with cursorPos := cursor }).removeMarker
      ⟨size before, size before + byteLength b.text, b.label⟩
        (spans 0 before ++ spans (size before + byteLength b.text) after) =
      some { e.place before after with cursorPos := cursor } := by
  have drained := @drain_place before after (.block b)
  have closed := @moveBackIf_spans before after (byteLength b.text)
    (fun later => decide (size before + byteLength b.text ≤ later.start)) ?_ ?_
  · simp only [Item.chars] at drained
    simp only [removeMarker, place, drained, Nat.add_sub_cancel_left, closed, Option.bind_eq_bind,
      Option.bind_some]
    rfl
  · intro m member
    have earlier := before_of_mem member
    exact decide_eq_false (by omega)
  · intro m member
    exact decide_eq_true (bounds_of_mem_spans member).1

/-- A marker that begins at the cursor is the first after it, and none begins in a character. -/
theorem find_start_place (item : Item (List Char)) :
    ((e.place before (item :: after)).pasteMarkers.find? fun m =>
      m.start = (e.place before (item :: after)).cursorPos) =
        (spans (size before) [item]).head? := by
  change (spans 0 (before ++ item :: after)).find? (fun m => m.start = size before) = _
  have earlier : (spans 0 before).find? (fun m => m.start = size before) = none := by
    apply List.find?_eq_none.mpr
    intro m member
    have bounds := before_of_mem member
    simp only [decide_eq_true_eq]
    omega
  have later : (spans (size before + byteLength item.chars) after).find?
      (fun m => m.start = size before) = none := by
    apply List.find?_eq_none.mpr
    intro m member
    have bounds := bounds_of_mem_spans member
    have positive := item.byteLength_pos
    simp only [decide_eq_true_eq]
    omega
  rw [spans_around, List.find?_append, earlier, List.find?_append, later]
  cases item with
  | char c => rfl
  | block b => simp [spans]

theorem find_stop_place (item : Item (List Char)) :
    ((e.place (before ++ [item]) after).pasteMarkers.find? fun m =>
      m.stop = (e.place (before ++ [item]) after).cursorPos) =
        (spans (size before) [item]).head? := by
  have markers : (e.place (before ++ [item]) after).pasteMarkers =
      spans 0 (before ++ item :: after) := by
    rw [place, List.append_assoc, List.singleton_append]
  have cursor : (e.place (before ++ [item]) after).cursorPos =
      size before + byteLength item.chars := by
    rw [place, size_append, size_cons, size_nil, Nat.add_zero]
  simp only [markers, cursor]
  have positive := item.byteLength_pos
  have earlier : (spans 0 before).find?
      (fun m => m.stop = size before + byteLength item.chars) = none := by
    apply List.find?_eq_none.mpr
    intro m member
    have bounds := before_of_mem member
    simp only [decide_eq_true_eq]
    omega
  have later : (spans (size before + byteLength item.chars) after).find?
      (fun m => m.stop = size before + byteLength item.chars) = none := by
    apply List.find?_eq_none.mpr
    intro m member
    have bounds := bounds_of_mem_spans member
    simp only [decide_eq_true_eq]
    omega
  rw [spans_around, List.find?_append, earlier, List.find?_append, later]
  cases item with
  | char c => rfl
  | block b => simp [spans, Item.chars]

theorem erase_place {b : Block (List Char)} {test : PasteMarker → Bool}
    (earlier : ∀ m ∈ spans 0 before, ¬ test m = true)
    (found : test ⟨size before, size before + byteLength b.text, b.label⟩ = true) :
    (spans 0 (before ++ .block b :: after)).eraseP test =
      spans 0 before ++ spans (size before + byteLength b.text) after := by
  rw [spans_append, Nat.zero_add, List.eraseP_append_right _ earlier, spans,
    List.eraseP_cons_of_pos found]

theorem removeChar_place (c : Char) {test : PasteMarker → Bool}
    (stays : ∀ m ∈ spans 0 before, test m = false)
    (moves : ∀ m ∈ spans (size before + c.utf8Size) after, test m = true) :
    (do
      let input ← drain (chars (before ++ .char c :: after)) (size before)
        (size before + c.utf8Size)
      let markers ← moveBackIf test c.utf8Size (spans 0 (before ++ .char c :: after))
      asserted { e with input, pasteMarkers := markers, cursorPos := size before }) =
        some (e.place before after) := by
  have length : byteLength (Item.char c : Item (List Char)).chars = c.utf8Size := by
    simp [Item.chars]
  have drained := @drain_place before after (.char c)
  have around := @spans_around before after (.char c)
  rw [length] at drained around
  rw [drained, around]
  simp only [spans, List.nil_append, moveBackIf_spans before after c.utf8Size stays moves,
    Option.bind_eq_bind, Option.bind_some]
  exact asserted_place ..

theorem length_place : byteLength (e.place before after).input = size before + size after :=
  size_append before after

theorem next_place (c : Char) :
    ceilBoundary (e.place before (.char c :: after)).input
      (byteLength (e.place before (.char c :: after)).input -
        ((e.place before (.char c :: after)).cursorPos + 1))
      ((e.place before (.char c :: after)).cursorPos + 1) = size before + c.utf8Size := by
  have ceil := ceilBoundary_eq (chars before) c (chars after)
  rwa [show chars before ++ c :: chars after = (e.place before (.char c :: after)).input by
    simp [place, Item.chars]] at ceil

theorem prev_place (c : Char) :
    floorBoundary (e.place (before ++ [.char c]) after).input
      ((e.place (before ++ [.char c]) after).cursorPos - 1) = size before := by
  have floor := floorBoundary_eq (chars before) c (chars after)
  rwa [show chars before ++ c :: chars after = (e.place (before ++ [.char c]) after).input by
      simp [place, Item.chars],
    show byteLength (chars before) + c.utf8Size = (e.place (before ++ [.char c]) after).cursorPos by
      simp [place, Item.chars, size]] at floor

theorem not_ended_place (item : Item (List Char)) :
    ¬ byteLength (e.place before (item :: after)).input ≤
      (e.place before (item :: after)).cursorPos := by
  have positive := item.byteLength_pos
  rw [length_place, size_cons]
  change ¬ size before + (byteLength item.chars + size after) ≤ size before
  omega

theorem cursor_place (item : Item (List Char)) :
    (e.place (before ++ [item]) after).cursorPos = size before + byteLength item.chars := by
  rw [place, size_append, size_cons, size_nil, Nat.add_zero]

theorem cursor_place_ne_zero (item : Item (List Char)) :
    ¬ (e.place (before ++ [item]) after).cursorPos = 0 := by
  have positive := item.byteLength_pos
  rw [cursor_place]
  omega

theorem place_doDelete (item : Item (List Char)) :
    (e.place before (item :: after)).doDelete = some (e.place before after) := by
  rw [doDelete, if_neg (not_ended_place item), find_start_place]
  cases item with
  | block b =>
    have erased : (e.place before (.block b :: after)).pasteMarkers.eraseP
        (fun m => m.start = (e.place before (.block b :: after)).cursorPos) =
          spans 0 before ++ spans (size before + byteLength b.text) after := by
      apply erase_place
      · intro m member
        have bounds := before_of_mem member
        change ¬ decide (m.start = size before) = true
        rw [decide_eq_true_eq]
        exact bounds.1.ne
      · exact decide_eq_true rfl
    have removed : (e.place before (.block b :: after)).removeMarker
        ⟨size before, size before + byteLength b.text, b.label⟩
          (spans 0 before ++ spans (size before + byteLength b.text) after) =
            some (e.place before after) :=
      removeMarker_place (size before) b
    simp only [spans, List.head?_cons]
    rw [erased, removed]
    exact asserted_place ..
  | char c =>
    have removed := @removeChar_place e before after c (fun m => size before < m.start) ?_ ?_
    · simp only [spans, List.head?_nil]
      have cursor : (e.place before (.char c :: after)).cursorPos = size before := rfl
      rw [next_place, cursor, Nat.add_sub_cancel_left]
      exact removed
    · intro m member
      have bounds := before_of_mem member
      exact decide_eq_false (by omega)
    · intro m member
      have bounds := bounds_of_mem_spans member
      have positive := Char.utf8Size_pos c
      exact decide_eq_true (by omega)

theorem place_doDelete_nil : (e.place before []).doDelete = some (e.place before []) := by
  have ended : byteLength (e.place before []).input ≤ (e.place before []).cursorPos := by
    rw [length_place, size_nil]
    exact le_refl _
  exact if_pos ended

theorem place_doBackspace (item : Item (List Char)) :
    (e.place (before ++ [item]) after).doBackspace = some (e.place before after) := by
  have moved : e.place (before ++ [item]) after =
      { e.place before (item :: after) with
        cursorPos := size before + byteLength item.chars } := by
    simp [place]
  rw [doBackspace, if_neg (cursor_place_ne_zero item), find_stop_place]
  cases item with
  | block b =>
    have erased : (e.place (before ++ [.block b]) after).pasteMarkers.eraseP
        (fun m => m.stop = (e.place (before ++ [.block b]) after).cursorPos) =
          spans 0 before ++ spans (size before + byteLength b.text) after := by
      rw [cursor_place, moved]
      apply erase_place
      · intro m member
        have bounds := before_of_mem member
        have positive := (Item.block b).byteLength_pos
        rw [decide_eq_true_eq]
        omega
      · exact decide_eq_true rfl
    have removed : (e.place (before ++ [.block b]) after).removeMarker
        ⟨size before, size before + byteLength b.text, b.label⟩
          (spans 0 before ++ spans (size before + byteLength b.text) after) =
            some { e.place before after with
              cursorPos := size before + byteLength b.text } := by
      rw [moved]
      exact removeMarker_place _ b
    simp only [spans, List.head?_cons]
    rw [erased, removed]
    exact asserted_place ..
  | char c =>
    have length : byteLength (Item.char c : Item (List Char)).chars = c.utf8Size := by
      simp [Item.chars]
    have removed := @removeChar_place e before after c (fun m => size before < m.start) ?_ ?_
    · simp only [spans, List.head?_nil]
      rw [prev_place, cursor_place, length, Nat.add_sub_cancel_left, moved]
      exact removed
    · intro m member
      have bounds := before_of_mem member
      exact decide_eq_false (by omega)
    · intro m member
      have bounds := bounds_of_mem_spans member
      have positive := Char.utf8Size_pos c
      exact decide_eq_true (by omega)

theorem place_doBackspace_nil : (e.place [] after).doBackspace = some (e.place [] after) :=
  if_pos rfl

/-! ### Moves -/

theorem place_cursor {before' after' : List (Item (List Char))}
    (same : before' ++ after' = before ++ after) :
    { e.place before after with cursorPos := size before' } = e.place before' after' := by
  simp [place, same]

theorem place_moveRight (item : Item (List Char)) :
    (e.place before (item :: after)).moveRight = e.place (before ++ [item]) after := by
  have same : before ++ [item] ++ after = before ++ item :: after := by simp
  have moved := @place_cursor e _ _ _ _ same
  rw [size_append, size_cons, size_nil, Nat.add_zero] at moved
  rw [moveRight, if_neg (not_ended_place item), find_start_place]
  cases item with
  | block b => exact moved
  | char c =>
    simp only [spans, List.head?_nil]
    rw [next_place]
    simpa [Item.chars] using moved

theorem place_moveRight_nil : (e.place before []).moveRight = e.place before [] := by
  have ended : byteLength (e.place before []).input ≤ (e.place before []).cursorPos := by
    rw [length_place, size_nil]
    exact le_refl _
  exact if_pos ended

theorem place_moveLeft (item : Item (List Char)) :
    (e.place (before ++ [item]) after).moveLeft = e.place before (item :: after) := by
  have same : before ++ item :: after = before ++ [item] ++ after := by simp
  have moved := @place_cursor e _ _ _ _ same
  rw [moveLeft, if_neg (cursor_place_ne_zero item), find_stop_place]
  cases item with
  | block b => exact moved
  | char c =>
    simp only [spans, List.head?_nil]
    rw [prev_place]
    exact moved

theorem place_moveLeft_nil : (e.place [] after).moveLeft = e.place [] after := if_pos rfl

/-! ### Words -/

section Words

variable {isAlphanumeric : Char → Bool} {text : List Char} {pos : ℕ}

theorem wordRight_eq_some (boundary : IsBoundary text pos) :
    ∃ newPos, wordRight isAlphanumeric text pos = some newPos ∧ IsBoundary text newPos := by
  obtain ⟨before, after, rfl, rfl⟩ := isBoundary_iff.mp boundary
  generalize gap : after.takeWhile (fun c => !isWordChar isAlphanumeric c) = skipped
  obtain ⟨rest, rfl⟩ : ∃ rest, skipped ++ rest = after := gap ▸ List.takeWhile_prefix _
  generalize found : rest.takeWhile (isWordChar isAlphanumeric) = word
  obtain ⟨last, rfl⟩ : ∃ last, word ++ last = rest := found ▸ List.takeWhile_prefix _
  have current := splitAt_append (before ++ skipped) (word ++ last)
  rw [byteLength_append, List.append_assoc] at current
  refine ⟨byteLength (before ++ skipped ++ word), ?_, ?_⟩
  · simp only [wordRight, splitAt_append, Option.bind_eq_bind, Option.bind_some, gap, current,
      found, byteLength_append]
    rfl
  · have ended := isBoundary_append (before ++ skipped ++ word) last
    simpa using ended

theorem exists_takeWhile_reverse (test : Char → Bool) (text : List Char) :
    ∃ rest, rest ++ (text.reverse.takeWhile test).reverse = text := by
  obtain ⟨rest, same⟩ := @List.takeWhile_prefix _ text.reverse test
  refine ⟨rest.reverse, ?_⟩
  rw [← List.reverse_append, same, List.reverse_reverse]

theorem byteLength_reverse (text : List Char) : byteLength text.reverse = byteLength text := by
  induction text with
  | nil => rfl
  | cons c rest ih =>
    rw [List.reverse_cons, byteLength_append, ih, byteLength_cons, byteLength_cons, byteLength_nil,
      Nat.add_zero, Nat.add_comm]

theorem wordLeft_eq_some (boundary : IsBoundary text pos) :
    ∃ newPos, wordLeft isAlphanumeric text pos = some newPos ∧ IsBoundary text newPos := by
  obtain ⟨before, after, rfl, rfl⟩ := isBoundary_iff.mp boundary
  obtain ⟨rest, skips⟩ :=
    exists_takeWhile_reverse (fun c => !isWordChar isAlphanumeric c) before
  obtain ⟨first, word⟩ := exists_takeWhile_reverse (isWordChar isAlphanumeric) rest
  have skipped := congrArg byteLength skips
  have passed := congrArg byteLength word
  rw [byteLength_append, byteLength_reverse] at skipped passed
  have current : splitAt (before ++ after) (byteLength before -
      byteLength (before.reverse.takeWhile fun c => !isWordChar isAlphanumeric c)) =
        some (rest, (before.reverse.takeWhile fun c =>
          !isWordChar isAlphanumeric c).reverse ++ after) := by
    rw [← skipped, Nat.add_sub_cancel]
    have split := splitAt_append rest ((before.reverse.takeWhile fun c =>
      !isWordChar isAlphanumeric c).reverse ++ after)
    rwa [← List.append_assoc, skips] at split
  refine ⟨byteLength first, ?_, ?_⟩
  · simp only [wordLeft, splitAt_append, Option.bind_eq_bind, Option.bind_some, current]
    rw [← skipped, Nat.add_sub_cancel, ← passed, Nat.add_sub_cancel]
    rfl
  · rw [← skips, ← word, List.append_assoc, List.append_assoc]
    exact isBoundary_append _ _

end Words

theorem exists_place_snap {pos : ℕ} (boundary : IsBoundary (chars (before ++ after)) pos)
    {edge : PasteMarker → ℕ} (edges : edge = Span.start ∨ edge = Span.stop) :
    ∃ before' after', { e.place before after with
      cursorPos := (e.place before after).snap edge pos } = e.place before' after' := by
  unfold snap
  cases found : (e.place before after).pasteMarkers.find? fun m => m.Inside pos with
  | none =>
    have outside : ∀ m ∈ spans 0 (before ++ after), ¬ m.Inside (0 + pos) := by
      intro m member
      rw [Nat.zero_add]
      simpa using List.find?_eq_none.mp found m member
    obtain ⟨before', after', same, rfl⟩ := exists_append_of_outside boundary outside
    exact ⟨before', after', place_cursor same⟩
  | some m =>
    obtain ⟨first, b, last, same, rfl⟩ :=
      exists_block_of_mem_spans (List.mem_of_find?_eq_some found)
    rcases edges with rfl | rfl
    · refine ⟨first, .block b :: last, ?_⟩
      rw [← place_cursor same.symm]
      simp
    · refine ⟨first ++ [.block b], last, ?_⟩
      rw [← place_cursor (show first ++ [.block b] ++ last = before ++ after by simp [same])]
      simp [Item.chars]

end Editor

end KelvinClaw.Tui
