import KelvinClaw.Tui.InputBox

/-!
# Positions in the input and on display

A position in the input has one on display, where labels stand in the place of markers, and a
position on display has one in the input. Inside a marker the input has no position of its own on
display, and the cursor does not stand there; everywhere else the two maps undo each other. Both
maps walk over the markers with the ends of the last marker, on display and in the input.
-/

namespace KelvinClaw.Tui

open KelvinClaw.Core Systems Systems.AtomicText

/-- Markers that are not empty, one after another, from a position on. -/
def Chained : ℕ → List PasteMarker → Prop
  | _, [] => True
  | i, m :: rest => i ≤ m.start ∧ m.start < m.stop ∧ Chained m.stop rest

def Labelled (markers : List PasteMarker) : Prop := ∀ m ∈ markers, m.label ≠ []

/-- Markers that pass the assertion, begin and end between two characters, and have a label. -/
structure MarkersOf (input : List Char) (markers : List PasteMarker) : Prop where
  valid : markersValid input markers = true
  boundaries : ∀ m ∈ markers, IsBoundary input m.start ∧ IsBoundary input m.stop
  labelled : Labelled markers

section Laws

variable {input : List Char} {markers : List PasteMarker} {disp i p q : ℕ}

/-! ### Markers in a row -/

theorem chained_of_valid (valid : markersValid input markers = true)
    (before : ∀ m ∈ markers.head?, i ≤ m.start) : Chained i markers := by
  induction markers generalizing i with
  | nil => exact trivial
  | cons m rest ih =>
    obtain ⟨filled, _, next, later⟩ := of_decide_eq_true valid
    exact ⟨before m rfl, filled, ih later next⟩

theorem within_of_valid (valid : markersValid input markers = true) :
    ∀ m ∈ markers, m.stop ≤ byteLength input := by
  induction markers with
  | nil => exact fun m member => absurd member List.not_mem_nil
  | cons first rest ih =>
    obtain ⟨_, within, _, later⟩ := of_decide_eq_true valid
    intro m member
    cases member with
    | head => exact within
    | tail _ member => exact ih later m member

theorem Chained.le_start {m : PasteMarker} (chained : Chained i markers) (member : m ∈ markers) :
    i ≤ m.start := by
  induction markers generalizing i with
  | nil => exact absurd member List.not_mem_nil
  | cons first rest ih =>
    obtain ⟨before, filled, later⟩ := chained
    cases member with
    | head => exact before
    | tail _ member => exact before.trans (filled.le.trans (ih later member))

theorem Chained.pairwise (chained : Chained i markers) :
    markers.Pairwise fun m later => m.stop ≤ later.start := by
  induction markers generalizing i with
  | nil => exact List.Pairwise.nil
  | cons first rest ih =>
    obtain ⟨_, _, later⟩ := chained
    exact List.pairwise_cons.mpr ⟨fun m member => later.le_start member, ih later⟩

theorem Chained.nonempty {m : PasteMarker} (chained : Chained i markers) (member : m ∈ markers) :
    m.start < m.stop := by
  induction markers generalizing i with
  | nil => exact absurd member List.not_mem_nil
  | cons first rest ih =>
    obtain ⟨_, filled, later⟩ := chained
    cases member with
    | head => exact filled
    | tail _ member => exact ih later member

theorem MarkersOf.chained (fit : MarkersOf input markers) : Chained 0 markers :=
  chained_of_valid fit.valid fun m _ => Nat.zero_le m.start

theorem valid_of_fit (fit : MarkersFit input markers) : markersValid input markers = true := by
  induction markers with
  | nil => rfl
  | cons m rest ih =>
    obtain ⟨disjoint, sorted⟩ := List.pairwise_cons.mp fit.sorted
    have later := ih ⟨sorted, fun m member => fit.nonempty m (List.mem_cons_of_mem _ member),
      fun m member => fit.boundaries m (List.mem_cons_of_mem _ member)⟩
    exact decide_eq_true ⟨fit.nonempty m List.mem_cons_self,
      (fit.boundaries m List.mem_cons_self).2.le,
      fun next first => disjoint next (List.mem_of_mem_head? first), later⟩

theorem MarkersOf.fit (fit : MarkersOf input markers) : MarkersFit input markers :=
  ⟨fit.chained.pairwise, fun _ => fit.chained.nonempty, fit.boundaries⟩

/-! ### From the input to the display -/

theorem le_actualToDisplayFrom : disp ≤ actualToDisplayFrom p disp i markers := by
  induction markers generalizing disp i with
  | nil => exact Nat.le_add_right disp (p - i)
  | cons m rest ih =>
    unfold actualToDisplayFrom
    split_ifs
    · exact Nat.le_add_right disp (p - i)
    · exact (Nat.le_add_right disp (m.start - i)).trans (Nat.le_add_right _ _)
    · exact ((Nat.le_add_right disp (m.start - i)).trans (Nat.le_add_right _ _)).trans ih

theorem actualToDisplayFrom_le (le : p ≤ q) :
    actualToDisplayFrom p disp i markers ≤ actualToDisplayFrom q disp i markers := by
  induction markers generalizing disp i with
  | nil => exact Nat.add_le_add_left (Nat.sub_le_sub_right le i) disp
  | cons m rest ih =>
    have label : disp + (m.start - i) + byteLength m.label ≤
        actualToDisplayFrom q (disp + (m.start - i) + byteLength m.label) m.stop rest :=
      le_actualToDisplayFrom
    unfold actualToDisplayFrom
    -- `p` is before the marker, in it or after it, and `q` is not before `p`
    split_ifs <;> first | exact ih | omega

theorem actualToDisplayFrom_byteLength {display : List Char} (chained : Chained i markers)
    (within : ∀ m ∈ markers, m.stop ≤ byteLength input)
    (built : buildDisplayFrom input i markers = some display) :
    actualToDisplayFrom (byteLength input) disp i markers = disp + byteLength display := by
  induction markers generalizing disp i display with
  | nil =>
    obtain ⟨⟨before, after⟩, split, rfl⟩ := Option.map_eq_some_iff.mp built
    obtain ⟨rfl, rfl⟩ := splitAt_eq_some.mp split
    rw [actualToDisplayFrom, byteLength_append, Nat.add_sub_cancel_left]
  | cons m rest ih =>
    obtain ⟨_, filled, later⟩ := chained
    have stops := within m List.mem_cons_self
    obtain ⟨plain, cut, rejoins⟩ := Option.bind_eq_some_iff.mp built
    obtain ⟨shown, tail, same⟩ := Option.bind_eq_some_iff.mp rejoins
    obtain rfl := Option.some_inj.mp same
    obtain ⟨before, after, _, starts, ends⟩ := slice_eq_some.mp cut
    rw [byteLength_append, starts] at ends
    rw [actualToDisplayFrom, if_neg (Nat.not_le.mpr (filled.trans_le stops)),
      if_neg (Nat.not_lt.mpr stops),
      ih later (fun m member => within m (List.mem_cons_of_mem _ member)) tail,
      byteLength_append, byteLength_append, ← ends, Nat.add_sub_cancel_left]
    omega

/-! ### From the display to the input -/

theorem displayToActualFrom_self : displayToActualFrom disp disp i markers = i := by
  cases markers with
  | nil => rw [displayToActualFrom, Nat.sub_self, Nat.add_zero]
  | cons m rest =>
    rw [displayToActualFrom, if_pos (Nat.le_add_right disp _), Nat.sub_self, Nat.add_zero]

theorem le_displayToActualFrom (chained : Chained i markers) :
    i ≤ displayToActualFrom p disp i markers := by
  induction markers generalizing disp i with
  | nil => exact Nat.le_add_right i (p - disp)
  | cons m rest ih =>
    obtain ⟨before, filled, later⟩ := chained
    have stops := before.trans filled.le
    simp only [displayToActualFrom]
    split_ifs
    · exact Nat.le_add_right i (p - disp)
    · exact stops
    · exact stops.trans (ih later)

theorem not_inside_displayToActualFrom {m : PasteMarker} (chained : Chained i markers)
    (member : m ∈ markers) : ¬ m.Inside (displayToActualFrom p disp i markers) := by
  induction markers generalizing disp i with
  | nil => exact absurd member List.not_mem_nil
  | cons first rest ih =>
    obtain ⟨before, filled, later⟩ := chained
    simp only [displayToActualFrom]
    rintro ⟨above, below⟩
    cases member with
    | head =>
      have rest := @le_displayToActualFrom _ (disp + (m.start - i) + byteLength m.label) _ p later
      split_ifs at above below <;> omega
    | tail _ member =>
      have next := later.le_start member
      split_ifs at above below
      · omega
      · exact absurd above (Nat.not_lt.mpr next)
      · exact ih later member ⟨above, below⟩

/-- A position outside of all markers comes back. Where the last marker ends, it comes back because
the label before it takes a byte at least. -/
theorem displayToActualFrom_actualToDisplayFrom (chained : Chained i markers)
    (labelled : ∀ m ∈ markers, m.label ≠ []) (le : i ≤ p)
    (outside : ∀ m ∈ markers, ¬ m.Inside p) :
    displayToActualFrom (actualToDisplayFrom p disp i markers) disp i markers = p := by
  induction markers generalizing disp i with
  | nil => rw [actualToDisplayFrom, displayToActualFrom]; omega
  | cons m rest ih =>
    obtain ⟨before, filled, later⟩ := chained
    by_cases start : p ≤ m.start
    · rw [actualToDisplayFrom, if_pos start, displayToActualFrom, if_pos (by omega)]
      omega
    · have stop : m.stop ≤ p := by
        by_contra below
        exact outside m List.mem_cons_self ⟨Nat.not_le.mp start, Nat.not_le.mp below⟩
      have label := byteLength_pos (labelled m List.mem_cons_self)
      have back := @ih (disp + (m.start - i) + byteLength m.label) m.stop later
        (fun m member => labelled m (List.mem_cons_of_mem _ member)) stop
        fun m member => outside m (List.mem_cons_of_mem _ member)
      have shown : disp + (m.start - i) + byteLength m.label ≤
          actualToDisplayFrom p (disp + (m.start - i) + byteLength m.label) m.stop rest :=
        le_actualToDisplayFrom
      rw [actualToDisplayFrom, if_neg start, if_neg (Nat.not_lt.mpr stop), displayToActualFrom,
        if_neg (by omega)]
      split_ifs with ended
      · rw [le_antisymm ended shown, displayToActualFrom_self] at back
        exact back
      · exact back

end Laws

/-! ### Markers that keys leave -/

theorem pasteLabel_ne_nil (text : List Char) : pasteLabel text ≠ [] := by
  intro empty
  have length := congrArg List.length empty
  simp [pasteLabel, toString] at length

section Labels

variable {isAlphanumeric : Char → Bool} {e t : Editor} {markers moved : List PasteMarker}

theorem labelled_nil : Labelled [] := fun _ member => absurd member List.not_mem_nil

theorem Labelled.of_subset (labelled : Labelled markers) (subset : moved ⊆ markers) :
    Labelled moved := fun m member => labelled m (subset member)

theorem Labelled.map_moveBy (labelled : Labelled markers) (test : PasteMarker → Bool) (k : ℕ) :
    Labelled (markers.map fun m => if test m then moveBy k m else m) := by
  intro m member
  obtain ⟨old, listed, rfl⟩ := List.mem_map.mp member
  split_ifs
  · exact labelled old listed
  · exact labelled old listed

theorem Labelled.moveBackIf {test : PasteMarker → Bool} {k : ℕ} (labelled : Labelled markers)
    (moves : moveBackIf test k markers = some moved) : Labelled moved := by
  intro m member
  obtain ⟨old, listed, back⟩ := mem_of_mem_mapM moves member
  split_ifs at back
  · unfold moveBack at back
    split_ifs at back
    obtain rfl := Option.some_inj.mp back
    exact labelled old listed
  · obtain rfl := Option.some_inj.mp back
    exact labelled old listed

theorem Labelled.insertMarker {m : PasteMarker} (labelled : Labelled markers)
    (label : m.label ≠ []) : Labelled (insertMarker m markers) := by
  intro other member
  rcases List.mem_append.mp member with before | after
  · exact labelled other (List.takeWhile_subset _ before)
  · cases after with
    | head => exact label
    | tail _ after => exact labelled other (List.dropWhile_subset _ after)

namespace Editor

theorem eq_of_asserted (passes : e.asserted = some t) : t = e := by
  unfold asserted at passes
  split_ifs at passes
  exact (Option.some_inj.mp passes).symm

theorem labelled_doPaste {text : List Char} (labelled : Labelled e.pasteMarkers)
    (pasted : e.doPaste text = some t) : Labelled t.pasteMarkers := by
  obtain ⟨input, _, passes⟩ := Option.bind_eq_some_iff.mp pasted
  obtain rfl := eq_of_asserted passes
  have retained : Labelled (e.pasteMarkers.filter fun m =>
      m.stop ≤ e.cursorPos ∨ e.cursorPos ≤ m.start) :=
    labelled.of_subset (List.filter_subset_self _)
  have moved := retained.map_moveBy (fun m => e.cursorPos ≤ m.start) (byteLength text)
  simp only [decide_eq_true_eq] at moved
  show Labelled (if isLargePaste text then _ else _)
  split_ifs
  · apply moved.insertMarker
    dsimp only
    exact pasteLabel_ne_nil text
  · exact moved

theorem labelled_removeMarker {m : PasteMarker} (labelled : Labelled markers)
    (removed : e.removeMarker m markers = some t) : Labelled t.pasteMarkers := by
  obtain ⟨input, _, removed⟩ := Option.bind_eq_some_iff.mp removed
  obtain ⟨moved, moves, same⟩ := Option.bind_eq_some_iff.mp removed
  obtain rfl := Option.some_inj.mp same
  exact labelled.moveBackIf moves

theorem labelled_doDelete (labelled : Labelled e.pasteMarkers) (deleted : e.doDelete = some t) :
    Labelled t.pasteMarkers := by
  unfold doDelete at deleted
  split_ifs at deleted
  · obtain rfl := Option.some_inj.mp deleted
    exact labelled
  · split at deleted
    · obtain ⟨next, removed, passes⟩ := Option.bind_eq_some_iff.mp deleted
      obtain rfl := eq_of_asserted passes
      exact labelled_removeMarker (labelled.of_subset List.eraseP_subset) removed
    · obtain ⟨input, _, deleted⟩ := Option.bind_eq_some_iff.mp deleted
      obtain ⟨moved, moves, passes⟩ := Option.bind_eq_some_iff.mp deleted
      obtain rfl := eq_of_asserted passes
      exact labelled.moveBackIf moves

theorem labelled_doBackspace (labelled : Labelled e.pasteMarkers)
    (deleted : e.doBackspace = some t) : Labelled t.pasteMarkers := by
  unfold doBackspace at deleted
  split_ifs at deleted
  · obtain rfl := Option.some_inj.mp deleted
    exact labelled
  · split at deleted
    · obtain ⟨next, removed, passes⟩ := Option.bind_eq_some_iff.mp deleted
      obtain rfl := eq_of_asserted passes
      exact @labelled_removeMarker e next _ _ (labelled.of_subset List.eraseP_subset) removed
    · obtain ⟨input, _, deleted⟩ := Option.bind_eq_some_iff.mp deleted
      obtain ⟨moved, moves, passes⟩ := Option.bind_eq_some_iff.mp deleted
      obtain rfl := eq_of_asserted passes
      exact labelled.moveBackIf moves

theorem labelled_historyAt {idx : ℕ} (found : e.historyAt idx = some t) :
    Labelled t.pasteMarkers := by
  obtain ⟨input, _, same⟩ := Option.bind_eq_some_iff.mp found
  obtain rfl := Option.some_inj.mp same
  exact labelled_nil

theorem labelled_submit (labelled : Labelled e.pasteMarkers) : Labelled e.submit.pasteMarkers := by
  unfold submit
  split_ifs
  · exact labelled
  · exact labelled_nil

theorem labelled_handle {event : EditorEvent} (labelled : Labelled e.pasteMarkers)
    (handled : e.handle isAlphanumeric event = some t) : Labelled t.pasteMarkers := by
  -- pastes and deletions touch single markers, other keys move some of them or drop all
  cases event with
  | char c =>
    obtain ⟨input, _, passes⟩ := Option.bind_eq_some_iff.mp handled
    obtain rfl := eq_of_asserted passes
    have moved := labelled.map_moveBy (fun m => e.cursorPos ≤ m.start) c.utf8Size
    simp only [decide_eq_true_eq] at moved
    exact moved
  | paste text => exact labelled_doPaste labelled handled
  | delete => exact labelled_doDelete labelled handled
  | backspace => exact labelled_doBackspace labelled handled
  | left =>
    obtain rfl := Option.some_inj.mp handled
    unfold moveLeft
    split_ifs
    · exact labelled
    · split <;> exact labelled
  | right =>
    obtain rfl := Option.some_inj.mp handled
    unfold moveRight
    split_ifs
    · exact labelled
    · split <;> exact labelled
  | wordLeft =>
    obtain ⟨newPos, _, same⟩ := Option.bind_eq_some_iff.mp handled
    obtain rfl := Option.some_inj.mp same
    exact labelled
  | wordRight =>
    obtain ⟨newPos, _, same⟩ := Option.bind_eq_some_iff.mp handled
    obtain rfl := Option.some_inj.mp same
    exact labelled
  | home =>
    obtain rfl := Option.some_inj.mp handled
    exact labelled
  | lineEnd =>
    obtain ⟨display, _, same⟩ := Option.bind_eq_some_iff.mp handled
    obtain rfl := Option.some_inj.mp same
    exact labelled
  | up =>
    simp only [handle, historyUp] at handled
    split_ifs at handled
    · obtain rfl := Option.some_inj.mp handled
      exact labelled
    · split at handled <;> exact labelled_historyAt handled
  | down =>
    simp only [handle, historyDown] at handled
    split at handled
    · obtain rfl := Option.some_inj.mp handled
      exact labelled
    · split_ifs at handled
      · obtain rfl := Option.some_inj.mp handled
        exact labelled_nil
      · exact labelled_historyAt handled
  | enter completion =>
    obtain rfl := Option.some_inj.mp handled
    cases completion with
    | none => exact labelled_submit labelled
    | some name => exact labelled_submit labelled
  | draw width =>
    obtain rfl := Option.some_inj.mp handled
    exact labelled

end Editor

/-- Whatever keys came, also those after which the cursor is in a character, every marker has a
label. -/
theorem labelled_of_reachable {s : Option Editor}
    (reached : (editorRuns isAlphanumeric).Reachable s) : ∀ e ∈ s, Labelled e.pasteMarkers := by
  apply reached.invariant fun s => ∀ e ∈ s, Labelled e.pasteMarkers
  · rintro s ⟨inputHistory, rfl⟩ e same
    obtain rfl := Option.some_inj.mp same
    exact labelled_nil
  · intro s event next labelled _ moves t same
    obtain ⟨e, rfl, handled⟩ := Option.map_eq_some_iff.mp moves
    rw [Option.mem_def.mp same] at handled
    exact Editor.labelled_handle (labelled e rfl) handled

theorem markersOf_of_reachable
    (reached : (editorRuns isAlphanumeric).ReachableWhen Lands (some e)) :
    MarkersOf e.input e.pasteMarkers := by
  obtain ⟨_, same, consistent⟩ := intact_of_reachable isAlphanumeric _ reached
  obtain rfl := Option.some_inj.mp same
  exact ⟨valid_of_fit (markersFit_of_consistent consistent), consistent.boundaries,
    labelled_of_reachable reached.reachable e rfl⟩

/-- The cursor comes back from the display. -/
theorem displayToActual_displayCursor
    (reached : (editorRuns isAlphanumeric).ReachableWhen Lands (some e)) :
    displayToActual e.displayCursor e.pasteMarkers = e.cursorPos := by
  obtain ⟨_, same, consistent⟩ := intact_of_reachable isAlphanumeric _ reached
  obtain rfl := Option.some_inj.mp same
  have markers := markersOf_of_reachable reached
  exact displayToActualFrom_actualToDisplayFrom markers.chained markers.labelled
    (Nat.zero_le e.cursorPos) consistent.cursor_outside

end Labels

/-- The cursor behind a paste comes back. -/
theorem pasted_cursor_comes_back : ∃ e : Editor, e.cursorPos = 5 ∧
    displayToActual e.displayCursor e.pasteMarkers = e.cursorPos := by
  obtain ⟨s, reached, seen⟩ := TransitionSystem.exists_of_run? (empty_reachable Lands)
    (show ((editorRuns Char.isAlphanum).run? Lands (some (.empty []))
      [.draw 80, .char 'é', .paste "\n\n\n".toList, .char 'x', .left]).map
        (fun s => s.map Editor.cursorPos) = some (some 5) by decide +kernel)
  obtain ⟨e, rfl, cursor⟩ := Option.map_eq_some_iff.mp seen
  exact ⟨e, cursor, displayToActual_displayCursor reached⟩

/-! ### The laws together -/

/-- **Positions on display.** For every input with its markers, a position outside of all markers
comes back from the display; later positions are displayed later, and the end of the input at the
end; and no position on display stands for one inside a marker. -/
theorem display_mapping (input : List Char) (markers : List PasteMarker)
    (fit : MarkersOf input markers) :
    (∀ pos, (∀ m ∈ markers, ¬ m.Inside pos) →
      displayToActual (actualToDisplay pos markers) markers = pos) ∧
    (Monotone fun pos => actualToDisplay pos markers) ∧
    (∃ display, buildDisplay input markers = some display ∧
      actualToDisplay (byteLength input) markers = byteLength display) ∧
    ∀ dispPos, ∀ m ∈ markers, ¬ m.Inside (displayToActual dispPos markers) := by
  refine ⟨fun pos outside => ?_, fun pos later le => actualToDisplayFrom_le le, ?_,
    fun dispPos m member => not_inside_displayToActualFrom fit.chained member⟩
  · exact displayToActualFrom_actualToDisplayFrom fit.chained fit.labelled (Nat.zero_le pos) outside
  · obtain ⟨display, built⟩ := buildDisplayFrom_eq_some (isBoundary_append [] input) fit.fit
      fun m _ => Nat.zero_le m.start
    have ends := @actualToDisplayFrom_byteLength _ _ 0 _ _ fit.chained (within_of_valid fit.valid)
      built
    rw [Nat.zero_add] at ends
    exact ⟨display, built, ends⟩

def besideMarkers : List PasteMarker :=
  [⟨0, 3, pasteLabel "\n\n\n".toList⟩, ⟨3, 6, pasteLabel "\n\n\n".toList⟩]

/-- The cursor between the two pastes comes back. -/
theorem beside_comes_back : displayToActual (actualToDisplay 3 besideMarkers) besideMarkers = 3 :=
  (display_mapping "\n\n\n\n\n\né".toList besideMarkers
    ⟨by decide +kernel, by decide +kernel, fun m member => by
      simp only [besideMarkers, List.mem_cons, List.not_mem_nil, or_false] at member
      rcases member with rfl | rfl
      · dsimp only
        exact pasteLabel_ne_nil _
      · dsimp only
        exact pasteLabel_ne_nil _⟩).1 3 (by decide +kernel)

end KelvinClaw.Tui
