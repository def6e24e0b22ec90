import KelvinClaw.Core.Text
import KelvinClaw.Library.TransitionSystem
import KelvinClaw.Library.AtomicText

/-!
# The input editor of the terminal interface

The input is a text with a cursor. A large paste is kept together by a marker, which is displayed
as a label, and which the cursor does not enter. Positions are byte offsets of the UTF-8 text.
Home and End go to the ends of a row on the screen, which is counted in bytes of the displayed
text: where a character of several bytes lies across the end of a line, the cursor comes to stand
inside the character.
-/

namespace KelvinClaw.Tui

open KelvinClaw.Core Systems Systems.AtomicText

/-! ### Pastes -/

/-- A marker with its start, its end, and the label that it is displayed as. -/
abbrev PasteMarker := Span (List Char)

def pasteThresholdLines : ℕ := 3

def pasteThresholdBytes : ℕ := 200

def maxInputHistory : ℕ := 500

/-- `str::lines`, counted: a newline at the end begins no line. -/
def lineCount (text : List Char) : ℕ :=
  text.count '\n' + if text = [] ∨ text.getLast? = some '\n' then 0 else 1

def isLargePaste (text : List Char) : Bool :=
  pasteThresholdLines ≤ lineCount text ∨ pasteThresholdBytes ≤ byteLength text

/-- A number of bytes in KB with one decimal, a tie rounded to the even digit. -/
def kbText (bytes : ℕ) : String :=
  let tenths := bytes * 10 / 1024
  let rest := bytes * 10 % 1024
  let rounded := if 512 < rest ∨ rest = 512 ∧ tenths % 2 = 1 then tenths + 1 else tenths
  s!"{rounded / 10}.{rounded % 10} KB"

def pasteLabel (text : List Char) : List Char :=
  let bytes := byteLength text
  let size := if 1024 ≤ bytes then kbText bytes else s!"{bytes} B"
  s!"[pasted {lineCount text} lines · {size}]".toList

/-! ### Display -/

def slice (text : List Char) (start stop : ℕ) : Option (List Char) := do
  let (before, _) ← splitAt text stop
  let (_, found) ← splitAt before start
  return found

/-- The input from a position on, with labels in the place of markers. -/
def buildDisplayFrom (input : List Char) : ℕ → List PasteMarker → Option (List Char)
  | i, [] => (splitAt input i).map Prod.snd
  | i, m :: rest => do
    let plain ← slice input i m.start
    let later ← buildDisplayFrom input m.stop rest
    return plain ++ m.label ++ later

def buildDisplay (input : List Char) (markers : List PasteMarker) : Option (List Char) :=
  buildDisplayFrom input 0 markers

/-- `disp` and `i` are where the last marker ends, on display and in the input. -/
def actualToDisplayFrom (pos : ℕ) : ℕ → ℕ → List PasteMarker → ℕ
  | disp, i, [] => disp + (pos - i)
  | disp, i, m :: rest =>
    if pos ≤ m.start then disp + (pos - i)
    else if pos < m.stop then disp + (m.start - i) + byteLength m.label
    else actualToDisplayFrom pos (disp + (m.start - i) + byteLength m.label) m.stop rest

def actualToDisplay (pos : ℕ) (markers : List PasteMarker) : ℕ :=
  actualToDisplayFrom pos 0 0 markers

def displayToActualFrom (dispPos : ℕ) : ℕ → ℕ → List PasteMarker → ℕ
  | disp, i, [] => i + (dispPos - disp)
  | disp, i, m :: rest =>
    let before := m.start - i
    if dispPos ≤ disp + before then i + (dispPos - disp)
    else if dispPos ≤ disp + before + byteLength m.label then m.stop
    else displayToActualFrom dispPos (disp + before + byteLength m.label) m.stop rest

def displayToActual (dispPos : ℕ) (markers : List PasteMarker) : ℕ :=
  displayToActualFrom dispPos 0 0 markers

/-- The line of the prompt has room for two bytes less. -/
def visualLineStart (displayPos innerWidth : ℕ) : ℕ :=
  if innerWidth < 3 then 0
  else
    let firstCap := innerWidth - 2
    if displayPos ≤ firstCap then 0
    else firstCap + (displayPos - firstCap) / innerWidth * innerWidth

def visualLineEnd (displayPos displayLen innerWidth : ℕ) : ℕ :=
  if innerWidth < 3 then displayLen
  else
    let firstCap := innerWidth - 2
    let lineEnd :=
      if displayPos < firstCap then firstCap
      else firstCap + ((displayPos - firstCap) / innerWidth + 1) * innerWidth
    min lineEnd displayLen

/-! ### The editor -/

/-- The part of the interface that editing reads and changes. The history has the oldest input
first. -/
structure Editor where
  input : List Char
  cursorPos : ℕ
  pasteMarkers : List PasteMarker
  inputHistory : List (List Char)
  historyIdx : Option ℕ
  historySaved : List Char
  inputInnerWidth : ℕ

/-- The keys, where autocompletion is not in their way, and frames of a width that are drawn.
Enter may come with the name of a command that is completed. -/
inductive EditorEvent where
  | char (c : Char)
  | paste (text : List Char)
  | delete
  | backspace
  | left
  | right
  | wordLeft
  | wordRight
  | home
  | lineEnd
  | up
  | down
  | enter (completion : Option (List Char))
  | draw (width : ℕ)

/-- `String::insert_str`. -/
def insertStr (input : List Char) (position : ℕ) (text : List Char) : Option (List Char) :=
  (splitAt input position).map fun (before, after) => before ++ text ++ after

/-- `String::drain`. -/
def drain (input : List Char) (start stop : ℕ) : Option (List Char) := do
  let (kept, after) ← splitAt input stop
  let (before, _) ← splitAt kept start
  return before ++ after

def moveBy (length : ℕ) (m : PasteMarker) : PasteMarker :=
  ⟨m.start + length, m.stop + length, m.label⟩

def moveBack (removed : ℕ) (m : PasteMarker) : Option PasteMarker :=
  if removed ≤ m.start ∧ removed ≤ m.stop then
    some ⟨m.start - removed, m.stop - removed, m.label⟩
  else none

def moveBackIf (test : PasteMarker → Bool) (removed : ℕ) (markers : List PasteMarker) :
    Option (List PasteMarker) :=
  markers.mapM fun m => if test m then moveBack removed m else some m

/-- `assert_markers_valid`. -/
def markersValid (input : List Char) : List PasteMarker → Bool
  | [] => true
  | m :: rest =>
    m.start < m.stop ∧ m.stop ≤ byteLength input ∧ (∀ later ∈ rest.head?, m.stop ≤ later.start) ∧
      markersValid input rest

/-- `slice::partition_point`, for markers with those that pass the test first. -/
def insertMarker (m : PasteMarker) (markers : List PasteMarker) : List PasteMarker :=
  markers.takeWhile (fun other => other.start < m.start) ++
    m :: markers.dropWhile (fun other => other.start < m.start)

namespace Editor

variable (isAlphanumeric : Char → Bool) (e : Editor)

def asserted : Option Editor := if markersValid e.input e.pasteMarkers then some e else none

def doPaste (text : List Char) : Option Editor := do
  let retained := e.pasteMarkers.filter fun m => m.stop ≤ e.cursorPos ∨ e.cursorPos ≤ m.start
  let start := e.cursorPos
  let len := byteLength text
  let input ← insertStr e.input start text
  let moved := retained.map fun m => if start ≤ m.start then moveBy len m else m
  let markers :=
    if isLargePaste text then insertMarker ⟨start, start + len, pasteLabel text⟩ moved else moved
  asserted { e with input, pasteMarkers := markers, cursorPos := start + len }

def removeMarker (m : PasteMarker) (others : List PasteMarker) : Option Editor := do
  let input ← drain e.input m.start m.stop
  let markers ← moveBackIf (fun later => m.stop ≤ later.start) (m.stop - m.start) others
  return { e with input, pasteMarkers := markers }

def doDelete : Option Editor :=
  if byteLength e.input ≤ e.cursorPos then some e
  else
    match e.pasteMarkers.find? fun m => m.start = e.cursorPos with
    | some m => do
      let others := e.pasteMarkers.eraseP fun m => m.start = e.cursorPos
      asserted (← e.removeMarker m others)
    | none => do
      let next := ceilBoundary e.input (byteLength e.input - (e.cursorPos + 1)) (e.cursorPos + 1)
      let input ← drain e.input e.cursorPos next
      let markers ← moveBackIf (fun m => e.cursorPos < m.start) (next - e.cursorPos)
        e.pasteMarkers
      asserted { e with input, pasteMarkers := markers }

def doBackspace : Option Editor :=
  if e.cursorPos = 0 then some e
  else
    match e.pasteMarkers.find? fun m => m.stop = e.cursorPos with
    | some m => do
      let others := e.pasteMarkers.eraseP fun m => m.stop = e.cursorPos
      let removed ← e.removeMarker m others
      asserted { removed with cursorPos := m.start }
    | none => do
      let prev := floorBoundary e.input (e.cursorPos - 1)
      let input ← drain e.input prev e.cursorPos
      let markers ← moveBackIf (fun m => prev < m.start) (e.cursorPos - prev) e.pasteMarkers
      asserted { e with input, pasteMarkers := markers, cursorPos := prev }

def moveLeft : Editor :=
  if e.cursorPos = 0 then e
  else
    match e.pasteMarkers.find? fun m => m.stop = e.cursorPos with
    | some m => { e with cursorPos := m.start }
    | none => { e with cursorPos := floorBoundary e.input (e.cursorPos - 1) }

def moveRight : Editor :=
  if byteLength e.input ≤ e.cursorPos then e
  else
    match e.pasteMarkers.find? fun m => m.start = e.cursorPos with
    | some m => { e with cursorPos := m.stop }
    | none =>
      { e with
        cursorPos :=
          ceilBoundary e.input (byteLength e.input - (e.cursorPos + 1)) (e.cursorPos + 1) }

def insertChar (c : Char) : Option Editor := do
  let markers := e.pasteMarkers.map fun m =>
    if e.cursorPos ≤ m.start then moveBy c.utf8Size m else m
  let input ← insertStr e.input e.cursorPos [c]
  asserted { e with input, pasteMarkers := markers, cursorPos := e.cursorPos + c.utf8Size }

/-! ### Words -/

def isWordChar (c : Char) : Bool := isAlphanumeric c || c = '_'

def wordLeft (text : List Char) (pos : ℕ) : Option ℕ := do
  let (before, _) ← splitAt text pos
  let gap := before.reverse.takeWhile fun c => !isWordChar isAlphanumeric c
  let current := pos - byteLength gap
  let (before, _) ← splitAt text current
  let word := before.reverse.takeWhile (isWordChar isAlphanumeric)
  return current - byteLength word

def wordRight (text : List Char) (pos : ℕ) : Option ℕ := do
  let (_, after) ← splitAt text pos
  let current := pos + byteLength (after.takeWhile fun c => !isWordChar isAlphanumeric c)
  let (_, after) ← splitAt text current
  return current + byteLength (after.takeWhile (isWordChar isAlphanumeric))

/-- The end of a marker that a position is inside of, or the position. -/
def snap (edge : PasteMarker → ℕ) (pos : ℕ) : ℕ :=
  (e.pasteMarkers.find? fun m => m.Inside pos).elim pos edge

def moveWordLeft : Option Editor := do
  let newPos ← wordLeft isAlphanumeric e.input e.cursorPos
  return { e with cursorPos := e.snap Span.start newPos }

def moveWordRight : Option Editor := do
  let newPos ← wordRight isAlphanumeric e.input e.cursorPos
  return { e with cursorPos := e.snap Span.stop newPos }

/-! ### Lines and history -/

def displayCursor : ℕ := actualToDisplay e.cursorPos e.pasteMarkers

def moveHome : Editor :=
  let dispStart := visualLineStart e.displayCursor e.inputInnerWidth
  { e with cursorPos := displayToActual dispStart e.pasteMarkers }

def moveEnd : Option Editor := do
  let display ← buildDisplay e.input e.pasteMarkers
  let dispEnd := visualLineEnd e.displayCursor (byteLength display) e.inputInnerWidth
  return { e with cursorPos := displayToActual dispEnd e.pasteMarkers }

def replaceInput (input : List Char) : Editor :=
  { e with input, pasteMarkers := [], cursorPos := byteLength input }

def historyAt (idx : ℕ) : Option Editor := do
  let input ← e.inputHistory[idx]?
  return { e with historyIdx := some idx }.replaceInput input

def historyUp : Option Editor :=
  if e.inputHistory = [] then some e
  else
    match e.historyIdx with
    | none => historyAt { e with historySaved := e.input } (e.inputHistory.length - 1)
    | some i => e.historyAt (i - 1)

def historyDown : Option Editor :=
  match e.historyIdx with
  | none => some e
  | some i =>
    if e.inputHistory.length ≤ i + 1 then
      some ({ e with historyIdx := none }.replaceInput e.historySaved)
    else e.historyAt (i + 1)

/-- An input that is not blank goes to the history, and the editor is empty. -/
def submit : Editor :=
  if e.input.all isWhitespace then e
  else
    let history := e.inputHistory ++ [e.input]
    { e with
      input := []
      cursorPos := 0
      pasteMarkers := []
      inputHistory := history.drop (history.length - maxInputHistory)
      historyIdx := none
      historySaved := [] }

def enter : Option (List Char) → Editor
  | none => e.submit
  | some name => submit { e with input := '/' :: name, cursorPos := byteLength ('/' :: name) }

def handle : EditorEvent → Option Editor
  | .char c => e.insertChar c
  | .paste text => e.doPaste text
  | .delete => e.doDelete
  | .backspace => e.doBackspace
  | .left => some e.moveLeft
  | .right => some e.moveRight
  | .wordLeft => e.moveWordLeft isAlphanumeric
  | .wordRight => e.moveWordRight isAlphanumeric
  | .home => some e.moveHome
  | .lineEnd => e.moveEnd
  | .up => e.historyUp
  | .down => e.historyDown
  | .enter completion => some (e.enter completion)
  | .draw width => some { e with inputInnerWidth := width - 2 }

def empty (inputHistory : List (List Char)) : Editor := ⟨[], 0, [], inputHistory, none, [], 0⟩

/-! ### Runs -/

/-- The cursor is between two characters of the input and in no marker; the markers are sorted,
disjoint and not empty, and begin and end between two characters of the input. -/
structure Consistent : Prop where
  cursor_le : e.cursorPos ≤ byteLength e.input
  cursor_boundary : IsBoundary e.input e.cursorPos
  cursor_outside : ∀ m ∈ e.pasteMarkers, ¬ m.Inside e.cursorPos
  sorted : e.pasteMarkers.Pairwise fun m later => m.stop ≤ later.start
  nonempty : ∀ m ∈ e.pasteMarkers, m.start < m.stop
  within : ∀ m ∈ e.pasteMarkers, m.stop ≤ byteLength e.input
  boundaries : ∀ m ∈ e.pasteMarkers, IsBoundary e.input m.start ∧ IsBoundary e.input m.stop

def displayInput : List Char := (buildDisplay e.input e.pasteMarkers).getD []

end Editor

/-- The position on display is in a label, and at neither of its ends. -/
def InLabel (dispPos : ℕ) : ℕ → ℕ → List PasteMarker → Prop
  | _, _, [] => False
  | disp, i, m :: rest =>
    disp + (m.start - i) < dispPos ∧
        dispPos < disp + (m.start - i) + byteLength m.label ∨
      InLabel dispPos (disp + (m.start - i) + byteLength m.label) m.stop rest

instance InLabel.decidable (dispPos : ℕ) :
    ∀ disp i markers, Decidable (InLabel dispPos disp i markers)
  | _, _, [] => inferInstanceAs (Decidable False)
  | disp, i, m :: rest =>
    have := InLabel.decidable dispPos (disp + (m.start - i) + byteLength m.label) m.stop rest
    inferInstanceAs (Decidable (_ ∨ _))

/-- The byte of the display at which a row on the screen ends and the next one begins. -/
def rowOffset (innerWidth row : ℕ) : ℕ := innerWidth - 2 + row * innerWidth

namespace Editor

variable (e : Editor)

def shownBefore : ℕ :=
  match splitAt e.input e.cursorPos with
  | some (before, _) =>
    byteLength
      ((buildDisplay before (e.pasteMarkers.filter fun m => m.stop ≤ e.cursorPos)).getD [])
  | none => 0

def Cuts (offset : ℕ) : Prop :=
  ¬ InLabel offset 0 0 e.pasteMarkers ∧ ∃ before c after,
    e.displayInput = before ++ c :: after ∧ LiesAcross before c offset

/-- Home comes where no character lies across the beginning of the row of the cursor, and End where
none lies across the end of it. -/
def LandsOnCharacter : EditorEvent → Prop
  | .home => 3 ≤ e.inputInnerWidth → ∀ row, rowOffset e.inputInnerWidth row < e.shownBefore →
      e.shownBefore < rowOffset e.inputInnerWidth row + e.inputInnerWidth →
        ¬ e.Cuts (rowOffset e.inputInnerWidth row)
  | .lineEnd => 3 ≤ e.inputInnerWidth → ∀ row, e.shownBefore < rowOffset e.inputInnerWidth row →
      rowOffset e.inputInnerWidth row ≤ e.shownBefore + e.inputInnerWidth →
        ¬ e.Cuts (rowOffset e.inputInnerWidth row)
  | _ => True

end Editor

def editorRuns (isAlphanumeric : Char → Bool) : TransitionSystem (Option Editor) EditorEvent where
  init s := ∃ inputHistory, s = some (.empty inputHistory)
  step s event := s.map fun e => e.handle isAlphanumeric event

/-- No key has led to a panic, and the cursor and the markers are where they have to be. -/
def Intact (s : Option Editor) : Prop := ∃ e, s = some e ∧ e.Consistent

def Lands (s : Option Editor) (event : EditorEvent) : Prop := ∀ e ∈ s, e.LandsOnCharacter event

end KelvinClaw.Tui
