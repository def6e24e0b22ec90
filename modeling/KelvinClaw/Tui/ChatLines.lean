import KelvinClaw.Library.Lines
import KelvinClaw.Tui.InputBox
import KelvinClaw.Tui.Transcript

/-!
# The lines of the chat

The chat is shown as content lines, each of which takes as many rows as its width needs. A line has
a prefix and a text, and a selection goes from a column of a line to a column of another one. The
part of a line that is selected is highlighted.

Colours are left out, and of a highlighted span only that it is. Chat messages stand here in the
order in which they are shown.
-/

namespace KelvinClaw.Tui

open KelvinClaw.Core Systems Systems.AtomicText

/-- The columns that characters and texts take on the screen. A character takes no more columns than
its encoding has bytes. -/
structure UnicodeWidth where
  char : Char → ℕ
  text : List Char → ℕ
  char_le : ∀ c, char c ≤ c.utf8Size

/-! ### Inline markdown -/

/-- `str::find`, counted in characters. -/
def findText (pattern : List Char) : List Char → Option ℕ
  | [] => if pattern = [] then some 0 else none
  | c :: rest =>
    if pattern.isPrefixOf (c :: rest) then some 0 else (findText pattern rest).map (· + 1)

/-- The first delimiter, and the longest one there, with its place and its length. -/
def firstDelimiter (remaining : List Char) : Option (ℕ × ℕ) :=
  ["***".toList, "**".toList, "*".toList].foldl
    (fun best delim =>
      match findText delim remaining with
      | none => best
      | some pos =>
        match best with
        | none => some (pos, delim.length)
        | some (bestPos, bestLen) =>
          if pos < bestPos ∨ pos = bestPos ∧ bestLen < delim.length then some (pos, delim.length)
          else best)
    none

/-- What a delimiter makes of the text after it: a span, and what remains. A pair with nothing
inside, and a delimiter that is not closed, are taken literally. -/
def closeDelimiter (delim afterOpen : List Char) : List Char × List Char :=
  match findText delim afterOpen with
  | none => (delim, afterOpen)
  | some closePos =>
    let inner := afterOpen.take closePos
    (if inner = [] then delim ++ delim else inner, afterOpen.drop (closePos + delim.length))

/-- The spans and the plain text. Each step takes a character at least. -/
def parseInlineMarkdownFrom : ℕ → List Char → List (List Char) × List Char
  | 0, _ => ([], [])
  | steps + 1, remaining =>
    if remaining = [] then ([], [])
    else
      match firstDelimiter remaining with
      | none => ([remaining], remaining)
      | some (pos, delimLen) =>
        let before := remaining.take pos
        let closed := closeDelimiter ((remaining.drop pos).take delimLen)
          (remaining.drop (pos + delimLen))
        let rest := parseInlineMarkdownFrom steps closed.2
        ((if 0 < pos then [before] else []) ++ closed.1 :: rest.1, before ++ closed.1 ++ rest.2)

def parseInlineMarkdown (src : List Char) : List (List Char) × List Char :=
  parseInlineMarkdownFrom src.length src

/-! ### Content lines -/

structure ChatLineInfo where
  prefixWidth : ℕ
  isSeparator : Bool
  deriving DecidableEq, Repr

/-- A content line, with its metadata and its text. -/
structure ChatLine where
  spans : List (List Char)
  info : ChatLineInfo
  text : List Char
  deriving DecidableEq, Repr

def separatorLine (innerWidth : ℕ) : ChatLine :=
  ⟨[List.replicate innerWidth '─'], ⟨innerWidth, true⟩, []⟩

def spacerLine : ChatLine := ⟨[], ⟨0, false⟩, []⟩

/-- The lines of a message that are not blank, or a blank one. -/
def sourceLines (text : String) : List (List Char) :=
  let filled := (lines text.toList).filter fun line => trimChars line ≠ []
  if filled = [] then [[]] else filled

/-- The lines of a user or of an assistant, the first one with a mark in front of it. -/
def markedLines (mark : List Char) : List (List Char) → List ChatLine
  | [] => []
  | line :: rest =>
    let (spans, plain) := parseInlineMarkdown line
    ⟨mark :: spans, ⟨2, false⟩, plain⟩ :: markedLines "  ".toList rest

def plainLine (text : List Char) : ChatLine := ⟨[text], ⟨0, false⟩, text⟩

def messageLines : ChatMessage → List ChatLine
  | .user text => markedLines "> ".toList (sourceLines text)
  | .assistant text _ => markedLines "● ".toList (sourceLines text)
  | .system text =>
    let srcLines := lines text.toList
    (if srcLines = [] then [[]] else srcLines).map plainLine
  | .toolCall toolName _ _ => [plainLine s!"  ⚙ {toolName}".toList]

def isTool : ChatMessage → Bool
  | .toolCall .. => true
  | _ => false

def linesBetween (innerWidth : ℕ) (before msg : ChatMessage) : List ChatLine :=
  if !isTool before ∧ !isTool msg then [separatorLine innerWidth, spacerLine] else []

def laterLines (innerWidth : ℕ) : ChatMessage → List ChatMessage → List ChatLine
  | _, [] => [separatorLine innerWidth]
  | before, msg :: rest =>
    linesBetween innerWidth before msg ++ messageLines msg ++ laterLines innerWidth msg rest

def chatLines (innerWidth : ℕ) : List ChatMessage → List ChatLine
  | [] => []
  | msg :: rest => messageLines msg ++ laterLines innerWidth msg rest

/-! ### Positions on the screen -/

section Screen

variable (w : UnicodeWidth)

def ChatLine.width (line : ChatLine) : ℕ := (line.spans.map w.text).sum

def visualRows (innerWidth : ℕ) (line : ChatLine) : ℕ :=
  if innerWidth = 0 ∨ line.width w = 0 then 1 else (line.width w + (innerWidth - 1)) / innerWidth

def lineMap (innerWidth : ℕ) (chat : List ChatLine) : List (ℕ × ℕ) :=
  chat.zipIdx.flatMap fun (line, idx) =>
    (List.range (visualRows w innerWidth line)).map fun sub => (idx, sub * innerWidth)

end Screen

structure ChatPos where
  lineIdx : ℕ
  col : ℕ
  deriving DecidableEq, Repr

/-- What the last frame left for the mouse. -/
structure ChatView where
  area : Rect
  chatLineMap : List (ℕ × ℕ)
  pinned : Bool
  scroll : ℕ
  maxScroll : ℕ
  deriving DecidableEq, Repr

def inRect (col row : ℕ) (r : Rect) : Bool :=
  r.x ≤ col ∧ col < r.x + r.width ∧ r.y ≤ row ∧ row < r.y + r.height

def screenToChatPos (view : ChatView) (col row : ℕ) : Option ChatPos := do
  let innerX := view.area.x + 1
  let innerY := view.area.y + 1
  if col < innerX ∨ row < innerY then none
  else
    let scroll := if view.pinned then view.maxScroll else min view.scroll view.maxScroll
    let (lineIdx, charStartCol) ← view.chatLineMap[row - innerY + scroll]?
    some ⟨lineIdx, charStartCol + (col - innerX)⟩

/-! ### Selections -/

inductive SelectionTarget where
  | chat
  | tools
  deriving DecidableEq, Repr

structure Selection where
  target : SelectionTarget
  anchor : ChatPos
  extent : ChatPos
  deriving DecidableEq, Repr

def Selection.normalized (sel : Selection) : ChatPos × ChatPos :=
  if sel.anchor.lineIdx < sel.extent.lineIdx ∨
      sel.anchor.lineIdx = sel.extent.lineIdx ∧ sel.anchor.col ≤ sel.extent.col then
    (sel.anchor, sel.extent)
  else (sel.extent, sel.anchor)

def highlightColumns (lineCount : ℕ) (sel : Selection) (idx : ℕ) : Option (ℕ × ℕ) :=
  let (start, stop) := sel.normalized
  if sel.target = .chat ∧ start.lineIdx < lineCount then
    let endIdx := min stop.lineIdx (lineCount - 1)
    if start.lineIdx ≤ idx ∧ idx ≤ endIdx then
      some (if idx = start.lineIdx then start.col else 0,
        if idx = endIdx then stop.col else usizeMax)
    else none
  else none

section Highlight

variable (w : UnicodeWidth)

def spanDisplayWidth (s : List Char) : ℕ := (s.map w.char).sum

/-- Split a text at a column, when some columns are behind. -/
def splitAtColFrom (col : ℕ) : ℕ → List Char → List Char × List Char
  | _, [] => ([], [])
  | width, c :: rest =>
    if col ≤ width then ([], c :: rest)
    else
      let (before, after) := splitAtColFrom col (width + w.char c) rest
      (c :: before, after)

def splitAtCol (s : List Char) (col : ℕ) : List Char × List Char := splitAtColFrom w col 0 s

def spanIfFilled (content : List Char) (highlighted : Bool) : List (List Char × Bool) :=
  if content = [] then [] else [(content, highlighted)]

/-- A difference that wraps around, as in a release build: a selection that was made on other lines
may end before it begins. -/
def wrappingSub (a b : ℕ) : ℕ := (a + (usizeMax + 1) - b) % (usizeMax + 1)

def splitWithHighlight (selStart selEnd : ℕ) : ℕ → List (List Char) → List (List Char × Bool)
  | _, [] => []
  | offset, content :: rest =>
    let spanEnd := offset + spanDisplayWidth w content
    (if selEnd ≤ offset ∨ spanEnd ≤ selStart then [(content, false)]
      else
        let localStart := selStart - offset
        let localEnd := min selEnd spanEnd - offset
        let (before, rest) := splitAtCol w content localStart
        let (mid, after) := splitAtCol w rest (wrappingSub localEnd localStart)
        spanIfFilled before false ++ spanIfFilled mid true ++ spanIfFilled after false) ++
      splitWithHighlight selStart selEnd spanEnd rest

def applyHighlight (spans : List (List Char)) (selStart selEnd : ℕ) : List (List Char × Bool) :=
  if selStart = 0 ∧ selEnd = usizeMax then spans.map (·, true)
  else splitWithHighlight w selStart selEnd 0 spans

def highlightLine (lineCount : ℕ) (sel : Selection) (idx : ℕ) (line : ChatLine) :
    List (List Char × Bool) :=
  match highlightColumns lineCount sel idx with
  | none => line.spans.map (·, false)
  | some (selStart, selEnd) => applyHighlight w line.spans selStart selEnd

end Highlight

/-! ### Searches -/

theorem findText_isSome {pattern text : List Char} (contains : pattern <:+: text) :
    (findText pattern text).isSome := by
  obtain ⟨before, after, rfl⟩ := contains
  rw [List.append_assoc]
  induction before with
  | nil =>
    rw [List.nil_append]
    cases text : pattern ++ after with
    | nil => rw [findText, if_pos (List.append_eq_nil_iff.mp text).1, Option.isSome_some]
    | cons c rest =>
      rw [findText, if_pos, Option.isSome_some]
      rw [← text, List.isPrefixOf_iff_prefix]
      exact List.prefix_append pattern after
  | cons c rest ih =>
    rw [List.cons_append, findText]
    split_ifs with here
    · rfl
    · rwa [Option.isSome_map]

theorem append_of_findText {pattern text : List Char} {pos : ℕ}
    (found : findText pattern text = some pos) :
    text.take pos ++ pattern ++ text.drop (pos + pattern.length) = text := by
  induction text generalizing pos with
  | nil =>
    rw [findText] at found
    split_ifs at found with empty
    rw [empty, List.take_nil, List.drop_nil]
    rfl
  | cons c rest ih =>
    rw [findText] at found
    split_ifs at found with here
    · obtain rfl := Option.some_inj.mp found
      rw [List.take_zero, List.nil_append, Nat.zero_add]
      exact List.prefix_iff_eq_append.mp (List.isPrefixOf_iff_prefix.mp here)
    · obtain ⟨later, further, rfl⟩ := Option.map_eq_some_iff.mp found
      rw [Nat.add_right_comm, List.take_succ_cons, List.drop_succ_cons]
      exact congrArg (c :: ·) (ih further)

theorem findText_eq_none {pattern text : List Char} {c : Char} (delimiter : c ∈ pattern)
    (free : c ∉ text) : findText pattern text = none := by
  cases found : findText pattern text with
  | none => rfl
  | some pos =>
    refine absurd ?_ free
    rw [← append_of_findText found]
    exact List.mem_append_left _ (List.mem_append_right _ delimiter)

/-! ### What lines are made of -/

theorem spans_parseInlineMarkdown (src : List Char) :
    (parseInlineMarkdown src).1.flatten = (parseInlineMarkdown src).2 := by
  suffices steps : ∀ n remaining, (parseInlineMarkdownFrom n remaining).1.flatten =
      (parseInlineMarkdownFrom n remaining).2 from steps _ _
  intro n
  induction n with
  | zero => exact fun _ => rfl
  | succ n ih =>
    intro remaining
    rw [parseInlineMarkdownFrom]
    by_cases empty : remaining = []
    · rw [if_pos empty]
      rfl
    · rw [if_neg empty]
      cases firstDelimiter remaining with
      | none => simp
      | some found =>
        obtain ⟨pos, delimLen⟩ := found
        simp only [List.flatten_append, List.flatten_cons, ih, List.append_assoc]
        by_cases start : 0 < pos
        · rw [if_pos start]
          simp
        · rw [if_neg start]
          simp [Nat.eq_zero_of_not_pos start]

def ChatLine.Prefixed (line : ChatLine) : Prop :=
  ∃ mark, line.spans.flatten = mark ++ line.text ∧ mark.length = line.info.prefixWidth

theorem prefixed_markedLines {mark : List Char} (two : mark.length = 2) (src : List (List Char)) :
    ∀ line ∈ markedLines mark src, line.Prefixed := by
  induction src generalizing mark with
  | nil => exact List.forall_mem_nil _
  | cons line rest ih =>
    refine List.forall_mem_cons.mpr ⟨⟨mark, ?_, two⟩, ih rfl⟩
    exact congrArg (mark ++ ·) (spans_parseInlineMarkdown line)

theorem prefixed_plainLine (text : List Char) : (plainLine text).Prefixed :=
  ⟨[], List.append_nil text, rfl⟩

theorem prefixed_messageLines (msg : ChatMessage) : ∀ line ∈ messageLines msg, line.Prefixed := by
  cases msg with
  | user text => exact prefixed_markedLines rfl _
  | assistant text _ => exact prefixed_markedLines rfl _
  | system text =>
    intro line member
    obtain ⟨src, -, rfl⟩ := List.mem_map.mp member
    exact prefixed_plainLine src
  | toolCall toolName _ _ =>
    exact List.forall_mem_singleton.mpr (prefixed_plainLine _)

/-- The spans of a line are its prefix and its text. -/
theorem spans_chatLines {innerWidth : ℕ} {chat : List ChatMessage} {line : ChatLine}
    (member : line ∈ chatLines innerWidth chat) (filled : line.info.isSeparator = false) :
    line.Prefixed := by
  have later (before : ChatMessage) (rest : List ChatMessage) :
      ∀ line ∈ laterLines innerWidth before rest, line.info.isSeparator = false →
        line.Prefixed := by
    induction rest generalizing before with
    | nil =>
      intro line member filled
      rw [List.mem_singleton.mp member] at filled
      cases filled
    | cons msg rest ih =>
      intro line member filled
      rcases List.mem_append.mp member with inMessage | inRest
      · rcases List.mem_append.mp inMessage with between | inMessage
        · rw [linesBetween] at between
          split_ifs at between
          · rcases List.mem_cons.mp between with rfl | spacer
            · cases filled
            · rw [List.mem_singleton.mp spacer]
              exact ⟨[], rfl, rfl⟩
          · cases between
        · exact prefixed_messageLines msg line inMessage
      · exact ih msg line inRest filled
  cases chat with
  | nil => cases member
  | cons msg rest =>
    rcases List.mem_append.mp member with inMessage | inRest
    · exact prefixed_messageLines msg line inMessage
    · exact later msg rest line inRest filled

theorem bold_line_prefixed : ChatLine.Prefixed ⟨["> ".toList, ['b']], ⟨2, false⟩, ['b']⟩ := by
  have member : (⟨["> ".toList, ['b']], ⟨2, false⟩, ['b']⟩ : ChatLine) ∈
      chatLines 20 [.user "**b**"] := by
    decide +kernel
  exact spans_chatLines member rfl

section Highlight

variable {w : UnicodeWidth}

theorem splitAtCol_append (s : List Char) (col : ℕ) :
    (splitAtCol w s col).1 ++ (splitAtCol w s col).2 = s := by
  suffices widths : ∀ width, (splitAtColFrom w col width s).1 ++ (splitAtColFrom w col width s).2 =
      s from widths 0
  induction s with
  | nil => exact fun _ => rfl
  | cons c rest ih =>
    intro width
    rw [splitAtColFrom]
    split
    · rfl
    · exact congrArg (c :: ·) (ih _)

theorem text_spanIfFilled (content : List Char) (highlighted : Bool) :
    (spanIfFilled content highlighted).flatMap Prod.fst = content := by
  rw [spanIfFilled]
  split
  · next empty => exact empty.symm
  · exact List.append_nil content

theorem text_splitWithHighlight (selStart selEnd offset : ℕ) (spans : List (List Char)) :
    (splitWithHighlight w selStart selEnd offset spans).flatMap Prod.fst = spans.flatten := by
  induction spans generalizing offset with
  | nil => rfl
  | cons content rest ih =>
    rw [splitWithHighlight, List.flatMap_append, ih, List.flatten_cons]
    congr 1
    split
    · exact List.append_nil content
    · simp only [List.flatMap_append, text_spanIfFilled, splitAtCol_append, List.append_assoc]

/-- A line that is highlighted has the same text. -/
theorem text_highlightLine (lineCount : ℕ) (sel : Selection) (idx : ℕ) (line : ChatLine) :
    (highlightLine w lineCount sel idx line).flatMap Prod.fst = line.spans.flatten := by
  have marked (highlighted : Bool) :
      (line.spans.map (·, highlighted)).flatMap Prod.fst = line.spans.flatten := by
    rw [List.flatMap_map]
    exact List.flatMap_id
  rw [highlightLine]
  cases highlightColumns lineCount sel idx with
  | none => exact marked false
  | some columns =>
    obtain ⟨selStart, selEnd⟩ := columns
    change (applyHighlight w line.spans selStart selEnd).flatMap Prod.fst = _
    rw [applyHighlight]
    split
    · exact marked true
    · exact text_splitWithHighlight _ _ _ _

end Highlight

end KelvinClaw.Tui
