import KelvinClaw.Tui.ChatLines

/-!
# Copying from the chat

A selection that ends at column 0 of a line ends before that line, and the line before it is the
last one that is copied. But the column where the selection ends is still taken for a column of the
last line, so nothing of that line is copied; and the line need not be there any more, which panics.
-/

namespace KelvinClaw.Tui

open KelvinClaw.Core Systems Systems.AtomicText

/-! ### The copied text -/

section Copy

variable (w : UnicodeWidth)

/-- The byte of a text at a column, when some bytes and columns are behind. -/
def displayColToByteFrom (col : ℕ) : ℕ → ℕ → List Char → ℕ
  | byteIdx, _, [] => byteIdx
  | byteIdx, width, c :: rest =>
    if col ≤ width then byteIdx
    else displayColToByteFrom col (byteIdx + c.utf8Size) (width + w.char c) rest

def displayColToByte (s : List Char) (col : ℕ) : ℕ := displayColToByteFrom w col 0 0 s

/-- The part of a line between two columns. An end in the prefix stands for the end of the line. -/
def copySlice (line : ChatLine) (selStart selEnd : ℕ) : Option (List Char) :=
  let clean := line.text
  let textStart := selStart - line.info.prefixWidth
  let textEnd :=
    if selEnd = usizeMax then byteLength clean
    else
      let t := selEnd - line.info.prefixWidth
      if t = 0 ∧ 0 < selEnd then byteLength clean else t
  let byteStart := displayColToByte w clean textStart
  let byteEnd := min (max (displayColToByte w clean textEnd) byteStart) (byteLength clean)
  slice clean byteStart byteEnd

/-- A part goes on a line of its own, unless nothing is before it. -/
def appendPart (result part : List Char) : List Char :=
  (if result = [] then [] else result ++ ['\n']) ++ part

def copyEnd (lineCount : ℕ) (start stop : ChatPos) : ℕ :=
  if stop.col = 0 ∧ start.lineIdx < stop.lineIdx then stop.lineIdx - 1
  else min stop.lineIdx (lineCount - 1)

section Lines

variable (chat : List ChatLine) (start stop : ChatPos)

def copyPart (idx : ℕ) (line : ChatLine) : Option (List Char) :=
  copySlice w line (if idx = start.lineIdx then start.col else 0)
    (if idx = copyEnd chat.length start stop then stop.col else usizeMax)

def copyLines : List ℕ → List Char → Option (List Char)
  | [], result => some result
  | idx :: rest, result => do
    let line ← chat[idx]?
    if line.info.isSeparator then copyLines rest result
    else
      let part ← copyPart w chat start stop idx line
      copyLines rest (appendPart result part)

def copyRange : List ℕ :=
  List.range' start.lineIdx (copyEnd chat.length start stop + 1 - start.lineIdx)

end Lines

def phaseText : ToolPhase → String
  | .start => "running"
  | .finish => "done"
  | .error => "error"

def toolText (entry : ToolEntry) : String :=
  let summary := entry.summary.getD ""
  let duration := entry.endedMs.elim "..." fun stop => s!"{stop - entry.startedMs}ms"
  "\t".intercalate [entry.toolName, phaseText entry.phase, summary, duration]

def extractSelectedText (chat : List ChatLine) (tools : List ToolEntry) :
    Option Selection → Option (List Char)
  | none => some []
  | some sel =>
    match sel.target with
    | .tools => some ((tools[sel.anchor.lineIdx]?.map toolText).getD "").toList
    | .chat =>
      let (start, stop) := sel.normalized
      if chat.length ≤ start.lineIdx then some []
      else copyLines w chat start stop (copyRange chat start stop) []

end Copy

/-! ### Selections that the mouse makes -/

def ShowsChat (w : UnicodeWidth) (view : ChatView) : Prop :=
  ∃ innerWidth chat, view.chatLineMap = lineMap w innerWidth (chatLines innerWidth chat)

/-- A button is pressed on a frame, and the mouse is dragged on later frames. -/
inductive MadeByMouse (w : UnicodeWidth) : Selection → Prop
  | pressed {view : ChatView} {col row : ℕ} {pos : ChatPos} (shows : ShowsChat w view)
    (inside : inRect col row view.area = true)
    (found : screenToChatPos view col row = some pos) : MadeByMouse w ⟨.chat, pos, pos⟩
  | dragged {sel : Selection} {view : ChatView} {col row : ℕ} {pos : ChatPos}
    (made : MadeByMouse w sel) (inChat : sel.target = .chat) (shows : ShowsChat w view)
    (inside : inRect col row view.area = true)
    (found : screenToChatPos view col row = some pos) : MadeByMouse w { sel with extent := pos }
  | tool (row : ℕ) : MadeByMouse w ⟨.tools, ⟨row, 0⟩, ⟨row, usizeMax⟩⟩

/-! ### What should be copied -/

def Selection.EndsBeforeLine (sel : Selection) : Prop :=
  sel.normalized.2.col = 0 ∧ sel.normalized.1.lineIdx < sel.normalized.2.lineIdx

/-- The line lies completely inside a selection that ends at column 0 of a later line. -/
def Selection.InsideWhole (sel : Selection) (idx : ℕ) : Prop :=
  (sel.normalized.1.lineIdx < idx ∨ idx = sel.normalized.1.lineIdx ∧ sel.normalized.1.col = 0) ∧
    idx < sel.normalized.2.lineIdx

def selectedParts (w : UnicodeWidth) (chat : List ChatLine) (start stop : ChatPos) :
    List ℕ → Option (List (ℕ × List Char))
  | [] => some []
  | idx :: rest => do
    let line ← chat[idx]?
    if line.info.isSeparator then selectedParts w chat start stop rest
    else
      let part ← copyPart w chat start stop idx line
      let later ← selectedParts w chat start stop rest
      return (idx, part) :: later

def Selection.range (sel : Selection) (chat : List ChatLine) : List ℕ :=
  if chat.length ≤ sel.normalized.1.lineIdx then []
  else copyRange chat sel.normalized.1 sel.normalized.2

/-- Nothing panics. If a selection of the chat ends at column 0 of a later line, the parts that are
copied have the whole text of each line that lies completely inside. -/
def CopiesWhole (w : UnicodeWidth) (chat : List ChatLine) (tools : List ToolEntry)
    (sel : Selection) : Prop :=
  ∃ copied, extractSelectedText w chat tools (some sel) = some copied ∧
    (sel.target = .chat → sel.EndsBeforeLine →
      ∃ parts, selectedParts w chat sel.normalized.1 sel.normalized.2 (sel.range chat) =
          some parts ∧ copied = (parts.map Prod.snd).foldl appendPart [] ∧
        ∀ idx line, chat[idx]? = some line → line.info.isSeparator = false →
          sel.InsideWhole idx → (idx, line.text) ∈ parts)

/-- If a selection of the chat ends at column 0 of a later line, the line before is there, and it
is a separator, or has no text, or the selection begins inside of it. -/
def EndsWell (chat : List ChatLine) (sel : Selection) : Prop :=
  sel.target = .chat → sel.EndsBeforeLine → sel.normalized.1.lineIdx < chat.length →
    ∃ line, chat[sel.normalized.2.lineIdx - 1]? = some line ∧
      (line.info.isSeparator = true ∨ line.text = [] ∨
        sel.normalized.2.lineIdx - 1 = sel.normalized.1.lineIdx ∧ sel.normalized.1.col ≠ 0)

/-! ### Parts of a line -/

section Parts

variable {w : UnicodeWidth} {line : ChatLine} {s : List Char}

theorem displayColToByteFrom_eq (col byteIdx width : ℕ) : ∃ before after, before ++ after = s ∧
    displayColToByteFrom w col byteIdx width s = byteIdx + byteLength before := by
  induction s generalizing byteIdx width with
  | nil => exact ⟨[], [], rfl, rfl⟩
  | cons c rest ih =>
    rw [displayColToByteFrom]
    split
    · exact ⟨[], c :: rest, rfl, rfl⟩
    · obtain ⟨before, after, rfl, found⟩ := ih (byteIdx + c.utf8Size) (width + w.char c)
      exact ⟨c :: before, after, rfl, by rw [found, byteLength_cons, Nat.add_assoc]⟩

theorem isBoundary_displayColToByte (col : ℕ) : IsBoundary s (displayColToByte w s col) := by
  obtain ⟨before, after, rfl, found⟩ := @displayColToByteFrom_eq w s col 0 0
  rw [displayColToByte, found, Nat.zero_add]
  exact isBoundary_append before after

theorem displayColToByte_zero : displayColToByte w s 0 = 0 := by
  cases s with
  | nil => rfl
  | cons c rest => rw [displayColToByte, displayColToByteFrom, if_pos (Nat.zero_le 0)]

theorem displayColToByteFrom_of_le {col byteIdx width : ℕ} (le : width + byteLength s ≤ col) :
    displayColToByteFrom w col byteIdx width s = byteIdx + byteLength s := by
  induction s generalizing byteIdx width with
  | nil => rfl
  | cons c rest ih =>
    have size := Char.utf8Size_pos c
    have narrow := w.char_le c
    rw [byteLength_cons] at le ⊢
    rw [displayColToByteFrom, if_neg (by omega), ih (by omega), Nat.add_assoc]

theorem displayColToByte_byteLength : displayColToByte w s (byteLength s) = byteLength s := by
  rw [displayColToByte, displayColToByteFrom_of_le (Nat.zero_add _).le, Nat.zero_add]

theorem isBoundary_min_max {a b : ℕ} (first : IsBoundary s a) (second : IsBoundary s b) :
    IsBoundary s (min (max a b) (byteLength s)) := by
  rw [Nat.min_eq_left (max_le first.le second.le)]
  rcases max_choice a b with same | same
  · rwa [same]
  · rwa [same]

theorem exists_copySlice (selStart selEnd : ℕ) :
    ∃ part, copySlice w line selStart selEnd = some part := by
  refine exists_slice_iff.mpr ⟨?_, isBoundary_displayColToByte _, ?_⟩
  · exact le_min (le_max_right _ _) (isBoundary_displayColToByte _).le
  · exact isBoundary_min_max (isBoundary_displayColToByte _) (isBoundary_displayColToByte _)

theorem slice_all : slice s 0 (byteLength s) = some s := by
  simpa using slice_append [] s []

theorem slice_self {n : ℕ} (boundary : IsBoundary s n) : slice s n n = some [] := by
  obtain ⟨before, after, rfl, rfl⟩ := isBoundary_iff.mp boundary
  simpa using slice_append before [] after

theorem copySlice_whole : copySlice w line 0 usizeMax = some line.text := by
  simp only [copySlice, if_true, Nat.zero_sub, displayColToByte_zero, displayColToByte_byteLength,
    Nat.max_zero, Nat.min_self]
  exact slice_all

theorem copySlice_zero (selStart : ℕ) : copySlice w line selStart 0 = some [] := by
  have small : (0 : ℕ) ≠ usizeMax := by decide
  have boundary := @isBoundary_displayColToByte w line.text (selStart - line.info.prefixWidth)
  simp only [copySlice, if_neg small, Nat.zero_sub, lt_irrefl, and_false, if_false,
    displayColToByte_zero, Nat.zero_max, Nat.min_eq_left boundary.le]
  exact slice_self boundary

end Parts

/-! ### Parts of a selection -/

section Lines

variable {w : UnicodeWidth} {chat : List ChatLine} {start stop : ChatPos} {idxs : List ℕ}

theorem copyLines_eq (result : List Char) : copyLines w chat start stop idxs result =
    (selectedParts w chat start stop idxs).map fun parts =>
      (parts.map Prod.snd).foldl appendPart result := by
  induction idxs generalizing result with
  | nil => rfl
  | cons idx rest ih =>
    rw [copyLines, selectedParts]
    cases chat[idx]? with
    | none => rfl
    | some line =>
      simp only [Option.bind_eq_bind, Option.bind_some]
      split
      · exact ih result
      · cases copyPart w chat start stop idx line with
        | none => rfl
        | some part =>
          rw [Option.bind_some, Option.bind_some, ih]
          cases selectedParts w chat start stop rest with
          | none => rfl
          | some later => rfl

theorem exists_selectedParts_iff : (∃ parts, selectedParts w chat start stop idxs = some parts) ↔
    ∀ idx ∈ idxs, idx < chat.length := by
  induction idxs with
  | nil => exact iff_of_true ⟨[], rfl⟩ (List.forall_mem_nil _)
  | cons idx rest ih =>
    rw [List.forall_mem_cons, ← ih, selectedParts]
    cases found : chat[idx]? with
    | none =>
      have outside := List.getElem?_eq_none_iff.mp found
      refine iff_of_false (fun ⟨_, selected⟩ => ?_) fun both => Nat.not_lt.mpr outside both.1
      cases selected
    | some line =>
      obtain ⟨inside, -⟩ := List.getElem?_eq_some_iff.mp found
      simp only [Option.bind_eq_bind, Option.bind_some, inside, true_and]
      split
      · rfl
      · obtain ⟨part, copied⟩ := @exists_copySlice w line
          (if idx = start.lineIdx then start.col else 0)
          (if idx = copyEnd chat.length start stop then stop.col else usizeMax)
        rw [copyPart, copied, Option.bind_some]
        cases selectedParts w chat start stop rest with
        | none =>
          refine iff_of_false (fun ⟨_, selected⟩ => ?_) fun ⟨_, selected⟩ => ?_
          · cases selected
          · cases selected
        | some later => exact iff_of_true ⟨_, rfl⟩ ⟨_, rfl⟩

theorem mem_selectedParts {parts : List (ℕ × List Char)} {idx : ℕ} {line : ChatLine}
    {part : List Char} (selected : selectedParts w chat start stop idxs = some parts)
    (found : chat[idx]? = some line) (filled : line.info.isSeparator = false) :
    (idx, part) ∈ parts ↔ idx ∈ idxs ∧ copyPart w chat start stop idx line = some part := by
  induction idxs generalizing parts with
  | nil =>
    obtain rfl := Option.some_inj.mp selected
    simp
  | cons head rest ih =>
    rw [selectedParts] at selected
    obtain ⟨first, isFirst, selected⟩ := Option.bind_eq_some_iff.mp selected
    by_cases separator : first.info.isSeparator = true
    · rw [if_pos separator] at selected
      have other : idx ≠ head := by
        rintro rfl
        rw [Option.some_inj.mp (found.symm.trans isFirst), separator] at filled
        cases filled
      rw [ih selected, List.mem_cons, or_iff_right other]
    · rw [if_neg separator] at selected
      obtain ⟨copied, isPart, selected⟩ := Option.bind_eq_some_iff.mp selected
      obtain ⟨later, isLater, made⟩ := Option.bind_eq_some_iff.mp selected
      obtain rfl := Option.some_inj.mp made
      rw [List.mem_cons, List.mem_cons, ih isLater, Prod.mk.injEq]
      constructor
      · rintro (⟨rfl, rfl⟩ | ⟨member, isCopied⟩)
        · obtain rfl := Option.some_inj.mp (found.symm.trans isFirst)
          exact ⟨.inl rfl, isPart⟩
        · exact ⟨.inr member, isCopied⟩
      · rintro ⟨rfl | member, isCopied⟩
        · obtain rfl := Option.some_inj.mp (found.symm.trans isFirst)
          exact .inl ⟨rfl, Option.some_inj.mp (isCopied.symm.trans isPart)⟩
        · exact .inr ⟨member, isCopied⟩

theorem copyPart_last {idx : ℕ} {line : ChatLine} (ends : stop.col = 0)
    (last : idx = copyEnd chat.length start stop) :
    copyPart w chat start stop idx line = some [] := by
  rw [copyPart, if_pos last, ends]
  exact copySlice_zero _

theorem copyPart_whole {idx : ℕ} {line : ChatLine}
    (begins : start.lineIdx < idx ∨ idx = start.lineIdx ∧ start.col = 0)
    (before : idx ≠ copyEnd chat.length start stop) :
    copyPart w chat start stop idx line = some line.text := by
  have column : (if idx = start.lineIdx then start.col else 0) = 0 := by
    rcases begins with later | ⟨here, first⟩
    · exact if_neg later.ne'
    · rw [if_pos here, first]
  rw [copyPart, column, if_neg before]
  exact copySlice_whole

end Lines

/-! ### Selections -/

section Selections

variable {w : UnicodeWidth} {chat : List ChatLine} {tools : List ToolEntry} {sel : Selection}

theorem extractSelectedText_chat (inChat : sel.target = .chat) :
    extractSelectedText w chat tools (some sel) =
      (selectedParts w chat sel.normalized.1 sel.normalized.2 (sel.range chat)).map
        fun parts => (parts.map Prod.snd).foldl appendPart [] := by
  rw [extractSelectedText, inChat, Selection.range, ← copyLines_eq]
  simp only
  split
  · rfl
  · rfl

theorem copyEnd_of_endsBeforeLine (ends : sel.EndsBeforeLine) :
    copyEnd chat.length sel.normalized.1 sel.normalized.2 = sel.normalized.2.lineIdx - 1 :=
  if_pos ends

theorem mem_range_of_endsBeforeLine {idx : ℕ} (ends : sel.EndsBeforeLine) :
    idx ∈ sel.range chat ↔ sel.normalized.1.lineIdx < chat.length ∧
      sel.normalized.1.lineIdx ≤ idx ∧ idx < sel.normalized.2.lineIdx := by
  have later := ends.2
  rw [Selection.range]
  split
  · next beyond => simp [Nat.not_lt.mpr beyond]
  · next begins =>
    rw [copyRange, copyEnd_of_endsBeforeLine ends, List.mem_range'_1]
    omega

theorem copyEnd_of_not_endsBeforeLine (other : ¬ sel.EndsBeforeLine) :
    copyEnd chat.length sel.normalized.1 sel.normalized.2 =
      min sel.normalized.2.lineIdx (chat.length - 1) :=
  if_neg other

theorem range_lt_of_not_endsBeforeLine (other : ¬ sel.EndsBeforeLine) :
    ∀ idx ∈ sel.range chat, idx < chat.length := by
  intro idx member
  rw [Selection.range] at member
  split at member
  · cases member
  · next begins =>
    rw [copyRange, copyEnd_of_not_endsBeforeLine other, List.mem_range'_1] at member
    omega

theorem copiesWhole_of_endsWell (well : EndsWell chat sel) : CopiesWhole w chat tools sel := by
  cases inTarget : sel.target with
  | tools =>
    refine ⟨_, by rw [extractSelectedText, inTarget], fun inChat => ?_⟩
    rw [inTarget] at inChat
    cases inChat
  | chat =>
    by_cases ends : sel.EndsBeforeLine
    · have inside : ∀ idx ∈ sel.range chat, idx < chat.length := by
        intro idx member
        obtain ⟨begins, -, before⟩ := (mem_range_of_endsBeforeLine ends).mp member
        obtain ⟨line, found, -⟩ := well inTarget ends begins
        obtain ⟨last, -⟩ := List.getElem?_eq_some_iff.mp found
        omega
      obtain ⟨parts, selected⟩ := exists_selectedParts_iff.mpr inside
      refine ⟨_, by rw [extractSelectedText_chat inTarget, selected]; rfl,
        fun _ _ => ⟨parts, selected, rfl, fun idx line found filled within => ?_⟩⟩
      obtain ⟨start, stop⟩ := within
      have below := (List.getElem?_eq_some_iff.mp found).1
      have from_start : sel.normalized.1.lineIdx ≤ idx := by
        rcases start with later | ⟨here, -⟩
        · exact later.le
        · exact here.ge
      have begins := from_start.trans_lt below
      refine (mem_selectedParts selected found filled).mpr
        ⟨(mem_range_of_endsBeforeLine ends).mpr ⟨begins, from_start, stop⟩, ?_⟩
      by_cases last : idx = copyEnd chat.length sel.normalized.1 sel.normalized.2
      · -- nothing is copied of the last line, and it has nothing to copy
        rw [copyPart_last ends.1 last]
        rw [copyEnd_of_endsBeforeLine ends] at last
        obtain ⟨other, isLast, empty⟩ := well inTarget ends begins
        rw [← last, found] at isLast
        obtain rfl := Option.some_inj.mp isLast
        rcases empty with separator | blank | ⟨here, inner⟩
        · rw [filled] at separator
          cases separator
        · rw [blank]
        · rcases start with later | ⟨-, first⟩
          · omega
          · exact absurd first inner
      · exact copyPart_whole start last
    · obtain ⟨parts, selected⟩ :=
        exists_selectedParts_iff.mpr (@range_lt_of_not_endsBeforeLine chat sel ends)
      exact ⟨_, by rw [extractSelectedText_chat inTarget, selected]; rfl,
        fun _ before => absurd before ends⟩

theorem endsWell_of_copiesWhole (copies : CopiesWhole w chat tools sel) : EndsWell chat sel := by
  intro inChat ends begins
  obtain ⟨copied, -, parts⟩ := copies
  obtain ⟨parts, selected, -, whole⟩ := parts inChat ends
  have inRange : sel.normalized.2.lineIdx - 1 ∈ sel.range chat := by
    have later := ends.2
    refine (mem_range_of_endsBeforeLine ends).mpr ⟨begins, ?_, ?_⟩
    · omega
    · omega
  have last := exists_selectedParts_iff.mp ⟨parts, selected⟩ _ inRange
  refine ⟨chat[sel.normalized.2.lineIdx - 1], List.getElem?_eq_getElem last, ?_⟩
  cases filled : chat[sel.normalized.2.lineIdx - 1].info.isSeparator with
  | true => exact .inl rfl
  | false =>
    by_cases within : sel.InsideWhole (sel.normalized.2.lineIdx - 1)
    · have member := whole _ _ (List.getElem?_eq_getElem last) filled within
      have copiedPart :=
        ((mem_selectedParts selected (List.getElem?_eq_getElem last) filled).mp member).2
      rw [copyPart_last ends.1 (copyEnd_of_endsBeforeLine ends).symm] at copiedPart
      exact .inr (.inl (Option.some_inj.mp copiedPart).symm)
    · -- the line is the first one, and the selection begins inside of it
      have later := ends.2
      have begin_eq : sel.normalized.2.lineIdx - 1 = sel.normalized.1.lineIdx := by
        by_contra other
        exact within ⟨.inl (by omega), by omega⟩
      exact .inr (.inr ⟨begin_eq, fun first => within ⟨.inr ⟨begin_eq, first⟩, by omega⟩⟩)

theorem insideWhole_iff_highlighted {idx : ℕ} (inChat : sel.target = .chat)
    (ends : sel.EndsBeforeLine) (shown : sel.normalized.2.lineIdx < chat.length) :
    sel.InsideWhole idx ↔ highlightColumns chat.length sel idx = some (0, usizeMax) := by
  have later := ends.2
  have column := ends.1
  have begins : sel.normalized.1.lineIdx < chat.length := later.trans shown
  have last : min sel.normalized.2.lineIdx (chat.length - 1) = sel.normalized.2.lineIdx := by omega
  have small : (0 : ℕ) ≠ usizeMax := by decide
  simp only [highlightColumns, inChat, begins, and_self, if_true, last, column,
    Selection.InsideWhole]
  split
  · next within =>
    rw [Option.some_inj, Prod.mk.injEq]
    by_cases first : idx = sel.normalized.1.lineIdx
    · rw [if_pos first, if_neg (first.trans_lt later).ne]
      constructor
      · rintro ⟨before | ⟨-, start⟩, -⟩
        · omega
        · exact ⟨start, rfl⟩
      · rintro ⟨start, -⟩
        exact ⟨.inr ⟨first, start⟩, first.trans_lt later⟩
    · rw [if_neg first]
      by_cases ending : idx = sel.normalized.2.lineIdx
      · rw [if_pos ending]
        exact iff_of_false (fun inside => inside.2.ne ending) fun both => small both.2
      · rw [if_neg ending]
        exact iff_of_true ⟨.inl (by omega), by omega⟩ ⟨rfl, rfl⟩
  · next beyond =>
    refine iff_of_false (fun inside => beyond ?_) (Option.some_ne_none _ ·.symm)
    omega

/-- Copying panics if the lines that a selection ends at are gone, and the line where it begins is
not. -/
theorem extractSelectedText_eq_none_iff : extractSelectedText w chat tools (some sel) = none ↔
    sel.target = .chat ∧ sel.EndsBeforeLine ∧ sel.normalized.1.lineIdx < chat.length ∧
      chat.length < sel.normalized.2.lineIdx := by
  cases inTarget : sel.target with
  | tools =>
    rw [extractSelectedText, inTarget]
    exact iff_of_false (Option.some_ne_none _) fun both => SelectionTarget.noConfusion both.1
  | chat =>
    have selected := @exists_selectedParts_iff w chat sel.normalized.1 sel.normalized.2
      (sel.range chat)
    rw [extractSelectedText_chat inTarget, Option.map_eq_none_iff, ← not_iff_not, ← ne_eq,
      Option.ne_none_iff_exists', selected]
    by_cases ends : sel.EndsBeforeLine
    · have later := ends.2
      simp only [mem_range_of_endsBeforeLine ends, ends, true_and]
      constructor
      · rintro inside ⟨begins, gone⟩
        have last := inside (sel.normalized.2.lineIdx - 1) ⟨begins, by omega, by omega⟩
        omega
      · rintro there idx ⟨begins, -, before⟩
        by_contra outside
        exact there ⟨begins, by omega⟩
    · exact iff_of_true (range_lt_of_not_endsBeforeLine ends) fun both => ends both.2.1

end Selections

/-- **Copying a selection.** For every chat and every selection, whenever it was made, copying
succeeds and copies the lines inside whole if and only if the selection ends well. -/
theorem copies_whole_iff (w : UnicodeWidth) (innerWidth : ℕ) (chat : List ChatMessage)
    (tools : List ToolEntry) (sel : Selection) :
    CopiesWhole w (chatLines innerWidth chat) tools sel ↔
      EndsWell (chatLines innerWidth chat) sel :=
  ⟨endsWell_of_copiesWhole, copiesWhole_of_endsWell⟩

/-! ### A selected line -/

def oneColumn : UnicodeWidth := ⟨fun _ => 1, List.length, fun c => Char.utf8Size_pos c⟩

def smallView (chat : List ChatMessage) : ChatView :=
  ⟨⟨0, 0, 12, 10⟩, lineMap oneColumn 10 (chatLines 10 chat), true, 0, 0⟩

/-- A drag from the beginning of a line to that of the next one copies nothing. -/
theorem whole_line_lost : ¬ ∀ (w : UnicodeWidth) (innerWidth : ℕ) (chat : List ChatMessage)
    (tools : List ToolEntry) (sel : Selection), MadeByMouse w sel →
      CopiesWhole w (chatLines innerWidth chat) tools sel := by
  intro law
  have shows : ShowsChat oneColumn (smallView [.system "hello"]) := ⟨10, [.system "hello"], rfl⟩
  have made : MadeByMouse oneColumn ⟨.chat, ⟨0, 0⟩, ⟨1, 0⟩⟩ :=
    .dragged
      (.pressed shows (by decide : inRect 1 1 _ = true)
        (by decide +kernel : screenToChatPos _ 1 1 = some ⟨0, 0⟩))
      rfl shows (by decide : inRect 1 2 _ = true)
      (by decide +kernel : screenToChatPos _ 1 2 = some ⟨1, 0⟩)
  have well := endsWell_of_copiesWhole (law oneColumn 10 [.system "hello"] [] _ made)
  have ends : Selection.EndsBeforeLine ⟨.chat, ⟨0, 0⟩, ⟨1, 0⟩⟩ := ⟨rfl, Nat.zero_lt_one⟩
  obtain ⟨line, found, empty⟩ := well rfl ends (by decide +kernel)
  have isLine : (chatLines 10 [.system "hello"])[0]? = some (plainLine "hello".toList) := by
    decide +kernel
  obtain rfl := Option.some_inj.mp (isLine.symm.trans found)
  rcases empty with separator | blank | ⟨-, inner⟩
  · cases separator
  · revert blank
    decide
  · exact inner rfl

end KelvinClaw.Tui
