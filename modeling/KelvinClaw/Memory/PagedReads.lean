import KelvinClaw.Library.Lines
import KelvinClaw.Memory.Api
import KelvinClaw.Sdk.ToolPack

/-!
# Pages of memory files

A memory file is read by pages: from a line on, and no more than a number of lines. Three managers
read them. Two cut the page out of the text, with an addition that may leave the range of a
`usize`: where it does, the end of the page comes before its start, and the read panics. The
third asks a provider for the value of a key and returns all of it.
-/

namespace KelvinClaw.Memory

open KelvinClaw.Core KelvinClaw.Sdk Systems

structure MemoryReadParams where
  relPath : String
  fromLine : Option UInt64
  lines : Option UInt64
  deriving DecidableEq, Repr

structure MemoryReadResult where
  text : String
  path : String
  deriving DecidableEq, Repr

/-! ### Cutting a page out of a text -/

/-- An addition of `usize` values. Out of range it panics if the build checks it, and else it
wraps. -/
def usizeAdd (overflowChecks : Bool) (a b : ℕ) : Option ℕ :=
  if a + b ≤ usizeMax then some (a + b)
  else if overflowChecks then none
  else some ((a + b) % (usizeMax + 1))

/-- `raw_lines[start..end]`. -/
def lineRange (rawLines : List (List Char)) (start stop : ℕ) : Option (List (List Char)) :=
  if start ≤ stop ∧ stop ≤ rawLines.length then some ((rawLines.take stop).drop start) else none

def pageStart (fromLine : Option UInt64) : ℕ := (fromLine.getD 1).toNat - 1

/-- `slice_lines`, which the manager of the documents in memory spells out. -/
def sliceLines (overflowChecks : Bool) (text : String) (fromLine lines : Option UInt64) :
    Option String :=
  let rawLines := Systems.lines text.toList
  if rawLines = [] then some ""
  else
    let start := pageStart fromLine
    if rawLines.length ≤ start then some ""
    else do
      let count := (lines.map UInt64.toNat).getD (rawLines.length - start)
      let sum ← usizeAdd overflowChecks start count
      let page ← lineRange rawLines start (min sum rawLines.length)
      return String.ofList (joinLines page)

/-! ### The managers -/

def memoryFile : String := "MEMORY.md"

def memoryDir : String := "memory"

def pathTraversalPattern : String := ".."

/-- `replace('\\', "/")`. -/
def withSlashes (path : String) : String :=
  String.ofList (path.toList.map fun c => if c = '\\' then '/' else c)

/-- `validate_rel_path`. -/
def validateRelPath (relPath : String) : KelvinResult Unit := do
  refuseIf (relPath = "") (.invalidInput "memory_get path must not be empty")
  refuseIf (pathTraversalPattern.toList <:+: relPath.toList)
    (.invalidInput "memory_get path traversal is not allowed")
  let normalized := withSlashes relPath
  refuseIf (normalized ≠ memoryFile ∧ ¬ (memoryDir ++ "/").toList <+: normalized.toList)
    (.invalidInput s!"memory_get path is out of scope: {normalized}")
  refuseIf (IsAbsolute normalized) (.invalidInput "memory_get absolute paths are not allowed")

abbrev ReadOutcome := Option (KelvinResult MemoryReadResult)

/-- The files of the workspace by their paths: the text of a file, or why it cannot be read. -/
structure MarkdownMemoryManager where
  files : String → Option (Except String String)

def MarkdownMemoryManager.readFile (overflowChecks : Bool) (manager : MarkdownMemoryManager)
    (params : MemoryReadParams) : ReadOutcome :=
  let rel := slashed params.relPath
  match validateRelPath rel with
  | .error e => some (.error e)
  | .ok _ =>
    match manager.files rel with
    | none => some (.ok ⟨"", rel⟩)
    | some (.error err) => some (.error (.io err))
    | some (.ok text) =>
      (sliceLines overflowChecks text params.fromLine params.lines).map fun sliced =>
        .ok ⟨sliced, rel⟩

structure InMemoryDocument where
  path : String
  text : String
  deriving DecidableEq, Repr

structure InMemoryVectorMemoryManager where
  docs : List InMemoryDocument

namespace InMemoryVectorMemoryManager

/-- `build_doc_map`: of several documents with a path, the last one stays. -/
def docMap (docs : List InMemoryDocument) (path : String) : Option InMemoryDocument :=
  docs.reverse.find? fun doc => doc.path = path

def readFile (overflowChecks : Bool) (manager : InMemoryVectorMemoryManager)
    (params : MemoryReadParams) : ReadOutcome :=
  let rel := slashed params.relPath
  match docMap manager.docs rel with
  | none => some (.ok ⟨"", rel⟩)
  | some doc =>
    (sliceLines overflowChecks doc.text params.fromLine params.lines).map fun sliced =>
      .ok ⟨sliced, rel⟩

end InMemoryVectorMemoryManager

structure ReadResponse where
  found : Bool
  value : List UInt8
  deriving DecidableEq, Repr

/-- The context of a request, as it is built for a call, and the service behind the client. -/
structure RpcMemoryManager where
  buildContext : KelvinResult RequestContext
  read : ReadRequest → KelvinResult ReadResponse

def fromUtf8 (bytes : List UInt8) : Option String := String.fromUTF8? ⟨bytes.toArray⟩

/-- The text that a response carries. `describe` words what is no UTF-8. -/
def responseText (describe : List UInt8 → String) (response : ReadResponse) :
    KelvinResult String :=
  if response.found then
    match fromUtf8 response.value with
    | some text => .ok text
    | none => .error (.backend
        s!"memory controller returned non-utf8 payload: {describe response.value}")
  else .ok ""

def RpcMemoryManager.readFile (describe : List UInt8 → String) (manager : RpcMemoryManager)
    (params : MemoryReadParams) : ReadOutcome :=
  some do
    let context ← manager.buildContext
    let response ← manager.read ⟨some context, params.relPath⟩
    let text ← responseText describe response
    return ⟨text, params.relPath⟩

/-! ### The page of a read -/

/-- The lines of a text from the asked one on, which is the first one at least, as many as are
asked for, joined by newlines. -/
def pageText (text : String) (fromLine lines : Option UInt64) : String :=
  let first := max (fromLine.getD 1).toNat 1
  let rest := (Systems.lines text.toList).drop (first - 1)
  String.ofList (joinLines (rest.take ((lines.map UInt64.toNat).getD rest.length)))

/-- The page begins behind the last line, or ends within the range of a `usize`. -/
def InRange (text : String) (fromLine lines : Option UInt64) : Prop :=
  let total := (Systems.lines text.toList).length
  total ≤ pageStart fromLine ∨
    pageStart fromLine + (lines.map UInt64.toNat).getD (total - pageStart fromLine) ≤ usizeMax

/-- The text is empty, or the page has all of its lines, and joining these gives the text. -/
def WholeText (text : String) (fromLine lines : Option UInt64) : Prop :=
  text = "" ∨ pageStart fromLine = 0 ∧
    (∀ count ∈ lines, (Systems.lines text.toList).length ≤ count.toNat) ∧
    text.toList.getLast? ≠ some '\n' ∧ NoReturns text.toList

instance (text : String) (fromLine lines : Option UInt64) :
    Decidable (InRange text fromLine lines) := by
  unfold InRange
  infer_instance

theorem pageText_eq (text : String) (fromLine lines : Option UInt64) :
    pageText text fromLine lines =
      String.ofList (joinLines (((Systems.lines text.toList).drop (pageStart fromLine)).take
        ((lines.map UInt64.toNat).getD
          ((Systems.lines text.toList).length - pageStart fromLine)))) := by
  have start : max (fromLine.getD 1).toNat 1 - 1 = pageStart fromLine := by
    unfold pageStart
    omega
  simp only [pageText, start, List.length_drop]

section Slicing

variable {text : String} {fromLine lines : Option UInt64}

theorem pageText_of_behind (lines : Option UInt64)
    (behind : (Systems.lines text.toList).length ≤ pageStart fromLine) :
    pageText text fromLine lines = "" := by
  rw [pageText_eq, List.drop_eq_nil_of_le behind, List.take_nil, joinLines_nil, String.ofList_nil]

theorem sliceLines_of_before {overflowChecks : Bool}
    (before : pageStart fromLine < (Systems.lines text.toList).length) :
    sliceLines overflowChecks text fromLine lines =
      (usizeAdd overflowChecks (pageStart fromLine) ((lines.map UInt64.toNat).getD
        ((Systems.lines text.toList).length - pageStart fromLine))).bind fun sum =>
      (lineRange (Systems.lines text.toList) (pageStart fromLine)
        (min sum (Systems.lines text.toList).length)).map fun page =>
          String.ofList (joinLines page) := by
  have rows : Systems.lines text.toList ≠ [] := List.ne_nil_of_length_pos (by omega)
  simp only [sliceLines, if_neg rows, if_neg (Nat.not_le.mpr before)]
  cases usizeAdd overflowChecks (pageStart fromLine) ((lines.map UInt64.toNat).getD
    ((Systems.lines text.toList).length - pageStart fromLine)) with
  | none => rfl
  | some sum =>
    simp only [Option.bind_some, bind]
    cases lineRange (Systems.lines text.toList) (pageStart fromLine)
      (min sum (Systems.lines text.toList).length) <;> rfl

theorem usizeAdd_of_gt {overflowChecks : Bool} {a b sum : ℕ} (far : usizeMax < a + b)
    (added : usizeAdd overflowChecks a b = some sum) : sum + usizeMax < a + b := by
  rw [usizeAdd, if_neg (Nat.not_le.mpr far)] at added
  split_ifs at added
  obtain rfl := Option.some.inj added
  have parts := Nat.mod_add_div (a + b) (usizeMax + 1)
  have once : 1 ≤ (a + b) / (usizeMax + 1) := Nat.div_pos far (Nat.succ_pos _)
  have range := Nat.mul_le_mul_left (usizeMax + 1) once
  omega

theorem toNat_le_usizeMax (n : UInt64) : n.toNat ≤ usizeMax :=
  Nat.le_of_lt_succ n.toNat_lt

theorem pageStart_le (fromLine : Option UInt64) : pageStart fromLine ≤ usizeMax :=
  (Nat.sub_le _ _).trans (toNat_le_usizeMax _)

/-- The page is cut exactly when its end is in range, and then it is the page asked for. -/
theorem sliceLines_eq_iff (overflowChecks : Bool) :
    sliceLines overflowChecks text fromLine lines = some (pageText text fromLine lines) ↔
      InRange text fromLine lines := by
  by_cases behind : (Systems.lines text.toList).length ≤ pageStart fromLine
  · refine iff_of_true ?_ (.inl behind)
    rw [pageText_of_behind lines behind]
    simp only [sliceLines, if_pos behind, ite_self]
  · have before := Nat.lt_of_not_le behind
    rw [sliceLines_of_before before, pageText_eq, InRange]
    generalize rows : Systems.lines text.toList = rawLines at before ⊢
    generalize first : pageStart fromLine = start at before ⊢
    have startFits : start ≤ usizeMax := first ▸ pageStart_le fromLine
    generalize counted : (lines.map UInt64.toNat).getD (rawLines.length - start) = count
    simp only [Nat.not_le.mpr before, false_or]
    constructor
    · intro cut
      by_contra far
      obtain ⟨sum, added, page⟩ := Option.bind_eq_some_iff.mp cut
      have wraps := usizeAdd_of_gt (Nat.lt_of_not_le far) added
      obtain ⟨part, ranged, same⟩ := Option.map_eq_some_iff.mp page
      rw [lineRange] at ranged
      split_ifs at ranged with inside
      obtain rfl := Option.some.inj ranged
      have same := String.ofList_inj.mp same
      cases lines with
      | some n =>
        -- an end that wraps comes before the start
        have small : count ≤ usizeMax := counted ▸ toNat_le_usizeMax n
        omega
      | none =>
        -- a page of more lines than a `usize` counts would be longer
        obtain rfl : rawLines.length - start = count := counted
        have rest : (rawLines.drop start).length = rawLines.length - start := List.length_drop
        have many : 1 < (rawLines.drop start).length := by
          have : 1 ≤ usizeMax := by decide
          omega
        rw [List.drop_take, List.take_of_length_le rest.le] at same
        by_cases none : (rawLines.drop start).take (min sum rawLines.length - start) = []
        · have lengths := length_joinLines (List.ne_nil_of_length_pos (Nat.zero_lt_of_lt many))
          rw [none, joinLines_nil] at same
          rw [← same, List.length_nil] at lengths
          omega
        · have shorter := length_joinLines_lt (List.take_sublist _ _) none (by
            rw [List.length_take]
            omega)
          rw [same] at shorter
          exact absurd shorter (Nat.lt_irrefl _)
    · intro fits
      rw [usizeAdd, if_pos fits, Option.bind_some, lineRange, if_pos (by omega), Option.map_some,
        List.drop_take]
      congr 3
      rw [List.take_eq_take_iff, List.length_drop]
      omega

theorem pageText_eq_iff : pageText text fromLine lines = text ↔ WholeText text fromLine lines := by
  rw [pageText_eq, WholeText]
  by_cases empty : text = ""
  · subst empty
    exact iff_of_true (by simp) (.inl rfl)
  · have nonempty : text.toList ≠ [] := fun nil => empty (String.toList_inj.mp nil)
    rw [← String.toList_inj, String.toList_ofList, joinLines_page_iff nonempty]
    simp only [empty, false_or]
    refine and_congr_right fun first => and_congr_left fun _ => ?_
    cases lines with
    | none => simp [first]
    | some count => simp

end Slicing

/-! ### The managers agree -/

def ReadsPage (outcome : ReadOutcome) (text : String) (params : MemoryReadParams) : Prop :=
  ∃ path, outcome = some (.ok ⟨pageText text params.fromLine params.lines, path⟩)

/-- The three managers hold a text under the path of a read. -/
structure HoldsText (markdown : MarkdownMemoryManager) (inMemory : InMemoryVectorMemoryManager)
    (rpc : RpcMemoryManager) (params : MemoryReadParams) (text : String) : Prop where
  valid : validateRelPath (slashed params.relPath) = .ok ()
  file : markdown.files (slashed params.relPath) = some (.ok text)
  doc : ∃ doc, InMemoryVectorMemoryManager.docMap inMemory.docs (slashed params.relPath) =
    some doc ∧ doc.text = text
  value : ∃ context, rpc.buildContext = .ok context ∧
    rpc.read ⟨some context, params.relPath⟩ = .ok ⟨true, text.toUTF8.data.toList⟩

section Managers

variable {markdown : MarkdownMemoryManager} {inMemory : InMemoryVectorMemoryManager}
  {rpc : RpcMemoryManager} {params : MemoryReadParams} {text : String}

theorem fromUtf8_toUTF8 (text : String) : fromUtf8 text.toUTF8.data.toList = some text := by
  have bytes : (⟨text.toUTF8.data.toList.toArray⟩ : ByteArray) = text.toUTF8 := by simp
  rw [fromUtf8, bytes, String.fromUTF8?]
  simp only [Option.dite_none_right_eq_some]
  exact ⟨text.isValidUTF8, rfl⟩

theorem readsPage_of_slice (overflowChecks : Bool) (path : String) {outcome : ReadOutcome}
    (reads : outcome = (sliceLines overflowChecks text params.fromLine params.lines).map
      fun sliced => .ok ⟨sliced, path⟩) :
    ReadsPage outcome text params ↔ InRange text params.fromLine params.lines := by
  rw [← sliceLines_eq_iff overflowChecks, ReadsPage, reads]
  constructor
  · rintro ⟨path, same⟩
    obtain ⟨sliced, cut, same⟩ := Option.map_eq_some_iff.mp same
    obtain ⟨rfl, -⟩ := MemoryReadResult.mk.inj (Except.ok.inj same)
    exact cut
  · intro cut
    exact ⟨path, by rw [cut]; rfl⟩

theorem readsPage_markdown_iff (overflowChecks : Bool)
    (holds : HoldsText markdown inMemory rpc params text) :
    ReadsPage (markdown.readFile overflowChecks params) text params ↔
      InRange text params.fromLine params.lines := by
  apply readsPage_of_slice overflowChecks (slashed params.relPath)
  simp only [MarkdownMemoryManager.readFile, holds.valid, holds.file]

theorem readsPage_inMemory_iff (overflowChecks : Bool)
    (holds : HoldsText markdown inMemory rpc params text) :
    ReadsPage (inMemory.readFile overflowChecks params) text params ↔
      InRange text params.fromLine params.lines := by
  obtain ⟨doc, found, rfl⟩ := holds.doc
  apply readsPage_of_slice overflowChecks (slashed params.relPath)
  simp only [InMemoryVectorMemoryManager.readFile, found]

theorem readsPage_rpc_iff (describe : List UInt8 → String)
    (holds : HoldsText markdown inMemory rpc params text) :
    ReadsPage (rpc.readFile describe params) text params ↔
      WholeText text params.fromLine params.lines := by
  obtain ⟨context, built, answered⟩ := holds.value
  have reads : rpc.readFile describe params = some (.ok ⟨text, params.relPath⟩) := by
    have carried : responseText describe ⟨true, text.toUTF8.data.toList⟩ = .ok text := by
      simp only [responseText, if_true, fromUtf8_toUTF8]
    simp only [RpcMemoryManager.readFile, built, bind, Except.bind, answered, carried]
    rfl
  rw [← pageText_eq_iff, ReadsPage, reads]
  constructor
  · rintro ⟨path, same⟩
    exact (MemoryReadResult.mk.inj (Except.ok.inj (Option.some.inj same))).1.symm
  · intro whole
    exact ⟨params.relPath, by rw [whole]⟩

/-- The three managers read the same page, without a panic, exactly when the page is in range and
is all of the text. -/
theorem paged_reads_agree_iff (overflowChecks : Bool) (describe : List UInt8 → String)
    (holds : HoldsText markdown inMemory rpc params text) :
    ReadsPage (markdown.readFile overflowChecks params) text params ∧
        ReadsPage (inMemory.readFile overflowChecks params) text params ∧
        ReadsPage (rpc.readFile describe params) text params ↔
      InRange text params.fromLine params.lines ∧ WholeText text params.fromLine params.lines := by
  rw [readsPage_markdown_iff overflowChecks holds, readsPage_inMemory_iff overflowChecks holds,
    readsPage_rpc_iff describe holds, and_self_left]

end Managers

/-! ### Two lines -/

def partOf (fromLine lines : Option UInt64) : MemoryReadParams := ⟨memoryFile, fromLine, lines⟩

/-- A manager of each kind that holds a text as the notes of a workspace. -/
def markdownWith (text : String) : MarkdownMemoryManager := ⟨fun _ => some (.ok text)⟩

def inMemoryWith (text : String) : InMemoryVectorMemoryManager := ⟨[⟨memoryFile, text⟩]⟩

def rpcWith (text : String) : RpcMemoryManager where
  buildContext := .ok ⟨"token", "request", "tenant", "workspace", "session", "module"⟩
  read _ := .ok ⟨true, text.toUTF8.data.toList⟩

theorem slashed_memoryFile : slashed memoryFile = memoryFile := by decide

theorem validateRelPath_memoryFile : validateRelPath memoryFile = .ok () := by
  rfl

theorem holds_with (text : String) (fromLine lines : Option UInt64) :
    HoldsText (markdownWith text) (inMemoryWith text) (rpcWith text) (partOf fromLine lines)
      text where
  valid := by
    rw [partOf, slashed_memoryFile, validateRelPath_memoryFile]
  file := rfl
  doc := by
    rw [partOf, slashed_memoryFile]
    exact ⟨⟨memoryFile, text⟩, by simp [InMemoryVectorMemoryManager.docMap, inMemoryWith], rfl⟩
  value := ⟨_, rfl, rfl⟩

theorem paged_reads_agree_two_lines :
    let params := partOf none none
    ReadsPage ((markdownWith "one\ntwo").readFile true params) "one\ntwo" params ∧
      ReadsPage ((inMemoryWith "one\ntwo").readFile true params) "one\ntwo" params ∧
      ReadsPage ((rpcWith "one\ntwo").readFile (fun _ => "") params) "one\ntwo" params := by
  apply (paged_reads_agree_iff true (fun _ => "") (holds_with "one\ntwo" none none)).mpr
  exact ⟨by decide, .inr ⟨rfl, nofun, by decide, by decide⟩⟩

/-- From the second line on, as many lines as a `usize` counts: the addition leaves the range, and
the reads of the two lines panic. The client returns both lines. -/
theorem second_line_on_panics :
    let params := partOf (some 2) (some (UInt64.ofNat usizeMax))
    HoldsText (markdownWith "one\ntwo") (inMemoryWith "one\ntwo") (rpcWith "one\ntwo") params
        "one\ntwo" ∧
      (∀ overflowChecks, (markdownWith "one\ntwo").readFile overflowChecks params = none ∧
        (inMemoryWith "one\ntwo").readFile overflowChecks params = none) ∧
      (rpcWith "one\ntwo").readFile (fun _ => "") params =
        some (.ok ⟨"one\ntwo", memoryFile⟩) ∧
      pageText "one\ntwo" params.fromLine params.lines = "two" := by
  refine ⟨holds_with _ _ _, fun overflowChecks => ?_, ?_, ?_⟩
  · cases overflowChecks <;> decide
  · decide
  · decide

end KelvinClaw.Memory
