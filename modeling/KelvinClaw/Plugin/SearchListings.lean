import KelvinClaw.Plugin.SearchTools

/-!
# What the search tools answer

A search tool answers with an object that the host accepts unless a text is cut inside of a
character: the query in the summary, or what is listed where the buffer of the output ends. The
object may also be longer than the host reads.
-/

namespace KelvinClaw.Plugin.SearchTools

open Systems Systems.Arena Systems.Json JsonScanner JsonStrings ToolCall WikiTool

/-! ### Results -/

section Results

variable {left here object rest : Bytes} {opens : UInt8}

theorem of_skipTo (found : skipTo opens left = some here) :
    here <:+ left ∧ here.head? = some opens := by
  induction left with
  | nil => cases found
  | cons b more ih =>
    rw [skipTo] at found
    split_ifs at found with ends isOpen
    · obtain rfl := Option.some_inj.mp found
      exact ⟨List.suffix_refl _, congrArg some isOpen⟩
    · obtain ⟨suffix, first⟩ := ih found
      exact ⟨suffix.trans (List.suffix_cons b more), first⟩

theorem clean_skipTo (clean : Clean left) (low : opens.toNat < 0x80)
    (found : skipTo opens left = some here) : Clean here := by
  obtain ⟨suffix, first⟩ := of_skipTo found
  refine clean.of_suffix suffix fun b isFirst => ?_
  exact Option.some_inj.mp (first.symm.trans isFirst) ▸ low

theorem clean_of_matchingText {json found : Bytes} {start : ℕ} {closes : UInt8}
    (clean : Clean json) (low : opens.toNat < 0x80) (low' : closes.toNat < 0x80)
    (matching : matchingText json start opens closes = some found) :
    Clean found ∧ Clean ((json.drop start).drop found.length) := by
  obtain ⟨first, inner, more, split, rfl⟩ := exists_of_matchingText matching
  have whole := clean.of_suffix (List.drop_suffix start json) fun b isFirst =>
    Option.some_inj.mp (first.symm.trans isFirst) ▸ low
  have behind : (json.drop start).drop (inner ++ [closes]).length = more := by
    have whole : json.drop start = (inner ++ [closes]) ++ more := by
      rw [split, List.append_assoc]
      rfl
    rw [whole, List.drop_left]
  rw [behind]
  rw [split] at whole
  obtain ⟨isInner, isMore⟩ := (isUtf8_append_cons low').mp whole.isUtf8
  have last : IsUtf8 [closes] := isUtf8_of_ascii fun b member =>
    List.mem_singleton.mp member ▸ low'
  refine ⟨⟨isInner.append last, ?_⟩, isMore, ?_⟩
  · refine whole.noLost.of_subset fun b member => ?_
    rcases List.mem_append.mp member with inside | same
    · exact List.mem_append_left _ inside
    · exact List.mem_append_right _ (List.mem_singleton.mp same ▸ List.mem_cons_self)
  · exact whole.noLost.of_subset
      (List.Subset.trans (List.subset_cons_self closes more) (List.subset_append_right inner _))

theorem clean_arrayIter {array : Bytes} (clean : Clean array) : Clean (arrayIter array) := by
  unfold arrayIter
  split_ifs with isOpen
  · cases array with
    | nil => cases isOpen
    | cons b rest =>
      obtain rfl := Option.some_inj.mp isOpen
      have low : openBracket.toNat < 0x80 := by decide
      exact ⟨((@isUtf8_append_cons [] rest openBracket low).mp clean.isUtf8).2,
        clean.noLost.of_subset (List.subset_cons_self _ _)⟩
  · exact clean

theorem clean_nextObject (clean : Clean left) (next : nextObject left = some (object, rest)) :
    Clean object ∧ Clean rest := by
  obtain ⟨here, skipped, next⟩ := Option.bind_eq_some_iff.mp next
  obtain ⟨found, matching, next⟩ := Option.bind_eq_some_iff.mp next
  obtain ⟨rfl, rfl⟩ := Prod.mk.inj (Option.some_inj.mp next)
  exact clean_of_matchingText (clean_skipTo clean (by decide) skipped) (by decide) (by decide)
    matching

theorem clean_objects {count : ℕ} (clean : Clean left) :
    ∀ object ∈ objects count left, Clean object := by
  induction count generalizing left with
  | zero => exact List.forall_mem_nil _
  | succ count ih =>
    rw [objects]
    cases next : nextObject left with
    | none => exact List.forall_mem_nil _
    | some found =>
      obtain ⟨isObject, isRest⟩ := clean_nextObject clean next
      exact List.forall_mem_cons.mpr ⟨isObject, ih isRest⟩

theorem length_objects_le (count : ℕ) (left : Bytes) : (objects count left).length ≤ count := by
  induction count generalizing left with
  | zero => exact le_rfl
  | succ count ih =>
    rw [objects]
    cases nextObject left with
    | none => exact Nat.zero_le _
    | some found => exact Nat.succ_le_succ (ih found.2)

theorem clean_nextString {raw : Bytes} (clean : Clean left) (next : nextString left = some raw) :
    Clean raw := by
  obtain ⟨here, skipped, read⟩ := Option.bind_eq_some_iff.mp next
  have isHere := clean_skipTo clean (by decide) skipped
  have first := (of_skipTo skipped).2
  cases here with
  | nil => cases first
  | cons b rest =>
    obtain rfl := Option.some_inj.mp first
    rw [extractStrValue, List.drop_zero] at read
    simp only [if_true] at read
    obtain ⟨n, closes, rfl⟩ := Option.map_eq_some_iff.mp read
    obtain ⟨behind, -, split⟩ := exists_of_closingQuote closes
    have low : quote.toNat < 0x80 := by decide
    have inside := ((@isUtf8_append_cons [] rest quote low).mp isHere.isUtf8).2
    rw [split] at inside
    refine ⟨((isUtf8_append_cons low).mp inside).1, isHere.noLost.of_subset ?_⟩
    exact List.Subset.trans (List.take_subset n rest) (List.subset_cons_self quote rest)

end Results

/-! ### Listings -/

section Listings

variable {n : ℕ} {put : Put} {result : Bytes}

def Put.piece : Put → Piece UInt8
  | bytes text => .word text
  | byte b => .fill [b]
  | number k => .word (digitsText (decimal k))
  | unescape raw => .fill (unescaped raw)

def Put.Sound : Put → Prop
  | bytes text => IsMessage text
  | byte b => b = newline
  | number _ => True
  | unescape raw => ∃ text, Clean text ∧ raw <+: text

theorem Put.isOf (put : Put) : Piece.IsOf (put.write : Write UInt8 n) put.piece := by
  cases put with
  | bytes text => rfl
  | byte b => exact fills_byte b
  | number k => rfl
  | unescape raw => exact fills_unescape raw

theorem Put.Sound.noLost (sound : put.Sound) : NoLost put.piece.text := by
  cases put with
  | bytes text => exact (noLost_of_isText (IsMessage.isText sound))
  | byte b =>
    obtain rfl : b = newline := sound
    exact fun c member => List.mem_singleton.mp member ▸ by decide
  | number k => exact noLost_of_isText (isText_digitsText _)
  | unescape raw =>
    obtain ⟨text, clean, isStart⟩ := sound
    exact (clean.noLost.of_subset isStart.subset).unescaped

theorem begins_of_isUtf8 {text : Bytes} (isUtf8 : IsUtf8 text) : BeginsWith IsFirst text := by
  obtain ⟨chars, rfl⟩ := isUtf8
  exact fun b first => isFirst_of_head?_encode first

theorem Put.Sound.begins (sound : put.Sound) : BeginsWith IsFirst put.piece.text := by
  cases put with
  | bytes text => exact begins_of_isUtf8 (IsMessage.isText sound).isUtf8
  | byte b =>
    obtain rfl : b = newline := sound
    exact fun c first => Option.some_inj.mp first ▸ .inl (by decide)
  | number k => exact begins_of_isUtf8 (isText_digitsText _).isUtf8
  | unescape raw =>
    obtain ⟨text, clean, isStart⟩ := sound
    rw [List.prefix_iff_eq_take.mp isStart]
    exact fun b first => isFirst_of_head?_unescaped clean.isUtf8 _ first

def SoundAll (statements : List (List Put)) : Prop :=
  ∀ puts ∈ statements, ∀ put ∈ puts, put.Sound

theorem soundAll_append {first later : List (List Put)} (soundFirst : SoundAll first)
    (soundLater : SoundAll later) : SoundAll (first ++ later) :=
  List.forall_mem_append.mpr ⟨soundFirst, soundLater⟩

theorem soundAll_singleton {puts : List Put} (sound : ∀ put ∈ puts, put.Sound) :
    SoundAll [puts] := fun _ member => List.mem_singleton.mp member ▸ sound

theorem soundAll_fieldLines (clean : Clean result) (name : String) :
    SoundAll (fieldLines result name) := by
  unfold fieldLines
  cases found : extractStrField result (ascii name) with
  | none => exact List.forall_mem_nil _
  | some raw =>
    exact soundAll_singleton (List.forall_mem_singleton.mpr
      ⟨raw, clean.extractStrField found, List.prefix_refl raw⟩)

theorem sound_snippet {raw : Bytes} (clean : Clean raw) : ∀ put ∈ snippet raw, put.Sound := by
  refine List.forall_mem_cons.mpr ⟨show IsMessage (ascii "   ") by decide, ?_⟩
  exact List.forall_mem_cons.mpr ⟨⟨raw, clean, List.prefix_refl raw⟩,
    List.forall_mem_singleton.mpr rfl⟩

theorem soundAll_resultLines {words : List (List Put)} (number : ℕ) (clean : Clean result)
    (sound : SoundAll words) : SoundAll (resultLines number result words) := by
  have newlines : SoundAll [[.byte newline]] :=
    soundAll_singleton (List.forall_mem_singleton.mpr rfl)
  have indent : ∀ put ∈ [Put.bytes (ascii "   ")], put.Sound :=
    List.forall_mem_singleton.mpr (show IsMessage (ascii "   ") by decide)
  have head : ∀ put ∈ [Put.number number, .bytes (ascii ". ")], put.Sound :=
    List.forall_mem_cons.mpr ⟨trivial,
      List.forall_mem_singleton.mpr (show IsMessage (ascii ". ") by decide)⟩
  refine List.forall_mem_cons.mpr ⟨head, ?_⟩
  refine soundAll_append (soundAll_append (soundAll_append (soundAll_append (soundAll_append
    (soundAll_fieldLines clean _) ?_) (soundAll_fieldLines clean _)) newlines) sound) newlines
  exact soundAll_append newlines (soundAll_singleton indent)

end Listings

/-! ### Tools -/

namespace SearchTool

/-- What the functions of a tool keep, and that its arena is large enough. -/
structure Sound (tool : SearchTool) : Prop where
  buffers : tool.HasBuffers
  options : ∀ input, Explains (tool.options input)
  inner : ∀ query options, Explains (tool.inner query options)
  request : ∀ key inner, Explains (tool.request key inner)
  results : ∀ body, Explains (tool.results body)
  clean : ∀ {body array}, Clean body → tool.results body = .ok array → Clean array
  missingKey : IsMessage (ascii tool.missingKey)
  status : IsMessage (ascii tool.statusLabel) ∧ (ascii tool.statusLabel).length ≤ 20
  label : IsMessage (ascii tool.label) ∧ (ascii tool.label).length ≤ 20
  count : ∀ {input options}, tool.options input = .ok options → tool.count options ≤ 25
  words : ∀ {result}, Clean result → SoundAll (tool.words result)
  room : maxRequestBytes + tool.stepsCost + (tool.outBuf * 4 + 4096) ≤ heapSize

variable {tool : SearchTool} {input env query resp : Bytes} {httpCall : Bytes → Bytes}
  {results : List Bytes}

def pieces (tool : SearchTool) (results : List Bytes) : List (List (Piece UInt8)) :=
  (tool.listing results).map fun puts => puts.map Put.piece

theorem soundAll_entries (sound : tool.Sound) (number : ℕ)
    (clean : ∀ result ∈ results, Clean result) : SoundAll (tool.entries number results) := by
  induction results generalizing number with
  | nil => exact List.forall_mem_nil _
  | cons result rest ih =>
    rw [List.forall_mem_cons] at clean
    exact soundAll_append (soundAll_resultLines number clean.1 (sound.words clean.1))
      (ih (number + 1) clean.2)

theorem soundAll_listing (sound : tool.Sound) (clean : ∀ result ∈ results, Clean result) :
    SoundAll (tool.listing results) := by
  refine soundAll_append (soundAll_entries sound 1 clean) ?_
  split_ifs
  · exact soundAll_singleton (List.forall_mem_singleton.mpr
      (show IsMessage (ascii "No results found.") by decide))
  · exact List.forall_mem_nil _

theorem outputText_eq (tool : SearchTool) (results : List Bytes) :
    tool.outputText results = keptRun tool.outBuf (tool.pieces results) := by
  have areOf : List.Forall₂ (List.Forall₂ Piece.IsOf)
      ((tool.listing results).map fun puts => puts.map
        (Put.write : Put → Write UInt8 tool.outBuf)) (tool.pieces results) := by
    rw [pieces, List.forall₂_map_left_iff, List.forall₂_map_right_iff, List.forall₂_same]
    intro puts _
    rw [List.forall₂_map_left_iff, List.forall₂_map_right_iff, List.forall₂_same]
    exact fun put _ => put.isOf
  exact written_runAll areOf Buffer.empty

theorem splits_isUtf8 : Splits IsUtf8 IsFirst where
  nil := isUtf8_nil
  append := IsUtf8.append
  split := isUtf8_split

theorem isUtf8_outputText_iff (sound : tool.Sound) (clean : ∀ result ∈ results, Clean result) :
    IsUtf8 (tool.outputText results) ↔ RunGood IsUtf8 tool.outBuf (tool.pieces results) := by
  rw [outputText_eq]
  refine good_keptRun_iff splits_isUtf8 fun first member piece inFirst => ?_
  obtain ⟨puts, listed, rfl⟩ := List.mem_map.mp member
  obtain ⟨put, inPuts, rfl⟩ := List.mem_map.mp inFirst
  exact (soundAll_listing sound clean puts listed put inPuts).begins

theorem noLost_outputText (sound : tool.Sound) (clean : ∀ result ∈ results, Clean result) :
    NoLost (tool.outputText results) := by
  rw [outputText_eq]
  intro b member
  obtain ⟨first, inPieces, piece, inFirst, inPiece⟩ := of_mem_keptRun member
  obtain ⟨puts, listed, rfl⟩ := List.mem_map.mp inPieces
  obtain ⟨put, inPuts, rfl⟩ := List.mem_map.mp inFirst
  exact (soundAll_listing sound clean puts listed put inPuts).noLost b inPiece

def summarySpelled (tool : SearchTool) (query : Bytes) (number : ℕ) : Bytes :=
  ascii tool.label ++ (query.take 60 ++ (ascii " (" ++
    (digitsText (decimal number) ++ ascii " results)")))

theorem length_decimal_le {number : ℕ} (few : number ≤ 25) : (decimal number).length ≤ 2 := by
  have all : ∀ k ≤ 25, (decimal k).length ≤ 2 := by decide +kernel
  exact all number few

theorem length_summarySpelled_le (sound : tool.Sound) {number : ℕ} (few : number ≤ 25) :
    (tool.summarySpelled query number).length ≤ 93 := by
  have label := sound.label.2
  have shown := List.length_take_le 60 query
  have digits := length_decimal_le few
  have opening : (ascii " (").length = 2 := by decide
  have closing : (ascii " results)").length = 9 := by decide
  rw [summarySpelled, List.length_append, List.length_append, List.length_append,
    List.length_append, opening, closing, digitsText, List.length_map]
  omega

theorem summaryText_eq (sound : tool.Sound) {number : ℕ} (few : number ≤ 25) :
    tool.summaryText query number = tool.summarySpelled query number := by
  have writes : Writes ((writeBytes (ascii tool.label)).andThen
      ((writeBytes (query.take 60)).andThen ((writeBytes (ascii " (")).andThen
        ((writeU32 number).andThen (writeBytes (ascii " results)"))))) : Write UInt8 128)
      (tool.summarySpelled query number) :=
    (writes_word _).andThen ((writes_word _).andThen ((writes_word _).andThen
      ((writes_word _).andThen (writes_word _))))
  have room : (@Buffer.empty UInt8 128).HasRoom (tool.summarySpelled query number) :=
    (Nat.zero_add _).trans_le ((length_summarySpelled_le sound few).trans (by decide))
  rw [summaryText, writes.of_room _ room]
  rfl

theorem isUtf8_summarySpelled_iff (sound : tool.Sound) (number : ℕ) :
    IsUtf8 (tool.summarySpelled query number) ↔ IsUtf8 (query.take 60) := by
  obtain ⟨label, spelled⟩ := sound.label.1.isText.isUtf8
  have low : (0x20 : UInt8).toNat < 0x80 := by decide
  have opening : ascii " (" = 0x20 :: [0x28] := by decide
  have behind : IsUtf8 ([0x28] ++ (digitsText (decimal number) ++ ascii " results)")) :=
    ((isText_of_bytes (by decide)).append ((isText_digitsText _).append
      (isText_of_bytes (by decide)))).isUtf8
  rw [summarySpelled, ← spelled, isUtf8_encode_append, opening, List.cons_append,
    isUtf8_append_cons low]
  exact and_iff_left behind

theorem noLost_summarySpelled (sound : tool.Sound) (noLost : NoLost query) (number : ℕ) :
    NoLost (tool.summarySpelled query number) := by
  have opening : NoLost (ascii " (") := noLost_of_isText (isText_of_bytes (by decide))
  have closing : NoLost (ascii " results)") := noLost_of_isText (isText_of_bytes (by decide))
  have digits : NoLost (digitsText (decimal number)) := noLost_of_isText (isText_digitsText _)
  refine List.forall_mem_append.mpr ⟨noLost_of_isText sound.label.1.isText, ?_⟩
  refine List.forall_mem_append.mpr ⟨noLost.of_subset (List.take_subset 60 query), ?_⟩
  exact List.forall_mem_append.mpr ⟨opening, List.forall_mem_append.mpr ⟨digits, closing⟩⟩

/-! ### Errors -/

theorem isMessage_statusMessage (sound : tool.Sound) (status : ℤ) :
    IsMessage (tool.statusMessage status) := by
  have label := sound.status.1
  have verbatim := isVerbatim_append label.verbatim
    (isVerbatim_digitsText (decimal ((max status 0).toNat % 2 ^ 32)))
  have isAscii : ((ascii tool.statusLabel ++
      digitsText (decimal ((max status 0).toNat % 2 ^ 32))).all isTextByte) = true := by
    rw [List.all_append, label.ascii, all_isTextByte_digitsText]
    rfl
  have writes : Writes ((writeBytes (ascii tool.statusLabel)).andThen
      (writeU32 ((max status 0).toNat % 2 ^ 32)) : Write UInt8 64) _ :=
    (writes_word _).andThen (writes_word _)
  refine IsMessage.of_prefix verbatim isAscii ?_ ((Buffer.within _).trans (by decide))
  by_cases room : (@Buffer.empty UInt8 64).HasRoom (ascii tool.statusLabel ++
      digitsText (decimal ((max status 0).toNat % 2 ^ 32)))
  · rw [statusMessage, writes.of_room _ room]
    exact List.prefix_refl _
  · obtain ⟨-, start, isStart, written⟩ := writes.of_full _ room
    rw [statusMessage, written]
    exact isStart

theorem explains_sent (sound : tool.Sound) : Explains (tool.sent env input) := by
  refine Explains.bind ?_ fun raw _ =>
    (explains_build (by decide)).bind fun query _ => (sound.options input).bind fun options _ =>
    Explains.bind ?_ fun _ _ => (sound.inner query options).bind fun inner _ =>
    (sound.request env inner).bind fun req _ => explains_ok _
  · unfold queryField
    split
    · exact explains_ok _
    · exact explains_error (by decide)
  · unfold checkKey
    split_ifs
    · exact explains_error sound.missingKey
    · exact explains_ok _

theorem explains_content (sound : tool.Sound) (count : ℕ) : Explains (tool.content resp count) := by
  refine Explains.bind (explains_checkResponse resp) fun _ _ => Explains.bind ?_ fun _ _ =>
    Explains.bind (explains_responseBody resp) fun bodyRaw _ =>
    (sound.results _).bind fun array _ => explains_ok _
  unfold checkStatus
  simp only
  split_ifs
  · exact explains_error (isMessage_statusMessage sound _)
  · exact explains_ok _

theorem explains_answer (sound : tool.Sound) : Explains (tool.answer env httpCall input) :=
  ((explains_sent sound).bind fun _ _ => (explains_content sound _).bind fun _ _ =>
    explains_ok _).bind fun _ _ => explains_ok _

/-! ### What is found -/

theorem of_sent {options : tool.Options} {req : Bytes} (clean : Clean input)
    (sent : tool.sent env input = .ok (query, options, req)) :
    Clean query ∧ tool.options input = .ok options := by
  obtain ⟨raw, field, sent⟩ := bind_eq_ok.mp sent
  obtain ⟨query', built, sent⟩ := bind_eq_ok.mp sent
  obtain ⟨options', chosen, sent⟩ := bind_eq_ok.mp sent
  obtain ⟨_, -, sent⟩ := bind_eq_ok.mp sent
  obtain ⟨_, -, sent⟩ := bind_eq_ok.mp sent
  obtain ⟨_, -, sent⟩ := bind_eq_ok.mp sent
  obtain ⟨rfl, rfl, -⟩ := Except.ok.inj sent
  refine ⟨?_, chosen⟩
  unfold queryField at field
  split at field
  · rename_i read
    obtain rfl := Except.ok.inj field
    rw [of_build (fills_unescape _).toWrites built]
    exact (clean.extractStrField read).unescaped
  · cases field

theorem of_content (sound : tool.Sound) {count : ℕ} (clean : Clean resp)
    (fits : resp.length ≤ tool.respMax) (found : tool.content resp count = .ok results) :
    (∀ result ∈ results, Clean result) ∧ results.length ≤ count := by
  obtain ⟨_, -, found⟩ := bind_eq_ok.mp found
  obtain ⟨_, -, found⟩ := bind_eq_ok.mp found
  obtain ⟨bodyRaw, body, found⟩ := bind_eq_ok.mp found
  obtain ⟨array, isArray, found⟩ := bind_eq_ok.mp found
  obtain rfl := Except.ok.inj found
  unfold responseBody at body
  split at body
  · rename_i raw read
    obtain rfl := Except.ok.inj body
    have whole : unescapeInto tool.respMax raw = unescaped raw := by
      rw [unescapeInto_eq]
      exact List.take_of_length_le
        ((length_unescaped_le raw).trans ((infix_of_extractStrField read).length_le.trans fits))
    rw [whole] at isArray
    have isClean := sound.clean (clean.extractStrField read).unescaped isArray
    exact ⟨clean_objects (clean_arrayIter isClean), length_objects_le _ _⟩
  · cases body

theorem of_found (sound : tool.Sound) (clean : Clean input)
    (answers : ∀ req, Clean (httpCall req) ∧ (httpCall req).length ≤ tool.respMax)
    (found : tool.found env httpCall input = .ok (query, results)) :
    Clean query ∧ (∀ result ∈ results, Clean result) ∧ results.length ≤ 25 := by
  obtain ⟨⟨query', options, req⟩, sent, found⟩ := bind_eq_ok.mp found
  obtain ⟨results', inReply, found⟩ := bind_eq_ok.mp found
  obtain ⟨rfl, rfl⟩ := Prod.mk.inj (Except.ok.inj found)
  obtain ⟨isQuery, chosen⟩ := of_sent clean sent
  obtain ⟨areClean, few⟩ := of_content sound (answers req).1 (answers req).2 inReply
  exact ⟨isQuery, areClean, few.trans (sound.count chosen)⟩

/-! ### What is answered -/

/-- Neither the query nor a piece of the listing is cut inside of a character. -/
def Uncut (tool : SearchTool) (query : Bytes) (results : List Bytes) : Prop :=
  IsUtf8 (query.take 60) ∧ RunGood IsUtf8 tool.outBuf (tool.pieces results)

/-- How long the object is, which has the listing twice. -/
def resultLength (tool : SearchTool) (query : Bytes) (results : List Bytes) : ℕ :=
  61 + spelled (tool.summarySpelled query results.length) +
    2 * spelled (keptRun tool.outBuf (tool.pieces results))

theorem answerText_ok {summary output : Bytes} (noLost : NoLost summary)
    (noLost' : NoLost output) : answering.answerText (.ok (summary, output)) =
      resultText summary output (some output) false := by
  have short := length_written_le noLost
  have short' := length_written_le noLost'
  have small : (resultText summary output (answering.visible output) false).length ≤
      answering.resultSize summary output := by
    have visible : answering.visible output = some output := rfl
    have size : answering.resultSize summary output =
        64 + summary.length * 2 + output.length * 4 := rfl
    rw [visible, size, length_resultText]
    simp only [Bool.false_eq_true, if_false]
    omega
  rw [Answering.answerText, if_pos small]
  rfl

theorem length_resultText_ok (summary output : Bytes) :
    (resultText summary output (some output) false).length =
      61 + spelled summary + 2 * spelled output := by
  simp only [length_resultText, length_written, Bool.false_eq_true, if_false]
  omega

/-- With room in the arena, the tool answers what it would answer without an end to it. -/
theorem handleToolCall_eq (sound : tool.Sound) (some : input ≠ [])
    (small : input.length ≤ maxRequestBytes) :
    ∃ start, start + (answering.answerText (tool.answer env httpCall input)).length ≤ heapSize ∧
      tool.handleToolCall env httpCall input input.length =
        .some ⟨start, answering.answerText (tool.answer env httpCall input)⟩ := by
  have fitsError : ∀ msg, tool.answer env httpCall input = .error msg →
      answering.Fits msg ∧ align - 1 + (64 + msg.length * 4) ≤ tool.outBuf * 4 + 4096 := by
    intro msg isError
    have message := explains_answer sound msg isError
    have short := message.short
    refine ⟨Answering.fits_of_isVerbatim message.verbatim, ?_⟩
    rw [align]
    omega
  have fitsResult : ∀ summary output, tool.answer env httpCall input = .ok (summary, output) →
      @Answering.finishCost answering summary output ≤ tool.outBuf * 4 + 4096 := by
    intro summary output found
    obtain ⟨⟨query, results⟩, isFound, found⟩ := bind_eq_ok.mp found
    obtain ⟨rfl, rfl⟩ := Prod.mk.inj (Except.ok.inj found)
    have summary : (tool.summaryText query results.length).length ≤ 128 := Buffer.within _
    have output : (tool.outputText results).length ≤ tool.outBuf := Buffer.within _
    have size : answering.resultSize (tool.summaryText query results.length)
        (tool.outputText results) = 64 + (tool.summaryText query results.length).length * 2 +
          (tool.outputText results).length * 4 := rfl
    rw [Answering.finishCost, size, align]
    omega
  have total : input.length + tool.stepsCost + (tool.outBuf * 4 + 4096) ≤ heapSize :=
    (Nat.add_le_add_right (Nat.add_le_add_right small _) _).trans sound.room
  obtain ⟨start, -, inside, answered⟩ := Answering.respond_of_yields
    (yields_steps env httpCall input sound.buffers) fitsError fitsResult total
  exact ⟨start, inside, (if_neg some).trans answered⟩

/-- **Answers of the search tools.** The host accepts what is answered exactly if nothing that is
found is cut inside of a character or too long. -/
theorem answered_iff (sound : tool.Sound) (guest : Guest heapSize) (clean : Clean input)
    (some : input ≠ []) (small : input.length ≤ maxRequestBytes)
    (answers : ∀ req, Clean (httpCall req) ∧ (httpCall req).length ≤ tool.respMax) :
    Answered guest (tool.handleToolCall env httpCall input input.length) ↔
      ∀ query results, tool.found env httpCall input = .ok (query, results) →
        tool.Uncut query results ∧ tool.resultLength query results ≤ maxResponseBytes := by
  obtain ⟨start, inside, region⟩ := @handleToolCall_eq tool input env httpCall sound some
    small
  rw [region, answered_some_iff guest inside]
  have answer : tool.answer env httpCall input = tool.found env httpCall input >>= fun found =>
      .ok (tool.summaryText found.1 found.2.length, tool.outputText found.2) := rfl
  -- an error of the tool is a short text of the source's own; what is found may be long or cut
  cases isFound : tool.found env httpCall input with
  | error msg =>
    have isError : tool.answer env httpCall input = .error msg := by
      rw [answer, isFound]
      rfl
    have message := explains_answer sound msg isError
    have length := Answering.length_errorText answering msg
    have short := message.short
    rw [written_of_isVerbatim message.verbatim, if_pos (show answering.shows = true from rfl)]
      at length
    rw [isError]
    refine iff_of_true ⟨?_, ?_⟩ nofun
    · have max : maxResponseBytes = 262144 := rfl
      rw [Answering.answerText, length, max]
      omega
    · have isText := clean_of_isText message.isText
      exact (isAnswer_resultText_iff isText.noLost isText.noLost
        fun _ same => Option.some_inj.mp same ▸ isText.noLost).mpr
          ⟨isText.isUtf8, isText.isUtf8, fun _ same => Option.some_inj.mp same ▸ isText.isUtf8⟩
  | ok found =>
    obtain ⟨query, results⟩ := found
    obtain ⟨isQuery, areClean, few⟩ := of_found sound clean answers isFound
    have isOk : tool.answer env httpCall input =
        .ok (tool.summarySpelled query results.length, tool.outputText results) := by
      rw [answer, isFound, ← summaryText_eq sound few]
      rfl
    have noLost := noLost_summarySpelled sound isQuery.noLost results.length
    have noLost' := noLost_outputText sound areClean
    have visible : ∀ text ∈ Option.some (tool.outputText results), NoLost text := fun _ same =>
      Option.some_inj.mp same ▸ noLost'
    rw [isOk, answerText_ok noLost noLost', length_resultText_ok,
      isAnswer_resultText_iff noLost noLost' visible, isUtf8_summarySpelled_iff sound,
      isUtf8_outputText_iff sound areClean, outputText_eq]
    constructor
    · rintro ⟨short, isSummary, isOutput, -⟩ _ _ ⟨⟩
      exact ⟨⟨isSummary, isOutput⟩, short⟩
    · intro all
      obtain ⟨⟨isSummary, isOutput⟩, short⟩ := all query results rfl
      refine ⟨short, isSummary, isOutput, fun text same => ?_⟩
      obtain rfl := Option.some_inj.mp same
      rw [← outputText_eq, isUtf8_outputText_iff sound areClean]
      exact isOutput

end SearchTool

end KelvinClaw.Plugin.SearchTools
