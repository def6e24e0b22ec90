import KelvinClaw.Library.BumpArena
import KelvinClaw.Library.JsonUtf8
import KelvinClaw.Plugin.JsonMembers
import KelvinClaw.Plugin.JsonStrings

/-!
# Calls of the tool plugins

A call of a tool plugin takes its buffers from an arena, and what it cannot do it answers with an
error: a result with the message as its summary and as its output. The result is written into a
last buffer, whose size is computed from the lengths of its texts.

The plugins differ in their arenas, and in whether they show the output to the user as well.
-/

namespace KelvinClaw.Plugin.ToolCall

open Systems Systems.Arena Systems.Json JsonScanner JsonStrings

/-! ### Objects -/

def field (name : String) (value : JsonValue) : Member JsonValue :=
  ⟨noBlank, plainBody name.toList, noBlank, noBlank, value, noBlank⟩

/-- The letters of `write_json_str`. -/
def pluginLetter (c : Char) : Option ShortEscape :=
  if c = '"' then some .quote
  else if c = '\\' then some .backslash
  else if c = '\n' then some .newline
  else if c = '\r' then some .carriageReturn
  else if c = '\t' then some .tab
  else none

def pluginSpelling : Spelling where
  letter := pluginLetter
  char_letter c escape found := by
    unfold pluginLetter at found
    split_ifs at found with h h h h h <;> (rw [h, ← Option.some_inj.mp found]; rfl)
  covers c none := by
    unfold pluginLetter at none
    split_ifs at none with isQuote isBackslash
    exact ⟨isQuote, isBackslash⟩

/-- `ToolCallResult`. -/
structure ToolResult where
  summary : List Char
  output : List Char
  visibleText : Option (List Char)
  isError : Bool

def ToolResult.document (result : ToolResult) : Document where
  lead := noBlank
  blank := noBlank
  members :=
    [field "summary" (.string (pluginSpelling.body result.summary)),
      field "output" (.string (pluginSpelling.body result.output)),
      field "visible_text" (match result.visibleText with
        | none => .null
        | some text => .string (pluginSpelling.body text)),
      field "is_error" (.bool result.isError)]
  trail := noBlank

/-! ### Writing results -/

section Write

variable {n : ℕ}

/-- `write_u32`. -/
def writeU32 (number : ℕ) : Write UInt8 n := writeBytes (digitsText (decimal number))

def flagText (isError : Bool) : Bytes := ascii (if isError then "true\x7d" else "false\x7d")

/-- The object of a result. What the plugin does not show is null. -/
def writeResult (summary output : Bytes) (visible : Option Bytes) (isError : Bool) :
    Write UInt8 n :=
  (writeBytes (ascii "\x7b\"summary\":")).andThen
    ((writeJsonStr summary).andThen
      ((writeBytes (ascii ",\"output\":")).andThen
        ((writeJsonStr output).andThen
          (match visible with
            | none => writeBytes (ascii ",\"visible_text\":null,\"is_error\":" ++ flagText isError)
            | some text =>
              (writeBytes (ascii ",\"visible_text\":")).andThen
                ((writeJsonStr text).andThen
                  (writeBytes (ascii ",\"is_error\":" ++ flagText isError)))))))

/-- A text as `write_json_str` writes it. -/
def written (text : Bytes) : Bytes := quote :: (text.flatMap escaped ++ [quote])

def resultText (summary output : Bytes) (visible : Option Bytes) (isError : Bool) : Bytes :=
  ascii "\x7b\"summary\":" ++ (written summary ++ (ascii ",\"output\":" ++ (written output ++
    (match visible with
      | none => ascii ",\"visible_text\":null,\"is_error\":" ++ flagText isError
      | some text =>
        ascii ",\"visible_text\":" ++ (written text ++
          (ascii ",\"is_error\":" ++ flagText isError))))))

theorem writes_result (summary output : Bytes) (visible : Option Bytes) (isError : Bool) :
    Writes (writeResult summary output visible isError : Write UInt8 n)
      (resultText summary output visible isError) := by
  refine (writes_word _).andThen ((writes_jsonStr summary).andThen
    ((writes_word _).andThen ((writes_jsonStr output).andThen ?_)))
  cases visible with
  | none => exact writes_word _
  | some text => exact (writes_word _).andThen ((writes_jsonStr text).andThen (writes_word _))

theorem length_resultText (summary output : Bytes) (visible : Option Bytes) (isError : Bool) :
    (resultText summary output visible isError).length =
      (written summary).length + (written output).length +
        (match visible with
          | none => 58
          | some text => 54 + (written text).length) + (if isError then 0 else 1) := by
  have head : (ascii "\x7b\"summary\":").length = 11 := by decide
  have middle : (ascii ",\"output\":").length = 10 := by decide
  have hidden : (ascii ",\"visible_text\":null,\"is_error\":").length = 32 := by decide
  have shown : (ascii ",\"visible_text\":").length = 16 := by decide
  have last : (ascii ",\"is_error\":").length = 12 := by decide
  have flag : (flagText isError).length = 5 + if isError then 0 else 1 := by
    cases isError <;> decide
  cases visible <;>
    simp only [resultText.eq_def, List.length_append, head, middle, hidden, shown, last, flag] <;>
    omega

/-- A byte that is no control byte, quote or backslash is written as it is. -/
theorem escaped_of_plain {b : UInt8} (high : 0x20 ≤ b.toNat) (notQuote : b ≠ quote)
    (notBackslash : b ≠ backslash) : escaped b = [b] := by
  have notLow : ∀ c : UInt8, c.toNat < 0x20 → b ≠ c := fun c low same =>
    Nat.not_lt.mpr high (same ▸ low)
  have notControl : ¬ b < 0x20 := fun low => Nat.not_lt.mpr high (UInt8.lt_iff_toNat_lt.mp low)
  rw [escaped, if_neg notQuote, if_neg notBackslash, if_neg (notLow _ (by decide)),
    if_neg (notLow _ (by decide)), if_neg (notLow _ (by decide)), if_neg notControl]

theorem text_pluginItem (c : Char) :
    (pluginSpelling.item c).text = (String.utf8EncodeChar c).flatMap escaped := by
  by_cases low : c.toNat < 0x20
  · have all : ∀ k < 0x20, (pluginSpelling.item (Char.ofNat k)).text =
        (String.utf8EncodeChar (Char.ofNat k)).flatMap escaped := by
      decide +kernel
    exact @Char.ofNat_toNat c ▸ all c.toNat low
  · by_cases isQuote : c = '"'
    · rw [isQuote]
      decide
    · by_cases isBackslash : c = '\\'
      · rw [isBackslash]
        decide
      · have plain : IsPlain c := ⟨Nat.not_lt.mp low, isQuote, isBackslash⟩
        have same : (String.utf8EncodeChar c).flatMap escaped =
            (String.utf8EncodeChar c).flatMap fun b => [b] := by
          refine List.flatMap_congr fun b member => ?_
          obtain ⟨high, notQuote, notBackslash⟩ := of_mem_of_isPlain plain member
          exact escaped_of_plain high notQuote notBackslash
        have notLow : ∀ d : Char, d.toNat < 0x20 → c ≠ d := fun d lowChar equal =>
          low (equal ▸ lowChar)
        have none : pluginSpelling.letter c = none := by
          change pluginLetter c = none
          rw [pluginLetter, if_neg isQuote, if_neg isBackslash, if_neg (notLow _ (by decide)),
            if_neg (notLow _ (by decide)), if_neg (notLow _ (by decide))]
        rw [same, List.flatMap_singleton', Spelling.item]
        split
        · rename_i escape found
          exact absurd (none.symm.trans found) nofun
        · rw [dif_neg low]
          rfl

theorem written_encode (text : List Char) :
    written (encode text) = literal (pluginSpelling.body text) := by
  have same : (encode text).flatMap escaped = bodyText (pluginSpelling.body text) := by
    rw [encode, List.flatMap_assoc, bodyText, Spelling.body, List.flatMap_map]
    exact List.flatMap_congr fun c _ => (text_pluginItem c).symm
  rw [written, same, literal]

theorem resultText_encode (result : ToolResult) :
    resultText (encode result.summary) (encode result.output) (result.visibleText.map encode)
      result.isError = result.document.text := by
  have summary : ascii "\x7b\"summary\":" =
      openBrace :: (literal (plainBody "summary".toList) ++ [colon]) := by decide
  have output : ascii ",\"output\":" =
      comma :: (literal (plainBody "output".toList) ++ [colon]) := by decide
  have visible : ascii ",\"visible_text\":" =
      comma :: (literal (plainBody "visible_text".toList) ++ [colon]) := by decide
  have hidden : ascii ",\"visible_text\":null,\"is_error\":" =
      comma :: (literal (plainBody "visible_text".toList) ++ [colon]) ++ (ascii "null" ++
        comma :: (literal (plainBody "is_error".toList) ++ [colon])) := by decide
  have isError : ascii ",\"is_error\":" =
      comma :: (literal (plainBody "is_error".toList) ++ [colon]) := by decide
  have flag : flagText result.isError =
      (JsonValue.bool result.isError).text ++ [closeBrace] := by
    cases result.isError <;> (rw [JsonValue.text]; decide)
  have object : ∀ members, (JsonValue.object noBlank members).text =
      openBrace :: (membersText noBlank members ++ [closeBrace]) := fun members => by
    rw [JsonValue.text]
  have string : ∀ body, (JsonValue.string body).text = literal body := fun body => by
    rw [JsonValue.text]
  have null : JsonValue.null.text = ascii "null" := by rw [JsonValue.text]
  have blank : noBlank.1 = [] := rfl
  cases shown : result.visibleText <;>
    simp only [resultText.eq_def, ToolResult.document, Document.text, object, string, null, shown,
      membersText, moreMembers, Member.head, field, blank, written_encode, summary, output,
      visible, hidden, isError, flag, Option.map_none, Option.map_some, List.nil_append,
      List.append_nil, List.cons_append, List.append_assoc]

end Write

/-! ### Results as they are read -/

section Read

variable {text more : Bytes}

theorem escaped_ne_nil (b : UInt8) : escaped b ≠ [] := by
  unfold escaped
  split_ifs <;> exact List.cons_ne_nil _ _

theorem isBody_escaped (b : UInt8) : IsBody (escaped b) := by
  unfold escaped
  split_ifs with isQuote isBackslash isNewline isReturn isTab low
  iterate 5 exact .escape _ .nil
  · have digits : (List.range 0x20).all (fun k => (hexDigits (UInt8.ofNat k)).all
        fun digit => decide (digit ≠ quote ∧ digit ≠ backslash)) := by
      decide +kernel
    simp only [List.all_eq_true, List.mem_range, decide_eq_true_eq] at digits
    have bound : b.toNat < 0x20 := UInt8.lt_iff_toNat_lt.mp low
    refine .escape 0x75 (isBody_of_plain (List.forall_mem_append.mpr ⟨by decide +kernel, ?_⟩))
    exact @UInt8.ofNat_toNat b ▸ digits b.toNat bound
  · exact .byte ⟨isQuote, isBackslash⟩ .nil

theorem isBody_flatMap_escaped (text : Bytes) : IsBody (text.flatMap escaped) := by
  induction text with
  | nil => exact .nil
  | cons b rest ih => exact (isBody_escaped b).append ih

def digitValue (b : UInt8) : UInt8 := if b < 0x61 then b - 0x30 else b - 0x57

/-- The byte that a text was written for at its start. -/
def firstByte : Bytes → UInt8
  | [] => 0
  | [b] => b
  | b :: c :: rest =>
    if b ≠ backslash then b
    else if c ≠ 0x75 then unescapedByte c
    else
      match rest with
      | _ :: _ :: high :: low :: _ => digitValue high * 16 + digitValue low
      | _ => 0

theorem firstByte_escaped (b : UInt8) (rest : Bytes) : firstByte (escaped b ++ rest) = b := by
  unfold escaped
  split_ifs with isQuote isBackslash isNewline isReturn isTab low
  iterate 5
    · subst b
      rfl
  · have values : ∀ k < 0x20, digitValue (hexDigit (UInt8.ofNat k >>> 4)) * 16 +
        digitValue (hexDigit (UInt8.ofNat k &&& 0xF)) = UInt8.ofNat k := by decide
    have bound : b.toNat < 0x20 := UInt8.lt_iff_toNat_lt.mp low
    exact (@UInt8.ofNat_toNat b ▸ values b.toNat bound :)
  · cases rest with
    | nil => rfl
    | cons c rest => exact if_pos isBackslash

theorem flatMap_escaped_inj (same : text.flatMap escaped = more.flatMap escaped) : text = more := by
  induction text generalizing more with
  | nil =>
    cases more with
    | nil => rfl
    | cons c rest => exact absurd (List.append_eq_nil_iff.mp same.symm).1 (escaped_ne_nil c)
  | cons b text ih =>
    cases more with
    | nil => exact absurd (List.append_eq_nil_iff.mp same).1 (escaped_ne_nil b)
    | cons c more =>
      rw [List.flatMap_cons, List.flatMap_cons] at same
      have first : b = c := by
        rw [← firstByte_escaped b (text.flatMap escaped), same, firstByte_escaped]
      rw [first] at same ⊢
      rw [ih (List.append_cancel_left same)]

theorem body_inj {body body' rest rest' : Bytes} (isBody : IsBody body) (isBody' : IsBody body')
    (same : body ++ quote :: rest = body' ++ quote :: rest') : body = body' ∧ rest = rest' := by
  have lengths := closingQuote_append isBody rest
  rw [same, closingQuote_append isBody' rest', Option.some_inj] at lengths
  obtain ⟨bodies, behind⟩ := List.append_inj same lengths.symm
  exact ⟨bodies, (List.cons.inj behind).2⟩

theorem written_inj {rest rest' : Bytes} (same : written text ++ rest = written more ++ rest') :
    text = more ∧ rest = rest' := by
  have behind : text.flatMap escaped ++ quote :: rest = more.flatMap escaped ++ quote :: rest' := by
    simp only [written, List.cons_append, List.append_assoc] at same
    exact (List.cons.inj same).2
  obtain ⟨bodies, rests⟩ :=
    body_inj (isBody_flatMap_escaped text) (isBody_flatMap_escaped more) behind
  exact ⟨flatMap_escaped_inj bodies, rests⟩

theorem flagText_inj {isError isError' : Bool} (same : flagText isError = flagText isError') :
    isError = isError' := by
  revert same
  cases isError <;> cases isError' <;> decide

theorem resultText_inj {summary output summary' output' : Bytes} {visible visible' : Option Bytes}
    {isError isError' : Bool} (same : resultText summary output visible isError =
      resultText summary' output' visible' isError') :
    summary = summary' ∧ output = output' ∧ visible = visible' ∧ isError = isError' := by
  obtain ⟨summaries, same⟩ := written_inj (List.append_cancel_left same)
  obtain ⟨outputs, same⟩ := written_inj (List.append_cancel_left same)
  refine ⟨summaries, outputs, ?_⟩
  have hidden : ascii ",\"visible_text\":null,\"is_error\":" =
      ascii ",\"visible_text\":" ++ 0x6E :: ascii "ull,\"is_error\":" := by decide
  cases visible with
  | none =>
    cases visible' with
    | none => exact ⟨rfl, flagText_inj (List.append_cancel_left same)⟩
    | some text' =>
      simp only [hidden, List.append_assoc] at same
      exact absurd (List.cons.inj (List.append_cancel_left same)).1 (by decide)
  | some text =>
    cases visible' with
    | none =>
      simp only [hidden, List.append_assoc] at same
      exact absurd (List.cons.inj (List.append_cancel_left same)).1 (by decide)
    | some text' =>
      obtain ⟨texts, same⟩ := written_inj (List.append_cancel_left same)
      exact ⟨congrArg some texts, flagText_inj (List.append_cancel_left same)⟩

theorem resultText_eq_iff {summary output : Bytes} {visible : Option Bytes} {isError : Bool}
    {result : ToolResult} :
    resultText summary output visible isError = result.document.text ↔
      summary = encode result.summary ∧ output = encode result.output ∧
        visible = result.visibleText.map encode ∧ isError = result.isError := by
  rw [← resultText_encode]
  refine ⟨resultText_inj, ?_⟩
  rintro ⟨rfl, rfl, rfl, rfl⟩
  rfl

end Read

/-! ### Control bytes -/

def NoLost (text : Bytes) : Prop := ∀ b ∈ text, ¬ IsLost b

section NoLost

variable {text more : Bytes}

theorem NoLost.of_subset (noLost : NoLost text) (subset : more ⊆ text) : NoLost more :=
  fun b member => noLost b (subset member)

theorem noLost_of_isText (isText : IsText text) : NoLost text := by
  obtain ⟨chars, rfl, isChar⟩ := isText
  rintro b member ⟨low, notNewline, notReturn, notTab⟩
  obtain ⟨c, inChars, inChar⟩ := List.mem_flatMap.mp member
  have small : b.toNat < 0x20 := UInt8.lt_iff_toNat_lt.mp low
  have ascii : c.toNat < 0x80 := by
    by_contra high
    have := le_of_mem_utf8EncodeChar (Nat.not_lt.mp high) inChar
    omega
  rw [utf8EncodeChar_of_ascii ascii, List.mem_singleton] at inChar
  have same : b.toNat = c.toNat := by
    rw [inChar, UInt8.toNat_ofNat']
    exact Nat.mod_eq_of_lt (by omega)
  rcases isChar c inChars with plain | rfl | rfl | rfl
  · omega
  · exact notTab (UInt8.toNat_inj.mp same)
  · exact notNewline (UInt8.toNat_inj.mp same)
  · exact notReturn (UInt8.toNat_inj.mp same)

theorem NoLost.unescaped (noLost : NoLost text) : NoLost (unescaped text) := by
  have letter : ∀ b : UInt8, ¬ IsLost b → ¬ IsLost (unescapedByte b) := by
    intro b fine
    unfold unescapedByte
    split_ifs
    · decide
    · decide
    · decide
    · exact fine
  induction text using unescaped.induct with
  | case1 => exact noLost
  | case2 b => exact noLost
  | case3 c rest ih =>
    rw [NoLost, List.forall_mem_cons, List.forall_mem_cons] at noLost
    rw [unescaped_escape]
    exact List.forall_mem_cons.mpr ⟨letter c noLost.2.1, ih noLost.2.2⟩
  | case4 b c rest other ih =>
    rw [NoLost, List.forall_mem_cons] at noLost
    rw [JsonStrings.unescaped, if_neg other]
    exact List.forall_mem_cons.mpr ⟨noLost.1, ih noLost.2⟩

theorem length_unescaped_le (text : Bytes) : (unescaped text).length ≤ text.length := by
  induction text using unescaped.induct with
  | case1 => exact le_rfl
  | case2 b => exact le_rfl
  | case3 c rest ih =>
    rw [unescaped_escape]
    exact (Nat.succ_le_succ ih).trans (Nat.le_succ _)
  | case4 b c rest other ih =>
    rw [unescaped, if_neg other]
    exact Nat.succ_le_succ ih

theorem length_written_le (noLost : NoLost text) :
    (written text).length ≤ 2 * text.length + 2 := by
  have each : ∀ b : UInt8, ¬ IsLost b → (escaped b).length ≤ 2 := by
    intro b fine
    unfold escaped
    split_ifs with isQuote isBackslash isNewline isReturn isTab low
    iterate 5 exact le_rfl
    · exact absurd ⟨low, isNewline, isReturn, isTab⟩ fine
    · exact Nat.le_succ 1
  have whole : (text.flatMap escaped).length ≤ 2 * text.length := by
    induction text with
    | nil => exact le_rfl
    | cons b rest ih =>
      rw [NoLost, List.forall_mem_cons] at noLost
      rw [List.flatMap_cons, List.length_append, List.length_cons]
      have first := each b noLost.1
      have later := ih noLost.2
      omega
  rw [written, List.length_cons, List.length_append, List.length_singleton]
  omega

theorem infix_of_extractStrField {json name raw : Bytes}
    (found : extractStrField json name = some raw) : raw <:+: json := by
  obtain ⟨i, -, read⟩ := Option.bind_eq_some_iff.mp found
  rw [extractStrValue] at read
  cases dropped : json.drop i with
  | nil =>
    rw [dropped] at read
    cases read
  | cons b rest =>
    rw [dropped] at read
    simp only at read
    split_ifs at read
    obtain ⟨n, -, rfl⟩ := Option.map_eq_some_iff.mp read
    exact (List.take_prefix n rest).isInfix.trans
      ((List.suffix_cons b rest).isInfix.trans (dropped ▸ (List.drop_suffix i json).isInfix))

theorem NoLost.extractStrField {json name raw : Bytes} (noLost : NoLost json)
    (found : extractStrField json name = some raw) : NoLost raw :=
  noLost.of_subset (infix_of_extractStrField found).subset

def IsVerbatim (text : Bytes) : Prop := (text.all fun b => decide (escaped b = [b])) = true

instance (text : Bytes) : Decidable (IsVerbatim text) := inferInstanceAs (Decidable (_ = true))

theorem written_of_isVerbatim {text : Bytes} (verbatim : IsVerbatim text) :
    (written text).length = text.length + 2 := by
  have same : text.flatMap escaped = text := by
    induction text with
    | nil => rfl
    | cons b rest ih =>
      rw [IsVerbatim, List.all_cons, Bool.and_eq_true, decide_eq_true_eq] at verbatim
      rw [List.flatMap_cons, verbatim.1, ih verbatim.2]
      rfl
  rw [written, same, List.length_cons, List.length_append, List.length_singleton]

theorem isVerbatim_append {text more : Bytes} (first : IsVerbatim text) (second : IsVerbatim more) :
    IsVerbatim (text ++ more) := by
  rw [IsVerbatim, List.all_append, first, second]
  rfl

theorem isVerbatim_digitsText (digits : List Digit) : IsVerbatim (digitsText digits) := by
  have each : ∀ digit, escaped (digitByte digit) = [digitByte digit] := by decide
  refine List.all_eq_true.mpr fun b member => ?_
  obtain ⟨digit, -, rfl⟩ := List.mem_map.mp member
  exact decide_eq_true (each digit)

end NoLost

/-! ### Messages -/

/-- A short message of printable ASCII, which is written as it is. -/
structure IsMessage (text : Bytes) : Prop where
  verbatim : IsVerbatim text
  ascii : (text.all isTextByte) = true
  short : text.length ≤ 512

instance (text : Bytes) : Decidable (IsMessage text) :=
  decidable_of_iff (IsVerbatim text ∧ (text.all isTextByte) = true ∧ text.length ≤ 512)
    ⟨fun ⟨verbatim, ascii, short⟩ => ⟨verbatim, ascii, short⟩,
      fun ⟨verbatim, ascii, short⟩ => ⟨verbatim, ascii, short⟩⟩

def Explains {α : Type} (outcome : Except Bytes α) : Prop :=
  ∀ msg, outcome = .error msg → IsMessage msg

section Messages

variable {α β : Type} {text start msg : Bytes}

theorem IsMessage.isText (message : IsMessage text) : IsText text := isText_of_bytes message.ascii

theorem IsMessage.of_prefix (verbatim : IsVerbatim text) (isAscii : (text.all isTextByte) = true)
    (isStart : start <+: text) (short : start.length ≤ 512) : IsMessage start :=
  ⟨List.all_eq_true.mpr fun b member => List.all_eq_true.mp verbatim b (isStart.subset member),
    List.all_eq_true.mpr fun b member => List.all_eq_true.mp isAscii b (isStart.subset member),
    short⟩

theorem all_isTextByte_digitsText (digits : List Digit) :
    ((digitsText digits).all isTextByte) = true := by
  have each : ∀ digit, isTextByte (digitByte digit) = true := by decide
  refine List.all_eq_true.mpr fun b member => ?_
  obtain ⟨digit, -, rfl⟩ := List.mem_map.mp member
  exact each digit

theorem explains_ok (a : α) : Explains (.ok a : Except Bytes α) := by
  intro msg same
  cases same

theorem explains_error (message : IsMessage msg) : Explains (.error msg : Except Bytes α) := by
  intro other same
  exact Except.error.inj same ▸ message

theorem Explains.bind {outcome : Except Bytes α} {next : α → Except Bytes β}
    (explains : Explains outcome) (later : ∀ a, outcome = .ok a → Explains (next a)) :
    Explains (outcome >>= next) := by
  cases outcome with
  | error msg => exact explains_error (explains msg rfl)
  | ok a => exact later a rfl

end Messages

/-! ### Answers -/

/-- A region of the arena with the text that is in it. -/
structure Region where
  start : ℕ
  text : Bytes
  deriving DecidableEq, Repr

def Answers (region : Option Region) (result : ToolResult) : Prop :=
  ∃ start, region = some ⟨start, result.document.text⟩

theorem answers_iff {start : ℕ} {summary output : Bytes} {visible : Option Bytes} {isError : Bool}
    {result : ToolResult} :
    Answers (some ⟨start, resultText summary output visible isError⟩) result ↔
      summary = encode result.summary ∧ output = encode result.output ∧
        visible = result.visibleText.map encode ∧ isError = result.isError := by
  rw [← resultText_eq_iff]
  refine ⟨fun ⟨_, same⟩ => (Region.mk.inj (Option.some_inj.mp same)).2, fun same => ⟨start, ?_⟩⟩
  rw [same]

def align : ℕ := 8

/-- How a plugin answers: the size of its arena, and whether it shows the output. -/
structure Answering where
  heapSize : ℕ
  shows : Bool

/-- What is written into a buffer of its own, or an error if it does not fit. -/
def build (n : ℕ) (write : Write UInt8 n) (error : String) : Except Bytes Bytes :=
  let result := write Buffer.empty
  if result.1 then .ok result.2.written else .error (ascii error)

theorem build_of_room {n : ℕ} {write : Write UInt8 n} {text : Bytes} {error : String}
    (writes : Writes write text) (room : text.length ≤ n) : build n write error = .ok text := by
  rw [build, writes.of_room Buffer.empty ((Nat.zero_add _).trans_le room)]
  rfl

theorem of_build {n : ℕ} {write : Write UInt8 n} {text found : Bytes} {error : String}
    (writes : Writes write text) (built : build n write error = .ok found) : found = text := by
  unfold build at built
  simp only at built
  split_ifs at built with ok
  have room := (writes.ok_iff _).mp ok
  rw [writes.of_room _ room] at built
  exact (Except.ok.inj built).symm

theorem explains_build {n : ℕ} {write : Write UInt8 n} {error : String}
    (message : IsMessage (ascii error)) : Explains (build n write error) := by
  unfold build
  simp only
  split_ifs
  · exact explains_ok _
  · exact explains_error message

/-- What is read of a string into a buffer of its own, as far as it fits. -/
def unescapeInto (n : ℕ) (raw : Bytes) : Bytes :=
  (unescapeJsonStr raw (@Buffer.empty UInt8 n)).2.written

theorem unescapeInto_eq (n : ℕ) (raw : Bytes) : unescapeInto n raw = (unescaped raw).take n :=
  (fills_unescape raw).written_eq Buffer.empty

theorem NoLost.unescapeInto {raw : Bytes} (noLost : NoLost raw) (n : ℕ) :
    NoLost (unescapeInto n raw) := by
  rw [unescapeInto_eq]
  exact noLost.unescaped.of_subset (List.take_subset n _)

theorem length_unescapeInto_le (n : ℕ) (raw : Bytes) : (unescapeInto n raw).length ≤ n :=
  Buffer.within _

namespace Answering

variable (answering : Answering)

def claim (len : ℕ) (error : String) : Step Bytes Unit :=
  Arena.take answering.heapSize align len (ascii error)

/-- `log_str`, which does not mind if there is no room for the message. -/
def logStr (msg : String) : Step Bytes Unit :=
  tryTake answering.heapSize align (ascii msg).length

/-- What is checked in the middle of a call. A message has a buffer of its own, without which the
call ends with another error. -/
def check {α : Type} (len : ℕ) (error : String) : Except Bytes α → Step Bytes α
  | .ok a => pure a
  | .error msg => do
    answering.claim len error
    fail msg

def visible (output : Bytes) : Option Bytes := if answering.shows then some output else none

def errorText (msg : Bytes) : Bytes := resultText msg msg (answering.visible msg) true

/-- `error_result`. What does not fit is cut. -/
def errorResult (msg : Bytes) (next : ℕ) : Option Region :=
  let bufSize := 64 + msg.length * 4
  (alloc answering.heapSize align bufSize next).map fun start =>
    ⟨start, ((writeResult msg msg (answering.visible msg) true) (@Buffer.empty UInt8 bufSize)
      ).2.written⟩

def resultSize (summary output : Bytes) : ℕ :=
  64 + summary.length * 2 + output.length * (if answering.shows then 4 else 2)

def finish (summary output : Bytes) (next : ℕ) : Option Region :=
  let resultSize := answering.resultSize summary output
  match alloc answering.heapSize align resultSize next with
  | none => answering.errorResult (ascii "alloc failed for result") next
  | some start =>
    let built := writeResult summary output (answering.visible output) false
      (@Buffer.empty UInt8 resultSize)
    if built.1 then some ⟨start, built.2.written⟩
    else answering.errorResult (ascii "failed to build result JSON") (start + resultSize)

/-- A call whose steps give a summary and an output, or end with a message. -/
def respond (steps : Step Bytes (Bytes × Bytes)) (next : ℕ) : Option Region :=
  match steps next with
  | .error (msg, next) => answering.errorResult msg next
  | .ok ((summary, output), next) => answering.finish summary output next

/-- What is answered if there is no end to the arena. -/
def answerText : Except Bytes (Bytes × Bytes) → Bytes
  | .error msg => answering.errorText msg
  | .ok (summary, output) =>
    if (resultText summary output (answering.visible output) false).length ≤
        answering.resultSize summary output then
      resultText summary output (answering.visible output) false
    else answering.errorText (ascii "failed to build result JSON")

def Fits (msg : Bytes) : Prop := (answering.errorText msg).length ≤ 64 + msg.length * 4

variable {answering} {msg summary output : Bytes} {next : ℕ}

theorem length_errorText (answering : Answering) (msg : Bytes) :
    (answering.errorText msg).length = if answering.shows then 54 + 3 * (written msg).length
      else 58 + 2 * (written msg).length := by
  rw [errorText, length_resultText, visible]
  cases answering.shows with
  | true =>
    simp only [if_true]
    omega
  | false =>
    simp only [if_true, Bool.false_eq_true, if_false]
    omega

theorem fits_of_isVerbatim (verbatim : IsVerbatim msg) : answering.Fits msg := by
  rw [Fits, length_errorText, written_of_isVerbatim verbatim]
  split_ifs <;> omega

theorem fits_of_noLost (hides : answering.shows = false) (noLost : NoLost msg) :
    answering.Fits msg := by
  have short := length_written_le noLost
  rw [Fits, length_errorText, hides, if_neg Bool.false_ne_true]
  omega

/-- The output of a plugin that does not show it always has room in its buffer. -/
theorem answerText_of_noLost (hides : answering.shows = false) (noLost : NoLost summary)
    (noLost' : NoLost output) :
    answering.answerText (.ok (summary, output)) = resultText summary output none false := by
  have short := length_written_le noLost
  have short' := length_written_le noLost'
  have small : (resultText summary output none false).length ≤
      answering.resultSize summary output := by
    rw [length_resultText, resultSize, hides]
    simp only [Bool.false_eq_true, if_false]
    omega
  have hidden : answering.visible output = none := by
    rw [visible, hides, if_neg Bool.false_ne_true]
  rw [answerText, hidden, if_pos small]

variable (answering) in
/-- The message of an error has room in its buffer, and is not long. -/
def Fine {α : Type} (outcome : Except Bytes α) : Prop :=
  ∀ msg, outcome = .error msg → answering.Fits msg ∧ msg.length ≤ 512

theorem fine_ok {α : Type} (a : α) : answering.Fine (.ok a) := nofun

theorem fine_of_explains {α : Type} {outcome : Except Bytes α} (explains : Explains outcome) :
    answering.Fine outcome := fun msg isError =>
  ⟨fits_of_isVerbatim (explains msg isError).verbatim, (explains msg isError).short⟩

theorem Fine.bind {α β : Type} {outcome : Except Bytes α} {next : α → Except Bytes β}
    (fine : answering.Fine outcome) (later : ∀ a, outcome = .ok a → answering.Fine (next a)) :
    answering.Fine (outcome >>= next) := by
  cases outcome with
  | error msg =>
    rintro _ ⟨⟩
    exact fine msg rfl
  | ok a => exact later a rfl

theorem yields_claim {len : ℕ} (nonempty : 0 < len) (error : String) :
    Yields answering.heapSize (answering.claim len error) (align - 1 + len) (.ok ()) :=
  yields_take (by decide) nonempty _

theorem yields_logStr {msg : String} (nonempty : 0 < (ascii msg).length) :
    Yields answering.heapSize (answering.logStr msg) (align - 1 + (ascii msg).length) (.ok ()) :=
  yields_tryTake (by decide) nonempty

theorem yields_check {α : Type} {len : ℕ} (nonempty : 0 < len) (error : String)
    (outcome : Except Bytes α) :
    Yields answering.heapSize (answering.check len error outcome) (align - 1 + len) outcome := by
  cases outcome with
  | ok a => exact (yields_pure a).mono (Nat.zero_le _)
  | error msg =>
    have both : Yields answering.heapSize (answering.claim len error >>= fun _ => @fail Bytes α msg)
        (align - 1 + len + 0) (.error msg) :=
      Yields.after (yields_claim nonempty error) (yields_fail msg)
    exact both

theorem errorResult_of_room (fits : answering.Fits msg)
    (room : next + (align - 1 + (64 + msg.length * 4)) ≤ answering.heapSize) :
    ∃ start, next ≤ start ∧ start + (64 + msg.length * 4) ≤ answering.heapSize ∧
      answering.errorResult msg next = some ⟨start, answering.errorText msg⟩ := by
  obtain ⟨start, found, above, below⟩ := alloc_eq_some (by decide) (by omega) room
  refine ⟨start, above, by omega, ?_⟩
  have whole := (writes_result msg msg (answering.visible msg) true).of_room
    (@Buffer.empty UInt8 (64 + msg.length * 4)) ((Nat.zero_add _).trans_le fits)
  simp only [errorResult, found, Option.map_some, whole]
  rfl

/-- What the end of a call takes from the arena at most. -/
def finishCost (summary output : Bytes) : ℕ :=
  (align - 1 + answering.resultSize summary output) + (align - 1 + (64 + 27 * 4))

theorem finish_of_room
    (room : next + @finishCost answering summary output ≤ answering.heapSize) :
    ∃ start, next ≤ start ∧
      start + (answering.answerText (.ok (summary, output))).length ≤ answering.heapSize ∧
      answering.finish summary output next =
        some ⟨start, answering.answerText (.ok (summary, output))⟩ := by
  have nonempty : 0 < answering.resultSize summary output :=
    Nat.lt_of_lt_of_le (by decide) ((Nat.le_add_right 64 _).trans (Nat.le_add_right _ _))
  rw [finishCost] at room
  obtain ⟨start, found, above, below⟩ := alloc_eq_some (by decide) nonempty
    (show next + (align - 1 + answering.resultSize summary output) ≤ answering.heapSize by omega)
  have roomError : start + answering.resultSize summary output + (align - 1 + (64 + 27 * 4)) ≤
      answering.heapSize := by
    refine Nat.le_trans (Nat.add_le_add_right (Nat.add_le_add_right below _) _) ?_
    rw [Nat.add_assoc next, Nat.add_assoc next]
    exact room
  have inside := Nat.le_of_add_right_le roomError
  have writes := @writes_result (answering.resultSize summary output) summary output
    (answering.visible output) false
  simp only [finish, found, answerText]
  by_cases small : (resultText summary output (answering.visible output) false).length ≤
      answering.resultSize summary output
  · rw [writes.of_room Buffer.empty ((Nat.zero_add _).trans_le small), if_pos rfl, if_pos small]
    exact ⟨start, above, (Nat.add_le_add_left small start).trans inside, rfl⟩
  · have full : ¬ (@Buffer.empty UInt8 (answering.resultSize summary output)).HasRoom
        (resultText summary output (answering.visible output) false) := fun room =>
      small ((Nat.zero_add _).symm.trans_le room)
    have fits : answering.Fits (ascii "failed to build result JSON") :=
      fits_of_isVerbatim (by decide)
    obtain ⟨start', above', below', answered⟩ := errorResult_of_room fits roomError
    rw [(writes.of_full Buffer.empty full).1, if_neg Bool.false_ne_true, if_neg small]
    refine ⟨start', above.trans ((Nat.le_add_right _ _).trans above'), ?_, answered⟩
    exact (Nat.add_le_add_left fits start').trans below'

/-- With room in the arena, a call answers what it would answer without an end to it. -/
theorem respond_of_yields {steps : Step Bytes (Bytes × Bytes)} {cost more : ℕ}
    {outcome : Except Bytes (Bytes × Bytes)}
    (yields : Yields answering.heapSize steps cost outcome)
    (fitsError : ∀ msg, outcome = .error msg →
      answering.Fits msg ∧ align - 1 + (64 + msg.length * 4) ≤ more)
    (fitsResult : ∀ summary output, outcome = .ok (summary, output) →
      @finishCost answering summary output ≤ more)
    (room : next + cost + more ≤ answering.heapSize) :
    ∃ start, next ≤ start ∧
      start + (answering.answerText outcome).length ≤ answering.heapSize ∧
      answering.respond steps next = some ⟨start, answering.answerText outcome⟩ := by
  obtain ⟨stop, above, below, same⟩ := yields next (by omega)
  rw [respond, same]
  cases outcome with
  | error msg =>
    obtain ⟨fitsMsg, small⟩ := fitsError msg rfl
    obtain ⟨start, above', below', answered⟩ := errorResult_of_room fitsMsg
      (show stop + _ ≤ answering.heapSize by omega)
    exact ⟨start, by omega, (Nat.add_le_add_left fitsMsg start).trans below', answered⟩
  | ok result =>
    have small := fitsResult result.1 result.2 rfl
    obtain ⟨start, above', inside, answered⟩ := @finish_of_room answering result.1 result.2 stop
      (by omega)
    exact ⟨start, by omega, inside, answered⟩

end Answering

end KelvinClaw.Plugin.ToolCall
