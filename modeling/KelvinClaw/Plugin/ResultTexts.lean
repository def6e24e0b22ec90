import KelvinClaw.Plugin.GuestMemory
import KelvinClaw.Plugin.HostResponses

/-!
# Result texts

What a plugin reads of texts is text, up to the places where it is cut. A result is an object that
the host accepts if its texts are texts and it is not too long; reading an escape does not make a
text longer when it is written again.
-/

namespace KelvinClaw.Plugin.ToolCall

open KelvinClaw.Core Systems Systems.Json JsonScanner JsonStrings

/-! ### Texts that are read -/

theorem unescaped_of_plain {text : Bytes} (plain : backslash ∉ text) : unescaped text = text := by
  have same := unescaped_append plain []
  rw [List.append_nil] at same
  exact same.trans (List.append_nil text)

theorem unescapedByte_of_high {b : UInt8} (high : 0x80 ≤ b.toNat) : unescapedByte b = b := by
  have other : ∀ letter : UInt8, letter.toNat < 0x80 → b ≠ letter := fun letter low same =>
    Nat.not_lt.mpr high (same ▸ low)
  rw [unescapedByte, if_neg (other _ (by decide)), if_neg (other _ (by decide)),
    if_neg (other _ (by decide))]

theorem backslash_notMem_char {c : Char} (other : c ≠ '\\') :
    backslash ∉ String.utf8EncodeChar c := by
  intro member
  by_cases low : c.toNat < 0x80
  · rw [utf8EncodeChar_of_ascii low, List.mem_singleton] at member
    have same : c.toNat = 0x5C := by
      rw [← UInt8.toNat_ofNat_of_lt' (low.trans (by decide)), ← member]
      rfl
    exact other (Char.toNat_inj.mp same)
  · exact absurd (le_of_mem_utf8EncodeChar (Nat.not_lt.mp low) member) (by decide)

theorem exists_unescaped_escape {c : Char} {rest : Bytes} {after : List Char} {part : Bytes}
    (ih : unescaped rest = encode after ++ part) :
    ∃ after, unescaped (backslash :: (String.utf8EncodeChar c ++ rest)) = encode after ++ part := by
  by_cases low : c.toNat < 0x80
  · have isAscii : (unescapedByte (UInt8.ofNat c.toNat)).toNat < 0x80 := by
      have all : ∀ k < 0x80, (unescapedByte (UInt8.ofNat k)).toNat < 0x80 := by decide
      exact all c.toNat low
    refine ⟨Char.ofNat (unescapedByte (UInt8.ofNat c.toNat)).toNat :: after, ?_⟩
    rw [utf8EncodeChar_of_ascii low, List.singleton_append, unescaped_escape, ih, encode_cons,
      utf8EncodeChar_ofNat isAscii]
    rfl
  · refine ⟨c :: after, ?_⟩
    cases isChar : String.utf8EncodeChar c with
    | nil => exact absurd isChar String.utf8EncodeChar_ne_nil
    | cons b tail =>
      have high : ∀ d ∈ b :: tail, 0x80 ≤ d.toNat := fun d member =>
        le_of_mem_utf8EncodeChar (Nat.not_lt.mp low) (isChar ▸ member)
      have plain : backslash ∉ tail := fun member =>
        absurd (high _ (List.mem_cons_of_mem b member)) (by decide)
      rw [List.cons_append, unescaped_escape, unescapedByte_of_high (high b List.mem_cons_self),
        unescaped_append plain, ih, encode_cons, isChar, List.cons_append, List.cons_append,
        List.append_assoc]

/-- Without its escapes, a text is a text, with the same part of a character at its end. -/
theorem exists_unescaped_eq (before : List Char) {part : Bytes} (isPart : IsPart part) :
    ∃ after, unescaped (encode before ++ part) = encode after ++ part := by
  have plainPart : unescaped part = part := unescaped_of_plain fun member =>
    absurd (le_of_mem_part isPart member) (by decide)
  induction hlen : before.length using Nat.strong_induction_on generalizing before with
  | h len ih =>
    cases before with
    | nil => exact ⟨[], plainPart⟩
    | cons c more =>
      by_cases isBackslash : c = '\\'
      · subst isBackslash
        cases more with
        | nil =>
          cases part with
          | nil => exact ⟨['\\'], rfl⟩
          | cons b part =>
            have high : ∀ d ∈ b :: part, 0x80 ≤ d.toNat := fun d => le_of_mem_part isPart
            have plain : backslash ∉ part := fun member =>
              absurd (high _ (List.mem_cons_of_mem b member)) (by decide)
            refine ⟨[], ?_⟩
            change unescaped (backslash :: b :: part) = b :: part
            rw [unescaped_escape, unescapedByte_of_high (high b List.mem_cons_self),
              unescaped_of_plain plain]
        | cons d more =>
          have shorter : more.length < len := hlen ▸ Nat.lt_succ_of_lt (Nat.lt_succ_self _)
          obtain ⟨after, same⟩ := ih more.length shorter more rfl
          obtain ⟨after', same'⟩ := @exists_unescaped_escape d _ _ _ same
          refine ⟨after', ?_⟩
          rw [← same', encode_cons, encode_cons, List.append_assoc, List.append_assoc]
          rfl
      · obtain ⟨after, same⟩ := ih more.length (hlen ▸ Nat.lt_succ_self _) more rfl
        refine ⟨c :: after, ?_⟩
        rw [encode_cons, List.append_assoc, unescaped_append (backslash_notMem_char isBackslash),
          same, encode_cons, List.append_assoc]

theorem isUtf8_unescaped {raw : Bytes} (isUtf8 : IsUtf8 raw) : IsUtf8 (unescaped raw) := by
  obtain ⟨text, rfl⟩ := isUtf8
  obtain ⟨after, same⟩ := exists_unescaped_eq text isPart_nil
  rw [List.append_nil, List.append_nil] at same
  exact ⟨after, same.symm⟩

theorem isFirst_of_head?_unescaped {raw : Bytes} (isUtf8 : IsUtf8 raw) (n : ℕ) {b : UInt8}
    (first : b ∈ (unescaped (raw.take n)).head?) : IsFirst b := by
  obtain ⟨text, rfl⟩ := isUtf8
  obtain ⟨before, part, cut, -, isPart⟩ := exists_take_eq text n
  obtain ⟨after, same⟩ := exists_unescaped_eq before isPart
  rw [cut, same] at first
  cases after with
  | nil => exact isFirst_of_head?_part isPart first
  | cons c after =>
    refine @isFirst_of_head?_encode (c :: after) b ?_
    cases isChar : String.utf8EncodeChar c with
    | nil => exact absurd isChar String.utf8EncodeChar_ne_nil
    | cons d tail =>
      rw [encode_cons, isChar] at first ⊢
      exact first

theorem isUtf8_of_extractStrField {json name raw : Bytes} (isUtf8 : IsUtf8 json)
    (found : extractStrField json name = some raw) : IsUtf8 raw := by
  obtain ⟨i, blank, blank', rest, -, -, split⟩ := extractStrField_eq_some_iff.mp found
  have low : quote.toNat < 0x80 := by decide
  have whole : json = (json.take i ++ quote :: (name ++ quote :: (blank.1 ++ colon :: blank'.1))) ++
      quote :: (raw ++ quote :: rest) := by
    conv_lhs => rw [← List.take_append_drop i json, split]
    simp only [List.append_assoc, List.cons_append]
  rw [whole] at isUtf8
  exact ((isUtf8_append_cons low).mp ((isUtf8_append_cons low).mp isUtf8).2).1

/-- Text in which tabs and line ends are the only control bytes. -/
structure Clean (text : Bytes) : Prop where
  isUtf8 : IsUtf8 text
  noLost : NoLost text

theorem clean_of_isText {text : Bytes} (isText : IsText text) : Clean text :=
  ⟨isText.isUtf8, noLost_of_isText isText⟩

theorem Clean.unescaped {text : Bytes} (clean : Clean text) : Clean (unescaped text) :=
  ⟨isUtf8_unescaped clean.isUtf8, clean.noLost.unescaped⟩

theorem Clean.extractStrField {json name raw : Bytes} (clean : Clean json)
    (found : extractStrField json name = some raw) : Clean raw :=
  ⟨isUtf8_of_extractStrField clean.isUtf8 found, clean.noLost.extractStrField found⟩

theorem Clean.of_suffix {text here : Bytes} (clean : Clean text) (suffix : here <:+ text)
    (begins : ∀ b ∈ here.head?, b.toNat < 0x80) : Clean here := by
  obtain ⟨front, rfl⟩ := suffix
  exact ⟨(isUtf8_split (fun b first => .inl (begins b first)) clean.isUtf8).2,
    clean.noLost.of_subset (List.subset_append_right front here)⟩

/-- What closes is there still when the scanner has passed over something. -/
theorem exists_of_map {closes : UInt8} {outcome : Option ℕ} {n : ℕ} (front rest : Bytes)
    (found : outcome.map (· + front.length) = some n)
    (behind : ∀ m, outcome = some m → ∃ more, rest = rest.take m ++ closes :: more) :
    ∃ more, front ++ rest = (front ++ rest).take n ++ closes :: more := by
  obtain ⟨m, inRest, rfl⟩ := Option.map_eq_some_iff.mp found
  obtain ⟨more, split⟩ := behind m inRest
  refine ⟨more, ?_⟩
  rw [Nat.add_comm, List.take_length_add_append, List.append_assoc, ← split]

theorem exists_of_closing {opens closes : UInt8} {inString : Bool} {depth n : ℕ} {text : Bytes}
    (found : closing opens closes inString depth text = some n) :
    ∃ more, text = text.take n ++ closes :: more := by
  induction inString, depth, text using closing.induct opens closes generalizing n with
  | case1 inString depth =>
    rw [closing.eq_def] at found
    cases found
  | case2 depth =>
    rw [closing.eq_def] at found
    cases found
  | case3 depth b rest ih =>
    rw [closing.eq_def] at found
    simp only [if_true] at found
    exact exists_of_map [backslash, b] rest found fun m => ih
  | case4 depth b rest plain ih =>
    rw [closing.eq_def] at found
    simp only [if_neg plain] at found
    exact exists_of_map [b] rest found fun m => ih
  | case5 depth rest ih =>
    rw [closing.eq_def] at found
    simp only [if_true] at found
    exact exists_of_map [quote] rest found fun m => ih
  | case6 depth rest notQuote ih =>
    rw [closing.eq_def] at found
    simp only [if_neg notQuote, if_true] at found
    exact exists_of_map [opens] rest found fun m => ih
  | case7 depth rest last notQuote notOpens =>
    rw [closing.eq_def] at found
    simp only [if_neg notQuote, if_neg notOpens, if_true, if_pos last] at found
    obtain rfl := Option.some_inj.mp found
    exact ⟨rest, rfl⟩
  | case8 depth rest notLast notQuote notOpens ih =>
    rw [closing.eq_def] at found
    simp only [if_neg notQuote, if_neg notOpens, if_true, if_neg notLast] at found
    exact exists_of_map [closes] rest found fun m => ih
  | case9 depth b rest notQuote notOpens notCloses ih =>
    rw [closing.eq_def] at found
    simp only [if_neg notQuote, if_neg notOpens, if_neg notCloses] at found
    exact exists_of_map [b] rest found fun m => ih

theorem exists_of_matchingText {json found : Bytes} {start : ℕ} {opens closes : UInt8}
    (matching : matchingText json start opens closes = some found) :
    (json.drop start).head? = some opens ∧ ∃ inner more,
      json.drop start = inner ++ closes :: more ∧ found = inner ++ [closes] := by
  unfold matchingText at matching
  split_ifs at matching with isOpen
  obtain ⟨n, stops, rfl⟩ := Option.map_eq_some_iff.mp matching
  refine ⟨isOpen, ?_⟩
  generalize json.drop start = text at stops
  obtain ⟨more, split⟩ := exists_of_closing stops
  have length : (text.take n).length = n := by
    have lengths := congrArg List.length split
    rw [List.length_append, List.length_cons, List.length_take] at lengths
    rw [List.length_take]
    omega
  refine ⟨text.take n, more, split, ?_⟩
  have cut := @List.take_length_add_append _ (text.take n) (closes :: more) 1
  rw [length, ← split] at cut
  exact cut

/-! ### How long texts are when they are written -/

/-- How long a text is when it is written, without its quotes. -/
def spelled (text : Bytes) : ℕ := (text.flatMap escaped).length

theorem spelled_append (text more : Bytes) :
    spelled (text ++ more) = spelled text + spelled more := by
  rw [spelled, List.flatMap_append, List.length_append, spelled, spelled]

theorem spelled_cons (b : UInt8) (rest : Bytes) :
    spelled (b :: rest) = (escaped b).length + spelled rest := by
  rw [spelled, List.flatMap_cons, List.length_append, spelled]

theorem length_written (text : Bytes) : (written text).length = spelled text + 2 := by
  rw [written, List.length_cons, List.length_append, List.length_singleton, spelled]

theorem length_escaped_unescapedByte_le (b : UInt8) :
    (escaped (unescapedByte b)).length ≤ 1 + (escaped b).length := by
  unfold unescapedByte
  split_ifs with isN isR isT
  · rw [isN]
    decide
  · rw [isR]
    decide
  · rw [isT]
    decide
  · exact Nat.le_add_left _ 1

theorem spelled_unescaped_le (text : Bytes) : spelled (unescaped text) ≤ spelled text := by
  induction text using unescaped.induct with
  | case1 => exact le_rfl
  | case2 b => exact le_rfl
  | case3 c rest ih =>
    have length : (escaped backslash).length = 2 := by decide
    have letter := length_escaped_unescapedByte_le c
    rw [unescaped_escape, spelled_cons, spelled_cons, spelled_cons, length]
    omega
  | case4 b c rest other ih =>
    rw [unescaped, if_neg other, spelled_cons, spelled_cons b]
    exact Nat.add_le_add_left ih _

theorem spelled_le_of_isInfix {text more : Bytes} (isInfix : text <:+: more) :
    spelled text ≤ spelled more := by
  obtain ⟨front, back, rfl⟩ := isInfix
  rw [spelled_append, spelled_append]
  omega

theorem spelled_of_plain {text : Bytes}
    (plain : ∀ b ∈ text, 0x20 ≤ b.toNat ∧ b ≠ quote ∧ b ≠ backslash) :
    spelled text = text.length := by
  induction text with
  | nil => rfl
  | cons b rest ih =>
    rw [List.forall_mem_cons] at plain
    rw [spelled_cons, escaped_of_plain plain.1.1 plain.1.2.1 plain.1.2.2, ih plain.2]
    exact Nat.add_comm 1 rest.length

theorem spelled_quad_tail (quad : HexQuad) : spelled quad.text.tail = 5 := by
  have high : ∀ digit : HexDigit, 0x20 ≤ digit.1.toNat := by
    rintro ⟨b, isDigit⟩
    have all : ∀ k < 0x20, isHexDigit (UInt8.ofNat k) = false := by decide
    by_contra low
    have none := all b.toNat (Nat.not_le.mp low)
    rw [UInt8.ofNat_toNat, isDigit] at none
    cases none
  have digit : ∀ digit : HexDigit, 0x20 ≤ digit.1.toNat ∧ digit.1 ≠ quote ∧ digit.1 ≠ backslash :=
    fun digit => ⟨high digit, digit.plain.1, digit.plain.2⟩
  refine spelled_of_plain (List.forall_mem_cons.mpr ⟨by decide, ?_⟩)
  simp only [List.forall_mem_cons]
  exact ⟨digit _, digit _, digit _, digit _, List.forall_mem_nil _⟩

/-- A string of a response is at least as long as what is read of it, when that is written. -/
theorem spelled_unescaped_bodyText_le (body : List Item) :
    spelled (unescaped (bodyText body)) ≤ (bodyText body).length := by
  rw [unescaped_bodyText]
  induction body with
  | nil => exact le_rfl
  | cons item rest ih =>
    have here : spelled (readItem item) ≤ item.text.length := by
      cases item with
      | plain c isPlain => exact (spelled_of_plain fun b => of_mem_of_isPlain isPlain).le
      | short escape => cases escape <;> decide
      | unicode quad isScalar => exact (spelled_quad_tail quad).trans_le (Nat.le_succ 5)
      | pair high low isHigh isLow =>
        rw [readItem, spelled_append, spelled_quad_tail, spelled_quad_tail]
        exact Nat.le_add_right 10 2
    rw [List.flatMap_cons, spelled_append, bodyText, List.flatMap_cons, List.length_append]
    exact Nat.add_le_add here ih

/-! ### Answers that the host accepts -/

def resultFields : List String := ["summary", "output", "visible_text", "is_error"]

def IsAnswer (text : Bytes) : Prop :=
  ∃ doc : Document, doc.text = text ∧ ∀ name ∈ resultFields, (doc.member name.toList).isSome = true

theorem isAnswer_document (result : ToolResult) : IsAnswer result.document.text := by
  refine ⟨result.document, rfl, fun name member => ?_⟩
  have found : ∀ (name : String) (value : JsonValue),
      field name value ∈ result.document.members →
        charsOf (plainBody name.toList) = name.toList →
          (result.document.member name.toList).isSome = true :=
    fun name value member same => List.find?_isSome.mpr ⟨_, member, decide_eq_true same⟩
  simp only [resultFields, List.mem_cons, List.not_mem_nil, or_false] at member
  rcases member with rfl | rfl | rfl | rfl
  · exact found _ _ (.head _) (by decide)
  · exact found _ _ (.tail _ (.head _)) (by decide)
  · exact found _ _ (.tail _ (.tail _ (.head _))) (by decide)
  · exact found _ _ (.tail _ (.tail _ (.tail _ (.head _)))) (by decide)

theorem isUtf8_of_flatMap_escaped {text : Bytes} (noLost : NoLost text)
    (isUtf8 : IsUtf8 (text.flatMap escaped)) : IsUtf8 text := by
  have same := unescaped_flatMap_escaped_eq_iff.mpr noLost
  exact same ▸ isUtf8_unescaped isUtf8

theorem isUtf8_written {text front rest : Bytes} (noLost : NoLost text)
    (isUtf8 : IsUtf8 (front ++ (written text ++ rest))) : IsUtf8 text ∧ IsUtf8 rest := by
  have low : quote.toNat < 0x80 := by decide
  have whole : front ++ (written text ++ rest) =
      front ++ quote :: (text.flatMap escaped ++ quote :: rest) := by
    simp only [written, List.cons_append, List.append_assoc, List.nil_append]
  rw [whole] at isUtf8
  obtain ⟨inside, behind⟩ := (isUtf8_append_cons low).mp ((isUtf8_append_cons low).mp isUtf8).2
  exact ⟨isUtf8_of_flatMap_escaped noLost inside, behind⟩

/-- What a plugin has written is an object exactly if its texts are texts. -/
theorem isAnswer_resultText_iff {summary output : Bytes} {visible : Option Bytes} {isError : Bool}
    (noLost : NoLost summary) (noLost' : NoLost output)
    (noLostVisible : ∀ text ∈ visible, NoLost text) :
    IsAnswer (resultText summary output visible isError) ↔
      IsUtf8 summary ∧ IsUtf8 output ∧ ∀ text ∈ visible, IsUtf8 text := by
  constructor
  · rintro ⟨doc, same, -⟩
    have isUtf8 : IsUtf8 (resultText summary output visible isError) :=
      same ▸ (isText_document doc).isUtf8
    obtain ⟨isSummary, behind⟩ := isUtf8_written noLost isUtf8
    obtain ⟨isOutput, behind⟩ := isUtf8_written noLost' behind
    refine ⟨isSummary, isOutput, ?_⟩
    rintro text ⟨⟩
    exact (isUtf8_written (noLostVisible text rfl) behind).1
  · rintro ⟨⟨summary, rfl⟩, ⟨output, rfl⟩, isVisible⟩
    cases visible with
    | none =>
      have same := resultText_encode ⟨summary, output, none, isError⟩
      exact same ▸ isAnswer_document _
    | some text =>
      obtain ⟨visible, rfl⟩ := isVisible text rfl
      have same := resultText_encode ⟨summary, output, some visible, isError⟩
      exact same ▸ isAnswer_document _

theorem isAnswer_resultText_none_iff {summary output : Bytes} {isError : Bool}
    (noLost : NoLost summary) (noLost' : NoLost output) :
    IsAnswer (resultText summary output none isError) ↔ IsUtf8 summary ∧ IsUtf8 output := by
  refine (isAnswer_resultText_iff noLost noLost'
    fun _ same => (Option.not_mem_none _ same).elim).trans (and_congr_right fun _ => ?_)
  exact and_iff_left fun _ same => (Option.not_mem_none _ same).elim

def maxResponseBytes : ℕ := 256 * 1024

def toolOutput (memory : LinearMemory UInt8) (packed : Int64) : KelvinResult Bytes := do
  let (ptr, len) ← unpackPtrLen packed "handle_tool_call return"
  readGuestBytes memory ptr len maxResponseBytes "read tool output"

def Accepts (memory : LinearMemory UInt8) (packed : Int64) : Prop :=
  ∃ text, toolOutput memory packed = .ok text ∧ IsAnswer text

/-- The memory of a tool, with its arena somewhere behind its start. -/
structure Guest (heapSize : ℕ) where
  memory : LinearMemory UInt8
  base : ℕ
  positive : 0 < base
  below : base + heapSize ≤ i32Max
  inside : base + heapSize ≤ memory.size

def Guest.after {heapSize : ℕ} (guest : Guest heapSize) (region : Region) : LinearMemory UInt8 :=
  (guest.memory.write (guest.base + region.start) region.text).getD guest.memory

def Guest.packed {heapSize : ℕ} (guest : Guest heapSize) (region : Region) : Int64 :=
  packPtrLen (Int32.ofNat (guest.base + region.start)) (Int32.ofNat region.text.length)

/-- The plugin returns a word for a region that the host accepts, and the region is a result. -/
def Answered {heapSize : ℕ} (guest : Guest heapSize) (region : Option Region) : Prop :=
  ∃ r, region = some r ∧ Accepts (guest.after r) (guest.packed r)

theorem accepts_iff {heapSize : ℕ} (guest : Guest heapSize) {region : Region}
    (inside : region.start + region.text.length ≤ heapSize) :
    Accepts (guest.after region) (guest.packed region) ↔
      region.text.length ≤ maxResponseBytes ∧ IsAnswer region.text := by
  have fits : guest.base + region.start + region.text.length ≤ guest.memory.size := by
    have := guest.inside
    omega
  obtain ⟨memory, written⟩ := LinearMemory.write_eq_some fits
  have read := LinearMemory.read_of_write written
  have after : guest.after region = memory := by rw [Guest.after, written, Option.getD_some]
  have below := guest.below
  have positive := guest.positive
  have max : i32Max < 2 ^ 31 := by decide
  have small : guest.base + region.start < 2 ^ 31 := by omega
  have small' : region.text.length < 2 ^ 31 := by omega
  have pointer : 0 < Int32.ofNat (guest.base + region.start) := by
    rw [Int32.lt_iff_toInt_lt, Int32.toInt_ofNat_of_lt small]
    exact Int.natCast_pos.mpr (positive.trans_le (Nat.le_add_right _ _))
  have output : ∀ text, toolOutput memory (guest.packed region) = .ok text ↔
      region.text.length ≤ maxResponseBytes ∧ region.text = text := by
    intro text
    rw [toolOutput, bind_eq_ok]
    simp only [Guest.packed, unpackPtrLen_packPtrLen_eq_ok, readGuestBytes_eq_ok]
    constructor
    · rintro ⟨_, ⟨-, rfl⟩, -, -, short, found⟩
      rw [toNatClampNeg_ofNat small, toNatClampNeg_ofNat small', read] at found
      rw [toNatClampNeg_ofNat small'] at short
      exact ⟨short, Option.some_inj.mp found⟩
    · rintro ⟨short, rfl⟩
      refine ⟨_, ⟨pointer, rfl⟩, ofNat_nonneg small, ofNat_nonneg small', ?_, ?_⟩
      · rwa [toNatClampNeg_ofNat small']
      · rw [toNatClampNeg_ofNat small, toNatClampNeg_ofNat small', read]
  rw [Accepts, after]
  simp only [output]
  constructor
  · rintro ⟨_, ⟨short, rfl⟩, isAnswer⟩
    exact ⟨short, isAnswer⟩
  · rintro ⟨short, isAnswer⟩
    exact ⟨_, ⟨short, rfl⟩, isAnswer⟩

theorem answered_some_iff {heapSize : ℕ} (guest : Guest heapSize) {start : ℕ} {text : Bytes}
    (inside : start + text.length ≤ heapSize) :
    Answered guest (some ⟨start, text⟩) ↔ text.length ≤ maxResponseBytes ∧ IsAnswer text := by
  rw [← @accepts_iff heapSize guest ⟨start, text⟩ inside]
  refine ⟨?_, fun accepts => ⟨_, rfl, accepts⟩⟩
  rintro ⟨region, same, accepts⟩
  obtain rfl := Option.some_inj.mp same
  exact accepts

end KelvinClaw.Plugin.ToolCall
