import Mathlib.Data.List.Basic
import Mathlib.Data.List.Infix
import Mathlib.Tactic.Common

/-!
# The bytes of JSON texts

A JSON text is written from a tree: the tree has the white space, the escapes and the digits that
the text has, and its values. Strings denote lists of characters, which are written in UTF-8.

What a scanner of bytes can rely on is that a text is balanced: outside of its strings every bracket
is closed by one of its kind, and a string ends at the first quote that is not escaped.
-/

namespace Systems.Json

abbrev Bytes := List UInt8

def quote : UInt8 := 0x22

def backslash : UInt8 := 0x5C

def comma : UInt8 := 0x2C

def colon : UInt8 := 0x3A

def openBrace : UInt8 := 0x7B

def closeBrace : UInt8 := 0x7D

def openBracket : UInt8 := 0x5B

def closeBracket : UInt8 := 0x5D

def isBlank (b : UInt8) : Bool := b = 0x20 || b = 0x09 || b = 0x0A || b = 0x0D

/-- White space between the tokens of a text. -/
abbrev Blank := { text : Bytes // ∀ b ∈ text, isBlank b = true }

def noBlank : Blank := ⟨[], List.forall_mem_nil _⟩

def ascii (text : String) : Bytes := text.toList.map fun c => UInt8.ofNat c.toNat

/-! ### Characters -/

def encode (text : List Char) : Bytes := text.flatMap String.utf8EncodeChar

theorem encode_cons (c : Char) (text : List Char) :
    encode (c :: text) = String.utf8EncodeChar c ++ encode text := rfl

theorem encode_append (text more : List Char) :
    encode (text ++ more) = encode text ++ encode more :=
  List.flatMap_append

theorem utf8EncodeChar_of_ascii {c : Char} (low : c.toNat < 0x80) :
    String.utf8EncodeChar c = [UInt8.ofNat c.toNat] :=
  if_pos (Nat.le_of_lt_succ low)

/-- A character outside of ASCII is written with high bytes. -/
theorem le_of_mem_utf8EncodeChar {c : Char} (high : 0x80 ≤ c.toNat) {b : UInt8}
    (member : b ∈ String.utf8EncodeChar c) : 0x80 ≤ b.toNat := by
  have above : ¬ c.val.toNat ≤ 0x7F := Nat.not_le.mpr high
  unfold String.utf8EncodeChar at member
  simp only [above, if_false] at member
  split_ifs at member <;> simp only [List.mem_cons, List.not_mem_nil, or_false] at member <;>
    rcases member with rfl | rfl | rfl | rfl <;> simp only [UInt8.toNat_ofNat'] <;> omega

/-- The characters that a string has as they are. -/
def IsPlain (c : Char) : Prop := 0x20 ≤ c.toNat ∧ c ≠ '"' ∧ c ≠ '\\'

instance (c : Char) : Decidable (IsPlain c) := inferInstanceAs (Decidable (_ ∧ _))

/-- A plain character is written without quotes, backslashes and control bytes. -/
theorem of_mem_of_isPlain {c : Char} (plain : IsPlain c) {b : UInt8}
    (member : b ∈ String.utf8EncodeChar c) : 0x20 ≤ b.toNat ∧ b ≠ quote ∧ b ≠ backslash := by
  by_cases low : c.toNat < 0x80
  · rw [utf8EncodeChar_of_ascii low, List.mem_singleton] at member
    have same : b.toNat = c.toNat := by
      rw [member, UInt8.toNat_ofNat']
      exact Nat.mod_eq_of_lt (by omega)
    have other : ∀ d : Char, c ≠ d → b.toNat ≠ d.toNat := fun d differ equal =>
      differ (Char.ext (UInt32.toNat_inj.mp (same.symm.trans equal)))
    refine ⟨same ▸ plain.1, fun isQuote => ?_, fun isBackslash => ?_⟩
    · exact other '"' plain.2.1 (congrArg UInt8.toNat isQuote)
    · exact other '\\' plain.2.2 (congrArg UInt8.toNat isBackslash)
  · have high := le_of_mem_utf8EncodeChar (Nat.not_lt.mp low) member
    refine ⟨Nat.le_trans (by decide) high, ?_, ?_⟩ <;> rintro rfl <;> exact absurd high (by decide)

/-! ### Strings -/

inductive ShortEscape where
  | quote
  | backslash
  | slash
  | backspace
  | formFeed
  | newline
  | carriageReturn
  | tab
  deriving DecidableEq, Repr

/-- What stands behind the backslash. -/
def ShortEscape.letter : ShortEscape → UInt8
  | .quote => 0x22
  | .backslash => 0x5C
  | .slash => 0x2F
  | .backspace => 0x62
  | .formFeed => 0x66
  | .newline => 0x6E
  | .carriageReturn => 0x72
  | .tab => 0x74

def ShortEscape.char : ShortEscape → Char
  | .quote => '"'
  | .backslash => '\\'
  | .slash => '/'
  | .backspace => Char.ofNat 0x08
  | .formFeed => Char.ofNat 0x0C
  | .newline => '\n'
  | .carriageReturn => '\r'
  | .tab => '\t'

/-- The digits of hexadecimal numbers, in lower and in upper case. -/
def isHexDigit (b : UInt8) : Bool :=
  (0x30 ≤ b && b ≤ 0x39) || (0x41 ≤ b && b ≤ 0x46) || (0x61 ≤ b && b ≤ 0x66)

abbrev HexDigit := { b : UInt8 // isHexDigit b = true }

def HexDigit.value (digit : HexDigit) : ℕ :=
  if digit.1 ≤ 0x39 then digit.1.toNat - 0x30
  else if digit.1 ≤ 0x46 then digit.1.toNat - 0x37
  else digit.1.toNat - 0x57

structure HexQuad where
  first : HexDigit
  second : HexDigit
  third : HexDigit
  fourth : HexDigit

def HexQuad.value (quad : HexQuad) : ℕ :=
  ((quad.first.value * 16 + quad.second.value) * 16 + quad.third.value) * 16 + quad.fourth.value

/-- `\u` and the digits. -/
def HexQuad.text (quad : HexQuad) : Bytes :=
  [backslash, 0x75, quad.first, quad.second, quad.third, quad.fourth]

/-- A character of a string as it is written: as it is, with an escape of one letter, with the
digits of its number, or with those of its two surrogates. -/
inductive Item where
  | plain (c : Char) (isPlain : IsPlain c)
  | short (escape : ShortEscape)
  | unicode (quad : HexQuad) (isScalar : quad.value.isValidChar)
  | pair (high low : HexQuad) (isHigh : 0xD800 ≤ high.value ∧ high.value < 0xDC00)
      (isLow : 0xDC00 ≤ low.value ∧ low.value < 0xE000)

def Item.char : Item → Char
  | .plain c _ => c
  | .short escape => escape.char
  | .unicode quad _ => Char.ofNat quad.value
  | .pair high low _ _ =>
    Char.ofNat (0x10000 + (high.value - 0xD800) * 0x400 + (low.value - 0xDC00))

def Item.text : Item → Bytes
  | .plain c _ => String.utf8EncodeChar c
  | .short escape => [backslash, escape.letter]
  | .unicode quad _ => quad.text
  | .pair high low _ _ => high.text ++ low.text

def charsOf (body : List Item) : List Char := body.map Item.char

def bodyText (body : List Item) : Bytes := body.flatMap Item.text

def plainBody (text : List Char) : List Item :=
  text.filterMap fun c => if isPlain : IsPlain c then some (.plain c isPlain) else none

/-- What is between the quotes of a string for a scanner: no quote that is not escaped. -/
inductive IsBody : Bytes → Prop
  | nil : IsBody []
  | byte {b : UInt8} {rest : Bytes} (plain : b ≠ quote ∧ b ≠ backslash) :
      IsBody rest → IsBody (b :: rest)
  | escape (b : UInt8) {rest : Bytes} : IsBody rest → IsBody (backslash :: b :: rest)

theorem IsBody.append {body more : Bytes} (first : IsBody body) (second : IsBody more) :
    IsBody (body ++ more) := by
  induction first with
  | nil => exact second
  | byte plain _ ih => exact .byte plain ih
  | escape b _ ih => exact .escape b ih

theorem isBody_of_plain {text : Bytes} (plain : ∀ b ∈ text, b ≠ quote ∧ b ≠ backslash) :
    IsBody text := by
  induction text with
  | nil => exact .nil
  | cons b rest ih =>
    rw [List.forall_mem_cons] at plain
    exact .byte plain.1 (ih plain.2)

theorem HexDigit.plain (digit : HexDigit) : digit.1 ≠ quote ∧ digit.1 ≠ backslash := by
  obtain ⟨b, isDigit⟩ := digit
  constructor <;> rintro rfl <;> exact absurd isDigit (by decide)

theorem isBody_quad (quad : HexQuad) : IsBody quad.text :=
  .escape _ (.byte quad.first.plain (.byte quad.second.plain
    (.byte quad.third.plain (.byte quad.fourth.plain .nil))))

/-- A string is written as a scanner expects it. -/
theorem isBody_bodyText (body : List Item) : IsBody (bodyText body) := by
  induction body with
  | nil => exact .nil
  | cons item rest ih =>
    refine IsBody.append ?_ ih
    cases item with
    | plain c isPlain => exact isBody_of_plain fun b member => (of_mem_of_isPlain isPlain member).2
    | short escape => exact .escape _ .nil
    | unicode quad isScalar => exact isBody_quad quad
    | pair high low isHigh isLow => exact (isBody_quad high).append (isBody_quad low)

/-- The only quote inside of a string is the last byte of an escape. -/
theorem text_of_quote_mem {item : Item} (member : quote ∈ item.text) :
    item.text = [backslash, quote] := by
  have inQuad : ∀ quad : HexQuad, quote ∉ quad.text := by
    intro quad member
    simp only [HexQuad.text, List.mem_cons, List.not_mem_nil, or_false] at member
    rcases member with same | same | same | same | same | same
    · exact absurd same (by decide)
    · exact absurd same (by decide)
    · exact quad.first.plain.1 same.symm
    · exact quad.second.plain.1 same.symm
    · exact quad.third.plain.1 same.symm
    · exact quad.fourth.plain.1 same.symm
  cases item with
  | plain c isPlain => exact absurd rfl (of_mem_of_isPlain isPlain member).2.1
  | short escape => cases escape <;> first | rfl | exact absurd member (by decide)
  | unicode quad isScalar => exact absurd member (inQuad quad)
  | pair high low isHigh isLow =>
    rcases List.mem_append.mp member with inHigh | inLow
    · exact absurd inHigh (inQuad high)
    · exact absurd inLow (inQuad low)

/-- What stands behind a quote inside of a string is written by characters of its own. -/
theorem exists_of_bodyText_eq {body : List Item} {front rest : Bytes}
    (split : bodyText body = front ++ quote :: rest) :
    ∃ first second, first ≠ [] ∧ body = first ++ second ∧ bodyText second = rest := by
  induction body generalizing front with
  | nil => exact absurd split.symm (by simp [bodyText])
  | cons item more ih =>
    have later : ∀ {front}, bodyText more = front ++ quote :: rest →
        ∃ first second, first ≠ [] ∧ item :: more = first ++ second ∧ bodyText second = rest := by
      intro front split
      obtain ⟨first, second, _, rfl, written⟩ := ih split
      exact ⟨item :: first, second, List.cons_ne_nil _ _, rfl, written⟩
    rw [bodyText, List.flatMap_cons, ← bodyText] at split
    rcases List.append_eq_append_iff.mp split with ⟨behind, _, isMore⟩ | ⟨behind, isItem, isRest⟩
    · exact later isMore
    · cases behind with
      | nil => exact @later [] isRest.symm
      | cons b behind =>
        obtain ⟨rfl, behindIt⟩ := List.cons.inj isRest
        -- the quote belongs to the item, so it is its last byte
        have whole := text_of_quote_mem (isItem ▸ List.mem_append_right front List.mem_cons_self)
        have last : behind = [] := by
          rw [whole] at isItem
          cases front with
          | nil => exact absurd (List.cons.inj isItem).1 (by decide)
          | cons c front =>
            have tail := (List.cons.inj isItem).2
            cases front with
            | nil => exact (List.cons.inj tail).2.symm
            | cons d front => exact absurd (List.cons.inj tail).2.symm (by simp)
        rw [last] at behindIt
        exact ⟨[item], more, List.cons_ne_nil _ _, rfl, behindIt.symm⟩

/-- A string without backslashes has its characters as they are. -/
theorem bodyText_eq_encode {body : List Item} (plain : backslash ∉ bodyText body) :
    bodyText body = encode (charsOf body) := by
  induction body with
  | nil => rfl
  | cons item more ih =>
    rw [bodyText, List.flatMap_cons, ← bodyText, List.mem_append, not_or] at plain
    have grown : charsOf (item :: more) = item.char :: charsOf more := rfl
    rw [bodyText, List.flatMap_cons, ← bodyText, ih plain.2, grown, encode_cons]
    cases item with
    | plain c isPlain => rfl
    | short escape => exact absurd List.mem_cons_self plain.1
    | unicode quad isScalar => exact absurd List.mem_cons_self plain.1
    | pair high low isHigh isLow =>
      exact absurd (List.mem_append_left _ List.mem_cons_self) plain.1

theorem encode_eq_nil {text : List Char} (empty : encode text = []) : text = [] := by
  cases text with
  | nil => rfl
  | cons c rest => exact absurd (List.append_eq_nil_iff.mp empty).1 String.utf8EncodeChar_ne_nil

theorem not_mem_encode {text : List Char} (plain : ∀ c ∈ text, IsPlain c) :
    quote ∉ encode text ∧ backslash ∉ encode text := by
  constructor <;> intro member <;> obtain ⟨c, isChar, inChar⟩ := List.mem_flatMap.mp member
  · exact (of_mem_of_isPlain (plain c isChar) inChar).2.1 rfl
  · exact (of_mem_of_isPlain (plain c isChar) inChar).2.2 rfl

theorem bodyText_ne_of_plain {body : List Item} {front : Bytes}
    (plain : ∀ c ∈ charsOf body, IsPlain c) :
    bodyText body ≠ front ++ quote :: encode (charsOf body) := by
  intro split
  obtain ⟨first, second, nonempty, rfl, written⟩ := exists_of_bodyText_eq split
  have spelled := bodyText_eq_encode (written ▸ (not_mem_encode plain).2)
  rw [written, charsOf, List.map_append, ← charsOf, ← charsOf, encode_append] at spelled
  have none := encode_eq_nil (List.append_left_eq_self.mp spelled)
  exact nonempty (List.map_eq_nil_iff.mp none)

/-! ### Numbers -/

abbrev Digit := Fin 10

def digitByte (digit : Digit) : UInt8 := UInt8.ofNat (0x30 + digit.val)

def digitsText (digits : List Digit) : Bytes := digits.map digitByte

/-- The number of some decimal digits. -/
def digitsValue (digits : List Digit) : ℕ := digits.foldl (fun n digit => n * 10 + digit.val) 0

structure Exponent where
  letter : { b : UInt8 // b = 0x65 ∨ b = 0x45 }
  sign : Option { b : UInt8 // b = 0x2B ∨ b = 0x2D }
  digits : List Digit
  nonempty : digits ≠ []

/-- A number as it is written. -/
structure Number where
  negative : Bool
  whole : List Digit
  fraction : Option { digits : List Digit // digits ≠ [] }
  exponent : Option Exponent
  nonempty : whole ≠ []
  no_leading_zero : whole.head? = some 0 → whole = [0]

def Exponent.text (exponent : Exponent) : Bytes :=
  exponent.letter.1 :: ((exponent.sign.map (·.1)).toList ++ digitsText exponent.digits)

/-- What stands behind the whole part of a number. -/
def Number.tail (number : Number) : Bytes :=
  (match number.fraction with
    | none => []
    | some digits => 0x2E :: digitsText digits.1) ++
  (match number.exponent with
    | none => []
    | some exponent => exponent.text)

def Number.text (number : Number) : Bytes :=
  (if number.negative then [0x2D] else []) ++ (digitsText number.whole ++ number.tail)

/-- The number that is written, if it has neither a fraction nor an exponent. -/
def Number.integer (number : Number) : Option ℤ :=
  if number.fraction.isNone ∧ number.exponent.isNone then
    some (if number.negative then -digitsValue number.whole else digitsValue number.whole)
  else none

/-! ### Values -/

/-- A member of an object, with the white space around its parts. -/
structure Member (α : Type) where
  before : Blank
  key : List Item
  afterKey : Blank
  beforeValue : Blank
  value : α
  after : Blank

/-- A value as it is written. An array or object without items has some white space. -/
inductive JsonValue where
  | null
  | bool (b : Bool)
  | number (n : Number)
  | string (body : List Item)
  | array (blank : Blank) (items : List (Blank × JsonValue × Blank))
  | object (blank : Blank) (members : List (Member JsonValue))

/-- A string with its quotes. -/
def literal (body : List Item) : Bytes := quote :: (bodyText body ++ [quote])

def Member.head {α : Type} (m : Member α) : Bytes :=
  m.before.1 ++ (literal m.key ++ (m.afterKey.1 ++ colon :: m.beforeValue.1))

mutual

def JsonValue.text : JsonValue → Bytes
  | .null => ascii "null"
  | .bool true => ascii "true"
  | .bool false => ascii "false"
  | .number n => n.text
  | .string body => literal body
  | .array blank items => openBracket :: (itemsText blank items ++ [closeBracket])
  | .object blank members => openBrace :: (membersText blank members ++ [closeBrace])

def itemsText (blank : Blank) : List (Blank × JsonValue × Blank) → Bytes
  | [] => blank.1
  | (before, value, after) :: rest => before.1 ++ (value.text ++ (after.1 ++ moreItems rest))

def moreItems : List (Blank × JsonValue × Blank) → Bytes
  | [] => []
  | (before, value, after) :: rest =>
    comma :: (before.1 ++ (value.text ++ (after.1 ++ moreItems rest)))

def membersText (blank : Blank) : List (Member JsonValue) → Bytes
  | [] => blank.1
  | ⟨before, key, afterKey, beforeValue, value, after⟩ :: rest =>
    (Member.mk before key afterKey beforeValue () after).head ++
      (value.text ++ (after.1 ++ moreMembers rest))

def moreMembers : List (Member JsonValue) → Bytes
  | [] => []
  | ⟨before, key, afterKey, beforeValue, value, after⟩ :: rest =>
    comma :: ((Member.mk before key afterKey beforeValue () after).head ++
      (value.text ++ (after.1 ++ moreMembers rest)))

end

/-- A member with its white space. -/
def Member.text (m : Member JsonValue) : Bytes := m.head ++ (m.value.text ++ m.after.1)

theorem membersText_cons (blank : Blank) (m : Member JsonValue) (rest : List (Member JsonValue)) :
    membersText blank (m :: rest) = m.text ++ moreMembers rest := by
  rw [membersText, Member.text, List.append_assoc, List.append_assoc]
  rfl

theorem moreMembers_cons (blank : Blank) (m : Member JsonValue) (rest : List (Member JsonValue)) :
    moreMembers (m :: rest) = comma :: membersText blank (m :: rest) := by
  rw [moreMembers, membersText]

def frontText (front : List (Member JsonValue)) : Bytes := front.flatMap fun m => m.text ++ [comma]

/-- What stands before and behind a member of an object. -/
theorem membersText_append (blank : Blank) (front : List (Member JsonValue)) (m : Member JsonValue)
    (back : List (Member JsonValue)) :
    membersText blank (front ++ m :: back) = frontText front ++ (m.text ++ moreMembers back) := by
  induction front with
  | nil => exact membersText_cons blank m back
  | cons first front ih =>
    obtain ⟨next, others, split⟩ : ∃ next others, front ++ m :: back = next :: others :=
      List.exists_cons_of_ne_nil (by simp)
    have grown : frontText (first :: front) = first.text ++ comma :: frontText front := by
      rw [frontText, List.flatMap_cons, List.append_assoc]
      rfl
    rw [List.cons_append, membersText_cons, split, moreMembers_cons blank, ← split, ih, grown,
      List.append_assoc]
    rfl

/-! ### Kinds of values -/

/-- The text of a string, between its quotes. -/
def JsonValue.stringText : JsonValue → Option Bytes
  | .string body => some (bodyText body)
  | _ => none

def JsonValue.integer : JsonValue → Option ℤ
  | .number n => n.integer
  | _ => none

def JsonValue.objectText : JsonValue → Option Bytes
  | .object blank members => some (openBrace :: (membersText blank members ++ [closeBrace]))
  | _ => none

def JsonValue.arrayText : JsonValue → Option Bytes
  | .array blank items => some (openBracket :: (itemsText blank items ++ [closeBracket]))
  | _ => none

def JsonValue.first : JsonValue → UInt8
  | .null => 0x6E
  | .bool true => 0x74
  | .bool false => 0x66
  | .number n => if n.negative then 0x2D else digitByte (n.whole.head n.nonempty)
  | .string _ => quote
  | .array _ _ => openBracket
  | .object _ _ => openBrace

theorem head?_text (tree : JsonValue) : tree.text.head? = some tree.first := by
  cases tree with
  | null => rw [JsonValue.text]; rfl
  | bool b => cases b <;> rw [JsonValue.text] <;> rfl
  | number n =>
    rw [JsonValue.text, Number.text, JsonValue.first]
    split_ifs
    · rfl
    · obtain ⟨digit, others, split⟩ := List.exists_cons_of_ne_nil n.nonempty
      simp only [split, digitsText, List.map_cons, List.nil_append, List.cons_append,
        List.head?_cons, List.head_cons]
  | string body => rw [JsonValue.text]; rfl
  | array blank items => rw [JsonValue.text]; rfl
  | object blank members => rw [JsonValue.text]; rfl

theorem first_number_ne {b : UInt8} (notSign : 0x2D ≠ b) (notDigit : ∀ digit, digitByte digit ≠ b)
    (n : Number) : JsonValue.first (.number n) ≠ b := by
  rw [JsonValue.first]
  split_ifs
  · exact notSign
  · exact notDigit _

/-- No value begins with white space. -/
theorem isBlank_first (tree : JsonValue) : isBlank tree.first = false := by
  have digits : ∀ digit, isBlank (digitByte digit) = false := by decide
  cases tree with
  | number n =>
    rw [JsonValue.first]
    split_ifs
    · rfl
    · exact digits _
  | bool b => cases b <;> rfl
  | null | string _ | array _ _ | object _ _ => rfl

/-! ### Balance -/

/-- The bytes that a scanner of brackets looks for. -/
def IsStructural (b : UInt8) : Prop :=
  b = quote ∨ b = openBrace ∨ b = closeBrace ∨ b = openBracket ∨ b = closeBracket

instance (b : UInt8) : Decidable (IsStructural b) := inferInstanceAs (Decidable (_ ∨ _))

/-- A text with strings and closed brackets. -/
inductive Balanced : Bytes → Prop
  | nil : Balanced []
  | byte {b : UInt8} {rest : Bytes} (plain : ¬ IsStructural b) :
      Balanced rest → Balanced (b :: rest)
  | string {body rest : Bytes} : IsBody body → Balanced rest →
      Balanced (quote :: (body ++ quote :: rest))
  | braces {inner rest : Bytes} : Balanced inner → Balanced rest →
      Balanced (openBrace :: (inner ++ closeBrace :: rest))
  | brackets {inner rest : Bytes} : Balanced inner → Balanced rest →
      Balanced (openBracket :: (inner ++ closeBracket :: rest))

theorem Balanced.append {text more : Bytes} (first : Balanced text) (second : Balanced more) :
    Balanced (text ++ more) := by
  induction first with
  | nil => exact second
  | byte plain _ ih => exact .byte plain ih
  | @string body rest isBody _ ih =>
    have grouped : quote :: (body ++ quote :: rest) ++ more =
        quote :: (body ++ quote :: (rest ++ more)) := by simp
    exact grouped ▸ .string isBody ih
  | @braces inner rest isInner _ _ ih =>
    have grouped : openBrace :: (inner ++ closeBrace :: rest) ++ more =
        openBrace :: (inner ++ closeBrace :: (rest ++ more)) := by simp
    exact grouped ▸ .braces isInner ih
  | @brackets inner rest isInner _ _ ih =>
    have grouped : openBracket :: (inner ++ closeBracket :: rest) ++ more =
        openBracket :: (inner ++ closeBracket :: (rest ++ more)) := by simp
    exact grouped ▸ .brackets isInner ih

theorem balanced_of_plain {text : Bytes} (plain : ∀ b ∈ text, ¬ IsStructural b) :
    Balanced text := by
  induction text with
  | nil => exact .nil
  | cons b rest ih =>
    rw [List.forall_mem_cons] at plain
    exact .byte plain.1 (ih plain.2)

theorem balanced_ascii {text : String}
    (plain : (ascii text).all (fun b => !decide (IsStructural b)) = true) : Balanced (ascii text) :=
  balanced_of_plain fun b member => by
    simpa using List.all_eq_true.mp plain b member

theorem not_isStructural_of_isBlank {b : UInt8} (blank : isBlank b = true) : ¬ IsStructural b := by
  rintro (rfl | rfl | rfl | rfl | rfl) <;> exact absurd blank (by decide)

theorem balanced_blank (blank : Blank) : Balanced blank.1 :=
  balanced_of_plain fun b member => not_isStructural_of_isBlank (blank.2 b member)

theorem not_isStructural_digitByte (digit : Digit) : ¬ IsStructural (digitByte digit) := by
  revert digit
  decide

theorem balanced_digitsText (digits : List Digit) : Balanced (digitsText digits) :=
  balanced_of_plain fun b member => by
    obtain ⟨digit, _, rfl⟩ := List.mem_map.mp member
    exact not_isStructural_digitByte digit

theorem balanced_exponent (exponent : Exponent) : Balanced exponent.text := by
  refine .byte ?_ (Balanced.append ?_ (balanced_digitsText _))
  · rcases exponent.letter.2 with same | same <;> rw [same] <;> decide
  · cases exponent.sign with
    | none => exact .nil
    | some sign =>
      obtain ⟨b, rfl | rfl⟩ := sign <;> exact .byte (by decide) .nil

theorem balanced_number (number : Number) : Balanced number.text := by
  refine Balanced.append ?_ ((balanced_digitsText _).append (Balanced.append ?_ ?_))
  · split_ifs
    · exact .byte (by decide) .nil
    · exact .nil
  · split
    · exact .nil
    · exact .byte (by decide) (balanced_digitsText _)
  · split
    · exact .nil
    · exact balanced_exponent _

theorem balanced_literal (body : List Item) : Balanced (literal body) :=
  .string (isBody_bodyText body) .nil

/-- What holds of the parts of a text, and of texts in brackets and one behind the other. -/
structure Composes (P : Bytes → Prop) : Prop where
  nil : P []
  append : ∀ {text more : Bytes}, P text → P more → P (text ++ more)
  token : ∀ text ∈ [ascii "null", ascii "true", ascii "false", [comma], [colon]], P text
  blank : ∀ blank : Blank, P blank.1
  number : ∀ n : Number, P n.text
  literal : ∀ body : List Item, P (literal body)
  braces : ∀ {inner : Bytes}, P inner → P (openBrace :: (inner ++ [closeBrace]))
  brackets : ∀ {inner : Bytes}, P inner → P (openBracket :: (inner ++ [closeBracket]))

namespace Composes

variable {P : Bytes → Prop}

theorem comma_cons (composes : Composes P) {text : Bytes} (rest : P text) : P (comma :: text) :=
  @Composes.append P composes [comma] text (composes.token [comma] (by simp)) rest

theorem head (composes : Composes P) {α : Type} (m : Member α) : P m.head :=
  composes.append (composes.blank _) (composes.append (composes.literal _)
    (composes.append (composes.blank _) (@Composes.append P composes [colon] _
      (composes.token [colon] (by simp)) (composes.blank _))))

mutual

/-- It holds of all texts. -/
theorem text (composes : Composes P) : (tree : JsonValue) → P tree.text
  | .null => by
    rw [JsonValue.text]
    exact composes.token _ (by simp)
  | .bool true => by
    rw [JsonValue.text]
    exact composes.token _ (by simp)
  | .bool false => by
    rw [JsonValue.text]
    exact composes.token _ (by simp)
  | .number n => by
    rw [JsonValue.text]
    exact composes.number n
  | .string body => by
    rw [JsonValue.text]
    exact composes.literal body
  | .array blank items => by
    rw [JsonValue.text]
    exact composes.brackets (composes.items blank items)
  | .object blank members => by
    rw [JsonValue.text]
    exact composes.braces (composes.members blank members)

theorem items (composes : Composes P) (blank : Blank) :
    (items : List (Blank × JsonValue × Blank)) → P (itemsText blank items)
  | [] => by
    rw [itemsText]
    exact composes.blank blank
  | (before, value, after) :: rest => by
    rw [itemsText]
    exact composes.append (composes.blank before) (composes.append (composes.text value)
      (composes.append (composes.blank after) (composes.more_items rest)))

theorem more_items (composes : Composes P) :
    (items : List (Blank × JsonValue × Blank)) → P (moreItems items)
  | [] => by
    rw [moreItems]
    exact composes.nil
  | (before, value, after) :: rest => by
    rw [moreItems]
    exact composes.comma_cons (composes.append (composes.blank before)
      (composes.append (composes.text value)
        (composes.append (composes.blank after) (composes.more_items rest))))

theorem members (composes : Composes P) (blank : Blank) :
    (members : List (Member JsonValue)) → P (membersText blank members)
  | [] => by
    rw [membersText]
    exact composes.blank blank
  | ⟨before, key, afterKey, beforeValue, value, after⟩ :: rest => by
    rw [membersText]
    exact composes.append (composes.head _) (composes.append (composes.text value)
      (composes.append (composes.blank after) (composes.more_members rest)))

theorem more_members (composes : Composes P) :
    (members : List (Member JsonValue)) → P (moreMembers members)
  | [] => by
    rw [moreMembers]
    exact composes.nil
  | ⟨before, key, afterKey, beforeValue, value, after⟩ :: rest => by
    rw [moreMembers]
    exact composes.comma_cons (composes.append (composes.head _)
      (composes.append (composes.text value)
        (composes.append (composes.blank after) (composes.more_members rest))))

end

end Composes

theorem composes_balanced : Composes Balanced where
  nil := .nil
  append := Balanced.append
  token text member := by
    simp only [List.mem_cons, List.not_mem_nil, or_false] at member
    rcases member with rfl | rfl | rfl | rfl | rfl
    · exact balanced_ascii (by decide)
    · exact balanced_ascii (by decide)
    · exact balanced_ascii (by decide)
    · exact .byte (by decide) .nil
    · exact .byte (by decide) .nil
  blank := balanced_blank
  number := balanced_number
  literal := balanced_literal
  braces inner := .braces inner .nil
  brackets inner := .brackets inner .nil

end Systems.Json
