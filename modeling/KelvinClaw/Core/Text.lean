import Mathlib.Data.List.DropRight
import KelvinClaw.Core.Basic

/-!
# Text primitives

The string operations of the Rust standard library that the program's parsers and
validators rest on, as functions on lists of Unicode scalar values: white space is
the Unicode `White_Space` property, control characters are general category `Cc`,
lengths are counted in UTF-8 bytes.
-/

namespace KelvinClaw.Core

/-- `char::is_whitespace`. -/
def isWhitespace (c : Char) : Bool :=
  let n := c.toNat
  (0x09 ≤ n && n ≤ 0x0D) || n == 0x20 || n == 0x85 || n == 0xA0 || n == 0x1680 ||
    (0x2000 ≤ n && n ≤ 0x200A) || n == 0x2028 || n == 0x2029 || n == 0x202F || n == 0x205F ||
    n == 0x3000

/-- `char::is_control`. -/
def isControl (c : Char) : Bool :=
  c.toNat < 0x20 || (0x7F ≤ c.toNat && c.toNat ≤ 0x9F)

def trimChars (chars : List Char) : List Char :=
  (chars.dropWhile isWhitespace).rdropWhile isWhitespace

/-- `str::trim`. -/
def trim (s : String) : String := String.ofList (trimChars s.toList)

/-- `str::split_whitespace`: the maximal runs without white space. -/
def splitWhitespace (chars : List Char) : List (List Char) :=
  (chars.splitOnP isWhitespace).filter (· ≠ [])

/-- `str::split_once` at a character. -/
def splitOnce (sep : Char) (chars : List Char) : Option (List Char × List Char) :=
  if sep ∈ chars then
    some (chars.takeWhile (· ≠ sep), (chars.dropWhile (· ≠ sep)).tail)
  else none

/-- `str::to_ascii_lowercase`. -/
def toAsciiLowercase (s : String) : String := String.ofList (s.toList.map Char.toLower)

/-- `str::parse::<usize>`: an optional plus sign and at least one decimal digit,
the value in range. -/
def parseUsize (chars : List Char) : Option ℕ :=
  let digits := match chars with
    | '+' :: rest => rest
    | _ => chars
  if digits = [] then none
  else digits.foldlM (fun value c =>
    if c.isDigit then
      let next := value * 10 + (c.toNat - '0'.toNat)
      if next ≤ usizeMax then some next else none
    else none) 0

/-- The first `maxLen` characters of a text. -/
def truncate (value : String) (maxLen : ℕ) : String :=
  if value.toList.length ≤ maxLen then value else String.ofList (value.toList.take maxLen)

/-- `Option<String>` trimmed, with blank texts dropped. -/
def trimOption (value : Option String) : Option String :=
  (value.map trim).filter (· ≠ "")

theorem trimChars_eq_self {chars : List Char}
    (first : ∀ c ∈ chars.head?, isWhitespace c = false)
    (last : ∀ c ∈ chars.getLast?, isWhitespace c = false) : trimChars chars = chars := by
  have kept : chars.dropWhile isWhitespace = chars := by
    cases chars with
    | nil => rfl
    | cons c rest => simp [List.dropWhile, first c rfl]
  rw [trimChars, kept, List.rdropWhile_eq_self_iff]
  intro nonempty
  simp [last _ (List.getLast?_eq_getLast_of_ne_nil nonempty)]

/-- Trimming leaves no white space at either end, so trimming again changes nothing. -/
theorem trimChars_trimChars (chars : List Char) :
    trimChars (trimChars chars) = trimChars chars := by
  refine trimChars_eq_self (fun c found => ?_) (fun c found => ?_)
  · have first := List.head?_dropWhile_not isWhitespace chars
    obtain ⟨rest, split⟩ := List.rdropWhile_prefix isWhitespace (chars.dropWhile isWhitespace)
    rw [← split, List.head?_append, show (List.rdropWhile _ _).head? = some c from found] at first
    simpa using first
  · obtain ⟨nonempty, rfl⟩ := List.mem_getLast?_eq_getLast found
    simpa [trimChars] using List.rdropWhile_last_not isWhitespace _ nonempty

theorem trim_trim (s : String) : trim (trim s) = trim s := by
  simp [trim, trimChars_trimChars]

theorem isWhitespace_of_isDigit {c : Char} (digit : c.isDigit) : isWhitespace c = false := by
  simp only [Char.isDigit, ge_iff_le, Bool.and_eq_true, decide_eq_true_eq, UInt32.le_iff_toNat_le]
    at digit
  have low : 48 ≤ c.toNat := digit.1
  have high : c.toNat ≤ 57 := digit.2
  simp only [isWhitespace, Bool.or_eq_false_iff, Bool.and_eq_false_iff, decide_eq_false_iff_not,
    beq_eq_false_iff_ne]
  omega

theorem trim_toString (n : ℕ) : trim (toString n) = toString n := by
  have digits : ∀ c ∈ Nat.toDigits 10 n, isWhitespace c = false := fun c member =>
    isWhitespace_of_isDigit (Nat.isDigit_of_mem_toDigits (by decide) (by decide) member)
  have kept : trimChars (Nat.toDigits 10 n) = Nat.toDigits 10 n := by
    apply trimChars_eq_self
    · exact fun c first => digits c (List.mem_of_mem_head? first)
    · exact fun c last => digits c (List.mem_of_getLast? last)
  rw [Nat.toString_eq_ofList_toDigits, trim, String.toList_ofList, kept]

theorem toString_ne_empty (n : ℕ) : toString n ≠ "" := by
  rw [Nat.toString_eq_ofList_toDigits]
  intro empty
  have nil := congrArg String.toList empty
  rw [String.toList_ofList] at nil
  exact Nat.toDigits_ne_nil nil

end KelvinClaw.Core
