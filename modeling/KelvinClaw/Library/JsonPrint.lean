import KelvinClaw.Library.JsonText

/-!
# Printing JSON

A printer of JSON writes a number without a sign in its decimal digits, and each character of a
string in one way: with a letter if it has one for it, with four digits if it is a control
character, and as it is otherwise. Printers differ in the letters that they use.
-/

namespace Systems.Json

/-! ### Numbers -/

def lastDigit (n : ℕ) : Digit := ⟨n % 10, Nat.mod_lt n (Nat.succ_pos 9)⟩

def decimalDigits : ℕ → ℕ → List Digit
  | 0, _ => []
  | steps + 1, n =>
    if n < 10 then [lastDigit n] else decimalDigits steps (n / 10) ++ [lastDigit n]

def decimal (n : ℕ) : List Digit := decimalDigits (n + 1) n

theorem digitsValue_append (digits : List Digit) (digit : Digit) :
    digitsValue (digits ++ [digit]) = digitsValue digits * 10 + digit.val := by
  rw [digitsValue, List.foldl_append]
  rfl

theorem digitsValue_decimalDigits {steps n : ℕ} (enough : n < steps) :
    digitsValue (decimalDigits steps n) = n := by
  induction steps generalizing n with
  | zero => exact absurd enough (Nat.not_lt_zero n)
  | succ steps ih =>
    rw [decimalDigits]
    split_ifs with small
    · exact (Nat.zero_add _).trans (Nat.mod_eq_of_lt small)
    · rw [digitsValue_append, ih (by omega)]
      exact Nat.div_add_mod' n 10

theorem digitsValue_decimal (n : ℕ) : digitsValue (decimal n) = n :=
  digitsValue_decimalDigits (Nat.lt_succ_self n)

theorem decimalDigits_ne_nil {steps : ℕ} (n : ℕ) (positive : 0 < steps) :
    decimalDigits steps n ≠ [] := by
  cases steps with
  | zero => exact absurd positive (Nat.lt_irrefl 0)
  | succ steps =>
    rw [decimalDigits]
    split_ifs
    · exact List.cons_ne_nil _ _
    · exact List.append_ne_nil_of_right_ne_nil _ (List.cons_ne_nil _ _)

theorem decimal_ne_nil (n : ℕ) : decimal n ≠ [] := decimalDigits_ne_nil n (Nat.succ_pos n)

/-- Only the number zero begins with a zero. -/
theorem eq_zero_of_head?_decimalDigits {steps n : ℕ} (enough : n < steps)
    (leading : (decimalDigits steps n).head? = some 0) : n = 0 := by
  induction steps generalizing n with
  | zero => exact absurd enough (Nat.not_lt_zero n)
  | succ steps ih =>
    rw [decimalDigits] at leading
    split_ifs at leading with small
    · have digit : n % 10 = 0 := congrArg Fin.val (Option.some_inj.mp leading)
      omega
    · rw [List.head?_append_of_ne_nil _ (decimalDigits_ne_nil _ (by omega))] at leading
      have none := ih (by omega) leading
      omega

/-- A number without a sign, as it is printed. -/
def Number.ofNat (n : ℕ) : Number where
  negative := false
  whole := decimal n
  fraction := none
  exponent := none
  nonempty := decimal_ne_nil n
  no_leading_zero leading := by
    rw [eq_zero_of_head?_decimalDigits (Nat.lt_succ_self n) leading]
    rfl

theorem integer_ofNat (n : ℕ) : (Number.ofNat n).integer = some (n : ℤ) := by
  have value : digitsValue (Number.ofNat n).whole = n := digitsValue_decimal n
  rw [Number.integer, if_pos ⟨rfl, rfl⟩, value]
  rfl

/-! ### Strings -/

/-- A digit from zero to fifteen, in lower case. -/
def lowerDigit (digit : Fin 16) : HexDigit :=
  ⟨if digit.val < 10 then UInt8.ofNat (0x30 + digit.val) else UInt8.ofNat (0x57 + digit.val), by
    revert digit
    decide⟩

theorem value_lowerDigit (digit : Fin 16) : (lowerDigit digit).value = digit.val := by
  revert digit
  decide

def controlQuad (n : ℕ) (low : n < 0x20) : HexQuad :=
  ⟨lowerDigit 0, lowerDigit 0, lowerDigit ⟨n / 16, by omega⟩, lowerDigit ⟨n % 16, by omega⟩⟩

theorem value_controlQuad {n : ℕ} (low : n < 0x20) : (controlQuad n low).value = n := by
  rw [HexQuad.value, controlQuad]
  simp only [value_lowerDigit]
  change ((0 * 16 + 0) * 16 + n / 16) * 16 + n % 16 = n
  omega

/-- The letters of a printer, which has them for quotes and backslashes at least. -/
structure Spelling where
  letter : Char → Option ShortEscape
  char_letter : ∀ (c : Char) (escape : ShortEscape), letter c = some escape → escape.char = c
  covers : ∀ c : Char, letter c = none → c ≠ '"' ∧ c ≠ '\\'

/-- A character as it is printed. -/
def Spelling.item (spelling : Spelling) (c : Char) : Item :=
  match found : spelling.letter c with
  | some escape => .short escape
  | none =>
    if low : c.toNat < 0x20 then
      .unicode (controlQuad c.toNat low) (by
        rw [value_controlQuad]
        exact Or.inl (low.trans (by decide)))
    else .plain c ⟨Nat.not_lt.mp low, spelling.covers c found⟩

theorem char_item (spelling : Spelling) (c : Char) : (spelling.item c).char = c := by
  unfold Spelling.item
  split
  · exact spelling.char_letter c _ ‹_›
  · split_ifs with low
    · rw [Item.char, value_controlQuad]
      exact Char.ofNat_toNat c
    · rfl

/-- A text as it is printed. -/
def Spelling.body (spelling : Spelling) (text : List Char) : List Item := text.map spelling.item

theorem charsOf_body (spelling : Spelling) (text : List Char) :
    charsOf (spelling.body text) = text := by
  rw [charsOf, Spelling.body, List.map_map]
  exact (List.map_congr_left fun c _ => char_item spelling c).trans (List.map_id text)

end Systems.Json
