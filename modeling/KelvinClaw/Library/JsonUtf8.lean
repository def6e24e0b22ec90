import KelvinClaw.Library.JsonText

/-!
# JSON texts in UTF-8

Which bytes are the UTF-8 of a text can be seen part by part: a text may be divided at every byte
of ASCII, and characters may be taken from its front. A text that is cut inside of a character is
not UTF-8.

A JSON text is UTF-8, and it has no control characters other than tabs and line ends.
-/

namespace Systems.Json

/-! ### UTF-8 -/

def IsUtf8 (bytes : Bytes) : Prop := ∃ text, encode text = bytes

section Utf8

variable {bytes front rest : Bytes} {text : List Char} {b : UInt8}

theorem isUtf8_nil : IsUtf8 [] := ⟨[], rfl⟩

theorem isUtf8_encode (text : List Char) : IsUtf8 (encode text) := ⟨text, rfl⟩

theorem IsUtf8.append (first : IsUtf8 front) (second : IsUtf8 rest) : IsUtf8 (front ++ rest) := by
  obtain ⟨text, rfl⟩ := first
  obtain ⟨more, rfl⟩ := second
  exact ⟨text ++ more, encode_append text more⟩

/-- The character of a byte of ASCII. -/
theorem utf8EncodeChar_ofNat (low : b.toNat < 0x80) :
    String.utf8EncodeChar (Char.ofNat b.toNat) = [b] := by
  have valid : b.toNat.isValidChar := Or.inl (low.trans (by decide))
  have same : (Char.ofNat b.toNat).toNat = b.toNat := by
    rw [Char.ofNat, dif_pos valid]
    rfl
  rw [utf8EncodeChar_of_ascii (same.trans_lt low), same, UInt8.ofNat_toNat]

theorem isUtf8_of_ascii (low : ∀ b ∈ bytes, b.toNat < 0x80) : IsUtf8 bytes := by
  induction bytes with
  | nil => exact isUtf8_nil
  | cons b rest ih =>
    rw [List.forall_mem_cons] at low
    obtain ⟨text, rfl⟩ := ih low.2
    refine ⟨Char.ofNat b.toNat :: text, ?_⟩
    rw [encode_cons, utf8EncodeChar_ofNat low.1]
    rfl

/-- A text may be divided at a byte of ASCII. -/
theorem isUtf8_append_cons (low : b.toNat < 0x80) :
    IsUtf8 (front ++ b :: rest) ↔ IsUtf8 front ∧ IsUtf8 rest := by
  constructor
  · rintro ⟨text, split⟩
    induction text generalizing front with
    | nil => exact absurd split.symm (by simp [encode])
    | cons c more ih =>
      rw [encode_cons] at split
      rcases List.append_eq_append_iff.mp split with ⟨behind, rfl, later⟩ | ⟨behind, here, later⟩
      · obtain ⟨isFront, isRest⟩ := ih later
        have first : IsUtf8 (String.utf8EncodeChar c) := ⟨[c], List.append_nil _⟩
        exact ⟨first.append isFront, isRest⟩
      · cases behind with
        | nil =>
          rw [List.nil_append] at later
          obtain ⟨-, isRest⟩ := @ih [] later.symm
          rw [List.append_nil] at here
          exact ⟨here ▸ ⟨[c], List.append_nil _⟩, isRest⟩
        | cons d behind =>
          obtain ⟨rfl, rfl⟩ := List.cons.inj later
          -- the byte is in the character, which is therefore in ASCII
          have inside : b ∈ String.utf8EncodeChar c := here ▸ by simp
          have ascii : c.toNat < 0x80 := by
            by_contra high
            exact absurd low (Nat.not_lt.mpr (le_of_mem_utf8EncodeChar (Nat.not_lt.mp high) inside))
          rw [utf8EncodeChar_of_ascii ascii] at here
          have lengths : 1 = (front ++ b :: behind).length := congrArg List.length here
          rw [List.length_append, List.length_cons] at lengths
          obtain rfl : front = [] := List.eq_nil_of_length_eq_zero (by omega)
          obtain rfl : behind = [] := List.eq_nil_of_length_eq_zero (by omega)
          exact ⟨isUtf8_nil, more, rfl⟩
  · rintro ⟨isFront, isRest⟩
    have middle : IsUtf8 [b] := isUtf8_of_ascii fun c member => List.mem_singleton.mp member ▸ low
    exact isFront.append (middle.append isRest)

/-- No character begins with another one. -/
theorem eq_of_utf8EncodeChar_begins {c d : Char}
    (begins : String.utf8EncodeChar c <+: String.utf8EncodeChar d) : c = d := by
  obtain ⟨rest, whole⟩ := begins
  have arrays : [c].utf8Encode ++ rest.toByteArray = [d].utf8Encode := by
    rw [List.utf8Encode_singleton, List.utf8Encode_singleton, ← List.toByteArray_append, whole]
  have isPrefix := List.isPrefix_of_utf8Encode_append_eq_utf8Encode _ arrays
  exact (List.cons_prefix_cons.mp isPrefix).1

/-- A text whose bytes begin with those of another begins with it. -/
theorem exists_of_encode_append {other : List Char} (split : encode text ++ rest = encode other) :
    ∃ more, other = text ++ more ∧ encode more = rest := by
  induction text generalizing other with
  | nil => exact ⟨other, rfl, split.symm⟩
  | cons c text ih =>
    rw [encode_cons, List.append_assoc] at split
    cases other with
    | nil =>
      have empty := (List.append_eq_nil_iff.mp split).1
      exact absurd empty String.utf8EncodeChar_ne_nil
    | cons d other =>
      rw [encode_cons] at split
      obtain rfl : c = d := by
        rcases List.prefix_or_prefix_of_prefix (List.prefix_append _ _)
          (split ▸ List.prefix_append _ _) with begins | begins
        · exact (eq_of_utf8EncodeChar_begins begins).symm
        · exact eq_of_utf8EncodeChar_begins begins
      obtain ⟨more, rfl, behind⟩ := ih (List.append_cancel_left split)
      exact ⟨more, rfl, behind⟩

theorem encode_inj {other : List Char} (same : encode text = encode other) : text = other := by
  obtain ⟨more, rfl, nothing⟩ := exists_of_encode_append ((List.append_nil _).trans same)
  rw [encode_eq_nil nothing, List.append_nil]

/-- Characters may be taken from the front of a text. -/
theorem isUtf8_encode_append : IsUtf8 (encode text ++ rest) ↔ IsUtf8 rest := by
  refine ⟨?_, (isUtf8_encode text).append⟩
  rintro ⟨other, split⟩
  obtain ⟨more, -, behind⟩ := exists_of_encode_append split.symm
  exact ⟨more, behind⟩

/-- The beginning of a character. -/
def IsPart (part : Bytes) : Prop :=
  ∃ c, part <+: String.utf8EncodeChar c ∧ part ≠ String.utf8EncodeChar c

theorem isPart_nil : IsPart [] := ⟨'a', List.nil_prefix, String.utf8EncodeChar_ne_nil.symm⟩

/-- A part of a character is not a text. -/
theorem isUtf8_part_iff {part : Bytes} (isPart : IsPart part) : IsUtf8 part ↔ part = [] := by
  obtain ⟨c, begins, proper⟩ := isPart
  constructor
  · rintro ⟨text, rfl⟩
    cases text with
    | nil => rfl
    | cons d more =>
      rw [encode_cons] at begins proper
      obtain rfl := eq_of_utf8EncodeChar_begins ((List.prefix_append _ _).trans begins)
      exact absurd (begins.eq_of_length_le (by simp)) proper
  · rintro rfl
    exact isUtf8_nil

/-- A text that is cut ends with a part of a character, which may be empty. -/
theorem exists_take_eq (text : List Char) (n : ℕ) :
    ∃ before part,
      (encode text).take n = encode before ++ part ∧ before <+: text ∧ IsPart part := by
  induction text generalizing n with
  | nil => exact ⟨[], [], List.take_nil, List.nil_prefix, isPart_nil⟩
  | cons c text ih =>
    rw [encode_cons, List.take_append]
    rcases Nat.lt_or_ge n (String.utf8EncodeChar c).length with inside | behind
    · refine ⟨[], (String.utf8EncodeChar c).take n, ?_, List.nil_prefix, c,
        List.take_prefix _ _, ?_⟩
      · rw [Nat.sub_eq_zero_of_le inside.le, List.take_zero, List.append_nil]
        rfl
      · intro same
        have lengths := congrArg List.length same
        rw [List.length_take] at lengths
        omega
    · obtain ⟨before, part, cut, isBefore, isPart⟩ := ih (n - (String.utf8EncodeChar c).length)
      refine ⟨c :: before, part, ?_, List.cons_prefix_cons.mpr ⟨rfl, isBefore⟩, isPart⟩
      rw [List.take_of_length_le behind, cut, encode_cons, List.append_assoc]

end Utf8

/-! ### Where characters begin -/

/-- A byte with which a character begins. -/
def IsFirst (b : UInt8) : Prop := b.toNat < 0x80 ∨ 0xC0 ≤ b.toNat

theorem exists_cons_of_utf8EncodeChar (c : Char) : ∃ b tail,
    String.utf8EncodeChar c = b :: tail ∧ IsFirst b ∧ ∀ d ∈ tail, ¬ IsFirst d := by
  unfold String.utf8EncodeChar
  simp only
  split_ifs with one two three
  · refine ⟨_, _, rfl, .inl ?_, List.forall_mem_nil _⟩
    rw [UInt8.toNat_ofNat']
    omega
  all_goals
    refine ⟨_, _, rfl, .inr ?_, fun d member => ?_⟩
    · rw [UInt8.toNat_ofNat']
      omega
    · simp only [List.mem_cons, List.not_mem_nil, or_false] at member
      rcases member with rfl | rfl | rfl <;>
        (simp only [IsFirst, UInt8.toNat_ofNat']; omega)

/-- A text is taken apart where a character begins. -/
theorem isUtf8_split {front rest : Bytes} (begins : ∀ b ∈ rest.head?, IsFirst b)
    (isUtf8 : IsUtf8 (front ++ rest)) : IsUtf8 front ∧ IsUtf8 rest := by
  obtain ⟨text, spelled⟩ := isUtf8
  induction text generalizing front with
  | nil =>
    obtain ⟨rfl, rfl⟩ := List.append_eq_nil_iff.mp spelled.symm
    exact ⟨isUtf8_nil, isUtf8_nil⟩
  | cons c text ih =>
    rw [encode_cons] at spelled
    rcases List.append_eq_append_iff.mp spelled with ⟨more, rfl, behind⟩ | ⟨more, before, rfl⟩
    · obtain ⟨isFront, isRest⟩ := ih behind
      exact ⟨IsUtf8.append ⟨[c], List.append_nil _⟩ isFront, isRest⟩
    · obtain ⟨b, tail, isChar, -, later⟩ := exists_cons_of_utf8EncodeChar c
      cases more with
      | nil =>
        rw [List.append_nil] at before
        exact ⟨before ▸ ⟨[c], List.append_nil _⟩, isUtf8_encode text⟩
      | cons d more =>
        cases front with
        | nil =>
          refine ⟨isUtf8_nil, c :: text, ?_⟩
          rw [encode_cons, before]
          rfl
        | cons b' front =>
          -- the rest would begin inside of the character
          rw [isChar] at before
          have inside : d ∈ tail :=
            (List.cons.inj before).2 ▸ List.mem_append_right front List.mem_cons_self
          exact absurd (begins d rfl) (later d inside)

theorem isFirst_of_head?_encode {text : List Char} {b : UInt8} (first : b ∈ (encode text).head?) :
    IsFirst b := by
  cases text with
  | nil => cases first
  | cons c text =>
    obtain ⟨b', tail, isChar, isFirst, -⟩ := exists_cons_of_utf8EncodeChar c
    rw [encode_cons, isChar] at first
    obtain rfl := Option.some_inj.mp first
    exact isFirst

theorem isFirst_of_head?_part {part : Bytes} (isPart : IsPart part) {b : UInt8}
    (first : b ∈ part.head?) : IsFirst b := by
  obtain ⟨c, ⟨more, whole⟩, -⟩ := isPart
  obtain ⟨b', tail, isChar, isFirst, -⟩ := exists_cons_of_utf8EncodeChar c
  cases part with
  | nil => cases first
  | cons d part =>
    rw [isChar] at whole
    obtain rfl := Option.some_inj.mp first
    exact (List.cons.inj whole).1 ▸ isFirst

/-- The bytes of a part of a character are high. -/
theorem le_of_mem_part {part : Bytes} (isPart : IsPart part) {b : UInt8} (member : b ∈ part) :
    0x80 ≤ b.toNat := by
  obtain ⟨c, begins, proper⟩ := isPart
  refine le_of_mem_utf8EncodeChar ?_ (begins.subset member)
  by_contra low
  rw [utf8EncodeChar_of_ascii (Nat.not_le.mp low)] at begins proper
  cases part with
  | nil => cases member
  | cons d part =>
    obtain ⟨rfl, nothing⟩ := List.cons_prefix_cons.mp begins
    exact proper (congrArg (_ :: ·) (List.prefix_nil.mp nothing))

/-! ### JSON texts -/

/-- No control character other than tabs and line ends. -/
def IsTextChar (c : Char) : Prop := 0x20 ≤ c.toNat ∨ c = '\t' ∨ c = '\n' ∨ c = '\r'

/-- Bytes that are the UTF-8 of a text without other control characters. -/
def IsText (bytes : Bytes) : Prop := ∃ text, encode text = bytes ∧ ∀ c ∈ text, IsTextChar c

theorem IsText.isUtf8 {bytes : Bytes} (isText : IsText bytes) : IsUtf8 bytes :=
  isText.imp fun _ encoded => encoded.1

theorem isText_nil : IsText [] := ⟨[], rfl, List.forall_mem_nil _⟩

theorem IsText.append {front rest : Bytes} (first : IsText front) (second : IsText rest) :
    IsText (front ++ rest) := by
  obtain ⟨text, rfl, isText⟩ := first
  obtain ⟨more, rfl, isText'⟩ := second
  exact ⟨text ++ more, encode_append text more, List.forall_mem_append.mpr ⟨isText, isText'⟩⟩

/-- White space, and what ASCII has besides control characters. -/
def isTextByte (b : UInt8) : Bool := isBlank b || (0x20 ≤ b && b < 0x80)

theorem isText_cons {b : UInt8} {rest : Bytes} (first : isTextByte b = true)
    (later : IsText rest) : IsText (b :: rest) := by
  have bytes : ∀ k < 0x100, isTextByte (UInt8.ofNat k) = true →
      k < 0x80 ∧ IsTextChar (Char.ofNat k) := by
    unfold IsTextChar
    decide +kernel
  obtain ⟨low, isChar⟩ := bytes b.toNat b.toNat_lt ((@UInt8.ofNat_toNat b).symm ▸ first)
  have alone : IsText [b] := by
    refine ⟨[Char.ofNat b.toNat], ?_, fun c member => List.mem_singleton.mp member ▸ isChar⟩
    rw [encode_cons, utf8EncodeChar_ofNat low]
    rfl
  exact alone.append later

theorem isText_of_bytes {bytes : Bytes} (all : bytes.all isTextByte = true) : IsText bytes := by
  induction bytes with
  | nil => exact isText_nil
  | cons b rest ih =>
    rw [List.all_cons, Bool.and_eq_true] at all
    exact isText_cons all.1 (ih all.2)

theorem isText_blank (blank : Blank) : IsText blank.1 :=
  isText_of_bytes <| List.all_eq_true.mpr fun b member => by
    rw [isTextByte, blank.2 b member, Bool.true_or]

theorem isTextByte_of_isHexDigit {b : UInt8} (digit : isHexDigit b = true) :
    isTextByte b = true := by
  have all : ∀ k < 0x100, isHexDigit (UInt8.ofNat k) = true →
      isTextByte (UInt8.ofNat k) = true := by
    decide +kernel
  exact @UInt8.ofNat_toNat b ▸ all b.toNat b.toNat_lt ((@UInt8.ofNat_toNat b).symm ▸ digit)

theorem isText_quad (quad : HexQuad) : IsText quad.text :=
  isText_cons rfl (isText_cons rfl (isText_of_bytes <| List.all_eq_true.mpr fun b member => by
    simp only [List.mem_cons, List.not_mem_nil, or_false] at member
    rcases member with rfl | rfl | rfl | rfl
    · exact isTextByte_of_isHexDigit quad.first.2
    · exact isTextByte_of_isHexDigit quad.second.2
    · exact isTextByte_of_isHexDigit quad.third.2
    · exact isTextByte_of_isHexDigit quad.fourth.2))

theorem isText_item (item : Item) : IsText item.text := by
  cases item with
  | plain c isPlain =>
    exact ⟨[c], List.append_nil _, fun d member => List.mem_singleton.mp member ▸ Or.inl isPlain.1⟩
  | short escape => cases escape <;> exact isText_of_bytes (by decide)
  | unicode quad isScalar => exact isText_quad quad
  | pair high low isHigh isLow => exact (isText_quad high).append (isText_quad low)

theorem isText_literal (body : List Item) : IsText (literal body) := by
  refine isText_cons rfl (IsText.append ?_ (isText_of_bytes (by decide)))
  induction body with
  | nil => exact isText_nil
  | cons item rest ih => exact (isText_item item).append ih

theorem isText_digitsText (digits : List Digit) : IsText (digitsText digits) :=
  isText_of_bytes <| List.all_eq_true.mpr fun b member => by
    obtain ⟨digit, _, rfl⟩ := List.mem_map.mp member
    have all : ∀ digit, isTextByte (digitByte digit) = true := by decide
    exact all digit

theorem isText_exponent (exponent : Exponent) : IsText exponent.text := by
  refine isText_cons ?_ (IsText.append ?_ (isText_digitsText _))
  · rcases exponent.letter.2 with same | same <;> rw [same] <;> decide
  · cases exponent.sign with
    | none => exact isText_nil
    | some sign =>
      obtain ⟨b, rfl | rfl⟩ := sign <;> exact isText_of_bytes (by decide)

theorem isText_number (number : Number) : IsText number.text := by
  refine IsText.append ?_ ((isText_digitsText _).append (IsText.append ?_ ?_))
  · split_ifs
    · exact isText_of_bytes (by decide)
    · exact isText_nil
  · split
    · exact isText_nil
    · exact isText_cons rfl (isText_digitsText _)
  · split
    · exact isText_nil
    · exact isText_exponent _

theorem composes_isText : Composes IsText where
  nil := isText_nil
  append := IsText.append
  token text member := by
    simp only [List.mem_cons, List.not_mem_nil, or_false] at member
    rcases member with rfl | rfl | rfl | rfl | rfl <;> exact isText_of_bytes (by decide)
  blank := isText_blank
  number := isText_number
  literal := isText_literal
  braces inner := isText_cons rfl (inner.append (isText_of_bytes (by decide)))
  brackets inner := isText_cons rfl (inner.append (isText_of_bytes (by decide)))

/-- A JSON text is UTF-8 without other control characters. -/
theorem isText_text (tree : JsonValue) : IsText tree.text := composes_isText.text tree

end Systems.Json
