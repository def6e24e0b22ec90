import KelvinClaw.Library.BoundedBuffer
import KelvinClaw.Library.JsonText

/-!
# The JSON strings of the tool plugins

The plugins write strings with escapes into their buffers, and take the escapes out of the strings
that they read. Each plugin has its own copy of the two loops.

The writer escapes a control byte that has no letter of its own with four digits. The reader knows
letters only, and of those neither the one of the backspace nor that of the form feed: of every
other escape it drops the backslash.
-/

namespace KelvinClaw.Plugin.JsonStrings

open Systems Systems.Json

variable {n : ℕ}

/-! ### The loops -/

/-- `write_bytes`. -/
def writeBytes (src : Bytes) : Write UInt8 n := writeWord src

/-- `write_byte`. -/
def writeByte (b : UInt8) : Write UInt8 n := fun buf =>
  if full : n ≤ buf.written.length then (false, buf)
  else (true, buf.append [b] (Nat.lt_of_not_le full))

def hexDigit (digit : UInt8) : UInt8 := if digit < 10 then 0x30 + digit else 0x61 + digit - 10

/-- The body of the loop of `write_json_str`. -/
def writeEscaped (b : UInt8) : Write UInt8 n :=
  if b = quote then writeBytes [backslash, quote]
  else if b = backslash then writeBytes [backslash, backslash]
  else if b = 0x0A then writeBytes [backslash, 0x6E]
  else if b = 0x0D then writeBytes [backslash, 0x72]
  else if b = 0x09 then writeBytes [backslash, 0x74]
  else if b < 0x20 then
    (writeBytes [backslash, 0x75, 0x30, 0x30]).andThen
      ((writeByte (hexDigit (b >>> 4))).andThen (writeByte (hexDigit (b &&& 0xF))))
  else writeByte b

/-- The loop of `write_json_str`. -/
def writeEach : Bytes → Write UInt8 n
  | [] => Write.done
  | b :: rest => (writeEscaped b).andThen (writeEach rest)

/-- `write_json_str`. -/
def writeJsonStr (s : Bytes) : Write UInt8 n :=
  (writeByte quote).andThen ((writeEach s).andThen (writeByte quote))

def unescapedByte (b : UInt8) : UInt8 :=
  if b = 0x6E then 0x0A
  else if b = 0x72 then 0x0D
  else if b = 0x74 then 0x09
  else b

/-- `unescape_json_str`. A backslash at the end is copied. -/
def unescapeJsonStr : Bytes → Write UInt8 n
  | [] => Write.done
  | [b] => (writeByte b).andThen Write.done
  | b :: c :: rest =>
    if b = backslash then (writeByte (unescapedByte c)).andThen (unescapeJsonStr rest)
    else (writeByte b).andThen (unescapeJsonStr (c :: rest))

/-! ### The texts of the loops -/

theorem fills_byte (b : UInt8) : Fills (writeByte b : Write UInt8 n) [b] := by
  have same : (writeByte b : Write UInt8 n) = writeWord [b] := by
    funext buf
    rw [writeByte, writeWord]
    by_cases full : n ≤ buf.written.length
    · have roomless : ¬ buf.HasRoom [b] := Nat.not_le.mpr (Nat.lt_succ_of_le full)
      rw [dif_pos full, dif_neg roomless]
    · have room : buf.HasRoom [b] := Nat.lt_of_not_le full
      rw [dif_neg full, dif_pos room]
  exact same ▸ fills_item b

def IsLost (b : UInt8) : Prop := b < 0x20 ∧ b ≠ 0x0A ∧ b ≠ 0x0D ∧ b ≠ 0x09

instance (b : UInt8) : Decidable (IsLost b) := inferInstanceAs (Decidable (_ ∧ _))

def hexDigits (b : UInt8) : Bytes := [hexDigit (b >>> 4), hexDigit (b &&& 0xF)]

def escaped (b : UInt8) : Bytes :=
  if b = quote then [backslash, quote]
  else if b = backslash then [backslash, backslash]
  else if b = 0x0A then [backslash, 0x6E]
  else if b = 0x0D then [backslash, 0x72]
  else if b = 0x09 then [backslash, 0x74]
  else if b < 0x20 then [backslash, 0x75, 0x30, 0x30] ++ hexDigits b
  else [b]

theorem writes_escaped (b : UInt8) : Writes (writeEscaped b : Write UInt8 n) (escaped b) := by
  rw [writeEscaped, escaped]
  split_ifs
  iterate 5 exact writes_word _
  · exact (writes_word _).andThen ((fills_byte _).toWrites.andThen (fills_byte _).toWrites)
  · exact (fills_byte b).toWrites

theorem writes_each (s : Bytes) : Writes (writeEach s : Write UInt8 n) (s.flatMap escaped) := by
  induction s with
  | nil => exact fills_done.toWrites
  | cons b rest ih => exact (writes_escaped b).andThen ih

theorem writes_jsonStr (s : Bytes) :
    Writes (writeJsonStr s : Write UInt8 n) (quote :: (s.flatMap escaped ++ [quote])) :=
  (fills_byte quote).toWrites.andThen ((writes_each s).andThen (fills_byte quote).toWrites)

def unescaped : Bytes → Bytes
  | [] => []
  | [b] => [b]
  | b :: c :: rest =>
    if b = backslash then unescapedByte c :: unescaped rest else b :: unescaped (c :: rest)

theorem fills_unescape (s : Bytes) : Fills (unescapeJsonStr s : Write UInt8 n) (unescaped s) := by
  induction s using unescaped.induct with
  | case1 => exact fills_done
  | case2 b => exact (fills_byte b).andThen fills_done
  | case3 c rest ih =>
    rw [unescapeJsonStr, unescaped, if_pos rfl, if_pos rfl]
    exact (fills_byte _).andThen ih
  | case4 b c rest other ih =>
    rw [unescapeJsonStr, unescaped, if_neg other, if_neg other]
    exact (fills_byte b).andThen ih

/-! ### What is read -/

theorem unescaped_escape (c : UInt8) (rest : Bytes) :
    unescaped (backslash :: c :: rest) = unescapedByte c :: unescaped rest :=
  if_pos rfl

theorem unescaped_append {text : Bytes} (plain : backslash ∉ text) (rest : Bytes) :
    unescaped (text ++ rest) = text ++ unescaped rest := by
  induction text with
  | nil => rfl
  | cons b text ih =>
    rw [List.mem_cons, not_or] at plain
    have later := ih plain.2
    cases behind : text ++ rest with
    | nil =>
      obtain ⟨rfl, rfl⟩ := List.append_eq_nil_iff.mp behind
      rfl
    | cons c more =>
      rw [behind] at later
      rw [List.cons_append, behind, unescaped, if_neg (Ne.symm plain.1), later]
      rfl

def readBack (b : UInt8) : Bytes := if IsLost b then [0x75, 0x30, 0x30] ++ hexDigits b else [b]

theorem backslash_notMem_hexDigits {b : UInt8} (low : b < 0x20) : backslash ∉ hexDigits b := by
  have all : ∀ k < 0x20, backslash ∉ hexDigits (UInt8.ofNat k) := by decide
  have bound : b.toNat < 0x20 := UInt8.lt_iff_toNat_lt.mp low
  exact @UInt8.ofNat_toNat b ▸ all b.toNat bound

theorem unescaped_escaped (b : UInt8) (rest : Bytes) :
    unescaped (escaped b ++ rest) = readBack b ++ unescaped rest := by
  by_cases lost : IsLost b
  · obtain ⟨low, notNewline, notReturn, notTab⟩ := lost
    have notQuote : b ≠ quote := fun same => absurd (same ▸ low) (by decide)
    have notBackslash : b ≠ backslash := fun same => absurd (same ▸ low) (by decide)
    have digits : backslash ∉ [0x30, 0x30] ++ hexDigits b := by
      rw [List.mem_append, not_or]
      exact ⟨by decide, backslash_notMem_hexDigits low⟩
    rw [escaped, if_neg notQuote, if_neg notBackslash, if_neg notNewline, if_neg notReturn,
      if_neg notTab, if_pos low, readBack, if_pos ⟨low, notNewline, notReturn, notTab⟩]
    exact (unescaped_escape 0x75 _).trans (congrArg (0x75 :: ·) (unescaped_append digits rest))
  · rw [readBack, if_neg lost, escaped]
    split_ifs with isQuote isBackslash isNewline isReturn isTab low
    · rw [isQuote]
      exact unescaped_escape quote rest
    · rw [isBackslash]
      exact unescaped_escape backslash rest
    · rw [isNewline]
      exact unescaped_escape 0x6E rest
    · rw [isReturn]
      exact unescaped_escape 0x72 rest
    · rw [isTab]
      exact unescaped_escape 0x74 rest
    · exact absurd ⟨low, isNewline, isReturn, isTab⟩ lost
    · exact unescaped_append (fun same => isBackslash (List.mem_singleton.mp same).symm) rest

theorem unescaped_flatMap_escaped (s : Bytes) :
    unescaped (s.flatMap escaped) = s.flatMap readBack := by
  induction s with
  | nil => rfl
  | cons b rest ih => rw [List.flatMap_cons, unescaped_escaped, ih, List.flatMap_cons]

def readItem : Item → Bytes
  | .plain c _ => String.utf8EncodeChar c
  | .short escape => [unescapedByte escape.letter]
  | .unicode quad _ => quad.text.tail
  | .pair high low _ _ => high.text.tail ++ low.text.tail

theorem unescaped_quad (quad : HexQuad) (rest : Bytes) :
    unescaped (quad.text ++ rest) = quad.text.tail ++ unescaped rest := by
  have digits : backslash ∉ [quad.first.1, quad.second.1, quad.third.1, quad.fourth.1] := by
    intro member
    simp only [List.mem_cons, List.not_mem_nil, or_false] at member
    rcases member with same | same | same | same
    · exact quad.first.plain.2 same.symm
    · exact quad.second.plain.2 same.symm
    · exact quad.third.plain.2 same.symm
    · exact quad.fourth.plain.2 same.symm
  exact (unescaped_escape 0x75 _).trans (congrArg (0x75 :: ·) (unescaped_append digits rest))

theorem unescaped_item (item : Item) (rest : Bytes) :
    unescaped (item.text ++ rest) = readItem item ++ unescaped rest := by
  cases item with
  | plain c isPlain =>
    exact unescaped_append (fun member => (of_mem_of_isPlain isPlain member).2.2 rfl) rest
  | short escape => exact unescaped_escape _ rest
  | unicode quad isScalar => exact unescaped_quad quad rest
  | pair high low isHigh isLow =>
    rw [Item.text, readItem, List.append_assoc, unescaped_quad, unescaped_quad, List.append_assoc]

theorem unescaped_bodyText (body : List Item) :
    unescaped (bodyText body) = body.flatMap readItem := by
  induction body with
  | nil => rfl
  | cons item rest ih =>
    rw [bodyText, List.flatMap_cons, ← bodyText, unescaped_item, ih, List.flatMap_cons]

/-! ### What is read correctly -/

/-- Where no part of a text is longer than what it stands for, the parts are the same if the texts
are. -/
theorem forall_eq_of_flatMap_eq {α : Type} {f g : α → Bytes}
    (short : ∀ a, (g a).length ≤ (f a).length) {l : List α} (same : l.flatMap f = l.flatMap g) :
    ∀ a ∈ l, f a = g a := by
  have shorter : ∀ l : List α, (l.flatMap g).length ≤ (l.flatMap f).length := by
    intro l
    induction l with
    | nil => exact le_rfl
    | cons a rest ih =>
      rw [List.flatMap_cons, List.flatMap_cons, List.length_append, List.length_append]
      exact Nat.add_le_add (short a) ih
  induction l with
  | nil => exact List.forall_mem_nil _
  | cons a rest ih =>
    rw [List.flatMap_cons, List.flatMap_cons] at same
    have lengths := congrArg List.length same
    rw [List.length_append, List.length_append] at lengths
    have equal : (f a).length = (g a).length := by
      have := short a
      have := shorter rest
      omega
    obtain ⟨here, later⟩ := List.append_inj same equal
    exact List.forall_mem_cons.mpr ⟨here, ih later⟩

theorem flatMap_congr_iff {α : Type} {f g : α → Bytes}
    (short : ∀ a, (g a).length ≤ (f a).length) {l : List α} :
    l.flatMap f = l.flatMap g ↔ ∀ a ∈ l, f a = g a :=
  ⟨forall_eq_of_flatMap_eq short, fun same => List.flatMap_congr same⟩

theorem readBack_eq_iff {b : UInt8} : readBack b = [b] ↔ ¬ IsLost b := by
  rw [readBack]
  split_ifs with lost
  · refine iff_of_false (fun same => ?_) (not_not.mpr lost)
    have lengths : 5 = 1 := congrArg List.length same
    omega
  · exact iff_of_true rfl lost

theorem unescaped_flatMap_escaped_eq_iff {s : Bytes} :
    unescaped (s.flatMap escaped) = s ↔ ∀ b ∈ s, ¬ IsLost b := by
  have short : ∀ b, [b].length ≤ (readBack b).length := by
    intro b
    rw [readBack]
    split_ifs
    · exact Nat.succ_le_succ (Nat.zero_le _)
    · exact le_rfl
  have whole : s.flatMap (fun b => [b]) = s := by simp
  rw [unescaped_flatMap_escaped]
  nth_rewrite 2 [← whole]
  rw [flatMap_congr_iff short]
  exact forall₂_congr fun b _ => readBack_eq_iff

/-- The characters of a string that are read: those without an escape, and those with a letter that
the reader knows. -/
def IsRead : Item → Prop
  | .plain _ _ => True
  | .short escape => escape ≠ .backspace ∧ escape ≠ .formFeed
  | .unicode _ _ => False
  | .pair _ _ _ _ => False

theorem length_le_readItem (item : Item) :
    (String.utf8EncodeChar item.char).length ≤ (readItem item).length := by
  cases item with
  | plain c isPlain => exact le_rfl
  | short escape => cases escape <;> decide
  | unicode quad isScalar =>
    rw [String.length_utf8EncodeChar]
    exact (Char.utf8Size_le_four _).trans (Nat.le_succ 4)
  | pair high low isHigh isLow =>
    rw [String.length_utf8EncodeChar]
    exact (Char.utf8Size_le_four _).trans (Nat.le_add_right 4 6)

theorem readItem_eq_iff {item : Item} :
    readItem item = String.utf8EncodeChar item.char ↔ IsRead item := by
  cases item with
  | plain c isPlain => exact iff_of_true rfl trivial
  | short escape =>
    have letters : [unescapedByte escape.letter] = String.utf8EncodeChar escape.char ↔
        escape ≠ .backspace ∧ escape ≠ .formFeed := by
      cases escape <;> decide
    exact letters
  | unicode quad isScalar =>
    -- the digits are longer than any character
    refine iff_of_false (fun same => ?_) not_false
    have lengths : 5 = _ := congrArg List.length same
    rw [String.length_utf8EncodeChar] at lengths
    exact absurd (lengths.trans_le (Char.utf8Size_le_four _)) (by decide)
  | pair high low isHigh isLow =>
    refine iff_of_false (fun same => ?_) not_false
    have lengths : 10 = _ := congrArg List.length same
    rw [String.length_utf8EncodeChar] at lengths
    exact absurd (lengths.trans_le (Char.utf8Size_le_four _)) (by decide)

theorem unescaped_bodyText_eq_iff {body : List Item} :
    unescaped (bodyText body) = encode (charsOf body) ↔ ∀ item ∈ body, IsRead item := by
  have text : encode (charsOf body) = body.flatMap fun item => String.utf8EncodeChar item.char :=
    List.flatMap_map _ _ _
  rw [unescaped_bodyText, text, flatMap_congr_iff length_le_readItem]
  exact forall₂_congr fun item _ => readItem_eq_iff

/-! ### Round trips -/

/-- What is written of a text, into any buffer with room for it, is the text when it is read between
its quotes into any buffer with room. -/
def RoundTrips (s : Bytes) : Prop :=
  ∀ (n m : ℕ) (buf out : Buffer UInt8 n) (back : Buffer UInt8 m) (room : back.HasRoom s),
    writeJsonStr s buf = (true, out) →
      ∃ body, out.written = buf.written ++ quote :: (body ++ [quote]) ∧
        unescapeJsonStr body back = (true, back.append s room)

def Denotes (body : List Item) : Prop :=
  ∀ (m : ℕ) (back : Buffer UInt8 m) (room : back.HasRoom (encode (charsOf body))),
    unescapeJsonStr (bodyText body) back = (true, back.append (encode (charsOf body)) room)

/-- A text is read as another into every buffer with room, if this is what it is without escapes. -/
theorem reads_iff {text other : Bytes} :
    (∀ (m : ℕ) (back : Buffer UInt8 m) (room : back.HasRoom other),
      unescapeJsonStr text back = (true, back.append other room)) ↔ unescaped text = other := by
  constructor
  · intro reads
    -- there is room for both in a buffer with the length of the two together
    have room : (Buffer.empty : Buffer UInt8 (other.length + (unescaped text).length)).HasRoom
        other := show 0 + other.length ≤ _ by omega
    have room' : (Buffer.empty : Buffer UInt8 (other.length + (unescaped text).length)).HasRoom
        (unescaped text) := show 0 + (unescaped text).length ≤ _ by omega
    have same := ((fills_unescape text).of_room _ room').symm.trans (reads _ _ room)
    exact congrArg (fun result => result.2.written) same
  · rintro rfl m back room
    exact (fills_unescape text).of_room back room

theorem roundTrips_iff {s : Bytes} : RoundTrips s ↔ unescaped (s.flatMap escaped) = s := by
  rw [← reads_iff]
  constructor
  · intro trips m back room
    have literalRoom : (Buffer.empty : Buffer UInt8
        (quote :: (s.flatMap escaped ++ [quote])).length).HasRoom
        (quote :: (s.flatMap escaped ++ [quote])) := (Nat.zero_add _).le
    obtain ⟨body, written, read⟩ :=
      trips _ m Buffer.empty _ back room ((writes_jsonStr s).of_room _ literalRoom)
    have same : s.flatMap escaped = body :=
      (List.append_inj' (List.cons.inj written).2 rfl).1
    exact same ▸ read
  · intro reads n m buf out back room wrote
    have literalRoom := ((writes_jsonStr s).ok_iff buf).mp (congrArg Prod.fst wrote)
    have same := ((writes_jsonStr s).of_room buf literalRoom).symm.trans wrote
    refine ⟨s.flatMap escaped, ?_, reads m back room⟩
    exact (congrArg (fun result => result.2.written) same).symm

/-- **The strings of the plugins.** A text is read again exactly if it has no control bytes other
than tabs and line ends; a string is read as what it denotes exactly if its escapes have letters,
and neither that of the backspace nor that of the form feed. -/
theorem round_trips_and_denotes_iff (s : Bytes) (body : List Item) :
    (RoundTrips s ↔ ∀ b ∈ s, ¬ IsLost b) ∧ (Denotes body ↔ ∀ item ∈ body, IsRead item) :=
  ⟨roundTrips_iff.trans unescaped_flatMap_escaped_eq_iff, reads_iff.trans unescaped_bodyText_eq_iff⟩

/-- A control byte comes back as the digits of its escape, and a backspace as its letter. -/
theorem control_byte_is_lost :
    ¬ RoundTrips [0x01] ∧ unescaped ([0x01].flatMap escaped) = ascii "u0001" ∧
      ¬ Denotes [.short .backspace] ∧ unescaped (bodyText [.short .backspace]) = ascii "b" := by
  refine ⟨fun trips => ?_, by decide, fun denotes => ?_, by decide⟩
  · exact absurd (roundTrips_iff.mp trips) (by decide)
  · exact absurd (reads_iff.mp denotes) (by decide)

end KelvinClaw.Plugin.JsonStrings
