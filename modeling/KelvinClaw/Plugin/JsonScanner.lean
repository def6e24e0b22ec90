import Mathlib.Data.List.TakeWhile
import Mathlib.Data.List.DropRight
import KelvinClaw.Core.Basic
import KelvinClaw.Library.JsonText

/-!
# The JSON scanner of the tool plugins

The plugins that search the web, ask Exa and read the wiki have no JSON parser. They look for the
bytes of a key in quotes with a colon behind them, and read what follows: the text of a string, the
digits of a number, or the text up to the bracket that closes the first one. Each plugin has its own
copy of these functions.

The search does not know where in the text it is, so a key is found at its first place in the text,
inside of a nested value as well as at the top.
-/

namespace KelvinClaw.Plugin.JsonScanner

open KelvinClaw.Core Systems.Json

/-! ### The scanner -/

/-- `skip_ws`: what is left behind white space. -/
def skipWs (json : Bytes) : Bytes := json.dropWhile isBlank

/-- What is left from a value on, if the text begins with the key and a colon. -/
def valueAfterKey (field : Bytes) : Bytes → Option Bytes
  | [] => none
  | b :: rest =>
    if b = quote ∧ rest.take field.length = field ∧
        (rest.drop field.length).head? = some quote then
      match skipWs (rest.drop (field.length + 1)) with
      | [] => none
      | c :: value => if c = colon then some (skipWs value) else none
    else none

/-- The loop of `find_field_value`: what is left from the value on. -/
def findValue (field : Bytes) : Bytes → Option Bytes
  | [] => none
  | b :: rest =>
    if field.length + 2 < (b :: rest).length then
      match valueAfterKey field (b :: rest) with
      | some value => some value
      | none => findValue field rest
    else none

/-- `find_field_value`. -/
def findFieldValue (json field : Bytes) : Option ℕ :=
  (findValue field json).map fun value => json.length - value.length

def closingQuote : Bytes → Option ℕ
  | [] => none
  | b :: rest =>
    if b = backslash then
      match rest with
      | [] => none
      | _ :: rest => (closingQuote rest).map (· + 2)
    else if b = quote then some 0
    else (closingQuote rest).map (· + 1)

/-- `extract_str_value`. -/
def extractStrValue (json : Bytes) (start : ℕ) : Option Bytes :=
  match json.drop start with
  | [] => none
  | b :: rest => if b = quote then (closingQuote rest).map rest.take else none

/-- `extract_str_field`. -/
def extractStrField (json field : Bytes) : Option Bytes :=
  (findFieldValue json field).bind (extractStrValue json)

def isDigit (b : UInt8) : Bool := 0x30 ≤ b && b ≤ 0x39

/-- `saturating_mul` and `saturating_add`, which a number without a sign is read with. -/
def nextDigit (n : ℕ) (b : UInt8) : ℕ := min (min (n * 10) i64Max + (b.toNat - 0x30)) i64Max

/-- `extract_int_field`. -/
def extractIntField (json field : Bytes) : Option ℤ := do
  let i ← findFieldValue json field
  let negative := (json.drop i).head? = some 0x2D
  let digits := (if negative then (json.drop i).tail else json.drop i).takeWhile isDigit
  let n : ℤ := (digits.foldl nextDigit 0 : ℕ)
  if digits = [] then none else some (if negative then -n else n)

/-- The loop of `find_matching`: how far the bracket is that closes the first one, inside or outside
of a string and at a depth. -/
def closing (opens closes : UInt8) : Bool → ℕ → Bytes → Option ℕ
  | _, _, [] => none
  | true, depth, b :: rest =>
    if b = backslash then
      match rest with
      | [] => none
      | _ :: rest => (closing opens closes true depth rest).map (· + 2)
    else (closing opens closes (decide (b ≠ quote)) depth rest).map (· + 1)
  | false, depth, b :: rest =>
    if b = quote then (closing opens closes true depth rest).map (· + 1)
    else if b = opens then (closing opens closes false (depth + 1) rest).map (· + 1)
    else if b = closes then
      if depth - 1 = 0 then some 0 else (closing opens closes false (depth - 1) rest).map (· + 1)
    else (closing opens closes false depth rest).map (· + 1)

/-- `find_matching`, with the text up to the place that it finds. -/
def matchingText (json : Bytes) (start : ℕ) (opens closes : UInt8) : Option Bytes :=
  if (json.drop start).head? = some opens then
    (closing opens closes false 0 (json.drop start)).map fun n => (json.drop start).take (n + 1)
  else none

/-- `extract_object_field`. -/
def extractObjectField (json field : Bytes) : Option Bytes :=
  (findFieldValue json field).bind fun start => matchingText json start openBrace closeBrace

/-- `extract_array_field`. -/
def extractArrayField (json field : Bytes) : Option Bytes :=
  (findFieldValue json field).bind fun start => matchingText json start openBracket closeBracket

/-! ### Where a key is found -/

section Scanner

variable {field json text rest value : Bytes}

def KeyAt (field json : Bytes) (i : ℕ) : Prop :=
  ∃ (blank : Blank) (rest : Bytes),
    json.drop i = quote :: (field ++ quote :: (blank.1 ++ colon :: rest))

def Starts (text : Bytes) : Prop := ∀ b ∈ text.head?, isBlank b = false

theorem skipWs_append (blank : Blank) (starts : Starts text) : skipWs (blank.1 ++ text) = text := by
  rw [skipWs, List.dropWhile_append_of_pos blank.2]
  cases text with
  | nil => rfl
  | cons b rest =>
    rw [List.dropWhile_cons_of_neg]
    rw [starts b rfl]
    exact Bool.false_ne_true

theorem exists_skipWs (text : Bytes) :
    ∃ blank : Blank, text = blank.1 ++ skipWs text ∧ Starts (skipWs text) := by
  refine ⟨⟨text.takeWhile isBlank, fun _ member => List.mem_takeWhile_imp member⟩,
    (List.takeWhile_append_dropWhile).symm, fun b first => ?_⟩
  have stops := List.head?_dropWhile_not isBlank text
  rw [show (text.dropWhile isBlank).head? = some b from first] at stops
  exact stops

theorem starts_colon (rest : Bytes) : Starts (colon :: rest) := by
  rintro _ ⟨⟩
  decide

theorem valueAfterKey_eq_some_iff : valueAfterKey field text = some value ↔
    Starts value ∧ ∃ blank blank' : Blank,
      text = quote :: (field ++ quote :: (blank.1 ++ colon :: (blank'.1 ++ value))) := by
  constructor
  · intro found
    cases text with
    | nil => cases found
    | cons b rest =>
      rw [valueAfterKey] at found
      split_ifs at found with begins
      obtain ⟨rfl, isField, closes⟩ := begins
      obtain ⟨behind, split⟩ : ∃ behind, rest = field ++ quote :: behind := by
        obtain ⟨behind, isBehind⟩ := List.head?_eq_some_iff.mp closes
        refine ⟨behind, ?_⟩
        rw [← isBehind]
        exact (List.take_append_drop field.length rest).symm.trans (by rw [isField])
      have dropped : rest.drop (field.length + 1) = behind := by
        rw [split, ← List.drop_drop, List.drop_left]
        rfl
      rw [dropped] at found
      obtain ⟨blank, whole, _⟩ := exists_skipWs behind
      cases skipped : skipWs behind with
      | nil =>
        rw [skipped] at found
        cases found
      | cons c tail =>
        rw [skipped] at found whole
        simp only at found
        split_ifs at found with isColon
        obtain rfl := Option.some.inj found
        obtain ⟨blank', whole', starts⟩ := exists_skipWs tail
        refine ⟨starts, blank, blank', ?_⟩
        rw [split, whole, isColon, ← whole']
  · rintro ⟨starts, blank, blank', rfl⟩
    have dropped : (field ++ quote :: (blank.1 ++ colon :: (blank'.1 ++ value))).drop
        (field.length + 1) = blank.1 ++ colon :: (blank'.1 ++ value) := by
      rw [← List.drop_drop, List.drop_left]
      rfl
    rw [valueAfterKey, if_pos ⟨rfl, List.take_left, by rw [List.drop_left]; rfl⟩, dropped,
      skipWs_append blank (starts_colon _)]
    simp only [if_true, skipWs_append blank' starts]

theorem keyAt_iff {i : ℕ} :
    KeyAt field json i ↔ ∃ value, valueAfterKey field (json.drop i) = some value := by
  constructor
  · rintro ⟨blank, rest, found⟩
    obtain ⟨blank', whole, starts⟩ := exists_skipWs rest
    exact ⟨skipWs rest, valueAfterKey_eq_some_iff.mpr
      ⟨starts, blank, blank', by rw [found, ← whole]⟩⟩
  · rintro ⟨value, found⟩
    obtain ⟨_, blank, blank', split⟩ := valueAfterKey_eq_some_iff.mp found
    exact ⟨blank, blank'.1 ++ value, split⟩

theorem KeyAt.length_lt {i : ℕ} (here : KeyAt field json i) : field.length + 2 < json.length := by
  obtain ⟨blank, rest, split⟩ := here
  have lengths := congrArg List.length split
  simp only [List.length_drop, List.length_cons, List.length_append] at lengths
  omega

theorem findValue_eq_none_iff : findValue field json = none ↔ ∀ i, ¬ KeyAt field json i := by
  induction json with
  | nil => exact iff_of_true rfl fun i here => absurd here.length_lt (Nat.not_lt_zero _)
  | cons b rest ih =>
    rw [findValue]
    split_ifs with room
    · cases found : valueAfterKey field (b :: rest) with
      | some value =>
        refine iff_of_false (Option.some_ne_none value) fun never => never 0 ?_
        exact keyAt_iff.mpr ⟨value, found⟩
      | none =>
        simp only [ih]
        constructor
        · intro never i
          cases i with
          | zero =>
            intro here
            obtain ⟨value, isValue⟩ := keyAt_iff.mp here
            rw [List.drop_zero, found] at isValue
            cases isValue
          | succ i => exact never i
        · exact fun never i => never (i + 1)
    · exact iff_of_true rfl fun i here => room here.length_lt

theorem findValue_eq_some_iff : findValue field json = some value ↔
    ∃ i, valueAfterKey field (json.drop i) = some value ∧ ∀ k < i, ¬ KeyAt field json k := by
  induction json with
  | nil =>
    refine iff_of_false nofun ?_
    rintro ⟨i, found, _⟩
    rw [List.drop_nil] at found
    cases found
  | cons b rest ih =>
    rw [findValue]
    split_ifs with room
    · cases found : valueAfterKey field (b :: rest) with
      | some first =>
        constructor
        · intro same
          exact ⟨0, found.trans same, fun k early => absurd early (Nat.not_lt_zero k)⟩
        · rintro ⟨i, isValue, never⟩
          cases i with
          | zero => exact found.symm.trans isValue
          | succ i => exact absurd (keyAt_iff.mpr ⟨first, found⟩) (never 0 (Nat.succ_pos i))
      | none =>
        have notHere : ¬ KeyAt field (b :: rest) 0 := fun here => by
          obtain ⟨other, isOther⟩ := keyAt_iff.mp here
          rw [List.drop_zero, found] at isOther
          cases isOther
        simp only [ih]
        constructor
        · rintro ⟨i, isValue, never⟩
          refine ⟨i + 1, isValue, fun k early => ?_⟩
          cases k with
          | zero => exact notHere
          | succ k => exact never k (Nat.lt_of_succ_lt_succ early)
        · rintro ⟨i, isValue, never⟩
          cases i with
          | zero =>
            rw [List.drop_zero, found] at isValue
            cases isValue
          | succ i => exact ⟨i, isValue, fun k early => never (k + 1) (Nat.succ_lt_succ early)⟩
    · refine iff_of_false nofun ?_
      rintro ⟨i, isValue, _⟩
      exact room (KeyAt.length_lt (keyAt_iff.mpr ⟨value, isValue⟩))

/-! ### What is read there -/

theorem closingQuote_append {body : Bytes} (isBody : IsBody body) (rest : Bytes) :
    closingQuote (body ++ quote :: rest) = some body.length := by
  have apart : quote ≠ backslash := by decide
  induction isBody with
  | nil =>
    rw [List.nil_append, closingQuote.eq_def]
    simp only [if_neg apart, if_true, List.length_nil]
  | byte plain _ ih =>
    rw [List.cons_append, closingQuote.eq_def]
    simp only [if_neg plain.1, if_neg plain.2, ih, Option.map_some, List.length_cons]
  | escape b _ ih =>
    rw [List.cons_append, List.cons_append, closingQuote.eq_def]
    simp only [if_true, ih, Option.map_some, List.length_cons]

theorem exists_of_closingQuote {text : Bytes} {n : ℕ} (found : closingQuote text = some n) :
    ∃ rest, IsBody (text.take n) ∧ text = text.take n ++ quote :: rest := by
  induction text using closingQuote.induct generalizing n with
  | case1 => cases found
  | case2 => cases found
  | case3 b rest ih =>
    rw [closingQuote.eq_def] at found
    simp only [if_true] at found
    obtain ⟨m, inRest, rfl⟩ := Option.map_eq_some_iff.mp found
    obtain ⟨behind, isBody, split⟩ := ih inRest
    refine ⟨behind, .escape b isBody, ?_⟩
    rw [List.take_succ_cons, List.take_succ_cons, List.cons_append, List.cons_append, ← split]
  | case4 rest other =>
    rw [closingQuote.eq_def] at found
    simp only [if_neg other, if_true] at found
    obtain rfl := Option.some_inj.mp found
    exact ⟨rest, .nil, rfl⟩
  | case5 b rest plain other ih =>
    rw [closingQuote.eq_def] at found
    simp only [if_neg plain, if_neg other] at found
    obtain ⟨m, inRest, rfl⟩ := Option.map_eq_some_iff.mp found
    obtain ⟨behind, isBody, split⟩ := ih inRest
    refine ⟨behind, .byte ⟨other, plain⟩ isBody, ?_⟩
    rw [List.take_succ_cons, List.cons_append, ← split]

def FirstString (field json raw : Bytes) : Prop :=
  ∃ (i : ℕ) (blank blank' : Blank) (rest : Bytes), (∀ k < i, ¬ KeyAt field json k) ∧ IsBody raw ∧
    json.drop i = quote :: (field ++ quote :: (blank.1 ++ colon ::
      (blank'.1 ++ quote :: (raw ++ quote :: rest))))

theorem starts_quote (rest : Bytes) : Starts (quote :: rest) := by
  rintro _ ⟨⟩
  decide

theorem drop_of_valueAfterKey {i : ℕ} (here : valueAfterKey field (json.drop i) = some value) :
    json.drop (json.length - value.length) = value := by
  obtain ⟨-, blank, blank', split⟩ := valueAfterKey_eq_some_iff.mp here
  have suffix : value <:+ json.drop i := by
    rw [split]
    exact (List.suffix_append _ _).trans <| (List.suffix_cons _ _).trans <|
      (List.suffix_append _ _).trans <| (List.suffix_cons _ _).trans <|
      (List.suffix_append _ _).trans (List.suffix_cons _ _)
  exact (List.suffix_iff_eq_drop.mp (suffix.trans (List.drop_suffix i json))).symm

theorem extractStrField_eq_some_iff {raw : Bytes} :
    extractStrField json field = some raw ↔ FirstString field json raw := by
  constructor
  · intro read
    obtain ⟨start, position, read⟩ := Option.bind_eq_some_iff.mp read
    obtain ⟨value, found, rfl⟩ := Option.map_eq_some_iff.mp position
    obtain ⟨i, here, never⟩ := findValue_eq_some_iff.mp found
    obtain ⟨-, blank, blank', split⟩ := valueAfterKey_eq_some_iff.mp here
    rw [extractStrValue, drop_of_valueAfterKey here] at read
    cases value with
    | nil => cases read
    | cons b text =>
      simp only at read
      split_ifs at read with isQuote
      obtain ⟨n, closes, rfl⟩ := Option.map_eq_some_iff.mp read
      obtain ⟨rest, isBody, whole⟩ := exists_of_closingQuote closes
      refine ⟨i, blank, blank', rest, never, isBody, ?_⟩
      rw [← whole, split, isQuote]
  · rintro ⟨i, blank, blank', rest, never, isBody, split⟩
    have here : valueAfterKey field (json.drop i) = some (quote :: (raw ++ quote :: rest)) :=
      valueAfterKey_eq_some_iff.mpr ⟨starts_quote _, blank, blank', split⟩
    rw [extractStrField, findFieldValue, findValue_eq_some_iff.mpr ⟨i, here, never⟩,
      Option.map_some, Option.bind_some, extractStrValue, drop_of_valueAfterKey here]
    simp only [if_true, closingQuote_append isBody, Option.map_some, List.take_left]

variable {tree : JsonValue} {tail : Bytes} {i : ℕ}

theorem head?_drop (here : json.drop i = tree.text ++ tail) :
    (json.drop i).head? = some tree.first := by
  rw [here, List.head?_append, head?_text]
  rfl

theorem extractStrValue_eq (here : json.drop i = tree.text ++ tail) :
    extractStrValue json i = tree.stringText := by
  obtain ⟨rest, split⟩ := List.head?_eq_some_iff.mp (head?_drop here)
  rw [extractStrValue, split]
  cases tree with
  | string body =>
    have behind : rest = bodyText body ++ quote :: tail := by
      rw [split, JsonValue.text, literal, List.cons_append, List.append_assoc] at here
      exact (List.cons.inj here).2
    rw [behind]
    simp only [JsonValue.first, if_true, closingQuote_append (isBody_bodyText body),
      Option.map_some, List.take_left, JsonValue.stringText]
  | number n => exact if_neg (first_number_ne (by decide) (by decide) n)
  | bool b => cases b <;> rfl
  | null | array _ _ | object _ _ => rfl

def IsPair (opens closes : UInt8) : Prop :=
  (opens = openBrace ∧ closes = closeBrace) ∨ (opens = openBracket ∧ closes = closeBracket)

variable {opens closes : UInt8} {depth : ℕ}

theorem closing_string {body : Bytes} (isBody : IsBody body) (rest : Bytes) :
    closing opens closes true depth (body ++ quote :: rest) =
      (closing opens closes false depth rest).map (· + (body.length + 1)) := by
  have apart : quote ≠ backslash := by decide
  induction isBody with
  | nil =>
    rw [List.nil_append, closing.eq_def]
    simp only [if_neg apart, ne_eq, not_true_eq_false, decide_false, List.length_nil, Nat.zero_add]
  | @byte b body plain _ ih =>
    rw [List.cons_append, closing.eq_def]
    simp only [if_neg plain.2, decide_eq_true plain.1, ih, Option.map_map, List.length_cons]
    rfl
  | escape b _ ih =>
    rw [List.cons_append, List.cons_append, closing.eq_def]
    simp only [if_true, ih, Option.map_map, List.length_cons]
    rfl

theorem closing_byte {b : UInt8} (other : b ≠ quote ∧ b ≠ opens ∧ b ≠ closes) (rest : Bytes) :
    closing opens closes false depth (b :: rest) =
      (closing opens closes false depth rest).map (· + 1) := by
  rw [closing.eq_def]
  simp only [if_neg other.1, if_neg other.2.1, if_neg other.2.2]

theorem closing_balanced {inner : Bytes} (pair : IsPair opens closes) (balanced : Balanced inner)
    (rest : Bytes) : closing opens closes false (depth + 1) (inner ++ rest) =
      (closing opens closes false (depth + 1) rest).map (· + inner.length) := by
  have opensCloses : opens ≠ quote ∧ closes ≠ quote ∧ closes ≠ opens := by
    rcases pair with ⟨rfl, rfl⟩ | ⟨rfl, rfl⟩ <;> decide
  -- brackets of the kind that is counted, and brackets of the other kind
  have enclosed : ∀ {left right : UInt8} {inner more : Bytes}, IsPair left right →
      (∀ depth rest, closing opens closes false (depth + 1) (inner ++ rest) =
        (closing opens closes false (depth + 1) rest).map (· + inner.length)) →
      (∀ depth rest, closing opens closes false (depth + 1) (more ++ rest) =
        (closing opens closes false (depth + 1) rest).map (· + more.length)) →
      ∀ depth rest, closing opens closes false (depth + 1)
          (left :: (inner ++ right :: more) ++ rest) =
        (closing opens closes false (depth + 1) rest).map
          (· + (left :: (inner ++ right :: more)).length) := by
    intro left right inner more kind passesInner passesMore depth rest
    have grouped : left :: (inner ++ right :: more) ++ rest =
        left :: (inner ++ right :: (more ++ rest)) := by simp
    rw [grouped]
    by_cases same : left = opens ∧ right = closes
    · obtain ⟨rfl, rfl⟩ := same
      rw [closing.eq_def]
      simp only [if_neg opensCloses.1, if_true, passesInner]
      rw [closing.eq_def]
      simp only [if_neg opensCloses.2.1, if_neg opensCloses.2.2, if_true, Nat.add_sub_cancel,
        Nat.succ_ne_zero, if_false, passesMore, Option.map_map]
      congr 1
      funext n
      simp only [Function.comp, List.length_cons, List.length_append]
      omega
    · have leftOther : left ≠ quote ∧ left ≠ opens ∧ left ≠ closes := by
        rcases pair with ⟨rfl, rfl⟩ | ⟨rfl, rfl⟩ <;> rcases kind with ⟨rfl, rfl⟩ | ⟨rfl, rfl⟩ <;>
          first | exact absurd ⟨rfl, rfl⟩ same | decide
      have rightOther : right ≠ quote ∧ right ≠ opens ∧ right ≠ closes := by
        rcases pair with ⟨rfl, rfl⟩ | ⟨rfl, rfl⟩ <;> rcases kind with ⟨rfl, rfl⟩ | ⟨rfl, rfl⟩ <;>
          first | exact absurd ⟨rfl, rfl⟩ same | decide
      rw [closing_byte leftOther, passesInner, closing_byte rightOther, passesMore]
      simp only [Option.map_map]
      congr 1
      funext n
      simp only [Function.comp, List.length_cons, List.length_append]
      omega
  induction balanced generalizing depth rest with
  | nil => simp
  | @byte b inner plain _ ih =>
    have other : b ≠ quote ∧ b ≠ opens ∧ b ≠ closes := by
      simp only [IsStructural, not_or] at plain
      obtain ⟨notQuote, notOpenBrace, notCloseBrace, notOpenBracket, notCloseBracket⟩ := plain
      rcases pair with ⟨rfl, rfl⟩ | ⟨rfl, rfl⟩
      · exact ⟨notQuote, notOpenBrace, notCloseBrace⟩
      · exact ⟨notQuote, notOpenBracket, notCloseBracket⟩
    rw [List.cons_append, closing_byte other, ih, Option.map_map]
    rfl
  | @string body inner isBody _ ih =>
    have grouped : quote :: (body ++ quote :: inner) ++ rest =
        quote :: (body ++ quote :: (inner ++ rest)) := by simp
    rw [grouped, closing.eq_def]
    simp only [if_true, closing_string isBody, ih, Option.map_map]
    congr 1
    funext n
    simp only [Function.comp, List.length_cons, List.length_append]
    omega
  | braces _ _ ihInner ihMore =>
    exact enclosed (.inl ⟨rfl, rfl⟩) (fun _ => ihInner) (fun _ => ihMore) depth rest
  | brackets _ _ ihInner ihMore =>
    exact enclosed (.inr ⟨rfl, rfl⟩) (fun _ => ihInner) (fun _ => ihMore) depth rest

theorem matchingText_of_pair {inner : Bytes} (pair : IsPair opens closes)
    (balanced : Balanced inner)
    (here : json.drop i = opens :: (inner ++ closes :: tail)) :
    matchingText json i opens closes = some (opens :: (inner ++ [closes])) := by
  have apart : opens ≠ quote ∧ closes ≠ quote ∧ closes ≠ opens := by
    rcases pair with ⟨rfl, rfl⟩ | ⟨rfl, rfl⟩ <;> decide
  have found : closing opens closes false 0 (opens :: (inner ++ closes :: tail)) =
      some (inner.length + 1) := by
    rw [closing.eq_def]
    simp only [if_neg apart.1, if_true, closing_balanced pair balanced]
    rw [closing.eq_def]
    simp only [if_neg apart.2.1, if_neg apart.2.2, if_true, Nat.zero_add, Nat.sub_self,
      Option.map_some]
  have whole : opens :: (inner ++ closes :: tail) = opens :: (inner ++ [closes]) ++ tail := by simp
  have length : inner.length + 1 + 1 = (opens :: (inner ++ [closes])).length := by simp
  rw [matchingText, here, if_pos List.head?_cons, found, Option.map_some, whole, length,
    List.take_left]

theorem matchingText_of_ne (here : json.drop i = tree.text ++ tail) (other : tree.first ≠ opens) :
    matchingText json i opens closes = none := by
  refine if_neg fun same => other ?_
  rw [head?_drop here] at same
  exact Option.some_inj.mp same

theorem matchingText_brace (here : json.drop i = tree.text ++ tail) :
    matchingText json i openBrace closeBrace = tree.objectText := by
  cases tree with
  | object blank members =>
    refine @matchingText_of_pair _ tail _ _ _ _ (.inl ⟨rfl, rfl⟩)
      (composes_balanced.members blank members) ?_
    rw [here, JsonValue.text]
    simp
  | number n => exact matchingText_of_ne here (first_number_ne (by decide) (by decide) n)
  | bool b => cases b <;> exact matchingText_of_ne here (by decide)
  | null => exact matchingText_of_ne here (by decide)
  | array _ _ | string _ => exact matchingText_of_ne here (by rw [JsonValue.first]; decide)

theorem matchingText_bracket (here : json.drop i = tree.text ++ tail) :
    matchingText json i openBracket closeBracket = tree.arrayText := by
  cases tree with
  | array blank items =>
    refine @matchingText_of_pair _ tail _ _ _ _ (.inr ⟨rfl, rfl⟩)
      (composes_balanced.items blank items) ?_
    rw [here, JsonValue.text]
    simp
  | number n => exact matchingText_of_ne here (first_number_ne (by decide) (by decide) n)
  | bool b => cases b <;> exact matchingText_of_ne here (by decide)
  | null => exact matchingText_of_ne here (by decide)
  | object _ _ | string _ => exact matchingText_of_ne here (by rw [JsonValue.first]; decide)

/-! ### Numbers -/

def wholeRead (n : Number) : ℤ :=
  let size : ℤ := (min (digitsValue n.whole) i64Max : ℕ)
  if n.negative then -size else size

def intRead : JsonValue → Option ℤ
  | .number n => some (wholeRead n)
  | _ => none

def readInt (rest : Bytes) : Option ℤ :=
  let negative := rest.head? = some 0x2D
  let digits := (if negative then rest.tail else rest).takeWhile isDigit
  let n : ℤ := (digits.foldl nextDigit 0 : ℕ)
  if digits = [] then none else some (if negative then -n else n)

theorem extractIntField_eq :
    extractIntField json field = (findFieldValue json field).bind fun i => readInt (json.drop i) :=
  rfl

theorem foldl_nextDigit (digits : List Digit) (n : ℕ) :
    (digitsText digits).foldl nextDigit (min n i64Max) =
      min (digits.foldl (fun n digit => n * 10 + digit.val) n) i64Max := by
  have value : ∀ digit : Digit, (digitByte digit).toNat - 0x30 = digit.val := by decide
  induction digits generalizing n with
  | nil => rfl
  | cons digit rest ih =>
    have step : nextDigit (min n i64Max) (digitByte digit) =
        min (n * 10 + digit.val) i64Max := by
      rw [nextDigit, value]
      omega
    rw [digitsText, List.map_cons, List.foldl_cons, step, ← digitsText, ih, List.foldl_cons]

theorem takeWhile_digitsText (digits : List Digit) {rest : Bytes}
    (ends : ∀ b ∈ rest.head?, isDigit b = false) :
    (digitsText digits ++ rest).takeWhile isDigit = digitsText digits := by
  have each : ∀ digit, isDigit (digitByte digit) = true := by decide
  have isDigits : ∀ b ∈ digitsText digits, isDigit b = true := by
    intro b member
    obtain ⟨digit, _, rfl⟩ := List.mem_map.mp member
    exact each digit
  rw [List.takeWhile_append_of_pos isDigits]
  cases rest with
  | nil => exact List.append_nil _
  | cons b rest =>
    rw [List.takeWhile_cons_of_neg, List.append_nil]
    rw [ends b rfl]
    exact Bool.false_ne_true

theorem not_isDigit_tail (n : Number) {rest : Bytes} (ends : ∀ b ∈ rest.head?, isDigit b = false) :
    ∀ b ∈ (n.tail ++ rest).head?, isDigit b = false := by
  rw [Number.tail]
  cases n.fraction with
  | some digits =>
    rintro _ ⟨⟩
    decide
  | none =>
    cases n.exponent with
    | none => exact ends
    | some exponent =>
      rintro _ ⟨⟩
      rcases exponent.letter.2 with same | same <;> rw [same] <;> decide

theorem readInt_number (n : Number) (ends : ∀ b ∈ tail.head?, isDigit b = false) :
    readInt (n.text ++ tail) = some (wholeRead n) := by
  have nonempty : digitsText n.whole ≠ [] := List.map_eq_nil_iff.not.mpr n.nonempty
  have value := foldl_nextDigit n.whole 0
  rw [Nat.zero_min, ← digitsValue] at value
  have whole := takeWhile_digitsText n.whole (not_isDigit_tail n ends)
  by_cases negative : n.negative = true
  · have split : n.text ++ tail = 0x2D :: (digitsText n.whole ++ (n.tail ++ tail)) := by
      rw [Number.text, if_pos negative, List.append_assoc, List.append_assoc]
      rfl
    simp only [readInt, wholeRead, split, List.head?_cons, List.tail_cons, if_true, whole, nonempty,
      if_false, value, negative]
  · have split : n.text ++ tail = digitsText n.whole ++ (n.tail ++ tail) := by
      rw [Number.text, if_neg negative, List.append_assoc, List.append_assoc]
      rfl
    have unsigned : (digitsText n.whole ++ (n.tail ++ tail)).head? ≠ some 0x2D := by
      have digits : ∀ digit, digitByte digit ≠ 0x2D := by decide
      obtain ⟨digit, others, first⟩ := List.exists_cons_of_ne_nil n.nonempty
      rw [first]
      exact fun same => digits digit (Option.some_inj.mp same)
    simp only [readInt, wholeRead, split, unsigned, if_false, whole, nonempty, value, negative]
    rfl

theorem readInt_of_first {rest : Bytes} {b : UInt8} (first : rest.head? = some b)
    (unsigned : b ≠ 0x2D) (other : isDigit b = false) : readInt rest = none := by
  obtain ⟨more, rfl⟩ := List.head?_eq_some_iff.mp first
  have stops : (b :: more).takeWhile isDigit = [] := by
    rw [List.takeWhile_cons_of_neg]
    rw [other]
    exact Bool.false_ne_true
  have plain : (b :: more).head? ≠ some 0x2D := fun same => unsigned (Option.some_inj.mp same)
  simp only [readInt, if_neg plain, stops, if_true]

theorem readInt_eq (ends : ∀ b ∈ tail.head?, isDigit b = false) :
    readInt (tree.text ++ tail) = intRead tree := by
  have first : (tree.text ++ tail).head? = some tree.first := by
    rw [List.head?_append, head?_text]
    rfl
  cases tree with
  | number n =>
    rw [JsonValue.text]
    exact readInt_number n ends
  | bool b => cases b <;> exact readInt_of_first first (by decide) (by decide)
  | null => exact readInt_of_first first (by decide) (by decide)
  | array _ _ | object _ _ | string _ =>
    exact readInt_of_first first (by rw [JsonValue.first]; decide) (by rw [JsonValue.first]; decide)

end Scanner

end KelvinClaw.Plugin.JsonScanner
