import KelvinClaw.Library.JsonPrint
import KelvinClaw.Plugin.JsonScanner

/-!
# The members that the tool plugins read

The scanner of the tool plugins looks for the first place in a text where a key stands in quotes
with a colon behind it. It reads the member of an object if that place is the key of the member: if
no object inside of a value before it has such a key.
-/

namespace KelvinClaw.Plugin.JsonScanner

open KelvinClaw.Core Systems.Json

/-! ### Members of an object -/

/-- The text of an object, with white space before and behind it. -/
structure Document where
  lead : Blank
  blank : Blank
  members : List (Member JsonValue)
  trail : Blank

namespace Document

variable (doc : Document) (name : List Char)

def text : Bytes := doc.lead.1 ++ ((JsonValue.object doc.blank doc.members).text ++ doc.trail.1)

def member : Option (Member JsonValue) := doc.members.find? fun m => charsOf m.key = name

def front : Bytes :=
  doc.lead.1 ++ openBrace :: frontText (doc.members.takeWhile fun m => charsOf m.key ≠ name)

def keyStart : ℕ :=
  match doc.member name with
  | none => doc.text.length
  | some m => (doc.front name).length + m.before.1.length

def valueStart : Option ℕ :=
  (doc.member name).map fun m => (doc.front name).length + m.head.length

variable {doc name} {m : Member JsonValue}

theorem text_eq (found : doc.member name = some m) : ∃ tail : Bytes,
    (∀ b ∈ tail.head?, isDigit b = false) ∧
      doc.text = doc.front name ++ (m.head ++ (m.value.text ++ tail)) := by
  have notKey : (fun m : Member JsonValue => decide (charsOf m.key ≠ name)) =
      fun m => !decide (charsOf m.key = name) := by
    funext m
    exact decide_not
  obtain ⟨back, split⟩ : ∃ back, doc.members =
      (doc.members.takeWhile fun m => charsOf m.key ≠ name) ++ m :: back := by
    have first : (doc.members.dropWhile fun m => charsOf m.key ≠ name).head? = some m := by
      rw [notKey, ← List.find?_eq_head?_dropWhile_not]
      exact found
    obtain ⟨back, dropped⟩ := List.head?_eq_some_iff.mp first
    exact ⟨back, by rw [← dropped, List.takeWhile_append_dropWhile]⟩
  refine ⟨m.after.1 ++ (moreMembers back ++ closeBrace :: doc.trail.1), ?_, ?_⟩
  · -- behind the value stands white space, a comma or the brace
    have blanks : ∀ b, isBlank b = true → isDigit b = false := by
      intro b blank
      rw [Bool.eq_false_iff]
      intro digit
      simp only [isBlank, isDigit, Bool.or_eq_true, decide_eq_true_eq, Bool.and_eq_true] at *
      rcases blank with ((rfl | rfl) | rfl) | rfl <;> exact absurd digit.1 (by decide)
    cases blank : m.after.1 with
    | cons b more =>
      rintro _ ⟨⟩
      exact blanks b (m.after.2 b (blank ▸ List.mem_cons_self))
    | nil =>
      cases back with
      | nil =>
        rw [moreMembers]
        rintro _ ⟨⟩
        decide
      | cons next back =>
        rw [moreMembers]
        rintro _ ⟨⟩
        decide
  · rw [text, JsonValue.text, front]
    conv_lhs => rw [split]
    rw [membersText_append, Member.text]
    simp only [List.append_assoc, List.cons_append, List.nil_append]

end Document

/-- The functions read the first member with a key, and nothing where there is none. -/
structure ReadsMember (doc : Document) (name : List Char) : Prop where
  position : findFieldValue doc.text (encode name) = doc.valueStart name
  string : extractStrField doc.text (encode name) =
    (doc.member name).bind fun m => m.value.stringText
  int : extractIntField doc.text (encode name) = (doc.member name).bind fun m => m.value.integer
  object : extractObjectField doc.text (encode name) =
    (doc.member name).bind fun m => m.value.objectText
  array : extractArrayField doc.text (encode name) =
    (doc.member name).bind fun m => m.value.arrayText

def IsSmallInteger (n : Number) : Prop :=
  n.fraction = none ∧ n.exponent = none ∧ digitsValue n.whole ≤ i64Max

theorem wholeRead_eq_integer_iff {n : Number} :
    some (wholeRead n) = n.integer ↔ IsSmallInteger n := by
  rw [Number.integer, IsSmallInteger]
  simp only [Option.isNone_iff_eq_none]
  split_ifs with plain negative
  · rw [and_iff_right plain.1, and_iff_right plain.2, Option.some_inj, wholeRead, if_pos negative]
    omega
  · rw [and_iff_right plain.1, and_iff_right plain.2, Option.some_inj, wholeRead, if_neg negative]
    omega
  · exact iff_of_false not_false fun small => plain ⟨small.1, small.2.1⟩

def IsReadable (name : List Char) (m : Member JsonValue) : Prop :=
  bodyText m.key = encode name ∧ ∀ n, m.value = .number n → IsSmallInteger n

section Reading

variable {doc : Document} {name : List Char} {m : Member JsonValue}

/-- Before the last byte that is no white space, two texts are the same. -/
theorem append_cons_blank_inj {front front' : Bytes} {b b' : UInt8} {blank blank' : Blank}
    (inked : isBlank b = false) (inked' : isBlank b' = false)
    (same : front ++ b :: blank.1 = front' ++ b' :: blank'.1) : front = front' := by
  have stripped : ∀ (front : Bytes) (b : UInt8) (blank : Blank), isBlank b = false →
      (front ++ b :: blank.1).reverse.dropWhile isBlank = b :: front.reverse := by
    intro front b blank inked
    have grouped : (front ++ b :: blank.1).reverse = blank.1.reverse ++ b :: front.reverse := by
      simp
    have isBlanks : ∀ c ∈ blank.1.reverse, isBlank c = true := fun c member =>
      blank.2 c (List.mem_reverse.mp member)
    rw [grouped, List.dropWhile_append_of_pos isBlanks, List.dropWhile_cons_of_neg]
    rw [inked]
    exact Bool.false_ne_true
  have reversed := congrArg (fun text : Bytes => text.reverse.dropWhile isBlank) same
  simp only [stripped _ _ _ inked, stripped _ _ _ inked'] at reversed
  exact List.reverse_inj.mp (List.cons.inj reversed).2

theorem append_key_inj {front front' key key' value value' : Bytes}
    (afterKey beforeValue afterKey' beforeValue' : Blank)
    (length : value.length = value'.length)
    (same : front ++ quote :: (key ++ quote :: (afterKey.1 ++ colon :: (beforeValue.1 ++ value))) =
      front' ++ quote ::
        (key' ++ quote :: (afterKey'.1 ++ colon :: (beforeValue'.1 ++ value')))) :
    front ++ quote :: key = front' ++ quote :: key' := by
  have grouped : ∀ (front key value : Bytes) (afterKey beforeValue : Blank),
      front ++ quote :: (key ++ quote :: (afterKey.1 ++ colon :: (beforeValue.1 ++ value))) =
        (front ++ quote :: key) ++ quote :: afterKey.1 ++ colon :: beforeValue.1 ++ value := by
    intro front key value afterKey beforeValue
    simp
  rw [grouped, grouped] at same
  have toColon := append_cons_blank_inj (by decide) (by decide) (List.append_inj' same length).1
  exact append_cons_blank_inj (by decide) (by decide) toColon

theorem Document.drop_eq (found : doc.member name = some m) : ∃ tail : Bytes,
    (∀ b ∈ tail.head?, isDigit b = false) ∧
      doc.text.drop (doc.keyStart name) = quote :: (bodyText m.key ++
        quote :: (m.afterKey.1 ++ colon :: (m.beforeValue.1 ++ (m.value.text ++ tail)))) ∧
      doc.text.drop ((doc.front name).length + m.head.length) = m.value.text ++ tail ∧
      (doc.front name).length + m.head.length =
        doc.text.length - (m.value.text ++ tail).length := by
  obtain ⟨tail, ends, split⟩ := Document.text_eq found
  refine ⟨tail, ends, ?_, ?_, ?_⟩
  · have start : doc.keyStart name = (doc.front name ++ m.before.1).length := by
      rw [Document.keyStart, found, List.length_append]
    have grouped : doc.text = (doc.front name ++ m.before.1) ++ quote :: (bodyText m.key ++
        quote :: (m.afterKey.1 ++ colon :: (m.beforeValue.1 ++ (m.value.text ++ tail)))) := by
      rw [split, Member.head, literal]
      simp
    rw [start, grouped, List.drop_left]
  · rw [split, ← List.append_assoc, ← List.length_append, List.drop_left]
  · rw [split]
    simp only [List.length_append]
    omega

theorem starts_value (value : JsonValue) (tail : Bytes) : Starts (value.text ++ tail) := by
  intro b first
  rw [List.head?_append, head?_text] at first
  obtain rfl := Option.some_inj.mp first
  exact isBlank_first value

theorem eq_key_of_valueAfterKey (plain : ∀ c ∈ name, IsPlain c) (found : doc.member name = some m)
    {value : Bytes} {i : ℕ} (here : valueAfterKey (encode name) (doc.text.drop i) = some value)
    (start : doc.text.length - value.length = (doc.front name).length + m.head.length) :
    bodyText m.key = encode name ∧ i = doc.keyStart name := by
  have isKey : charsOf m.key = name := by
    rw [Document.member] at found
    simpa using List.find?_some found
  obtain ⟨_, blank, blank', hereText⟩ := valueAfterKey_eq_some_iff.mp here
  obtain ⟨tail, _, thereText, _, valueStart⟩ := Document.drop_eq found
  have hereLength := congrArg List.length hereText
  have thereLength := congrArg List.length thereText
  simp only [List.length_drop, List.length_cons, List.length_append] at hereLength thereLength
  have sameLength : value.length = (m.value.text ++ tail).length := by
    rw [List.length_append] at valueStart ⊢
    omega
  have whole : doc.text.take i ++ quote :: encode name =
      doc.text.take (doc.keyStart name) ++ quote :: bodyText m.key := by
    refine append_key_inj blank blank' m.afterKey m.beforeValue sameLength ?_
    rw [← hereText, ← thereText, List.take_append_drop, List.take_append_drop]
  have within : i ≤ doc.text.length ∧ doc.keyStart name ≤ doc.text.length := by omega
  rcases List.append_eq_append_iff.mp whole with ⟨more, before, keys⟩ | ⟨more, before, keys⟩
  · cases more with
    | nil =>
      rw [List.append_nil] at before
      have places := congrArg List.length before
      rw [List.length_take_of_le within.1, List.length_take_of_le within.2] at places
      exact ⟨(List.cons.inj keys).2.symm, places.symm⟩
    | cons b more =>
      have inside : quote ∈ encode name :=
        (List.cons.inj keys).2 ▸ List.mem_append_right more List.mem_cons_self
      exact absurd inside (not_mem_encode plain).1
  · cases more with
    | nil =>
      rw [List.append_nil] at before
      have places := congrArg List.length before
      rw [List.length_take_of_le within.1, List.length_take_of_le within.2] at places
      exact ⟨(List.cons.inj keys).2, places⟩
    | cons b more =>
      rw [← isKey] at plain keys
      exact absurd (List.cons.inj keys).2 (bodyText_ne_of_plain plain)

theorem reads_of_none (absent : doc.member name = none)
    (never : ∀ i, ¬ KeyAt (encode name) doc.text i) : ReadsMember doc name := by
  have found : findFieldValue doc.text (encode name) = none := by
    rw [findFieldValue, findValue_eq_none_iff.mpr never, Option.map_none]
  constructor
  · rw [found, Document.valueStart, absent, Option.map_none]
  · rw [extractStrField, found, absent, Option.bind_none, Option.bind_none]
  · rw [extractIntField_eq, found, absent, Option.bind_none, Option.bind_none]
  · rw [extractObjectField, found, absent, Option.bind_none, Option.bind_none]
  · rw [extractArrayField, found, absent, Option.bind_none, Option.bind_none]

theorem findFieldValue_eq (found : doc.member name = some m)
    (spelled : bodyText m.key = encode name)
    (never : ∀ i < doc.keyStart name, ¬ KeyAt (encode name) doc.text i) :
    findFieldValue doc.text (encode name) = some ((doc.front name).length + m.head.length) := by
  obtain ⟨tail, _, thereText, _, valueStart⟩ := Document.drop_eq found
  have here : valueAfterKey (encode name) (doc.text.drop (doc.keyStart name)) =
      some (m.value.text ++ tail) :=
    valueAfterKey_eq_some_iff.mpr
      ⟨starts_value m.value tail, m.afterKey, m.beforeValue, by rw [thereText, spelled]⟩
  rw [findFieldValue, findValue_eq_some_iff.mpr ⟨_, here, never⟩, Option.map_some, valueStart]

theorem reads_iff_of_found (found : doc.member name = some m)
    (start : findFieldValue doc.text (encode name) =
      some ((doc.front name).length + m.head.length)) :
    ReadsMember doc name ↔ ∀ n, m.value = .number n → IsSmallInteger n := by
  obtain ⟨tail, ends, _, valueText, _⟩ := Document.drop_eq found
  have int : extractIntField doc.text (encode name) = intRead m.value := by
    rw [extractIntField_eq, start, Option.bind_some, valueText, readInt_eq ends]
  constructor
  · intro reads n isNumber
    have same := int.symm.trans reads.int
    rw [found, Option.bind_some, isNumber] at same
    exact wholeRead_eq_integer_iff.mp same
  · intro small
    constructor
    · rw [start, Document.valueStart, found, Option.map_some]
    · rw [extractStrField, start, found, Option.bind_some, Option.bind_some,
        extractStrValue_eq valueText]
    · rw [int, found, Option.bind_some]
      cases isValue : m.value with
      | number n => exact wholeRead_eq_integer_iff.mpr (small n isValue)
      | null | bool _ | string _ | array _ _ | object _ _ => rfl
    · rw [extractObjectField, start, found, Option.bind_some, Option.bind_some,
        matchingText_brace valueText]
    · rw [extractArrayField, start, found, Option.bind_some, Option.bind_some,
        matchingText_bracket valueText]

end Reading

/-- **The scanner.** The functions read the first member of an object with a key, wherever it
stands, exactly if the key in quotes with a colon behind it stands nowhere in front of the key of
the member (and nowhere at all if there is no such member), this key is spelled without escapes, and
a number has neither a fraction nor an exponent and fits. -/
theorem reads_member_iff (doc : Document) (name : { name : List Char // ∀ c ∈ name, IsPlain c }) :
    ReadsMember doc name ↔
      (∀ i < doc.keyStart name, ¬ KeyAt (encode name) doc.text i) ∧
        ∀ m, doc.member name = some m → IsReadable name m := by
  obtain ⟨name, plain⟩ := name
  cases found : doc.member name with
  | none =>
    have start : doc.keyStart name = doc.text.length := by rw [Document.keyStart, found]
    constructor
    · intro reads
      have nowhere := reads.position
      rw [Document.valueStart, found, Option.map_none, findFieldValue, Option.map_eq_none_iff,
        findValue_eq_none_iff] at nowhere
      exact ⟨fun i _ => nowhere i, fun m same => absurd same (Option.some_ne_none m).symm⟩
    · rintro ⟨never, _⟩
      refine reads_of_none found fun i here => never i ?_ here
      obtain ⟨blank, rest, split⟩ := here
      have length := congrArg List.length split
      simp only [List.length_drop, List.length_cons, List.length_append] at length
      simp only [start]
      omega
  | some m =>
    constructor
    · intro reads
      have position := reads.position
      rw [Document.valueStart, found, Option.map_some] at position
      have small := (reads_iff_of_found found position).mp reads
      rw [findFieldValue, Option.map_eq_some_iff] at position
      obtain ⟨value, isValue, start⟩ := position
      obtain ⟨i, here, never⟩ := findValue_eq_some_iff.mp isValue
      obtain ⟨spelled, rfl⟩ := eq_key_of_valueAfterKey plain found here start
      exact ⟨never, fun m' same => Option.some_inj.mp same ▸ ⟨spelled, small⟩⟩
    · rintro ⟨never, readable⟩
      obtain ⟨spelled, small⟩ := readable m rfl
      exact (reads_iff_of_found found (findFieldValue_eq found spelled never)).mpr small

/-! ### A key in a nested object -/

def statusMember (code : Number) : Member JsonValue :=
  ⟨noBlank, plainBody "status".toList, noBlank, noBlank, .number code, noBlank⟩

def nestedStatus : Document where
  lead := noBlank
  blank := noBlank
  members :=
    [⟨noBlank, plainBody "cause".toList, noBlank, noBlank,
        .object noBlank [statusMember (.ofNat 404)], noBlank⟩,
      statusMember (.ofNat 200)]
  trail := noBlank

/-- The status of the cause is read in place of that of the response. -/
theorem nested_key_is_read :
    extractIntField nestedStatus.text (encode "status".toList) = some 404 ∧
      ¬ ReadsMember nestedStatus "status".toList := by
  have read : extractIntField nestedStatus.text (encode "status".toList) = some 404 := by
    decide +kernel
  refine ⟨read, fun reads => ?_⟩
  have same := reads.int
  rw [read] at same
  revert same
  decide +kernel

end KelvinClaw.Plugin.JsonScanner
