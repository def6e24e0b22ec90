import Mathlib.Tactic.IntervalCases
import KelvinClaw.Plugin.ToolCall

/-!
# Responses of the host

To a plugin the host passes a response as an object with the body and the status. The plugin looks
for its members in the text; the body stands first, and with its quotes escaped it does not hide the
status.
-/

namespace KelvinClaw.Plugin.ToolCall

open Systems Systems.Json JsonScanner JsonStrings

def hostLetter (c : Char) : Option ShortEscape :=
  if c = Char.ofNat 0x08 then some .backspace
  else if c = Char.ofNat 0x0C then some .formFeed
  else pluginLetter c

def hostSpelling : Spelling where
  letter := hostLetter
  char_letter c escape found := by
    unfold hostLetter at found
    split_ifs at found with isBackspace isFormFeed
    · rw [isBackspace, ← Option.some_inj.mp found]
      rfl
    · rw [isFormFeed, ← Option.some_inj.mp found]
      rfl
    · exact pluginSpelling.char_letter c escape found
  covers c none := by
    unfold hostLetter at none
    split_ifs at none
    exact pluginSpelling.covers c none

/-- Text without control characters other than tabs and line ends is read as it was. -/
theorem isRead_hostItem {c : Char} (isChar : IsTextChar c) : IsRead (hostSpelling.item c) := by
  unfold Spelling.item
  split
  · rename_i escape found
    have same := hostSpelling.char_letter c escape found
    refine ⟨?_, ?_⟩ <;> rintro rfl
    · rw [← same] at isChar
      exact absurd isChar (by unfold IsTextChar; decide)
    · rw [← same] at isChar
      exact absurd isChar (by unfold IsTextChar; decide)
  · rename_i none
    split_ifs with low
    · rcases isChar with high | rfl | rfl | rfl
      · exact absurd low (Nat.not_lt.mpr high)
      all_goals exact absurd none (by decide)
    · trivial

theorem unescaped_hostBody {body : List Char} (isText : ∀ c ∈ body, IsTextChar c) :
    unescaped (bodyText (hostSpelling.body body)) = encode body := by
  have read : ∀ item ∈ hostSpelling.body body, IsRead item := by
    intro item member
    obtain ⟨c, inBody, rfl⟩ := List.mem_map.mp member
    exact isRead_hostItem (isText c inBody)
  rw [unescaped_bodyText_eq_iff.mpr read, charsOf_body]

theorem isText_document (doc : Document) : IsText doc.text :=
  (isText_blank doc.lead).append ((isText_text _).append (isText_blank doc.trail))

/-- The object that the host writes for a response, with its members in alphabetical order. -/
def hostResponse (status : ℕ) (body : List Char) : Document where
  lead := noBlank
  blank := noBlank
  members :=
    [field "body" (.string (hostSpelling.body body)), field "status" (.number (.ofNat status))]
  trail := noBlank

theorem comma_cons_ne (blank : Blank) (rest rest' : Bytes) :
    comma :: rest ≠ blank.1 ++ colon :: rest' := by
  intro same
  cases spaces : blank.1 with
  | nil =>
    rw [spaces] at same
    exact absurd (List.cons.inj same).1 (by decide)
  | cons b more =>
    rw [spaces] at same
    have isBlank := blank.2 b (spaces ▸ List.mem_cons_self)
    rw [← (List.cons.inj same).1] at isBlank
    exact absurd isBlank (by decide)

theorem not_keyAt_literal {front field rest : Bytes} {body : List Item} {i : ℕ}
    (isField : IsBody field) (noComma : comma ∉ field) (above : front.length ≤ i)
    (below : i < front.length + (literal body).length) :
    ¬ KeyAt field (front ++ (literal body ++ comma :: rest)) i := by
  obtain ⟨j, rfl⟩ := Nat.exists_eq_add_of_le above
  rintro ⟨blank, behind, here⟩
  have lit : literal body ++ comma :: rest =
      quote :: (bodyText body ++ quote :: comma :: rest) := by
    rw [literal, List.cons_append, List.append_assoc]
    rfl
  have length : (literal body).length = (bodyText body).length + 2 := by
    rw [literal, List.length_cons, List.length_append, List.length_singleton]
  rw [← List.drop_drop, List.drop_left, lit] at here
  cases j with
  | zero =>
    obtain ⟨-, later⟩ := body_inj (isBody_bodyText body) isField (List.cons.inj here).2
    exact comma_cons_ne blank rest behind later
  | succ k =>
    rw [List.drop_succ_cons] at here
    rcases Nat.lt_or_ge k (bodyText body).length with inside | last
    · -- a quote in the string, which is escaped
      rw [List.drop_append_of_le_length inside.le] at here
      cases dropped : (bodyText body).drop k with
      | nil => exact absurd (List.drop_eq_nil_iff.mp dropped) (Nat.not_le.mpr inside)
      | cons b more =>
        rw [dropped] at here
        obtain ⟨rfl, tail⟩ := List.cons.inj here
        have split : bodyText body = (bodyText body).take k ++ quote :: more := by
          rw [← dropped, List.take_append_drop]
        obtain ⟨_, second, _, _, spelled⟩ := exists_of_bodyText_eq split
        have isMore : IsBody more := spelled ▸ isBody_bodyText second
        exact comma_cons_ne blank rest behind (body_inj isMore isField tail).2
    · -- the quote at the end of the string
      have ends : k = (bodyText body).length := by omega
      rw [ends, List.drop_left] at here
      have tail := (List.cons.inj here).2
      cases field with
      | nil => exact absurd (List.cons.inj tail).1 (by decide)
      | cons b field => exact noComma ((List.cons.inj tail).1 ▸ List.mem_cons_self)

variable {status : ℕ} {body : List Char}

theorem head_field (name : String) (value : JsonValue) :
    (field name value).head = literal (plainBody name.toList) ++ [colon] := rfl

theorem text_hostResponse (status : ℕ) (body : List Char) :
    (hostResponse status body).text = ascii "\x7b\"body\":" ++
      (literal (hostSpelling.body body) ++ comma ::
        (ascii "\"status\":" ++ ((Number.ofNat status).text ++ [closeBrace]))) := by
  have first : literal (plainBody "body".toList) ++ [colon] = ascii "\"body\":" := by decide
  have brace : ascii "\x7b\"body\":" = openBrace :: ascii "\"body\":" := by decide
  rw [Document.text, JsonValue.text, hostResponse]
  simp only [noBlank, membersText_cons, moreMembers, Member.text, head_field, first, brace,
    List.nil_append, List.append_nil, List.cons_append, List.append_assoc]
  rfl

theorem member_body : (hostResponse status body).member "body".toList =
    some (field "body" (.string (hostSpelling.body body))) := by
  have same : charsOf (plainBody "body".toList) = "body".toList := by decide
  exact List.find?_cons_of_pos (decide_eq_true same)

theorem member_status : (hostResponse status body).member "status".toList =
    some (field "status" (.number (.ofNat status))) := by
  have other : charsOf (plainBody "body".toList) ≠ "status".toList := by decide
  have same : charsOf (plainBody "status".toList) = "status".toList := by decide
  refine (List.find?_cons_of_neg ?_).trans (List.find?_cons_of_pos (decide_eq_true same))
  exact fun found => other (of_decide_eq_true found)

theorem front_status : (hostResponse status body).front "status".toList =
    ascii "\x7b\"body\":" ++ (literal (hostSpelling.body body) ++ [comma]) := by
  have other : charsOf (plainBody "body".toList) ≠ "status".toList := by decide
  have same : charsOf (plainBody "status".toList) = "status".toList := by decide
  have first : literal (plainBody "body".toList) ++ [colon] = ascii "\"body\":" := by decide
  have brace : ascii "\x7b\"body\":" = openBrace :: ascii "\"body\":" := by decide
  have members : (hostResponse status body).members.takeWhile
      (fun m => charsOf m.key ≠ "status".toList) =
        [field "body" (.string (hostSpelling.body body))] := by
    simp only [hostResponse, List.takeWhile_cons, field, other, same, ne_eq, not_true_eq_false,
      not_false_eq_true, decide_true, decide_false, if_true, Bool.false_eq_true, if_false]
  rw [Document.front, members, frontText, List.flatMap_singleton, Member.text, head_field, first,
    brace]
  simp only [field, JsonValue.text, hostResponse, noBlank, List.nil_append, List.append_nil,
    List.cons_append, List.append_assoc]

theorem not_keyAt_status {i : ℕ}
    (before : i < (hostResponse status body).keyStart "status".toList) :
    ¬ KeyAt (encode "status".toList) (hostResponse status body).text i := by
  have isField : IsBody (encode "status".toList) := isBody_of_plain fun b member =>
    ⟨ne_of_mem_of_not_mem member (by decide), ne_of_mem_of_not_mem member (by decide)⟩
  have start : (hostResponse status body).keyStart "status".toList =
      (ascii "\x7b\"body\":").length + ((literal (hostSpelling.body body)).length + 1) := by
    rw [Document.keyStart, member_status, front_status, List.length_append, List.length_append]
    rfl
  rw [start] at before
  rw [text_hostResponse]
  rcases Nat.lt_or_ge i (ascii "\x7b\"body\":").length with inFront | behind
  · have length : (ascii "\x7b\"body\":").length = 8 := by decide
    have bytes : ascii "\x7b\"body\":" = [0x7B, 0x22, 0x62, 0x6F, 0x64, 0x79, 0x22, 0x3A] := by
      decide
    rw [length] at inFront
    rw [bytes]
    -- no other key, and no colon behind the quotes of the key
    rintro ⟨blank, rest, here⟩
    interval_cases i <;>
      first
        | exact absurd (List.cons.inj here).1 (by decide)
        | exact absurd (List.cons.inj (List.cons.inj here).2).1 (by decide)
  · rcases Nat.lt_or_ge i ((ascii "\x7b\"body\":").length +
      (literal (hostSpelling.body body)).length) with inside | atComma
    · exact not_keyAt_literal isField (by decide) behind inside
    · rintro ⟨blank, rest, here⟩
      obtain rfl : i = (ascii "\x7b\"body\":").length +
        (literal (hostSpelling.body body)).length := by omega
      rw [← List.drop_drop, List.drop_left, List.drop_left] at here
      exact absurd (List.cons.inj here).1 (by decide)

theorem extractStrField_hostResponse :
    extractStrField (hostResponse status body).text (ascii "body") =
      some (bodyText (hostSpelling.body body)) := by
  have spelled : bodyText (plainBody "body".toList) = encode "body".toList := by decide
  have name : ascii "body" = encode "body".toList := by decide
  have start : (hostResponse status body).keyStart "body".toList = 1 := by
    rw [Document.keyStart, member_body]
    have same : charsOf (plainBody "body".toList) = "body".toList := by decide
    have none : (hostResponse status body).members.takeWhile
        (fun m => charsOf m.key ≠ "body".toList) = [] :=
      List.takeWhile_cons_of_neg fun differs => of_decide_eq_true differs same
    rw [Document.front, none]
    rfl
  have position := findFieldValue_eq (@member_body status body) spelled fun i before => by
    rw [start, Nat.lt_one_iff] at before
    rintro ⟨blank, rest, here⟩
    rw [before, text_hostResponse] at here
    exact absurd (List.cons.inj here).1 (by decide)
  have reads := (reads_iff_of_found member_body position).mpr fun n isNumber =>
    JsonValue.noConfusion isNumber
  rw [name, reads.string, member_body]
  rfl

theorem extractIntField_hostResponse (small : status ≤ Core.i64Max) :
    extractIntField (hostResponse status body).text (ascii "status") = some (status : ℤ) := by
  have spelled : bodyText (plainBody "status".toList) = encode "status".toList := by decide
  have name : ascii "status" = encode "status".toList := by decide
  have position := findFieldValue_eq (@member_status status body) spelled
    fun i => not_keyAt_status
  have reads := (reads_iff_of_found member_status position).mpr fun n isNumber => by
    obtain rfl := JsonValue.number.inj isNumber
    exact ⟨rfl, rfl, (digitsValue_decimal status).trans_le small⟩
  rw [name, reads.int, member_status]
  exact integer_ofNat status

end KelvinClaw.Plugin.ToolCall
