import KelvinClaw.Core.Decimal
import KelvinClaw.Core.Splitting
import KelvinClaw.Library.Occurrences
import KelvinClaw.Plugin.ProviderResponse

/-!
# The tool syntax of the echo provider

The echo provider answers a prompt with the tool calls that are written in it: the name of a tool
and its arguments as a JSON object, between `[[tool:` and `]]`. It looks for the first closing
brackets, whatever stands in the arguments, and takes the empty object for arguments that are no
JSON.

So the calls are read as they are written exactly if no arguments have two closing brackets in a
row, as arrays in arrays do.
-/

namespace KelvinClaw.Brain.EchoModelProvider

open KelvinClaw.Core Systems

/-! ### The provider -/

/-- The parser of JSON texts. A text of an object cut off before its end is no JSON, and the empty
object has no brackets in it. -/
structure JsonReader where
  fromStr : List Char → Option Value
  cut : ∀ front rest members, fromStr (front ++ rest) = some (.obj members) →
    (∃ inner, front ++ rest = '{' :: (inner ++ ['}'])) → rest ≠ [] → fromStr front = none
  empty : ∀ text, fromStr text = some (.obj []) → ']' ∉ text

def openTag : List Char := "[[tool:".toList

def closeTag : List Char := "]]".toList

/-- `splitn(2, char::is_whitespace)`. -/
def splitFirst (body : List Char) : List Char × Option (List Char) :=
  (body.takeWhile fun c => !isWhitespace c,
    match body.dropWhile fun c => !isWhitespace c with
    | [] => none
    | _ :: rest => some rest)

section Provider

variable (reader : JsonReader)

def readCall (body : List Char) : Option (String × Value) :=
  let split := splitFirst (trimChars body)
  let name := trimChars split.1
  if name = [] then none
  else
    let arguments := (split.2.map trimChars).bind fun candidate =>
      if candidate = [] then none else reader.fromStr candidate
    some (String.ofList name, arguments.getD (.obj []))

/-- The loop over the text behind the cursor, with the number of calls read before. -/
def parseFrom : ℕ → ℕ → List Char → List ToolCall
  | 0, _, _ => []
  | fuel + 1, idx, cursor =>
    match cutAt openTag cursor with
    | none => []
    | some (_, rest) =>
      match cutAt closeTag rest with
      | none => []
      | some (body, cursor) =>
        match readCall reader body with
        | none => parseFrom fuel idx cursor
        | some (name, arguments) =>
          ⟨s!"tool-{idx + 1}", name, arguments⟩ :: parseFrom fuel (idx + 1) cursor

/-- `parse_tool_calls`. -/
def parseToolCalls (prompt : List Char) : List ToolCall :=
  parseFrom reader (prompt.length + 1) 0 prompt

def memoryPreviewLimit : ℕ := 2

def tokenEstimationDivisor : ℕ := 4

/-- `infer`. -/
def infer (input : ModelInput) : Plugin.ModelOutput :=
  let toolCalls := parseToolCalls reader input.userPrompt.toList
  let memoryContext :=
    if input.memorySnippets = [] then ""
    else "\n\nMemory recall:\n" ++ "\n".intercalate
      ((input.memorySnippets.take memoryPreviewLimit).map fun item => s!"- {item}")
  let assistantText :=
    if toolCalls = [] then s!"Echo: {trim input.userPrompt}{memoryContext}"
    else s!"Received {toolCalls.length} tool request(s). Executing requested tools next."
  let promptBytes := input.userPrompt.utf8ByteSize
  { assistantText
    stopReason := some (if toolCalls = [] then "completed" else "tool_calls")
    toolCalls
    usage := some {
      inputTokens := some (max (promptBytes / tokenEstimationDivisor) 1)
      outputTokens := some (max (assistantText.utf8ByteSize / tokenEstimationDivisor) 1)
      totalTokens :=
        some (max ((promptBytes + assistantText.utf8ByteSize) / tokenEstimationDivisor) 1) } }

/-! ### Written calls -/

/-- A call as it is written: a name without white space and closing brackets, and a JSON text of an
object. -/
structure WrittenCall where
  name : List Char
  json : List Char
  members : List (String × Value)
  name_nonempty : name ≠ []
  name_ink : ∀ c ∈ name, isWhitespace c = false
  name_open : ']' ∉ name
  braces : ∃ inner, json = '{' :: (inner ++ ['}'])
  reads : reader.fromStr json = some (.obj members)

abbrev FreeText := { text : List Char // ¬ openTag <:+: text }

variable {reader}

def WrittenCall.body (call : WrittenCall reader) : List Char := call.name ++ ' ' :: call.json

def promptOf : List (FreeText × WrittenCall reader) → FreeText → List Char
  | [], last => last
  | (text, call) :: rest, last =>
    text ++ (openTag ++ (call.body ++ (closeTag ++ promptOf rest last)))

def RoundTrips (calls : List (FreeText × WrittenCall reader)) (last : FreeText) : Prop :=
  (parseToolCalls reader (promptOf calls last)).map (fun call => (call.name, call.arguments)) =
      calls.map (fun call => (String.ofList call.2.name, Value.obj call.2.members)) ∧
    ((parseToolCalls reader (promptOf calls last)).map (·.id)).Nodup

/-! ### What is read -/

variable {call : WrittenCall reader} {fuel idx : ℕ} {rest tail : List Char}

theorem cutAt_openTag (text : FreeText) :
    cutAt openTag (text.1 ++ (openTag ++ rest)) = some (text.1, rest) :=
  cutAt_append (by decide) (@free_of_last _ text.1 "[[tool".toList ':' (by decide) text.2)

theorem readCall_of_name (call : WrittenCall reader) (tail : List Char) :
    readCall reader (call.name ++ ' ' :: '{' :: tail) =
      some (String.ofList call.name,
        (reader.fromStr (trimChars ('{' :: tail))).getD (.obj [])) := by
  have ink : isWhitespace '{' = false := by decide
  have named : trimChars call.name = call.name :=
    trimChars_eq_self (fun c head => call.name_ink c (List.mem_of_mem_head? head))
      (fun c last => call.name_ink c (List.mem_of_mem_getLast? last))
  have inside : ∀ c ∈ call.name, (!isWhitespace c) = true := fun c member => by
    rw [call.name_ink c member]
    rfl
  have blank : isWhitespace ' ' = true := by decide
  have trimmed : trimChars (call.name ++ ' ' :: '{' :: tail) =
      call.name ++ ' ' :: '{' :: tail.rdropWhile isWhitespace := by
    have first : (call.name ++ ' ' :: '{' :: tail).dropWhile isWhitespace =
        call.name ++ ' ' :: '{' :: tail := by
      obtain ⟨c, others, split⟩ := List.exists_cons_of_ne_nil call.name_nonempty
      rw [split, List.cons_append, List.dropWhile_cons_of_neg]
      rw [call.name_ink c (split ▸ List.mem_cons_self)]
      exact Bool.false_ne_true
    have grouped (tail : List Char) :
        call.name ++ ' ' :: '{' :: tail = (call.name ++ [' ']) ++ '{' :: tail := by simp
    rw [trimChars, first, grouped, rdropWhile_append_cons ink, ← grouped]
  have split : splitFirst (call.name ++ ' ' :: '{' :: tail.rdropWhile isWhitespace) =
      (call.name, some ('{' :: tail.rdropWhile isWhitespace)) := by
    rw [splitFirst, List.takeWhile_append_of_pos inside, List.dropWhile_append_of_pos inside]
    simp [blank]
  have again : trimChars ('{' :: tail.rdropWhile isWhitespace) = trimChars ('{' :: tail) := by
    have dropped := @rdropWhile_append_cons [] tail '{' ink
    rw [List.nil_append, List.nil_append] at dropped
    rw [← dropped, trimChars_rdropWhile]
  have filled : trimChars ('{' :: tail) ≠ [] :=
    List.ne_nil_of_mem (mem_trimChars List.mem_cons_self ink)
  simp only [readCall, trimmed, split, named, if_neg call.name_nonempty, Option.map_some, again,
    Option.bind_some, if_neg filled]

theorem readCall_body (call : WrittenCall reader) :
    readCall reader call.body = some (String.ofList call.name, .obj call.members) := by
  obtain ⟨inner, braces⟩ := call.braces
  have trimmed : trimChars call.json = call.json := by
    apply trimChars_eq_self
    · intro c head
      rw [braces] at head
      obtain rfl := Option.some_inj.mp head
      decide
    · intro c last
      rw [braces, ← List.cons_append, List.getLast?_concat] at last
      obtain rfl := Option.some_inj.mp last
      decide
  have reads := readCall_of_name call (inner ++ ['}'])
  rw [← braces, trimmed, call.reads] at reads
  exact reads

theorem cutAt_closeTag_of_free (free : ¬ closeTag <:+: call.json) :
    cutAt closeTag (call.body ++ (closeTag ++ tail)) = some (call.body, tail) := by
  refine cutAt_append (by decide) (free_of_pair ?_ fun early => free ?_)
  · obtain ⟨inner, braces⟩ := call.braces
    have last : call.body.getLast? = some '}' := by
      have split : call.body = call.name ++ ' ' :: '{' :: inner ++ ['}'] := by
        rw [WrittenCall.body, braces]
        simp
      rw [split, List.getLast?_concat]
    rw [last]
    decide
  · have outside : ']' ∉ call.name ++ [' '] := by
      rw [List.mem_append, List.mem_singleton, not_or]
      exact ⟨call.name_open, by decide⟩
    have grouped : call.body = (call.name ++ [' ']) ++ call.json := by
      rw [WrittenCall.body, List.append_assoc]
      rfl
    rw [grouped] at early
    exact infix_of_append outside early

theorem readCall_of_closeTag (closes : closeTag <:+: call.json) :
    ∃ body cursor, cutAt closeTag (call.body ++ (closeTag ++ tail)) = some (body, cursor) ∧
      readCall reader body = some (String.ofList call.name, .obj []) := by
  obtain ⟨inner, braces⟩ := call.braces
  cases cut : cutAt closeTag call.json with
  | none => exact absurd closes (cutAt_eq_none_iff.mp cut)
  | some parts =>
    obtain ⟨front, behind⟩ := parts
    obtain ⟨split, free⟩ := (cutAt_eq_some_iff (by decide)).mp cut
    -- the arguments begin with a brace, so something of them is left
    obtain ⟨more, rfl⟩ : ∃ more, front = '{' :: more := by
      rw [braces] at split
      cases front with
      | nil => cases (List.cons.inj split).1
      | cons c more => exact ⟨more, by rw [(List.cons.inj split).1]⟩
    have outside : ']' ∉ call.name ++ [' '] := by
      rw [List.mem_append, List.mem_singleton, not_or]
      exact ⟨call.name_open, by decide⟩
    refine ⟨call.name ++ ' ' :: '{' :: more, behind ++ (closeTag ++ tail), ?_, ?_⟩
    · have whole : call.body ++ (closeTag ++ tail) =
          (call.name ++ ' ' :: '{' :: more) ++ (closeTag ++ (behind ++ (closeTag ++ tail))) := by
        rw [WrittenCall.body, split]
        simp
      rw [whole]
      refine cutAt_append (by decide) fun early => free ?_
      have grouped : call.name ++ ' ' :: '{' :: more ++ closeTag.dropLast =
          (call.name ++ [' ']) ++ ('{' :: more ++ closeTag.dropLast) := by simp
      rw [grouped] at early
      exact infix_of_append outside early
    · have trimmed : trimChars ('{' :: more) <+: '{' :: more := by
        rw [trimChars, List.dropWhile_cons_of_neg (by decide)]
        exact List.rdropWhile_prefix _ _
      obtain ⟨blank, whole⟩ := trimmed
      have json : call.json = trimChars ('{' :: more) ++ (blank ++ (closeTag ++ behind)) := by
        rw [← List.append_assoc, whole, split]
      have unread := reader.cut (trimChars ('{' :: more)) (blank ++ (closeTag ++ behind))
        call.members (json ▸ call.reads) (json ▸ ⟨inner, braces⟩) (by simp [closeTag])
      rw [readCall_of_name, unread]
      rfl

theorem parseFrom_promptOf_iff {calls : List (FreeText × WrittenCall reader)} {last : FreeText}
    (enough : (promptOf calls last).length < fuel) :
    (parseFrom reader fuel idx (promptOf calls last)).map
        (fun call => (call.name, call.arguments)) =
          calls.map (fun call => (String.ofList call.2.name, Value.obj call.2.members)) ↔
      ∀ call ∈ calls, ¬ closeTag <:+: call.2.json := by
  induction calls generalizing fuel idx with
  | nil =>
    refine iff_of_true ?_ (List.forall_mem_nil _)
    cases fuel with
    | zero => rfl
    | succ fuel =>
      rw [promptOf, parseFrom, cutAt_eq_none_iff.mpr last.2, List.map_nil, List.map_nil]
  | cons item rest ih =>
    obtain ⟨text, call⟩ := item
    rw [List.forall_mem_cons]
    cases fuel with
    | zero => cases enough
    | succ fuel =>
      rw [promptOf, parseFrom, cutAt_openTag]
      simp only
      by_cases closes : closeTag <:+: call.json
      · obtain ⟨body, cursor, cut, reads⟩ :=
          @readCall_of_closeTag _ call (promptOf rest last) closes
        have lost : Value.obj [] ≠ Value.obj call.members := by
          intro same
          obtain ⟨before, behind, split⟩ := closes
          refine reader.empty call.json (same ▸ call.reads) ?_
          rw [← split]
          simp [closeTag]
        simp only [cut, reads, List.map_cons, List.cons.injEq, Prod.mk.injEq]
        exact iff_of_false (fun same => lost same.1.2) fun free => free.1 closes
      · have shorter : (promptOf rest last).length < fuel := by
          rw [promptOf] at enough
          simp only [List.length_append] at enough
          have : 0 < openTag.length := by decide
          omega
        simp only [cutAt_closeTag_of_free closes, readCall_body, List.map_cons, List.cons.injEq,
          true_and, ih shorter]
        exact (and_iff_right closes).symm

theorem nodup_parseFrom (fuel idx : ℕ) (cursor : List Char) :
    (∀ call ∈ parseFrom reader fuel idx cursor, ∃ k, idx < k ∧ call.id = s!"tool-{k}") ∧
      ((parseFrom reader fuel idx cursor).map (·.id)).Nodup := by
  induction fuel generalizing idx cursor with
  | zero => exact ⟨List.forall_mem_nil _, .nil⟩
  | succ fuel ih =>
    rw [parseFrom]
    split
    · exact ⟨List.forall_mem_nil _, .nil⟩
    · split
      · exact ⟨List.forall_mem_nil _, .nil⟩
      · split
        · exact ih idx _
        · next body cursor _ _ name arguments _ =>
          obtain ⟨later, distinct⟩ := ih (idx + 1) cursor
          refine ⟨List.forall_mem_cons.mpr ⟨⟨idx + 1, Nat.lt_succ_self idx, rfl⟩, ?_⟩, ?_⟩
          · intro call member
            obtain ⟨k, above, isId⟩ := later call member
            exact ⟨k, Nat.lt_of_succ_lt above, isId⟩
          · refine List.nodup_cons.mpr ⟨fun again => ?_, distinct⟩
            obtain ⟨call, member, same⟩ := List.mem_map.mp again
            obtain ⟨k, above, isId⟩ := later call member
            have numbers : (toString k).toList = (toString (idx + 1)).toList := by
              have texts := congrArg String.toList (isId.symm.trans same)
              simpa using texts
            have := toList_toString_inj numbers
            omega

end Provider

/-- **The tool syntax.** The calls of a prompt are read as they are written, with ids of their own,
exactly if no arguments have two closing brackets in a row. -/
theorem round_trips_iff (reader : JsonReader) (calls : List (FreeText × WrittenCall reader))
    (last : FreeText) :
    RoundTrips calls last ↔ ∀ call ∈ calls, ¬ closeTag <:+: call.2.json := by
  rw [RoundTrips, parseToolCalls, parseFrom_promptOf_iff (Nat.lt_succ_self _)]
  exact and_iff_left (nodup_parseFrom _ _ _).2

/-! ### An array in an array -/

def nestedText : List Char := "\x7b\"a\":[[1]]\x7d".toList

def nestedMembers : List (String × Value) := [("a", .arr [.arr [.num 1]])]

def nestedReader : JsonReader where
  fromStr text := if text = nestedText then some (.obj nestedMembers) else none
  cut front rest members reads _ more := by
    refine if_neg ?_
    rintro rfl
    split_ifs at reads with same
    exact more (List.append_right_eq_self.mp same)
  empty text reads := by
    split_ifs at reads
    cases Value.obj.inj (Option.some_inj.mp reads)

def nestedCall : WrittenCall nestedReader where
  name := "grid".toList
  json := nestedText
  members := nestedMembers
  name_nonempty := String.toList_eq_nil_iff.not.mpr (by decide)
  name_ink c member := by
    have ink : "grid".toList.all (isWhitespace · == false) = true := by decide
    exact eq_of_beq (List.all_eq_true.mp ink c member)
  name_open := by decide
  braces := ⟨"\"a\":[[1]]".toList, by decide⟩
  reads := by
    change (if nestedText = nestedText then _ else none) = _
    exact if_pos rfl

/-- The brackets of the array close the call, which loses its arguments. -/
theorem nested_array_is_lost :
    (parseToolCalls nestedReader
        (promptOf [(⟨[], by decide⟩, nestedCall)] ⟨[], by decide⟩)).map
          (fun call => (call.name, call.arguments)) = [("grid", .obj [])] ∧
      ¬ RoundTrips [(⟨[], by decide⟩, nestedCall)] ⟨[], by decide⟩ := by
  have read : (parseToolCalls nestedReader
      (promptOf [(⟨[], by decide⟩, nestedCall)] ⟨[], by decide⟩)).map
        (fun call => (call.name, call.arguments)) = [("grid", .obj [])] := by
    decide +kernel
  refine ⟨read, fun trips => ?_⟩
  have same := trips.1
  rw [read] at same
  revert same
  decide +kernel

end KelvinClaw.Brain.EchoModelProvider
